/-
Automation/Proofs/Loop/Delivery.lean

Each item is delivered once and in its place.

The number of iterations is decided by one source (`Decides`): the first one whose variable has
the linked id, or a longest one.  In the iterations in order a variable goes through the elements
of its source, and is null behind them (`map_resolve_name`).  And a loop starts its iterations in
order, each of them once and in its own view, whatever the size of its batches is
(`Phase.exists_startedIn`): at any moment the first ones up to some number, and at the end all of
them, unless there is a failure that it stops at, a cancellation or a delay that cannot be slept.

The number of iterations that have been started comes from the law of a loop: its history is a
sequence of rounds, and each round begins where the one before it has ended.
-/
import Mathlib.Data.Finset.Max
import Mathlib.Data.List.Fold
import Mathlib.Data.List.MinMax
import Automation.Proofs.Loop.Agreement
import Automation.Proofs.Loop.Ambient
import Automation.Proofs.Binding.Reference

namespace Automation.Loop

open Automation.Binding
open Automation.Schedule (Pool Task)

/-! ### The sources of a plan -/

namespace Plan

variable {trims : Bool} {view : View} {plan : Plan} {v : Variable} {xs : List Value}

/-- A variable with its elements, if its source is usable. -/
def usable? (trims : Bool) (view : View) (v : Variable) : Option (Variable × List Value) :=
  match source? trims view v with
  | .ok (some xs) => some (v, xs)
  | _ => none

/-- Sources are collected if each can be looked up, and then they are the usable ones. -/
theorem of_collect {vars : List Variable} {sources : List (Variable × List Value)}
    (h : collect trims view vars = .ok sources) :
    (∀ v ∈ vars, ∃ found, source? trims view v = .ok found) ∧
      sources = vars.filterMap (usable? trims view) := by
  induction vars generalizing sources with
  | nil => exact ⟨List.forall_mem_nil _, (Except.ok.inj h).symm⟩
  | cons v vars ih =>
    rw [collect] at h
    rcases hfound : source? trims view v with fault | found
    · rw [hfound] at h
      cases h
    rcases hmore : collect trims view vars with fault | more
    · rw [hfound, hmore] at h
      cases h
    rw [hfound, hmore] at h
    obtain rfl := Except.ok.inj h
    obtain ⟨hall, rfl⟩ := ih hmore
    refine ⟨List.forall_mem_cons.mpr ⟨⟨found, hfound⟩, hall⟩, ?_⟩
    rw [List.filterMap_cons]
    cases found <;> simp [usable?, hfound]

/-- The sources of a plan are the usable ones in the order of the variables. -/
theorem sources_eq {loop : String} {settings : Settings}
    (h : make loop settings view = .ok plan) :
    plan.settings = settings ∧
      plan.sources = settings.vars.filterMap (usable? settings.trims view) := by
  unfold make at h
  rcases hcollect : collect settings.trims view settings.vars with fault | sources
  · rw [hcollect] at h
    cases h
  rw [hcollect] at h
  obtain rfl := Except.ok.inj h
  exact ⟨rfl, (of_collect hcollect).2⟩

/-! ### The number of iterations -/

/-- A source decides the number of iterations: it is the first one whose variable has the linked
id, or, if none has, one that no other is longer than. -/
inductive Decides (plan : Plan) : List Value → Prop
  | linked {before after : List (Variable × List Value)} {v : Variable} {xs : List Value} :
      plan.sources = before ++ (v, xs) :: after → plan.settings.linkedVariable = .text v.id →
      (∀ s ∈ before, plan.settings.linkedVariable ≠ .text s.1.id) → Decides plan xs
  | longest {v : Variable} {xs : List Value} : (v, xs) ∈ plan.sources →
      (∀ s ∈ plan.sources, plan.settings.linkedVariable ≠ .text s.1.id) →
      (∀ s ∈ plan.sources, s.2.length ≤ xs.length) → Decides plan xs

theorem linked?_eq (plan : Plan) :
    plan.linked? =
      (plan.sources.find? fun s => plan.settings.linkedVariable == .text s.1.id).map (·.2) := by
  unfold linked?
  split
  · next hnull =>
    have hnone : plan.sources.find? (fun s => plan.settings.linkedVariable == .text s.1.id) =
        none := by
      rw [List.find?_eq_none]
      intro s _
      simp [hnull]
    rw [hnone]
    rfl
  · rfl

theorem longest_eq (hsource : (v, xs) ∈ plan.sources)
    (hmost : ∀ s ∈ plan.sources, s.2.length ≤ xs.length) : plan.longest = xs.length := by
  have hlength : xs.length ∈ plan.sources.map fun s => s.2.length :=
    List.mem_map.mpr ⟨(v, xs), hsource, rfl⟩
  rw [longest, List.foldl_eq_foldr]
  apply Nat.le_antisymm
  · refine List.max_le_of_forall_le _ _ fun n hn => ?_
    obtain ⟨s, hs, rfl⟩ := List.mem_map.mp hn
    exact hmost s hs
  · exact List.le_max_of_le hlength (Nat.le_refl _)

/-- Where there are sources, one of them decides. -/
theorem exists_decides (h : plan.sources ≠ []) : ∃ xs, plan.Decides xs := by
  by_cases hlinked : ∃ s ∈ plan.sources, plan.settings.linkedVariable = .text s.1.id
  · obtain ⟨s, hs, hid⟩ := hlinked
    rcases hfind : plan.sources.find?
      fun s => decide (plan.settings.linkedVariable = .text s.1.id) with - | ⟨v, xs⟩
    · exact absurd hid (by simpa using List.find?_eq_none.mp hfind s hs)
    · obtain ⟨hid, before, after, hsources, hbefore⟩ := List.find?_eq_some_iff_append.mp hfind
      exact ⟨xs, .linked hsources (by simpa using hid) (by simpa using hbefore)⟩
  · have hne : (plan.sources : Multiset (Variable × List Value)) ≠ 0 := by simpa using h
    obtain ⟨⟨v, xs⟩, hs, hmost⟩ := Multiset.exists_max_image (fun s => s.2.length) hne
    exact ⟨xs, .longest hs (fun s hs hid => hlinked ⟨s, hs, hid⟩) hmost⟩

/-- A loop runs as often as the source has elements that decides, and never more often than its
cap. -/
theorem count_eq (hvars : plan.settings.vars ≠ []) (h : plan.Decides xs) :
    plan.count = min plan.settings.maxIterations xs.length := by
  have hcount : plan.count =
      min ((plan.linked?.map List.length).getD plan.longest) plan.settings.maxIterations := by
    rw [count, if_neg (by simpa using hvars)]
    cases plan.linked? <;> rfl
  rw [hcount, linked?_eq, Nat.min_comm]
  cases h with
  | @linked before after v xs hsources hid hbefore =>
    have hfind : plan.sources.find? (fun s => plan.settings.linkedVariable == .text s.1.id) =
        some (v, xs) := by
      apply List.find?_eq_some_iff_append.mpr
      exact ⟨by simpa using hid, before, after, hsources, by simpa using hbefore⟩
    rw [hfind]
    rfl
  | longest hsource hnone hmost =>
    have hfind : plan.sources.find? (fun s => plan.settings.linkedVariable == .text s.1.id) =
        none := by
      apply List.find?_eq_none.mpr
      simpa using hnone
    rw [hfind, Option.map_none, Option.map_none, Option.getD_none, longest_eq hsource hmost]

/-! ### What the iterations see -/

/-- The first elements of a source, with null behind its end. -/
theorem map_element (xs : List Value) (count : ℕ) :
    (List.range count).map (fun i : ℕ => element xs i) =
      xs.take count ++ List.replicate (count - xs.length) .null := by
  apply List.ext_getElem
  · simp
    omega
  intro i hi _
  have hlt : i < count := by simpa using hi
  have helement : element xs i = xs[i]?.getD .null := by
    simp [element, Value.element, Int.not_lt.mpr (Int.natCast_nonneg i)]
  rw [List.getElem_map, List.getElem_range, helement]
  rcases Nat.lt_or_ge i xs.length with hin | hout
  · rw [List.getElem_append_left (by simp [hlt, hin]), List.getElem_take,
      List.getElem?_eq_getElem hin, Option.getD_some]
  · rw [List.getElem_append_right (by simp [hout]), List.getElem_replicate,
      List.getElem?_eq_none hout, Option.getD_none]

theorem isBindable_append_index {name : String} (h : IsBindable name) :
    IsBindable (name ++ "Index") :=
  h.append (by decide) (by decide) (by decide)

/-- In the iterations in order a variable goes through the elements of its source. -/
theorem map_resolve_name (view : View) (hapart : plan.KeepsApart)
    (hnames : ∀ n ∈ plan.names, IsBindable n) (hsource : (v, xs) ∈ plan.sources) :
    (List.range plan.count).map
        (fun i : ℕ => (plan.enter view i).resolve (bindingTo v.name)) =
      (xs.take plan.count ++ List.replicate (plan.count - xs.length) Value.null).map .ok := by
  have hname : v.name ∈ plan.names := List.mem_map.mpr ⟨(v, xs), hsource, rfl⟩
  rw [← map_element, List.map_map]
  apply List.map_congr_left
  intro i _
  exact resolve_bindings rfl (hnames _ hname) (hapart.get?_bindings hsource).1

theorem resolve_index (view : View) (hapart : plan.KeepsApart)
    (hnames : ∀ n ∈ plan.names, IsBindable n) (hsource : (v, xs) ∈ plan.sources) (i : ℕ) :
    (plan.enter view i).resolve (bindingTo (v.name ++ "Index")) = .ok (.int i) := by
  have hname : v.name ∈ plan.names := List.mem_map.mpr ⟨(v, xs), hsource, rfl⟩
  exact resolve_bindings rfl (isBindable_append_index (hnames _ hname))
    (hapart.get?_bindings hsource).2

theorem resolve_isFirst (view : View) (hnames : ∀ n ∈ plan.names, n ∉ reservedNames) (i : ℕ) :
    (plan.enter view i).resolve (bindingTo "loop.isFirst") = .ok (.bool (i = 0)) := by
  rw [← isFirst_natCast]
  exact resolve_reserved rfl hnames rfl

theorem resolve_isLast (view : View) (hnames : ∀ n ∈ plan.names, n ∉ reservedNames) (i : ℕ) :
    (plan.enter view i).resolve (bindingTo "loop.isLast") = .ok (.bool (i + 1 = plan.count)) := by
  rw [← isLast_natCast]
  exact resolve_reserved rfl hnames rfl

end Plan

/-! ### What is started -/

variable {σ : Type*} {β : Type*} {bodies : Bodies σ β} {view : View} {plan : Plan}

/-- The tasks that have been started. -/
def startedIn (told : List (Event β)) : List (Driven β) :=
  told.flatMap fun
    | .started batch => batch
    | _ => []

@[simp] theorem startedIn_append (told more : List (Event β)) :
    startedIn (told ++ more) = startedIn told ++ startedIn more :=
  List.flatMap_append

@[simp] theorem startedIn_cons_started (batch : List (Driven β)) (told : List (Event β)) :
    startedIn (.started batch :: told) = batch ++ startedIn told :=
  List.flatMap_cons

/-- Nothing but the start of a batch starts anything. -/
theorem startedIn_eq_nil {told : List (Event β)} (h : ∀ batch, .started batch ∉ told) :
    startedIn told = [] := by
  refine List.flatMap_eq_nil_iff.mpr fun e he => ?_
  cases e with
  | started batch => exact absurd he (h batch)
  | returned | slept | cancelled => rfl

theorem startedIn_gap {batches : List (List Lap)} {gap : List (Event β)}
    (h : Gap plan batches gap) : startedIn gap = [] := by
  unfold Gap at h
  split at h
  · obtain ⟨-, microseconds, -, -, rfl⟩ := h
    rfl
  · rw [h]
    rfl

theorem startedIn_returns {returns : List (Event β)} {batch : List Lap}
    (h : returns.Perm (batch.zipIdx.map fun (l, place) => .returned place l)) :
    startedIn returns = [] := by
  refine startedIn_eq_nil fun started hmem => ?_
  simpa using h.mem_iff.mp hmem

/-- A batch after others goes on where they have ended. -/
theorem batch_append (first count more : ℕ) :
    bodies.batch view plan first count ++ bodies.batch view plan (first + count) more =
      bodies.batch view plan first (count + more) := by
  simp [Bodies.batch, ← List.map_append]

/-- In a number of rounds the iterations are started in order, each of them once. -/
theorem Rounds.startedIn_eq {told : List (Event β)} {batches : List (List Lap)}
    (h : Rounds bodies view plan told batches) :
    startedIn told = bodies.batch view plan 0 batches.flatten.length := by
  induction h with
  | none => rfl
  | @next told batches gap batch round _ hgap hround ih =>
    obtain ⟨returns, rfl, hreturns⟩ := hround.told
    rw [startedIn_append, startedIn_append, ih, startedIn_gap hgap, startedIn_cons_started,
      startedIn_returns hreturns, List.append_nil, List.append_nil, List.flatten_append,
      List.length_append, List.flatten_singleton, ← batch_append, Nat.zero_add]

theorem Lawful.startedIn_eq {told : List (Event β)} {report : Report} {batches : List (List Lap)}
    (h : Lawful bodies view plan told report batches) :
    startedIn told = bodies.batch view plan 0 report.laps.length := by
  obtain ⟨rounds, rest, rfl, hrounds, hrest⟩ := h.told
  have hnothing : startedIn rest = [] := by
    split at hrest
    · obtain ⟨gap, hgap, rfl⟩ := hrest
      rw [startedIn_append, startedIn_gap hgap]
      rfl
    · rw [hrest]
      rfl
  rw [startedIn_append, hrounds.startedIn_eq, hnothing, List.append_nil, h.laps]

/-- At any moment the first iterations up to some number have been started. -/
theorem Phase.exists_startedIn {told : List (Event β)} {t : Task (Driven β) Ending}
    (h : Phase bodies view plan told t) :
    ∃ m ≤ plan.count, startedIn told = bodies.batch view plan 0 m := by
  cases h with
  | @between told batches gap course hrounds hgap hstage _ =>
    refine ⟨_, hrounds.length_le, ?_⟩
    have hnothing : startedIn gap = [] := by
      split at hgap
      · rw [hgap]
        rfl
      · exact startedIn_gap hgap
    rw [startedIn_append, hrounds.startedIn_eq, hnothing, List.append_nil]
  | @gathering told batches gap course returns children hrounds hgap hstage _ hlt hsize hbodies
      hreturns =>
    have hnothing : startedIn returns = [] := by
      refine startedIn_eq_nil fun batch hmem => ?_
      obtain ⟨⟨t, place⟩, -, ht⟩ := List.mem_flatMap.mp (hreturns.mem_iff.mp hmem)
      replace ht : .started batch ∈ returnOf place t := ht
      unfold returnOf at ht
      split at ht <;> simp at ht
    refine ⟨course.next + children.length, by omega, ?_⟩
    rw [startedIn_append, startedIn_append, hrounds.startedIn_eq, startedIn_gap hgap,
      startedIn_cons_started, hnothing, List.append_nil, List.append_nil, ← hstage.next,
      ← batch_append, Nat.zero_add]
  | settling hrounds _ _ => exact ⟨_, hrounds.length_le, hrounds.startedIn_eq⟩
  | finished hlawful => exact ⟨_, hlawful.bounded, hlawful.startedIn_eq⟩
  | failed hrounds _ => exact ⟨_, hrounds.length_le, hrounds.startedIn_eq⟩

/-- A loop that goes on after failures and was not cancelled has started all its iterations, or
could not rest. -/
theorem startedIn_ended {outside : σ → σ → Prop} {s : σ} {told : List (Event β)}
    {d : Pool σ (Driven β) Ending} {e : Ending}
    (htold : Pool.Told (bodies.program view) outside (bodies.tells view)
      (Pool.start s (.turn (.new plan))) told d)
    (hends : d.at? [0] = some (.ended e)) (hgoes : plan.settings.stopsOnFailure = false)
    (hnever : ∀ m, Pool.Reaches (bodies.program view) outside (Pool.start s (.turn (.new plan))) m →
      Pool.Reaches (bodies.program view) outside m d → bodies.isCancelled m.shared = false) :
    (∃ fault, e = .fault fault ∧ CannotRest plan fault ∧
        ∃ m < plan.count, startedIn told = bodies.batch view plan 0 m) ∨
      ∃ report, e = .report report ∧ startedIn told = bodies.batch view plan 0 plan.count := by
  obtain ⟨t, ht, hphase⟩ := exists_phase htold
  obtain rfl : t = .ended e := by
    obtain ⟨root, hroot, hat⟩ := Option.bind_eq_some_iff.mp hends
    exact (Option.some.inj (ht.symm.trans hroot)).trans (Option.some.inj hat)
  cases hphase with
  | @failed _ batches fault hrounds hleft =>
    have hkept : Pool.KeptAt (bodies.program view) outside seat none (fun _ => True)
        fun _ => Inhabits plan fun _ => True :=
      inhabits_kept (fun _ _ => trivial) (fun _ _ => trivial) outside
    have hfault : Inhabits plan (fun _ : β => True) none (.ended (.fault fault)) :=
      (hkept.reaches (inhabits_start s) htold.reaches).2 _ (mem_placed_of_ended hends)
    exact .inl ⟨fault, rfl, hfault, _, hleft, hrounds.startedIn_eq⟩
  | @finished _ report batches hlawful =>
    refine .inr ⟨report, rfl, ?_⟩
    have hall : ¬ report.laps.length < plan.count := by
      intro hlt
      rcases hlawful.reason hlt with hcancelled | ⟨hstops, -⟩
      · obtain ⟨m, hm, hraised, hd⟩ := hlawful.raised htold hcancelled
        rw [hnever m hm hd] at hraised
        cases hraised
      · rw [hgoes] at hstops
        cases hstops
    rw [hlawful.startedIn_eq, Nat.le_antisymm hlawful.bounded (Nat.not_lt.mp hall)]

namespace Sample

/-- A view with a result that has a list of two elements. -/
def shelf : View :=
  { outset with results := [("n", .object [("f", .list [.text "a", .text "b"])])] }

/-- The settings of a loop that goes through the list. -/
def fetching (delayMs : ℕ) : Settings :=
  { (counting 5 delayMs 5 false false).settings with vars := [⟨"v", "item", "n", "f"⟩] }

/-- The loop. -/
def fetched (delayMs : ℕ) : Plan :=
  ⟨"l", fetching delayMs, [(⟨"v", "item", "n", "f"⟩, [.text "a", .text "b"])]⟩

theorem make_fetched (delayMs : ℕ) :
    Plan.make "l" (fetching delayMs) shelf = .ok (fetched delayMs) := rfl

theorem keepsApart_fetched (delayMs : ℕ) : (fetched delayMs).KeepsApart where
  nodup := List.nodup_singleton _
  index := by
    have hapart : ∀ n ∈ ["item"], ∀ m ∈ ["item"], n ≠ m ++ "Index" := by decide
    exact hapart
  reserved := by
    have hapart : ∀ n ∈ ["item"], n ∉ Plan.reservedNames := by decide
    exact hapart

theorem isBindable_fetched (delayMs : ℕ) : ∀ n ∈ (fetched delayMs).names, IsBindable n := by
  have hitem : ∀ n ∈ ["item"], IsBindable n := by decide
  exact hitem

/-- A run of the loop after some steps of the machine. -/
def fetchedAfter (delayMs steps : ℕ) : Pool Unit (Driven (ℕ × Bool)) Ending :=
  ((Schedule.Machine.start () (.turn (.new (fetched delayMs)))).run
    ((breakingAt 2).program shelf) steps).1.toPool

theorem reaches_fetchedAfter (delayMs steps : ℕ) :
    Pool.Reaches ((breakingAt 2).program shelf) (fun _ _ => False)
      (Pool.start () (.turn (.new (fetched delayMs)))) (fetchedAfter delayMs steps) :=
  Schedule.Machine.reaches_run ((breakingAt 2).program shelf) _ steps
    (Schedule.Machine.start () (.turn (.new (fetched delayMs))))

end Sample

end Automation.Loop
