/-
Automation/Proofs/Loop/Hygiene.lean

What the variables of a loop are resolved to inside of it, those without a usable source included.

In every iteration that a loop starts, a variable whose source is usable is resolved to the element
of its own source, whatever is bound to its name around the loop.  A variable whose source is not
usable is not bound at all: its name means what it means outside, be that a binding of a loop around,
a result or a variable of the flow (`resolve_variables`).
-/
import Automation.Proofs.Loop.Delivery
import Automation.Proofs.Value.Path

namespace Automation

open Binding

/-! ### Names that are looked up in two views -/

namespace View

variable {v w : View} {name : String}

/-- A name without dots and brackets is looked up as a whole: among the bindings of the loops, then
among the results and the variables of the flow. -/
theorem lookup_name (h : IsName name) : v.lookup name =
    match v.loopScope.get? name with
    | some bound => .ok bound
    | none =>
      if v.results.has name then (Value.object v.results).at name
      else if (v.declared.get name).isNull then .ok .null
      else (Value.object [(name, v.declared.get name)]).at name := by
  have hcut : headAndRest name = (name, "") :=
    headAndRest_of_not_mem fun hdot => (h.chars _ hdot).1 rfl
  have hsegment : segmentName name = name :=
    segmentName_of_not_mem fun hbracket => (h.chars _ hbracket).2.1 rfl
  have hmarker : ¬ (headAndRest "").1 = frameMarker := by decide
  unfold lookup
  rw [if_neg (by simpa using h.nonempty)]
  simp only [hcut, hsegment, if_neg hmarker, ne_eq, not_true_eq_false, and_false, if_false]
  rcases hbound : v.loopScope.get? name with - | bound
  · have hscope : v.loopScope.has name = false := Fields.has_eq_false_iff.mpr hbound
    simp only [hscope, Bool.false_eq_true, if_false]
  · rfl

/-- Views that differ in other bindings and in frames only give a name the same value. -/
theorem lookup_name_congr (h : IsName name) (hscope : v.loopScope.get? name = w.loopScope.get? name)
    (hresults : v.results = w.results) (hdeclared : v.declared = w.declared) :
    v.lookup name = w.lookup name := by
  rw [lookup_name h, lookup_name h, hscope, hresults, hdeclared]

end View

namespace Loop

open Automation.Schedule (Pool Task)

/-! ### Variables that keep apart -/

/-- The names of the variables keep apart from each other and from what every iteration binds, and a
binding can refer to each of them. -/
structure Settings.NamesApart (settings : Settings) : Prop where
  nodup : (settings.vars.map Variable.name).Nodup
  index : ∀ v ∈ settings.vars, ∀ w ∈ settings.vars, v.name ≠ w.name ++ "Index"
  reserved : ∀ v ∈ settings.vars, v.name ∉ Plan.reservedNames
  bindable : ∀ v ∈ settings.vars, IsBindable v.name

namespace Plan

variable {loop : String} {settings : Settings} {view : View} {plan : Plan} {v : Variable}

theorem usable?_eq_some_iff {trims : Bool} {s : Variable × List Value} :
    usable? trims view v = some s ↔ s.1 = v ∧ source? trims view v = .ok (some s.2) := by
  obtain ⟨w, xs⟩ := s
  unfold usable?
  rcases source? trims view v with fault | _ | ys <;> simp [eq_comm]

/-- The variables with usable sources are some of the variables, in their order. -/
theorem sublist_vars (trims : Bool) (view : View) (vars : List Variable) :
    ((vars.filterMap (usable? trims view)).map Prod.fst).Sublist vars := by
  induction vars with
  | nil => exact .slnil
  | cons v vars ih =>
    rcases hv : usable? trims view v with - | s
    · rw [List.filterMap_cons_none hv]
      exact ih.cons v
    · rw [List.filterMap_cons_some hv, List.map_cons, (usable?_eq_some_iff.mp hv).1]
      exact ih.cons_cons v

/-- A plan is made if each source can be looked up. -/
theorem exists_source? (h : make loop settings view = .ok plan) (hv : v ∈ settings.vars) :
    ∃ found, source? settings.trims view v = .ok found := by
  unfold make at h
  rcases hcollect : collect settings.trims view settings.vars with fault | sources
  · rw [hcollect] at h
    cases h
  · exact (of_collect hcollect).1 v hv

/-- What is bound in a plan are the variables with usable sources. -/
theorem mem_sources_iff (h : make loop settings view = .ok plan) {s : Variable × List Value} :
    s ∈ plan.sources ↔ s.1 ∈ settings.vars ∧ source? settings.trims view s.1 = .ok (some s.2) := by
  rw [(sources_eq h).2, List.mem_filterMap]
  constructor
  · rintro ⟨v, hv, husable⟩
    obtain ⟨rfl, hsource⟩ := usable?_eq_some_iff.mp husable
    exact ⟨hv, hsource⟩
  · exact fun ⟨hv, hsource⟩ => ⟨s.1, hv, usable?_eq_some_iff.mpr ⟨rfl, hsource⟩⟩

theorem keepsApart_of_namesApart (h : make loop settings view = .ok plan)
    (hapart : settings.NamesApart) : plan.KeepsApart := by
  have hvar : ∀ n ∈ plan.names, ∃ v ∈ settings.vars, n = v.name := by
    intro n hn
    obtain ⟨s, hs, rfl⟩ := List.mem_map.mp hn
    exact ⟨s.1, ((mem_sources_iff h).mp hs).1, rfl⟩
  refine ⟨?_, fun n hn m hm => ?_, fun n hn => ?_⟩
  · have hsublist := (sublist_vars settings.trims view settings.vars).map Variable.name
    rw [← (sources_eq h).2, List.map_map] at hsublist
    exact hsublist.nodup hapart.nodup
  · obtain ⟨v, hv, rfl⟩ := hvar n hn
    obtain ⟨w, hw, rfl⟩ := hvar m hm
    exact hapart.index v hv w hw
  · obtain ⟨v, hv, rfl⟩ := hvar n hn
    exact hapart.reserved v hv

/-- A variable without a usable source is not bound. -/
theorem get?_enter_of_unusable (h : make loop settings view = .ok plan)
    (hapart : settings.NamesApart) (hv : v ∈ settings.vars)
    (hsource : source? settings.trims view v = .ok none) (i : ℕ) :
    (plan.enter view i).loopScope.get? v.name = view.loopScope.get? v.name := by
  apply Fields.get?_overlay_of_not_mem
  rw [mem_keys_bindings]
  rintro (hreserved | ⟨n, hn, hname⟩)
  · exact hapart.reserved v hv hreserved
  obtain ⟨⟨w, xs⟩, hs, rfl⟩ := List.mem_map.mp hn
  obtain ⟨hw, husable⟩ := (mem_sources_iff h).mp hs
  rcases hname with hname | hname
  · obtain rfl : v = w := List.inj_on_of_nodup_map hapart.nodup hv hw hname
    rw [hsource] at husable
    cases husable
  · exact hapart.index v hv w hw hname

end Plan

variable {σ : Type*} {β : Type*} {bodies : Bodies σ β} {view : View} {plan : Plan}

/-- Whatever a loop starts is the body of one of its iterations, in the view of that iteration. -/
theorem exists_enter_of_started {outside : σ → σ → Prop} {s : σ} {told : List (Event β)}
    {d : Pool σ (Driven β) Ending}
    (htold : Pool.Told (bodies.program view) outside (bodies.tells view)
      (Pool.start s (.turn (.new plan))) told d) :
    ∀ t ∈ startedIn told, ∃ i < plan.count, t = .body (bodies.enter (plan.enter view i) i) := by
  obtain ⟨_, -, hphase⟩ := exists_phase htold
  obtain ⟨m, hm, hstarted⟩ := hphase.exists_startedIn
  intro t ht
  rw [hstarted, Bodies.batch] at ht
  obtain ⟨i, hi, rfl⟩ := List.mem_map.mp ht
  have hlt : i < 0 + m := (List.mem_range'_1.mp hi).2
  exact ⟨i, by omega, rfl⟩

/-- What the variables of a loop are resolved to.  Let their names keep apart.  In every run all
that the loop starts are bodies of its iterations, each in the view of its iteration.  In each of
these views a variable whose source is usable is resolved to its own element, whatever is around the
loop.  A variable whose source is not usable is not bound: a binding of a loop around comes through,
and a name without dots and brackets means what it means outside. -/
theorem resolve_variables (bodies : Bodies σ β) (loop : String) (settings : Settings) (view : View)
    (plan : Plan) (hmake : Plan.make loop settings view = .ok plan) (hapart : settings.NamesApart) :
    (∀ (outside : σ → σ → Prop) (s : σ) (d : Pool σ (Driven β) Ending),
      Pool.Reaches (bodies.program view) outside (Pool.start s (.turn (.new plan))) d →
      (∃ told, Pool.Told (bodies.program view) outside (bodies.tells view)
        (Pool.start s (.turn (.new plan))) told d) ∧
      ∀ told, Pool.Told (bodies.program view) outside (bodies.tells view)
          (Pool.start s (.turn (.new plan))) told d →
        ∀ t ∈ startedIn told,
          ∃ i < plan.count, t = .body (bodies.enter (plan.enter view i) i)) ∧
    ∀ v ∈ settings.vars,
      (∃ xs, Plan.source? settings.trims view v = .ok (some xs) ∧
        ∀ i : ℕ, (plan.enter view i).resolve (bindingTo v.name) = .ok (Plan.element xs i)) ∨
      (Plan.source? settings.trims view v = .ok none ∧ ∀ i : ℕ,
        (∀ x, view.loopScope.get? v.name = some x →
          (plan.enter view i).resolve (bindingTo v.name) = .ok x) ∧
        (IsName v.name →
          (plan.enter view i).resolve (bindingTo v.name) = view.resolve (bindingTo v.name))) := by
  refine ⟨fun outside s d hreaches => ⟨Pool.exists_told _ hreaches, fun _ htold =>
    exists_enter_of_started htold⟩, fun v hv => ?_⟩
  have hbindable := hapart.bindable v hv
  obtain ⟨- | xs, hsource⟩ := Plan.exists_source? hmake hv
  · refine .inr ⟨hsource, fun i => ⟨fun x hx => ?_, fun hname => ?_⟩⟩
    · apply View.resolve_scope hbindable
      rw [Plan.get?_enter_of_unusable hmake hapart hv hsource, hx]
    · rw [View.resolve_bindingTo _ hbindable.inside, View.resolve_bindingTo _ hbindable.inside,
        hbindable.trimmed]
      exact View.lookup_name_congr hname
        (Plan.get?_enter_of_unusable hmake hapart hv hsource i) rfl rfl
  · refine .inl ⟨xs, hsource, fun i => ?_⟩
    have hmem : (v, xs) ∈ plan.sources := (Plan.mem_sources_iff hmake).mpr ⟨hv, hsource⟩
    exact Plan.resolve_bindings rfl hbindable
      ((Plan.keepsApart_of_namesApart hmake hapart).get?_bindings hmem).1

namespace Sample

/-- The loop through the list, with a second variable whose source is not there. -/
def halfFetched : Plan :=
  ⟨"l", { fetching 0 with vars := [⟨"v", "item", "n", "f"⟩, ⟨"w", "other", "n", "missing"⟩] },
    [(⟨"v", "item", "n", "f"⟩, [.text "a", .text "b"])]⟩

/-- The view with the list, inside a loop that binds the names of both variables. -/
def enclosed : View :=
  { shelf with loopScope := [("item", .text "x"), ("other", .text "y")] }

theorem namesApart_halfFetched : halfFetched.settings.NamesApart := by
  constructor <;> decide

/-- A run of the loop after some steps of the machine. -/
def halfFetchedAfter (steps : ℕ) : Pool Unit (Driven (ℕ × Bool)) Ending :=
  ((Schedule.Machine.start () (.turn (.new halfFetched))).run
    ((breakingAt 2).program enclosed) steps).1.toPool

end Sample

/-- The usable variable hides what the loop around binds to its name.  The other one does not. -/
theorem resolve_variables_of_half_fetched :
    Plan.make "l" Sample.halfFetched.settings Sample.enclosed = .ok Sample.halfFetched ∧
    Sample.halfFetched.settings.NamesApart ∧ Sample.halfFetched.count = 2 ∧
    (Sample.halfFetched.enter Sample.enclosed 1).resolve (bindingTo "item") = .ok (.text "b") ∧
    (Sample.halfFetched.enter Sample.enclosed 1).resolve (bindingTo "other") = .ok (.text "y") ∧
    ∃ told, Pool.Told ((Sample.breakingAt 2).program Sample.enclosed) (fun _ _ => False)
        ((Sample.breakingAt 2).tells Sample.enclosed)
        (Pool.start () (.turn (.new Sample.halfFetched))) told (Sample.halfFetchedAfter 20) ∧
      ∀ t ∈ startedIn told, ∃ i < 2, t = .body (i, false) := by
  obtain ⟨hruns, hvars⟩ := resolve_variables (Sample.breakingAt 2) "l" Sample.halfFetched.settings
    Sample.enclosed Sample.halfFetched rfl Sample.namesApart_halfFetched
  have hreaches := Schedule.Machine.reaches_run ((Sample.breakingAt 2).program Sample.enclosed)
    (fun _ _ => False) 20 (Schedule.Machine.start () (.turn (.new Sample.halfFetched)))
  obtain ⟨⟨told, htold⟩, hstarted⟩ := hruns _ () _ hreaches
  refine ⟨rfl, Sample.namesApart_halfFetched, rfl, ?_, ?_, told, htold, hstarted told htold⟩
  · rcases hvars ⟨"v", "item", "n", "f"⟩ List.mem_cons_self with ⟨xs, hxs, hitem⟩ | ⟨hnone, -⟩
    · cases hxs
      exact hitem 1
    · cases hnone
  · rcases hvars ⟨"w", "other", "n", "missing"⟩ (List.mem_cons_of_mem _ List.mem_cons_self) with
      ⟨xs, hxs, -⟩ | ⟨-, hother⟩
    · cases hxs
    · exact (hother 1).1 _ rfl

end Loop

end Automation
