/-
Automation/Proofs/Run/Workspace.lean

What views over one journal have after any operations.

Operations are done one after another, each on a view that is there (`proceed`); forks and
iterations bring up further views, which are counted in that order (`viewCount`).  The own history of
a view is what was done on it and, up to the step that brought it up, the own history of the view
that it came from (`Owns`).  A view has for each node the last result that was written in its own
history, and the journal has the last one that was written at all (`views_keep_own_history`).

What a step does to the views is said once (`Does`): it puts something in the place of the view that
it is about, or behind all views.  The induction is on the steps, the last one last: a further step
adds to the own history of the view that it is about, and of no other (`owns_concat_iff`), and a view
that comes up has the own history of its origin (`owns_new_iff`).
-/
import Mathlib.Data.List.Induction
import Mathlib.Order.Nat
import Automation.Proofs.Run.Journal
import Automation.Run.Workspace

namespace Automation.Run

/-! ### Operations -/

namespace Operation

/-- The operation brings up a view. -/
def bringsUp : Operation → Bool
  | .fork => true
  | .enter .. => true
  | _ => false

/-- What the operation writes for a node, if it does. -/
def written? (node : String) : Operation → Option Value
  | .write n result => if n = node then some result else none
  | _ => none

/-- What brings up a view writes nothing. -/
theorem written?_of_bringsUp {operation : Operation} {node : String}
    (h : operation.bringsUp = true) : operation.written? node = none := by
  cases operation <;> first | rfl | cases h

end Operation

namespace Workspace

/-- An operation, and the place of the view that it is about. -/
abbrev Step := ℕ × Operation

/-- Does the steps one after another; each needs a view at its place. -/
def proceed (w : Workspace) (steps : List Step) : Option Workspace :=
  steps.foldlM (fun w step => (w.operate? step.1 step.2).map fun done => done.2.2) w

variable {w w' : Workspace} {steps : List Step} {s : Step} {place time : ℕ} {operation : Operation}
  {view seen : View} {node : String}

theorem proceed_concat_eq_some_iff : w.proceed (steps ++ [s]) = some w' ↔
    ∃ m, w.proceed steps = some m ∧
      ∃ answer seen, m.operate? s.1 s.2 = some (answer, seen, w') := by
  simp [proceed, List.foldlM_append, Option.bind_eq_some_iff]

/-! ### What a step does -/

/-- What a step on a view does: the view that it is about afterwards stands in the same place, or
behind all others if it was brought up.  A result is written to it and to the journal, and what is
around it changes only if it is a view of its own. -/
structure Does (w : Workspace) (place : ℕ) (operation : Operation) (view seen : View)
    (w' : Workspace) : Prop where
  found : w.views[place]? = some view
  views : w'.views = if operation.bringsUp then w.views ++ [seen] else w.views.set place seen
  results : ∀ node,
    seen.results.get? node = (operation.written? node).or (view.results.get? node)
  journal : ∀ node,
    w'.journal.results.get? node = (operation.written? node).or (w.journal.results.get? node)
  around : operation.bringsUp = false →
    seen.scope = view.scope ∧ seen.loopScope = view.loopScope ∧ seen.loopFrames = view.loopFrames

theorem exists_does {answer : Except Fault Value}
    (h : w.operate? place operation = some (answer, seen, w')) :
    ∃ view, Does w place operation view seen w' := by
  obtain ⟨view, hview, hdone⟩ := Option.map_eq_some_iff.mp h
  have hset : w.views.set place view = w.views := by
    obtain ⟨hlt, rfl⟩ := List.getElem?_eq_some_iff.mp hview
    exact List.set_getElem_self hlt
  refine ⟨view, ?_⟩
  cases operation with
  | write n result =>
    obtain ⟨-, rfl, rfl⟩ := by simpa [operate] using hdone
    have hwritten : ∀ (fs : Fields Value) (node : String), (fs.set n result).get? node =
        ((Operation.write n result).written? node).or (fs.get? node) := by
      intro fs node
      rw [Fields.get?_set]
      rcases eq_or_ne node n with rfl | hne
      · simp [Operation.written?]
      · simp [Operation.written?, hne, hne.symm]
    exact ⟨hview, rfl, hwritten _, hwritten _, fun _ => ⟨rfl, rfl, rfl⟩⟩
  | claim n =>
    obtain ⟨-, rfl, rfl⟩ := by simpa [operate] using hdone
    refine ⟨hview, hset.symm, fun _ => rfl, fun node => ?_, fun _ => ⟨rfl, rfl, rfl⟩⟩
    show ((w.journal.claim view.scope n).2.results).get? node = w.journal.results.get? node
    unfold Journal.claim
    split <;> rfl
  | fork | enter =>
    obtain ⟨-, rfl, rfl⟩ := by simpa [operate] using hdone
    exact ⟨hview, rfl, fun _ => rfl, fun _ => rfl, nofun⟩
  | get | resolve | isInside | fail | log | cancel =>
    obtain ⟨-, rfl, rfl⟩ := by simpa [operate] using hdone
    exact ⟨hview, hset.symm, fun _ => rfl, fun _ => rfl, fun _ => ⟨rfl, rfl, rfl⟩⟩

/-- Where a view is after a step. -/
theorem Does.mem_views (h : Does w place operation view seen w') {c : ℕ} {u : View} :
    w'.views[c]? = some u ↔
      (u = seen ∧ c = if operation.bringsUp then w.views.length else place) ∨
        (w.views[c]? = some u ∧ (operation.bringsUp = false → c ≠ place)) := by
  have hlt : place < w.views.length := (List.getElem?_eq_some_iff.mp h.found).1
  rw [h.views]
  cases operation.bringsUp with
  | true =>
    rcases lt_trichotomy c w.views.length with hc | rfl | hc
    · simp [List.getElem?_append_left hc, hc.ne]
    · simp [eq_comm]
    · rw [List.getElem?_eq_none (by simpa [Nat.succ_le_iff] using hc)]
      simp [List.getElem?_eq_none hc.le, hc.ne']
  | false =>
    rcases eq_or_ne c place with rfl | hne
    · simp [hlt, eq_comm]
    · simp [List.getElem?_set_ne hne.symm, hne]

theorem Does.length_views (h : Does w place operation view seen w') :
    w'.views.length = w.views.length + if operation.bringsUp then 1 else 0 := by
  rw [h.views]
  split <;> simp

/-- A step leaves all other views alone. -/
theorem Does.other (h : Does w place operation view seen w') {c : ℕ} {u : View}
    (hu : w.views[c]? = some u) (hne : c ≠ place) : w'.views[c]? = some u :=
  h.mem_views.mpr (.inr ⟨hu, fun _ => hne⟩)

/-- What is around a view stays. -/
theorem Does.stays (h : Does w place operation view seen w') {c : ℕ} {u : View}
    (hu : w.views[c]? = some u) : ∃ u', w'.views[c]? = some u' ∧
      u'.scope = u.scope ∧ u'.loopScope = u.loopScope ∧ u'.loopFrames = u.loopFrames := by
  by_cases hother : operation.bringsUp = false → c ≠ place
  · exact ⟨u, h.mem_views.mpr (.inr ⟨hu, hother⟩), rfl, rfl, rfl⟩
  · obtain ⟨hnot, hplace⟩ := Classical.not_imp.mp hother
    obtain rfl := not_not.mp hplace
    obtain rfl : view = u := Option.some.inj (h.found.symm.trans hu)
    exact ⟨seen, h.mem_views.mpr (.inl ⟨rfl, by simp [hnot]⟩), h.around hnot⟩

/-! ### Own histories -/

/-- How many views there are after some steps. -/
def viewCount (steps : List Step) : ℕ := steps.countP (fun s => s.2.bringsUp) + 1

/-- The step at a time lies in the own history of the view at a place: it was done on that view, or
it lies in the own history of the view that this one was brought up from, and came before that. -/
inductive Owns (steps : List Step) : ℕ → ℕ → Prop
  | own {place time : ℕ} {operation} : steps[time]? = some (place, operation) →
      Owns steps place time
  | inherited {origin time birth : ℕ} {operation} : steps[birth]? = some (origin, operation) →
      operation.bringsUp = true → time < birth → Owns steps origin time →
      Owns steps (viewCount (steps.take birth)) time

/-- Each step is about a view that is there. -/
def Placed (steps : List Step) : Prop :=
  ∀ time (h : time < steps.length), steps[time].1 < viewCount (steps.take time)

instance (steps : List Step) : Decidable (Placed steps) :=
  inferInstanceAs (Decidable (∀ time (h : time < steps.length),
    steps[time].1 < viewCount (steps.take time)))

theorem viewCount_concat (steps : List Step) (s : Step) :
    viewCount (steps ++ [s]) = viewCount steps + if s.2.bringsUp then 1 else 0 := by
  simp [viewCount, List.countP_append, List.countP_singleton]
  omega

theorem viewCount_take_le (steps : List Step) (time : ℕ) :
    viewCount (steps.take time) ≤ viewCount steps :=
  Nat.succ_le_succ (List.take_sublist time steps).countP_le

theorem viewCount_take_lt (h : steps[time]? = some s) (hs : s.2.bringsUp = true) :
    viewCount (steps.take time) < viewCount steps := by
  obtain ⟨hlt, rfl⟩ := List.getElem?_eq_some_iff.mp h
  have hnext : steps.take (time + 1) = steps.take time ++ [steps[time]] := by
    rw [List.take_succ_eq_append_getElem hlt]
  have hle := viewCount_take_le steps (time + 1)
  rw [hnext, viewCount_concat, if_pos hs] at hle
  exact hle

theorem getElem?_concat_eq_some_iff {t : Step} : (steps ++ [s])[time]? = some t ↔
    steps[time]? = some t ∨ time = steps.length ∧ t = s := by
  rcases lt_trichotomy time steps.length with hlt | rfl | hgt
  · simp [List.getElem?_append_left hlt, hlt.ne]
  · simp [eq_comm]
  · rw [List.getElem?_eq_none (by simpa [Nat.succ_le_iff] using hgt)]
    simp [List.getElem?_eq_none hgt.le, hgt.ne']

theorem Placed.lt_of_getElem? (h : Placed steps) (hs : steps[time]? = some s) :
    s.1 < viewCount (steps.take time) := by
  obtain ⟨hlt, rfl⟩ := List.getElem?_eq_some_iff.mp hs
  exact h time hlt

theorem placed_concat_iff : Placed (steps ++ [s]) ↔ Placed steps ∧ s.1 < viewCount steps := by
  constructor
  · intro h
    refine ⟨fun time hlt => ?_, ?_⟩
    · have hs := h.lt_of_getElem? (List.getElem?_append_left hlt ▸ List.getElem?_eq_getElem hlt)
      rwa [List.take_append_of_le_length (Nat.le_of_lt hlt)] at hs
    · have hlast : (steps ++ [s])[steps.length]? = some s := by simp
      simpa using h.lt_of_getElem? hlast
  · rintro ⟨h, hs⟩ time hlt
    rcases getElem?_concat_eq_some_iff.mp (List.getElem?_eq_getElem hlt) with htime | ⟨rfl, heq⟩
    · have hin := (List.getElem?_eq_some_iff.mp htime).1
      rw [List.take_append_of_le_length (Nat.le_of_lt hin)]
      exact h.lt_of_getElem? htime
    · rw [heq]
      simpa using hs

theorem Owns.lt (h : Owns steps place time) : time < steps.length := by
  cases h with
  | own hstep => exact (List.getElem?_eq_some_iff.mp hstep).1
  | inherited hbirth _ hlt _ => exact hlt.trans (List.getElem?_eq_some_iff.mp hbirth).1

theorem Owns.concat (h : Owns steps place time) (s : Step) : Owns (steps ++ [s]) place time := by
  induction h with
  | own hstep => exact .own (getElem?_concat_eq_some_iff.mpr (.inl hstep))
  | @inherited origin time birth operation hbirth hbrings hlt _ ih =>
    have hin := (List.getElem?_eq_some_iff.mp hbirth).1
    have hinherited := Owns.inherited (getElem?_concat_eq_some_iff.mpr (.inl hbirth)) hbrings hlt ih
    rwa [List.take_append_of_le_length (Nat.le_of_lt hin)] at hinherited

/-- The own history of a view goes on with what is done on it, and with nothing else. -/
theorem owns_concat_iff (hplaced : Placed steps) (hplace : place < viewCount steps) :
    Owns (steps ++ [s]) place time ↔ Owns steps place time ∨ time = steps.length ∧ s.1 = place := by
  constructor
  · intro h
    induction h with
    | own hstep =>
      rcases getElem?_concat_eq_some_iff.mp hstep with hstep | ⟨rfl, rfl⟩
      · exact .inl (.own hstep)
      · exact .inr ⟨rfl, rfl⟩
    | @inherited origin time birth operation hbirth hbrings hlt _ ih =>
      rcases getElem?_concat_eq_some_iff.mp hbirth with hbirth | ⟨rfl, rfl⟩
      · have hin := (List.getElem?_eq_some_iff.mp hbirth).1
        have horigin := (hplaced.lt_of_getElem? hbirth).trans_le (viewCount_take_le steps birth)
        rw [List.take_append_of_le_length (Nat.le_of_lt hin)]
        rcases ih horigin with howns | ⟨rfl, -⟩
        · exact .inl (.inherited hbirth hbrings hlt howns)
        · exact absurd hin (Nat.lt_asymm hlt)
      · -- the last step brings up a view that was not there before
        simp at hplace
  · rintro (h | ⟨rfl, rfl⟩)
    · exact h.concat s
    · exact .own (getElem?_concat_eq_some_iff.mpr (.inr ⟨rfl, rfl⟩))

/-- A view that comes up has the own history of its origin. -/
theorem owns_new_iff (hplaced : Placed steps) (hs : s.1 < viewCount steps)
    (hbrings : s.2.bringsUp = true) :
    Owns (steps ++ [s]) (viewCount steps) time ↔ Owns steps s.1 time := by
  have htake : (steps ++ [s]).take steps.length = steps := by simp
  constructor
  · generalize hplace : viewCount steps = place
    intro h
    cases h with
    | own hstep =>
      -- nothing has been done on the new view yet
      rcases getElem?_concat_eq_some_iff.mp hstep with hstep | ⟨-, rfl⟩
      · have hless := (hplaced.lt_of_getElem? hstep).trans_le (viewCount_take_le steps time)
        exact absurd hplace hless.ne'
      · exact absurd hplace hs.ne'
    | @inherited origin _ birth operation hbirth hup hlt howns =>
      -- views that came up earlier are at smaller places, so the last step was its birth
      rcases getElem?_concat_eq_some_iff.mp hbirth with hbirth | ⟨rfl, rfl⟩
      · have hin := (List.getElem?_eq_some_iff.mp hbirth).1
        rw [List.take_append_of_le_length (Nat.le_of_lt hin)] at hplace
        exact absurd hplace (viewCount_take_lt hbirth hup).ne'
      · rcases (owns_concat_iff hplaced hs).mp howns with howns | ⟨rfl, -⟩
        · exact howns
        · exact absurd hlt (Nat.lt_irrefl _)
  · intro h
    have hlast : (steps ++ [s])[steps.length]? = some s :=
      getElem?_concat_eq_some_iff.mpr (.inr ⟨rfl, rfl⟩)
    have hinherited := Owns.inherited hlast hbrings h.lt (h.concat s)
    rwa [htake] at hinherited

/-! ### Last results -/

/-- What the step at a time writes for a node, if it does. -/
def writtenAt (steps : List Step) (node : String) (time : ℕ) : Option Value :=
  (steps[time]?).bind fun s => s.2.written? node

/-- What was written last for a node at some of the times, if anything was. -/
inductive Latest (steps : List Step) (among : ℕ → Prop) (node : String) : Option Value → Prop
  | written {time : ℕ} {result : Value} : among time →
      writtenAt steps node time = some result →
      (∀ later, time < later → among later → writtenAt steps node later = none) →
      Latest steps among node (some result)
  | never : (∀ time, among time → writtenAt steps node time = none) → Latest steps among node none

variable {among among' : ℕ → Prop} {written x y : Option Value} {result : Value} {root : View}

theorem writtenAt_concat_of_lt (h : time < steps.length) :
    writtenAt (steps ++ [s]) node time = writtenAt steps node time := by
  simp [writtenAt, List.getElem?_append_left h]

@[simp] theorem writtenAt_concat_length :
    writtenAt (steps ++ [s]) node steps.length = s.2.written? node := by
  simp [writtenAt]

theorem writtenAt_of_length_le (h : steps.length ≤ time) : writtenAt steps node time = none := by
  simp [writtenAt, List.getElem?_eq_none h]

theorem lt_of_writtenAt (h : writtenAt steps node time = some result) : time < steps.length := by
  by_contra hle
  simp [writtenAt_of_length_le (Nat.not_lt.mp hle)] at h

/-- There is one last result. -/
theorem Latest.unique (hx : Latest steps among node x) (hy : Latest steps among node y) :
    x = y := by
  cases hx with
  | @written first a hfirst ha hnone =>
    cases hy with
    | @written second b hsecond hb hnone' =>
      rcases lt_trichotomy first second with hlt | rfl | hlt
      · simp [hnone second hlt hsecond] at hb
      · exact ha.symm.trans hb
      · simp [hnone' first hlt hfirst] at ha
    | never h => simp [h first hfirst] at ha
  | never h =>
    cases hy with
    | written htime hresult _ => simp [h _ htime] at hresult
    | never _ => rfl

/-- A further step that writes nothing at these times leaves the last result. -/
theorem Latest.concat_of_eq_none (h : Latest steps among node x)
    (hamong : ∀ time < steps.length, among' time ↔ among time)
    (hlast : among' steps.length → s.2.written? node = none) :
    Latest (steps ++ [s]) among' node x := by
  have hnone : ∀ time, among' time → (among time → writtenAt steps node time = none) →
      writtenAt (steps ++ [s]) node time = none := by
    intro time htime hstep
    rcases lt_trichotomy time steps.length with hlt | rfl | hgt
    · rw [writtenAt_concat_of_lt hlt]
      exact hstep ((hamong time hlt).mp htime)
    · rw [writtenAt_concat_length]
      exact hlast htime
    · exact writtenAt_of_length_le (by simpa [Nat.succ_le_iff] using hgt)
  cases h with
  | @written time result htime hresult hlater =>
    have hlt := lt_of_writtenAt hresult
    refine .written ((hamong time hlt).mpr htime) ?_ fun later hlate hin =>
      hnone later hin (hlater later hlate)
    rwa [writtenAt_concat_of_lt hlt]
  | never hnever => exact .never fun time htime => hnone time htime (hnever time)

/-- What a further step at these times writes comes before the last result. -/
theorem Latest.concat (h : Latest steps among node x)
    (hamong : ∀ time < steps.length, among' time ↔ among time) (hlast : among' steps.length) :
    Latest (steps ++ [s]) among' node ((s.2.written? node).or x) := by
  cases hwritten : s.2.written? node with
  | some result =>
    refine .written hlast (by rw [writtenAt_concat_length, hwritten]) fun later hlate _ => ?_
    exact writtenAt_of_length_le (by simpa [Nat.succ_le_iff] using hlate)
  | none => exact h.concat_of_eq_none hamong fun _ => hwritten

/-! ### A workspace recalls what was done -/

/-- A workspace that came out of one view has what the steps wrote. -/
structure Recalls (root : View) (steps : List Step) (w : Workspace) : Prop where
  count : w.views.length = viewCount steps
  placed : Placed steps
  views : ∀ place view, w.views[place]? = some view → ∀ node, ∃ written,
    Latest steps (Owns steps place) node written ∧
      view.results.get? node = written.or (root.results.get? node)
  journal : ∀ node, Latest steps (fun _ => True) node (w.journal.results.get? node)

theorem recalls_new (root : View) : Recalls root [] (new root) where
  count := rfl
  placed := fun _ hlt => absurd hlt (Nat.not_lt_zero _)
  views := by
    intro place view hview node
    obtain ⟨rfl, rfl⟩ : place = 0 ∧ root = view := by
      cases place <;> simp_all [new]
    exact ⟨none, .never fun time _ => writtenAt_of_length_le (Nat.zero_le time), rfl⟩
  journal := fun _ => .never fun time _ => writtenAt_of_length_le (Nat.zero_le time)

/-- One more step is recalled as well. -/
theorem Recalls.step (h : Recalls root steps w) (hdoes : Does w place operation view seen w') :
    Recalls root (steps ++ [(place, operation)]) w' := by
  have hplace : place < viewCount steps := by
    rw [← h.count]
    exact (List.getElem?_eq_some_iff.mp hdoes.found).1
  refine ⟨?_, placed_concat_iff.mpr ⟨h.placed, hplace⟩, ?_, ?_⟩
  · rw [hdoes.length_views, h.count, viewCount_concat]
  · intro c u hu node
    rcases hdoes.mem_views.mp hu with ⟨rfl, hc⟩ | ⟨hold, hother⟩
    · -- the view that the step was about, or that it brought up
      obtain ⟨written, hlatest, hresult⟩ := h.views place view hdoes.found node
      have hseen : u.results.get? node =
          ((operation.written? node).or written).or (root.results.get? node) := by
        rw [hdoes.results, hresult, Option.or_assoc]
      refine ⟨_, ?_, hseen⟩
      cases hup : operation.bringsUp with
      | false =>
        obtain rfl : c = place := by simpa [hup] using hc
        refine hlatest.concat (fun time hlt => ?_)
          ((owns_concat_iff h.placed hplace).mpr (.inr ⟨rfl, rfl⟩))
        simp [owns_concat_iff h.placed hplace, hlt.ne]
      | true =>
        obtain rfl : c = viewCount steps := by simpa [hup, h.count] using hc
        rw [Operation.written?_of_bringsUp hup, Option.none_or]
        exact hlatest.concat_of_eq_none (fun time _ => owns_new_iff h.placed hplace hup)
          fun _ => Operation.written?_of_bringsUp hup
    · -- a view that the step leaves alone
      obtain ⟨written, hlatest, hresult⟩ := h.views c u hold node
      have hc : c < viewCount steps := h.count ▸ (List.getElem?_eq_some_iff.mp hold).1
      refine ⟨written, hlatest.concat_of_eq_none (fun time hlt => ?_) fun howns => ?_, hresult⟩
      · simp [owns_concat_iff h.placed hc, hlt.ne]
      · rcases (owns_concat_iff h.placed hc).mp howns with howns | ⟨-, rfl⟩
        · exact absurd howns.lt (Nat.lt_irrefl _)
        · exact Operation.written?_of_bringsUp (by simpa using hother)
  · intro node
    rw [hdoes.journal]
    exact (h.journal node).concat (fun _ _ => .rfl) trivial

/-- Whatever is done from one view on is recalled. -/
theorem exists_recalls (root : View) (h : Placed steps) :
    ∃ w, (new root).proceed steps = some w ∧ Recalls root steps w := by
  induction steps using List.reverseRecOn with
  | nil => exact ⟨new root, rfl, recalls_new root⟩
  | append_singleton steps s ih =>
    obtain ⟨hplaced, hs⟩ := placed_concat_iff.mp h
    obtain ⟨m, hm, hrecalls⟩ := ih hplaced
    have hview := List.getElem?_eq_getElem (hrecalls.count.symm ▸ hs : s.1 < m.views.length)
    have hstep : m.operate? s.1 s.2 = some (m.operate s.1 _ s.2) := Option.map_eq_some_iff.mpr
      ⟨_, hview, rfl⟩
    obtain ⟨view, hdoes⟩ := exists_does hstep
    exact ⟨_, proceed_concat_eq_some_iff.mpr ⟨m, hm, _, _, hstep⟩, hrecalls.step hdoes⟩

/-- What is around a view stays through all further steps. -/
theorem stays_of_proceed (h : w.proceed steps = some w') {c : ℕ} {u : View}
    (hu : w.views[c]? = some u) : ∃ u', w'.views[c]? = some u' ∧
      u'.scope = u.scope ∧ u'.loopScope = u.loopScope ∧ u'.loopFrames = u.loopFrames := by
  induction steps using List.reverseRecOn generalizing w' with
  | nil =>
    obtain rfl : w = w' := Option.some.inj h
    exact ⟨u, hu, rfl, rfl, rfl⟩
  | append_singleton steps s ih =>
    obtain ⟨m, hm, answer, seen, hstep⟩ := proceed_concat_eq_some_iff.mp h
    obtain ⟨view, hdoes⟩ := exists_does hstep
    obtain ⟨u₁, hu₁, hscope, hloop, hframes⟩ := ih hm
    obtain ⟨u₂, hu₂, hscope₂, hloop₂, hframes₂⟩ := hdoes.stays hu₁
    exact ⟨u₂, hu₂, hscope₂.trans hscope, hloop₂.trans hloop, hframes₂.trans hframes⟩

/-- Views over one journal.  Whatever is done from one view on, a view returns for a node the last
result in its own history, else what the first view had for it, and the journal has the last result
of all.  What is done on one view changes no other view, and what is around a view never changes. -/
theorem views_keep_own_history (root : View) (h : Placed steps) :
    ∃ w, (new root).proceed steps = some w ∧ w.views.length = viewCount steps ∧
    (∀ place view, w.views[place]? = some view →
      (∀ node, ∃ written, (∀ x, Latest steps (Owns steps place) node x ↔ x = written) ∧
        view.results.get? node = written.or (root.results.get? node) ∧
        (w.operate place view (.get node)).1 =
          .ok ((written.or (root.results.get? node)).getD .null)) ∧
      (∀ other operation answer seen w', w.operate? other operation = some (answer, seen, w') →
        place ≠ other → w'.views[place]? = some view) ∧
      (∀ later w', w.proceed later = some w' → ∃ view', w'.views[place]? = some view' ∧
        view'.scope = view.scope ∧ view'.loopScope = view.loopScope ∧
        view'.loopFrames = view.loopFrames)) ∧
    (∀ node x, Latest steps (fun _ => True) node x ↔ x = w.journal.results.get? node) := by
  obtain ⟨w, hw, hrecalls⟩ := exists_recalls root h
  have hunique : ∀ {among : ℕ → Prop} {node : String} {written : Option Value},
      Latest steps among node written → ∀ x, Latest steps among node x ↔ x = written :=
    fun hlatest x => ⟨fun hx => hx.unique hlatest, fun hx => hx ▸ hlatest⟩
  refine ⟨w, hw, hrecalls.count, fun place view hview => ⟨fun node => ?_, ?_, ?_⟩,
    fun node => hunique (hrecalls.journal node)⟩
  · obtain ⟨written, hlatest, hresult⟩ := hrecalls.views place view hview node
    refine ⟨written, hunique hlatest, hresult, ?_⟩
    rw [← hresult]
    rfl
  · intro other operation answer seen w' hdone hne
    obtain ⟨about, hdoes⟩ := exists_does hdone
    exact hdoes.other hview hne
  · exact fun later w' hlater => stays_of_proceed hlater hview

/-- What is written after a fork is not in the fork, and a view that is entered from the fork has
what the fork had. -/
theorem views_keep_own_history_after_fork :
    let root : View := .bare ⟨"run", .null, ⟨"", 0⟩⟩
    let steps : List Step := [(0, .write "a" (.int 1)), (0, .fork), (0, .write "a" (.int 2)),
      (1, .enter "l" 0 [("item", .int 7)] .null), (2, .write "b" (.int 3))]
    Placed steps ∧ ∃ w, (new root).proceed steps = some w ∧
      w.views.map (fun view => view.results.get? "a") =
        [some (.int 2), some (.int 1), some (.int 1)] ∧
      Latest steps (Owns steps 2) "a" (some (.int 1)) ∧
      Latest steps (fun _ => True) "a" (some (.int 2)) := by
  intro root steps
  have hplaced : Placed steps := by decide
  refine ⟨hplaced, ?_⟩
  obtain ⟨w, hw, -, hviews, hjournal⟩ := views_keep_own_history root hplaced
  obtain rfl := Option.some.inj hw
  refine ⟨_, hw, rfl, ?_, (hjournal "a" _).mpr rfl⟩
  obtain ⟨written, hlatest, hresult, -⟩ := (hviews 2 _ rfl).1 "a"
  have hroot : root.results.get? "a" = none := rfl
  refine (hlatest _).mpr ?_
  rw [hroot, Option.or_none] at hresult
  exact hresult.symm ▸ rfl

end Workspace

end Automation.Run
