/-
Automation/Proofs/Loop/Course.lean

How a loop proceeds after a batch.

A loop that is to stop on failures ends after a batch with one, failed if an iteration of
the batch was aborted and else in order; any other loop rests if it has a delay and
iterations are left, or goes on at once.  What it reports when it ends is told by the
first iteration of the batch that breaks it off (`turn_exact`).
-/
import Mathlib.Data.List.Basic
import Automation.Loop.Course

namespace Automation.Loop

/-- An iteration that breaks a loop off which is to stop on failures. -/
def Lap.Breaks (l : Lap) : Prop := l.success = false ∧ l.aborted = true

/-- The first iteration of a batch that breaks, with its place in the batch. -/
def FirstBreak (batch : List Lap) (k : ℕ) (l : Lap) : Prop :=
  batch[k]? = some l ∧ l.Breaks ∧ ∀ j < k, ∀ earlier, batch[j]? = some earlier → ¬ earlier.Breaks

/-- A plan has no more iterations than the cap. -/
theorem Plan.count_le (plan : Plan) : plan.count ≤ plan.settings.maxIterations := by
  unfold Plan.count
  split
  · exact Nat.le_refl _
  · exact Nat.min_le_right _ _

namespace Course

/-- No iteration of a batch is an aborted failure. -/
theorem abortedFrom_eq_none {start : ℕ} {batch : List Lap} :
    abortedFrom start batch = none ↔ ∀ l ∈ batch, l.aborted = true → l.success = true := by
  induction batch generalizing start with
  | nil => simp [abortedFrom]
  | cons l batch ih =>
    unfold abortedFrom
    rcases hs : l.success with - | - <;> rcases ha : l.aborted with - | - <;> simp [hs, ha, ih]

/-- The first aborted failure of a batch, by the iteration it is. -/
theorem exists_firstBreak {start i : ℕ} {batch : List Lap} {l : Lap}
    (h : abortedFrom start batch = some (i, l)) : ∃ k, i = start + k ∧ FirstBreak batch k l := by
  induction batch generalizing start with
  | nil => cases h
  | cons head batch ih =>
    unfold abortedFrom at h
    split at h
    · next hbreaks =>
      obtain ⟨rfl, rfl⟩ := Prod.mk.inj (Option.some.inj h)
      have hlap : head.Breaks := by simpa [Lap.Breaks] using hbreaks
      exact ⟨0, rfl, rfl, hlap, fun j hj => absurd hj (Nat.not_lt_zero j)⟩
    · next hkeeps =>
      obtain ⟨k, rfl, hk, hlap, hfirst⟩ := ih h
      refine ⟨k + 1, by omega, hk, hlap, fun j hj earlier hearlier => ?_⟩
      cases j with
      | zero =>
        obtain rfl := Option.some.inj hearlier
        simpa [Lap.Breaks] using hkeeps
      | succ j => exact hfirst j (by omega) earlier hearlier

/-- What the last batch of a loop that stops makes of it: whether it succeeds, and with what
message. -/
inductive Sentence (course : Course) (batch : List Lap) : Bool → Option String → Prop
  | broken {k l} : FirstBreak batch k l →
      Sentence course batch false (some (failure (course.next - batch.length + k) l))
  | whole : (∀ l ∈ batch, ¬ l.Breaks) → Sentence course batch true none

/-- What a loop does after a batch, with its report if it ends. -/
theorem turn_exact (course : Course) (batch : List Lap) :
    (course.plan.settings.stopsOnFailure = true ∧ (∃ l ∈ batch, l.success = false) ∧
        ∃ success error, Sentence course batch success error ∧ course.turn batch
          = .finish (course.report success (!course.isComplete) false error)) ∨
      ((course.plan.settings.stopsOnFailure = true → ∀ l ∈ batch, l.success = true) ∧
        course.turn batch = if 0 < course.plan.settings.delayMs ∧ !course.isComplete
          then .rest course.plan.settings.delayMs else .again) := by
  rcases hstop : course.plan.settings.stopsOnFailure && batch.any (fun l => !l.success)
    with - | -
  · refine .inr ⟨fun hstops => by simpa [hstops] using hstop, ?_⟩
    unfold turn
    simp only [hstop, Bool.false_eq_true, if_false]
  · obtain ⟨hstops, hany⟩ := Bool.and_eq_true_iff.mp hstop
    refine .inl ⟨hstops, by simpa using hany, ?_⟩
    rcases hfrom : abortedFrom (course.next - batch.length) batch with - | ⟨i, l⟩
    · have hnone : ∀ l ∈ batch, ¬ l.Breaks := fun l hl ⟨hfailed, haborted⟩ => by
        rw [abortedFrom_eq_none.mp hfrom l hl haborted] at hfailed
        cases hfailed
      exact ⟨true, none, .whole hnone, by simp only [turn, hstop, if_true, hfrom]⟩
    · obtain ⟨k, rfl, hfirst⟩ := exists_firstBreak hfrom
      exact ⟨false, _, .broken hfirst, by simp only [turn, hstop, if_true, hfrom]⟩

/-- A loop that ends after a batch is to stop on failures, and the batch has one. -/
theorem report_of_turn {course : Course} {batch : List Lap} {report : Report}
    (h : course.turn batch = .finish report) :
    course.plan.settings.stopsOnFailure = true ∧ (∃ l ∈ batch, l.success = false) ∧
      ∃ success error, Sentence course batch success error ∧
        report = course.report success (!course.isComplete) false error := by
  rcases turn_exact course batch with
    ⟨hstops, hfailed, success, error, hsentence, hturn⟩ | ⟨-, hturn⟩
  · exact ⟨hstops, hfailed, success, error, hsentence, Turn.finish.inj (h.symm.trans hturn)⟩
  · rw [h] at hturn
    split at hturn <;> cases hturn

/-- A loop that is over after a batch reports the iterations so far. -/
theorem laps_of_turn {course : Course} {batch : List Lap} {report : Report}
    (h : course.turn batch = .finish report) : report.laps = course.laps := by
  obtain ⟨-, -, success, error, -, rfl⟩ := report_of_turn h
  rfl

/-- A loop that is to stop on failures fails after a batch with an aborted failure. -/
theorem turn_of_aborted {course : Course} {batch : List Lap}
    (hstops : course.plan.settings.stopsOnFailure = true) {l : Lap} (hl : l ∈ batch)
    (haborted : l.aborted = true) (hfailed : l.success = false) :
    ∃ report, course.turn batch = .finish report ∧ report.success = false := by
  rcases turn_exact course batch with ⟨-, -, success, error, hsentence, hturn⟩ | ⟨hall, -⟩
  · cases hsentence with
    | broken _ => exact ⟨_, hturn, rfl⟩
    | whole hnone => exact absurd ⟨hfailed, haborted⟩ (hnone l hl)
  · rw [hall hstops l hl] at hfailed
    cases hfailed

/-- A loop that fails after a batch is to stop on failures, and the batch has an aborted
one. -/
theorem aborted_of_turn {course : Course} {batch : List Lap} {report : Report}
    (h : course.turn batch = .finish report) (hfailed : report.success = false) :
    course.plan.settings.stopsOnFailure = true ∧ ∃ l ∈ batch, l.aborted = true := by
  obtain ⟨hstops, -, success, error, hsentence, rfl⟩ := report_of_turn h
  cases hsentence with
  | broken hfirst =>
    obtain ⟨hk, ⟨-, haborted⟩, -⟩ := hfirst
    exact ⟨hstops, _, List.mem_of_getElem? hk, haborted⟩
  | whole _ => cases hfailed

/-- A loop that rests does so for its delay. -/
theorem rest_of_turn {course : Course} {batch : List Lap} {milliseconds : ℕ}
    (h : course.turn batch = .rest milliseconds) :
    milliseconds = course.plan.settings.delayMs := by
  rcases turn_exact course batch with ⟨-, -, success, error, -, hturn⟩ | ⟨-, hturn⟩
  · cases h.symm.trans hturn
  · rw [h] at hturn
    split at hturn
    · exact Turn.rest.inj hturn
    · cases hturn

/-- A loop that is over before a batch reports the iterations so far, and has not failed. -/
theorem report_of_move {course : Course} {cancelled : Bool} {report : Report}
    (h : course.move cancelled = .finish report) :
    report.laps = course.laps ∧ report.success = true := by
  unfold move at h
  split at h
  · obtain rfl := Move.finish.inj h
    exact ⟨rfl, rfl⟩
  · split at h
    · obtain rfl := Move.finish.inj h
      exact ⟨rfl, rfl⟩
    · cases h

end Course

/-! ### Reports as results -/

/-- The fields of the report of an iteration; of errors it tells if there are some. -/
theorem Lap.exists_fields (l : Lap) (index : ℕ) :
    ∃ fields : Fields Value, l.toValue index = .object fields ∧
      fields.get? "index" = some (.int index) ∧ fields.get? "success" = some (.bool l.success) ∧
      fields.get? "output" = some (.object l.output) ∧
      fields.get? "errors" = (if l.errors.isEmpty then none else
        some (.object (l.errors.map fun (node, message) => (node, .text message)))) ∧
      fields.get? "failedNodeIds" = (if l.errors.isEmpty then none else
        some (.list (l.errors.keys.map .text))) := by
  refine ⟨_, rfl, rfl, rfl, rfl, ?_, ?_⟩
  · split <;> rfl
  · have hkeys : l.errors.keys.map Value.text = l.errors.map fun (node, _) => .text node := by
      rw [Fields.keys, List.map_map]
      rfl
    rw [hkeys]
    split <;> rfl

/-- The report of an iteration tells its output and its errors. -/
theorem Lap.eq_of_toValue {index : ℕ} {l l' : Lap} (h : l.toValue index = l'.toValue index) :
    l.output = l'.output ∧ l.errors = l'.errors := by
  have hfields := Value.object.inj h
  simp only [List.cons_append, List.nil_append, List.cons.injEq, Prod.mk.injEq, true_and,
    Value.object.injEq] at hfields
  obtain ⟨-, houtput, herrors⟩ := hfields
  refine ⟨houtput, ?_⟩
  -- without errors nothing is said of them
  rcases hl : l.errors with - | ⟨first, rest⟩ <;> rcases hl' : l'.errors with - | ⟨first', rest'⟩
  · rfl
  · simp [hl, hl'] at herrors
  · simp [hl, hl'] at herrors
  · simp only [hl, hl', List.isEmpty_cons, Bool.false_eq_true, if_false, List.cons.injEq,
      Prod.mk.injEq, Value.object.injEq, true_and] at herrors
    have hinjective : Function.Injective fun f : String × String => (f.1, Value.text f.2) := by
      intro f g hfg
      simp only [Prod.mk.injEq, Value.text.injEq] at hfg
      exact Prod.ext hfg.1 hfg.2
    exact List.map_injective_iff.mpr hinjective herrors.1

/-- Reports that are the same result have the same iterations, as far as they tell. -/
theorem Report.exists_lap_of_toFields {r s : Report} (h : r.toFields = s.toFields) {i : ℕ}
    {l : Lap} (hl : r.laps[i]? = some l) :
    ∃ l', s.laps[i]? = some l' ∧ l.output = l'.output ∧ l.errors = l'.errors := by
  have hresults : r.laps.zipIdx.map (fun entry => entry.1.toValue entry.2)
      = s.laps.zipIdx.map (fun entry => entry.1.toValue entry.2) := by
    simp only [toFields, List.cons_append, List.nil_append, List.cons.injEq, Prod.mk.injEq,
      true_and, Value.list.injEq] at h
    exact h.2.1
  have hentry := congrArg (·[i]?) hresults
  simp only [List.getElem?_map, List.getElem?_zipIdx, hl, Option.map_some, Nat.zero_add] at hentry
  rcases hs : s.laps[i]? with - | l'
  · simp [hs] at hentry
  · have heq : l.toValue i = l'.toValue i := by simpa [hs] using hentry
    exact ⟨l', rfl, Lap.eq_of_toValue heq⟩

end Automation.Loop
