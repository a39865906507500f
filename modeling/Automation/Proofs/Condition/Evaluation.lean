/-
Automation/Proofs/Condition/Evaluation.lean

Which conditions come to an outcome.

A case that is looked at holds, does not hold, refuses to be evaluated, or breaks.  It breaks
exactly if it is not sound (`holds_cases`): one of its references has an index of too many digits,
or it compares an integer that is too large for a number of the format.  So cases come to an
outcome unless one that is looked at is not sound, or the value to return is to be an integer and
has none (`cases_decide_iff_sound`).
-/
import Automation.Proofs.Binding.Resolution
import Automation.Proofs.Condition.Choice
import Automation.Proofs.Condition.Comparison

namespace Automation.Condition

open Automation.Binding

variable {view : View}

/-! ### Expressions -/

/-- The values of variables are those of their references. -/
theorem depends_boundValues (view : View) (refs : Fields String) :
    view.Depends (refs.map (·.2)) (boundValues view refs) := by
  induction refs with
  | nil => exact View.Depends.ok _
  | cons r refs ih =>
    exact (View.depends_lookup view r.2).bind fun value => ih.map _

theorem depends_activation (view : View) (expression : String) :
    view.Depends (distinct (referencesIn expression))
      (activation view (bindReferences expression)) := by
  have href : (bindReferences expression).references.map (·.2) =
      distinct (referencesIn expression) := by
    show (numbered (distinct (referencesIn expression))).map (·.2) = _
    unfold numbered
    rw [List.map_map]
    exact List.zipIdx_map_fst 0 _
  rw [← href]
  exact (depends_boundValues view _).map _

/-- An expression comes to a truth value or refuses to, once its references are looked up. -/
theorem evaluate_cases (view : View) (expression : String) :
    (∀ ref ∈ referencesOf expression, ∃ x, view.lookup ref = .ok x) ∧
        ((∃ b, evaluate view expression = .ok b) ∨
          ∃ fault, evaluate view expression = .error fault ∧ fault.isRefusal = true) ∨
      ∃ ref ∈ referencesOf expression, ∃ fault, view.lookup ref = .error fault ∧
        evaluate view expression = .error fault := by
  unfold evaluate referencesOf
  rcases hblank : Text.isBlankText expression with - | -
  · rcases depends_activation view (Text.strip expression) with
      ⟨⟨values, hvalues⟩, hrefs⟩ | ⟨ref, href, fault, hlookup, hfault⟩
    · refine .inl ⟨hrefs, ?_⟩
      simp only [hvalues, bind, Except.bind, Bool.false_eq_true, if_false]
      split
      · exact .inl ⟨_, rfl⟩
      · exact .inr ⟨_, rfl, rfl⟩
    · refine .inr ⟨ref, href, fault, hlookup, ?_⟩
      simp only [hfault, bind, Except.bind, Bool.false_eq_true, if_false]
  · exact .inl ⟨by simp, .inr ⟨_, rfl, rfl⟩⟩

/-! ### Cases -/

namespace Case

/-- The operator of a case; an empty name stands for equality. -/
def operatorName (c : Case) : String := if c.operator.isEmpty then "equals" else c.operator

/-- Both sides of a case, as they are compared. -/
def operands (c : Case) (view : View) : Except Fault (Value × Value) :=
  (view.resolve c.left).bind fun left =>
    (if c.rightIsBound then view.resolve c.right else .ok c.right).map fun right => (left, right)

/-- The case has two numbers to compare, of which one is too large. -/
def ComparesOverlarge (c : Case) (view : View) : Prop :=
  c.expression? = none ∧ ∃ left right, c.operands view = .ok (left, right) ∧
    Condition.ComparesOverlarge left c.operatorName right

/-- All references of the case can be looked up, and no number in it is too large. -/
structure Sound (c : Case) (view : View) : Prop where
  references : ∀ ref ∈ c.references, ∃ x, view.lookup ref = .ok x
  numbers : ¬ c.ComparesOverlarge view

theorem holds_of_operands {c : Case} (h : c.expression? = none) (view : View) :
    c.holds view = (c.operands view).bind fun sides => compare sides.1 c.operatorName sides.2 := by
  unfold holds operands
  rw [h]
  rcases view.resolve c.left with fault | left
  · rfl
  · rcases c.rightIsBound with - | -
    · rfl
    · simp only [bind, Except.bind, if_true]
      rcases view.resolve c.right with fault | right <;> rfl

theorem depends_operands {c : Case} (h : c.expression? = none) :
    view.Depends c.references (c.operands view) := by
  unfold references operands
  rw [h]
  refine (View.depends_resolve view c.left).bind fun left => ?_
  rcases c.rightIsBound with - | -
  · exact View.Depends.ok _
  · exact (View.depends_resolve view c.right).map _

/-- A case that is sound comes to an answer or refuses to; any other breaks. -/
theorem holds_cases (c : Case) (view : View) :
    c.Sound view ∧ ((∃ b, c.holds view = .ok b) ∨
        ∃ fault, c.holds view = .error fault ∧ fault.isRefusal = true) ∨
      ¬ c.Sound view ∧ ∃ fault, c.holds view = .error fault ∧
        (fault.IsDigits ∨ fault = .integerTooLarge) := by
  have hbroken : ∀ {ref : String} {fault : Fault}, ref ∈ c.references →
      view.lookup ref = .error fault → ¬ c.Sound view := by
    rintro ref fault href hlookup ⟨hrefs, -⟩
    obtain ⟨x, hx⟩ := hrefs ref href
    rw [hlookup] at hx
    cases hx
  rcases hexpression : c.expression? with - | expression
  · have hdepends : view.Depends c.references (c.operands view) := depends_operands hexpression
    rcases hdepends with
      ⟨⟨⟨left, right⟩, hsides⟩, hrefs⟩ | ⟨ref, href, fault, hlookup, hfault⟩
    · have hholds := holds_of_operands hexpression view
      rw [hsides] at hholds
      rcases compare_cases left c.operatorName right with ⟨hlarge, h⟩ | ⟨hsmall, b, h⟩
      · refine .inr ⟨fun hsound => hsound.numbers ⟨hexpression, left, right, hsides, hlarge⟩, ?_⟩
        exact ⟨_, hholds.trans h, .inr rfl⟩
      · refine .inl ⟨⟨hrefs, ?_⟩, .inl ⟨b, hholds.trans h⟩⟩
        rintro ⟨-, left', right', hsides', hlarge⟩
        obtain ⟨rfl, rfl⟩ := Prod.mk.inj (Except.ok.inj (hsides.symm.trans hsides'))
        exact hsmall hlarge
    · refine .inr ⟨hbroken href hlookup, fault, ?_, .inl (View.lookup_eq_error hlookup)⟩
      rw [holds_of_operands hexpression view, hfault]
      rfl
  · have hholds : c.holds view = evaluate view expression := by
      unfold holds
      rw [hexpression]
    have hreferences : c.references = referencesOf expression := by
      unfold references
      rw [hexpression]
    rw [hholds]
    rw [hreferences] at hbroken
    rcases evaluate_cases view expression with ⟨hrefs, hanswer⟩ | ⟨ref, href, fault, hlookup, hfault⟩
    · refine .inl ⟨⟨by rwa [hreferences], ?_⟩, hanswer⟩
      rintro ⟨hnone, -⟩
      rw [hexpression] at hnone
      cases hnone
    · exact .inr ⟨hbroken href hlookup, fault, hfault, .inl (View.lookup_eq_error hlookup)⟩

/-- A fault that breaks a case is no refusal. -/
theorem not_isRefusal {fault : Fault} (h : fault.IsDigits ∨ fault = .integerTooLarge) :
    fault.isRefusal = false := by
  rcases h with ⟨count, -, rfl⟩ | rfl <;> rfl

theorem verdict_eq_breaks_iff {c : Case} :
    (∃ fault, c.verdict view = .breaks fault) ↔ ¬ c.Sound view := by
  unfold verdict
  rcases holds_cases c view with ⟨hsound, ⟨b, h⟩ | ⟨fault, h, hrefusal⟩⟩ | ⟨hbroken, fault, h, hfault⟩
  · rw [h]
    cases b <;> simp [hsound]
  · simp [h, hrefusal, hsound]
  · simp [h, not_isRefusal hfault, hbroken]

theorem fault_of_verdict {c : Case} {fault : Fault} (h : c.verdict view = .breaks fault) :
    fault.IsDigits ∨ fault = .integerTooLarge := by
  unfold verdict at h
  rcases holds_cases c view with ⟨-, ⟨b, hb⟩ | ⟨why, hwhy, hrefusal⟩⟩ | ⟨-, why, hwhy, hkind⟩
  · rw [hb] at h
    cases b <;> cases h
  · simp [hwhy, hrefusal] at h
  · simp only [hwhy, not_isRefusal hkind, Bool.false_eq_true, if_false] at h
    obtain rfl := Verdict.breaks.inj h
    exact hkind

/-- The search ends with a fault at the first case that breaks, if no case holds before it. -/
theorem firstFrom_eq_error_iff {cases : List Case} {start : ℕ} {fault : Fault} :
    firstFrom view start cases = .error fault ↔
      ∃ c ∈ tried view cases, c.verdict view = .breaks fault := by
  induction cases generalizing start with
  | nil => simp [firstFrom, tried]
  | cons first cases ih =>
    unfold firstFrom tried
    rcases hverdict : first.verdict view with - | - | why
    · simp [hverdict]
    · simp [hverdict, ih]
    · simp [hverdict, eq_comm]

theorem first_isOk_iff {cases : List Case} :
    (∃ found, first view cases = .ok found) ↔ ∀ c ∈ tried view cases, c.Sound view := by
  constructor
  · rintro ⟨found, hfound⟩ c hc
    by_contra hbroken
    obtain ⟨fault, hfault⟩ := verdict_eq_breaks_iff.mpr hbroken
    have herror : first view cases = .error fault := firstFrom_eq_error_iff.mpr ⟨c, hc, hfault⟩
    rw [herror] at hfound
    cases hfound
  · intro hsound
    rcases hfirst : first view cases with fault | found
    · obtain ⟨c, hc, hfault⟩ := firstFrom_eq_error_iff.mp hfirst
      exact absurd (hsound c hc) (verdict_eq_breaks_iff.mp ⟨fault, hfault⟩)
    · exact ⟨found, rfl⟩

end Case

/-! ### Return values -/

/-- The value is numeric, and stands for no integer that can be returned. -/
def IsBoundless (v : Value) : Prop :=
  v.IsOverlarge ∨ ∃ x, v.numeric? = .ok (some x) ∧ x.isFinite = false

/-- A number is cut to an integer, unless it is not finite. -/
theorem intOfFloat_cases (x : Binary64) :
    x.isFinite = true ∧ (∃ n, Value.intOfFloat x = .ok n) ∨
      x.isFinite = false ∧ ∃ fault, Value.intOfFloat x = .error fault ∧
        (fault = .infiniteInteger ∨ fault = .nanInteger) := by
  cases x with
  | nan => exact .inr ⟨rfl, _, rfl, .inr rfl⟩
  | infinite => exact .inr ⟨rfl, _, rfl, .inl rfl⟩
  | finite => exact .inl ⟨rfl, _, rfl⟩

theorem coerce_integer_of_some {v : Value} {x : Binary64} (h : v.numeric? = .ok (some x)) :
    ReturnType.integer.coerce v = (Value.intOfFloat x).map .int := by
  unfold ReturnType.coerce
  rw [h]
  rfl

/-- Every value can be returned as every type, but what is boundless not as an integer. -/
theorem coerce_cases (t : ReturnType) (v : Value) :
    ¬ (t = .integer ∧ IsBoundless v) ∧ (∃ w, t.coerce v = .ok w) ∨
      (t = .integer ∧ IsBoundless v) ∧ ∃ fault, t.coerce v = .error fault ∧
        fault ∈ [.integerTooLarge, .infiniteInteger, .nanInteger] := by
  cases t with
  | boolean =>
    refine .inl ⟨by simp, ?_⟩
    cases v <;> exact ⟨_, rfl⟩
  | text => exact .inl ⟨by simp, _, rfl⟩
  | integer =>
    rcases v.numeric?_cases with ⟨hlarge, h⟩ | ⟨hsmall, found, h⟩
    · refine .inr ⟨⟨rfl, .inl hlarge⟩, .integerTooLarge, ?_, by simp⟩
      unfold ReturnType.coerce
      rw [h]
      rfl
    · rcases found with - | x
      · refine .inl ⟨by simp [IsBoundless, hsmall, h], .int 0, ?_⟩
        unfold ReturnType.coerce
        rw [h]
        rfl
      · have hcoerce := coerce_integer_of_some h
        rcases intOfFloat_cases x with ⟨hfinite, n, hn⟩ | ⟨hfinite, fault, hfault, hkind⟩
        · rw [hn] at hcoerce
          exact .inl ⟨by simp [IsBoundless, hsmall, h, hfinite], .int n, hcoerce⟩
        · rw [hfault] at hcoerce
          refine .inr ⟨⟨rfl, .inr ⟨x, h, hfinite⟩⟩, fault, hcoerce, ?_⟩
          rcases hkind with rfl | rfl <;> simp

/-! ### Outcomes -/

namespace Selection

theorem taken_isOk_iff {t : ReturnType} {k : ℕ} {c : Case} :
    (∃ s, taken t k c = .ok s) ↔ ¬ (t = .integer ∧ IsBoundless c.returnValue) := by
  unfold taken
  rcases coerce_cases t c.returnValue with ⟨hbounded, w, h⟩ | ⟨hboundless, fault, h, -⟩
  · simp only [h, bind, Except.bind]
    exact ⟨fun _ => hbounded, fun _ => ⟨_, rfl⟩⟩
  · simp only [h, bind, Except.bind]
    constructor
    · rintro ⟨s, hs⟩
      cases hs
    · exact fun hbounded => absurd hboundless hbounded

end Selection

end Automation.Condition
