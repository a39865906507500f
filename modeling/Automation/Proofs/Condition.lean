/-
Automation/Proofs/Condition.lean

What conditions look at.

A condition resolves its own operands: those of its cases, which may be read from a
text, or the references of its expression.  If none of them is reserved, it comes to
the same without environment and secrets (`ofConfig_veil`), and asks for no secret
(`references_not_reserved`).
-/
import Mathlib.Data.List.Induction
import Automation.Condition.Selection
import Automation.Proofs.Binding.View
import Automation.Proofs.Shape

namespace Automation

namespace Condition

open Automation.Binding

/-! ### References of conditions -/

/-- Cases in settings; those that are written as a text are read. -/
def decoded (raw : Value) : Value :=
  match raw with
  | .text s => match Json.data? s with
    | .ok (some v) => v
    | _ => .null
  | v => v

/-- A case looks nothing up in the environment or among the secrets. -/
def Case.Discreet (c : Case) : Prop := ∀ ref ∈ c.references, ¬ Reserved ref

theorem unreserved_of_text {s : String} (h : Unreserved (.text s)) :
    ∀ ref ∈ referencesIn s, ¬ Reserved ref :=
  h s (List.mem_singleton_self s)

/-- A further element is put behind the distinct ones, unless it is among them. -/
theorem distinct_concat (xs : List String) (x : String) :
    distinct (xs ++ [x]) = if x ∈ distinct xs then distinct xs else distinct xs ++ [x] := by
  simp [distinct, List.foldl_append]

theorem mem_distinct_iff {xs : List String} {x : String} : x ∈ distinct xs ↔ x ∈ xs := by
  induction xs using List.reverseRecOn with
  | nil => rfl
  | append_singleton xs last ih =>
    rw [distinct_concat, List.mem_append, List.mem_singleton, ← ih]
    split
    · next hlast => exact ⟨.inl, fun h => h.elim id fun hx => hx ▸ hlast⟩
    · rw [List.mem_append, List.mem_singleton]

/-- An expression has the references that its text has. -/
theorem referencesOf_not_reserved {expression : String} (h : Unreserved (.text expression)) :
    ∀ ref ∈ referencesOf expression, ¬ Reserved ref := by
  intro ref href
  unfold referencesOf at href
  split at href
  · cases href
  · rw [referencesIn_strip] at href
    exact unreserved_of_text h ref (mem_distinct_iff.mp href)

/-- What is read as a case is an object, with fields that were read from it. -/
theorem Case.fields_of_ofValue {v : Value} {c : Case} (h : Case.ofValue v = .ok c) :
    ∃ fs, v = .object fs ∧ Shape.defaulted fs "leftOperand" .null Shape.any = .ok c.left ∧
      Shape.defaulted fs "rightOperand" .null Shape.any = .ok c.right ∧
      Shape.defaulted fs "condition" none (Shape.nullable Shape.text) = .ok c.condition := by
  cases v with
  | object fs =>
    simp only [Case.ofValue, Checked.app_eq_ok] at h
    -- one pair for each field, the last one outermost
    obtain ⟨_, others, ⟨_, condition, ⟨_, uses, ⟨_, returned, ⟨_, isBound, ⟨_, right, ⟨_, operator,
      ⟨_, left, ⟨_, label, ⟨_, id, hmk, -, rfl⟩, -, rfl⟩, hleft, rfl⟩, -, rfl⟩, hright, rfl⟩, -, rfl⟩,
      -, rfl⟩, -, rfl⟩, hcondition, rfl⟩, -, rfl⟩ := h
    obtain rfl := Checked.ok.inj hmk
    exact ⟨fs, rfl, hleft, hright, hcondition⟩
  | _ => cases h

/-- An operand is the value that it is read from, or null. -/
theorem unreserved_of_operand {fs : Fields Value} (hfs : Unreserved (.object fs)) {key : String}
    {x : Value} (h : Shape.defaulted fs key .null Shape.any = .ok x) : Unreserved x := by
  rcases Shape.of_defaulted h with rfl | ⟨y, hy, hread⟩
  · exact unreserved_null
  · obtain rfl := Checked.ok.inj hread
    exact hfs.get? hy

/-- An expression is the text that it is read from. -/
theorem unreserved_of_condition {fs : Fields Value} (hfs : Unreserved (.object fs)) {key s : String}
    (h : Shape.defaulted fs key none (Shape.nullable Shape.text) = .ok (some s)) :
    Unreserved (.text s) := by
  rcases Shape.of_defaulted h with hnone | ⟨y, hy, hread⟩
  · cases hnone
  · cases y <;> simp [Shape.nullable, Shape.text, Checked.map, Checked.defect] at hread
    rw [← hread]
    exact hfs.get? hy

/-- What is read as a case has the references that the value has. -/
theorem Case.discreet_of_value {v : Value} {c : Case} (h : Case.ofValue v = .ok c)
    (hv : Unreserved v) : c.Discreet := by
  obtain ⟨fs, rfl, hleft, hright, hcondition⟩ := Case.fields_of_ofValue h
  intro ref href
  unfold Case.references at href
  split at href
  · next s hs =>
    have hcase : c.condition = some s := by
      unfold expression? at hs
      split at hs
      · exact (Option.filter_eq_some_iff.mp hs).1
      · cases hs
    rw [hcase] at hcondition
    exact referencesOf_not_reserved (unreserved_of_condition hv hcondition) ref href
  · rcases List.mem_append.mp href with href | href
    · exact (unreserved_of_operand hv hleft).references ref href
    · split at href
      · exact (unreserved_of_operand hv hright).references ref href
      · cases href

theorem discreet_of_readEach {vs : List Value} {cs : List Case} (h : readEach vs = .ok cs)
    (hvs : ∀ v ∈ vs, Unreserved v) : ∀ c ∈ cs, c.Discreet := by
  induction vs generalizing cs with
  | nil =>
    obtain rfl := Except.ok.inj h
    simp
  | cons v vs ih =>
    obtain ⟨hv, hrest⟩ := List.forall_mem_cons.mp hvs
    unfold readEach at h
    rcases hc : Case.ofValue v with c | errors
    · rcases hmore : readEach vs with fault | more
      · simp [hc, hmore, Except.map] at h
      · obtain rfl : c :: more = cs := by simpa [hc, hmore, Except.map] using h
        exact List.forall_mem_cons.mpr ⟨Case.discreet_of_value hc hv, ih hmore hrest⟩
    · simp [hc] at h

/-- The cases that are read are none, or the elements of a list. -/
theorem cases_of_readCases {raw : Value} {cs : List Case} (h : readCases raw = .ok cs) :
    cs = [] ∨ ∃ vs, decoded raw = .list vs ∧ readEach vs = .ok cs := by
  have hlisted : ∀ v : Value, (∀ s, v ≠ .text s) → readCases v = .ok cs →
      cs = [] ∨ ∃ vs, v = .list vs ∧ readEach vs = .ok cs := by
    intro v htext hread
    cases v with
    | text s => exact absurd rfl (htext s)
    | null => exact .inl (Except.ok.inj hread).symm
    | list vs => exact .inr ⟨vs, rfl, hread⟩
    | _ => cases hread
  cases raw with
  | text s =>
    rcases hs : s.isEmpty with - | -
    · rcases hdata : Json.data? s with fault | _ | v
      · simp [readCases, hs, hdata, bind, Except.bind] at h
      · simp [readCases, hs, hdata, bind, Except.bind] at h
      · have hdecoded : decoded (.text s) = v := by simp [decoded, hdata]
        rw [hdecoded]
        simp only [readCases, hs, hdata, bind, Except.bind] at h
        cases v with
        | text _ => cases h
        | _ => exact hlisted _ (by simp) h
    · simp [readCases, hs, bind, Except.bind, readEach] at h
      exact .inl h
  | _ => exact hlisted _ (by simp [decoded]) h

theorem discreet_of_readCases {raw : Value} {cs : List Case} (h : readCases raw = .ok cs)
    (hraw : Unreserved (decoded raw)) : ∀ c ∈ cs, c.Discreet := by
  rcases cases_of_readCases h with rfl | ⟨vs, hvs, hread⟩
  · simp
  · rw [hvs] at hraw
    exact discreet_of_readEach hread fun v hv => hraw.mem_items hv

/-! ### Conditions without environment and secrets -/

theorem boundValues_veil (view : View) {refs : Fields String}
    (h : ∀ r ∈ refs, ¬ Reserved r.2) : boundValues view.veil refs = boundValues view refs := by
  induction refs with
  | nil => rfl
  | cons r refs ih =>
    obtain ⟨hr, hrefs⟩ := List.forall_mem_cons.mp h
    unfold boundValues
    rw [View.lookup_veil view hr, ih hrefs]

/-- The variables of an expression stand for its references. -/
theorem mem_of_mem_numbered {refs : List String} {r : String × String} (h : r ∈ numbered refs) :
    r.2 ∈ refs := by
  obtain ⟨⟨ref, i⟩, hmem, rfl⟩ := List.mem_map.mp h
  exact List.fst_mem_of_mem_zipIdx hmem

theorem activation_veil (view : View) {b : Bound} (h : ∀ r ∈ b.references, ¬ Reserved r.2) :
    activation view.veil b = activation view b := by
  unfold activation
  rw [boundValues_veil view h]
  rfl

theorem evaluate_veil (view : View) {expression : String}
    (h : ∀ ref ∈ referencesOf expression, ¬ Reserved ref) :
    evaluate view.veil expression = evaluate view expression := by
  unfold evaluate referencesOf at *
  split
  · rfl
  · next hblank =>
    rw [if_neg hblank] at h
    have hvalues := activation_veil view (b := bindReferences (Text.strip expression))
      fun r hr => h _ (mem_of_mem_numbered hr)
    simp only [hvalues]

namespace Case

theorem holds_veil (view : View) {c : Case} (h : c.Discreet) : c.holds view.veil = c.holds view := by
  unfold Discreet references at h
  unfold holds
  split
  · next expression hexpression =>
    rw [hexpression] at h
    exact evaluate_veil view h
  · next hexpression =>
    rw [hexpression] at h
    have hleft := View.resolve_veil view c.left fun ref href => h ref (List.mem_append_left _ href)
    rcases hbound : c.rightIsBound with - | -
    · simp [hleft]
    · have hright := View.resolve_veil view c.right fun ref href =>
        h ref (List.mem_append_right _ (by rw [if_pos hbound]; exact href))
      simp [hleft, hright]

theorem verdict_veil (view : View) {c : Case} (h : c.Discreet) :
    c.verdict view.veil = c.verdict view := by
  unfold verdict
  rw [holds_veil view h]

theorem firstFrom_veil (view : View) {cs : List Case} (h : ∀ c ∈ cs, c.Discreet) (start : ℕ) :
    firstFrom view.veil start cs = firstFrom view start cs := by
  induction cs generalizing start with
  | nil => rfl
  | cons c cs ih =>
    obtain ⟨hc, hcs⟩ := List.forall_mem_cons.mp h
    unfold firstFrom
    rw [verdict_veil view hc, ih hcs]

/-- The cases that are looked at are among the cases. -/
theorem mem_of_mem_tried {view : View} {cs : List Case} {c : Case} (h : c ∈ tried view cs) :
    c ∈ cs := by
  induction cs with
  | nil => cases h
  | cons first cs ih =>
    unfold tried at h
    split at h
    · exact List.mem_cons.mpr ((List.mem_cons.mp h).imp_right ih)
    · exact List.mem_cons.mpr (.inl (List.mem_singleton.mp h))

end Case

/-- Settings of a condition that look nothing up in the environment or among the secrets, also
not in cases that are written as a text. -/
structure Discreet (config : Fields Value) : Prop where
  settings : Unreserved (.object config)
  cases : Unreserved (decoded (config.at "cases"))

namespace Selection

theorem unreserved_of_expression {config : Fields Value} (h : Discreet config) {expression : String}
    (hexpression : expressionOf config = .ok expression) : Unreserved (.text expression) := by
  have hempty : Unreserved (.text "") := by
    intro s hs ref href
    obtain rfl := List.mem_singleton.mp hs
    simp [referencesIn_eq] at href
  have hraw : Unreserved
      (((config.at "condition").orElse (config.at "expression")).orElse (.text "")) :=
    ((h.settings.at _).orElse (h.settings.at _)).orElse hempty
  unfold expressionOf at hexpression
  split at hexpression
  · next s hs =>
    rw [hs] at hraw
    exact Except.ok.inj hexpression ▸ hraw
  · cases hexpression

theorem ofCases_veil (view : View) (t : ReturnType) {cs : List Case} (h : ∀ c ∈ cs, c.Discreet) :
    ofCases view.veil t cs = ofCases view t cs := by
  unfold ofCases Case.first
  rw [Case.firstFrom_veil view h]

theorem ofExpression_veil (view : View) {expression : String} (description : Value)
    (h : Unreserved (.text expression)) :
    ofExpression view.veil expression description = ofExpression view expression description := by
  unfold ofExpression
  rw [evaluate_veil view (referencesOf_not_reserved h)]

/-- A condition comes to the same without environment and secrets. -/
theorem ofConfig_veil (view : View) {config : Fields Value} (h : Discreet config) :
    ofConfig view.veil config = ofConfig view config := by
  unfold ofConfig
  split
  · rcases hread : readCases (config.at "cases") with fault | cs
    · simp only [bind, Except.bind]
    · have hcases := ofCases_veil view (returnTypeOf config) (discreet_of_readCases hread h.cases)
      simp only [bind, Except.bind, hcases]
  · rcases hexpression : expressionOf config with fault | expression
    · simp only [bind, Except.bind]
    · have hsame := ofExpression_veil view (config.at "description")
        (unreserved_of_expression h hexpression)
      simp only [bind, Except.bind, hsame]

/-- A condition asks for no secret. -/
theorem references_not_reserved (view : View) {config : Fields Value} (h : Discreet config) :
    ∀ ref ∈ references view config, ¬ Reserved ref := by
  intro ref href
  unfold references at href
  split at href
  · split at href
    · next cs hread =>
      obtain ⟨c, hc, href⟩ := List.mem_flatMap.mp href
      exact discreet_of_readCases hread h.cases c (Case.mem_of_mem_tried hc) ref href
    · cases href
  · split at href
    · next expression hexpression =>
      exact referencesOf_not_reserved (unreserved_of_expression h hexpression) ref href
    · cases href

end Selection

end Condition

end Automation
