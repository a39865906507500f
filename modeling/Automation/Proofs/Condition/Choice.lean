/-
Automation/Proofs/Condition/Choice.lean

Which case of a condition is taken.

The cases before the one that is taken do not hold, and those after it are not looked at:
a list of cases decides for one of them exactly if it can be cut there
(`firstFrom_eq_some_iff`).  So the case that is taken is the least one that holds
(`Decides`), what a condition comes to describes that case (`describes_of_ofCases`), and other
cases behind it change nothing (`ofConfig_congr`).
-/
import Mathlib.Order.Bounds.Basic
import Automation.Condition.Selection

namespace Automation.Condition

namespace Case

variable {view : View}

theorem verdict_eq_holds_iff {c : Case} : c.verdict view = .holds ↔ c.holds view = .ok true := by
  unfold verdict
  split
  · next h => simp [h]
  · next h => simp [h]
  · next fault h =>
    rw [h]
    split <;> simp

/-- The case with its place is the first one that holds; there is none if no case does. -/
def Decides (view : View) (cases : List Case) : Option (ℕ × Case) → Prop
  | some (k, c) => cases[k]? = some c ∧
    IsLeast {i | ∃ d, cases[i]? = some d ∧ d.holds view = .ok true} k
  | none => ∀ c ∈ cases, c.holds view ≠ .ok true

theorem Decides.unique {cases : List Case} {found other : Option (ℕ × Case)}
    (h : Decides view cases found) (h' : Decides view cases other) : found = other := by
  have hnone : ∀ {k c}, Decides view cases none → ¬ Decides view cases (some (k, c)) := by
    rintro k c hnever ⟨-, ⟨d, hd, hholds⟩, -⟩
    exact hnever d (List.mem_of_getElem? hd) hholds
  rcases found with - | ⟨k, c⟩ <;> rcases other with - | ⟨l, d⟩
  · rfl
  · exact absurd h' (hnone h)
  · exact absurd h (hnone h')
  · obtain rfl := h.2.unique h'.2
    rw [Option.some.inj (h.1.symm.trans h'.1)]

/-- A case is found where the list can be cut into cases that fail, the case that holds,
and others. -/
theorem firstFrom_eq_some_iff {cases : List Case} {start place : ℕ} {c : Case} :
    firstFrom view start cases = .ok (some (place, c)) ↔
      ∃ before rest, cases = before ++ c :: rest ∧ (∀ d ∈ before, d.verdict view = .fails) ∧
        c.verdict view = .holds ∧ place = start + before.length := by
  induction cases generalizing start with
  | nil => simp [firstFrom]
  | cons first cases ih =>
    unfold firstFrom
    constructor
    · intro h
      split at h
      · next hholds =>
        obtain ⟨rfl, rfl⟩ : start = place ∧ first = c := by simpa using h
        exact ⟨[], cases, rfl, by simp, hholds, rfl⟩
      · next hfails =>
        obtain ⟨before, rest, rfl, hbefore, hc, rfl⟩ := ih.mp h
        refine ⟨first :: before, rest, rfl, List.forall_mem_cons.mpr ⟨hfails, hbefore⟩, hc, ?_⟩
        rw [List.length_cons]
        omega
      · cases h
    · rintro ⟨before, rest, hcut, hbefore, hc, rfl⟩
      cases before with
      | nil =>
        obtain ⟨rfl, rfl⟩ := List.cons.inj hcut
        simp [hc]
      | cons d before =>
        obtain ⟨rfl, rfl⟩ := List.cons.inj hcut
        obtain ⟨hd, hbefore⟩ := List.forall_mem_cons.mp hbefore
        simp only [hd]
        refine ih.mpr ⟨before, rest, rfl, hbefore, hc, ?_⟩
        rw [List.length_cons]
        omega

theorem firstFrom_eq_none_iff {cases : List Case} {start : ℕ} :
    firstFrom view start cases = .ok none ↔ ∀ c ∈ cases, c.verdict view = .fails := by
  induction cases generalizing start with
  | nil => simp [firstFrom]
  | cons first cases ih =>
    unfold firstFrom
    rw [List.forall_mem_cons]
    split
    · next h => simp [h]
    · next h => simp [h, ih]
    · next h => simp [h]

/-- The case that is found is the least one that holds. -/
theorem decides_of_first {cases : List Case} {found : Option (ℕ × Case)}
    (h : first view cases = .ok found) : Decides view cases found := by
  have hnot : ∀ {d : Case}, d.verdict view = .fails → d.holds view ≠ .ok true := by
    intro d hfails hholds
    rw [verdict_eq_holds_iff.mpr hholds] at hfails
    cases hfails
  rcases found with - | ⟨k, c⟩
  · exact fun d hd => hnot (firstFrom_eq_none_iff.mp h d hd)
  · obtain ⟨before, rest, rfl, hbefore, hc, rfl⟩ := firstFrom_eq_some_iff.mp h
    have hat : (before ++ c :: rest)[0 + before.length]? = some c := by simp
    refine ⟨hat, ⟨c, hat, verdict_eq_holds_iff.mp hc⟩, ?_⟩
    rintro i ⟨d, hd, hholds⟩
    by_contra hlt
    rw [List.getElem?_append_left (by omega)] at hd
    exact hnot (hbefore d (List.mem_of_getElem? hd)) hholds

/-- No case behind the one that is taken is looked at. -/
theorem tried_of_holds {before rest : List Case} {c : Case}
    (hbefore : ∀ d ∈ before, d.verdict view = .fails) (hc : c.verdict view = .holds) :
    tried view (before ++ c :: rest) = before ++ [c] := by
  induction before with
  | nil => simp [tried, hc]
  | cons d before ih =>
    obtain ⟨hd, hbefore⟩ := List.forall_mem_cons.mp hbefore
    simp [tried, hd, ih hbefore]

/-- Lists of cases that are the same up to the one that is taken find the same case after the
same tries. -/
theorem first_congr {cases others : List Case} {k : ℕ} {c : Case}
    (h : first view cases = .ok (some (k, c)))
    (hsame : others.take (k + 1) = cases.take (k + 1)) :
    first view others = .ok (some (k, c)) ∧ tried view others = tried view cases := by
  obtain ⟨before, rest, rfl, hbefore, hc, rfl⟩ := firstFrom_eq_some_iff.mp h
  have hfront : (before ++ c :: rest).take (0 + before.length + 1) = before ++ [c] := by
    rw [Nat.zero_add, List.take_length_add_append]
    rfl
  obtain ⟨behind, hothers⟩ : ∃ behind, others = before ++ c :: behind := by
    refine ⟨others.drop (0 + before.length + 1), ?_⟩
    have hcut := List.take_append_drop (0 + before.length + 1) others
    rw [hsame, hfront, List.append_assoc] at hcut
    exact hcut.symm
  rw [hothers, tried_of_holds hbefore hc, tried_of_holds hbefore hc]
  exact ⟨firstFrom_eq_some_iff.mpr ⟨before, behind, rfl, hbefore, hc, rfl⟩, rfl⟩

end Case

namespace Selection

variable {view : View}

/-- What a condition comes to describes the case that is taken, or that there is none. -/
structure Describes (t : ReturnType) (taken : Option (ℕ × Case)) (s : Selection) : Prop where
  returnType : s.returnType = t
  caseId : s.caseId = taken.map fun found => found.2.id
  index : s.index = (taken.map fun found => (found.1 : ℤ)).getD (-1)
  returnValue : match taken with
    | some (_, c) => t.coerce c.returnValue = .ok s.returnValue
    | Option.none => s.returnValue = t.whenNone

theorem describes_of_taken {t : ReturnType} {k : ℕ} {c : Case} {s : Selection}
    (h : taken t k c = .ok s) : Describes t (some (k, c)) s := by
  unfold taken at h
  rcases hvalue : t.coerce c.returnValue with fault | value
  · simp [hvalue, bind, Except.bind] at h
  · rw [hvalue] at h
    obtain rfl := Except.ok.inj h
    exact ⟨rfl, rfl, rfl, hvalue⟩

theorem describes_of_ofCases {t : ReturnType} {cases : List Case} {s : Selection}
    (h : ofCases view t cases = .ok s) :
    ∃ found, Case.first view cases = .ok found ∧ Describes t found s := by
  unfold ofCases at h
  rcases hfirst : Case.first view cases with fault | _ | ⟨k, c⟩
  · simp [hfirst, bind, Except.bind] at h
  · rw [hfirst] at h
    obtain rfl := Except.ok.inj h
    exact ⟨_, rfl, rfl, rfl, rfl, rfl⟩
  · rw [hfirst] at h
    exact ⟨_, rfl, describes_of_taken h⟩

/-- The settings of a condition in case-list mode give what its cases come to. -/
theorem ofConfig_of_cases {config : Fields Value} (hmode : usesCases config = true)
    {cases : List Case} (hcases : readCases (config.at "cases") = .ok cases) :
    ofConfig view config =
      if cases.isEmpty then .error .noCases else ofCases view (returnTypeOf config) cases := by
  simp only [ofConfig, hmode, hcases, if_true, bind, Except.bind]

theorem references_of_cases {config : Fields Value} (hmode : usesCases config = true)
    {cases : List Case} (hcases : readCases (config.at "cases") = .ok cases) :
    references view config = (Case.tried view cases).flatMap Case.references := by
  simp only [references, hmode, hcases, if_true]

/-- Settings of a condition in case-list mode that differ behind the case that is taken come to
the same, and the same is looked up for them. -/
theorem ofConfig_congr {config other : Fields Value} {cases others : List Case} {k : ℕ} {c : Case}
    (hmode : usesCases config = true) (hcases : readCases (config.at "cases") = .ok cases)
    (hmode' : usesCases other = true) (hcases' : readCases (other.at "cases") = .ok others)
    (hreturn : other.at "returnType" = config.at "returnType")
    (hfirst : Case.first view cases = .ok (some (k, c)))
    (hsame : others.take (k + 1) = cases.take (k + 1)) :
    ofConfig view other = ofConfig view config ∧
      references view other = references view config := by
  obtain ⟨hothers, htried⟩ := Case.first_congr hfirst hsame
  have htype : returnTypeOf other = returnTypeOf config := by
    unfold returnTypeOf
    rw [hreturn]
  have hnonempty : ∀ {cs : List Case}, Case.first view cs = .ok (some (k, c)) →
      cs.isEmpty = false := by
    intro cs h
    cases cs with
    | nil => cases h
    | cons => rfl
  rw [ofConfig_of_cases hmode hcases, ofConfig_of_cases hmode' hcases', hnonempty hfirst,
    hnonempty hothers, references_of_cases hmode hcases, references_of_cases hmode' hcases', htried]
  unfold ofCases
  rw [hothers, hfirst, htype]
  exact ⟨rfl, rfl⟩

end Selection

end Automation.Condition
