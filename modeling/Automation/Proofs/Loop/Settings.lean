/-
Automation/Proofs/Loop/Settings.lean

Which settings a loop can be run with.

Its variables can be read if their entries are well-formed: they stand in a list, or there is none
of them, and what is there of a variable is text (`varsOf_isOk_iff`).  Then the numbers decide.
Each comes to the integer that it denotes or to its default, within its bounds; only an infinite
one makes the settings unusable (`ofConfig_cases`).
-/
import Automation.Loop.Settings
import Automation.Proofs.Shape
import Automation.Proofs.Value.Number

namespace Automation

namespace Loop

/-! ### Variables -/

namespace Variable

/-- The keys of a variable. -/
def keys : List String := ["id", "variableName", "sourceNodeId", "sourceField"]

/-- What is there of a variable is text. -/
def WellFormed (fs : Fields Value) : Prop :=
  ∀ key ∈ keys, ∀ v, fs.get? key = some v → ∃ s, v = .text s

theorem ofFields_isOk_iff {fs : Fields Value} :
    (∃ x, ofFields fs = .ok x) ↔ WellFormed fs := by
  have hmk : ∃ g, Checked.ok Variable.mk = .ok g := ⟨_, rfl⟩
  unfold ofFields WellFormed
  simp only [Checked.exists_app_eq_ok, Shape.exists_defaulted_text, keys, List.forall_mem_cons,
    List.not_mem_nil, false_imp_iff, implies_true, and_true, hmk, true_and, and_assoc]

end Variable

namespace Settings

variable {config : Fields Value}

/-- The entries of a list of variables: the objects in it. -/
def entriesOf : Value → List (Fields Value)
  | .list items => items.filterMap Value.fields?
  | _ => []

/-- The value is a boolean or a number that counts as something: no list, and not the lack of one
either. -/
def HasNoElements (v : Value) : Prop :=
  v.isTruthy = true ∧ ((∃ b, v = .bool b) ∨ (∃ n, v = .int n) ∨ ∃ x, v = .float x)

/-- The older form of settings as the fields of a variable. -/
def loneFields (config : Fields Value) : Fields Value :=
  [("id", .text "legacy-1"),
    ("variableName", (config.at "variableName").orElse (.text "item")),
    ("sourceNodeId", config.at "sourceNodeId"), ("sourceField", config.at "sourceField")]

/-- The entries for variables are well-formed, in the form of settings that counts. -/
structure VariablesWellFormed (config : Fields Value) : Prop where
  hasElements : ¬ HasNoElements (config.at "loopVariables")
  listed : ∀ fs ∈ entriesOf (config.at "loopVariables"), Variable.WellFormed fs
  lone : entriesOf (config.at "loopVariables") = [] → (config.at "sourceNodeId").isTruthy = true →
    (config.at "sourceField").isTruthy = true → Variable.WellFormed (loneFields config)

/-- All other values have elements to go through, if only none. -/
theorem variableList_cases (v : Value) :
    HasNoElements v ∧ (∃ fault, variableList v = .error fault) ∨
      ¬ HasNoElements v ∧ ∃ items, variableList v = .ok items ∧
        items.filterMap Value.fields? = entriesOf v := by
  cases v with
  | bool b => cases b <;> simp [HasNoElements, variableList, entriesOf, Value.isTruthy]
  | int n =>
    by_cases hn : n = 0 <;> simp [HasNoElements, variableList, entriesOf, Value.isTruthy, hn]
  | float x =>
    by_cases hx : x.isZero = true <;>
      simp [HasNoElements, variableList, entriesOf, Value.isTruthy, hx]
  | list items => exact .inr ⟨by simp [HasNoElements], items, rfl, rfl⟩
  | _ => exact .inr ⟨by simp [HasNoElements], [], rfl, rfl⟩

/-- Variables are read if all entries are well-formed, one from each of them. -/
theorem readVariables_cases (items : List Value) :
    (∀ fs ∈ items.filterMap Value.fields?, Variable.WellFormed fs) ∧
        (∃ vars, readVariables items = .ok vars ∧
          vars.length = (items.filterMap Value.fields?).length) ∨
      ¬ (∀ fs ∈ items.filterMap Value.fields?, Variable.WellFormed fs) ∧
        ∃ fault, readVariables items = .error fault := by
  induction items with
  | nil => exact .inl ⟨by simp, [], rfl, rfl⟩
  | cons v items ih =>
    rcases hfields : v.fields? with - | fs
    · -- what is no object is passed over
      rw [List.filterMap_cons_none hfields]
      simpa only [readVariables, hfields] using ih
    · rw [List.filterMap_cons_some hfields, List.forall_mem_cons, ← Variable.ofFields_isOk_iff]
      simp only [readVariables, hfields]
      rcases Variable.ofFields fs with x | errors
      · rcases ih with ⟨hall, vars, hvars, hlength⟩ | ⟨hbad, fault, hfault⟩
        · exact .inl ⟨⟨⟨x, rfl⟩, hall⟩, x :: vars, by rw [hvars]; rfl, by simp [hlength]⟩
        · exact .inr ⟨fun h => hbad h.2, fault, by rw [hfault]; rfl⟩
      · exact .inr ⟨fun h => absurd h.1 nofun, _, rfl⟩

theorem loneVariable_isOk_iff : (∃ vars, loneVariable config = .ok vars) ↔
    ((config.at "sourceNodeId").isTruthy = true → (config.at "sourceField").isTruthy = true →
      Variable.WellFormed (loneFields config)) := by
  rw [← Variable.ofFields_isOk_iff]
  unfold loneVariable loneFields
  split
  · next hsource =>
    obtain ⟨hnode, hfield⟩ := Bool.and_eq_true_iff.mp hsource
    dsimp only
    split
    · next h => simp [h]
    · next h => simp [h, hnode, hfield]
  · next hsource => simp_all

/-- The variables can be read just if their entries are well-formed. -/
theorem varsOf_isOk_iff : (∃ vars, varsOf config = .ok vars) ↔ VariablesWellFormed config := by
  have hvarsOf : varsOf config =
      (variableList (config.at "loopVariables")).bind fun items =>
        (readVariables items).bind fun listed =>
          if listed.isEmpty then loneVariable config else .ok listed := rfl
  rw [hvarsOf]
  rcases variableList_cases (config.at "loopVariables") with
    ⟨hscalar, fault, hfault⟩ | ⟨hscalar, items, hitems, hentries⟩
  · rw [hfault]
    exact iff_of_false nofun fun h => h.hasElements hscalar
  rw [hitems, Except.bind]
  rcases readVariables_cases items with ⟨hall, vars, hvars, hlength⟩ | ⟨hbad, fault, hfault⟩
  · rw [hentries] at hall hlength
    rw [hvars, Except.bind]
    by_cases hnone : entriesOf (config.at "loopVariables") = []
    · -- the older form of settings counts
      rw [hnone, List.length_nil] at hlength
      rw [List.eq_nil_of_length_eq_zero hlength, List.isEmpty_nil, if_pos rfl,
        loneVariable_isOk_iff]
      exact ⟨fun h => ⟨hscalar, hall, fun _ => h⟩, fun h => h.lone hnone⟩
    · have hsome : vars.isEmpty = false := by
        rw [List.isEmpty_eq_false_iff, ← List.length_pos_iff, hlength]
        exact List.length_pos_iff.mpr hnone
      rw [hsome, if_neg Bool.false_ne_true]
      exact iff_of_true ⟨vars, rfl⟩ ⟨hscalar, hall, fun h => absurd h hnone⟩
  · rw [hentries] at hbad
    rw [hfault]
    exact iff_of_false nofun fun h => hbad h.listed

/-! ### Numbers -/

/-- The numbers among the settings. -/
def numberKeys : List String := ["maxIterations", "loopCounterStart", "delayMs", "batchSize"]

/-- Each number is what its setting stands for, within its bounds. -/
structure Follows (s : Settings) (config : Fields Value) (defaultMaxIterations : ℤ) : Prop where
  maxIterations : ∃ n, (config.at "maxIterations").StandsFor defaultMaxIterations n ∧
    (s.maxIterations : ℤ) = max n 0
  counterStart : (config.at "loopCounterStart").StandsFor 1 s.counterStart
  delayMs : ∃ n, (config.at "delayMs").StandsFor 0 n ∧ (s.delayMs : ℤ) = max n 0
  batchSize : ∃ n, (config.at "batchSize").StandsFor 5 n ∧ (s.authoredBatchSize : ℤ) = max n 1

/-- Settings with well-formed variables are usable unless a number is infinite. -/
theorem ofConfig_cases (h : VariablesWellFormed config) (defaultMaxIterations : ℤ) :
    (∃ key ∈ numberKeys, (config.at key).IsInfinite) ∧
        ofConfig config defaultMaxIterations = .error .infiniteInteger ∨
      (∀ key ∈ numberKeys, ¬ (config.at key).IsInfinite) ∧
        ∃ s, ofConfig config defaultMaxIterations = .ok s ∧
          s.Follows config defaultMaxIterations := by
  obtain ⟨vars, hvars⟩ := varsOf_isOk_iff.mpr h
  unfold ofConfig
  rw [hvars]
  simp only [numberKeys, List.mem_cons, List.not_mem_nil, or_false, exists_eq_or_imp,
    exists_eq_left, forall_eq_or_imp, forall_eq, bind, Except.bind]
  -- the numbers are read in this order, and the first infinite one ends the reading
  rcases Value.toIntOr_cases defaultMaxIterations (config.at "maxIterations") with
    ⟨hinfinite, hcap⟩ | ⟨hcapFinite, cap, hcap, hcapFor⟩
  · exact .inl ⟨.inl hinfinite, by rw [hcap]⟩
  rcases Value.toIntOr_cases 1 (config.at "loopCounterStart") with
    ⟨hinfinite, hstart⟩ | ⟨hstartFinite, start, hstart, hstartFor⟩
  · exact .inl ⟨.inr (.inl hinfinite), by rw [hcap, hstart]⟩
  rcases Value.toIntOr_cases 0 (config.at "delayMs") with
    ⟨hinfinite, hdelay⟩ | ⟨hdelayFinite, delay, hdelay, hdelayFor⟩
  · exact .inl ⟨.inr (.inr (.inl hinfinite)), by rw [hcap, hstart, hdelay]⟩
  rcases Value.toIntOr_cases 5 (config.at "batchSize") with
    ⟨hinfinite, hbatch⟩ | ⟨hbatchFinite, batch, hbatch, hbatchFor⟩
  · exact .inl ⟨.inr (.inr (.inr hinfinite)), by rw [hcap, hstart, hdelay, hbatch]⟩
  rw [hcap, hstart, hdelay, hbatch]
  refine .inr ⟨⟨hcapFinite, hstartFinite, hdelayFinite, hbatchFinite⟩, _, rfl, ?_⟩
  constructor
  case maxIterations => exact ⟨cap, hcapFor, Int.toNat_eq_max cap⟩
  case counterStart => exact hstartFor
  case delayMs => exact ⟨delay, hdelayFor, Int.toNat_eq_max delay⟩
  case batchSize =>
    refine ⟨batch, hbatchFor, ?_⟩
    dsimp only
    omega

end Settings

end Loop

end Automation
