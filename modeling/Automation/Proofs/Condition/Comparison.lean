/-
Automation/Proofs/Condition/Comparison.lean

What comparisons come to.

Numbers are compared as numbers of the format.  So a comparison fails exactly if its operator
compares numbers and one side is an integer that the format has no number near
(`compare_eq_error_iff`).  Other integers are compared, and returned, as the ones of 53
significant bits that are nearest to them (`integers_compare_rounded`): small ones exactly, large
ones that are close to each other as equals.
-/
import Automation.Condition.Selection
import Automation.Proofs.Number.Integer
import Automation.Proofs.Number.Numeral

namespace Automation

open Binary64 (overflow rounded)

namespace Value

/-- The value is an integer that the format has no number near. -/
def IsOverlarge : Value → Prop
  | .int n => overflow ≤ n.natAbs
  | _ => False

/-- The value is an integer, or its decimal text. -/
def Writes (v : Value) (n : ℤ) : Prop := v = .int n ∨ v = .text (Value.plain (.int n))

theorem floatOfInt_of_lt {n : ℤ} (h : n.natAbs < overflow) : floatOfInt n = .ok (.ofInt n) := by
  unfold floatOfInt
  rw [Binary64.ofInt?_of_lt h]

theorem floatOfInt_of_ge {n : ℤ} (h : overflow ≤ n.natAbs) :
    floatOfInt n = .error .integerTooLarge := by
  unfold floatOfInt
  rw [Binary64.ofInt?_eq_none_iff.mpr h]

/-- Taking a value as a number fails for an integer that is too large, and for nothing else. -/
theorem numeric?_cases (v : Value) :
    v.IsOverlarge ∧ v.numeric? = .error .integerTooLarge ∨
      ¬ v.IsOverlarge ∧ ∃ found, v.numeric? = .ok found := by
  cases v with
  | int n =>
    rcases Nat.lt_or_ge n.natAbs overflow with h | h
    · exact .inr ⟨not_le.mpr h, _, congrArg (Except.map some) (floatOfInt_of_lt h)⟩
    · exact .inl ⟨h, congrArg (Except.map some) (floatOfInt_of_ge h)⟩
  | _ => exact .inr ⟨id, _, rfl⟩

/-- There is no white space around the text of an integer. -/
theorem strip_plain_int (n : ℤ) :
    Text.strip (Value.plain (.int n)) = String.ofList (Json.intText n) := by
  unfold Text.strip Text.stripChars plain
  rw [String.toList_ofList, Numeral.stripWhile_eq_self fun c hc =>
    Numeral.isBlank_of_mem_intText hc]

/-- The text of an integer is numeric, as the number nearest to the integer. -/
theorem numeric?_plain_int {n : ℤ} (h : n.natAbs < overflow) :
    numeric? (.text (Value.plain (.int n))) = .ok (some (.ofInt n)) := by
  have hread := Numeral.float?_intText (n := n) (h.trans (by decide +kernel))
  obtain ⟨_, _, _, hfinite, -⟩ := Binary64.ofInt_of_lt h
  unfold numeric?
  simp [strip_plain_int, hread, hfinite, Binary64.isNaN]

/-- An integer and its text are numeric, as the number nearest to the integer. -/
theorem numeric?_of_writes {v : Value} {n : ℤ} (h : v.Writes n) (hn : n.natAbs < 10 ^ 300) :
    v.numeric? = .ok (some (.ofInt n)) := by
  have hsmall : n.natAbs < overflow := hn.trans (by decide +kernel)
  rcases h with rfl | rfl
  · simp [numeric?, floatOfInt_of_lt hsmall, Except.map]
  · exact numeric?_plain_int hsmall

end Value

namespace Condition

variable {left right : Value}

/-! ### Comparisons that fail -/

/-- The operator compares numbers, if both sides are numeric. -/
def Operator.isNumeric : Operator → Bool
  | .equals | .notEquals | .greaterThan | .lessThan | .greaterOrEqual | .lessOrEqual => true
  | _ => false

/-- What numbers are compared by fails for an integer that is too large, and for nothing else. -/
def FailsIfOverlarge (left right : Value) (result : Except Fault Bool) : Prop :=
  (left.IsOverlarge ∨ right.IsOverlarge) ∧ result = .error .integerTooLarge ∨
    ¬ (left.IsOverlarge ∨ right.IsOverlarge) ∧ ∃ b, result = .ok b

theorem failsIfOverlarge_of_total {f : Option Binary64 → Option Binary64 → Except Fault Bool}
    (hf : ∀ x y, ∃ b, f x y = .ok b) :
    FailsIfOverlarge left right (do f (← left.numeric?) (← right.numeric?)) := by
  rcases left.numeric?_cases with ⟨hl, hleft⟩ | ⟨hl, x, hleft⟩
  · exact .inl ⟨.inl hl, by rw [hleft]; rfl⟩
  · rcases right.numeric?_cases with ⟨hr, hright⟩ | ⟨hr, y, hright⟩
    · exact .inl ⟨.inr hr, by rw [hleft, hright]; rfl⟩
    · refine .inr ⟨not_or.mpr ⟨hl, hr⟩, ?_⟩
      rw [hleft, hright]
      exact hf x y

theorem failsIfOverlarge_areEqual : FailsIfOverlarge left right (areEqual left right) :=
  failsIfOverlarge_of_total fun x y => by
    rcases x with - | x <;> rcases y with - | y <;> exact ⟨_, rfl⟩

theorem failsIfOverlarge_areNumeric (relation : Binary64 → Binary64 → Bool) :
    FailsIfOverlarge left right (areNumeric relation left right) :=
  failsIfOverlarge_of_total fun x y => by
    rcases x with - | x <;> rcases y with - | y <;> exact ⟨_, rfl⟩

theorem FailsIfOverlarge.map {result : Except Fault Bool} (h : FailsIfOverlarge left right result)
    (f : Bool → Bool) : FailsIfOverlarge left right (result.map f) := by
  rcases h with ⟨hlarge, rfl⟩ | ⟨hsmall, b, rfl⟩
  · exact .inl ⟨hlarge, rfl⟩
  · exact .inr ⟨hsmall, f b, rfl⟩

/-- Numbers are compared by six operators, and the others always come to an answer. -/
theorem holds_cases (op : Operator) (left right : Value) :
    op.isNumeric = true ∧ FailsIfOverlarge left right (holds op left right) ∨
      op.isNumeric = false ∧ ∃ b, holds op left right = .ok b := by
  cases op with
  | equals => exact .inl ⟨rfl, failsIfOverlarge_areEqual⟩
  | notEquals => exact .inl ⟨rfl, failsIfOverlarge_areEqual.map _⟩
  | greaterThan => exact .inl ⟨rfl, failsIfOverlarge_areNumeric _⟩
  | lessThan => exact .inl ⟨rfl, failsIfOverlarge_areNumeric _⟩
  | greaterOrEqual => exact .inl ⟨rfl, failsIfOverlarge_areNumeric _⟩
  | lessOrEqual => exact .inl ⟨rfl, failsIfOverlarge_areNumeric _⟩
  | _ => exact .inr ⟨rfl, _, rfl⟩

/-- The comparison has two numbers to compare, of which one is too large. -/
def ComparesOverlarge (left : Value) (operator : String) (right : Value) : Prop :=
  (∃ op, Operator.ofName? operator = some op ∧ op.isNumeric = true) ∧
    (left.IsOverlarge ∨ right.IsOverlarge)

/-- A comparison comes to an answer, unless it has a number that is too large. -/
theorem compare_cases (left : Value) (operator : String) (right : Value) :
    ComparesOverlarge left operator right ∧
        compare left operator right = .error .integerTooLarge ∨
      ¬ ComparesOverlarge left operator right ∧ ∃ b, compare left operator right = .ok b := by
  unfold compare ComparesOverlarge
  rcases hop : Operator.ofName? operator with - | op
  · exact .inr ⟨by simp, false, rfl⟩
  · rcases holds_cases op left right with ⟨hnumeric, ⟨hlarge, h⟩ | ⟨hsmall, h⟩⟩ | ⟨hnumeric, h⟩
    · exact .inl ⟨⟨⟨op, rfl, hnumeric⟩, hlarge⟩, h⟩
    · exact .inr ⟨fun hlarge => hsmall hlarge.2, h⟩
    · refine .inr ⟨?_, h⟩
      rintro ⟨⟨other, heq, htrue⟩, -⟩
      obtain rfl := Option.some.inj heq
      exact absurd htrue (by simp [hnumeric])

/-! ### Comparing integers -/

variable {m n : ℤ}

theorem areNumeric_of_writes {relation : Binary64 → Binary64 → Bool} (hleft : left.Writes m)
    (hright : right.Writes n) (hm : m.natAbs < 10 ^ 300) (hn : n.natAbs < 10 ^ 300) :
    areNumeric relation left right = .ok (relation (.ofInt m) (.ofInt n)) := by
  unfold areNumeric
  rw [Value.numeric?_of_writes hleft hm, Value.numeric?_of_writes hright hn]
  rfl

theorem areEqual_of_writes (hleft : left.Writes m) (hright : right.Writes n)
    (hm : m.natAbs < 10 ^ 300) (hn : n.natAbs < 10 ^ 300) :
    areEqual left right = .ok (Binary64.eqv (.ofInt m) (.ofInt n)) := by
  unfold areEqual
  rw [Value.numeric?_of_writes hleft hm, Value.numeric?_of_writes hright hn]
  rfl

/-- Integers, and their texts, are compared and returned as the integers of 53 significant bits
that are nearest to them; these are the integers themselves if they are small. -/
theorem integers_compare_rounded (hm : m.natAbs < 10 ^ 300) (hn : n.natAbs < 10 ^ 300)
    (hleft : left.Writes m) (hright : right.Writes n) :
    compare left "equals" right = .ok (decide (rounded m = rounded n)) ∧
      compare left "greaterThan" right = .ok (decide (rounded m > rounded n)) ∧
      compare left "lessOrEqual" right = .ok (decide (rounded m ≤ rounded n)) ∧
      ReturnType.integer.coerce left = .ok (.int (rounded m)) ∧
      Binary64.Nearest m (rounded m) ∧ Binary64.Nearest n (rounded n) ∧
      (m.natAbs ≤ 2 ^ 53 → rounded m = m) ∧ (n.natAbs ≤ 2 ^ 53 → rounded n = n) := by
  have hbound : 10 ^ 300 < overflow := by decide +kernel
  have hm' : m.natAbs < overflow := hm.trans hbound
  have hn' : n.natAbs < overflow := hn.trans hbound
  have hsmall : ∀ {k : ℤ}, k.natAbs ≤ 2 ^ 53 → rounded k = k := fun h =>
    Binary64.rounded_of_short (Binary64.short_of_natAbs_le h)
  refine ⟨?_, ?_, ?_, ?_, Binary64.nearest_rounded m, Binary64.nearest_rounded n, hsmall, hsmall⟩
  · rw [← Binary64.eqv_ofInt hm' hn']
    exact areEqual_of_writes hleft hright hm hn
  · show areNumeric (fun a b => b.lt a) left right = _
    rw [areNumeric_of_writes hleft hright hm hn, Binary64.lt_ofInt hn' hm']
  · show areNumeric Binary64.le left right = _
    rw [areNumeric_of_writes hleft hright hm hn, Binary64.le_ofInt hm' hn']
  · unfold ReturnType.coerce
    simp only [Value.numeric?_of_writes hleft hm, bind, Except.bind, Value.intOfFloat,
      Binary64.truncate?_ofInt hm', Except.map]

/-- Of two odd neighbours above `2 ^ 53` one is rounded down and one up. -/
theorem integers_compare_rounded_above :
    compare (.int 9007199254740993) "equals" (.text "9007199254740995") = .ok false ∧
      compare (.int 9007199254740993) "lessOrEqual" (.text "9007199254740995") = .ok true ∧
      ReturnType.integer.coerce (.int 9007199254740993) = .ok (.int 9007199254740992) := by
  have hleft : rounded 9007199254740993 = 9007199254740992 := by decide +kernel
  have hright : rounded 9007199254740995 = 9007199254740996 := by decide +kernel
  have hvalues := integers_compare_rounded (m := 9007199254740993) (n := 9007199254740995)
    (by decide +kernel) (by decide +kernel) (.inl rfl) (.inr rfl)
  rw [hleft, hright] at hvalues
  exact ⟨hvalues.1, hvalues.2.2.1, hvalues.2.2.2.1⟩

/-- Neighbours above `2 ^ 53` are compared as equals, and the greater one is returned as the
other. -/
theorem neighbours_compare_equal :
    compare (.int 9007199254740993) "equals" (.int 9007199254740992) = .ok true ∧
      compare (.int 9007199254740993) "greaterThan" (.int 9007199254740992) = .ok false ∧
      ReturnType.integer.coerce (.int 9007199254740993) ≠ .ok (.int 9007199254740993) := by
  have hcoerce : ReturnType.integer.coerce (.int 9007199254740993) = .ok (.int 9007199254740992) :=
    rfl
  refine ⟨rfl, rfl, ?_⟩
  rw [hcoerce]
  simp

end Condition

end Automation
