/-
Automation/Proofs/Value/Number.lean

Values that stand for integers.

Booleans, integers, finite numbers and written integers denote an integer, a number the one next to
it in the direction of zero (`Denotes`).  Where a setting is read as an integer, a default stands in
for a value that denotes none (`StandsFor`); only an infinite number is refused
(`toIntOr_cases`).
-/
import Automation.Proofs.Number.Integer
import Automation.Value.Number
import Mathlib.Data.Rat.Floor

namespace Automation

namespace Binary64

/-- The integer next to a number in the direction of zero. -/
def towardsZero (q : ℚ) : ℤ := if q < 0 then ⌈q⌉ else ⌊q⌋

/-- A finite number is cut in the direction of zero. -/
theorem truncate?_eq (x : Binary64) : x.truncate? = x.toRat?.map towardsZero := by
  cases x with
  | nan => rfl
  | infinite => rfl
  | finite s m e h =>
    have hwhole : ⌊(m : ℚ) * 2 ^ e⌋ = (((ratio m e).1 / (ratio m e).2 : ℕ) : ℤ) := by
      rw [← ratio_div, Rat.floor_natCast_div_natCast, Int.natCast_div]
    have hnonneg : 0 ≤ (m : ℚ) * 2 ^ e := by positivity
    rw [toRat?_finite]
    cases s with
    | false => simp [truncate?, towardsZero, hwhole, hnonneg.not_gt]
    | true =>
      rcases hnonneg.eq_or_lt with hzero | hpos
      · rw [← hzero] at hwhole ⊢
        simp [truncate?, towardsZero, ← hwhole]
      · simp [truncate?, towardsZero, Int.ceil_neg, hwhole, hpos]

end Binary64

namespace Value

variable {v : Value} {n : ℤ}

/-- The integer that a value is, or that it is cut to, or that is written in it. -/
inductive Denotes : Value → ℤ → Prop
  | bool (b : Bool) : Denotes (.bool b) (if b then 1 else 0)
  | int (n : ℤ) : Denotes (.int n) n
  | float {x : Binary64} {q : ℚ} (h : x.toRat? = some q) :
      Denotes (.float x) (Binary64.towardsZero q)
  | text {s : String} {n : ℤ} (h : Numeral.int? s = some n) : Denotes (.text s) n

/-- The value is an infinite number. -/
def IsInfinite (v : Value) : Prop := ∃ negative, v = .float (.infinite negative)

/-- What a setting comes to as an integer: the one that it denotes, or else the default. -/
def StandsFor (v : Value) (default n : ℤ) : Prop :=
  v.Denotes n ∨ (∀ m, ¬ v.Denotes m) ∧ n = default

theorem intOfFloat_eq_ok_iff {x : Binary64} :
    intOfFloat x = .ok n ↔ (Value.float x).Denotes n := by
  unfold intOfFloat
  rw [Binary64.truncate?_eq]
  constructor
  · rcases hx : x.toRat? with - | q
    · rintro ⟨⟩
    · intro h
      obtain rfl := Except.ok.inj h
      exact .float hx
  · intro h
    cases h with
    | float hx =>
      rw [hx]
      rfl

theorem intOfText_eq_ok_iff {s : String} : intOfText s = .ok n ↔ Numeral.int? s = some n := by
  unfold intOfText Numeral.int?
  cases Numeral.readInt s <;> simp [Except.toOption]

/-- A value is taken as the integer that it denotes. -/
theorem toInt_eq_ok_iff : v.toInt = .ok n ↔ v.Denotes n := by
  cases v with
  | bool b =>
    constructor
    · intro h
      obtain rfl := Except.ok.inj h
      exact .bool b
    · rintro ⟨⟩
      rfl
  | int k =>
    constructor
    · intro h
      obtain rfl := Except.ok.inj h
      exact .int k
    · rintro ⟨⟩
      rfl
  | float x => exact intOfFloat_eq_ok_iff
  | text s =>
    refine intOfText_eq_ok_iff.trans ⟨.text, fun h => ?_⟩
    cases h with
    | text hs => exact hs
  | _ =>
    constructor
    · rintro ⟨⟩
    · rintro ⟨⟩

/-- A text that is no integer is refused as such, also where it is the word for infinity. -/
theorem intOfText_ne_infinite (s : String) : intOfText s ≠ .error .infiniteInteger := by
  unfold intOfText
  rcases Numeral.readInt s with why | n
  · cases why <;> simp [Fault.ofUnreadable?]
  · simp

theorem toInt_eq_infinite_iff : v.toInt = .error .infiniteInteger ↔ v.IsInfinite := by
  constructor
  · intro h
    cases v with
    | float x =>
      cases x with
      | infinite negative => exact ⟨negative, rfl⟩
      | nan => cases h
      | finite => cases h
    | text s => exact absurd h (intOfText_ne_infinite s)
    | _ => cases h
  · rintro ⟨negative, rfl⟩
    rfl

/-- A setting is read as what it stands for, unless it is infinite. -/
theorem toIntOr_cases (default : ℤ) (v : Value) :
    v.IsInfinite ∧ v.toIntOr default = .error .infiniteInteger ∨
      ¬ v.IsInfinite ∧ ∃ n, v.toIntOr default = .ok n ∧ v.StandsFor default n := by
  rw [← toInt_eq_infinite_iff]
  unfold toIntOr
  split
  · next n h => exact .inr ⟨by simp [h], n, rfl, .inl (toInt_eq_ok_iff.mp h)⟩
  · next h => exact .inl ⟨h, rfl⟩
  · next fault hother h =>
    have hnone : ∀ m, ¬ v.Denotes m := by
      intro m hm
      rw [toInt_eq_ok_iff.mpr hm] at h
      cases h
    refine .inr ⟨?_, default, rfl, .inr ⟨hnone, rfl⟩⟩
    rw [h]
    exact fun heq => hother (Except.error.inj heq)

end Value

end Automation
