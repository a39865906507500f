/-
Automation/Proofs/Number/Numeral.lean

Numbers written in decimal and read again.

The digits of a natural number stand for it (`valueOf_digitChars`), so the text of an integer is
read as the number of the format that is nearest to the integer (`float?_intText`).
-/
import Mathlib.Data.List.TakeWhile
import Mathlib.Data.Nat.Digits.Lemmas
import Mathlib.Tactic
import Automation.Json.Printer
import Automation.Number.Numeral

namespace Automation

/-! ### Digits -/

theorem toNat_of_isDigit {c : Char} (h : c.isDigit = true) : 0x30 ≤ c.toNat ∧ c.toNat ≤ 0x39 := by
  simp only [Char.isDigit, Bool.and_eq_true, decide_eq_true_eq] at h
  exact h

/-- A digit is no other sign that a numeral may have. -/
theorem ne_of_isDigit {c d : Char} (h : c.isDigit = true) (hd : d.isDigit = false) : c ≠ d := by
  rintro rfl
  rw [h] at hd
  cases hd

theorem Decimal.isDigit_of_mem {n : ℕ} {c : Char} (h : c ∈ Decimal.digitChars n) :
    c.isDigit = true :=
  Nat.isDigit_of_mem_toDigits (by norm_num) (by norm_num) h

theorem Decimal.digitChars_ne_nil (n : ℕ) : Decimal.digitChars n ≠ [] := Nat.toDigits_ne_nil

theorem Decimal.length_le_iff {n k : ℕ} (hk : 0 < k) : Decimal.length n ≤ k ↔ n < 10 ^ k :=
  Nat.length_toDigits_le_iff (by norm_num) hk

/-- Names that are a text with a number behind it are told apart by the number. -/
theorem Decimal.append_repr_injective (front : String) :
    Function.Injective fun n => front ++ Nat.repr n := by
  intro m n h
  have hdigits := (String.append_right_inj front).mp h
  rw [Nat.repr_eq_ofList_toDigits, Nat.repr_eq_ofList_toDigits, String.ofList_inj] at hdigits
  have hvalue := congrArg (Nat.ofDigitChars 10 · 0) hdigits
  simpa [Nat.ofDigitChars_toDigits] using hvalue

namespace Numeral

open Automation.Text

theorem valueOf_map (cs : List Char) :
    valueOf (cs.map fun c => c.toNat - 0x30) = Nat.ofDigitChars 10 cs 0 := by
  rw [valueOf, List.foldl_map]
  rfl

/-- The digits of a number stand for it. -/
theorem valueOf_digitChars (n : ℕ) :
    valueOf ((Decimal.digitChars n).map fun c => c.toNat - 0x30) = n := by
  rw [valueOf_map]
  exact Nat.ofDigitChars_ten_toDigits

/-! ### Reading digits -/

theorem digit?_of_isDigit {c : Char} (h : c.isDigit = true) : digit? c = some (c.toNat - 0x30) := by
  obtain ⟨hlow, hhigh⟩ := toNat_of_isDigit h
  unfold digit? zeroDigits
  rw [List.find?_cons_of_pos (by simp; omega)]
  rfl

/-- Digits are taken up to what is none. -/
theorem takeDigits_append {cs rest : List Char} (h : ∀ c ∈ cs, c.isDigit = true)
    (hrest : ∀ c ∈ rest.head?, digit? c = none) :
    takeDigits (cs ++ rest) = (cs.map fun c => c.toNat - 0x30, rest) := by
  induction cs with
  | nil =>
    cases rest with
    | nil => rfl
    | cons c rest => simp [takeDigits, hrest c rfl]
  | cons c cs ih =>
    obtain ⟨hc, hcs⟩ := List.forall_mem_cons.mp h
    simp [takeDigits, digit?_of_isDigit hc, ih hcs]

theorem takeDigits_of_isDigit {cs : List Char} (h : ∀ c ∈ cs, c.isDigit = true) :
    takeDigits cs = (cs.map fun c => c.toNat - 0x30, []) := by
  have hnothing : ∀ c ∈ ([] : List Char).head?, digit? c = none := by simp
  have happend := takeDigits_append h hnothing
  rwa [List.append_nil] at happend

theorem dropSeparators_of_not_mem {cs : List Char} (h : '_' ∉ cs) (afterDigit : Bool) :
    dropSeparators afterDigit cs = some cs := by
  induction cs generalizing afterDigit with
  | nil => rfl
  | cons c cs ih =>
    obtain ⟨hne, hcs⟩ := not_or.mp (List.mem_cons.not.mp h)
    rw [dropSeparators.eq_3 afterDigit c cs (fun _ _ hc _ => hne hc.symm), if_neg (Ne.symm hne),
      ih hcs]
    rfl

theorem stripWhile_eq_self {p : Char → Bool} {cs : List Char} (h : ∀ c ∈ cs, p c = false) :
    stripWhile p cs = cs := by
  have hdrop : ∀ {ds : List Char}, (∀ c ∈ ds, p c = false) → ds.dropWhile p = ds := by
    intro ds hds
    rw [List.dropWhile_eq_self_iff]
    intro hlen
    simp [hds _ (List.getElem_mem hlen)]
  unfold stripWhile dropEndWhile
  rw [hdrop h, hdrop fun c hc => h c (List.mem_reverse.mp hc), List.reverse_reverse]

/-- A whole number of not too many digits is rounded as it is. -/
theorem toBinary64_whole (s : Bool) {n : ℕ} (h : n < 10 ^ 400) :
    Decimal.toBinary64 s ⟨n, 0⟩ = .ofRatio s n 1 := by
  have hlen : Decimal.length n ≤ 400 := (Decimal.length_le_iff (by norm_num)).mpr h
  rcases eq_or_ne n 0 with rfl | hn
  · rfl
  · unfold Decimal.toBinary64
    rw [if_neg hn, if_neg (by simp; omega), if_neg (by simp), if_pos le_rfl]
    simp [natPow]

/-! ### The text of an integer -/

theorem mem_intText {n : ℤ} {c : Char} (h : c ∈ Json.intText n) : c = '-' ∨ c.isDigit = true := by
  unfold Json.intText at h
  rcases List.mem_append.mp h with h | h
  · split at h
    · exact .inl (List.mem_singleton.mp h)
    · cases h
  · exact .inr (Decimal.isDigit_of_mem h)

theorem isBlank_of_mem_intText {n : ℤ} {c : Char} (h : c ∈ Json.intText n) : isBlank c = false := by
  rcases mem_intText h with rfl | h
  · decide
  · obtain ⟨hlow, hhigh⟩ := toNat_of_isDigit h
    simp [isBlank, inRanges, blankRanges]
    omega

theorem takeDigits_digitChars (n : ℕ) :
    takeDigits (Decimal.digitChars n) = ((Decimal.digitChars n).map fun c => c.toNat - 0x30, []) :=
  takeDigits_of_isDigit fun _ hc => Decimal.isDigit_of_mem hc

/-- The text of an integer has nothing that a reader drops. -/
theorem dropSeparators_intText (n : ℤ) :
    dropSeparators false (stripWhile isMargin (Json.intText n)) = some (Json.intText n) := by
  have hmargin : ∀ c ∈ Json.intText n, isMargin c = false := fun c hc => by
    simp [isMargin, isBlank_of_mem_intText hc]
  have hseparators : '_' ∉ Json.intText n := fun hc => by
    rcases mem_intText hc with h | h
    · exact absurd h (by decide)
    · exact absurd h (by decide)
  rw [stripWhile_eq_self hmargin, dropSeparators_of_not_mem hseparators]

theorem takeSign_intText (n : ℤ) :
    takeSign (Json.intText n) = (decide (n < 0), Decimal.digitChars n.natAbs) := by
  unfold Json.intText
  split
  · next h => simp [takeSign, h]
  · next h =>
    rcases hdigits : Decimal.digitChars n.natAbs with - | ⟨c, cs⟩
    · exact absurd hdigits (Decimal.digitChars_ne_nil _)
    · have hc : c.isDigit = true := Decimal.isDigit_of_mem (hdigits ▸ List.mem_cons_self)
      have hminus : c ≠ '-' := ne_of_isDigit hc (by decide)
      have hplus : c ≠ '+' := ne_of_isDigit hc (by decide)
      simp [takeSign, h, hminus, hplus]

theorem decimal?_digitChars (n : ℕ) : decimal? (Decimal.digitChars n) = some ⟨n, 0⟩ := by
  have hdigits := takeDigits_digitChars n
  have hvalue := valueOf_digitChars n
  have hnonempty := Decimal.digitChars_ne_nil n
  unfold decimal?
  simp [hdigits, hvalue, hnonempty, exponent?]

/-- The text of an integer is read as the number nearest to the integer. -/
theorem float?_intText {n : ℤ} (h : n.natAbs < 10 ^ 400) :
    float? (String.ofList (Json.intText n)) = some (.ofInt n) := by
  unfold float?
  simp only [String.toList_ofList, dropSeparators_intText, takeSign_intText, decimal?_digitChars,
    toBinary64_whole _ h, Option.bind_eq_bind, Option.bind_some]
  rfl

/-! ### Integers read back -/

theorem signed_natAbs (n : ℤ) : signed (decide (n < 0)) n.natAbs = n := by
  unfold signed
  split
  · next h =>
    have := of_decide_eq_true h
    omega
  · next h =>
    have : ¬ n < 0 := fun hn => h (decide_eq_true hn)
    omega

/-- The text of an integer has not too many digits to be read. -/
def IsShort (n : ℤ) : Prop := n.natAbs < 10 ^ digitLimit

instance (n : ℤ) : Decidable (IsShort n) := Nat.decLt _ _

theorem isShort_of_lt {n : ℤ} (h : n.natAbs < 10) : IsShort n :=
  h.trans_le (Nat.le_self_pow (by decide) 10)

theorem whole_digitChars (n : ℤ) :
    whole (decide (n < 0)) ((Decimal.digitChars n.natAbs).map fun c => c.toNat - 0x30) =
      if IsShort n then .ok n
      else .error (.tooManyDigits (Decimal.length n.natAbs)) := by
  have hlength : (Decimal.digitChars n.natAbs).length ≤ digitLimit ↔ IsShort n :=
    Decimal.length_le_iff (by decide)
  unfold whole
  rw [List.length_map, valueOf_digitChars, signed_natAbs]
  by_cases hshort : IsShort n
  · rw [if_pos hshort, if_pos (hlength.mpr hshort)]
  · rw [if_neg hshort, if_neg (mt hlength.mp hshort)]
    rfl

/-- The text of an integer is read as the integer, unless it is too long. -/
theorem int?_intText (n : ℤ) :
    int? (String.ofList (Json.intText n)) = if IsShort n then some n else none := by
  have hdigits := takeDigits_digitChars n.natAbs
  have hwhole := whole_digitChars n
  unfold int? readInt
  simp only [String.toList_ofList, dropSeparators_intText, takeSign_intText]
  rcases hread : (Decimal.digitChars n.natAbs).map (fun c => c.toNat - 0x30) with - | ⟨d, ds⟩
  · exact absurd (List.map_eq_nil_iff.mp hread) (Decimal.digitChars_ne_nil _)
  · rw [hread] at hdigits hwhole
    simp only [hdigits, hwhole]
    split
    · next heq => cases heq
    · split <;> rfl

end Numeral

end Automation
