/-
Automation/Proofs/Number/Decimal.lean

Decimals and the numbers of the format.

A decimal is rounded by its value (`toBinary64_eq_ofRatio`), so zeros at its end do not count
(`toBinary64_trim`) and its sign stays apart (`toBinary64_true`).  The decimal that is found for a
number is rounded to that number (`toBinary64_shortest`), whichever grid it was found on.
-/
import Automation.Proofs.Number.Numeral
import Automation.Proofs.Number.Rounding

namespace Automation

open Binary64

namespace Decimal

/-- The rational that a decimal stands for. -/
def value (d : Decimal) : ℚ := d.digits * 10 ^ d.exponent

/-- A decimal as a quotient of natural numbers. -/
def quotient (d : Decimal) : ℕ × ℕ :=
  if 0 ≤ d.exponent then (d.digits * natPow 10 d.exponent, 1) else (d.digits, natPow 10 (-d.exponent))

/-! ### Rounding by value -/

theorem quotient_den_pos (d : Decimal) : 0 < d.quotient.2 := by
  unfold quotient
  split
  · exact Nat.one_pos
  · exact natPow_pos (by norm_num) _

theorem quotient_div (d : Decimal) : (d.quotient.1 : ℚ) / d.quotient.2 = d.value := by
  unfold quotient value
  split
  · next he => simp [cast_natPow 10 he]
  · next he => simp [cast_natPow_neg 10 he]

theorem toBinary64_of_ne_zero (s : Bool) {d : Decimal} (hd : d.digits ≠ 0) :
    d.toBinary64 s =
      if 400 < d.exponent + length d.digits then .infinite s
      else if d.exponent + length d.digits < -400 then .zero s
      else ofRatio s d.quotient.1 d.quotient.2 := by
  unfold toBinary64 quotient
  rw [if_neg hd]
  split_ifs <;> rfl

/-- The exponent behind the digits bounds the value from both sides. -/
theorem value_bounds {d : Decimal} (hd : d.digits ≠ 0) :
    (10 : ℚ) ^ (d.exponent + length d.digits - 1) ≤ d.value ∧
      d.value < 10 ^ (d.exponent + length d.digits) := by
  have hpow : (0 : ℚ) < 10 ^ d.exponent := by positivity
  have hlength : 0 < length d.digits := Nat.length_toDigits_pos
  have hupper : d.digits < 10 ^ length d.digits := (length_le_iff hlength).mp le_rfl
  have hlower : 10 ^ (length d.digits - 1) ≤ d.digits := by
    rcases Nat.eq_zero_or_pos (length d.digits - 1) with hone | hmore
    · rw [hone]
      exact Nat.pos_of_ne_zero hd
    · exact not_lt.mp fun h => absurd ((length_le_iff hmore).mpr h) (by omega)
  have hexp : d.exponent + length d.digits - 1 = d.exponent + (length d.digits - 1 : ℕ) := by omega
  unfold value
  rw [hexp, zpow_add₀ (by norm_num), zpow_add₀ (by norm_num), mul_comm (d.digits : ℚ)]
  constructor
  · gcongr
    exact_mod_cast hlower
  · gcongr
    exact_mod_cast hupper

theorem value_eq_zero {d : Decimal} : d.value = 0 ↔ d.digits = 0 := by
  have hpow : (10 : ℚ) ^ d.exponent ≠ 0 := by positivity
  simp [value, hpow]

/-- Only the value matters. -/
theorem toBinary64_congr (s : Bool) {d d' : Decimal} (h : d.value = d'.value) :
    d.toBinary64 s = d'.toBinary64 s := by
  by_cases hd : d.digits = 0
  · have hd' : d'.digits = 0 := value_eq_zero.mp (h ▸ value_eq_zero.mpr hd)
    simp [toBinary64, hd, hd']
  · have hd' : d'.digits ≠ 0 := fun hzero => hd (value_eq_zero.mp (h ▸ value_eq_zero.mpr hzero))
    obtain ⟨hlower, hupper⟩ := value_bounds hd
    obtain ⟨hlower', hupper'⟩ := value_bounds hd'
    -- a value lies between two powers of ten in one way only
    rw [h] at hlower hupper
    have hle := (zpow_lt_zpow_iff_right₀ (by norm_num)).mp (hlower.trans_lt hupper')
    have hge := (zpow_lt_zpow_iff_right₀ (by norm_num)).mp (hlower'.trans_lt hupper)
    have hexp : d.exponent + length d.digits = d'.exponent + length d'.digits := by omega
    have hquot := ofRatio_congr s d.quotient_den_pos d'.quotient_den_pos
      (d.quotient_div.trans (h.trans d'.quotient_div.symm))
    rw [toBinary64_of_ne_zero s hd, toBinary64_of_ne_zero s hd', hexp, hquot]

/-- A decimal of moderate size is rounded as any quotient with its value. -/
theorem toBinary64_eq_ofRatio (s : Bool) {d : Decimal} (hd : d.digits ≠ 0) {n q : ℕ} (hq : 0 < q)
    (hvalue : d.value = (n : ℚ) / q) (hsmall : (10 : ℚ) ^ (-401 : ℤ) ≤ d.value)
    (hlarge : d.value < 10 ^ (400 : ℤ)) : d.toBinary64 s = ofRatio s n q := by
  obtain ⟨hlower, hupper⟩ := value_bounds hd
  have hleast : -401 < d.exponent + length d.digits :=
    (zpow_lt_zpow_iff_right₀ (by norm_num)).mp (hsmall.trans_lt hupper)
  have hmost : d.exponent + length d.digits - 1 < 400 :=
    (zpow_lt_zpow_iff_right₀ (by norm_num)).mp (hlower.trans_lt hlarge)
  rw [toBinary64_of_ne_zero s hd, if_neg (by omega), if_neg (by omega)]
  exact ofRatio_congr s d.quotient_den_pos hq (d.quotient_div.trans hvalue)

/-- Zeros at the end of the digits do not count. -/
theorem value_mul_pow (n : ℕ) (e : ℤ) (k : ℕ) : value ⟨n * 10 ^ k, e - k⟩ = value ⟨n, e⟩ := by
  have hpow : (10 : ℚ) ^ k ≠ 0 := by positivity
  simp only [value, Nat.cast_mul, Nat.cast_pow, Nat.cast_ofNat]
  rw [zpow_sub₀ (by norm_num), zpow_natCast]
  field_simp

theorem value_trim (fuel : ℕ) (d : Decimal) : (trim fuel d).value = d.value := by
  induction fuel generalizing d with
  | zero => rfl
  | succ fuel ih =>
    unfold trim
    split
    · next h =>
      rw [ih]
      have hdigits : d.digits = d.digits / 10 * 10 ^ 1 := by omega
      have hsame := value_mul_pow (d.digits / 10) (d.exponent + 1) 1
      rw [← hdigits] at hsame
      rw [← hsame]
      congr 1
      simp
    · rfl

/-! ### Signs -/

theorem neg_ofParts (m : ℕ) (e : ℤ) : neg (ofParts false m e) = ofParts true m e := by
  unfold ofParts
  split <;> rfl

theorem neg_ofRatio (n q : ℕ) : neg (ofRatio false n q) = ofRatio true n q := by
  unfold ofRatio
  simp only
  split_ifs <;> first | rfl | exact neg_ofParts _ _

/-- The sign is put in front of a magnitude. -/
theorem toBinary64_true (d : Decimal) : d.toBinary64 true = neg (d.toBinary64 false) := by
  unfold toBinary64
  simp only
  split_ifs
  · rfl
  · rfl
  · rfl
  · exact (neg_ofRatio _ _).symm
  · exact (neg_ofRatio _ _).symm

theorem toBinary64_of_false {d : Decimal} {m : ℕ} {e : ℤ} {h : Canonical m e}
    (hd : d.toBinary64 false = .finite false m e h) (s : Bool) :
    d.toBinary64 s = .finite s m e h := by
  cases s with
  | false => exact hd
  | true => rw [toBinary64_true, hd, neg, Bool.not_false]

/-! ### Shortest digits -/

theorem exact_value (m : ℕ) (e : ℤ) : (exact m e).value = m * 2 ^ e := by
  unfold exact value
  split
  · next he => simp [cast_natPow 2 he]
  · next he =>
    have hfive := cast_natPow 5 (e := -e) (by omega)
    simp only [Nat.cast_mul, hfive, zpow_neg, Nat.cast_ofNat]
    have hten : (10 : ℚ) ^ e = 5 ^ e * 2 ^ e := by rw [← mul_zpow]; norm_num
    have hne : (5 : ℚ) ^ e ≠ 0 := by positivity
    rw [hten]
    field_simp

/-- The exact decimal of a number is rounded to that number. -/
theorem toBinary64_exact {m : ℕ} {e : ℤ} (h : Canonical m e) (hm : m ≠ 0) :
    (exact m e).toBinary64 false = .finite false m e h := by
  obtain ⟨hmost, hleast, hlargest, -⟩ := id h
  have hpos : (1 : ℚ) ≤ m := by exact_mod_cast Nat.pos_of_ne_zero hm
  have hvalue := exact_value m e
  have hpow : (0 : ℚ) < 2 ^ e := by positivity
  have hdigits : (exact m e).digits ≠ 0 := by
    rw [Ne, ← value_eq_zero, hvalue]
    positivity
  have hsmall : (10 : ℚ) ^ (-401 : ℤ) ≤ (exact m e).value := by
    have hcompare : 2 ^ 1074 ≤ 10 ^ 401 := by decide +kernel
    calc (10 : ℚ) ^ (-401 : ℤ) ≤ 2 ^ (-1074 : ℤ) := by
          rw [zpow_neg, zpow_neg]
          gcongr
          exact_mod_cast hcompare
      _ ≤ 2 ^ e := zpow_le_zpow_right₀ one_le_two hleast
      _ ≤ m * 2 ^ e := le_mul_of_one_le_left hpow.le hpos
      _ = (exact m e).value := hvalue.symm
  have hlarge : (exact m e).value < 10 ^ (400 : ℤ) := by
    have hcompare : 2 ^ 53 * 2 ^ 971 ≤ 10 ^ 400 := by decide +kernel
    calc (exact m e).value = m * 2 ^ e := hvalue
      _ < 2 ^ 53 * 2 ^ e := by
          gcongr
          exact_mod_cast hmost
      _ ≤ 2 ^ 53 * 2 ^ (971 : ℤ) := by
          gcongr
          exact one_le_two
      _ ≤ 10 ^ (400 : ℤ) := by exact_mod_cast hcompare
  rw [toBinary64_eq_ofRatio false hdigits (ratio_den_pos m e) (hvalue.trans (ratio_div m e).symm)
    hsmall hlarge, ofRatio_ratio false h, ofParts, dif_pos h]

theorem accepted_of_onGridOf? {accepts : Decimal → Bool} {n q count : ℕ} {d : Decimal}
    (h : onGridOf? accepts n q count = some d) : accepts d = true := by
  unfold onGridOf? at h
  simp only at h
  split at h
  · split_ifs at h <;> simp_all
  · simp_all
  · simp_all
  · cases h

theorem accepted_of_firstGrid? {accepts : Decimal → Bool} {n q tries count : ℕ} {d : Decimal}
    (h : firstGrid? accepts n q tries count = some d) : accepts d = true := by
  induction tries generalizing count with
  | zero => cases h
  | succ tries ih =>
    unfold firstGrid? at h
    split at h
    · next found hgrid =>
      obtain rfl := Option.some.inj h
      exact accepted_of_onGridOf? hgrid
    · exact ih h

/-- The shortest decimal of a number is rounded to that number. -/
theorem toBinary64_shortest {m : ℕ} {e : ℤ} (h : Canonical m e) (hm : m ≠ 0) (s : Bool) :
    (shortest m e).toBinary64 s = .finite s m e h := by
  have htarget : ofParts false m e = .finite false m e h := by
    unfold ofParts
    rw [dif_pos h]
  refine toBinary64_of_false ?_ s
  unfold shortest
  simp only [htarget]
  rw [toBinary64_congr false (value_trim _ _)]
  rcases hfound : firstGrid? (fun x => decide (x.toBinary64 false = .finite false m e h))
    (ratio m e).1 (ratio m e).2 17 1 with - | d
  · exact toBinary64_exact h hm
  · exact of_decide_eq_true (accepted_of_firstGrid? hfound)

theorem shortest_digits_ne_zero {m : ℕ} {e : ℤ} (h : Canonical m e) (hm : m ≠ 0) :
    (shortest m e).digits ≠ 0 := by
  intro hzero
  have hround := toBinary64_shortest h hm false
  have hrounded : (shortest m e).toBinary64 false = .zero false := by simp [toBinary64, hzero]
  rw [hrounded] at hround
  exact hm (Binary64.finite.inj hround).2.1.symm

end Decimal

end Automation
