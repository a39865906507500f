/-
Automation/Proofs/Number/Rounding.lean

Rounding to the numbers of the format.

The number nearest to a quotient depends on the quotient alone (`ofRatio_congr`), since its
exponent is a logarithm of the quotient (`binaryExponent_eq_log`), and a quotient that the format
holds is not rounded (`ofRatio_ratio`).
-/
import Mathlib.Data.Int.Log
import Mathlib.Data.Rat.Floor
import Mathlib.Tactic
import Automation.Number.Binary64

namespace Automation

theorem cast_natPow (b : ℕ) {e : ℤ} (he : 0 ≤ e) : (natPow b e : ℚ) = (b : ℚ) ^ e := by
  obtain ⟨k, rfl⟩ := Int.eq_ofNat_of_zero_le he
  simp [natPow]

theorem cast_natPow_neg (b : ℕ) {e : ℤ} (he : ¬ 0 ≤ e) : (natPow b (-e) : ℚ) = ((b : ℚ) ^ e)⁻¹ := by
  rw [cast_natPow b (by omega), zpow_neg]

theorem natPow_pos {b : ℕ} (hb : 0 < b) (e : ℤ) : 0 < natPow b e := Nat.pow_pos hb

namespace Binary64

/-! ### The nearest integer -/

theorem nearest_mul_right (n d : ℕ) {c : ℕ} (hc : 0 < c) : nearest (n * c) (d * c) = nearest n d := by
  have hlow : 2 * (n % d * c) < d * c ↔ 2 * (n % d) < d := by
    rw [← mul_assoc]
    exact Nat.mul_lt_mul_right hc
  have hhigh : d * c < 2 * (n % d * c) ↔ d < 2 * (n % d) := by
    rw [← mul_assoc]
    exact Nat.mul_lt_mul_right hc
  simp only [nearest, Nat.mul_div_mul_right _ _ hc, Nat.mul_mod_mul_right, hlow, hhigh]

@[simp] theorem nearest_mul_self (m : ℕ) {d : ℕ} (hd : 0 < d) : nearest (m * d) d = m := by
  simp [nearest, Nat.mul_div_cancel _ hd, hd]

@[simp] theorem nearest_one (n : ℕ) : nearest n 1 = n := by
  simpa using nearest_mul_self n Nat.one_pos

/-- Of the two neighbours it is not the one that is further off. -/
theorem nearest_cases (n d : ℕ) :
    nearest n d = n / d ∧ 2 * (n % d) ≤ d ∨ nearest n d = n / d + 1 ∧ d ≤ 2 * (n % d) := by
  unfold nearest
  grind

theorem nearest_mono {n n' : ℕ} (h : n ≤ n') (d : ℕ) : nearest n d ≤ nearest n' d := by
  have hq : n / d ≤ n' / d := Nat.div_le_div_right h
  rcases Nat.lt_or_eq_of_le hq with hlt | heq
  · have hn := nearest_cases n d
    have hn' := nearest_cases n' d
    omega
  · -- between the same neighbours the rests decide
    have hr : n % d ≤ n' % d := by
      have hn := Nat.div_add_mod n d
      have hn' := Nat.div_add_mod n' d
      rw [← heq] at hn'
      omega
    unfold nearest
    simp only [← heq]
    grind

/-- No multiple is nearer. -/
theorem abs_sub_nearest_le (n t : ℕ) {d : ℕ} (hd : 0 < d) :
    |(n : ℤ) - nearest n d * d| ≤ |(n : ℤ) - t * d| := by
  have hr : n % d < d := Nat.mod_lt n hd
  have hn : (n : ℤ) = (n / d : ℕ) * d + (n % d : ℕ) := by exact_mod_cast (Nat.div_add_mod' n d).symm
  have hnear := nearest_cases n d
  -- the multiple is the lower neighbour or below it, or the upper one or above it
  have hside : (t : ℤ) * d ≤ (n / d : ℕ) * d ∨ ((n / d : ℕ) + 1 : ℤ) * d ≤ t * d := by
    rcases Nat.lt_or_ge (n / d) t with h | h
    · exact .inr (by gcongr; omega)
    · exact .inl (by gcongr)
  have hupper : ((n / d : ℕ) + 1 : ℤ) * d = (n / d : ℕ) * d + d := by ring
  have hlow : |(n : ℤ) - (n / d : ℕ) * d| = (n % d : ℕ) := by
    rw [abs_of_nonneg] <;> omega
  have hhigh : |(n : ℤ) - ((n / d : ℕ) + 1) * d| = d - (n % d : ℕ) := by
    rw [abs_of_nonpos] <;> omega
  rcases hnear with ⟨h, hhalf⟩ | ⟨h, hhalf⟩
  · rw [h, hlow]
    rcases hside with hs | hs
    · exact (by omega : ((n % d : ℕ) : ℤ) ≤ n - t * d).trans (le_abs_self _)
    · exact (by omega : ((n % d : ℕ) : ℤ) ≤ -(n - t * d)).trans (neg_le_abs _)
  · rw [h, Nat.cast_succ, hhigh]
    rcases hside with hs | hs
    · exact (by omega : (d : ℤ) - (n % d : ℕ) ≤ n - t * d).trans (le_abs_self _)
    · exact (by omega : (d : ℤ) - (n % d : ℕ) ≤ -(n - t * d)).trans (neg_le_abs _)

/-! ### Quotients -/

variable {n d : ℕ}

theorem atLeastPow_iff (hd : 0 < d) (e : ℤ) :
    atLeastPow n d e = true ↔ (2 : ℚ) ^ e ≤ (n : ℚ) / d := by
  have hd' : (0 : ℚ) < d := by exact_mod_cast hd
  have hpow : (0 : ℚ) < 2 ^ e := by positivity
  unfold atLeastPow
  split
  · next he =>
    rw [decide_eq_true_iff, le_div_iff₀ hd', ← Nat.cast_le (α := ℚ)]
    push_cast [cast_natPow 2 he]
    rw [mul_comm]
  · next he =>
    rw [decide_eq_true_iff, le_div_iff₀ hd', ← Nat.cast_le (α := ℚ)]
    push_cast [cast_natPow_neg 2 he]
    rw [← div_eq_mul_inv, le_div_iff₀ hpow, mul_comm]

/-- The exponent of a quotient is its logarithm. -/
theorem binaryExponent_eq_log (hn : n ≠ 0) (hd : 0 < d) :
    binaryExponent n d = Int.log 2 ((n : ℚ) / d) := by
  have hn' : (0 : ℚ) < n := by exact_mod_cast Nat.pos_of_ne_zero hn
  have hd' : (0 : ℚ) < d := by exact_mod_cast hd
  have hq : (0 : ℚ) < n / d := by positivity
  have hlower (e : ℤ) : (2 : ℚ) ^ e ≤ n / d ↔ e ≤ Int.log 2 ((n : ℚ) / d) := by
    exact_mod_cast Int.zpow_le_iff_le_log (b := 2) one_lt_two hq
  have hupper (e : ℤ) : (n : ℚ) / d < 2 ^ e ↔ Int.log 2 ((n : ℚ) / d) < e := by
    exact_mod_cast Int.lt_zpow_iff_log_lt (b := 2) one_lt_two hq
  -- the logarithms of numerator and denominator leave two candidates
  have hbelow : (2 : ℚ) ^ ((n.log2 : ℤ) - d.log2 - 1) ≤ n / d := by
    rw [le_div_iff₀ hd', sub_sub, zpow_sub₀ two_ne_zero, div_mul_eq_mul_div,
      div_le_iff₀ (by positivity)]
    have hnum : (2 : ℚ) ^ n.log2 ≤ n := by exact_mod_cast Nat.log2_self_le hn
    have hden : (d : ℚ) ≤ 2 ^ (d.log2 + 1) := by exact_mod_cast Nat.lt_log2_self.le
    exact_mod_cast mul_le_mul hnum hden hd'.le hn'.le
  have habove : (n : ℚ) / d < 2 ^ ((n.log2 : ℤ) - d.log2 + 1) := by
    rw [div_lt_iff₀ hd', sub_add_eq_add_sub, zpow_sub₀ two_ne_zero, div_mul_eq_mul_div,
      lt_div_iff₀ (by positivity)]
    have hnum : (n : ℚ) < 2 ^ (n.log2 + 1) := by exact_mod_cast Nat.lt_log2_self
    have hden : (2 : ℚ) ^ d.log2 ≤ d := by exact_mod_cast Nat.log2_self_le hd.ne'
    exact_mod_cast mul_lt_mul hnum hden (by positivity) (by positivity)
  rw [hlower] at hbelow
  rw [hupper] at habove
  have hguess := (atLeastPow_iff (n := n) hd ((n.log2 : ℤ) - d.log2)).trans (hlower _)
  unfold binaryExponent
  simp only [hguess]
  split <;> omega

/-- The mantissa of the number nearest to a quotient, with the exponent `e`. -/
def mantissa (n d : ℕ) (e : ℤ) : ℕ :=
  if 0 ≤ e then nearest n (d * natPow 2 e) else nearest (n * natPow 2 (-e)) d

theorem ofRatio_of_ne_zero (s : Bool) (hn : n ≠ 0) (hd : 0 < d) :
    ofRatio s n d =
      let e := max (Int.log 2 ((n : ℚ) / d) - 52) (-1074)
      if mantissa n d e = 2 ^ 53 then ofParts s (2 ^ 52) (e + 1) else ofParts s (mantissa n d e) e := by
  unfold ofRatio
  rw [if_neg hn, binaryExponent_eq_log hn hd]
  rfl

theorem mantissa_mul_right (n d : ℕ) {c : ℕ} (hc : 0 < c) (e : ℤ) :
    mantissa (n * c) (d * c) e = mantissa n d e := by
  unfold mantissa
  split
  · rw [mul_right_comm, nearest_mul_right _ _ hc]
  · rw [mul_right_comm, nearest_mul_right _ _ hc]

theorem ofRatio_mul_right (s : Bool) (hd : 0 < d) {c : ℕ} (hc : 0 < c) :
    ofRatio s (n * c) (d * c) = ofRatio s n d := by
  rcases eq_or_ne n 0 with rfl | hn
  · simp [ofRatio]
  · have hc' : (c : ℚ) ≠ 0 := by exact_mod_cast hc.ne'
    rw [ofRatio_of_ne_zero s hn hd, ofRatio_of_ne_zero s (by positivity) (by positivity)]
    simp only [mantissa_mul_right _ _ hc, Nat.cast_mul, mul_div_mul_right _ _ hc']

/-- Only the quotient matters. -/
theorem ofRatio_congr (s : Bool) {n' d' : ℕ} (hd : 0 < d) (hd' : 0 < d')
    (h : (n : ℚ) / d = n' / d') : ofRatio s n d = ofRatio s n' d' := by
  have hcross : n * d' = n' * d := by
    rw [div_eq_div_iff (by positivity) (by positivity)] at h
    exact_mod_cast h
  rw [← ofRatio_mul_right s hd hd', ← ofRatio_mul_right s hd' hd, hcross, mul_comm d]

/-! ### Numbers that are not rounded -/

theorem ratio_den_pos (m : ℕ) (e : ℤ) : 0 < (ratio m e).2 := by
  unfold ratio
  split
  · exact Nat.one_pos
  · exact natPow_pos two_pos _

theorem ratio_div (m : ℕ) (e : ℤ) : ((ratio m e).1 : ℚ) / (ratio m e).2 = m * 2 ^ e := by
  unfold ratio
  split
  · next he => simp [cast_natPow 2 he]
  · next he => simp [cast_natPow_neg 2 he]

theorem ratio_num_eq_zero {m : ℕ} {e : ℤ} : (ratio m e).1 = 0 ↔ m = 0 := by
  unfold ratio
  split
  · simp [(natPow_pos two_pos e).ne']
  · rfl

theorem mantissa_ratio (m : ℕ) (e : ℤ) : mantissa (ratio m e).1 (ratio m e).2 e = m := by
  unfold mantissa ratio
  split
  · simp [nearest_mul_self _ (natPow_pos two_pos e)]
  · exact nearest_mul_self _ (natPow_pos two_pos _)

/-- A number of the format is the one that is nearest to it. -/
theorem ofRatio_ratio (s : Bool) {m : ℕ} {e : ℤ} (h : Canonical m e) :
    ofRatio s (ratio m e).1 (ratio m e).2 = ofParts s m e := by
  obtain ⟨hm, hleast, -, hfull⟩ := id h
  rcases Nat.eq_zero_or_pos m with rfl | hpos
  · obtain rfl : e = -1074 := hfull.resolve_left (by decide)
    rfl
  · have hpos' : (0 : ℚ) < m := by exact_mod_cast hpos
    have hvalue : (0 : ℚ) < m * 2 ^ e := by positivity
    -- the exponent of the quotient is that of a full mantissa, or less
    have hlog : max (Int.log 2 ((m : ℚ) * 2 ^ e) - 52) (-1074) = e := by
      have hupper : Int.log 2 ((m : ℚ) * 2 ^ e) < 53 + e := by
        rw [← Int.lt_zpow_iff_log_lt one_lt_two hvalue, Nat.cast_two, zpow_add₀ two_ne_zero]
        gcongr
        exact_mod_cast hm
      rcases hfull with hfull | rfl
      · have hlower : 52 + e ≤ Int.log 2 ((m : ℚ) * 2 ^ e) := by
          rw [← Int.zpow_le_iff_le_log one_lt_two hvalue, Nat.cast_two, zpow_add₀ two_ne_zero]
          gcongr
          exact_mod_cast hfull
        omega
      · omega
    rw [ofRatio_of_ne_zero s (ratio_num_eq_zero.not.mpr hpos.ne') (ratio_den_pos m e), ratio_div]
    simp only [hlog, mantissa_ratio]
    exact if_neg hm.ne

end Binary64

end Automation
