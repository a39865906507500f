/-
Automation/Proofs/Number/Integer.lean

Integers as numbers of the format.

An integer becomes the nearest one of 53 significant bits (`abs_sub_rounded_le`), unless it is
so large that the format has no number near it (`ofInt_isInfinite_iff`).  The order of integers is
kept (`rounded_mono`), but integers that differ may become one.
-/
import Automation.Proofs.Number.Rounding

namespace Automation.Binary64

/-- The natural number of 53 significant bits that is nearest to `n`, on a tie the one with the
even mantissa. -/
def roundedNat (n : ℕ) : ℕ := nearest n (2 ^ (n.log2 - 52)) * 2 ^ (n.log2 - 52)

/-- The integer of 53 significant bits that is nearest to `n`, on a tie the one with the even
mantissa. -/
def rounded (n : ℤ) : ℤ := n.sign * roundedNat n.natAbs

/-- An integer of at most 53 significant bits. -/
def Short (n : ℤ) : Prop := ∃ a k : ℕ, a < 2 ^ 53 ∧ n.natAbs = a * 2 ^ k

/-- The short integer next to `n`: none is nearer. -/
structure Nearest (n r : ℤ) : Prop where
  short : Short r
  least : ∀ s, Short s → |n - r| ≤ |n - s|

/-! ### The nearest short integer -/

/-- Rounding does not pass a power of two. -/
theorem nearest_pow_bounds {n : ℕ} (hn : n ≠ 0) {k : ℕ} (hk : k ≤ n.log2) :
    2 ^ (n.log2 - k) ≤ nearest n (2 ^ k) ∧ nearest n (2 ^ k) ≤ 2 ^ (n.log2 + 1 - k) := by
  have hpow : ∀ j, k ≤ j → nearest (2 ^ j) (2 ^ k) = 2 ^ (j - k) := by
    intro j hj
    have hsplit : 2 ^ j = 2 ^ (j - k) * 2 ^ k := by rw [← pow_add, Nat.sub_add_cancel hj]
    rw [hsplit, nearest_mul_self _ (by positivity)]
  rw [← hpow _ hk, ← hpow _ (hk.trans (Nat.le_succ _))]
  exact ⟨nearest_mono (Nat.log2_self_le hn) _, nearest_mono Nat.lt_log2_self.le _⟩

theorem roundedNat_bounds {n : ℕ} (hn : n ≠ 0) :
    2 ^ n.log2 ≤ roundedNat n ∧ roundedNat n ≤ 2 ^ (n.log2 + 1) := by
  obtain ⟨hlow, hhigh⟩ := nearest_pow_bounds hn (Nat.sub_le n.log2 52)
  have hsplit : ∀ j, n.log2 - 52 ≤ j → 2 ^ (j - (n.log2 - 52)) * 2 ^ (n.log2 - 52) = 2 ^ j := by
    intro j hj
    rw [← pow_add, Nat.sub_add_cancel hj]
  constructor
  · rw [← hsplit n.log2 (by omega)]
    exact Nat.mul_le_mul_right _ hlow
  · rw [← hsplit (n.log2 + 1) (by omega)]
    exact Nat.mul_le_mul_right _ hhigh

theorem roundedNat_mono {m n : ℕ} (h : m ≤ n) : roundedNat m ≤ roundedNat n := by
  rcases eq_or_ne m 0 with rfl | hm
  · simp [roundedNat, nearest]
  · have hn : n ≠ 0 := by omega
    have hlog : m.log2 ≤ n.log2 := (Nat.le_log2 hn).mpr ((Nat.log2_self_le hm).trans h)
    rcases Nat.lt_or_eq_of_le hlog with hlt | heq
    · -- a power of two lies between
      calc roundedNat m ≤ 2 ^ (m.log2 + 1) := (roundedNat_bounds hm).2
        _ ≤ 2 ^ n.log2 := Nat.pow_le_pow_right two_pos hlt
        _ ≤ roundedNat n := (roundedNat_bounds hn).1
    · unfold roundedNat
      rw [heq]
      exact Nat.mul_le_mul_right _ (nearest_mono h _)

/-- No natural number of 53 significant bits is nearer. -/
theorem abs_sub_roundedNat_le (n : ℕ) {a k : ℕ} (ha : a < 2 ^ 53) :
    |(n : ℤ) - roundedNat n| ≤ |(n : ℤ) - (a * 2 ^ k : ℕ)| := by
  have hnear (t : ℕ) : |(n : ℤ) - roundedNat n| ≤ |(n : ℤ) - (t * 2 ^ (n.log2 - 52) : ℕ)| := by
    unfold roundedNat
    push_cast
    exact_mod_cast abs_sub_nearest_le n t (d := 2 ^ (n.log2 - 52)) (by positivity)
  rcases Nat.lt_or_ge k (n.log2 - 52) with hk | hk
  · -- such a number is less than a power of two that is at most `n`
    have hn : n ≠ 0 := by
      rintro rfl
      simp at hk
    have hsplit : 2 ^ 52 * 2 ^ (n.log2 - 52) = 2 ^ n.log2 := by
      rw [← pow_add]
      congr 1
      omega
    have hpow : 2 ^ 52 * 2 ^ (n.log2 - 52) ≤ n := by
      rw [hsplit]
      exact Nat.log2_self_le hn
    have hless : a * 2 ^ k ≤ 2 ^ 52 * 2 ^ (n.log2 - 52) := by
      calc a * 2 ^ k ≤ 2 ^ 53 * 2 ^ k := Nat.mul_le_mul_right _ ha.le
        _ = 2 ^ (53 + k) := (pow_add 2 53 k).symm
        _ ≤ 2 ^ n.log2 := Nat.pow_le_pow_right two_pos (by omega)
        _ = 2 ^ 52 * 2 ^ (n.log2 - 52) := hsplit.symm
    refine (hnear (2 ^ 52)).trans ?_
    rw [abs_of_nonneg (by omega), abs_of_nonneg (by omega)]
    omega
  · have hsplit : a * 2 ^ k = a * 2 ^ (k - (n.log2 - 52)) * 2 ^ (n.log2 - 52) := by
      rw [mul_assoc, ← pow_add, Nat.sub_add_cancel hk]
    rw [hsplit]
    exact hnear _

theorem rounded_neg (n : ℤ) : rounded (-n) = -rounded n := by
  simp [rounded]

theorem rounded_natCast (n : ℕ) : rounded n = roundedNat n := by
  rcases Nat.eq_zero_or_pos n with rfl | hn
  · simp [rounded, roundedNat, nearest]
  · simp [rounded, Int.sign_eq_one_of_pos (Int.natCast_pos.mpr hn)]

/-- No integer of 53 significant bits is nearer. -/
theorem abs_sub_rounded_le (n : ℤ) {s : ℤ} (hs : Short s) : |n - rounded n| ≤ |n - s| := by
  -- for a natural number, one with a sign is further off than zero
  have hnat : ∀ (n : ℕ) {s : ℤ}, Short s → |(n : ℤ) - rounded n| ≤ |(n : ℤ) - s| := by
    rintro n s ⟨a, k, ha, habs⟩
    rw [rounded_natCast]
    rcases Int.natAbs_eq s with h | h
    · rw [h, habs]
      exact abs_sub_roundedNat_le n ha
    · refine (abs_sub_roundedNat_le n (a := 0) (k := 0) (by norm_num)).trans ?_
      rw [abs_of_nonneg (by omega), abs_of_nonneg (by omega)]
      omega
  obtain ⟨m, rfl | rfl⟩ := Int.eq_nat_or_neg n
  · exact hnat m hs
  · have hneg : Short (-s) := by
      obtain ⟨a, k, ha, habs⟩ := hs
      exact ⟨a, k, ha, by rwa [Int.natAbs_neg]⟩
    calc |(-m : ℤ) - rounded (-m)| = |(m : ℤ) - rounded m| := by
          rw [rounded_neg, neg_sub_neg, abs_sub_comm]
      _ ≤ |(m : ℤ) - -s| := hnat m hneg
      _ = |(-m : ℤ) - s| := by
          rw [← abs_neg]
          congr 1
          ring

theorem short_rounded (n : ℤ) : Short (rounded n) := by
  rcases eq_or_ne n 0 with rfl | hn
  · exact ⟨0, 0, by norm_num, rfl⟩
  · have hn' : n.natAbs ≠ 0 := Int.natAbs_ne_zero.mpr hn
    have habs : (rounded n).natAbs = roundedNat n.natAbs := by
      rw [rounded, Int.natAbs_mul, Int.natAbs_sign_of_ne_zero hn, one_mul, Int.natAbs_natCast]
    have hmost : nearest n.natAbs (2 ^ (n.natAbs.log2 - 52)) ≤ 2 ^ 53 :=
      (nearest_pow_bounds hn' (Nat.sub_le _ 52)).2.trans (Nat.pow_le_pow_right two_pos (by omega))
    rcases Nat.lt_or_eq_of_le hmost with hlt | heq
    · exact ⟨_, _, hlt, habs⟩
    · -- a mantissa that became too long is a power of two
      refine ⟨2 ^ 52, n.natAbs.log2 - 52 + 1, by norm_num, ?_⟩
      rw [habs, roundedNat, heq, pow_succ 2 (n.natAbs.log2 - 52)]
      ring

theorem nearest_rounded (n : ℤ) : Nearest n (rounded n) :=
  ⟨short_rounded n, fun _ => abs_sub_rounded_le n⟩

theorem rounded_of_short {n : ℤ} (h : Short n) : rounded n = n := by
  have hzero := abs_sub_rounded_le n h
  rw [sub_self, abs_zero] at hzero
  exact (sub_eq_zero.mp (abs_nonpos_iff.mp hzero)).symm

theorem short_of_natAbs_le {n : ℤ} (h : n.natAbs ≤ 2 ^ 53) : Short n := by
  rcases Nat.lt_or_eq_of_le h with hlt | heq
  · exact ⟨n.natAbs, 0, hlt, by simp⟩
  · exact ⟨2 ^ 52, 1, by norm_num, by rw [heq]; norm_num⟩

theorem rounded_mono {m n : ℤ} (h : m ≤ n) : rounded m ≤ rounded n := by
  have hnonneg : ∀ k : ℕ, (0 : ℤ) ≤ rounded k := fun k => by
    rw [rounded_natCast]
    positivity
  obtain ⟨a, rfl | rfl⟩ := Int.eq_nat_or_neg m <;> obtain ⟨b, rfl | rfl⟩ := Int.eq_nat_or_neg n
  · rw [rounded_natCast, rounded_natCast]
    exact_mod_cast roundedNat_mono (by omega)
  · obtain ⟨rfl, rfl⟩ : a = 0 ∧ b = 0 := by omega
    simp
  · rw [rounded_neg]
    exact (neg_nonpos.mpr (hnonneg a)).trans (hnonneg b)
  · rw [rounded_neg, rounded_neg, rounded_natCast, rounded_natCast, neg_le_neg_iff]
    exact_mod_cast roundedNat_mono (by omega)

/-! ### Integers of the format -/

/-- The rational that a finite number stands for. -/
theorem toRat?_finite (s : Bool) {m : ℕ} {e : ℤ} (h : Canonical m e) :
    toRat? (.finite s m e h) = some (if s then -((m : ℚ) * 2 ^ e) else m * 2 ^ e) := by
  unfold toRat?
  simp only [Rat.mkRat_eq_div]
  cases s
  · simp [ratio_div]
  · simp [neg_div, ratio_div]

/-- The mantissa and the exponent that a natural number is rounded to. -/
theorem ofRatio_one (s : Bool) {n : ℕ} (hn : n ≠ 0) :
    ∃ m : ℕ, ∃ e : ℤ, ofRatio s n 1 = ofParts s m e ∧ 2 ^ 52 ≤ m ∧ m < 2 ^ 53 ∧ -1074 ≤ e ∧
      (m : ℚ) * 2 ^ e = roundedNat n := by
  have hlog : max (Int.log 2 ((n : ℚ) / (1 : ℕ)) - 52) (-1074) = (n.log2 : ℤ) - 52 := by
    rw [Nat.cast_one, div_one, Int.log_natCast, Nat.log2_eq_log_two]
    omega
  have hvalue : (mantissa n 1 (n.log2 - 52) : ℚ) * 2 ^ ((n.log2 : ℤ) - 52) = roundedNat n := by
    unfold mantissa roundedNat
    split
    · next he =>
      obtain ⟨k, hk⟩ := Nat.exists_eq_add_of_le (show 52 ≤ n.log2 by omega)
      simp [hk, natPow]
    · next he =>
      have hk : n.log2 - 52 = 0 := by omega
      have hpow : (2 : ℚ) ^ ((n.log2 : ℤ) - 52) ≠ 0 := by positivity
      rw [hk, nearest_one, Nat.cast_mul, cast_natPow_neg 2 he, mul_assoc, Nat.cast_two,
        inv_mul_cancel₀ hpow]
      simp
  have hpow : (0 : ℚ) < 2 ^ ((n.log2 : ℤ) - 52) := by positivity
  obtain ⟨hlow, hhigh⟩ := roundedNat_bounds hn
  have hleast : 2 ^ 52 ≤ mantissa n 1 (n.log2 - 52) := by
    suffices h : (2 : ℚ) ^ 52 ≤ mantissa n 1 (n.log2 - 52) by exact_mod_cast h
    refine le_of_mul_le_mul_right ?_ hpow
    rw [hvalue, ← zpow_natCast, ← zpow_add₀ two_ne_zero]
    simpa using (show ((2 ^ n.log2 : ℕ) : ℚ) ≤ roundedNat n by exact_mod_cast hlow)
  have hmost : mantissa n 1 (n.log2 - 52) ≤ 2 ^ 53 := by
    suffices h : (mantissa n 1 (n.log2 - 52) : ℚ) ≤ 2 ^ 53 by exact_mod_cast h
    refine le_of_mul_le_mul_right ?_ hpow
    rw [hvalue, ← zpow_natCast, ← zpow_add₀ two_ne_zero]
    have hexp : ((53 : ℕ) : ℤ) + ((n.log2 : ℤ) - 52) = (n.log2 + 1 : ℕ) := by omega
    rw [hexp, zpow_natCast]
    exact_mod_cast hhigh
  rw [ofRatio_of_ne_zero s hn Nat.one_pos]
  simp only [hlog]
  split
  · next hfull =>
    -- rounded up to the next power of two
    refine ⟨2 ^ 52, n.log2 - 52 + 1, rfl, le_rfl, by norm_num, by omega, ?_⟩
    rw [← hvalue, hfull, zpow_add_one₀ two_ne_zero]
    push_cast
    ring
  · next hfull => exact ⟨_, _, rfl, hleast, by omega, by omega, hvalue⟩

/-- The least natural number that is too large to be rounded. -/
def overflow : ℕ := 2 ^ 1024 - 2 ^ 970

theorem roundedNat_lt_iff {n : ℕ} : roundedNat n < 2 ^ 1024 ↔ n < overflow := by
  constructor
  · intro h
    by_contra hge
    have hround : roundedNat overflow = 2 ^ 1024 := by decide +kernel
    exact absurd (roundedNat_mono (not_lt.mp hge)) (by omega)
  · intro h
    have hround : roundedNat (overflow - 1) < 2 ^ 1024 := by decide +kernel
    exact (roundedNat_mono (by omega)).trans_lt hround

theorem ofInt_of_lt {n : ℤ} (h : n.natAbs < overflow) :
    ∃ m e, ∃ hc : Canonical m e, ofInt n = .finite (decide (n < 0)) m e hc ∧
      (m : ℚ) * 2 ^ e = roundedNat n.natAbs := by
  rcases eq_or_ne n 0 with rfl | hn
  · exact ⟨0, -1074, by decide, rfl, by simp [roundedNat, nearest]⟩
  · obtain ⟨m, e, hparts, hlow, hhigh, hleast, hvalue⟩ :=
      ofRatio_one (decide (n < 0)) (Int.natAbs_ne_zero.mpr hn)
    have hsmall : (2 : ℚ) ^ (52 + e) < 2 ^ (1024 : ℤ) := by
      calc (2 : ℚ) ^ (52 + e) = 2 ^ 52 * 2 ^ e := by
            rw [zpow_add₀ two_ne_zero]
            rfl
        _ ≤ m * 2 ^ e := by
            gcongr
            exact_mod_cast hlow
        _ = roundedNat n.natAbs := hvalue
        _ < 2 ^ (1024 : ℤ) := by exact_mod_cast roundedNat_lt_iff.mpr h
    have hexp : 52 + e < 1024 := (zpow_lt_zpow_iff_right₀ one_lt_two).mp hsmall
    have hc : Canonical m e := ⟨hhigh, hleast, by omega, .inl hlow⟩
    refine ⟨m, e, hc, ?_, hvalue⟩
    show ofRatio _ _ _ = _
    rw [hparts, ofParts, dif_pos hc]

theorem ofInt_of_ge {n : ℤ} (h : overflow ≤ n.natAbs) : ofInt n = .infinite (decide (n < 0)) := by
  have hn : n.natAbs ≠ 0 := by
    have : 0 < overflow := by decide +kernel
    omega
  obtain ⟨m, e, hparts, -, hhigh, -, hvalue⟩ := ofRatio_one (decide (n < 0)) hn
  have hlarge : (2 : ℚ) ^ (1024 : ℤ) < 2 ^ (53 + e) := by
    calc (2 : ℚ) ^ (1024 : ℤ) ≤ roundedNat n.natAbs := by
          exact_mod_cast not_lt.mp (roundedNat_lt_iff.not.mpr (not_lt.mpr h))
      _ = m * 2 ^ e := hvalue.symm
      _ < 2 ^ 53 * 2 ^ e := by
          gcongr
          exact_mod_cast hhigh
      _ = 2 ^ (53 + e) := by
          rw [zpow_add₀ two_ne_zero]
          rfl
  have hexp : 1024 < 53 + e := (zpow_lt_zpow_iff_right₀ one_lt_two).mp hlarge
  have hc : ¬ Canonical m e := fun hc => by
    have := hc.2.2.1
    omega
  show ofRatio _ _ _ = _
  rw [hparts, ofParts, dif_neg hc]

/-- An integer has no number of the format near it exactly if it is too large. -/
theorem ofInt?_eq_none_iff {n : ℤ} : ofInt? n = none ↔ overflow ≤ n.natAbs := by
  unfold ofInt?
  rcases Nat.lt_or_ge n.natAbs overflow with h | h
  · obtain ⟨m, e, hc, heq, -⟩ := ofInt_of_lt h
    simp [heq, isInfinite, h]
  · simp [ofInt_of_ge h, isInfinite, h]

theorem ofInt?_of_lt {n : ℤ} (h : n.natAbs < overflow) : ofInt? n = some (ofInt n) := by
  obtain ⟨m, e, hc, heq, -⟩ := ofInt_of_lt h
  simp [ofInt?, heq, isInfinite]

theorem rounded_eq (n : ℤ) :
    rounded n = if n < 0 then -(roundedNat n.natAbs : ℤ) else roundedNat n.natAbs := by
  unfold rounded
  split
  · next h => simp [Int.sign_eq_neg_one_of_neg h]
  · next h =>
    rcases eq_or_ne n 0 with rfl | hn
    · simp [roundedNat, nearest]
    · simp [Int.sign_eq_one_of_pos (show 0 < n by omega)]

theorem toRat?_ofInt {n : ℤ} (h : n.natAbs < overflow) : (ofInt n).toRat? = some (rounded n : ℚ) := by
  obtain ⟨m, e, hc, heq, hvalue⟩ := ofInt_of_lt h
  rw [heq, toRat?_finite, hvalue, rounded_eq]
  push_cast
  simp

theorem truncate?_ofInt {n : ℤ} (h : n.natAbs < overflow) : (ofInt n).truncate? = some (rounded n) := by
  obtain ⟨m, e, hc, heq, hvalue⟩ := ofInt_of_lt h
  -- the quotient is a whole number
  have hwhole : (ratio m e).1 = roundedNat n.natAbs * (ratio m e).2 := by
    have hden : ((ratio m e).2 : ℚ) ≠ 0 := by exact_mod_cast (ratio_den_pos m e).ne'
    have hquot := (ratio_div m e).trans hvalue
    rw [div_eq_iff hden] at hquot
    exact_mod_cast hquot
  rw [heq, rounded_eq]
  simp [truncate?, hwhole, Nat.mul_div_cancel _ (ratio_den_pos m e)]

/-! ### Comparing integers of the format -/

variable {m n : ℤ}

theorem compare?_ofInt (hm : m.natAbs < overflow) (hn : n.natAbs < overflow) :
    compare? (ofInt m) (ofInt n) =
      some (if rounded m < rounded n then .lt else if rounded m = rounded n then .eq else .gt) := by
  have hrm := toRat?_ofInt hm
  have hrn := toRat?_ofInt hn
  obtain ⟨_, _, _, heqm, -⟩ := ofInt_of_lt hm
  obtain ⟨_, _, _, heqn, -⟩ := ofInt_of_lt hn
  rw [heqm] at hrm ⊢
  rw [heqn] at hrn ⊢
  unfold compare?
  simp only [hrm, hrn, Int.cast_lt, Int.cast_inj]

theorem eqv_ofInt (hm : m.natAbs < overflow) (hn : n.natAbs < overflow) :
    eqv (ofInt m) (ofInt n) = decide (rounded m = rounded n) := by
  unfold eqv
  rw [compare?_ofInt hm hn]
  grind

theorem lt_ofInt (hm : m.natAbs < overflow) (hn : n.natAbs < overflow) :
    lt (ofInt m) (ofInt n) = decide (rounded m < rounded n) := by
  unfold lt
  rw [compare?_ofInt hm hn]
  grind

theorem le_ofInt (hm : m.natAbs < overflow) (hn : n.natAbs < overflow) :
    le (ofInt m) (ofInt n) = decide (rounded m ≤ rounded n) := by
  unfold le
  rw [lt_ofInt hm hn, eqv_ofInt hm hn, Bool.eq_iff_iff]
  simp [le_iff_lt_or_eq]

end Automation.Binary64
