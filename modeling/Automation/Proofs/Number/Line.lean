/-
Automation/Proofs/Number/Line.lean

The numbers of the format as points on a line.

Every number but the NaN has a place on the line of the rationals, with one more point at either
end for the infinities (`point`); zeros of both signs are one point.  Two numbers compare as their
points do (`compare?_eq`), so equality and order of numbers have the laws of the line.
-/
import Mathlib.Algebra.Order.Field.Rat
import Mathlib.Order.WithBot
import Automation.Number.Binary64

namespace Automation.Binary64

/-- The place of a number on the line; a NaN, which has none, is put at the lower end. -/
def point : Binary64 → WithBot (WithTop ℚ)
  | .nan => ⊥
  | .infinite true => ⊥
  | .infinite false => ((⊤ : WithTop ℚ) : WithBot (WithTop ℚ))
  | .finite s m e h => (((toRat? (.finite s m e h)).getD 0 : ℚ) : WithTop ℚ)

variable {x y : Binary64}

/-- Numbers compare as their points do. -/
theorem compare?_eq (hx : x.isNaN = false) (hy : y.isNaN = false) :
    compare? x y =
      some (if x.point < y.point then .lt else if x.point = y.point then .eq else .gt) := by
  cases x with
  | nan => cases hx
  | infinite s =>
    cases y with
    | nan => cases hy
    | infinite t => cases s <;> cases t <;> simp [compare?, point, compare]
    | finite t m e h => cases s <;> simp [compare?, point]
  | finite s m e h =>
    cases y with
    | nan => cases hy
    | infinite t => cases t <;> simp [compare?, point]
    | finite t k f h' => simp [compare?, point, toRat?]

theorem eqv_iff (hx : x.isNaN = false) (hy : y.isNaN = false) :
    x.eqv y = true ↔ x.point = y.point := by
  unfold eqv
  rw [compare?_eq hx hy]
  rcases lt_trichotomy x.point y.point with h | h | h
  · simp [h, h.ne]
  · simp [h]
  · simp [h.not_gt, h.ne']

theorem lt_iff (hx : x.isNaN = false) (hy : y.isNaN = false) :
    x.lt y = true ↔ x.point < y.point := by
  unfold lt
  rw [compare?_eq hx hy]
  rcases lt_trichotomy x.point y.point with h | h | h
  · simp [h]
  · simp [h]
  · simp [h.not_gt, h.ne']

theorem le_iff (hx : x.isNaN = false) (hy : y.isNaN = false) :
    x.le y = true ↔ x.point ≤ y.point := by
  unfold le
  rw [Bool.or_eq_true, lt_iff hx hy, eqv_iff hx hy]
  exact le_iff_lt_or_eq.symm

end Automation.Binary64
