/-
Automation/Number/Binary64.lean

Floating-point numbers of 64 bits, as exact values.

A finite number is a sign, a natural mantissa and a binary exponent, with the
one choice of the two that the format allows (`Canonical`), so equal numbers of
equal sign are equal terms.  Every operation is computed exactly in `Rat` and
then rounded once, to the nearest number and on a tie to the even mantissa;
what is too large becomes infinite.
-/
namespace Automation

/-- `base ^ e` for an exponent that is not negative. -/
def natPow (base : Nat) (e : Int) : Nat := Nat.pow base e.toNat

/-- `m * 2 ^ e` is the one form of its number that the format holds: 53 bits of
mantissa, all used unless the exponent is the least one. -/
def Canonical (m : Nat) (e : Int) : Prop :=
  m < Nat.pow 2 53 ∧ -1074 ≤ e ∧ e ≤ 971 ∧ (Nat.pow 2 52 ≤ m ∨ e = -1074)

instance (m : Nat) (e : Int) : Decidable (Canonical m e) := by
  unfold Canonical; infer_instance

/-- A floating-point number of 64 bits. -/
inductive Binary64
  | nan
  | infinite (negative : Bool)
  | finite (negative : Bool) (mantissa : Nat) (exponent : Int)
      (canonical : Canonical mantissa exponent)
  deriving DecidableEq

namespace Binary64

/-- Zero with a sign. -/
def zero (negative : Bool) : Binary64 := .finite negative 0 (-1074) (by decide)

instance : Inhabited Binary64 := ⟨zero false⟩

/-- The number `m * 2 ^ e`, infinite if the format has no such form. -/
def ofParts (negative : Bool) (m : Nat) (e : Int) : Binary64 :=
  if h : Canonical m e then .finite negative m e h else .infinite negative

/-- The integer nearest to `n / d`; a half goes to the even neighbour. -/
def nearest (n d : Nat) : Nat :=
  let q := n / d
  let r := n % d
  if 2 * r < d then q
  else if d < 2 * r then q + 1
  else if q % 2 = 0 then q else q + 1

/-- `n / d` is at least `2 ^ e`. -/
def atLeastPow (n d : Nat) (e : Int) : Bool :=
  if 0 ≤ e then decide (d * natPow 2 e ≤ n) else decide (d ≤ n * natPow 2 (-e))

/-- The exponent of the greatest power of two that is at most `n / d`. -/
def binaryExponent (n d : Nat) : Int :=
  let guess : Int := (n.log2 : Int) - d.log2
  if atLeastPow n d guess then guess else guess - 1

/-- The number nearest to `n / d`, on a tie the one with the even mantissa. -/
def ofRatio (negative : Bool) (n d : Nat) : Binary64 :=
  if n = 0 then zero negative else
    let e := max (binaryExponent n d - 52) (-1074)
    let m := if 0 ≤ e then nearest n (d * natPow 2 e) else nearest (n * natPow 2 (-e)) d
    if m = Nat.pow 2 53 then ofParts negative (Nat.pow 2 52) (e + 1) else ofParts negative m e

/-- The number nearest to a rational; zero gets the given sign. -/
def ofRat (zeroSign : Bool) (q : Rat) : Binary64 :=
  if q.num = 0 then zero zeroSign else ofRatio (decide (q.num < 0)) q.num.natAbs q.den

/-- The number nearest to an integer. -/
def ofInt (n : Int) : Binary64 := ofRatio (decide (n < 0)) n.natAbs 1

/-- The magnitude of a finite number as a quotient of natural numbers. -/
def ratio (m : Nat) (e : Int) : Nat × Nat :=
  if 0 ≤ e then (m * natPow 2 e, 1) else (m, natPow 2 (-e))

/-- The rational that a finite number stands for. -/
def toRat? : Binary64 → Option Rat
  | .finite negative m e _ =>
    let (n, d) := ratio m e
    some (mkRat (if negative then -(n : Int) else n) d)
  | _ => none

/-- The sign bit; that of a NaN is clear. -/
def isNegative : Binary64 → Bool
  | .nan => false
  | .infinite s => s
  | .finite s _ _ _ => s

def isNaN : Binary64 → Bool
  | .nan => true
  | _ => false

def isInfinite : Binary64 → Bool
  | .infinite _ => true
  | _ => false

def isFinite : Binary64 → Bool
  | .finite .. => true
  | _ => false

/-- Zero of either sign. -/
def isZero : Binary64 → Bool
  | .finite _ m _ _ => m == 0
  | _ => false

def neg : Binary64 → Binary64
  | .nan => .nan
  | .infinite s => .infinite !s
  | .finite s m e h => .finite (!s) m e h

/-- A sum of opposite numbers is the positive zero; the negative zero is a sum
of negative zeros only. -/
def add (x y : Binary64) : Binary64 :=
  match x, y with
  | .nan, _ => .nan
  | _, .nan => .nan
  | .infinite s, .infinite t => if s = t then .infinite s else .nan
  | .infinite s, _ => .infinite s
  | _, .infinite t => .infinite t
  | .finite s .., .finite t .. =>
    match x.toRat?, y.toRat? with
    | some a, some b => ofRat (s && t) (a + b)
    | _, _ => .nan

def sub (x y : Binary64) : Binary64 := add x (neg y)

def mul (x y : Binary64) : Binary64 :=
  let sign := x.isNegative != y.isNegative
  match x, y with
  | .nan, _ => .nan
  | _, .nan => .nan
  | .infinite _, _ => if y.isZero then .nan else .infinite sign
  | _, .infinite _ => if x.isZero then .nan else .infinite sign
  | .finite .., .finite .. =>
    match x.toRat?, y.toRat? with
    | some a, some b => ofRat sign (a * b)
    | _, _ => .nan

/-- The quotient by a number that is not zero; by zero it is infinite with the
sign of the signs, and `0 / 0` is a NaN. -/
def div (x y : Binary64) : Binary64 :=
  let sign := x.isNegative != y.isNegative
  match x, y with
  | .nan, _ => .nan
  | _, .nan => .nan
  | .infinite _, .infinite _ => .nan
  | .infinite _, _ => .infinite sign
  | _, .infinite _ => zero sign
  | .finite .., .finite .. =>
    if y.isZero then (if x.isZero then .nan else .infinite sign)
    else match x.toRat?, y.toRat? with
      | some a, some b => ofRat sign (a / b)
      | _, _ => .nan

/-- What remains of `x` after the greatest multiple of `y` that is at most `x`;
it has the sign of `y`, which is not zero. -/
def floorMod (x y : Binary64) : Binary64 :=
  match x, y with
  | .finite s .., .infinite t =>
    if x.isZero then zero t else if s = t then x else .infinite t
  | .finite .., .finite t .. =>
    match x.toRat?, y.toRat? with
    | some a, some b => ofRat t (a - b * ((a / b).floor : Int))
    | _, _ => .nan
  | _, _ => .nan

/-! ### Order -/

/-- The order of two numbers as reals with two infinities; nothing is said of a
NaN. -/
def compare? (x y : Binary64) : Option Ordering :=
  match x, y with
  | .nan, _ => none
  | _, .nan => none
  | .infinite s, .infinite t => some (compare (!s) !t)
  | .infinite s, _ => some (if s then .lt else .gt)
  | _, .infinite t => some (if t then .gt else .lt)
  | .finite .., .finite .. =>
    match x.toRat?, y.toRat? with
    | some a, some b => some (if a < b then .lt else if a = b then .eq else .gt)
    | _, _ => none

/-- Equal as numbers: zeros of both signs are equal, a NaN equals nothing. -/
def eqv (x y : Binary64) : Bool := compare? x y == some .eq

def lt (x y : Binary64) : Bool := compare? x y == some .lt

def le (x y : Binary64) : Bool := lt x y || eqv x y

/-! ### Integers -/

/-- The integer next to a finite number in the direction of zero. -/
def truncate? : Binary64 → Option Int
  | .finite negative m e _ =>
    let (n, d) := ratio m e
    let whole : Int := (n / d : Nat)
    some (if negative then -whole else whole)
  | _ => none

/-- The order of a number and an integer of any size. -/
def compareInt? (x : Binary64) (n : Int) : Option Ordering :=
  match x.truncate? with
  | some t => if t = n then x.compare? (ofInt t) else some (compare t n)
  | none => x.compare? (zero false)

/-- A number without its sign. -/
def magnitude (x : Binary64) : Binary64 := if x.isNegative then x.neg else x

/-- How often a magnitude goes into another one as a whole: the rest is taken off
before the division, whose result is rounded to an integer if it is close to the
next one, and else cut. -/
def floorQuotient? (x y : Binary64) : Option Int :=
  let quotient := (x.magnitude.sub (x.magnitude.floorMod y.magnitude)).div y.magnitude
  quotient.truncate?.map fun whole =>
    if lt (ofRatio false 1 2) (quotient.sub (ofInt whole)) then whole + 1 else whole

/-- The integer nearest to a finite number, a half going to the even one. -/
def round? : Binary64 → Option Int
  | .finite negative m e _ =>
    let (n, d) := ratio m e
    let whole : Int := (nearest n d : Nat)
    some (if negative then -whole else whole)
  | _ => none

/-- The nearest number to an integer, if that is not infinite. -/
def ofInt? (n : Int) : Option Binary64 :=
  let x := ofInt n
  if x.isInfinite then none else some x

end Binary64

end Automation
