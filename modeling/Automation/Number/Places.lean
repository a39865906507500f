/-
Automation/Number/Places.lean

Decimal text with a chosen number of digits.

The magnitude of a finite number is rounded once, a half going to the even
neighbour: to a number of places behind the point, or to a number of significant
digits.  With significant digits it is written in places or with an exponent,
whichever suits its size.
-/
import Automation.Number.Decimal

namespace Automation.Places

/-- A point and digits behind it, or nothing; `pointed` keeps a lone point. -/
def fraction (pointed : Bool) (digits : List Char) : List Char :=
  if digits.isEmpty && !pointed then [] else '.' :: digits

/-- Digits with the last `places` of them behind a point. -/
def setPoint (pointed : Bool) (places : Nat) (digits : List Char) : List Char :=
  let all := List.replicate (places + 1 - digits.length) '0' ++ digits
  all.take (all.length - places) ++ fraction pointed (all.drop (all.length - places))

/-- The magnitude `m * 2 ^ e` with a number of places. -/
def fixed (pointed : Bool) (places m : Nat) (e : Int) : List Char :=
  let (n, d) := Binary64.ratio m e
  setPoint pointed places (Decimal.digitChars (Binary64.nearest (n * Nat.pow 10 places) d))

/-- The significant digits of the magnitude `m * 2 ^ e`, `count` of them, and the
exponent of the first. -/
def significant (count m : Nat) (e : Int) : List Char × Int :=
  if m = 0 then (List.replicate count '0', 0)
  else
    let (n, d) := Binary64.ratio m e
    let leading := Decimal.magnitude n d
    let (a, b) := Decimal.onGrid n d (leading - count + 1)
    let digits := Decimal.digitChars (Binary64.nearest a b)
    if digits.length ≤ count then (digits, leading) else (digits.take count, leading + 1)

/-- The magnitude `m * 2 ^ e` with one digit before the point, a number of places
and an exponent. -/
def scientific (pointed : Bool) (places m : Nat) (e : Int) : List Char :=
  let (digits, leading) := significant (places + 1) m e
  digits.take 1 ++ fraction pointed (digits.drop 1) ++ 'e' :: Layout.exponentChars leading

/-- Digits without zeros at their end. -/
def withoutZeros (digits : List Char) : List Char :=
  (digits.reverse.dropWhile (· == '0')).reverse

/-- The magnitude `m * 2 ^ e` with a number of significant digits.  Zeros at the
end are left out, unless `pointed`. -/
def general (pointed : Bool) (count m : Nat) (e : Int) : List Char :=
  let count := max count 1
  let (digits, leading) := significant count m e
  if -4 ≤ leading ∧ leading < count then
    let before := (leading + 1).toNat
    let behind := List.replicate (-(leading + 1)).toNat '0' ++ digits.drop before
    (if before = 0 then ['0'] else digits.take before)
      ++ fraction pointed (if pointed then behind else withoutZeros behind)
  else
    let behind := digits.drop 1
    digits.take 1 ++ fraction pointed (if pointed then behind else withoutZeros behind)
      ++ 'e' :: Layout.exponentChars leading

end Automation.Places
