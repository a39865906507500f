/-
Automation/Number/Decimal.lean

Decimal text of floating-point numbers.

`Decimal.shortest?` finds the fewest digits that read back as the number: on
each grid of one, two, ... seventeen digits it tries the two neighbours of the
number, takes one that reads back, of two the nearer, and on a tie the one with
an even last digit.  A `Layout` says how digits are set: which exponents are
written out in places, what a whole number ends with, how many digits an
exponent has, and the words for what is not finite.
-/
import Automation.Number.Binary64

namespace Automation

/-- The magnitude `digits * 10 ^ exponent`. -/
structure Decimal where
  digits : Nat
  exponent : Int
  deriving DecidableEq, Repr

namespace Decimal

/-- The digits of a natural number, most significant first. -/
def digitChars (n : Nat) : List Char := Nat.toDigits 10 n

/-- How many digits a natural number has. -/
def length (n : Nat) : Nat := (digitChars n).length

/-- The floating-point number nearest to a decimal.  An exponent far outside
the range of the format is not worked out: the answer is infinite or zero. -/
def toBinary64 (negative : Bool) (d : Decimal) : Binary64 :=
  let magnitude : Int := d.exponent + length d.digits
  if d.digits = 0 then .zero negative
  else if 400 < magnitude then .infinite negative
  else if magnitude < -400 then .zero negative
  else if 0 ≤ d.exponent then .ofRatio negative (d.digits * natPow 10 d.exponent) 1
  else .ofRatio negative d.digits (natPow 10 (-d.exponent))

/-- The exponent of the greatest power of ten that is at most `n / d`. -/
def magnitude (n d : Nat) : Int :=
  let guess : Int := (length n : Int) - length d
  let reached :=
    if 0 ≤ guess then decide (d * natPow 10 guess ≤ n) else decide (d ≤ n * natPow 10 (-guess))
  if reached then guess else guess - 1

/-- `n / (d * 10 ^ place)` as a quotient of natural numbers. -/
def onGrid (n d : Nat) (place : Int) : Nat × Nat :=
  if 0 ≤ place then (n, d * natPow 10 place) else (n * natPow 10 (-place), d)

/-- A neighbour of `n / d` with `count` digits that `accepts` takes: of two the
nearer, on a tie the even one. -/
def onGridOf? (accepts : Decimal → Bool) (n d count : Nat) : Option Decimal :=
  let place := magnitude n d - count + 1
  let (a, b) := onGrid n d place
  let below : Decimal := ⟨a / b, place⟩
  let above : Decimal := ⟨a / b + 1, place⟩
  match accepts below, accepts above with
  | true, true =>
    let rest := 2 * (a % b)
    if rest < b then some below
    else if b < rest then some above
    else if a / b % 2 = 0 then some below else some above
  | true, false => some below
  | false, true => some above
  | false, false => none

/-- The first of the grids from `count` digits on, `tries` of them, that has an
accepted neighbour of `n / d`. -/
def firstGrid? (accepts : Decimal → Bool) (n d : Nat) : Nat → Nat → Option Decimal
  | 0, _ => none
  | tries + 1, count =>
    match onGridOf? accepts n d count with
    | some x => some x
    | none => firstGrid? accepts n d tries (count + 1)

/-- A decimal without zeros at its end; `fuel` bounds their number. -/
def trim : Nat → Decimal → Decimal
  | 0, x => x
  | fuel + 1, x =>
    if x.digits ≠ 0 ∧ x.digits % 10 = 0 then trim fuel ⟨x.digits / 10, x.exponent + 1⟩ else x

/-- The exact decimal of `m * 2 ^ e`. -/
def exact (m : Nat) (e : Int) : Decimal :=
  if 0 ≤ e then ⟨m * natPow 2 e, 0⟩ else ⟨m * natPow 5 (-e), e⟩

/-- The shortest decimal that reads back as the magnitude of a finite number
that is not zero. -/
def shortest (m : Nat) (e : Int) : Decimal :=
  let (n, d) := Binary64.ratio m e
  let target := Binary64.ofParts false m e
  let found := firstGrid? (fun x => decide (x.toBinary64 false = target)) n d 17 1
  trim 17 (found.getD (exact m e))

/-- `n / d`, which is not zero, rounded to a number of significant digits; a
half goes to the even neighbour. -/
def rounded (n d count : Nat) : Decimal :=
  let place := magnitude n d - count + 1
  let (a, b) := onGrid n d place
  trim (count + 1) ⟨Binary64.nearest a b, place⟩

end Decimal

/-- How the digits of a number are set. -/
structure Layout where
  /-- The least decimal exponent that is written out in places. -/
  leastInPlaces : Int
  /-- The least decimal exponent above those that is not. -/
  tooLargeForPlaces : Int
  /-- What a whole number written in places ends with. -/
  wholeEnding : String
  /-- The word for what is not a number. -/
  nanWord : String
  /-- The word for infinity, without its sign. -/
  infinityWord : String

namespace Layout

/-- Numbers in running text. -/
def plain : Layout := ⟨-4, 16, ".0", "nan", "inf"⟩

/-- Numbers in structured text. -/
def structured : Layout := ⟨-4, 16, ".0", "NaN", "Infinity"⟩

/-- Numbers of six significant digits. -/
def brief : Layout := ⟨-4, 6, "", "nan", "inf"⟩

/-- An exponent with its sign and at least two digits. -/
def exponentChars (e : Int) : List Char :=
  let digits := Decimal.digitChars e.natAbs
  (if e < 0 then '-' else '+') :: (List.replicate (2 - digits.length) '0' ++ digits)

/-- The digits of a decimal that is not zero, in places or with an exponent. -/
def digitsChars (l : Layout) (x : Decimal) : List Char :=
  let digits := Decimal.digitChars x.digits
  let point : Int := x.exponent + digits.length
  let leading := point - 1
  if l.leastInPlaces ≤ leading ∧ leading < l.tooLargeForPlaces then
    if point ≤ 0 then '0' :: '.' :: (List.replicate (-point).toNat '0' ++ digits)
    else if digits.length ≤ point.toNat then
      digits ++ List.replicate (point.toNat - digits.length) '0' ++ l.wholeEnding.toList
    else digits.take point.toNat ++ '.' :: digits.drop point.toNat
  else
    match digits with
    | [] => []
    | [d] => d :: 'e' :: exponentChars leading
    | d :: rest => d :: '.' :: rest ++ 'e' :: exponentChars leading

/-- The text of a number whose finite magnitudes other than zero have the given
digits. -/
def textOf (l : Layout) (digitsOf : Nat → Int → Decimal) : Binary64 → List Char
  | .nan => l.nanWord.toList
  | .infinite negative => (if negative then ['-'] else []) ++ l.infinityWord.toList
  | .finite negative m e _ =>
    (if negative then ['-'] else []) ++
      if m = 0 then '0' :: l.wholeEnding.toList else l.digitsChars (digitsOf m e)

/-- The shortest text that reads back as the number. -/
def text (l : Layout) (x : Binary64) : List Char := l.textOf Decimal.shortest x

end Layout

namespace Binary64

/-- The number in running text, by the fewest digits that read back. -/
def toText (x : Binary64) : String := String.ofList (Layout.plain.text x)

/-- The number rounded to six significant digits. -/
def toBriefText (x : Binary64) : String :=
  String.ofList <| Layout.brief.textOf
    (fun m e => let (n, d) := ratio m e; Decimal.rounded n d 6) x

end Binary64

end Automation
