/-
Automation/Number/Numeral.lean

Numbers written by people, in text.

White space at the ends does not count (the separators U+001C to U+001F are no
white space here); the decimal digits of every script are digits; a single low
line may stand between two digits.  A whole number is a sign and digits, of which
there may not be too many.  A number is a sign followed by digits with an optional
point and exponent, or by a word for infinity or for what is not a number.
-/
import Automation.Text.Blank
import Automation.Text.Digit
import Automation.Text.Case
import Automation.Number.Decimal

namespace Automation

/-- Why a text cannot be read. -/
inductive Unreadable
  | malformed
  /-- It has a whole number of so many digits. -/
  | tooManyDigits (count : Nat)
  /-- It is nested too deeply; the innermost part read is an object, or a list. -/
  | tooNested (inObject : Bool)
  deriving DecidableEq, Repr

namespace Numeral

open Automation.Text

/-- The most digits that a whole number is written with. -/
def digitLimit : Nat := 4300

/-- White space around a numeral. -/
def isMargin (c : Char) : Bool :=
  isBlank c && !(decide (0x1C ≤ c.toNat) && decide (c.toNat ≤ 0x1F))

/-- An optional sign in front; true for a minus. -/
def takeSign : List Char → Bool × List Char
  | '-' :: rest => (true, rest)
  | '+' :: rest => (false, rest)
  | cs => (false, cs)

/-- The digits at the front of a list, their values, and the rest. -/
def takeDigits : List Char → List Nat × List Char
  | [] => ([], [])
  | c :: rest => match digit? c with
    | some d => let (ds, left) := takeDigits rest; (d :: ds, left)
    | none => ([], c :: rest)

/-- The number that digits stand for, most significant first. -/
def valueOf (ds : List Nat) : Nat := ds.foldl (fun n d => 10 * n + d) 0

/-- Drops the low lines that stand between two digits; any other low line makes
the text unreadable.  `afterDigit` tells that a digit precedes. -/
def dropSeparators (afterDigit : Bool) : List Char → Option (List Char)
  | [] => some []
  | '_' :: c :: rest =>
    if afterDigit && isDigit c then (dropSeparators true rest).map (c :: ·) else none
  | c :: rest => if c = '_' then none else (dropSeparators (isDigit c) rest).map (c :: ·)

/-- The whole number of a sign and a value. -/
def signed (negative : Bool) (value : Nat) : Int := if negative then -(value : Int) else value

/-- The whole number of a sign and digits, unless they are too many; zeros in
front count. -/
def whole (negative : Bool) (ds : List Nat) : Except Unreadable Int :=
  if ds.length ≤ digitLimit then .ok (signed negative (valueOf ds))
  else .error (.tooManyDigits ds.length)

/-- The whole number that a text is written as, or why it cannot be read. -/
def readInt (s : String) : Except Unreadable Int :=
  match dropSeparators false (stripWhile isMargin s.toList) with
  | none => .error .malformed
  | some cs =>
    let (negative, rest) := takeSign cs
    match takeDigits rest with
    | ([], _) => .error .malformed
    | (ds, left) => match whole negative ds, left with
      | .ok _, _ :: _ => .error .malformed
      | result, _ => result

/-- The whole number that a text is written as. -/
def int? (s : String) : Option Int := (readInt s).toOption

/-- An exponent part; nothing at all is the exponent zero. -/
def exponent? : List Char → Option Int
  | [] => some 0
  | c :: rest =>
    if c = 'e' ∨ c = 'E' then
      let (negative, digits) := takeSign rest
      match takeDigits digits with
      | ([], _) => none
      | (ds, []) => some (signed negative (valueOf ds))
      | (_, _ :: _) => none
    else none

/-- Digits with an optional point and exponent. -/
def decimal? (cs : List Char) : Option Decimal :=
  let (whole, rest) := takeDigits cs
  let (fraction, rest) := match rest with
    | '.' :: more => takeDigits more
    | _ => ([], rest)
  if whole.isEmpty && fraction.isEmpty then none
  else (exponent? rest).map fun e => ⟨valueOf (whole ++ fraction), e - fraction.length⟩

/-- The words for numbers that are not finite, in any case. -/
def word? (negative : Bool) (cs : List Char) : Option Binary64 :=
  let low := String.ofList (cs.map Char.toLower)
  if low = "inf" ∨ low = "infinity" then some (.infinite negative)
  else if low = "nan" then some .nan
  else none

/-- The number that a text is written as. -/
def float? (s : String) : Option Binary64 := do
  let cs ← dropSeparators false (stripWhile isMargin s.toList)
  let (negative, rest) := takeSign cs
  match decimal? rest with
  | some d => some (d.toBinary64 negative)
  | none => word? negative rest

end Numeral

end Automation
