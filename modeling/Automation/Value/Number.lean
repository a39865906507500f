/-
Automation/Value/Number.lean

Values taken as numbers.

Two conversions are strict: `toFloat` and `toInt` take numbers, booleans and
written numbers, and say why they cannot.  `numeric?` is lenient and narrower:
booleans, null and text that is no number are just not numeric, and neither is
the written NaN.
-/
import Automation.Fault
import Automation.Number.Numeral

namespace Automation.Value

/-- An integer as a floating-point number. -/
def floatOfInt (n : Int) : Except Fault Binary64 :=
  match Binary64.ofInt? n with
  | some x => .ok x
  | none => .error .integerTooLarge

/-- A floating-point number cut to an integer, in the direction of zero. -/
def intOfFloat (x : Binary64) : Except Fault Int :=
  match x.truncate? with
  | some n => .ok n
  | none => .error (if x.isNaN then .nanInteger else .infiniteInteger)

/-- A value as a floating-point number. -/
def toFloat : Value → Except Fault Binary64
  | .bool b => .ok (.ofInt (if b then 1 else 0))
  | .int n => floatOfInt n
  | .float x => .ok x
  | .text s => match Numeral.float? s with
    | some x => .ok x
    | none => .error (.unreadableFloat s)
  | v => .error (.noFloat v.kindName)

/-- A text as an integer. -/
def intOfText (s : String) : Except Fault Int :=
  match Numeral.readInt s with
  | .ok n => .ok n
  | .error why => .error ((Fault.ofUnreadable? why).getD (.unreadableInteger s))

/-- A value as an integer. -/
def toInt : Value → Except Fault Int
  | .bool b => .ok (if b then 1 else 0)
  | .int n => .ok n
  | .float x => intOfFloat x
  | .text s => intOfText s
  | v => .error (.noInteger v.kindName)

/-- A value as an integer, or a default where it cannot be read as one.  An
infinite number is neither. -/
def toIntOr (default : Int) (v : Value) : Except Fault Int :=
  match v.toInt with
  | .ok n => .ok n
  | .error .infiniteInteger => .error .infiniteInteger
  | .error _ => .ok default

/-- A value as a number to compare, if it is numeric. -/
def numeric? : Value → Except Fault (Option Binary64)
  | .int n => (floatOfInt n).map some
  | .float x => .ok (some x)
  | .text s => .ok <| match Numeral.float? (Text.strip s) with
    | some x => if x.isNaN then none else some x
    | none => none
  | _ => .ok none

end Automation.Value
