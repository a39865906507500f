/-
Automation/Shape.lean

Reading values whose shape is prescribed.

A reader turns a value into something typed, or lists every part of it that has
the wrong shape, each with the path to it.  Readers combine without stopping at
the first error: the errors of the parts come in the order of the parts.
-/
import Automation.Value.Basic

namespace Automation

/-- A step on the way to a part of a value. -/
inductive Step
  | field (name : String)
  | index (i : Nat)
  deriving DecidableEq, Repr

/-- What can be wrong with a part of a value. -/
inductive Defect
  | missing
  | notText
  | notBoolean
  | unreadableBoolean
  | notFields
  | notList
  | notRecord
  | notAChoice
  | notALiteral
  | unreadable
  deriving DecidableEq, Repr

/-- A defect and where it is. -/
structure ShapeError where
  place : List Step
  defect : Defect
  deriving DecidableEq, Repr

/-- Something read from a value, or all that is wrong with the value. -/
inductive Checked (α : Type u)
  | ok (result : α)
  | bad (errors : List ShapeError)

namespace Checked

/-- One defect at the value itself. -/
def defect (d : Defect) : Checked α := .bad [⟨[], d⟩]

def map (f : α → β) : Checked α → Checked β
  | .ok a => .ok (f a)
  | .bad es => .bad es

/-- Applies what was read to what was read; errors of both add up. -/
def app (f : Checked (α → β)) (a : Checked α) : Checked β :=
  match f, a with
  | .ok f, .ok a => .ok (f a)
  | .ok _, .bad es => .bad es
  | .bad es, .ok _ => .bad es
  | .bad es, .bad fs => .bad (es ++ fs)

/-- The same reading, told from further outside. -/
def under (s : Step) : Checked α → Checked α
  | .ok a => .ok a
  | .bad es => .bad (es.map fun e => { e with place := s :: e.place })

/-- Reads the elements of a list, numbered from `start`. -/
def eachFrom (read : Value → Checked α) (start : Nat) : List Value → Checked (List α)
  | [] => .ok []
  | v :: vs => ((under (.index start) (read v)).map List.cons).app (eachFrom read (start + 1) vs)

end Checked

namespace Shape

/-- Any value. -/
def any (v : Value) : Checked Value := .ok v

def text : Value → Checked String
  | .text s => .ok s
  | _ => .defect .notText

def fields : Value → Checked (Fields Value)
  | .object fs => .ok fs
  | _ => .defect .notFields

/-- Words that are read as false. -/
def falseWords : List String := ["0", "off", "f", "false", "n", "no"]

/-- Words that are read as true. -/
def trueWords : List String := ["1", "on", "t", "true", "y", "yes"]

/-- An integer that fits 64 bits with a sign. -/
def fitsWord (n : Int) : Bool := decide (-(Nat.pow 2 63 : Int) ≤ n ∧ n < (Nat.pow 2 63 : Int))

/-- A number read as a boolean; `fits` tells that it is an integer of the usual
size. -/
def booleanOfInt (fits : Bool) (n : Int) : Checked Bool :=
  if !fits then .defect .notBoolean
  else if n = 0 then .ok false
  else if n = 1 then .ok true
  else .defect .unreadableBoolean

/-- The integer that a floating-point number is, if its magnitude is of the usual
size. -/
def wholeFloat? (x : Binary64) : Option Int := do
  let n ← x.truncate?
  if x.compareInt? n = some .eq ∧ n.natAbs < Nat.pow 2 63 then some n else none

/-- A boolean, or one of the numbers and words that stand for one. -/
def boolean : Value → Checked Bool
  | .bool b => .ok b
  | .int n => booleanOfInt (fitsWord n) n
  | .float x => match wholeFloat? x with
    | some n => booleanOfInt true n
    | none => .defect .notBoolean
  | .text s =>
    let low := String.ofList (s.toList.map Char.toLower)
    if falseWords.contains low then .ok false
    else if trueWords.contains low then .ok true
    else .defect .unreadableBoolean
  | _ => .defect .notBoolean

/-- Null, or what another reader takes. -/
def nullable (read : Value → Checked α) : Value → Checked (Option α)
  | .null => .ok none
  | v => (read v).map some

/-- A list whose elements another reader takes. -/
def list (read : Value → Checked α) : Value → Checked (List α)
  | .list vs => Checked.eachFrom read 0 vs
  | _ => .defect .notList

/-- The fields of a record. -/
def record : Value → Checked (Fields Value)
  | .object fs => .ok fs
  | _ => .defect .notRecord

/-- A field that has to be there. -/
def required (fs : Fields Value) (key : String) (read : Value → Checked α) : Checked α :=
  (match fs.get? key with
    | some v => read v
    | none => .defect .missing).under (.field key)

/-- A field that may be absent. -/
def optional (fs : Fields Value) (key : String) (read : Value → Checked α) :
    Checked (Option α) :=
  match fs.get? key with
  | some v => ((read v).map some).under (.field key)
  | none => .ok none

/-- A field that has a value of its own when it is absent. -/
def defaulted (fs : Fields Value) (key : String) (default : α) (read : Value → Checked α) :
    Checked α :=
  (optional fs key read).map fun found => found.getD default

end Shape

end Automation
