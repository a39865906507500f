/-
Automation/Expr/Datum.lean

The values of condition expressions.

They are those of flows and some more.  Integers have 64 bits, with a sign or
without one; only sums and the like of truth values have no bound.  A number, a
text or a list that was computed is told apart from one that was written or given:
it goes with values of more kinds.  A failure is a value too: operators spread it,
but it may be kept in a map, and conjunction, disjunction, choices and `has` do
without an operand that failed.
-/
import Automation.Value.Basic

namespace Automation.Expr

/-- What integers there are. -/
inductive Width
  /-- Integers of 64 bits, one of them for the sign. -/
  | signed
  /-- Natural numbers of 64 bits. -/
  | unsigned
  /-- Integers of any size; they come from computing with truth values. -/
  | unbounded
  deriving DecidableEq, Repr

/-- Where a value comes from. -/
inductive Origin
  /-- It was written, given from outside, or converted. -/
  | given
  /-- It is the result of an operation, or a part of a text. -/
  | computed
  deriving DecidableEq, Repr

/-- Why there is no proper value. -/
inductive Failure
  /-- Nothing has the name. -/
  | unbound (name : String)
  /-- A map has no such member. -/
  | noMember (name : String)
  /-- The value shown has no members with names. -/
  | noMembers (shown : String)
  /-- The operation is not defined for the operands shown. -/
  | unsuitable (operation : String) (operands : List String)
  /-- The divisor is zero. -/
  | zeroDivisor (operation : String)
  /-- A number does not fit, or a text is not what was asked for. -/
  | unfitting (what : String)
  deriving DecidableEq, Repr

/-- A value of an expression. -/
inductive Datum
  | null
  /-- A truth value.  It is a number: zero is false, every other number is true. -/
  | truth (n : Int)
  | int (w : Width) (n : Int)
  | double (o : Origin) (x : Binary64)
  | text (o : Origin) (s : String)
  | bytes (o : Origin) (bs : List UInt8)
  | list (o : Origin) (items : List Datum)
  | map (entries : List (Datum × Datum))
  /-- What the names that begin with one name stand for. -/
  | scope (members : List (String × Datum))
  /-- A function, or a kind of values, by its name. -/
  | function (name : String)
  | failed (f : Failure)
  deriving Inhabited

namespace Width

/-- The integers of a width. -/
def fits (w : Width) (n : Int) : Bool :=
  match w with
  | .signed => decide (-(Nat.pow 2 63 : Int) ≤ n) && decide (n < (Nat.pow 2 63 : Int))
  | .unsigned => decide (0 ≤ n) && decide (n < (Nat.pow 2 64 : Int))
  | .unbounded => true

end Width

namespace Datum

def ofBool (b : Bool) : Datum := .truth (if b then 1 else 0)

/-- An integer of a width, if it fits. -/
def fitted (w : Width) (n : Int) : Except Failure Datum :=
  if w.fits n then .ok (.int w n) else .error (.unfitting "overflow")

/-- A value, or the failure in its place. -/
def settle : Except Failure Datum → Datum
  | .ok d => d
  | .error f => .failed f

/-- A key of a flow as a value of an expression; nothing if it is an integer that
does not fit. -/
def ofKey? : Key → Option Datum
  | .null => some .null
  | .bool b => some (ofBool b)
  | .int n => if Width.signed.fits n then some (.int .signed n) else none
  | .float x => some (.double .given x)
  | .text s => some (.text .given s)

mutual

/-- A value of a flow as one of an expression; nothing if it holds an integer that
does not fit. -/
def ofValue? : Value → Option Datum
  | .null => some .null
  | .bool b => some (ofBool b)
  | .int n => if Width.signed.fits n then some (.int .signed n) else none
  | .float x => some (.double .given x)
  | .text s => some (.text .given s)
  | .list items => (ofItems? items).map (.list .given)
  | .object fields => (ofFields? fields).map .map
  | .table entries => (ofEntries? entries).map .map

def ofItems? : List Value → Option (List Datum)
  | [] => some []
  | v :: vs => match ofValue? v, ofItems? vs with
    | some d, some ds => some (d :: ds)
    | _, _ => none

def ofFields? : List (String × Value) → Option (List (Datum × Datum))
  | [] => some []
  | (k, v) :: fs => match ofValue? v, ofFields? fs with
    | some d, some ds => some ((.text .given k, d) :: ds)
    | _, _ => none

def ofEntries? : List (Key × Value) → Option (List (Datum × Datum))
  | [] => some []
  | (k, v) :: es => match ofKey? k, ofValue? v, ofEntries? es with
    | some l, some d, some ds => some ((l, d) :: ds)
    | _, _, _ => none

end

/-- The truth that a value is taken for. -/
def isTruthy : Datum → Bool
  | .null => false
  | .truth n => n != 0
  | .int _ n => n != 0
  | .double _ x => !x.isZero
  | .text _ s => !s.isEmpty
  | .bytes _ bs => !bs.isEmpty
  | .list _ items => !items.isEmpty
  | .map entries => !entries.isEmpty
  | .scope members => !members.isEmpty
  | .function _ => true
  | .failed _ => true

/-- The failure that a value is, if it is one. -/
def failure? : Datum → Option Failure
  | .failed f => some f
  | _ => none

/-- The first failure among some values. -/
def firstFailure? (ds : List Datum) : Option Failure := ds.findSome? failure?

/-- A truth value or an integer as the integer that it is. -/
def whole? : Datum → Option Int
  | .truth n => some n
  | .int _ n => some n
  | _ => none

/-- A floating-point number. -/
def real? : Datum → Option Binary64
  | .double _ x => some x
  | _ => none

/-! ### Logic -/

/-- Conjunction: a false truth value decides, and a true one leaves the other
side.  One of the sides has to be a truth value. -/
def and? (a b : Datum) : Option Datum :=
  match a, b with
  | .truth m, x => some (if m = 0 then .truth m else x)
  | x, .truth n => some (if n = 0 then .truth n else x)
  | _, _ => none

/-- Disjunction: a true truth value decides, and a false one leaves the other
side.  One of the sides has to be a truth value. -/
def or? (a b : Datum) : Option Datum :=
  match a, b with
  | .truth m, x => some (if m = 0 then x else .truth m)
  | x, .truth n => some (if n = 0 then x else .truth n)
  | _, _ => none

end Datum

end Automation.Expr
