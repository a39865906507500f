/-
Automation/Expr/Datum/Arithmetic.lean

Order and arithmetic.

The left side has most to say.  A given integer goes with integers, and keeps its
width; a truth value counts as a number and yields integers of any size; a
floating-point number goes with all numbers, and what comes out is computed.
Division and remainder have rules of their own for integers, given floating-point
numbers and computed ones.
-/
import Automation.Expr.Datum.Equality
import Automation.Expr.Datum.Shown
import Automation.Expr.Directive

namespace Automation.Expr.Datum

/-! ### Order -/

/-- Integers of these widths can be put in order, the first on the left. -/
def ordered (v w : Width) : Bool := v == w || v == .unbounded || w == .unbounded

/-- The order of two values, if their kinds have one; `none` inside is that of a
NaN. -/
def order? (a b : Datum) : Option (Option Ordering) :=
  match a, b with
  | .int v m, .int w n => if ordered v w then some (some (compare m n)) else none
  | .int .signed _, _ => none
  | .int .unsigned _, _ => none
  | .text _ s, .text _ t => some (some (if s < t then .lt else if s = t then .eq else .gt))
  | .bytes _ s, .bytes _ t => some (some (compareOfLessAndEq s t))
  | _, _ => match a.real?, a.whole?, b.real?, b.whole? with
    | some x, _, some y, _ => some (x.compare? y)
    | some x, _, _, some n => some (x.compareInt? n)
    | _, some m, some y, _ => some ((y.compareInt? m).map Ordering.swap)
    | _, some m, _, some n => some (some (compare m n))
    | _, _, _, _ => none

/-- A relation that is said of orders. -/
def compared (name : String) (accepts : Ordering → Bool) (a b : Datum) :
    Except Failure Datum :=
  match order? a b with
  | some o => .ok (ofBool ((o.map accepts).getD false))
  | none => .error (unsuited name [a, b])

/-! ### Sums, differences and products -/

/-- The width of what is computed from two integers or truth values. -/
def resultWidth : Datum → Datum → Width
  | .int .unbounded _, .int w _ => w
  | .int w _, _ => w
  | _, _ => .unbounded

/-- An integer as a floating-point number. -/
def asReal (n : Int) : Except Failure Binary64 :=
  match Binary64.ofInt? n with
  | some x => .ok x
  | none => .error (.unfitting "overflow")

/-- The left side is a given integer. -/
def isGivenInt : Datum → Bool
  | .int w _ => w != .unbounded
  | _ => false

/-- An operation on numbers. -/
def mixed (name : String) (whole : Int → Int → Int) (real : Binary64 → Binary64 → Binary64)
    (a b : Datum) : Except Failure Datum :=
  match a.real?, a.whole?, b.real?, b.whole? with
  | some x, _, some y, _ => .ok (.double .computed (real x y))
  | some x, _, _, some n => (asReal n).map fun y => .double .computed (real x y)
  | _, some m, some y, _ =>
    if a.isGivenInt then .error (unsuited name [a, b])
    else (asReal m).map fun x => .double .computed (real x y)
  | _, some m, _, some n => fitted (resultWidth a b) (whole m n)
  | _, _, _, _ => .error (unsuited name [a, b])

/-- Sum of numbers; texts, bytes and lists are joined. -/
def add (a b : Datum) : Except Failure Datum :=
  match a, b with
  | .text _ s, .text _ t => .ok (.text .computed (s ++ t))
  | .bytes _ s, .bytes _ t => .ok (.bytes .computed (s ++ t))
  | .list _ as, .list _ bs => .ok (.list .computed (as ++ bs))
  | a, b => mixed "_+_" (· + ·) Binary64.add a b

def sub (a b : Datum) : Except Failure Datum := mixed "_-_" (· - ·) Binary64.sub a b

/-- How often something is repeated: a truth value or a computed integer says
so. -/
def count? : Datum → Option Nat
  | .truth n => some n.toNat
  | .int .unbounded n => some n.toNat
  | _ => none

/-- The most parts that a repetition may have. -/
def longest : Nat := Nat.pow 2 26

/-- A list repeated. -/
def repeated (n : Nat) (xs : List α) : Except Failure (List α) :=
  if n * xs.length ≤ longest then .ok (List.replicate (if xs.isEmpty then 0 else n) xs).flatten
  else .error (.unfitting "memory")

/-- What has parts, repeated. -/
def repeat? (n : Nat) : Datum → Option (Except Failure Datum)
  | .text _ s => some ((repeated n s.toList).map fun cs => .text .computed (String.ofList cs))
  | .bytes _ bs => some ((repeated n bs).map (.bytes .computed))
  | .list _ items => some ((repeated n items).map (.list .computed))
  | _ => none

/-- Product of numbers; texts, bytes and lists are repeated. -/
def mul (a b : Datum) : Except Failure Datum :=
  let repetition := match a.count?, b.count? with
    | _, some n => repeat? n a
    | some n, _ => repeat? n b
    | _, _ => none
  match repetition with
  | some result => result
  | none => mixed "_*_" (· * ·) Binary64.mul a b

/-! ### Quotients -/

/-- A quotient that is a given number: over zero it is infinite. -/
def overGiven (x y : Binary64) : Datum :=
  .double .given (if y.isZero then .infinite false else x.div y)

/-- A quotient that is a computed number; zero is no divisor. -/
def overComputed (x y : Binary64) : Except Failure Datum :=
  if y.isZero then .error (.zeroDivisor "float") else .ok (.double .computed (x.div y))

/-- Integers divided in the direction of zero. -/
def truncated (w : Width) (m n : Int) : Except Failure Datum :=
  if n = 0 then .error (.zeroDivisor "quotient") else fitted w (m.tdiv n)

/-- Integers divided downwards. -/
def floored (w : Width) (m n : Int) : Except Failure Datum :=
  if n = 0 then .error (.zeroDivisor "quotient") else fitted w (m.fdiv n)

/-- A given integer divided by a floating-point number, in the direction of
zero. -/
def intOver (n : Int) (y : Binary64) : Except Failure Datum :=
  if y.isZero then .error (.zeroDivisor "quotient")
  else
    let negative := decide (n < 0) != y.lt (.zero false)
    match (Binary64.ofInt n).floorQuotient? y with
    | some q => fitted .signed (if negative then -q else q)
    | none => .error (.unfitting "whole number")

/-- A quotient of integers or truth values, the first of which is no given
integer. -/
def wholeOver (m n : Int) : Except Failure Datum :=
  if n = 0 then .error (.zeroDivisor "float")
  else do .ok (.double .computed ((← asReal m).div (← asReal n)))

/-- A quotient.  Given integers are divided in the direction of zero, natural ones
downwards.  A given floating-point number is not divided by given integers.
Whatever has no quotient of its own is infinite over a given zero. -/
def div (a b : Datum) : Except Failure Datum :=
  let none := Except.error (unsuited "_/_" [a, b])
  match a, b with
  | .failed f, _ => .error f
  | .int .signed m, .double _ y => intOver m y
  | .int .signed _, .int .unsigned _ => none
  | .int .signed m, .int _ n => truncated .signed m n
  | .int .signed m, .truth n => truncated .signed m n
  | .int .unsigned m, .int _ n => floored .unsigned m n
  | .int .unsigned m, .truth n => floored .unsigned m n
  | .int .signed _, _ => none
  | .int .unsigned _, _ => none
  | .int .unbounded m, .int .signed n => truncated .signed m n
  | .int .unbounded m, .int .unsigned n => floored .unsigned m n
  | .double .given x, .double _ y => .ok (overGiven x y)
  | .double .given x, .truth n => (asReal n).map (overGiven x)
  | .double .given x, .int .unbounded n => (asReal n).map (overGiven x)
  | .double .given _, _ => none
  | a, .double .given y => match a.real?, a.whole? with
    | some x, _ => .ok (overGiven x y)
    | _, some m => (asReal m).map (overGiven · y)
    | _, _ => if y.isZero then .ok (.double .given (.infinite false)) else none
  | a, b => match a.real?, a.whole?, b.real?, b.whole? with
    | some x, _, some y, _ => overComputed x y
    | some x, _, _, some n => (asReal n).bind (overComputed x)
    | _, some m, some y, _ => (asReal m).bind (overComputed · y)
    | _, some m, _, some n => wholeOver m n
    | _, _, _, _ => none

/-! ### Remainders -/

/-- A remainder with the sign of the dividend. -/
def truncatedRem (w : Width) (m n : Int) : Except Failure Datum :=
  if n = 0 then .error (.zeroDivisor "remainder") else fitted w (m.tmod n)

/-- A remainder with the sign of the divisor. -/
def flooredRem (w : Width) (m n : Int) : Except Failure Datum :=
  if n = 0 then .error (.zeroDivisor "remainder") else fitted w (m.fmod n)

/-- The remainder of a given integer and a floating-point number, cut to an
integer. -/
def intRem (m : Int) (y : Binary64) : Except Failure Datum :=
  if y.isZero then .error (.zeroDivisor "remainder")
  else
    match ((Binary64.ofInt m.natAbs).floorMod y.magnitude).truncate? with
    | some r => fitted .signed (if m < 0 then -r else r)
    | none => .error (.unfitting "whole number")

/-- The remainder of computed floating-point numbers, with the sign of the
divisor. -/
def realRem (x y : Binary64) : Except Failure Datum :=
  if y.isZero then .error (.zeroDivisor "float") else .ok (.double .computed (x.floorMod y))

/-- The remainder.  That of given integers has the sign of the dividend, that of
computed numbers the sign of the divisor; given floating-point numbers have none.
What stands behind a text is set into it. -/
def rem (a b : Datum) : Except Failure Datum :=
  let none := Except.error (unsuited "_%_" [a, b])
  match a, b with
  | .failed f, _ => .error f
  | .text _ s, d => (Directive.fill s d).map (.text .computed)
  | .int .signed m, .double _ y => intRem m y
  | .int .signed m, .int _ n => truncatedRem .signed m n
  | .int .signed m, .truth n => truncatedRem .signed m n
  | .int .unsigned m, .int _ n => flooredRem .unsigned m n
  | .int .unsigned m, .truth n => flooredRem .unsigned m n
  | .int .signed _, _ => none
  | .int .unsigned _, _ => none
  | .int .unbounded m, .int .signed n => truncatedRem .signed m n
  | .double .given _, _ => none
  | _, .double .given _ => none
  | a, b => match a.real?, a.whole?, b.real?, b.whole? with
    | some x, _, some y, _ => realRem x y
    | some x, _, _, some n => (asReal n).bind (realRem x)
    | _, some m, some y, _ => (asReal m).bind (realRem · y)
    | _, some m, _, some n => flooredRem (resultWidth a b) m n
    | _, _, _, _ => none

/-! ### One operand -/

def neg (d : Datum) : Except Failure Datum :=
  match d with
  | .int .signed n => fitted .signed (-n)
  | .int .unbounded n => .ok (.int .unbounded (-n))
  | .double o x => .ok (.double o x.neg)
  | .failed f => .error f
  | d => .error (unsuited "-_" [d])

def not (d : Datum) : Except Failure Datum :=
  match d with
  | .truth n => .ok (ofBool (n == 0))
  | .failed f => .error f
  | d => .error (unsuited "!_" [d])

end Automation.Expr.Datum
