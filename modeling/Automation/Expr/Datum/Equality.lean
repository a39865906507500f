/-
Automation/Expr/Datum/Equality.lean

Equality of values, and the keys of maps.

Not all values may be compared.  Given numbers, lists and maps are strict: such a
value is compared with its like only, on whichever side it stands; the lenient
values, among them all computed ones, just differ from one another where their
kinds differ.  What is said here of `==` is said of `!=` as well, up to the answer,
except that null differs from no list and no map: that cannot be told.

Lists are compared element by element.  One pair that cannot be compared does no
harm if some other pair decides; two of them before that do.
-/
import Automation.Expr.Datum

namespace Automation.Expr.Datum

/-! ### Equality of values without parts -/

/-- A lenient value is equal to an integer. -/
def equalsInt (d : Datum) (n : Int) : Option Bool :=
  match d with
  | .truth m => some (m == n)
  | .int _ m => some (m == n)
  | .double _ x => some (x.compareInt? n == some .eq)
  | _ => none

/-- A lenient value is equal to a floating-point number. -/
def equalsDouble (d : Datum) (o : Origin) (y : Binary64) : Option Bool :=
  match d, o with
  | .double _ x, _ => some (x.eqv y)
  | .truth m, .computed => some (y.compareInt? m == some .eq)
  | .int _ m, .computed => some (y.compareInt? m == some .eq)
  | _, _ => none

/-- A lenient value on the left is equal to a value without parts. -/
def lenientEqual? (a b : Datum) : Option Bool :=
  match a, b with
  | a, .int .unbounded n => some ((equalsInt a n).getD false)
  | a, .int _ n => equalsInt a n
  | a, .double .given y => equalsDouble a .given y
  | a, .double .computed y => some ((equalsDouble a .computed y).getD false)
  | a, .truth n => some ((equalsInt a n).getD false)
  | .null, .null => some true
  | .text _ s, .text _ t => some (s == t)
  | .bytes _ s, .bytes _ t => some (s == t)
  | .function f, .function g => some (f == g)
  | .failed f, .failed g => some (f == g)
  | .scope ms, .scope ns => some (ms.map (·.1) == ns.map (·.1))
  | _, _ => some false

/-- Two values are equal, unless both are lists or both are maps.  `same` tells
that equality is asked for, and not difference. -/
def plainEqual? (same : Bool) (a b : Datum) : Option Bool :=
  match a, b with
  | .int .signed m, .int w n => if w = .unsigned then none else some (m == n)
  | .int .unsigned m, .int w n => if w = .signed then none else some (m == n)
  | .int .signed _, _ => none
  | .int .unsigned _, _ => none
  | .double .given x, .double _ y => some (x.eqv y)
  | .double .given _, _ => none
  | .list .given _, .null => if same then some false else none
  | .list .given _, _ => none
  | .map _, .null => if same then some false else none
  | .map _, .scope _ => some false
  | .map _, _ => none
  | .null, .list .given _ => if same then some false else none
  | _, .list .given _ => none
  | .null, .map _ => if same then some false else none
  | .scope _, .map _ => some false
  | _, .map _ => none
  | a, b => lenientEqual? a b

/-! ### Keys -/

/-- The place of a key: only keys of one place are compared. -/
inductive Place
  | nothing
  | number (n : Int)
  | real (x : Binary64)
  | text (s : String)
  | bytes (bs : List UInt8)
  | function (name : String)
  deriving DecidableEq

/-- The place of a value as a key, if it may be one.  Whole numbers of all kinds
share their places, and what is empty shares that of zero. -/
def place? : Datum → Option Place
  | .null => some .nothing
  | .truth n => some (.number n)
  | .int _ n => some (.number n)
  | .double _ x => some <| match x.truncate? with
    | some n => if x.compareInt? n = some .eq then .number n else .real x
    | none => .real x
  | .text _ s => some (if s.isEmpty then .number 0 else .text s)
  | .bytes _ bs => some (if bs.isEmpty then .number 0 else .bytes bs)
  | .function name => some (.function name)
  | _ => none

/-- The value under a key, if there is one; nothing at all if that cannot be
told. -/
def findKey (key : Datum) : List (Datum × Datum) → Option (Option Datum)
  | [] => key.place?.map fun _ => none
  | (k, v) :: rest =>
    match key.place? with
    | none => none
    | some p =>
      if k.place? = some p then match plainEqual? true k key with
        | none => none
        | some true => some (some v)
        | some false => findKey key rest
      else findKey key rest

/-- The kinds of keys that a map is asked for. -/
def isKey : Datum → Bool
  | .truth _ => true
  | .int w _ => w != .unbounded
  | .text .. => true
  | _ => false

/-- All keys of some entries are keys of others. -/
def keysWithin? (others : List (Datum × Datum)) : List (Datum × Datum) → Option Bool
  | [] => some true
  | (k, _) :: rest => match findKey k others with
    | none => none
    | some none => some false
    | some (some _) => keysWithin? others rest

/-- Two maps have the same keys. -/
def sameKeys? (a b : List (Datum × Datum)) : Option Bool :=
  if a.length = b.length then keysWithin? b a else some false

/-! ### Equality -/

/-- What is known after one more pair of parts, given what was known before.
Nothing inside stands for one pair that could not be compared; a second one ends
the comparison.  A pair that differs decides. -/
def afterPart (same : Bool) (held part : Option Bool) : Option (Option Bool) :=
  if held = some !same then some held
  else match held, part with
    | none, none => none
    | none, some answer => some (if answer = same then none else part)
    | some _, _ => some part

mutual

/-- The answer to `a == b` or, unless `same`, to `a != b`; where `flipped`, to
`b == a` or `b != a`.  Nothing tells that the two cannot be compared. -/
def related? (same flipped : Bool) : Datum → Datum → Option Bool
  | .list o as, .list p bs =>
    let left := if flipped then p else o
    let right := if flipped then o else p
    if left = .computed ∧ right = .computed then
      if as.length = bs.length then inTurn? same flipped as bs else some !same
    else if as.length = bs.length then
      relatedItems? same (flipped != (left == .computed)) (some same) as bs
    else some !same
  | .map as, .map bs =>
    match if flipped then sameKeys? bs as else sameKeys? as bs with
    | none => none
    | some false => some !same
    | some true => relatedEntries? same flipped (some same) as bs
  | a, b =>
    (if flipped then plainEqual? same b a else plainEqual? same a b).map (· == same)
termination_by structural a _ => a

/-- The elements of given lists, all of which count. -/
def relatedItems? (same flipped : Bool) (held : Option Bool) :
    List Datum → List Datum → Option Bool
  | a :: as, b :: bs =>
    match afterPart same held (related? same flipped a b) with
    | none => none
    | some held => relatedItems? same flipped held as bs
  | _, _ => held
termination_by structural as _ => as

/-- The elements of computed lists, up to the first that decides. -/
def inTurn? (same flipped : Bool) : List Datum → List Datum → Option Bool
  | a :: as, b :: bs =>
    match related? true flipped a b with
    | none => none
    | some true => inTurn? same flipped as bs
    | some false => some !same
  | _, _ => some same
termination_by structural as _ => as

/-- The values under the same keys. -/
def relatedEntries? (same flipped : Bool) (held : Option Bool) :
    List (Datum × Datum) → List (Datum × Datum) → Option Bool
  | (k, a) :: rest, others =>
    if k.isKey then
      match findKey k others with
      | some (some b) =>
        match afterPart same held (related? same flipped a b) with
        | none => none
        | some held => relatedEntries? same flipped held rest others
      | _ => none
    else none
  | [], _ => held
termination_by structural entries _ => entries

end

/-- Two values are equal. -/
def equal? (a b : Datum) : Option Bool := related? true false a b

/-- Two values differ. -/
def differ? (a b : Datum) : Option Bool := related? false false a b

end Automation.Expr.Datum
