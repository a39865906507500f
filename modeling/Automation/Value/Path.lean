/-
Automation/Value/Path.lean

Paths into a value.

A path is a list of segments between dots; a segment is a name, indices in
brackets, or a name followed by indices: `orders[0].lines.2.price`.  A name
selects a field of an object, and an element of a list if it is a whole number.
Negative indices count from the end.  What is not there is null, and so is all
that a malformed segment leads to.  Blank segments do not count.  An index of too
many digits is a fault, unless what it is to select from is not there already.
-/
import Automation.Fault

namespace Automation

open Automation.Text

/-- An index between brackets: its sign and its digits. -/
structure Index where
  negative : Bool
  digits : List Nat
  deriving DecidableEq, Repr

/-- The whole number of an index. -/
def Index.toInt (i : Index) : Except Fault Int :=
  match Numeral.whole i.negative i.digits with
  | .ok n => .ok n
  | .error _ => .error (.tooManyDigits i.digits.length)

/-- A name, possibly empty, and the indices after it. -/
structure Segment where
  name : String
  indices : List Index
  deriving DecidableEq, Repr

/-- Segments from the outside in; `none` is a malformed one. -/
abbrev Path := List (Option Segment)

namespace Segment

/-- The index between two brackets, and what follows them. -/
def index? (cs : List Char) : Option (Index × List Char) :=
  match cs with
  | '[' :: rest =>
    let (negative, rest) := match rest.dropWhile isBlank with
      | '-' :: more => (true, more)
      | more => (false, more)
    match Numeral.takeDigits rest with
    | ([], _) => none
    | (ds, rest) => match rest.dropWhile isBlank with
      | ']' :: rest => some (⟨negative, ds⟩, rest)
      | _ => none
  | _ => none

/-- Indices in brackets up to the end; `fuel` bounds their number. -/
def indices? : Nat → List Char → Option (List Index)
  | _, [] => some []
  | 0, _ :: _ => none
  | fuel + 1, c :: cs => match index? (c :: cs) with
    | some (i, rest) => (indices? fuel rest).map (i :: ·)
    | none => none

/-- A character of a name. -/
def isNameChar (c : Char) : Bool := c != '[' && c != ']'

/-- The segment that a list of characters is written as. -/
def ofChars? (cs : List Char) : Option Segment :=
  (indices? cs.length (cs.dropWhile isNameChar)).map fun is =>
    ⟨String.ofList (cs.takeWhile isNameChar), is⟩

end Segment

namespace Value

/-- An element of a list, counted from the end if the index is negative. -/
def element (v : Value) (i : Int) : Value :=
  match v with
  | .list items =>
    let place := if i < 0 then i + items.length else i
    if 0 ≤ place then (items[place.toNat]?).getD .null else .null
  | _ => .null

/-- What a name selects. -/
def member (v : Value) (name : String) : Value :=
  match v with
  | .object _ | .table _ => v.field name
  | .list _ => ((Numeral.int? name).map v.element).getD .null
  | _ => .null

/-- What indices select, one after another. -/
def elements (v : Value) : List Index → Except Fault Value
  | [] => .ok v
  | i :: rest => match i.toInt with
    | .ok n => (v.element n).elements rest
    | .error fault => .error fault

/-- What one segment selects. -/
def select (v : Value) (s : Segment) : Except Fault Value :=
  (if s.name.isEmpty then v else v.member s.name).elements s.indices

/-- What a path leads to. -/
def follow (v : Value) : Path → Except Fault Value
  | [] => .ok v
  | none :: _ => .ok .null
  | some s :: rest => match v.select s with
    | .error fault => .error fault
    | .ok .null => .ok .null
    | .ok w => w.follow rest

end Value

namespace Path

/-- The path that a text is written as. -/
def ofText (s : String) : Path :=
  let parts := (cut '.' s.toList).map stripChars
  (parts.filter fun p => !p.isEmpty).map Segment.ofChars?

end Path

/-- What a written path leads to. -/
def Value.at (v : Value) (path : String) : Except Fault Value := v.follow (Path.ofText path)

end Automation
