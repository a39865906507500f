/-
Automation/Expr/Datum/Parts.lean

What values are made of.

One goes through the elements of a list, the keys of a map, the characters of a
text, the bytes of bytes and the names of a scope.  What is taken out of a text or
of bytes counts as computed.
-/
import Automation.Expr.Datum.Equality
import Automation.Expr.Datum.Shown
import Automation.Text.Search

namespace Automation.Expr.Datum

/-- A text cut into its characters. -/
def characters (s : String) : List Datum :=
  s.toList.map fun c => .text .computed (String.singleton c)

/-- A byte taken out of others. -/
def ofByte (b : UInt8) : Datum := .int .unbounded b.toNat

/-- The values that one goes through. -/
def members? : Datum → Option (List Datum)
  | .list _ items => some items
  | .map entries => some (entries.map (·.1))
  | .text _ s => some (characters s)
  | .bytes _ bs => some (bs.map ofByte)
  | .scope members => some (members.map fun m => .text .computed m.1)
  | _ => none

/-- Some value on the left is equal to the item; a pair that cannot be compared
counts only if there is none. -/
def anyEqual? (item : Datum) : List Datum → Option Bool
  | [] => some false
  | d :: ds => match equal? d item with
    | some true => some true
    | some false => anyEqual? item ds
    | none => match anyEqual? item ds with
      | some true => some true
      | _ => none

/-- Some value on the left is equal to the item, all values before it being
comparable with the item. -/
def firstEqual? (item : Datum) : List Datum → Option Bool
  | [] => some false
  | d :: ds => (equal? d item).bind fun found => if found then some true else firstEqual? item ds

/-- A truth value, or the failure of an operation. -/
def answer (operation : String) (operands : List Datum) (b : Option Bool) : Except Failure Datum :=
  match b with
  | some b => .ok (ofBool b)
  | none => .error (unsuited operation operands)

/-- An item is among the values that one goes through in a container. -/
def isIn (item container : Datum) : Except Failure Datum :=
  answer "_in_" [item, container] (container.members?.bind (anyEqual? item))

/-- Some bytes occur in others. -/
def bytesWithin (part : List UInt8) : List UInt8 → Bool
  | [] => part.isEmpty
  | b :: rest => part.isPrefixOf (b :: rest) || bytesWithin part rest

/-- A given container has an item: a list an element, a map a key, a text or bytes
a part. -/
def contains? : Datum → Datum → Option Bool
  | .list .given items, item => firstEqual? item items
  | .map entries, key => (findKey key entries).map Option.isSome
  | .text .given s, .text _ t => some (Text.contains s t)
  | .bytes .given s, .bytes _ t => some (bytesWithin t s)
  | _, _ => none

/-- How many characters, elements or entries there are; none in null. -/
def size? : Datum → Option Nat
  | .null => some 0
  | .text _ s => some s.length
  | .bytes _ bs => some bs.length
  | .list _ items => some items.length
  | .map entries => some entries.length
  | .scope members => some members.length
  | _ => none

/-- The part at an index, counted from the end if it is negative. -/
def element (items : List Datum) (i : Int) : Except Failure Datum :=
  let place := if i < 0 then i + items.length else i
  let found := if 0 ≤ place then items[place.toNat]? else none
  match found with
  | some d => .ok d
  | none => .error (.unfitting "index")

/-- The part under an index or a key. -/
def part (d i : Datum) : Except Failure Datum :=
  let none := Except.error (unsuited "_[_]" [d, i])
  match d with
  | .map entries =>
    if i.isKey then match findKey i entries with
      | some (some v) => .ok v
      | some .none => .error (.unfitting "key")
      | .none => none
    else none
  | .scope _ => none
  | d => match d.members?, i.whole? with
    | some items, some n => element items n
    | _, _ => none

/-- The member of a name. -/
def select (d : Datum) (name : String) : Except Failure Datum :=
  match d with
  | .map entries => match findKey (.text .computed name) entries with
    | some (some v) => .ok v
    | _ => .error (.noMember name)
  | .scope members => match members.lookup name with
    | some v => .ok v
    | none => .error (.noMember name)
  | .failed f => .error f
  | d => .error (.noMembers d.inspect)

/-- A map of entries; a failure if a key may not be one or comes twice. -/
def ofEntries (entries : List (Datum × Datum)) : Except Failure Datum :=
  go [] entries
where
  /-- Adds entries to those before them, of which the last one is the first. -/
  go (done : List (Datum × Datum)) : List (Datum × Datum) → Except Failure Datum
    | [] => .ok (.map done.reverse)
    | (k, v) :: rest => match findKey k done.reverse with
      | some none => go ((k, v) :: done) rest
      | some (some _) => .error (.unfitting "key")
      | none => .error (unsuited "map" [k])

end Automation.Expr.Datum
