/-
Automation/Action/Assign.lean

The action that assigns values to names.

Settings give one name and value, or several: a list of entries, an object, or
the text of either.  A value that is the text of a list or of an object becomes
that list or object.
-/
import Automation.Action.Behaviour
import Automation.Json.Reader

namespace Automation.Action

/-- The text looks like a list or an object. -/
def looksStructured (cs : List Char) : Bool :=
  match cs.head?, cs.getLast? with
  | some a, some b =>
    (a == '[' && b == ']') || (a.toNat == 0x7B && b.toNat == 0x7D)
  | _, _ => false

/-- The list or object that a text stands for; any other value is left alone. -/
def parsed : Value → Except Fault Value
  | .text s =>
    let inner := Text.stripChars s.toList
    if looksStructured inner then
      (Json.dataOfChars? inner).map fun read => read.getD (.text s)
    else .ok (.text s)
  | v => .ok v

/-- A name as it is written, and the value for it. -/
abbrev Entry := Value × Value

/-- The entries among the elements of a list: those that are objects. -/
def listedEntries : List Value → List Entry
  | [] => []
  | v :: rest =>
    if v.entries?.isSome then (v.field "key", v.field "value") :: listedEntries rest
    else listedEntries rest

/-- The entries that settings stand for. -/
def entriesOf (config : Fields Value) : Except Fault (List Entry) :=
  match config.at "entries" with
  | .null =>
    let name :=
      ((config.at "variableName").orElse (config.at "key")).orElse (.text "value")
    .ok [(name, config.at "value")]
  | raw => do
    match ← parsed raw with
    | .object fs => .ok (fs.map fun (k, v) => (.text k, v))
    | .table es => .ok (es.map fun (k, v) => (.ofKey k, v))
    | .list items => .ok (listedEntries items)
    | _ => .error .entriesMalformed

/-- The name of an entry. -/
def nameOf (written : Value) : String := Text.strip (written.orElse (.text "")).shown

/-- Assigns entries one after another; `position` counts them. -/
def assignFrom (position : Nat) (acc : Fields Value) : List Entry → Except Fault (Fields Value)
  | [] => .ok acc
  | (written, value) :: rest =>
    let name := nameOf written
    if name.isEmpty then .error (.entryWithoutKey position)
    else match parsed value with
      | .ok v => assignFrom (position + 1) (acc.set name v) rest
      | .error fault => .error fault

/-- The names with the values that settings assign to them. -/
def assignments (config : Fields Value) : Except Fault (Fields Value) := do
  let entries ← entriesOf config
  if entries.isEmpty then .error .noEntries else assignFrom 1 [] entries

/-- The action that assigns values to names. -/
def assign : Behaviour := .plain fun config _ =>
  Activity.attempt (assignments config) fun updates =>
    .done (Fields.overlay updates [("variables", .object updates), ("success", .bool true)])

end Automation.Action
