/-
Automation/Action/Entry.lean

The action at which a run begins: its result is what set the run off, laid over
the static defaults of the node.

The defaults are an object, or a list of pairs that stand for one.  The keys of
pairs need not be texts.
-/
import Automation.Action.Behaviour

namespace Automation.Action

/-- A value that can be a key. -/
def keyOf : Value → Except Fault Key
  | .null => .ok .null
  | .bool b => .ok (.bool b)
  | .int n => .ok (.int n)
  | .float x => .ok (.float x)
  | .text s => .ok (.text s)
  | v => .error (.noKey v.kindName)

/-- The parts of a value; what is neither a list, an object nor a text has none. -/
def parts? : Value → Option (List Value)
  | .list vs => some vs
  | .object fs => some (fs.map fun f => .text f.1)
  | .table es => some (es.map fun e => .ofKey e.1)
  | .text s => some (s.toList.map fun c => .text (String.singleton c))
  | _ => none

/-- A key and a value, written as anything with two parts, at a position of a
list. -/
def pairOf (position : Nat) (v : Value) : Except Fault (Key × Value) :=
  match parts? v with
  | some [k, v] => (keyOf k).map fun key => (key, v)
  | some parts => .error (.unpaired position parts.length)
  | none => .error (.indivisible position)

/-- The entries that pairs stand for. -/
def entriesOfPairs (items : List Value) : Except Fault (Entries Value) :=
  (items.zipIdx.mapM fun (v, i) => pairOf i v).map Entries.ofPairs

/-- The entries that a value stands for: none if it is empty. -/
def defaultsOf (v : Value) : Except Fault (Entries Value) :=
  if v.isTruthy then match v.entries?, parts? v with
    | some entries, _ => .ok entries
    | none, some items => entriesOfPairs items
    | none, none => .error (.noElements v.kindName)
  else .ok []

/-- The result of a start node. -/
def entryResult (defaults : Entries Value) (payload : Value) : Value :=
  let given := payload.entries?.getD []
  .ofEntries <| Entries.overlay (Entries.overlay defaults given)
    [(.text "payload", payload), (.text "success", .bool true)]

/-- The action at which a run begins. -/
def entrance : Behaviour := .plain fun config view =>
  Activity.attempt (defaultsOf (config.at "defaults")) fun defaults =>
    .finish (.ok (entryResult defaults view.occasion.payload))

end Automation.Action
