/-
Automation/Flow/Node.lean

Nodes and edges of a flow, as they are authored.

A field that may be left out is an `Option`: whether it was there is kept, so
that a flow is written back with exactly the fields it came with.  Fields
without a meaning here are kept as well.
-/
import Automation.Shape

namespace Automation

/-- Whether a failing node ends its branch or is recorded and passed over. -/
inductive FailurePolicy
  | stop
  | continue
  deriving DecidableEq, Repr

namespace FailurePolicy

def word : FailurePolicy → String
  | .stop => "stop"
  | .continue => "continue"

def read : Value → Checked FailurePolicy
  | .text "stop" => .ok .stop
  | .text "continue" => .ok .continue
  | _ => .defect .notAChoice

end FailurePolicy

/-- One action of a flow. -/
structure Node where
  id : String
  kind : String
  authoredLabel : Option String
  authoredConfig : Option (Fields Value)
  authoredPolicy : Option FailurePolicy
  position : Option (Option (Fields Value))
  others : Fields Value

namespace Node

def label (n : Node) : String := n.authoredLabel.getD ""

/-- The settings of the action, bindings unresolved. -/
def config (n : Node) : Fields Value := n.authoredConfig.getD []

def failurePolicy (n : Node) : FailurePolicy := n.authoredPolicy.getD .stop

/-- The node is where a run begins. -/
def isStart (n : Node) : Bool := n.kind == "start" || n.kind == "trigger"

/-- The node drives a loop. -/
def isLoop (n : Node) : Bool := n.kind == "loop" || n.kind == "for-each-loop"

/-- The node shapes the reply of the run. -/
def isResponse (n : Node) : Bool := n.kind == "response"

/-- The node is passed over; either the node or its settings may say so. -/
def isDisabled (n : Node) : Bool :=
  (n.others.at "disabled").isTruthy || (n.config.at "disabled").isTruthy

/-- What the node is called in the log. -/
def displayName (n : Node) : String := if n.label.isEmpty then n.id else n.label

def knownFields : List String := ["id", "kind", "label", "config", "failurePolicy", "position"]

/-- Reads a node. -/
def ofValue (v : Value) : Checked Node :=
  match v with
  | .object fs =>
    (Checked.ok Node.mk).app (Shape.required fs "id" Shape.text)
      |>.app (Shape.required fs "kind" Shape.text)
      |>.app (Shape.optional fs "label" Shape.text)
      |>.app (Shape.optional fs "config" Shape.fields)
      |>.app (Shape.optional fs "failurePolicy" FailurePolicy.read)
      |>.app (Shape.optional fs "position" (Shape.nullable Shape.fields))
      |>.app (.ok (Fields.eraseAll fs knownFields))
  | _ => .defect .notRecord

/-- The fields that the node came with: known ones in their own order, then the
others. -/
def toValue (n : Node) : Value :=
  let known : List (Option (String × Value)) :=
    [some ("id", .text n.id), some ("kind", .text n.kind),
      n.authoredLabel.map fun l => ("label", .text l),
      n.authoredConfig.map fun c => ("config", .object c),
      n.authoredPolicy.map fun p => ("failurePolicy", .text p.word),
      n.position.map fun p => ("position", (p.map .object).getD .null)]
  .object ((known.filterMap fun f => f) ++ n.others)

/-- The values of a node that have no meaning here. -/
def freeValues (n : Node) : List Value :=
  (n.config ++ (n.position.getD none).getD [] ++ n.others).map (·.2)

end Node

/-- A way from one node to another. -/
structure Edge where
  id : String
  source : String
  target : String
  authoredBranch : Option (Option String)
  others : Fields Value

namespace Edge

/-- The tag by which a condition or a loop chooses the edge. -/
def branch (e : Edge) : Option String := e.authoredBranch.getD none

/-- The edge has no tag. -/
def isUntagged (e : Edge) : Bool := e.branch == none || e.branch == some ""

def knownFields : List String := ["id", "source", "target", "branch"]

/-- Reads an edge. -/
def ofValue (v : Value) : Checked Edge :=
  match v with
  | .object fs =>
    (Checked.ok Edge.mk).app (Shape.required fs "id" Shape.text)
      |>.app (Shape.required fs "source" Shape.text)
      |>.app (Shape.required fs "target" Shape.text)
      |>.app (Shape.optional fs "branch" (Shape.nullable Shape.text))
      |>.app (.ok (Fields.eraseAll fs knownFields))
  | _ => .defect .notRecord

/-- The fields that the edge came with. -/
def toValue (e : Edge) : Value :=
  let known : List (Option (String × Value)) :=
    [some ("id", .text e.id), some ("source", .text e.source), some ("target", .text e.target),
      e.authoredBranch.map fun b => ("branch", (b.map .text).getD .null)]
  .object ((known.filterMap fun f => f) ++ e.others)

/-- The values of an edge that have no meaning here. -/
def freeValues (e : Edge) : List Value := e.others.map (·.2)

end Edge

end Automation
