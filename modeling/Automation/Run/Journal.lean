/-
Automation/Run/Journal.lean

The record of a run.

A journal is the list of all that happened in a run, latest first.  Everything
that is reported about the run (results, errors, states, log lines, the reply,
whether it was cancelled) is read off that list, so what one report says about
another is a fact about lists of events.
-/
import Automation.Binding.View
import Automation.Shape

namespace Automation

/-- How far a node has come. -/
inductive NodeState
  | unvisited
  | resolving
  | invoking
  | completed
  | failed
  deriving DecidableEq, Repr

/-- How serious a line of the log is. -/
inductive Level
  | info
  | success
  | warning
  | error
  deriving DecidableEq, Repr

namespace Level

def word : Level → String
  | .info => "info"
  | .success => "success"
  | .warning => "warning"
  | .error => "error"

/-- Reads the word for a level. -/
def read : Value → Checked Level
  | .text "info" => .ok .info
  | .text "success" => .ok .success
  | .text "warning" => .ok .warning
  | .text "error" => .ok .error
  | _ => .defect .notALiteral

end Level

/-- What a log line says. -/
inductive Remark
  | executing (kind : String)
  | disabled
  | repeated
  | completed
  | failed (message : String)
  /-- A text at a level of its own. -/
  | said (level : Level) (text : String)
  deriving DecidableEq, Repr

namespace Remark

/-- The level of a remark. -/
def level : Remark → Level
  | .executing _ => .info
  | .disabled => .info
  | .repeated => .warning
  | .completed => .success
  | .failed _ => .error
  | .said level _ => level

/-- The wording of a remark. -/
def text : Remark → String
  | .executing kind => "Executing " ++ kind ++ " node"
  | .disabled => "Node disabled, skipped"
  | .repeated => "Already executed in this scope, skipped"
  | .completed => "Completed"
  | .failed message => message
  | .said _ text => text

end Remark

/-- A line of the log of a run. -/
structure Line where
  node : String
  /-- What the node is called. -/
  name : String
  remark : Remark
  deriving DecidableEq, Repr

/-- Reads a line that says something of its own, from its fields. -/
def Line.ofFields (fs : Fields Value) : Checked Line :=
  (Checked.ok fun node name level text => Line.mk node name (.said level text)).app
      (Shape.required fs "nodeId" Shape.text)
    |>.app (Shape.defaulted fs "nodeName" "" Shape.text)
    |>.app (Shape.defaulted fs "type" .info Level.read)
    |>.app (Shape.defaulted fs "message" "" Shape.text)

/-- Something that happened in a run. -/
inductive Event
  /-- A node was taken in a scope, for good. -/
  | claimed (scope : Scope) (node : String)
  | reached (scope : Scope) (node : String) (state : NodeState)
  | wrote (scope : Scope) (node : String) (result : Value)
  | erred (scope : Scope) (node : String) (message : String)
  | logged (line : Line)
  /-- The action of a node ended with a value or a fault. -/
  | ended (scope : Scope) (node : String) (outcome : Except Fault Value)
  | replied (result : Value)
  | cancelled

/-- The record of a run, latest event first. -/
abbrev Journal := List Event

namespace Journal

/-- The last result of each node, in the order of the first ones. -/
def results : Journal → Fields Value
  | [] => []
  | .wrote _ node result :: past => (results past).set node result
  | _ :: past => results past

/-- The last error of each node that failed, in the order of the first ones. -/
def errors : Journal → Fields String
  | [] => []
  | .erred _ node message :: past => (errors past).set node message
  | _ :: past => errors past

/-- The nodes that failed, in the order in which they first did. -/
def failedNodes (j : Journal) : List String := (errors j).keys

/-- How far a node has come last. -/
def state (node : String) : Journal → NodeState
  | [] => .unvisited
  | .reached _ n s :: past => if n = node then s else state node past
  | _ :: past => state node past

/-- The reply of the run; null if there is none. -/
def reply : Journal → Value
  | [] => .null
  | .replied result :: _ => result
  | _ :: past => reply past

/-- The log, oldest line first. -/
def log (j : Journal) : List Line :=
  (j.filterMap fun
    | .logged line => some line
    | _ => none).reverse

/-- The node was taken in the scope. -/
def hasClaimed (scope : Scope) (node : String) (j : Journal) : Bool :=
  j.any fun
    | .claimed s n => s == scope && n == node
    | _ => false

/-- The run was cancelled. -/
def isCancelled (j : Journal) : Bool :=
  j.any fun
    | .cancelled => true
    | _ => false

/-- The journal after more events, in their order. -/
def adding (j : Journal) (events : List Event) : Journal := events.reverse ++ j

/-- Takes a node in a scope, unless it was taken there before. -/
def claim (scope : Scope) (node : String) (j : Journal) : Bool × Journal :=
  if hasClaimed scope node j then (false, j) else (true, .claimed scope node :: j)

end Journal

end Automation
