/-
Automation/Loop/Settings.lean

The settings of a loop.

Every number has a default that stands in for what cannot be read as an
integer; an infinite number is the one thing that makes the settings unusable.
Caps and delays are never negative, and a batch has at least one iteration.
-/
import Automation.Value.Number
import Automation.Value.Text

namespace Automation.Loop

/-- A name that goes through the elements of a field of an earlier result. -/
structure Variable where
  id : String
  name : String
  sourceNode : String
  sourceField : String
  deriving DecidableEq, Repr

namespace Variable

/-- Reads a loop variable. -/
def ofFields (fs : Fields Value) : Checked Variable :=
  (Checked.ok Variable.mk).app (Shape.defaulted fs "id" "" Shape.text)
    |>.app (Shape.defaulted fs "variableName" "item" Shape.text)
    |>.app (Shape.defaulted fs "sourceNodeId" "" Shape.text)
    |>.app (Shape.defaulted fs "sourceField" "" Shape.text)

/-- The variable names both a node and a field. -/
def hasSource (v : Variable) : Bool := v.sourceNode != "" && v.sourceField != ""

end Variable

/-- The settings of a loop. -/
structure Settings where
  vars : List Variable
  maxIterations : Nat
  counterStart : Int
  delayMs : Nat
  /-- The loop ends after a batch with a failure. -/
  stopsOnFailure : Bool
  /-- The id of the variable that decides the number of iterations; null if
  none does. -/
  linkedVariable : Value
  /-- The parts of a source that is a text are trimmed. -/
  trims : Bool
  /-- Iterations of a batch run side by side. -/
  isAsync : Bool
  authoredBatchSize : Nat

namespace Settings

/-- How many iterations a batch has at most. -/
def batchSize (s : Settings) : Nat := if s.isAsync then max 1 s.authoredBatchSize else 1

/-- The elements of the list of variables; a text or an object has none. -/
def variableList (raw : Value) : Except Fault (List Value) :=
  match raw with
  | .list items => .ok items
  | .text _ => .ok []
  | .object _ => .ok []
  | .table _ => .ok []
  | v => if v.isTruthy then .error (.noElements v.kindName) else .ok []

/-- Reads the variables among the elements: those that are objects. -/
def readVariables : List Value → Except Fault (List Variable)
  | [] => .ok []
  | v :: rest => match v.fields? with
    | none => readVariables rest
    | some fs => match Variable.ofFields fs with
      | .ok x => (readVariables rest).map (x :: ·)
      | .bad errors => .error (.malformed errors)

/-- The one variable of the older form of settings. -/
def loneVariable (config : Fields Value) : Except Fault (List Variable) :=
  if (config.at "sourceNodeId").isTruthy && (config.at "sourceField").isTruthy then
    let fs : Fields Value :=
      [("id", .text "legacy-1"),
        ("variableName", (config.at "variableName").orElse (.text "item")),
        ("sourceNodeId", config.at "sourceNodeId"), ("sourceField", config.at "sourceField")]
    match Variable.ofFields fs with
    | .ok v => .ok [v]
    | .bad errors => .error (.malformed errors)
  else .ok []

/-- The variables of a loop, in either form of settings. -/
def varsOf (config : Fields Value) : Except Fault (List Variable) := do
  let listed ← readVariables (← variableList (config.at "loopVariables"))
  if listed.isEmpty then loneVariable config else .ok listed

/-- A setting as a word. -/
def wordOf (config : Fields Value) (key fallback : String) : String :=
  ((config.at key).orElse (.text fallback)).shown

/-- Reads the settings of a loop. -/
def ofConfig (config : Fields Value) (defaultMaxIterations : Int) : Except Fault Settings := do
  let vars ← varsOf config
  let cap ← (config.at "maxIterations").toIntOr defaultMaxIterations
  let start ← (config.at "loopCounterStart").toIntOr 1
  let delay ← (config.at "delayMs").toIntOr 0
  let batch ← (config.at "batchSize").toIntOr 5
  .ok
    { vars
      maxIterations := cap.toNat
      counterStart := start
      delayMs := delay.toNat
      stopsOnFailure := wordOf config "errorHandling" "continue" == "stop"
      linkedVariable := (config.at "linkedVariableId").orElse .null
      trims := config.at "trimWhitespace" != .bool false
      isAsync := wordOf config "loopType" "sequential" == "async"
      authoredBatchSize := max 1 batch.toNat }

end Settings

end Automation.Loop
