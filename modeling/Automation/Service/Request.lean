/-
Automation/Service/Request.lean

What clients ask of the service.
-/
import Automation.Flow.Problem

namespace Automation.Service

/-- A flow to be run, with what the run is given. -/
structure RunRequest where
  flow : Document
  payload : Fields Value
  /-- Values of the variables that the flow declares. -/
  declared : Fields Value
  environment : Fields Value

namespace RunRequest

/-- Reads a request. -/
def ofValue (v : Value) : Checked RunRequest :=
  match v with
  | .object fs =>
    (Checked.ok RunRequest.mk).app (Shape.required fs "flow" Document.ofValue)
      |>.app (Shape.defaulted fs "triggerData" [] Shape.fields)
      |>.app (Shape.defaulted fs "variables" [] Shape.fields)
      |>.app (Shape.defaulted fs "env" [] Shape.fields)
  | _ => .defect .notRecord

end RunRequest

/-- One thing that a client asks for. -/
inductive Command
  | health
  | validate (flow : Document)
  /-- Runs a flow and waits for its outcome. -/
  | run (request : RunRequest)
  /-- Starts a flow in the background. -/
  | start (request : RunRequest)
  | get (runId : String)
  | cancel (runId : String)
  /-- Lets time pass; not a request. -/
  | wait (seconds : Binary64)
  /-- Something that has the wrong shape. -/
  | malformed (errors : List ShapeError)

end Automation.Service
