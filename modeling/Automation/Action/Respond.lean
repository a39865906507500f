/-
Automation/Action/Respond.lean

The action that shapes the reply of a run.
-/
import Automation.Action.Behaviour
import Automation.Json.Reader
import Automation.Value.Number

namespace Automation.Action

/-- A value, or the structured value that its text reads as; a fallback if it is
missing. -/
def structuredOr (fallback v : Value) : Except Fault Value :=
  if v.isMissing then .ok fallback
  else match v with
    | .text s => (Json.data? s).map fun read => read.getD (.text s)
    | other => .ok other

/-- The headers of the reply; what is no object has none. -/
def replyHeaders (config : Fields Value) : Except Fault Value := do
  let written := (config.at "headers").orElse (config.at "customHeaders")
  let headers ← structuredOr (.object []) written
  .ok (if headers.entries?.isSome then headers else .object [])

/-- The fields of the reply. -/
def replyFields (config : Fields Value) : Except Fault (Fields Value) := do
  let status ← ((config.at "statusCode").orElse (.int 200)).toIntOr 200
  let headers ← replyHeaders config
  let body ← structuredOr (.object []) (config.at "body")
  .ok
    [("success", .bool true), ("statusCode", .int status), ("body", body),
      ("contentType", config.at "contentType"), ("headers", headers)]

/-- The action that shapes the reply of a run. -/
def respond : Behaviour where
  required := []
  defaults := [("contentType", .text "application/json")]
  resolves := true
  invoke config _ :=
    Activity.attempt (replyFields config) Activity.done
  successors := Behaviour.allUntagged
  successors_mem := Behaviour.mem_outgoing_of_mem_allUntagged

end Automation.Action
