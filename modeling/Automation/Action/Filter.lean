/-
Automation/Action/Filter.lean

The action that keeps the records of an array whose field compares well.

The array is given directly, or as a field of an earlier result.  Without a
field or a value to compare with, all records are kept; what is no array is
passed through.
-/
import Automation.Action.Behaviour
import Automation.Condition.Compare

namespace Automation.Action

/-- The operator of a filter operation: a short name, or a name of its own. -/
def operatorName : String → String
  | "eq" => "equals"
  | "neq" => "notEquals"
  | "gt" => "greaterThan"
  | "lt" => "lessThan"
  | "gte" => "greaterOrEqual"
  | "lte" => "lessOrEqual"
  | "not_contains" => "notContains"
  | other => other

/-- The result of the node that a setting names. -/
def namedResult (view : View) : Value → Except Fault Value
  | .text s => .ok (view.results.at s)
  | .list (v :: vs) => .error (.noKey (Value.list (v :: vs)).kindName)
  | .object (f :: fs) => .error (.noKey (Value.object (f :: fs)).kindName)
  | .table (e :: es) => .error (.noKey (Value.table (e :: es)).kindName)
  | v => .ok (if v.isTruthy then .null else view.results.at "")

/-- A path in settings; nothing is the path to the whole. -/
def pathOf (v : Value) : Except Fault String :=
  match v.orElse (.text "") with
  | .text s => .ok s
  | v => .error (.noText v.kindName "split")

/-- What is filtered. -/
def filterSource (config : Fields Value) (view : View) : Except Fault Value :=
  match config.get? "items" with
  | some items => .ok items
  | none => do
    let whole ← namedResult view (config.at "sourceNodeId")
    whole.at (← pathOf (config.at "outputField"))

/-- The records whose field compares well, in order. -/
def keep (path operator : String) (value : Value) : List Value → Except Fault (List Value)
  | [] => .ok []
  | r :: rest => do
    let holds ← Condition.compare (← r.at path) operator value
    let kept ← keep path operator value rest
    .ok (if holds then r :: kept else kept)

/-- The records that settings ask for. -/
def filtered (config : Fields Value) (records : List Value) : Except Fault (List Value) :=
  let field := config.at "filterField"
  let value := config.at "filterValue"
  if field.isTruthy && !value.isMissing then
    if records.isEmpty then .ok []
    else do
      let path ← pathOf field
      keep path (operatorName (config.at "filterOperation").shown) value records
  else .ok records

/-- The result of a filter. -/
def filterResult (v : Value) (count : Nat) : Fields Value :=
  [("success", .bool true), ("filtered", v), ("count", .int count)]

/-- The action that filters an array. -/
def filter : Behaviour where
  required := []
  defaults := [("filterOperation", .text "eq")]
  resolves := true
  invoke config view :=
    Activity.attempt (filterSource config view) fun
      | .list records => Activity.attempt (filtered config records) fun kept =>
        .done (filterResult (.list kept) kept.length)
      | other => .done (filterResult other 0)
  successors := Behaviour.allUntagged
  successors_mem := Behaviour.mem_outgoing_of_mem_allUntagged

end Automation.Action
