/-
Automation/Condition/Selection.lean

What a condition comes to: the case taken, the value returned, and the branch
tags by which the next edge is chosen.

A condition is written in one of two modes, as cases or as one free expression.
A boolean condition leads to `true`, or else to `false` and then `else`; any
other leads to the id of the case taken and then to the text of the returned
value, or to `else`.
-/
import Automation.Condition.Case

namespace Automation.Condition

/-- What a condition returns. -/
inductive ReturnType
  | boolean
  | text
  | integer
  deriving DecidableEq, Repr

namespace ReturnType

/-- The return type of a word. -/
def ofName? : String → Option ReturnType
  | "boolean" => some .boolean
  | "string" => some .text
  | "integer" => some .integer
  | _ => none

/-- The return type of a condition; a word that is none stands for boolean. -/
def ofName (s : String) : ReturnType := (ofName? s).getD .boolean

/-- An authored value as a value of the type. -/
def coerce (t : ReturnType) (raw : Value) : Except Fault Value :=
  match t with
  | .boolean => match raw with
    | .bool b => .ok (.bool b)
    | v =>
      let word := Text.lower (Text.strip v.shown)
      .ok (.bool (word == "true" || word == "1"))
  | .integer => do
    match ← raw.numeric? with
    | some x => (Value.intOfFloat x).map .int
    | none => .ok (.int 0)
  | .text => .ok (.text raw.plain)

/-- What is returned when no case is taken. -/
def whenNone : ReturnType → Value
  | .boolean => .bool false
  | .text => .text "else"
  | .integer => .null

end ReturnType

/-- What a condition comes to. -/
structure Selection where
  /-- The id of the case taken. -/
  caseId : Option String
  returnValue : Value
  returnType : ReturnType
  index : Int
  label : String
  /-- The condition in words. -/
  conditionText : Value

namespace Selection

/-- The condition is met. -/
def isMet (s : Selection) : Bool :=
  match s.returnType with
  | .boolean => decide (s.returnValue = .bool true)
  | _ => s.caseId.isSome

/-- The tags by which the next edge is chosen, most wanted first. -/
def branchTags (s : Selection) : List String :=
  match s.returnType, s.caseId with
  | .boolean, _ => if s.isMet then ["true"] else ["false", "else"]
  | _, none => ["else"]
  | _, some id => [id, s.returnValue.plain]

/-- A selection as the result of a node. -/
def toFields (s : Selection) (now : Moment) : Fields Value :=
  [("success", .bool true), ("result", .bool s.isMet), ("returnValue", s.returnValue),
    ("matchedCase", .text (s.caseId.getD "else")), ("matchedIndex", .int s.index),
    ("matchedLabel", .text s.label), ("conditionText", s.conditionText),
    ("evaluatedAt", .text now.text)]

/-- No case was taken. -/
def none (t : ReturnType) : Selection :=
  ⟨Option.none, t.whenNone, t, -1, "Else", .text "Default (Else)"⟩

/-- The case at a place was taken. -/
def taken (t : ReturnType) (index : Nat) (c : Case) : Except Fault Selection := do
  let value ← t.coerce c.returnValue
  let words := c.left.shown ++ " " ++ c.operator ++ " " ++ c.right.shown
  .ok ⟨some c.id, value, t, index, c.name?.getD ("Case " ++ Nat.repr (index + 1)),
    .text (c.name?.getD words)⟩

/-- What cases come to. -/
def ofCases (view : View) (t : ReturnType) (cases : List Case) : Except Fault Selection := do
  match ← Case.first view cases with
  | some (index, c) => taken t index c
  | Option.none => .ok (none t)

/-- What a free expression comes to. -/
def ofExpression (view : View) (expression : String) (description : Value) :
    Except Fault Selection := do
  let truth ← evaluate view expression
  .ok ⟨some (if truth then "true" else "false"), .bool truth, .boolean,
    if truth then 0 else -1, if truth then "TRUE" else "FALSE",
    description.orElse (.text expression)⟩

/-- The settings of a condition call for cases. -/
def usesCases (config : Fields Value) : Bool :=
  !(config.at "useCustomExpression").isTruthy &&
    ((config.at "multipleConditions").isTruthy ||
      match config.at "cases" with
      | .list items => !items.isEmpty
      | _ => false)

/-- The expression in the settings of a condition. -/
def expressionOf (config : Fields Value) : Except Fault String :=
  match ((config.at "condition").orElse (config.at "expression")).orElse (.text "") with
  | .text s => .ok s
  | v => .error (.noText v.kindName "strip")

/-- The return type in the settings of a condition. -/
def returnTypeOf (config : Fields Value) : ReturnType :=
  .ofName ((config.at "returnType").orElse (.text "boolean")).shown

/-- What a condition with the given settings comes to. -/
def ofConfig (view : View) (config : Fields Value) : Except Fault Selection := do
  if usesCases config then
    let cases ← readCases (config.at "cases")
    if cases.isEmpty then .error .noCases
    else ofCases view (returnTypeOf config) cases
  else ofExpression view (← expressionOf config) (config.at "description")

/-- The references of a condition with the given settings, in the order in which
they are looked up. -/
def references (view : View) (config : Fields Value) : List String :=
  if usesCases config then
    match readCases (config.at "cases") with
    | .ok cases => (Case.tried view cases).flatMap Case.references
    | .error _ => []
  else match expressionOf config with
    | .ok expression => referencesOf expression
    | .error _ => []

end Selection

end Automation.Condition
