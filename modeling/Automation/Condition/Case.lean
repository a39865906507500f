/-
Automation/Condition/Case.lean

The cases of a condition, and which of them is taken.

Cases are tried in order, and the first that holds is taken.  A case that
refuses to be evaluated does not hold; any other fault ends the search.  What
follows the deciding case is not looked at.
-/
import Automation.Condition.Compare
import Automation.Condition.Expression
import Automation.Json.Reader

namespace Automation.Condition

/-- One case of a condition. -/
structure Case where
  id : String
  label : Option String
  left : Value
  operator : String
  right : Value
  /-- The bindings of the right side are resolved. -/
  rightIsBound : Bool
  returnValue : Value
  usesExpression : Bool
  condition : Option String
  /-- Fields without a meaning here. -/
  others : Fields Value

namespace Case

/-- The fields of a case that have a meaning. -/
def knownFields : List String :=
  ["id", "label", "leftOperand", "operator", "rightOperand", "rightOperandType", "returnValue",
    "useCustomExpression", "condition"]

/-- Whether the right side is bound, by the word for it. -/
def readRightIsBound : Value → Checked Bool
  | .text "static" => .ok false
  | .text "variable" => .ok true
  | _ => .defect .notALiteral

/-- Reads a case. -/
def ofValue (v : Value) : Checked Case :=
  match v with
  | .object fs =>
    (Checked.ok Case.mk).app (Shape.required fs "id" Shape.text)
      |>.app (Shape.defaulted fs "label" none (Shape.nullable Shape.text))
      |>.app (Shape.defaulted fs "leftOperand" .null Shape.any)
      |>.app (Shape.defaulted fs "operator" "equals" Shape.text)
      |>.app (Shape.defaulted fs "rightOperand" .null Shape.any)
      |>.app (Shape.defaulted fs "rightOperandType" false readRightIsBound)
      |>.app (Shape.defaulted fs "returnValue" (.text "true") Shape.any)
      |>.app (Shape.defaulted fs "useCustomExpression" false Shape.boolean)
      |>.app (Shape.defaulted fs "condition" none (Shape.nullable Shape.text))
      |>.app (.ok (Fields.eraseAll fs knownFields))
  | _ => .defect .notRecord

/-- All fields of a case, those left out included. -/
def toFields (c : Case) : Fields Value :=
  let orNull (s : Option String) : Value := (s.map .text).getD .null
  [("id", .text c.id), ("label", orNull c.label), ("leftOperand", c.left),
    ("operator", .text c.operator), ("rightOperand", c.right),
    ("rightOperandType", .text (if c.rightIsBound then "variable" else "static")),
    ("returnValue", c.returnValue), ("useCustomExpression", .bool c.usesExpression),
    ("condition", orNull c.condition)] ++ c.others

/-- The name of a case, if it has one that is not empty. -/
def name? (c : Case) : Option String := c.label.filter (· ≠ "")

/-- The expression that decides a case, if it is one for an expression. -/
def expression? (c : Case) : Option String :=
  if c.usesExpression then c.condition.filter (· ≠ "") else none

/-- The case holds in a view. -/
def holds (c : Case) (view : View) : Except Fault Bool :=
  match c.expression? with
  | some expression => evaluate view expression
  | none => do
    let left ← view.resolve c.left
    let right ← if c.rightIsBound then view.resolve c.right else .ok c.right
    compare left (if c.operator.isEmpty then "equals" else c.operator) right

/-- The references of a case, in the order in which they are looked up. -/
def references (c : Case) : List String :=
  match c.expression? with
  | some expression => referencesOf expression
  | none =>
    Binding.references c.left ++ if c.rightIsBound then Binding.references c.right else []

/-- What a case contributes to the search. -/
inductive Verdict
  | holds
  | fails
  | breaks (fault : Fault)

def verdict (c : Case) (view : View) : Verdict :=
  match c.holds view with
  | .ok true => .holds
  | .ok false => .fails
  | .error fault => if fault.isRefusal then .fails else .breaks fault

/-- The first case that holds, with its place counted from `start`. -/
def firstFrom (view : View) (start : Nat) : List Case → Except Fault (Option (Nat × Case))
  | [] => .ok none
  | c :: rest => match c.verdict view with
    | .holds => .ok (some (start, c))
    | .fails => firstFrom view (start + 1) rest
    | .breaks fault => .error fault

/-- The first case that holds. -/
def first (view : View) (cases : List Case) : Except Fault (Option (Nat × Case)) :=
  firstFrom view 0 cases

/-- The cases that are looked at: up to the first that does not fail. -/
def tried (view : View) : List Case → List Case
  | [] => []
  | c :: rest => match c.verdict view with
    | .fails => c :: tried view rest
    | _ => [c]

end Case

/-- Reads cases one after another, up to the first that is malformed. -/
def readEach : List Value → Except Fault (List Case)
  | [] => .ok []
  | v :: vs => match Case.ofValue v with
    | .ok c => (readEach vs).map (c :: ·)
    | .bad errors => .error (.casesMalformed errors.length)

/-- Reads the cases of a condition: a list, or the text of one. -/
def readCases (raw : Value) : Except Fault (List Case) := do
  let listed ← match raw with
    | .text s => if s.isEmpty then .ok (some (.list [])) else Json.data? s
    | other => .ok (some other)
  match listed with
  | some .null => .ok []
  | some (.list vs) => readEach vs
  | _ => .error .casesUnreadable

end Automation.Condition
