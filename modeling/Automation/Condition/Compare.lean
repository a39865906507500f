/-
Automation/Condition/Compare.lean

Comparing two values by a named operator.

Equality and order compare numbers where both sides are numeric.  Otherwise
equality compares the trimmed plain texts, and no order holds.  The text
operators compare trimmed plain texts in lower case.  The last four operators
look at the left side only.  A name that is no operator never holds.
-/
import Automation.Text.Case
import Automation.Value.Number
import Automation.Value.Text

namespace Automation.Condition

/-- The ways of comparing. -/
inductive Operator
  | equals
  | notEquals
  | greaterThan
  | lessThan
  | greaterOrEqual
  | lessOrEqual
  | contains
  | notContains
  | startsWith
  | endsWith
  | isEmpty
  | isNotEmpty
  | isTrue
  | isFalse
  deriving DecidableEq, Repr

namespace Operator

/-- The operator of a name; two operators have a second name. -/
def ofName? : String → Option Operator
  | "equals" => some .equals
  | "notEquals" => some .notEquals
  | "greaterThan" => some .greaterThan
  | "lessThan" => some .lessThan
  | "greaterOrEqual" => some .greaterOrEqual
  | "greaterThanOrEqual" => some .greaterOrEqual
  | "lessOrEqual" => some .lessOrEqual
  | "lessThanOrEqual" => some .lessOrEqual
  | "contains" => some .contains
  | "notContains" => some .notContains
  | "startsWith" => some .startsWith
  | "endsWith" => some .endsWith
  | "isEmpty" => some .isEmpty
  | "isNotEmpty" => some .isNotEmpty
  | "isTrue" => some .isTrue
  | "isFalse" => some .isFalse
  | _ => none

end Operator

/-- The text that equality compares. -/
def trimmedText (v : Value) : String := Text.strip v.plain

/-- The text that the text operators compare. -/
def foldedText (v : Value) : String := Text.lower (trimmedText v)

/-- Equal as numbers, or as trimmed texts where a side is not numeric. -/
def areEqual (left right : Value) : Except Fault Bool := do
  match ← left.numeric?, ← right.numeric? with
  | some a, some b => .ok (a.eqv b)
  | _, _ => .ok (trimmedText left == trimmedText right)

/-- Both sides are numeric and stand in a relation. -/
def areNumeric (relation : Binary64 → Binary64 → Bool) (left right : Value) :
    Except Fault Bool := do
  match ← left.numeric?, ← right.numeric? with
  | some a, some b => .ok (relation a b)
  | _, _ => .ok false

/-- Null, blank text, or a collection without elements. -/
def isEmptyValue : Value → Bool
  | .null => true
  | .text s => Text.isBlankText s
  | .list items => items.isEmpty
  | .object fields => fields.isEmpty
  | .table entries => entries.isEmpty
  | _ => false

/-- The truth that a value states, if it states one. -/
def statedTruth? : Value → Option Bool
  | .bool b => some b
  | .text s =>
    let word := Text.lower (Text.strip s)
    if word = "true" ∨ word = "1" then some true
    else if word = "false" ∨ word = "0" then some false
    else none
  | .int n => if n = 1 then some true else if n = 0 then some false else none
  | .float x =>
    if x.eqv (.ofInt 1) then some true else if x.eqv (.ofInt 0) then some false else none
  | _ => none

/-- The operator holds between two values. -/
def holds (op : Operator) (left right : Value) : Except Fault Bool :=
  match op with
  | .equals => areEqual left right
  | .notEquals => (areEqual left right).map (!·)
  | .greaterThan => areNumeric (fun a b => b.lt a) left right
  | .lessThan => areNumeric Binary64.lt left right
  | .greaterOrEqual => areNumeric (fun a b => b.le a) left right
  | .lessOrEqual => areNumeric Binary64.le left right
  | .contains => .ok (Text.contains (foldedText left) (foldedText right))
  | .notContains => .ok (!Text.contains (foldedText left) (foldedText right))
  | .startsWith => .ok (Text.startsWith (foldedText left) (foldedText right))
  | .endsWith => .ok (Text.endsWith (foldedText left) (foldedText right))
  | .isEmpty => .ok (isEmptyValue left)
  | .isNotEmpty => .ok (!isEmptyValue left)
  | .isTrue => .ok (statedTruth? left == some true)
  | .isFalse => .ok (statedTruth? left == some false)

/-- The comparison of a name holds between two values. -/
def compare (left : Value) (operator : String) (right : Value) : Except Fault Bool :=
  match Operator.ofName? operator with
  | some op => holds op left right
  | none => .ok false

end Automation.Condition
