/-
Automation/Condition/Expression.lean

Free expressions as conditions.

Each binding in an expression becomes a variable: `_b0` for the first
reference, `_b1` for the next one that differs, and so on.  So the expression
that is evaluated depends on the authored text alone, and the values of the
references come in beside it, together with all results (`nodes`) and the loop
bindings (`loop`).
-/
import Automation.Binding.View
import Automation.Expr.Eval
import Automation.Fault

namespace Automation.Condition

open Automation.Binding

/-- The elements of a list at their first places. -/
def distinct (xs : List String) : List String :=
  xs.foldl (fun seen x => if seen.contains x then seen else seen ++ [x]) []

/-- The variable of a number. -/
def variableName (i : Nat) : String := "_b" ++ Nat.repr i

/-- The variables that stand for references, in order. -/
def numbered (refs : List String) : Fields String :=
  refs.zipIdx.map fun (ref, i) => (variableName i, ref)

/-- An expression whose bindings became variables. -/
structure Bound where
  source : String
  /-- Each variable with the reference that it stands for. -/
  references : Fields String

/-- Replaces the bindings of an expression by variables. -/
def bindReferences (expression : String) : Bound :=
  let refs := distinct (referencesIn expression)
  ⟨fill (fun ref => variableName (refs.idxOf ref)) expression, numbered refs⟩

/-- Leaves out the word `return ` in front and the semicolons behind it. -/
def withoutReturn (source : String) : String :=
  if Text.startsWith source "return " then
    Text.strip (String.ofList (Text.dropEndWhile (· == ';') (source.toList.drop 7)))
  else source

/-- The values of references, each under its variable. -/
def boundValues (view : View) : Fields String → Except Fault (Fields Value)
  | [] => .ok []
  | (name, ref) :: rest => do
    let value ← view.lookup ref
    let more ← boundValues view rest
    .ok ((name, value) :: more)

/-- What the names of an expression stand for: values as structured text has them. -/
def activation (view : View) (b : Bound) : Except Fault (Fields Value) :=
  (boundValues view b.references).map fun values =>
    ([("nodes", .object view.results), ("loop", .object view.loopScope)] ++ values).map
      fun (name, value) => (name, value.structured)

/-- The truth of a free expression in a view. -/
def evaluate (view : View) (expression : String) : Except Fault Bool :=
  if Text.isBlankText expression then .error .noExpression else do
    let b := bindReferences (Text.strip expression)
    let values ← activation view b
    match Expr.truthOf? (withoutReturn b.source) values with
    | some truth => .ok truth
    | none => .error .expressionFailed

/-- The references of an expression, in the order in which they are looked up. -/
def referencesOf (expression : String) : List String :=
  if Text.isBlankText expression then []
  else distinct (referencesIn (Text.strip expression))

end Automation.Condition
