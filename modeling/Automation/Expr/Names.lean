/-
Automation/Expr/Names.lean

What names stand for.

A name given from outside may have dots in it; then its first part stands for a
scope, in which the rest is a name again.  A scope hides a value of the same name,
whichever came first, and no comprehension can bind its name.  Functions are found
under their names unless something else is.
-/
import Automation.Expr.Function

namespace Automation.Expr

/-- What names stand for; the first entry of a name counts. -/
abbrev Names := List (String × Datum)

namespace Names

/-- A character that a name begins with. -/
def isStart (c : Char) : Bool := c.isAlpha || c == '_'

/-- A character of a name. -/
def isPart (c : Char) : Bool := c.isAlphanum || c == '_'

/-- The characters are a name without dots. -/
def isName : List Char → Bool
  | c :: rest => isStart c && rest.all isPart
  | [] => false

/-- A name cut at its dots, if every part is one.  A dot in front does not matter,
nor does a line feed behind. -/
def parts? (name : String) : Option (List String) :=
  let cs := match name.toList with
    | '.' :: rest => rest
    | cs => cs
  let cs := if cs.getLast? = some '\n' then cs.dropLast else cs
  let parts := Text.cut '.' cs
  if parts.all isName then some (parts.map String.ofList) else none

/-- Lets a name stand for a value, unless it stands for a scope. -/
def bind (names : Names) (name : String) (d : Datum) : Names :=
  match names.lookup name with
  | some (.scope _) => names
  | _ => (name, d) :: names

/-- Lets the parts of a name stand for a value. -/
def insert (d : Datum) : List String → Names → Names
  | [], names => names
  | [name], names => match names.lookup name with
    | some (.scope _) => names
    | _ => Fields.set names name d
  | name :: rest, names =>
    let inner := match names.lookup name with
      | some (.scope inner) => inner
      | _ => []
    Fields.set names name (.scope (insert d rest inner))

/-- The kinds of values that have a second, longer name. -/
def wellKnown : Names :=
  [("google", .scope [("protobuf", .scope
    [("Int32Value", .function "int"), ("UInt32Value", .function "uint"),
      ("Int64Value", .function "int"), ("UInt64Value", .function "uint"),
      ("FloatValue", .function "double"), ("DoubleValue", .function "double"),
      ("BoolValue", .function "bool"), ("BytesValue", .function "bytes"),
      ("StringValue", .function "string"), ("ListValue", .function "list"),
      ("Struct", .function "map")])])]

/-- The values of flows as what names stand for, if all names and all integers are
good ones. -/
def ofFields? (values : Fields Value) : Option Names :=
  values.foldlM (fun names (name, v) => do
    some (insert (← Datum.ofValue? v) (← parts? name) names)) wellKnown

/-- What a name stands for. -/
def value (names : Names) (name : String) : Datum :=
  match names.lookup name with
  | some d => d
  | none => if Function.names.contains name then .function name else .failed (.unbound name)

end Names

end Automation.Expr
