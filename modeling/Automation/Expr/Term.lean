/-
Automation/Expr/Term.lean

Condition expressions.

Every expression is written at a rank.  A choice binds least, then come
disjunction, conjunction, the relations, sums and products; negations stand in
front of an operand, selections, indices and calls behind it; what remains stands
for itself.  Parentheses are kept, because they count in the depth of an
expression.

The comprehensions are written like calls of methods.  Their first argument is any
expression with a name in it: the last one goes through the members.
-/
import Automation.Expr.Datum

namespace Automation.Expr

/-- An operator between two operands. -/
inductive Operation
  | or | and
  | less | lessOrEqual | greater | greaterOrEqual | equal | differ | isIn
  | add | sub | mul | div | rem
  deriving DecidableEq, Repr

/-- What is done with the members of a value. -/
inductive Quantifier
  | all | any | one | filter | collect
  deriving DecidableEq, Repr

/-- A condition expression. -/
inductive Term
  | literal (d : Datum)
  /-- A name, which a point may stand in front of. -/
  | name (rooted : Bool) (s : String)
  | list (items : List Term)
  | map (entries : List (Term × Term))
  /-- An expression in parentheses. -/
  | group (t : Term)
  | negative (t : Term)
  | negation (t : Term)
  | apply (op : Operation) (left right : Term)
  | choice (condition whenTrue whenFalse : Term)
  | select (t : Term) (field : String)
  | index (t i : Term)
  /-- A value with named parts behind it. -/
  | construct (t : Term) (parts : List (String × Term))
  | call (rooted : Bool) (function : String) (args : List Term)
  | invoke (t : Term) (method : String) (args : List Term)
  /-- A comprehension; a name to bind may be missing. -/
  | quantify (q : Quantifier) (t : Term) (bound : Option String) (body : Term)
  /-- Joins the members one after another to a first value. -/
  | reduce (t : Term) (joined member : Option String) (first body : Term)
  /-- The least member. -/
  | least (t : Term)
  /-- A comprehension with a wrong number of arguments, of which there may be
  none. -/
  | miswritten (t : Term) (bare : Bool)
  deriving Inhabited

namespace Quantifier

/-- The comprehension of a name. -/
def ofName? : String → Option Quantifier
  | "all" => some .all
  | "exists" => some .any
  | "exists_one" => some .one
  | "filter" => some .filter
  | "map" => some .collect
  | _ => none

end Quantifier

namespace Operation

/-- The mark of an operator. -/
def mark : Operation → String
  | .or => "||"
  | .and => "&&"
  | .less => "<"
  | .lessOrEqual => "<="
  | .greater => ">"
  | .greaterOrEqual => ">="
  | .equal => "=="
  | .differ => "!="
  | .isIn => "in"
  | .add => "+"
  | .sub => "-"
  | .mul => "*"
  | .div => "/"
  | .rem => "%"

/-- All operators. -/
def every : List Operation :=
  [.or, .and, .less, .lessOrEqual, .greater, .greaterOrEqual, .equal, .differ, .isIn, .add, .sub,
    .mul, .div, .rem]

/-- The rank that an operator is written at. -/
def rank : Operation → Nat
  | .or => 1
  | .and => 2
  | .add => 4
  | .sub => 4
  | .mul => 5
  | .div => 5
  | .rem => 5
  | _ => 3

end Operation

namespace Term

/-- The ranks of choices, of negations, of what stands behind an operand and of
what stands for itself. -/
def choiceRank : Nat := 0
def unaryRank : Nat := 6
def memberRank : Nat := 7
def primaryRank : Nat := 8

/-- The rank that an expression is written at. -/
def rank : Term → Nat
  | .choice .. => choiceRank
  | .apply op .. => op.rank
  | .negative _ => unaryRank
  | .negation _ => unaryRank
  | .select .. => memberRank
  | .index .. => memberRank
  | .construct .. => memberRank
  | .invoke .. => memberRank
  | .quantify .. => memberRank
  | .reduce .. => memberRank
  | .least _ => memberRank
  | .miswritten .. => memberRank
  | _ => primaryRank

mutual

/-- The last name in an expression that stands for a value. -/
def lastName? : Term → Option String
  | .literal _ => none
  | .name rooted s => if rooted then none else some s
  | .list items => lastNameOf? items
  | .map entries => lastNameIn? entries
  | .group t => t.lastName?
  | .negative t => t.lastName?
  | .negation t => t.lastName?
  | .apply _ a b => b.lastName?.or a.lastName?
  | .choice c a b => (b.lastName?.or a.lastName?).or c.lastName?
  | .select t _ => t.lastName?
  | .index t i => i.lastName?.or t.lastName?
  | .construct t parts => (lastNameWithin? parts).or t.lastName?
  | .call _ _ args => lastNameOf? args
  | .invoke t _ args => (lastNameOf? args).or t.lastName?
  | .quantify _ t bound body => (body.lastName?.or bound).or t.lastName?
  | .reduce t joined member first body =>
    (((body.lastName?.or first.lastName?).or member).or joined).or t.lastName?
  | .least t => t.lastName?
  | .miswritten t _ => t.lastName?

/-- The last name in expressions. -/
def lastNameOf? : List Term → Option String
  | [] => none
  | t :: ts => (lastNameOf? ts).or t.lastName?

/-- The last name in entries. -/
def lastNameIn? : List (Term × Term) → Option String
  | [] => none
  | (k, v) :: rest => ((lastNameIn? rest).or v.lastName?).or k.lastName?

/-- The last name in named parts. -/
def lastNameWithin? : List (String × Term) → Option String
  | [] => none
  | (_, t) :: rest => (lastNameWithin? rest).or t.lastName?

end

/-- A method call; a comprehension if it has the name of one. -/
def method (t : Term) (name : String) (args : List Term) : Term :=
  match Quantifier.ofName? name, name, args with
  | some q, _, [bound, body] => .quantify q t bound.lastName? body
  | some _, _, args => .miswritten t args.isEmpty
  | none, "reduce", [joined, member, first, body] =>
    .reduce t joined.lastName? member.lastName? first body
  | none, "reduce", args => .miswritten t args.isEmpty
  | none, "min", _ => .least t
  | none, name, args => .invoke t name args

/-- Constants that are written as names. -/
def ofName (s : String) : Term :=
  if s = "true" then .literal (.ofBool true)
  else if s = "false" then .literal (.ofBool false)
  else if s = "null" then .literal .null
  else .name false s

end Term

end Automation.Expr
