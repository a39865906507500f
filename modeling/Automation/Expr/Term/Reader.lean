/-
Automation/Expr/Term/Reader.lean

Condition expressions, read from text.

Operators of one rank associate to the left.  A choice has expressions of the next
rank in front of its colon, so a choice there is in parentheses; behind the colon
it needs none.
-/
import Automation.Expr.Term
import Automation.Expr.Token

namespace Automation.Expr.Term

/-- The operator of a rank that a token is. -/
def operation? (rank : Nat) (t : Token) : Option Operation :=
  match t with
  | .mark m => Operation.every.find? fun op => op.rank == rank && op.mark == m
  | _ => none

/-- A name that may stand behind a point. -/
def isMember (s : String) : Bool := s != "true" && s != "false"

mutual

/-- A whole expression at the front of a list of tokens. -/
def choice? : Nat → List Token → Option (Term × List Token)
  | 0, _ => none
  | fuel + 1, ts => match operands? fuel 1 ts with
    | some (c, .mark "?" :: rest) => match operands? fuel 1 rest with
      | some (a, .mark ":" :: rest) =>
        (choice? fuel rest).map fun (b, left) => (.choice c a b, left)
      | _ => none
    | found => found

/-- Operands of a rank with the operators between them. -/
def operands? : Nat → Nat → List Token → Option (Term × List Token)
  | 0, _, _ => none
  | fuel + 1, rank, ts =>
    if rank < unaryRank then match operands? fuel (rank + 1) ts with
      | some (a, rest) => more? fuel rank a rest
      | none => none
    else operand? fuel ts

/-- The operators of a rank after a first operand. -/
def more? : Nat → Nat → Term → List Token → Option (Term × List Token)
  | 0, _, _, _ => none
  | fuel + 1, rank, a, ts => match ts with
    | [] => some (a, [])
    | t :: rest => match operation? rank t with
      | none => some (a, t :: rest)
      | some op => match operands? fuel (rank + 1) rest with
        | some (b, left) => more? fuel rank (.apply op a b) left
        | none => none

/-- An operand with the negations in front of it. -/
def operand? : Nat → List Token → Option (Term × List Token)
  | 0, _ => none
  | fuel + 1, ts => match ts with
    | .mark "!" :: rest => (operand? fuel rest).map fun (t, left) => (.negation t, left)
    | .mark "-" :: rest => (operand? fuel rest).map fun (t, left) => (.negative t, left)
    | _ => match primary? fuel ts with
      | some (t, rest) => parts? fuel t rest
      | none => none

/-- Selections, indices and calls after an operand. -/
def parts? : Nat → Term → List Token → Option (Term × List Token)
  | 0, _, _ => none
  | fuel + 1, t, ts => match ts with
    | .mark "." :: .name s :: rest =>
      if isMember s then match rest with
        | .mark "(" :: rest => match arguments? fuel ")" rest with
          | some (args, left) => parts? fuel (t.method s args) left
          | none => none
        | _ => parts? fuel (.select t s) rest
      else none
    | .mark "." :: _ => none
    | .mark "[" :: rest => match choice? fuel rest with
      | some (i, .mark "]" :: left) => parts? fuel (.index t i) left
      | _ => none
    | .mark "\x7b" :: .mark "\x7d" :: rest => parts? fuel (.construct t []) rest
    | .mark "\x7b" :: rest => match named? fuel rest with
      | some (parts, left) => parts? fuel (.construct t parts) left
      | none => none
    | _ => some (t, ts)

/-- An operand without anything before or behind it. -/
def primary? : Nat → List Token → Option (Term × List Token)
  | 0, _ => none
  | fuel + 1, ts => match ts with
    | .literal d :: rest => some (.literal d, rest)
    | .name s :: .mark "(" :: rest =>
      if ofName s matches .name .. then
        (arguments? fuel ")" rest).map fun (args, left) => (.call false s args, left)
      else none
    | .name s :: rest => some (ofName s, rest)
    | .mark "." :: .name s :: .mark "(" :: rest =>
      if isMember s then
        (arguments? fuel ")" rest).map fun (args, left) => (.call true s args, left)
      else none
    | .mark "." :: .name s :: rest => if isMember s then some (.name true s, rest) else none
    | .mark "(" :: rest => match choice? fuel rest with
      | some (t, .mark ")" :: left) => some (.group t, left)
      | _ => none
    | .mark "[" :: rest => (arguments? fuel "]" rest).map fun (items, left) => (.list items, left)
    | .mark "\x7b" :: .mark "\x7d" :: rest => some (.map [], rest)
    | .mark "\x7b" :: rest => (entries? fuel rest).map fun (es, left) => (.map es, left)
    | _ => none

/-- Expressions with commas between them, up to a closing mark. -/
def arguments? : Nat → String → List Token → Option (List Term × List Token)
  | 0, _, _ => none
  | fuel + 1, close, ts => match ts with
    | .mark m :: rest => if m = close then some ([], rest) else items? fuel close ts
    | _ => items? fuel close ts

/-- One expression or more, up to a closing mark. -/
def items? : Nat → String → List Token → Option (List Term × List Token)
  | 0, _, _ => none
  | fuel + 1, close, ts => match choice? fuel ts with
    | some (t, .mark m :: rest) =>
      if m = close then some ([t], rest)
      else if m = "," then (items? fuel close rest).map fun (us, left) => (t :: us, left)
      else none
    | _ => none

/-- One entry or more of a map, up to its end. -/
def entries? : Nat → List Token → Option (List (Term × Term) × List Token)
  | 0, _ => none
  | fuel + 1, ts => match choice? fuel ts with
    | some (k, .mark ":" :: rest) => match choice? fuel rest with
      | some (v, .mark "\x7d" :: left) => some ([(k, v)], left)
      | some (v, .mark "," :: left) =>
        (entries? fuel left).map fun (es, left) => ((k, v) :: es, left)
      | _ => none
    | _ => none

/-- One named part or more, up to their end. -/
def named? : Nat → List Token → Option (List (String × Term) × List Token)
  | 0, _ => none
  | fuel + 1, ts => match ts with
    | .name s :: .mark ":" :: rest =>
      if isMember s then match choice? fuel rest with
        | some (v, .mark "\x7d" :: left) => some ([(s, v)], left)
        | some (v, .mark "," :: left) =>
          (named? fuel left).map fun (ps, left) => ((s, v) :: ps, left)
        | _ => none
      else none
    | _ => none

end

/-- The expression that a text is written as.  Each token is reached through at
most a dozen calls. -/
def ofText? (s : String) : Option Term :=
  match Token.ofText? s with
  | some ts => match choice? (12 * ts.length + 12) ts with
    | some (t, []) => some t
    | _ => none
  | none => none

end Automation.Expr.Term
