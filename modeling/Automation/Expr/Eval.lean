/-
Automation/Expr/Eval.lean

The value of a condition expression.

A failure is a value, and an operator with a failed operand fails in its turn,
except that conjunction, disjunction, choices, maps and `has` may do without that
operand.  Both sides of a conjunction are looked at, so their order does not
matter.  Some mistakes abort the whole evaluation instead: going through what has
no members, a comprehension that is not written as it should be, or one whose body
fails for a member.  A few places stop an abort and make a failure of it.

Evaluation has a limited depth.  Each rank that an expression passes through on
the way to its own takes some of it, and so do calls and comprehensions; an
expression that is nested too deeply is aborted.
-/
import Automation.Expr.Datum.Arithmetic
import Automation.Expr.Names
import Automation.Expr.Term.Reader

namespace Automation.Expr

/-! ### Operators -/

/-- A relation between two values; a failure on either side is the answer. -/
def relation (a b : Datum) (result : Except Failure Datum) : Except Failure Datum :=
  match a, b with
  | .failed f, _ => .error f
  | _, .failed f => .error f
  | _, _ => result

/-- An operator between two values, either of which may be a failure. -/
def Operation.apply (op : Operation) (a b : Datum) : Datum :=
  Datum.settle <| match op with
    | .or => ((Datum.or? a b).map .ok).getD (.error (Datum.unsuited "_||_" [a, b]))
    | .and => ((Datum.and? a b).map .ok).getD (.error (Datum.unsuited "_&&_" [a, b]))
    | .less => relation a b (a.compared "_<_" (· == .lt) b)
    | .lessOrEqual => relation a b (a.compared "_<=_" (· != .gt) b)
    | .greater => relation a b (a.compared "_>_" (· == .gt) b)
    | .greaterOrEqual => relation a b (a.compared "_>=_" (· != .lt) b)
    | .equal => relation a b (Datum.answer "_==_" [a, b] (a.equal? b))
    | .differ => relation a b (Datum.answer "_!=_" [a, b] (a.differ? b))
    | .isIn => a.isIn b
    | .add => a.add b
    | .sub => a.sub b
    | .mul => a.mul b
    | .div => a.div b
    | .rem => a.rem b

/-! ### Comprehensions -/

/-- The value of a body that has to have one. -/
def proper (body : Except Abort Datum) : Except Abort Datum :=
  match body with
  | .ok (.failed _) => .error .failed
  | other => other

/-- The value of a body that may fail. -/
def lenient (body : Except Abort Datum) : Except Abort Datum :=
  match body with
  | .error .failed => .ok (.failed (.unfitting "body"))
  | other => other

/-- One more part of a conjunction or disjunction. -/
def joinPart (join : Datum → Datum → Option Datum) (a b : Datum) : Datum :=
  (join a b).getD (.failed (Datum.unsuited "join" [a, b]))

/-- What is done with the value of a body, by the comprehension. -/
def Quantifier.receive (q : Quantifier) (body : Except Abort Datum) : Except Abort Datum :=
  match q with
  | .all => lenient body
  | .any => lenient body
  | _ => proper body

/-- A comprehension over members, given what its body is for each of them. -/
def Quantifier.apply (q : Quantifier) (members bodies : List Datum) : Datum :=
  match q with
  | .all => bodies.foldl (joinPart Datum.and?) (.ofBool true)
  | .any => bodies.foldl (joinPart Datum.or?) (.ofBool false)
  | .one => .ofBool ((bodies.filter Datum.isTruthy).length == 1)
  | .filter =>
    .list .given ((members.zip bodies).filterMap fun (m, d) => if d.isTruthy then some m else none)
  | .collect => .list .given bodies

/-- The least of some values, the first of equal ones; nothing if two of them have
no order. -/
def leastOf? (least : Datum) : List Datum → Option Datum
  | [] => some least
  | d :: ds => match d.order? least with
    | some o => leastOf? (if o = some .lt then d else least) ds
    | none => none

/-- The least member of a value. -/
def leastMember (d : Datum) : Except Abort Datum :=
  match d.members? with
  | none => .error .noMembers
  | some [] => .ok (.failed (.unfitting "least"))
  | some (m :: ms) => match leastOf? m ms with
    | some least => .ok least
    | none => .error .noMembers

/-- Binds a name, if there is one. -/
def bindName (names : Names) (name : Option String) (d : Datum) : Names :=
  match name with
  | some s => names.bind s d
  | none => names

/-! ### Values with named parts -/

/-- Some name comes twice. -/
def hasRepeats : List String → Bool
  | [] => false
  | x :: xs => xs.contains x || hasRepeats xs

/-- A value with named parts behind it: a kind makes a value of the part `value`,
or of null where there are no parts. -/
def constructed (d : Datum) (parts : List (String × Datum)) : Except Abort Datum :=
  match d with
  | .failed f => .ok (.failed f)
  | .function name => match parts with
    | [] => Function.apply name [.null]
    | _ => match parts.lookup "value" with
      | some v => Function.apply name [v]
      | none => .ok (.failed (Datum.unsuited name (parts.map (·.2))))
  | d => .ok (.failed (Datum.unsuited "construct" [d]))

/-! ### Depth -/

/-- How deep an evaluation may go. -/
def depthLimit : Nat := 985

/-- What is left of the depth behind an expression of rank `own` that stands in a
place of rank `place`, and that takes `more` besides. -/
def enter (room place own more : Nat) : Except Abort Nat :=
  let taken := 3 * (own - place) + 3 + more
  if taken ≤ room then .ok (room - taken) else .error .final

/-! ### Evaluation -/

/-- A failure in the place of going through what has no members. -/
def orFailure (result : Except Abort Datum) : Except Abort Datum :=
  match result with
  | .error .noMembers => .ok (.failed (.unsuitable "_?_:_" []))
  | other => other

/-- The map of some entries; it stops aborts that a map can do without. -/
def mapOf (entries : Except Abort (List (Datum × Datum))) : Except Abort Datum :=
  match entries with
  | .ok es => .ok (Datum.settle (Datum.ofEntries es))
  | .error .noMembers => .ok (.failed (.unsuitable "map" []))
  | .error .miswritten => .ok (.failed (.unfitting "map"))
  | .error other => .error other

/-- The value of a call of a function. -/
def callValue (function : String) (args : List Datum) : Except Abort Datum :=
  match function, args with
  | "has", d :: _ => .ok (.ofBool d.failure?.isNone)
  | "dyn", d :: _ => .ok d
  | "has", [] => .error .final
  | "dyn", [] => .error .final
  | _, _ => Function.apply function args

/-- The value of a call that gives all its arguments at once: a failure among them
is the answer. -/
def wholeCall (function : String) (args : List Datum) : Except Abort Datum :=
  match Datum.firstFailure? args with
  | some f => .ok (.failed f)
  | none => Function.apply function args

mutual

/-- The value of an expression in a place of some rank, with some depth left. -/
def Term.eval (names : Names) (place room : Nat) : Term → Except Abort Datum
  | .literal d => do
    let _ ← enter room place Term.primaryRank 4
    .ok d
  | .name _ s => do
    let _ ← enter room place Term.primaryRank 5
    .ok (names.value s)
  | .group t => do
    let room ← enter room place Term.primaryRank 0
    t.eval names Term.choiceRank room
  | .list items => do
    let room ← enter room place Term.primaryRank 3
    let ds ← Term.evalAll names room items
    match Datum.firstFailure? ds with
    | some f => .ok (.failed f)
    | none => .ok (.list .given ds)
  | .map entries => do
    let room ← enter room place Term.primaryRank 3
    mapOf (Term.evalEntries names room entries)
  | .negative t => do
    let room ← enter room place Term.unaryRank 0
    .ok (Datum.settle (← t.eval names Term.unaryRank room).neg)
  | .negation t => do
    let room ← enter room place Term.unaryRank 0
    .ok (Datum.settle (← t.eval names Term.unaryRank room).not)
  | .apply op a b => do
    let room ← enter room place op.rank 0
    let inner ← if op.rank < 3 then .ok room else enter room 0 0 0
    let left ← a.eval names op.rank inner
    let right ← b.eval names (op.rank + 1) room
    .ok (op.apply left right)
  | .choice c a b => do
    let room ← enter room place Term.choiceRank 0
    let condition ← c.eval names 1 room
    let chosen ← orFailure <|
      if condition.isTruthy then a.eval names 1 room else b.eval names Term.choiceRank room
    match condition with
    | .truth _ => .ok chosen
    | _ => .ok (.failed (Datum.unsuited "_?_:_" [condition]))
  | .select t field => do
    let room ← enter room place Term.memberRank 3
    .ok (Datum.settle ((← t.eval names Term.memberRank room).select field))
  | .index t i => do
    let room ← enter room place Term.memberRank 3
    let target ← t.eval names Term.memberRank room
    let i ← i.eval names Term.choiceRank room
    .ok (Datum.settle (target.part i))
  | .construct t parts => do
    let room ← enter room place Term.memberRank 3
    let target ← t.eval names Term.memberRank room
    let values ← Term.evalParts names room parts
    if hasRepeats (values.map (·.1)) then .error .miswritten else constructed target values
  | .call rooted function args => do
    let room ← enter room place Term.primaryRank (if rooted then 3 else 0)
    let ds ← Term.evalAll names room args
    if rooted then wholeCall function ds else callValue function ds
  | .invoke t method args => do
    let room ← enter room place Term.memberRank 3
    let target ← t.eval names Term.memberRank room
    let ds ← Term.evalAll names room args
    wholeCall method (target :: ds)
  | .quantify q t bound body => do
    let room ← enter room place Term.memberRank 3
    let target ← t.eval names Term.memberRank room
    match target, bound, target.members? with
    | .failed f, _, _ => .ok (.failed f)
    | _, none, _ => .error .failed
    | _, _, none => .error .noMembers
    | _, some s, some members => do
      let room ← enter room 0 0 0
      let bodies ← members.mapM fun m =>
        q.receive (body.eval (names.bind s m) Term.choiceRank room)
      .ok (q.apply members bodies)
  | .reduce t joined member first body => do
    let room ← enter room place Term.memberRank 3
    let target ← t.eval names Term.memberRank room
    match target, joined.isSome && member.isSome, target.members? with
    | .failed f, _, _ => .ok (.failed f)
    | _, false, _ => .error .failed
    | _, true, members => do
      let start ← first.eval names Term.choiceRank room
      let room ← enter room 0 0 0
      match members with
      | none => .error .noMembers
      | some members =>
        let turn (d m : Datum) :=
          let names := bindName (bindName names joined d) member m
          proper (body.eval names Term.choiceRank room)
        members.foldlM turn start
  | .least t => do
    let room ← enter room place Term.memberRank 3
    let target ← t.eval names Term.memberRank room
    match target with
    | .failed f => .ok (.failed f)
    | d => leastMember d
  | .miswritten t bare => do
    let room ← enter room place Term.memberRank 3
    match ← t.eval names Term.memberRank room with
    | .failed f => .ok (.failed f)
    | _ => .error (if bare then .final else .miswritten)

/-- The values of expressions. -/
def Term.evalAll (names : Names) (room : Nat) : List Term → Except Abort (List Datum)
  | [] => .ok []
  | t :: ts => do
    let d ← t.eval names Term.choiceRank room
    let ds ← Term.evalAll names room ts
    .ok (d :: ds)

/-- The values of the entries of a map. -/
def Term.evalEntries (names : Names) (room : Nat) :
    List (Term × Term) → Except Abort (List (Datum × Datum))
  | [] => .ok []
  | (k, v) :: rest => do
    let k ← k.eval names Term.choiceRank room
    let v ← v.eval names Term.choiceRank room
    let es ← Term.evalEntries names room rest
    .ok ((k, v) :: es)

/-- The values of named parts. -/
def Term.evalParts (names : Names) (room : Nat) :
    List (String × Term) → Except Abort (List (String × Datum))
  | [] => .ok []
  | (s, t) :: rest => do
    let d ← t.eval names Term.choiceRank room
    let ds ← Term.evalParts names room rest
    .ok ((s, d) :: ds)

end

/-- The truth of a written expression under what names stand for; nothing if it
cannot be read or evaluated. -/
def truthOf? (source : String) (values : Fields Value) : Option Bool := do
  let t ← Term.ofText? source
  let names ← Names.ofFields? values
  match t.eval names Term.choiceRank depthLimit with
  | .ok (.failed _) => none
  | .ok d => some d.isTruthy
  | .error _ => none

end Automation.Expr
