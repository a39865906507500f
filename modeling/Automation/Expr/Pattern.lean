/-
Automation/Expr/Pattern.lean

Regular expressions.

A pattern matches characters of a set, single bytes of the encoded text, places
in a text, and what is built of these.  Only repetition has no bound of its own
on the length of a match; a counted one stands for as many copies of what it
repeats, and `copies` tells how many copies there are of the part that has most.
-/
import Automation.Text.Folding

namespace Automation.Expr

/-- A place in a text where an empty match may be asked for. -/
inductive Anchor
  | textStart
  | textEnd
  | lineStart
  | lineEnd
  | wordEdge
  | noWordEdge
  deriving DecidableEq, Repr

/-- Closed ranges of code points, of which either the members or all others are
meant. -/
structure Portion where
  excluded : Bool
  ranges : List (Nat × Nat)
  deriving DecidableEq, Repr

/-- The portion that has some code point of a list. -/
def Portion.meets (p : Portion) (codes : List Nat) : Bool :=
  (codes.any (Text.inRanges p.ranges)) != p.excluded

/-- A set of characters. -/
structure CharSet where
  /-- The characters outside are meant. -/
  negated : Bool
  /-- A character stands for all that it folds together with. -/
  folded : Bool
  portions : List Portion
  deriving DecidableEq, Repr

/-- The set has the character of a code point, whose peers are given. -/
def CharSet.has (s : CharSet) (code : Nat) (peers : List Nat) : Bool :=
  (s.portions.any (·.meets (if s.folded then peers else [code]))) != s.negated

/-- A regular expression. -/
inductive Pattern
  | empty
  | anchor (a : Anchor)
  | one (set : CharSet)
  /-- One byte of the encoded text. -/
  | byte
  /-- A group whose match is kept. -/
  | kept (p : Pattern)
  | both (p q : Pattern)
  | either (p q : Pattern)
  /-- At least `least` times, and at most `most` times if that is given. -/
  | times (p : Pattern) (least : Nat) (most : Option Nat)
  deriving DecidableEq, Repr

namespace Pattern

/-- How many copies there are at most of one part, once counts are written
out. -/
def copies : Pattern → Nat
  | .kept p => p.copies
  | .both p q => max p.copies q.copies
  | .either p q => max p.copies q.copies
  | .times p least most => max 1 (most.getD least) * p.copies
  | _ => 1

/-- Some set of the pattern is folded. -/
def isFolded : Pattern → Bool
  | .one s => s.folded
  | .kept p => p.isFolded
  | .both p q => p.isFolded || q.isFolded
  | .either p q => p.isFolded || q.isFolded
  | .times p _ _ => p.isFolded
  | _ => false

/-- Patterns one after another. -/
def sequence : List Pattern → Pattern
  | [] => .empty
  | [p] => p
  | p :: ps => .both p (sequence ps)

end Pattern

end Automation.Expr
