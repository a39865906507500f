/-
Automation/Expr/Pattern/Extent.lean

How large a pattern is once it is written out for a machine that reads bytes.

The machine has one state for each byte range, choice, anchor and edge of a
group.  A set becomes a tree of byte sequences: sequences that begin alike share
their beginning with the sequence before, and sequences that end alike share
their end with all others of the set.  Counts are written out.  A pattern whose
machine would have too many states is refused.
-/
import Automation.Expr.Pattern
import Automation.Text.Octets

namespace Automation.Expr

open Automation.Text

/-- The code points of a portion in ascending ranges. -/
def Portion.codes (folded : Bool) (p : Portion) : List (Nat × Nat) :=
  let ranges := normalized (if folded then withPeers p.ranges else p.ranges)
  if p.excluded then outside 0 ranges else ranges

/-- The code points of a set in ascending ranges. -/
def CharSet.codes (s : CharSet) : List (Nat × Nat) :=
  let ranges := normalized (s.portions.flatMap (·.codes s.folded))
  if s.negated then outside 0 ranges else ranges

/-- The ranges have each ASCII letter in both cases or in none. -/
def foldsAscii (ranges : List (Nat × Nat)) : Bool :=
  (List.range 26).all fun i => inRanges ranges (0x41 + i) == inRanges ranges (0x61 + i)

/-- The ranges that a machine tells apart: one that takes both cases of the ASCII
letters needs no range of capitals. -/
def machineRanges (ranges : List (Nat × Nat)) : List (Nat × Nat) :=
  if foldsAscii ranges then ranges.filter fun r => !(decide (0x41 ≤ r.1) && decide (r.2 ≤ 0x5A))
  else ranges

/-- The part of a byte sequence that it can share with the sequence before: the
first byte and the single bytes behind it, without the last one. -/
def stem : List (Nat × Nat) → List (Nat × Nat)
  | [] => []
  | [b] => [b]
  | b :: bs => b :: (bs.dropLast.takeWhile fun r => r.1 == r.2)

/-- A list and all its ends, but for the empty one. -/
def endsOf : List α → List (List α)
  | [] => []
  | a :: as => (a :: as) :: endsOf as

/-- The part of a byte sequence behind its stem, and the ends of that part. -/
def endings (spelled : List (Nat × Nat)) : List (List (Nat × Nat)) :=
  endsOf (spelled.drop (stem spelled).length)

/-- How long a common beginning two lists have. -/
def commonLength [DecidableEq α] : List α → List α → Nat
  | a :: as, b :: bs => if a = b then commonLength as bs + 1 else 0
  | _, _ => 0

/-- The states for the stems of byte sequences, after the stem of another one. -/
def stemStates (before : List (Nat × Nat)) : List (List (Nat × Nat)) → Nat
  | [] => 0
  | s :: rest =>
    let own := stem s
    own.length - commonLength before own + stemStates own rest

/-- A number for the end of a byte sequence. -/
def endingKey (ending : List (Nat × Nat)) : Nat :=
  ending.foldl (fun n r => (n * 256 + r.1) * 256 + r.2) 1

/-- How many different numbers an ascending list has. -/
def countDistinct : List Nat → Nat
  | [] => 0
  | [_] => 1
  | a :: b :: rest => (if a = b then 0 else 1) + countDistinct (b :: rest)

/-- The states of a machine for byte sequences, one of which is taken: those of the
stems, those of the ends, and one choice less than there are sequences. -/
def sequencesStates (spelled : List (List (Nat × Nat))) : Nat :=
  let keys := (spelled.flatMap endings).map endingKey
  stemStates [] spelled + countDistinct (keys.mergeSort fun a b => decide (a ≤ b))
    + (spelled.length - 1)

/-- The byte sequences for all code points beyond ASCII, whose ends are not checked
any closer. -/
def beyondAscii : List (List (Nat × Nat)) :=
  [[(0xC2, 0xDF), (0x80, 0xBF)], [(0xE0, 0xEF), (0x80, 0xBF), (0x80, 0xBF)],
    [(0xF0, 0xF4), (0x80, 0xBF), (0x80, 0xBF), (0x80, 0xBF)]]

/-- The byte sequences of a range of a set. -/
def spelledRange (range : Nat × Nat) : List (List (Nat × Nat)) :=
  if range.1 ≤ 0x80 ∧ range.2 = 0x10FFFF then
    (if range.1 = 0x80 then [] else [[(range.1, 0x7F)]]) ++ beyondAscii
  else spellings range

/-- The states of a machine for a set. -/
def CharSet.states (s : CharSet) : Nat :=
  sequencesStates ((machineRanges s.codes).flatMap spelledRange)

namespace Pattern

/-- The states of a machine for a pattern. -/
def states : Pattern → Nat
  | .empty => 1
  | .anchor _ => 1
  | .one s => s.states
  | .byte => 1
  | .kept p => p.states + 2
  | .both p q => p.states + q.states
  | .either p q => p.states + q.states + 1
  | .times p least none => max 1 least * p.states + 1
  | .times _ _ (some 0) => 1
  | .times p least (some most) => most * p.states + (most - least)

/-- The states of a machine beside those for the pattern: one at which it fails, one
at which it has a match, and two that skip what comes before a match. -/
def ownStates : Nat := 4

/-- The most states that a machine has. -/
def stateLimit : Nat := 174749

/-- A machine for the pattern has not too many states. -/
def isFeasible (p : Pattern) : Bool := decide (p.states + ownStates ≤ stateLimit)

end Pattern

end Automation.Expr
