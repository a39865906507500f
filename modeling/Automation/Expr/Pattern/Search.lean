/-
Automation/Expr/Pattern/Search.lean

Whether a text has a match of a pattern.

A trace is a pattern whose sets carry marks: a mark says that a match that began
somewhere has got to the end of that set.  Each byte of the text moves the marks
on, so a search takes as many steps as the text has bytes, and the trace never
grows.  A character that takes several bytes leaves the mark waiting until its
last byte.  Empty matches depend on the neighbours of a place, so every question
about a trace carries the characters before and after it.
-/
import Automation.Expr.Pattern

namespace Automation.Expr

/-- The characters before and after a place in a text. -/
abbrev Place := Option Char × Option Char

/-- A character of a word. -/
def isWordChar (c : Char) : Bool := c.isAlphanum || c == '_'

/-- The anchor holds at a place. -/
def Anchor.holdsAt (place : Place) : Anchor → Bool
  | .textStart => place.1.isNone
  | .textEnd => place.2.isNone
  | .lineStart => place.1.all (· == '\n')
  | .lineEnd => place.2.all (· == '\n')
  | .wordEdge => (place.1.any isWordChar) != (place.2.any isWordChar)
  | .noWordEdge => (place.1.any isWordChar) == (place.2.any isWordChar)

/-- How far a match has got in a set. -/
inductive Mark
  | none
  /-- In the middle of a character of the set. -/
  | waiting
  /-- At the end of a character of the set. -/
  | reached
  deriving DecidableEq, Repr

/-- A byte of a text. -/
structure Byte where
  /-- The character that it belongs to. -/
  code : Nat
  /-- What the character folds together with. -/
  peers : List Nat
  isFirst : Bool
  isLast : Bool
  /-- The neighbours of the place before it. -/
  place : Place

/-- The mark of a set after a byte; `enters` says that a match may begin there. -/
def Mark.next (set : CharSet) (b : Byte) (enters : Bool) (m : Mark) : Mark :=
  let taken := if b.isFirst then enters && set.has b.code b.peers else m == .waiting
  if taken then (if b.isLast then .reached else .waiting) else .none

/-- A pattern with the marks of a search. -/
inductive Trace
  | empty
  | anchor (a : Anchor)
  | one (set : CharSet) (mark : Mark)
  | byte (reached : Bool)
  | both (p q : Trace)
  | either (p q : Trace)
  | many (p : Trace)

namespace Trace

/-- `p` up to `count` times. -/
def upTo (p : Trace) : Nat → Trace
  | 0 => .empty
  | count + 1 => .either .empty (.both p (upTo p count))

/-- `p` so many times, and then `q`. -/
def copiesThen (p q : Trace) : Nat → Trace
  | 0 => q
  | count + 1 => .both p (copiesThen p q count)

/-- A pattern without marks, its counts written out. -/
def ofPattern : Pattern → Trace
  | .empty => .empty
  | .anchor a => .anchor a
  | .one s => .one s .none
  | .byte => .byte false
  | .kept p => ofPattern p
  | .both p q => .both (ofPattern p) (ofPattern q)
  | .either p q => .either (ofPattern p) (ofPattern q)
  | .times p least none => copiesThen (ofPattern p) (.many (ofPattern p)) least
  | .times p least (some most) =>
    copiesThen (ofPattern p) (upTo (ofPattern p) (most - least)) least

/-- There is an empty match at a place. -/
def skips (place : Place) : Trace → Bool
  | .empty => true
  | .anchor a => a.holdsAt place
  | .one .. => false
  | .byte _ => false
  | .both p q => p.skips place && q.skips place
  | .either p q => p.skips place || q.skips place
  | .many _ => true

/-- A match that has begun before may end at a place. -/
def ends (place : Place) : Trace → Bool
  | .empty => false
  | .anchor _ => false
  | .one _ mark => mark == .reached
  | .byte reached => reached
  | .both p q => q.ends place || (p.ends place && q.skips place)
  | .either p q => p.ends place || q.ends place
  | .many p => p.ends place

/-- The trace after a byte; `enters` says that a match may begin before it. -/
def step (b : Byte) (enters : Bool) : Trace → Trace
  | .empty => .empty
  | .anchor a => .anchor a
  | .one set mark => .one set (mark.next set b enters)
  | .byte _ => .byte enters
  | .both p q =>
    .both (p.step b enters) (q.step b (p.ends b.place || (enters && p.skips b.place)))
  | .either p q => .either (p.step b enters) (q.step b enters)
  | .many p => .many (p.step b (enters || p.ends b.place))

/-- A match may end at a place, one that begins there included. -/
def isFound (place : Place) (t : Trace) : Bool := t.ends place || t.skips place

/-- The trace after the remaining bytes of a character, unless a match ends
between two of them. -/
def inside? (c : Char) (peers : List Nat) (t : Trace) : Nat → Option Trace
  | 0 => some t
  | count + 1 =>
    let place : Place := (some c, some c)
    if t.isFound place then none
    else inside? c peers (t.step ⟨c.toNat, peers, false, count == 0, place⟩ true) count

/-- The trace after a character, unless a match ends before its last byte. -/
def afterChar? (before : Option Char) (c : Char) (peers : List Nat) (t : Trace) : Option Trace :=
  let place : Place := (before, some c)
  if t.isFound place then none
  else
    let more := c.utf8Size - 1
    inside? c peers (t.step ⟨c.toNat, peers, true, more == 0, place⟩ true) more

/-- A match ends somewhere in the rest of a text. -/
def foundIn (folded : Bool) (before : Option Char) (t : Trace) : List Char → Bool
  | [] => t.isFound (before, none)
  | c :: rest =>
    match t.afterChar? before c (if folded then Text.peers c.toNat else []) with
    | none => true
    | some t => foundIn folded (some c) t rest

end Trace

/-- Some part of the text matches. -/
def Pattern.occursIn (p : Pattern) (s : String) : Bool :=
  (Trace.ofPattern p).foundIn p.isFolded none s.toList

end Automation.Expr
