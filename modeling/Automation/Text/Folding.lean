/-
Automation/Text/Folding.lean

Characters that differ in case only.

Two characters fold together if the lower case of their upper case is the same
character.  All mappings here are the simple ones, of one character to one: a
small letter whose full upper case is longer still has a capital of its own if
that has an iota below.  The dotless `i` and the capital `I` with a dot fold
with nothing else.  Three letters fold with another letter of the same case, of
which they are a variant.
-/
import Automation.Text.CaseTable

namespace Automation.Text

/-- Lower case, ASCII letters included. -/
def simpleLowerSpans : List CaseSpan := ⟨0x41, 0x5A, 1, 32⟩ :: lowerSpans

/-- Upper case, ASCII letters and letters with an iota below included. -/
def simpleUpperSpans : List CaseSpan :=
  [⟨0x61, 0x7A, 1, -32⟩, ⟨0x1F80, 0x1F87, 1, 8⟩, ⟨0x1F90, 0x1F97, 1, 8⟩, ⟨0x1FA0, 0x1FA7, 1, 8⟩,
    ⟨0x1FB3, 0x1FB3, 1, 9⟩, ⟨0x1FC3, 0x1FC3, 1, 9⟩, ⟨0x1FF3, 0x1FF3, 1, 9⟩] ++ upperSpans

/-- Where a table of spans sends a code point; one that is not moved stays. -/
def CaseSpan.image (spans : List CaseSpan) (n : Nat) : Nat := (CaseSpan.find? spans n).getD n

/-- The code points that one span sends to `n`. -/
def CaseSpan.source? (n : Nat) (s : CaseSpan) : Option Nat :=
  let m := ((n : Int) - s.shift).toNat
  if s.first ≤ m ∧ m ≤ s.last ∧ (m - s.first) % s.step = 0 ∧ (m : Int) + s.shift = n then some m
  else none

/-- The code points that a table of spans sends to `n`. -/
def CaseSpan.sources (spans : List CaseSpan) (n : Nat) : List Nat :=
  spans.filterMap (CaseSpan.source? n)

/-- Letters that are variants of others. -/
def variants : List (Nat × Nat) := [(0x1FD3, 0x390), (0x1FE3, 0x3B0), (0xFB05, 0xFB06)]

/-- The code point that stands for all that fold together with `n`. -/
def folded (n : Nat) : Nat :=
  match variants.lookup n with
  | some m => m
  | none =>
    if n = 0x130 ∨ n = 0x131 then n
    else CaseSpan.image simpleLowerSpans (CaseSpan.image simpleUpperSpans n)

/-- The variants of a letter. -/
def variantsOf (n : Nat) : List Nat :=
  variants.filterMap fun v => if v.2 = n then some v.1 else none

/-- The code points that fold together with `n`, itself included. -/
def peers (n : Nat) : List Nat :=
  let capitals := folded n :: CaseSpan.sources simpleLowerSpans (folded n)
  (capitals ++ capitals.flatMap (CaseSpan.sources simpleUpperSpans) ++ variantsOf (folded n)).filter
    fun m => folded m == folded n

/-- The code points that spans move, and those that they are moved to. -/
def CaseSpan.moved (spans : List CaseSpan) : List Nat :=
  spans.flatMap fun s =>
    (List.range ((s.last - s.first) / s.step + 1)).flatMap fun i =>
      let n := s.first + i * s.step
      [n, ((n : Int) + s.shift).toNat]

/-- All code points that may fold together with others. -/
def casedCodes : List Nat :=
  CaseSpan.moved simpleLowerSpans ++ CaseSpan.moved simpleUpperSpans ++ variants.map (·.1)

/-- Ranges with all that their code points fold together with.  Few code points
are looked up one by one; otherwise all that have a case are. -/
def withPeers (ranges : List (Nat × Nat)) : List (Nat × Nat) :=
  let singles (codes : List Nat) := codes.map fun n => (n, n)
  if rangesSize ranges ≤ 512 then ranges ++ singles ((rangesCodes ranges).flatMap peers)
  else ranges ++ singles (casedCodes.filter fun n => (peers n).any (inRanges ranges))

/-- Code points that fold together do so in both directions. -/
theorem folded_of_mem_peers {m n : Nat} (h : m ∈ peers n) : folded m = folded n := by
  simpa using (List.mem_filter.1 h).2

end Automation.Text
