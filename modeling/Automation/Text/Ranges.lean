/-
Automation/Text/Ranges.lean

Sets of code points, written as lists of closed ranges.
-/
namespace Automation.Text

/-- `n` lies in one of the closed ranges. -/
def inRanges (ranges : List (Nat × Nat)) (n : Nat) : Bool :=
  ranges.any fun r => decide (r.1 ≤ n) && decide (n ≤ r.2)

/-- A range from `first` to `last`, and ranges that begin no sooner: those that touch
are made one. -/
def joined (first last : Nat) : List (Nat × Nat) → List (Nat × Nat)
  | [] => [(first, last)]
  | (a, b) :: rest =>
    if a ≤ last + 1 then joined first (max last b) rest else (first, last) :: joined a b rest

/-- The same set in ascending ranges that do not touch. -/
def normalized (ranges : List (Nat × Nat)) : List (Nat × Nat) :=
  match ranges.mergeSort fun r s => decide (r.1 ≤ s.1) with
  | [] => []
  | (a, b) :: rest => joined a b rest

/-- The code points from `start` on that lie outside ascending ranges. -/
def outside (start : Nat) : List (Nat × Nat) → List (Nat × Nat)
  | [] => if start ≤ 0x10FFFF then [(start, 0x10FFFF)] else []
  | (a, b) :: rest => (if start < a then [(start, a - 1)] else []) ++ outside (b + 1) rest

/-- How many code points ranges have that do not overlap. -/
def rangesSize (ranges : List (Nat × Nat)) : Nat :=
  ranges.foldl (fun n r => n + (r.2 + 1 - r.1)) 0

/-- The code points of ranges one by one. -/
def rangesCodes (ranges : List (Nat × Nat)) : List Nat :=
  ranges.flatMap fun r => List.range' r.1 (r.2 + 1 - r.1)

theorem inRanges_iff {ranges : List (Nat × Nat)} {n : Nat} :
    inRanges ranges n = true ↔ ∃ r ∈ ranges, r.1 ≤ n ∧ n ≤ r.2 := by
  simp [inRanges]

end Automation.Text
