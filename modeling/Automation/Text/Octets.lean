/-
Automation/Text/Octets.lean

Code points as bytes of an encoded text.

A code point takes one byte up to U+007F, two up to U+07FF, three up to U+FFFF
and four beyond.  A range of code points of one length whose ends lie at the
borders of blocks is a sequence of byte ranges; `spellings` cuts any range into
such pieces, in ascending order.
-/
namespace Automation.Text

/-- The last code points of one, two and three bytes. -/
def lengthLimits : List Nat := [0x7F, 0x7FF, 0xFFFF]

/-- The bytes of a code point. -/
def octets (n : Nat) : List Nat :=
  let continuation (place : Nat) := 0x80 + n / place % 0x40
  if n ≤ 0x7F then [n]
  else if n ≤ 0x7FF then [0xC0 + n / 0x40, continuation 1]
  else if n ≤ 0xFFFF then [0xE0 + n / 0x1000, continuation 0x40, continuation 1]
  else [0xF0 + n / 0x40000, continuation 0x1000, continuation 0x40, continuation 1]

/-- A range cut behind each of some ascending places. -/
def cutBehind : List Nat → Nat → Nat → List (Nat × Nat)
  | [], first, last => [(first, last)]
  | limit :: limits, first, last =>
    if first ≤ limit ∧ limit < last then
      (first, limit) :: cutBehind limits (limit + 1) last
    else cutBehind limits first last

/-- A range of code points of one length, cut into pieces that are whole blocks or
lie within one.  The blocks of each size contain those of the size before. -/
def blocks : List Nat → Nat → Nat → List (Nat × Nat)
  | [], first, last => [(first, last)]
  | size :: sizes, first, last =>
    if first / size = last / size then [(first, last)]
    else
      let inner := (first + size - 1) / size * size
      let outer := (last + 1) / size * size
      (if first < inner then [(first, inner - 1)] else [])
        ++ (if inner < outer then blocks sizes inner (outer - 1) else [])
        ++ (if outer ≤ last then [(outer, last)] else [])

/-- The byte ranges of a piece. -/
def spelling (piece : Nat × Nat) : List (Nat × Nat) := (octets piece.1).zip (octets piece.2)

/-- The sequences of byte ranges that together spell a range of code points. -/
def spellings (range : Nat × Nat) : List (List (Nat × Nat)) :=
  (cutBehind lengthLimits range.1 range.2).flatMap fun (first, last) =>
    (if last ≤ 0x7F then [(first, last)]
      else blocks [0x40, 0x1000, 0x40000] first last).map spelling

end Automation.Text
