/-
Automation/Text/Blank.lean

White space, and texts without it at their ends.

A character is blank if the Unicode standard gives it the bidirectional type
WS, B or S or the category Zs.  That is more than the ASCII blanks (it has the
no-break space, the separators U+001C to U+001F and the line separators) and
it has neither the zero-width space nor the byte order mark.
-/
import Automation.Text.Ranges

namespace Automation.Text

/-- Blank code points, as closed ranges. -/
def blankRanges : List (Nat × Nat) :=
  [(0x9, 0xD), (0x1C, 0x20), (0x85, 0x85), (0xA0, 0xA0), (0x1680, 0x1680), (0x2000, 0x200A),
   (0x2028, 0x2029), (0x202F, 0x202F), (0x205F, 0x205F), (0x3000, 0x3000)]

/-- A white-space character. -/
def isBlank (c : Char) : Bool := inRanges blankRanges c.toNat

/-- Drops the longest run at the end whose characters satisfy `p`. -/
def dropEndWhile (p : Char → Bool) (cs : List Char) : List Char :=
  (cs.reverse.dropWhile p).reverse

/-- Drops the longest runs at both ends whose characters satisfy `p`. -/
def stripWhile (p : Char → Bool) (cs : List Char) : List Char :=
  dropEndWhile p (cs.dropWhile p)

/-- Drops the white space at both ends of a list of characters. -/
def stripChars (cs : List Char) : List Char := stripWhile isBlank cs

/-- Drops the white space at both ends of a text. -/
def strip (s : String) : String := String.ofList (stripChars s.toList)

/-- A text of white space only, the empty text included. -/
def isBlankText (s : String) : Bool := s.toList.all isBlank

end Automation.Text
