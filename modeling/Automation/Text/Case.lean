/-
Automation/Text/Case.lean

Lower and upper case of a text.

Both are the full mappings of the Unicode standard: `I` with a dot above
becomes two characters in lower case, a sharp s becomes `SS` in upper case.
One rule looks at the neighbours: a capital sigma at the end of a word becomes
a final sigma.  It ends a word if, transparent characters aside, a character
with a case stands before it and none stands after it.
-/
import Automation.Text.CaseTable

namespace Automation.Text

/-- A character that the search for a cased neighbour looks through. -/
def isTransparent (c : Char) : Bool := inRanges transparentRanges c.toNat

/-- A character that has a case. -/
def isCased (c : Char) : Bool := inRanges casedRanges c.toNat

/-- The first character that is not transparent has a case. -/
def startsCased (cs : List Char) : Bool :=
  ((cs.dropWhile isTransparent).head?.map isCased).getD false

/-- Lower case of one character, whatever its neighbours are. -/
def lowerChar (c : Char) : List Char :=
  if c.toNat < 0x80 then [c.toLower]
  else if c.toNat = 0x130 then ['i', Char.ofNat 0x307]
  else [((CaseSpan.find? lowerSpans c.toNat).map Char.ofNat).getD c]

/-- Lower case of the rest of a text; `before` is what precedes it, nearest
character first. -/
def lowerFrom (before : List Char) : List Char → List Char
  | [] => []
  | c :: rest =>
    let low :=
      if c.toNat = 0x3A3 then
        if startsCased before && !startsCased rest then [Char.ofNat 0x3C2] else [Char.ofNat 0x3C3]
      else lowerChar c
    low ++ lowerFrom (c :: before) rest

/-- Lower case of a list of characters. -/
def lowerChars (cs : List Char) : List Char := lowerFrom [] cs

/-- Lower case of a text. -/
def lower (s : String) : String := String.ofList (lowerChars s.toList)

/-- Upper case of one character. -/
def upperChar (c : Char) : List Char :=
  if c.toNat < 0x80 then [c.toUpper]
  else match upperExpansions.lookup c.toNat with
    | some expansion => expansion.map Char.ofNat
    | none => [((CaseSpan.find? upperSpans c.toNat).map Char.ofNat).getD c]

/-- Upper case of a text. -/
def upper (s : String) : String := String.ofList (s.toList.flatMap upperChar)

end Automation.Text
