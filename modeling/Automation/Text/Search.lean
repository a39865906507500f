/-
Automation/Text/Search.lean

One text inside another, and texts cut at a character.
-/
namespace Automation.Text

/-- `needle` occurs somewhere in the list. -/
def occursIn (needle : List Char) : List Char → Bool
  | [] => needle.isEmpty
  | c :: rest => needle.isPrefixOf (c :: rest) || occursIn needle rest

/-- `needle` occurs somewhere in `text`. -/
def contains (text needle : String) : Bool := occursIn needle.toList text.toList

/-- `text` begins with `start`. -/
def startsWith (text start : String) : Bool := start.toList.isPrefixOf text.toList

/-- `text` ends with `ending`. -/
def endsWith (text ending : String) : Bool := ending.toList.isSuffixOf text.toList

/-- The parts of a list between the occurrences of a mark. -/
def cut (mark : Char) (cs : List Char) : List (List Char) := cs.splitOn mark

/-- What stands before and after the first occurrence of a mark; a list without
one is all before it. -/
def cutOnce (mark : Char) : List Char → List Char × List Char
  | [] => ([], [])
  | c :: rest => if c = mark then ([], rest) else
    let (before, after) := cutOnce mark rest
    (c :: before, after)

/-- The texts of a list with a separator between neighbours. -/
def join (separator : String) (parts : List String) : String :=
  String.intercalate separator parts

end Automation.Text
