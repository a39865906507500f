/-
Automation/Text/Property.lean

Sets of characters by the names of their properties.

A name is that of a general category, of a group of categories, or of a script;
`Any` names all characters.  Upper and lower case matter in names.
-/
import Automation.Text.Category
import Automation.Text.Quoted
import Automation.Text.Script
import Automation.Text.Search

namespace Automation.Text

/-- The number that hexadecimal digits stand for. -/
def hexNumber (cs : List Char) : Nat := cs.foldl (fun n c => 16 * n + (hexValue? c).getD 0) 0

/-- A range written as its ends with a hyphen between them; a single code point
is written once. -/
def writtenRange (cs : List Char) : Nat × Nat :=
  match cs.span (· != '-') with
  | (first, _ :: last) => (hexNumber first, hexNumber last)
  | (only, []) => (hexNumber only, hexNumber only)

/-- The ranges of a line of a table. -/
def writtenRanges (line : String) : List (Nat × Nat) := (cut ' ' line.toList).map writtenRange

/-- The closed ranges of code points that have the property of a name. -/
def property? (name : String) : Option (List (Nat × Nat)) :=
  if name = "Any" then some [(0, 0x10FFFF)]
  else match categories.lookup name with
    | some lines => some (lines.flatMap writtenRanges)
    | none => (scripts.lookup name).map (·.flatMap writtenRanges)

/-- The character has the property of a name. -/
def hasProperty (name : String) (c : Char) : Bool :=
  ((property? name).map (inRanges · c.toNat)).getD false

end Automation.Text
