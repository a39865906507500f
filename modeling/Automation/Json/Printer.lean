/-
Automation/Json/Printer.lean

Values as structured text.

The text is printable ASCII: any other character is written as an escape, or as two
when it does not fit sixteen bits.  Objects keep the order of their fields; a key
that is no text is written as its value would be, in quotation marks.  A `Style`
gives the separators, and says whether numbers that are not finite are written by
the words `NaN`, `Infinity` and `-Infinity` or left out as nulls.
-/
import Automation.Value.Basic
import Automation.Number.Decimal
import Automation.Text.Quoted

namespace Automation.Json

open Automation.Text (hexDigits)

/-- What stands between the elements of a list and after a key. -/
structure Style where
  betweenItems : String
  afterKey : String
  /-- Numbers that are not finite are written by their words, not as nulls. -/
  wordsNumbers : Bool

/-- With a space after each separator. -/
def Style.spaced : Style := ⟨", ", ": ", true⟩

/-- Without any space. -/
def Style.compact : Style := ⟨",", ":", true⟩

/-- Without any space, and such that every reader of the format takes it. -/
def Style.strict : Style := ⟨",", ":", false⟩

/-- The escape of one sixteen-bit unit. -/
def unitEscape (n : Nat) : List Char := '\\' :: 'u' :: hexDigits 4 n

/-- One character inside quotation marks. -/
def charText (c : Char) : List Char :=
  if c = '"' then ['\\', '"']
  else if c = '\\' then ['\\', '\\']
  else if c = '\n' then ['\\', 'n']
  else if c = '\r' then ['\\', 'r']
  else if c = '\t' then ['\\', 't']
  else if c.toNat = 0x08 then ['\\', 'b']
  else if c.toNat = 0x0C then ['\\', 'f']
  else if 0x20 ≤ c.toNat ∧ c.toNat < 0x7F then [c]
  else if c.toNat < 0x10000 then unitEscape c.toNat
  else
    let n := c.toNat - 0x10000
    unitEscape (0xD800 + n / 0x400) ++ unitEscape (0xDC00 + n % 0x400)

/-- A text in quotation marks. -/
def quoted (s : String) : List Char := '"' :: s.toList.flatMap charText ++ ['"']

/-- An integer in decimal. -/
def intText (n : Int) : List Char :=
  (if n < 0 then ['-'] else []) ++ Decimal.digitChars n.natAbs

/-- A number in a style. -/
def floatText (style : Style) (x : Binary64) : List Char :=
  if style.wordsNumbers || x.isFinite then Layout.structured.text x
  else ['n', 'u', 'l', 'l']

/-- The text that a key is written as. -/
def keyText : Key → String
  | .null => "null"
  | .bool true => "true"
  | .bool false => "false"
  | .int n => String.ofList (intText n)
  | .float x => String.ofList (Layout.structured.text x)
  | .text s => s

mutual

/-- The text of a value. -/
def chars (style : Style) : Value → List Char
  | .null => ['n', 'u', 'l', 'l']
  | .bool true => ['t', 'r', 'u', 'e']
  | .bool false => ['f', 'a', 'l', 's', 'e']
  | .int n => intText n
  | .float x => floatText style x
  | .text s => quoted s
  | .list [] => ['[', ']']
  | .list (v :: vs) => '[' :: chars style v ++ itemsTail style vs
  | .object [] => [Char.ofNat 0x7B, Char.ofNat 0x7D]
  | .object ((k, v) :: fs) =>
    Char.ofNat 0x7B :: quoted k ++ style.afterKey.toList ++ chars style v ++ fieldsTail style fs
  | .table [] => [Char.ofNat 0x7B, Char.ofNat 0x7D]
  | .table ((k, v) :: es) =>
    Char.ofNat 0x7B :: quoted (keyText k) ++ style.afterKey.toList ++ chars style v
      ++ entriesTail style es

/-- The elements after the first, and the end of the list. -/
def itemsTail (style : Style) : List Value → List Char
  | [] => [']']
  | v :: vs => style.betweenItems.toList ++ chars style v ++ itemsTail style vs

/-- The fields after the first, and the end of the object. -/
def fieldsTail (style : Style) : List (String × Value) → List Char
  | [] => [Char.ofNat 0x7D]
  | (k, v) :: fs =>
    style.betweenItems.toList ++ quoted k ++ style.afterKey.toList ++ chars style v
      ++ fieldsTail style fs

/-- The entries after the first, and the end of the table. -/
def entriesTail (style : Style) : List (Key × Value) → List Char
  | [] => [Char.ofNat 0x7D]
  | (k, v) :: es =>
    style.betweenItems.toList ++ quoted (keyText k) ++ style.afterKey.toList ++ chars style v
      ++ entriesTail style es

end

/-- The text of a value in a style. -/
def print (style : Style) (v : Value) : String := String.ofList (chars style v)

end Automation.Json
