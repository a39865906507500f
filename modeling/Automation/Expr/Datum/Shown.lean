/-
Automation/Expr/Datum/Shown.lean

The texts of values.

A value has a short text and a full one.  In the full text a given value carries
the name of its kind, and texts and bytes are quoted.  The short text is that of a
conversion: a text itself, a number without its kind, and for all else the full
text.
-/
import Automation.Expr.Datum
import Automation.Value.Text

namespace Automation.Expr

namespace Datum

/-- A text with the name of a kind around it, if the value was given. -/
def named (o : Origin) (kind : String) (inner : List Char) : List Char :=
  match o with
  | .given => kind.toList ++ '(' :: inner ++ [')']
  | .computed => inner

/-- One byte between the given quotation marks. -/
def quoteByte (mark : Char) (b : UInt8) : List Char :=
  let c := Char.ofNat b.toNat
  if c = mark ∨ c = '\\' ∨ c = '\n' ∨ c = '\r' ∨ c = '\t' then Text.quoteChar mark c
  else if 0x20 ≤ b.toNat ∧ b.toNat < 0x7F then [c]
  else '\\' :: 'x' :: Text.hexDigits 2 b.toNat

/-- Bytes in quotation marks. -/
def quoteBytes (bs : List UInt8) : List Char :=
  let mark := Text.quoteMark (bs.map fun b => Char.ofNat b.toNat)
  'b' :: mark :: bs.flatMap (quoteByte mark) ++ [mark]

/-- Parts with commas between them. -/
def listed : List (List Char) → List Char
  | [] => []
  | [part] => part
  | part :: parts => part ++ ',' :: ' ' :: listed parts

/-- The word for a truth value. -/
def truthWord (n : Int) : List Char := if n = 0 then "False".toList else "True".toList

/-- The word for the kind of an integer. -/
def inspectInt (w : Width) (n : Int) : List Char :=
  match w with
  | .signed => named .given "IntType" (Json.intText n)
  | .unsigned => named .given "UintType" (Json.intText n)
  | .unbounded => Json.intText n

/-- A failure in words. -/
def failureChars (f : Failure) : List Char :=
  match f with
  | .unbound name => ("undeclared reference to '" ++ name ++ "'").toList
  | .noMember name => "no such member in mapping: ".toList ++ Text.quote name
  | .noMembers shown => (shown ++ " does not support field selection").toList
  | .unsuitable operation operands =>
    ("found no matching overload for '" ++ operation ++ "' applied to '").toList
      ++ listed (operands.map String.toList) ++ ['\'']
  | .zeroDivisor _ => "modulus or divide by zero".toList
  | .unfitting _ => "return error for overflow".toList

mutual

/-- The full text of a value. -/
def inspectChars : Datum → List Char
  | .null => "None".toList
  | .truth n => named .given "BoolType" (truthWord n)
  | .int w n => inspectInt w n
  | .double o x => named o "DoubleType" (Layout.plain.text x)
  | .text o s => named o "StringType" (Text.quote s)
  | .bytes o bs => named o "BytesType" (quoteBytes bs)
  | .list o items => named o "ListType" ('[' :: listed (inspectItems items) ++ [']'])
  | .map entries => named .given "MapType" <|
    Char.ofNat 0x7B :: listed (inspectEntries entries) ++ [Char.ofNat 0x7D]
  | .scope members => named .given "NameContainer" <|
    Char.ofNat 0x7B :: listed (members.map fun m => Text.quote m.1) ++ [Char.ofNat 0x7D]
  | .function name => ("<function " ++ name ++ ">").toList
  | .failed f => failureChars f

/-- The full texts of elements. -/
def inspectItems : List Datum → List (List Char)
  | [] => []
  | d :: ds => inspectChars d :: inspectItems ds

/-- The full texts of entries. -/
def inspectEntries : List (Datum × Datum) → List (List Char)
  | [] => []
  | (k, v) :: rest => (inspectChars k ++ ':' :: ' ' :: inspectChars v) :: inspectEntries rest

end

/-- The full text of a value. -/
def inspect (d : Datum) : String := String.ofList d.inspectChars

/-- The short text of a value. -/
def shown : Datum → String
  | .text _ s => s
  | .truth n => String.ofList (truthWord n)
  | .int _ n => String.ofList (Json.intText n)
  | .double _ x => x.toText
  | d => d.inspect

/-- The failure of an operation that is not defined for some operands. -/
def unsuited (operation : String) (operands : List Datum) : Failure :=
  .unsuitable operation (operands.map inspect)

end Datum

end Automation.Expr
