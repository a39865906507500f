/-
Automation/Value/Text.lean

The texts of a value.

A value has two texts.  `plain` is for a value that is put into a text of a
flow: null is nothing, lists and objects are structured text.  `shown` is for
people: null, booleans and nested values are spelled out, and a text inside a
list or an object is quoted.  A text itself is the same in both.  Whatever is read
back from structured text has texts as keys; `structured` says what that is.
-/
import Automation.Json.Printer
import Automation.Text.Quoted

namespace Automation.Value

/-- The text that stands for a value inside a longer text. -/
def plain : Value → String
  | .null => ""
  | .bool true => "true"
  | .bool false => "false"
  | .int n => String.ofList (Json.intText n)
  | .float x => x.toText
  | .text s => s
  | .list items => Json.print .spaced (.list items)
  | .object fields => Json.print .spaced (.object fields)
  | .table entries => Json.print .spaced (.table entries)

/-- A key for people, a text quoted. -/
def inspectKey : Key → List Char
  | .null => "None".toList
  | .bool true => "True".toList
  | .bool false => "False".toList
  | .int n => Json.intText n
  | .float x => Layout.plain.text x
  | .text s => Text.quote s

mutual

/-- A value for people, its texts quoted. -/
def inspectChars : Value → List Char
  | .null => "None".toList
  | .bool true => "True".toList
  | .bool false => "False".toList
  | .int n => Json.intText n
  | .float x => Layout.plain.text x
  | .text s => Text.quote s
  | .list [] => ['[', ']']
  | .list (v :: vs) => '[' :: inspectChars v ++ inspectItems vs
  | .object [] => [Char.ofNat 0x7B, Char.ofNat 0x7D]
  | .object ((k, v) :: fs) =>
    Char.ofNat 0x7B :: Text.quote k ++ ':' :: ' ' :: inspectChars v ++ inspectFields fs
  | .table [] => [Char.ofNat 0x7B, Char.ofNat 0x7D]
  | .table ((k, v) :: es) =>
    Char.ofNat 0x7B :: inspectKey k ++ ':' :: ' ' :: inspectChars v ++ inspectEntries es

/-- The elements after the first, and the end of the list. -/
def inspectItems : List Value → List Char
  | [] => [']']
  | v :: vs => ',' :: ' ' :: inspectChars v ++ inspectItems vs

/-- The fields after the first, and the end of the object. -/
def inspectFields : List (String × Value) → List Char
  | [] => [Char.ofNat 0x7D]
  | (k, v) :: fs =>
    ',' :: ' ' :: Text.quote k ++ ':' :: ' ' :: inspectChars v ++ inspectFields fs

/-- The entries after the first, and the end of the table. -/
def inspectEntries : List (Key × Value) → List Char
  | [] => [Char.ofNat 0x7D]
  | (k, v) :: es =>
    ',' :: ' ' :: inspectKey k ++ ':' :: ' ' :: inspectChars v ++ inspectEntries es

end

/-- A value for people; a text is shown as it is. -/
def shown : Value → String
  | .text s => s
  | v => String.ofList (inspectChars v)

mutual

/-- A value as its structured text is read back: all keys are texts. -/
def structured : Value → Value
  | .list items => .list (structuredItems items)
  | .object fields => .object (structuredFields fields)
  | .table entries => .object (Fields.ofPairs (structuredEntries entries))
  | v => v

def structuredItems : List Value → List Value
  | [] => []
  | v :: vs => structured v :: structuredItems vs

def structuredFields : List (String × Value) → List (String × Value)
  | [] => []
  | (k, v) :: fs => (k, structured v) :: structuredFields fs

def structuredEntries : List (Key × Value) → List (String × Value)
  | [] => []
  | (k, v) :: es => (Json.keyText k, structured v) :: structuredEntries es

end

end Automation.Value
