/-
Automation/Json/Reader.lean

Values read from structured text.

The grammar is the strict one, with the words `NaN`, `Infinity` and
`-Infinity` as further numbers: no comma at the end, no control character in a
text, blanks are space, tab, line feed and carriage return.  A number with a
point or an exponent is a floating-point number, any other an integer, which may
not have too many digits.  Of two equal keys the first gives the place and the
last the value.  `Rules` say what else a text has to keep to.
-/
import Automation.Fault

namespace Automation.Json

open Automation.Text (hexValue?)

/-- What a text has to keep to beside the grammar. -/
structure Rules where
  /-- Half of a surrogate pair may not stand alone. -/
  wholePairs : Bool
  /-- The limit on digits holds for the whole part of every number. -/
  limitsEveryNumber : Bool
  /-- How many lists and objects with something in them may lie inside one
  another. -/
  depthLimit : Nat
  /-- A text that is nested too deeply is told from a malformed one. -/
  tellsDepth : Bool

/-- The rules for data inside a flow. -/
def Rules.data : Rules := ⟨false, false, 975, true⟩

/-- The rules for a saved document. -/
def Rules.document : Rules := ⟨true, true, 200, false⟩

/-- Why nothing may lie inside one more list or object, if so. -/
def Rules.tooNested? (rules : Rules) (inObject : Bool) (depth : Nat) : Option Unreadable :=
  if depth < rules.depthLimit then none
  else some (if rules.tellsDepth then .tooNested inObject else .malformed)

/-- Something read from the front of a text, and the rest. -/
abbrev Reading (α : Type) := Except Unreadable (α × List Char)

/-- Blanks between tokens. -/
def isSpace (c : Char) : Bool := c == ' ' || c == '\t' || c == '\n' || c == '\r'

def skipSpace (cs : List Char) : List Char := cs.dropWhile isSpace

/-! ### Texts -/

/-- Four hexadecimal digits as a sixteen-bit unit. -/
def unit? (a b c d : Char) : Option Nat := do
  let a ← hexValue? a
  let b ← hexValue? b
  let c ← hexValue? c
  let d ← hexValue? d
  some (((a * 16 + b) * 16 + c) * 16 + d)

/-- The character that follows a backslash, if it is a short escape. -/
def shortEscape? (c : Char) : Option Char :=
  if c = '"' ∨ c = '\\' ∨ c = '/' then some c
  else if c = 'n' then some '\n'
  else if c = 'r' then some '\r'
  else if c = 't' then some '\t'
  else if c = 'b' then some (Char.ofNat 0x08)
  else if c = 'f' then some (Char.ofNat 0x0C)
  else none

/-- The character of two surrogate units. -/
def paired (high low : Nat) : Char :=
  Char.ofNat (0x10000 + (high - 0xD800) * 0x400 + (low - 0xDC00))

/-- The character of a unit that stands alone; half of a pair has none, and is
replaced. -/
def single (unit : Nat) : Char :=
  if 0xD800 ≤ unit ∧ unit < 0xE000 then Char.ofNat 0xFFFD else Char.ofNat unit

/-- Two units that together stand for one character. -/
def isPair (high low : Nat) : Bool :=
  decide (0xD800 ≤ high ∧ high < 0xDC00 ∧ 0xDC00 ≤ low ∧ low < 0xE000)

/-- A unit is half of a pair. -/
def isHalf (unit : Nat) : Bool := decide (0xD800 ≤ unit ∧ unit < 0xE000)

/-- A character before the characters that are read after it. -/
def withChar (c : Char) (more : Reading (List Char)) : Reading (List Char) :=
  more.map fun (cs, left) => (c :: cs, left)

/-- The characters up to the closing quotation mark, and the rest after it. -/
def textBody (rules : Rules) : List Char → Reading (List Char)
  | [] => .error .malformed
  | '\\' :: 'u' :: a :: b :: c :: d :: '\\' :: 'u' :: e :: f :: g :: h :: rest =>
    match unit? a b c d, unit? e f g h with
    | some high, some low =>
      if isPair high low then withChar (paired high low) (textBody rules rest)
      else if rules.wholePairs && isHalf high then .error .malformed
      else withChar (single high) (textBody rules ('\\' :: 'u' :: e :: f :: g :: h :: rest))
    | _, _ => .error .malformed
  | '\\' :: 'u' :: a :: b :: c :: d :: rest =>
    match unit? a b c d with
    | some unit =>
      if rules.wholePairs && isHalf unit then .error .malformed
      else withChar (single unit) (textBody rules rest)
    | none => .error .malformed
  | '\\' :: c :: rest =>
    match shortEscape? c with
    | some x => withChar x (textBody rules rest)
    | none => .error .malformed
  | c :: rest =>
    if c = '"' then .ok ([], rest)
    else if c = '\\' ∨ c.toNat < 0x20 then .error .malformed
    else withChar c (textBody rules rest)

/-! ### Numbers -/

/-- The ASCII digits at the front. -/
def digitRun (cs : List Char) : List Char × List Char := cs.span Char.isDigit

/-- The values of ASCII digits. -/
def runDigits (cs : List Char) : List Nat := cs.map fun c => c.toNat - 0x30

/-- The number that ASCII digits stand for. -/
def runValue (cs : List Char) : Nat := Numeral.valueOf (runDigits cs)

/-- The digits of a whole number: a zero alone, or a run without leading zero. -/
def wholeDigits? : List Char → Option (List Char × List Char)
  | '0' :: rest => some (['0'], rest)
  | cs => match digitRun cs with
    | ([], _) => none
    | (run, rest) => some (run, rest)

/-- A point and digits; without them nothing is taken. -/
def fractionDigits (cs : List Char) : List Char × List Char :=
  match cs with
  | '.' :: more => match digitRun more with
    | ([], _) => ([], cs)
    | (run, rest) => (run, rest)
  | _ => ([], cs)

/-- An exponent; without one nothing is taken. -/
def exponentPart (cs : List Char) : Option Int × List Char :=
  match cs with
  | c :: more =>
    if c = 'e' ∨ c = 'E' then
      let (negative, digits) := Numeral.takeSign more
      match digitRun digits with
      | ([], _) => (none, cs)
      | (run, rest) => (some (Numeral.signed negative (runValue run)), rest)
    else (none, cs)
  | [] => (none, cs)

/-- A number after its sign. -/
def magnitude (rules : Rules) (negative : Bool) (cs : List Char) : Reading Value :=
  match wholeDigits? cs with
  | none => .error .malformed
  | some (whole, rest) =>
    let (fraction, rest) := fractionDigits rest
    let (exponent, rest) := exponentPart rest
    let integer := Numeral.whole negative (runDigits whole)
    if fraction.isEmpty && exponent.isNone then integer.map fun n => (.int n, rest)
    else
      let d : Decimal := ⟨runValue (whole ++ fraction), exponent.getD 0 - fraction.length⟩
      let number : Value := .float (d.toBinary64 negative)
      if rules.limitsEveryNumber then integer.map fun _ => (number, rest) else .ok (number, rest)

/-- What remains of a list after a word. -/
def afterWord? (word : String) (cs : List Char) : Option (List Char) :=
  if word.toList.isPrefixOf cs then some (cs.drop word.length) else none

/-- The words and numbers of the grammar. -/
def scalar (rules : Rules) (cs : List Char) : Reading Value :=
  let named (word : String) (v : Value) : Reading Value :=
    match afterWord? word cs with
    | some rest => .ok (v, rest)
    | none => .error .malformed
  match cs with
  | 'n' :: _ => named "null" .null
  | 't' :: _ => named "true" (.bool true)
  | 'f' :: _ => named "false" (.bool false)
  | 'N' :: _ => named "NaN" (.float .nan)
  | 'I' :: _ => named "Infinity" (.float (.infinite false))
  | '-' :: 'I' :: _ => named "-Infinity" (.float (.infinite true))
  | '-' :: rest => magnitude rules true rest
  | _ => magnitude rules false cs

/-! ### Values -/

mutual

/-- A value at the front of a list, inside so many lists and objects, and the
rest; `fuel` bounds the number of characters it may take. -/
def value (rules : Rules) (depth : Nat) : Nat → List Char → Reading Value
  | 0, _ => .error .malformed
  | fuel + 1, cs => match cs with
    | '"' :: rest => (textBody rules rest).map fun (s, left) => (.text (String.ofList s), left)
    | '[' :: rest => match skipSpace rest with
      | ']' :: left => .ok (.list [], left)
      | more => match rules.tooNested? false depth with
        | none => (items rules (depth + 1) fuel more).map fun (vs, left) => (.list vs, left)
        | some why => .error why
    | c :: rest =>
      if c.toNat = 0x7B then match skipSpace rest with
        | d :: left =>
          if d.toNat = 0x7D then .ok (.object [], left)
          else match rules.tooNested? true depth with
            | none =>
              (fields rules (depth + 1) fuel (d :: left)).map fun (fs, left) =>
                (.object (Fields.ofPairs fs), left)
            | some why => .error why
        | [] => .error .malformed
      else scalar rules cs
    | [] => .error .malformed

/-- The elements of a list up to its end. -/
def items (rules : Rules) (depth : Nat) : Nat → List Char → Reading (List Value)
  | 0, _ => .error .malformed
  | fuel + 1, cs => match value rules depth fuel cs with
    | .error why => .error why
    | .ok (v, rest) => match skipSpace rest with
      | ',' :: more =>
        (items rules depth fuel (skipSpace more)).map fun (vs, left) => (v :: vs, left)
      | ']' :: left => .ok ([v], left)
      | _ => .error .malformed

/-- The fields of an object up to its end. -/
def fields (rules : Rules) (depth : Nat) : Nat → List Char → Reading (List (String × Value))
  | 0, _ => .error .malformed
  | fuel + 1, cs => match cs with
    | '"' :: rest => match textBody rules rest with
      | .error why => .error why
      | .ok (key, rest) => match skipSpace rest with
        | ':' :: more => match value rules depth fuel (skipSpace more) with
          | .error why => .error why
          | .ok (v, rest) => match skipSpace rest with
            | ',' :: more =>
              (fields rules depth fuel (skipSpace more)).map fun (fs, left) =>
                ((String.ofList key, v) :: fs, left)
            | c :: left =>
              if c.toNat = 0x7D then .ok ([(String.ofList key, v)], left) else .error .malformed
            | [] => .error .malformed
        | _ => .error .malformed
    | _ => .error .malformed

end

/-- The value that a list of characters is the text of. -/
def readChars (rules : Rules) (cs : List Char) : Except Unreadable Value :=
  match value rules 0 (cs.length + 1) (skipSpace cs) with
  | .error why => .error why
  | .ok (v, rest) => if (skipSpace rest).isEmpty then .ok v else .error .malformed

/-- The value that a text is the text of. -/
def read (rules : Rules) (s : String) : Except Unreadable Value := readChars rules s.toList

/-- The data that a list of characters is the text of; none if it is malformed.
Too many digits and too deep a nesting are faults. -/
def dataOfChars? (cs : List Char) : Except Fault (Option Value) :=
  match readChars .data cs with
  | .ok v => .ok (some v)
  | .error why => match Fault.ofUnreadable? why with
    | some fault => .error fault
    | none => .ok none

/-- The data that a text is the text of; none if it is malformed. -/
def data? (s : String) : Except Fault (Option Value) := dataOfChars? s.toList

end Automation.Json
