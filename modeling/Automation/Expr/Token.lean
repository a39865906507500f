/-
Automation/Expr/Token.lean

The tokens of condition expressions.

What a token may be depends on the one before it.  Where an operand is expected,
a minus in front of digits belongs to the number, and `in` is a name; behind an
operand a minus is an operator, and so is `in`, even with more letters behind it;
behind a point there can only be a name.  A point directly behind digits belongs
to the number.  Two slashes begin a comment that ends with the line.  A literal
without a proper value is a token still: its value is a failure.
-/
import Automation.Expr.Function
import Automation.Expr.Names

namespace Automation.Expr

/-- A token of an expression. -/
inductive Token
  | name (s : String)
  | literal (d : Datum)
  | mark (s : String)

namespace Token

/-- What may come next. -/
inductive Expected
  | operand
  /-- What stands behind an operand. -/
  | operator
  /-- The name behind a point. -/
  | member
  deriving DecidableEq

/-- What may come behind a token. -/
def next : Token → Expected
  | .name _ => .operator
  | .literal _ => .operator
  | .mark s =>
    if s == "." then .member
    else if s == ")" || s == "]" || s == "\x7d" then .operator
    else .operand

def isSpace (c : Char) : Bool :=
  c == ' ' || c == '\t' || c == '\n' || c == '\r' || c.toNat == 0x0C

/-! ### Numbers -/

/-- The integer of a sign and decimal digits. -/
def integer (w : Width) (negative : Bool) (cs : List Char) : Datum :=
  Function.fit w (Numeral.whole negative (cs.map fun c => c.toNat - 0x30)).toOption

/-- The number that digits of a base stand for. -/
def valueIn (base : Nat) (cs : List Char) : Nat :=
  cs.foldl (fun n c => base * n + (Text.hexValue? c).getD 0) 0

/-- The exponent at the front of a list, if there is one. -/
def exponent? (cs : List Char) : Option (Int × List Char) :=
  match cs with
  | c :: rest =>
    if c = 'e' ∨ c = 'E' then
      let (negative, digits) := Numeral.takeSign rest
      match digits.span Char.isDigit with
      | ([], _) => none
      | (run, left) => some (Numeral.signed negative (valueIn 10 run), left)
    else none
  | [] => none

/-- An integer that a letter behind it makes a natural number. -/
def withWidth (value : Width → Datum) : List Char → Token × List Char
  | 'u' :: rest => (.literal (value .unsigned), rest)
  | 'U' :: rest => (.literal (value .unsigned), rest)
  | rest => (.literal (value .signed), rest)

/-- The floating-point number of digits before and behind a point. -/
def double (negative : Bool) (whole fraction : List Char) (rest : List Char) :
    Token × List Char :=
  let (e, rest) := (exponent? rest).getD (0, rest)
  let d : Decimal := ⟨valueIn 10 (whole ++ fraction), e - fraction.length⟩
  (.literal (.double .given (d.toBinary64 negative)), rest)

/-- The number whose digits before the point are given. -/
def numberFrom (negative : Bool) (whole rest : List Char) : Token × List Char :=
  match rest with
  | '.' :: more =>
    let (fraction, left) := more.span Char.isDigit
    double negative whole fraction left
  | _ =>
    if (exponent? rest).isSome then double negative whole [] rest
    else withWidth (integer · negative whole) rest

/-- The number at the front of a list that begins with a digit, or with a point
and a digit. -/
def number (negative : Bool) (cs : List Char) : Token × List Char :=
  let (whole, rest) := cs.span Char.isDigit
  match cs with
  | '0' :: 'x' :: digits =>
    match digits.span fun c => (Text.hexValue? c).isSome with
    | ([], _) => numberFrom negative whole rest
    | (run, left) =>
      let n := Numeral.signed negative (valueIn 16 run)
      withWidth (fun w =>
        if negative && w == .unsigned then Function.fit w none else Function.fit w (some n)) left
  | _ => numberFrom negative whole rest

/-! ### Texts -/

/-- How many characters there are before the closing mark of a text: from the first
character of a list on, and from the second.  A backslash goes with the character
behind it, unless the text has no end that way.  A line feed ends the hope for a
text between single marks. -/
def bodyLengths (close : List Char) : List Char → Option Nat × Option Nat
  | [] => (none, none)
  | c :: rest =>
    let (one, two) := bodyLengths close rest
    let alone := if c = '\n' ∧ close.length = 1 then none else one.map (· + 1)
    let escaped := match rest with
      | x :: _ => if c = '\\' ∧ x ≠ '\n' then two.map (· + 2) else none
      | [] => none
    (if close.isPrefixOf (c :: rest) then some 0 else escaped.or alone, one)

/-- A piece of a text: a character, or a number for one. -/
inductive Piece
  | char (c : Char)
  | code (n : Nat)

/-- The characters of the escapes of one letter. -/
def letterEscape? (c : Char) : Option Char :=
  [('a', Char.ofNat 0x07), ('b', Char.ofNat 0x08), ('f', Char.ofNat 0x0C), ('n', '\n'),
    ('r', '\r'), ('t', '\t'), ('v', Char.ofNat 0x0B), ('"', '"'), ('\'', '\''),
    ('\\', '\\')].lookup c

/-- A code given by a number of hexadecimal digits. -/
def hexEscape? (count : Nat) (rest : List Char) : Option (Nat × List Char) :=
  let run := rest.take count
  if run.length = count ∧ run.all (fun c => (Text.hexValue? c).isSome) then
    some (valueIn 16 run, rest.drop count)
  else none

/-- A code given by digits below eight, of any script. -/
def octal? (ds : List Nat) : Option Nat :=
  if ds.all (· < 8) then some (ds.foldl (fun n d => 8 * n + d) 0) else none

/-- The piece that an escape stands for, after its backslash, and the rest.
Nothing inside tells that the text has no value. -/
def escape? (cs : List Char) : Option (Option Piece × List Char) :=
  match cs with
  | [] => none
  | c :: rest => match letterEscape? c with
    | some x => some (some (.char x), rest)
    | none =>
      let hex (count : Nat) : Option (Option Piece × List Char) :=
        (hexEscape? count rest).map fun (n, left) => (some (.code n), left)
      if c = 'x' then hex 2
      else if c = 'u' then hex 4
      else if c = 'U' then hex 8
      else match (cs.take 3).mapM Text.digit? with
        | some [a, b, d] => some ((octal? [a, b, d]).map .code, cs.drop 3)
        | _ => none

/-- The pieces of a text with escapes.  A backslash that begins none stands for
itself, and a line feed for nothing; `fuel` bounds the length. -/
def pieces? : Nat → List Char → Option (List Piece)
  | 0, _ => none
  | _, [] => some []
  | fuel + 1, '\\' :: rest => match escape? rest with
    | some (piece, left) => do some ((← piece) :: (← pieces? fuel left))
    | none => (pieces? fuel rest).map (.char '\\' :: ·)
  | fuel + 1, '\n' :: rest => pieces? fuel rest
  | fuel + 1, c :: rest => (pieces? fuel rest).map (.char c :: ·)

/-- The character of a code; a code that is half of one counts as a character. -/
def charOf? (n : Nat) : Option Char :=
  if n.isValidChar then some (Char.ofNat n)
  else if n ≤ 0x10FFFF then some (Char.ofNat 0xFFFD)
  else none

/-- The character of a piece. -/
def Piece.char? : Piece → Option Char
  | .char c => some c
  | .code n => charOf? n

/-- One byte for a number, if it is small enough. -/
def byteOf? (n : Nat) : Option (List UInt8) := if n < 256 then some [UInt8.ofNat n] else none

/-- The bytes of a piece: those that encode a character, one for a code. -/
def Piece.bytes? : Piece → Option (List UInt8)
  | .char c => some (String.utf8EncodeChar c)
  | .code n => byteOf? n

/-- The text of some characters. -/
def textOf (cs : List Char) : Datum := .text .given (String.ofList cs)

/-- Some runs of bytes. -/
def bytesOf (runs : List (List UInt8)) : Datum := .bytes .given runs.flatten

/-- How a text is written. -/
structure Style where
  /-- Escapes are not told apart. -/
  isRaw : Bool
  /-- Bytes are meant. -/
  isBytes : Bool

/-- The value of what stands between the marks of a text. -/
def bodyValue (style : Style) (body : List Char) : Datum :=
  let pieces := pieces? (body.length + 1) body
  let value := match style.isRaw, style.isBytes with
    | true, false => some (textOf body)
    | true, true => ((body.map Char.toNat).mapM byteOf?).map bytesOf
    | false, false => (pieces.bind (·.mapM Piece.char?)).map textOf
    | false, true => (pieces.bind (·.mapM Piece.bytes?)).map bytesOf
  value.getD (.failed (.unfitting "literal"))

/-- The text at the front of a list that begins with a quotation mark. -/
def text? (style : Style) (cs : List Char) : Option (Token × List Char) :=
  match cs with
  | [] => none
  | q :: rest =>
    let close := if [q, q].isPrefixOf rest then [q, q, q] else [q]
    let inner := cs.drop close.length
    (bodyLengths close inner).1.map fun n =>
      (.literal (bodyValue style (inner.take n)), inner.drop (n + close.length))

/-- How a text is written that a list begins with, and the list from the quotation
mark on. -/
def style? (cs : List Char) : Option (Style × List Char) :=
  let (bytes, rest) := match cs with
    | 'b' :: rest => (true, rest)
    | 'B' :: rest => (true, rest)
    | _ => (false, cs)
  let (raw, rest) := match rest with
    | 'r' :: more => (true, more)
    | 'R' :: more => (true, more)
    | _ => (false, rest)
  match rest with
  | '"' :: _ => some (⟨raw, bytes⟩, rest)
  | '\'' :: _ => some (⟨raw, bytes⟩, rest)
  | _ => none

/-! ### Tokens -/

/-- The marks, longer ones before those that they begin with. -/
def marks : List String :=
  ["||", "&&", "<=", ">=", "==", "!=", "<", ">", "+", "-", "*", "/", "%", "!", "?", ":", ".",
    ",", "(", ")", "[", "]", "\x7b", "\x7d"]

/-- The mark at the front of a list. -/
def mark? (cs : List Char) : Option (Token × List Char) :=
  (marks.find? fun m => m.toList.isPrefixOf cs).map fun m => (.mark m, cs.drop m.length)

/-- The name at the front of a list. -/
def name? (cs : List Char) : Option (Token × List Char) :=
  match cs.span Names.isPart with
  | (run, left) => if Names.isName run then some (.name (String.ofList run), left) else none

/-- A digit is in front. -/
def digitFirst (cs : List Char) : Bool := (cs.head?.map Char.isDigit).getD false

/-- The operand at the front of a list, or a mark that may stand in its place. -/
def operand? (cs : List Char) : Option (Token × List Char) :=
  match style? cs with
  | some (style, quoted) => text? style quoted
  | none =>
    if digitFirst cs then some (number false cs)
    else match cs with
      | '.' :: rest => if digitFirst rest then some (number false cs) else mark? cs
      | '-' :: rest => if digitFirst rest then some (number true rest) else mark? cs
      | _ => (name? cs).or (mark? cs)

/-- The token at the front of a list without space before it. -/
def first? (expected : Expected) (cs : List Char) : Option (Token × List Char) :=
  match expected, cs with
  | .operand, cs => operand? cs
  | .operator, 'i' :: 'n' :: rest => some (.mark "in", rest)
  | .operator, cs => mark? cs
  | .member, cs => name? cs

/-- The tokens of a list of characters; `fuel` bounds their number. -/
def scan? : Nat → Expected → List Char → Option (List Token)
  | 0, _, _ => none
  | fuel + 1, expected, cs =>
    match cs.dropWhile isSpace with
    | [] => some []
    | '/' :: '/' :: rest => scan? fuel expected (rest.dropWhile (· != '\n'))
    | more => match first? expected more with
      | some (t, rest) => (scan? fuel t.next rest).map (t :: ·)
      | none => none

/-- The tokens of a text. -/
def ofText? (s : String) : Option (List Token) := scan? (s.length + 1) .operand s.toList

end Token

end Automation.Expr
