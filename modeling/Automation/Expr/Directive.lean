/-
Automation/Expr/Directive.lean

Values set into a text.

A directive is a percent sign, perhaps the name of a member in parentheses, flags,
a width, a precision and a letter.  There is one value to set; a directive with a
name takes the member instead.  A value that no directive takes is left over,
which only what has members may be.
-/
import Automation.Expr.Datum.Equality
import Automation.Expr.Datum.Shown
import Automation.Number.Places

namespace Automation.Expr

/-- How a value is set into a text. -/
structure Directive where
  /-- The name of the member to set, if there is one. -/
  member : Option String
  /-- The value stands on the left of its room. -/
  atLeft : Bool
  /-- A number that is not negative has a plus sign. -/
  plus : Bool
  /-- A number that is not negative has a blank for its sign. -/
  blank : Bool
  /-- A number shows its base, or its point. -/
  explicit : Bool
  /-- Zeros fill the room of a number. -/
  zeros : Bool
  width : Nat
  precision : Option Nat
  letter : Char

namespace Directive

/-! ### Reading -/

/-- The digits in front and the number that they stand for. -/
def takeNumber (cs : List Char) : Nat × List Char :=
  let run := cs.takeWhile Char.isDigit
  (run.foldl (fun n c => 10 * n + (c.toNat - 0x30)) 0, cs.drop run.length)

/-- What stands before and after the closing parenthesis of a name; `depth`
counts the parentheses that are open inside it. -/
def takeName? (depth : Nat) : List Char → Option (List Char × List Char)
  | [] => none
  | ')' :: rest =>
    if depth = 0 then some ([], rest)
    else (takeName? (depth - 1) rest).map fun (name, left) => (')' :: name, left)
  | '(' :: rest => (takeName? (depth + 1) rest).map fun (name, left) => ('(' :: name, left)
  | c :: rest => (takeName? depth rest).map fun (name, left) => (c :: name, left)

/-- The precision in front, if there is one. -/
def takePrecision : List Char → Option Nat × List Char
  | '.' :: rest => let (n, left) := takeNumber rest; (some n, left)
  | cs => (none, cs)

/-- A letter in front that says how large a number is, which does not matter. -/
def skipSize : List Char → List Char
  | c :: rest => if c = 'h' ∨ c = 'l' ∨ c = 'L' then rest else c :: rest
  | [] => []

/-- A character that is a flag. -/
def isFlag (c : Char) : Bool := ['-', '+', ' ', '#', '0'].contains c

/-- The directive behind a percent sign, and the rest. -/
def read? (cs : List Char) : Option (Directive × List Char) := do
  let (member, cs) ← match cs with
    | '(' :: rest => (takeName? 0 rest).map fun (name, left) => (some (String.ofList name), left)
    | _ => some (none, cs)
  let flags := cs.takeWhile isFlag
  let (width, cs) := takeNumber (cs.drop flags.length)
  let (precision, cs) := takePrecision cs
  match skipSize cs with
  | [] => none
  | letter :: rest =>
    some (⟨member, flags.contains '-', flags.contains '+', flags.contains ' ',
      flags.contains '#', flags.contains '0', width, precision, letter⟩, rest)

/-! ### Setting -/

/-- A text in its room. -/
def padded (d : Directive) (cs : List Char) : List Char :=
  let room := List.replicate (d.width - cs.length) ' '
  if d.atLeft then cs ++ room else room ++ cs

/-- The sign of a number. -/
def sign (d : Directive) (negative : Bool) : List Char :=
  if negative then ['-'] else if d.plus then ['+'] else if d.blank then [' '] else []

/-- A number in its room: its sign, what stands in front of its digits, and its
digits. -/
def paddedNumber (d : Directive) (negative : Bool) (front digits : List Char) : List Char :=
  let front := d.sign negative ++ front
  if d.zeros && !d.atLeft then
    front ++ List.replicate (d.width - front.length - digits.length) '0' ++ digits
  else d.padded (front ++ digits)

/-- A text in its room, cut to the precision. -/
def setText (d : Directive) (cs : List Char) : List Char :=
  d.padded (match d.precision with
    | some n => cs.take n
    | none => cs)

/-- An integer in a base, its digits filled up to the precision. -/
def setInt (d : Directive) (base : Nat) (front : List Char) (n : Int) : List Char :=
  let digits := Nat.toDigits base n.natAbs
  let digits := List.replicate (d.precision.getD 0 - digits.length) '0' ++ digits
  d.paddedNumber (decide (n < 0)) (if d.explicit then front else []) digits

/-- A floating-point number, its finite magnitude written in some way. -/
def setReal (d : Directive) (write : Nat → Int → List Char) : Binary64 → List Char
  | .nan => d.paddedNumber false [] "nan".toList
  | .infinite negative => d.paddedNumber negative [] "inf".toList
  | .finite negative m e _ => d.paddedNumber negative [] (write m e)

/-- A character that is not ASCII by its code point. -/
def asciiOnly (cs : List Char) : List Char :=
  cs.flatMap fun c => if c.toNat < 0x80 then [c] else Text.escapeByNumber c

/-- A value as an integer, cut to one where it is a floating-point number. -/
def toWhole? (v : Datum) : Option Int :=
  match v with
  | .double _ x => x.truncate?
  | v => v.whole?

/-- A value as a floating-point number. -/
def toReal? (v : Datum) : Option Binary64 :=
  match v with
  | .double _ x => some x
  | v => v.whole?.bind Binary64.ofInt?

/-- A value as one character: a text of one, or a code point. -/
def toChar? (v : Datum) : Option Char :=
  match v with
  | .text _ s => match s.toList with
    | [c] => some c
    | _ => none
  | v => match v.whole? with
    | some n => if 0 ≤ n ∧ n.toNat.isValidChar then some (Char.ofNat n.toNat) else none
    | none => none

def upper (cs : List Char) : List Char := cs.map Char.toUpper

/-- A value as the letter of the directive says, if it can be set so. -/
def set? (d : Directive) (v : Datum) : Option (List Char) :=
  let precision := d.precision.getD 6
  let real (write : Nat → Int → List Char) : Option (List Char) :=
    (toReal? v).map (d.setReal write)
  if d.letter = 's' then some (d.setText v.shown.toList)
  else if d.letter = 'r' then some (d.setText v.inspectChars)
  else if d.letter = 'a' then some (d.setText (asciiOnly v.inspectChars))
  else if d.letter = 'c' then (toChar? v).map fun c => d.padded [c]
  else if d.letter = 'd' ∨ d.letter = 'i' ∨ d.letter = 'u' then (toWhole? v).map (d.setInt 10 [])
  else if d.letter = 'o' then v.whole?.map (d.setInt 8 ['0', 'o'])
  else if d.letter = 'x' then v.whole?.map (d.setInt 16 ['0', 'x'])
  else if d.letter = 'X' then v.whole?.map fun n => upper (d.setInt 16 ['0', 'x'] n)
  else if d.letter = 'f' then real (Places.fixed d.explicit precision)
  else if d.letter = 'F' then (real (Places.fixed d.explicit precision)).map upper
  else if d.letter = 'e' then real (Places.scientific d.explicit precision)
  else if d.letter = 'E' then (real (Places.scientific d.explicit precision)).map upper
  else if d.letter = 'g' then real (Places.general d.explicit precision)
  else if d.letter = 'G' then (real (Places.general d.explicit precision)).map upper
  else none

/-- A value has members, by which it may be left over. -/
def hasMembers : Datum → Bool
  | .list .. => true
  | .map _ => true
  | .bytes .. => true
  | .scope _ => true
  | _ => false

/-- The member of a value that a directive names. -/
def member? (v : Datum) (name : String) : Option Datum :=
  match v with
  | .map entries => (Datum.findKey (.text .computed name) entries).bind id
  | _ => none

/-- The largest width and precision. -/
def widest : Nat := Nat.pow 2 20

/-- A text with a value set into it.  `left` is the value as long as it has not
been taken; `fuel` bounds the number of characters. -/
def fillFrom? (v : Datum) : Nat → Option Datum → List Char → Option (List Char)
  | 0, _, _ => none
  | _, left, [] => if left.isNone || hasMembers v then some [] else none
  | fuel + 1, left, '%' :: rest => do
    let (d, rest) ← read? rest
    if d.width > widest || d.precision.getD 0 > widest then none
    else if d.letter = '%' then (fillFrom? v fuel left rest).map ('%' :: ·)
    else
      let target ← match d.member with
        | some name => member? v name
        | none => left
      let set ← d.set? target
      (fillFrom? v fuel none rest).map (set ++ ·)
  | fuel + 1, left, c :: rest => (fillFrom? v fuel left rest).map (c :: ·)

/-- A text with a value set into it. -/
def fill (s : String) (v : Datum) : Except Failure String :=
  match fillFrom? v (s.length + 1) (some v) s.toList with
  | some cs => .ok (String.ofList cs)
  | none => .error (.unsuitable "_%_" [s, v.inspect])

end Directive

end Automation.Expr
