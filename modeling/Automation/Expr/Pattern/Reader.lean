/-
Automation/Expr/Pattern/Reader.lean

Regular expressions, read from text.

A pattern has alternatives, groups, classes, anchors, escapes and marks of
repetition.  A mark belongs to the one pattern in front of it, and no mark
follows another one directly.  Flags at the beginning of a group, or in a group
of their own, say whether characters match in either case, whether a dot matches
a line feed, and whether `^` and `$` match at the edges of lines; a flag in a
group of its own holds up to the end of the group around it.  Braces that hold
no count stand for themselves.
-/
import Automation.Expr.Pattern.Extent
import Automation.Expr.Pattern.Search
import Automation.Text.Property

namespace Automation.Expr.Pattern

/-- What the flags of a group say. -/
structure Flags where
  /-- Characters match in either case. -/
  ignoresCase : Bool
  /-- A dot matches a line feed as well. -/
  dotTakesAll : Bool
  /-- `^` and `$` match at the edges of lines. -/
  isByLine : Bool

/-! ### Characters and classes -/

/-- A class of characters, as the flags say. -/
def oneOf (flags : Flags) (negated : Bool) (portions : List Portion) : Pattern :=
  .one ⟨negated, flags.ignoresCase, portions⟩

/-- One character by its code point. -/
def literal (flags : Flags) (code : Nat) : Pattern := oneOf flags false [⟨false, [(code, code)]⟩]

def digits : List (Nat × Nat) := [(0x30, 0x39)]
def wordChars : List (Nat × Nat) := [(0x30, 0x39), (0x41, 0x5A), (0x5F, 0x5F), (0x61, 0x7A)]
def spaces : List (Nat × Nat) := [(0x09, 0x0A), (0x0C, 0x0D), (0x20, 0x20)]

/-- The class of an escaped letter. -/
def letterClass? (c : Char) : Option Portion :=
  if c = 'd' then some ⟨false, digits⟩
  else if c = 'D' then some ⟨true, digits⟩
  else if c = 'w' then some ⟨false, wordChars⟩
  else if c = 'W' then some ⟨true, wordChars⟩
  else if c = 's' then some ⟨false, spaces⟩
  else if c = 'S' then some ⟨true, spaces⟩
  else none

/-- The ranges of a name between `[:` and `:]`. -/
def asciiClass? : String → Option (List (Nat × Nat))
  | "alnum" => some [(0x30, 0x39), (0x41, 0x5A), (0x61, 0x7A)]
  | "alpha" => some [(0x41, 0x5A), (0x61, 0x7A)]
  | "ascii" => some [(0x00, 0x7F)]
  | "blank" => some [(0x09, 0x09), (0x20, 0x20)]
  | "cntrl" => some [(0x00, 0x1F), (0x7F, 0x7F)]
  | "digit" => some digits
  | "graph" => some [(0x21, 0x7E)]
  | "lower" => some [(0x61, 0x7A)]
  | "print" => some [(0x20, 0x7E)]
  | "punct" => some [(0x21, 0x2F), (0x3A, 0x40), (0x5B, 0x60), (0x7B, 0x7E)]
  | "space" => some [(0x09, 0x0D), (0x20, 0x20)]
  | "upper" => some [(0x41, 0x5A)]
  | "word" => some wordChars
  | "xdigit" => some [(0x30, 0x39), (0x41, 0x46), (0x61, 0x66)]
  | _ => none

/-- The class of a name; a circumflex in front of the name negates it. -/
def namedClass? (ranges? : String → Option (List (Nat × Nat))) (negated : Bool) :
    List Char → Option Portion
  | '^' :: name => (ranges? (String.ofList name)).map (⟨!negated, ·⟩)
  | name => (ranges? (String.ofList name)).map (⟨negated, ·⟩)

/-- What stands before and after the first closing mark of a named class, if
there is one. -/
def nameAndRest? : List Char → Option (List Char × List Char)
  | ':' :: ']' :: rest => some ([], rest)
  | c :: rest => (nameAndRest? rest).map fun (name, left) => (c :: name, left)
  | [] => none

/-- What stands before and after the first closing brace, if there is one. -/
def bracedAndRest? (cs : List Char) : Option (List Char × List Char) :=
  match cs.span (·.toNat != 0x7D) with
  | (inner, _ :: rest) => some (inner, rest)
  | (_, []) => none

/-- The class of a property, after the letter that announces it: a name of one
letter, or one in braces. -/
def property? (negated : Bool) (cs : List Char) : Option (Portion × List Char) :=
  match cs with
  | [] => none
  | c :: rest =>
    if c.toNat = 0x7B then
      (bracedAndRest? rest).bind fun (name, left) =>
        (namedClass? Text.property? negated name).map (·, left)
    else (namedClass? Text.property? negated [c]).map (·, rest)

/-- The class at the front of a list that begins behind a backslash, if there is
one; nothing inside tells that it is malformed. -/
def escapedClass? (cs : List Char) : Option (Option (Portion × List Char)) :=
  match cs with
  | 'p' :: rest => some (property? false rest)
  | 'P' :: rest => some (property? true rest)
  | c :: rest => (letterClass? c).map fun p => some (p, rest)
  | [] => none

/-! ### Escapes -/

/-- A hexadecimal digit in either case. -/
def isHex (c : Char) : Bool := (Text.hexValue? c).isSome

/-- Hexadecimal digits up to a closing brace, as a code point. -/
def bracedCode? (cs : List Char) : Option (Nat × List Char) :=
  (bracedAndRest? cs).bind fun (inner, rest) =>
    if inner.isEmpty || !inner.all isHex || Text.hexNumber inner > 0x10FFFF then none
    else some (Text.hexNumber inner, rest)

/-- A digit below eight. -/
def isOctal (c : Char) : Bool := decide ('0' ≤ c) && decide (c ≤ '7')

/-- Up to three octal digits as a code point; a lone digit other than zero is
none. -/
def octalCode? (cs : List Char) : Option (Nat × List Char) :=
  let run := (cs.takeWhile isOctal).take 3
  if run.isEmpty || (run.length == 1 && run != ['0']) then none
  else some (run.foldl (fun n d => 8 * n + (d.toNat - 0x30)) 0, cs.drop run.length)

/-- The code point of an escape after its backslash, and the rest. -/
def escaped? : List Char → Option (Nat × List Char)
  | 'a' :: rest => some (0x07, rest)
  | 'f' :: rest => some (0x0C, rest)
  | 'n' :: rest => some (0x0A, rest)
  | 'r' :: rest => some (0x0D, rest)
  | 't' :: rest => some (0x09, rest)
  | 'v' :: rest => some (0x0B, rest)
  | 'x' :: a :: b :: rest =>
    if a.toNat = 0x7B then bracedCode? (b :: rest)
    else if isHex a && isHex b then some (Text.hexNumber [a, b], rest)
    else none
  | c :: rest =>
    if isOctal c then octalCode? (c :: rest)
    else if c.isAlphanum || c.toNat ≥ 0x80 then none
    else some (c.toNat, rest)
  | [] => none

/-- Characters up to the end of a quotation, or up to the end of the text. -/
def quotation : List Char → List Char × List Char
  | '\\' :: 'E' :: rest => ([], rest)
  | c :: rest => let (inner, left) := quotation rest; (c :: inner, left)
  | [] => ([], [])

/-! ### Classes in brackets -/

/-- One character of a class. -/
def classChar? : List Char → Option (Nat × List Char)
  | '\\' :: rest => escaped? rest
  | c :: rest => some (c.toNat, rest)
  | [] => none

/-- A character of a class, or a range that begins with one. -/
def classRange? (cs : List Char) : Option (Portion × List Char) :=
  (classChar? cs).bind fun (first, rest) =>
    let alone : Option (Portion × List Char) := some (⟨false, [(first, first)]⟩, rest)
    match rest with
    | '-' :: ']' :: _ => alone
    | '-' :: c :: after => (classChar? (c :: after)).bind fun (last, left) =>
        if first ≤ last then some (⟨false, [(first, last)]⟩, left) else none
    | _ => alone

/-- One member of a class: a named class, an escaped class, or a range. -/
def member? (cs : List Char) : Option (Portion × List Char) :=
  match cs with
  | '[' :: ':' :: inner => match nameAndRest? inner with
    | some (name, rest) => (namedClass? asciiClass? false name).map (·, rest)
    | none => classRange? cs
  | '\\' :: inner => (escapedClass? inner).getD (classRange? cs)
  | _ => classRange? cs

/-- The members of a class up to its closing bracket; `fuel` bounds their
number.  A closing bracket that comes `first` is a member. -/
def members? : Nat → Bool → List Char → Option (List Portion × List Char)
  | 0, _, _ => none
  | fuel + 1, first, cs =>
    match cs, first with
    | ']' :: rest, false => some ([], rest)
    | _, _ => (member? cs).bind fun (p, rest) =>
        (members? fuel false rest).map fun (ps, left) => (p :: ps, left)

/-- A class after its opening bracket. -/
def class? (flags : Flags) (cs : List Char) : Option (Pattern × List Char) :=
  match cs with
  | '^' :: rest =>
    (members? (rest.length + 1) true rest).map fun (ps, left) => (oneOf flags true ps, left)
  | _ => (members? (cs.length + 1) true cs).map fun (ps, left) => (oneOf flags false ps, left)

/-! ### Repetition -/

/-- How often a pattern is repeated. -/
structure Repetition where
  least : Nat
  most : Option Nat

/-- The greatest count of repetitions, and of the copies that counts make of one
part. -/
def maxCount : Nat := 1000

/-- The repeated pattern, if its counts are in order and not too large. -/
def Repetition.over? (r : Repetition) (p : Pattern) : Option Pattern :=
  let repeated := Pattern.times p r.least r.most
  if r.least > maxCount || r.most.any (fun n => n > maxCount || n < r.least)
      || repeated.copies > maxCount then none
  else some repeated

/-- A number of at most nine digits, without zeros in front. -/
def number? (cs : List Char) : Option (Nat × List Char) :=
  let run := cs.takeWhile Char.isDigit
  if run.isEmpty || run.length > 9 || (run.length > 1 && run.head? == some '0') then none
  else some (run.foldl (fun n d => 10 * n + (d.toNat - 0x30)) 0, cs.drop run.length)

/-- What follows a closing brace in front. -/
def afterBrace? : List Char → Option (List Char)
  | c :: rest => if c.toNat = 0x7D then some rest else none
  | [] => none

/-- A count in braces, after the opening one. -/
def count? (cs : List Char) : Option (Repetition × List Char) :=
  (number? cs).bind fun (least, rest) =>
    match rest with
    | ',' :: more => match afterBrace? more with
      | some left => some (⟨least, none⟩, left)
      | none => (number? more).bind fun (most, more) =>
          (afterBrace? more).map fun left => (⟨least, some most⟩, left)
    | _ => (afterBrace? rest).map fun left => (⟨least, some least⟩, left)

/-- A mark of repetition without the mark for short matches. -/
def plainMark? : List Char → Option (Repetition × List Char)
  | '*' :: rest => some (⟨0, none⟩, rest)
  | '+' :: rest => some (⟨1, none⟩, rest)
  | '?' :: rest => some (⟨0, some 1⟩, rest)
  | c :: rest => if c.toNat = 0x7B then count? rest else none
  | [] => none

/-- A mark of repetition; whether short matches come first does not matter. -/
def mark? (cs : List Char) : Option (Repetition × List Char) :=
  (plainMark? cs).map fun (r, rest) =>
    match rest with
    | '?' :: left => (r, left)
    | _ => (r, rest)

/-! ### Groups -/

/-- The letters of flags up to the colon or the parenthesis behind them, which is
given as well.  After a minus flags are switched off, and one has to follow. -/
def flagsTo? (flags : Flags) (off seen : Bool) : List Char → Option (Flags × Char × List Char)
  | 'i' :: rest => flagsTo? { flags with ignoresCase := !off } off true rest
  | 's' :: rest => flagsTo? { flags with dotTakesAll := !off } off true rest
  | 'm' :: rest => flagsTo? { flags with isByLine := !off } off true rest
  | 'U' :: rest => flagsTo? flags off true rest
  | '-' :: rest => if off then none else flagsTo? flags true false rest
  | c :: rest =>
    if (c = ':' ∨ c = ')') ∧ (seen ∨ !off) then some (flags, c, rest) else none
  | [] => none

/-- The categories of the characters in the name of a group. -/
def nameCategories : List String := ["Lu", "Ll", "Lt", "Lm", "Lo", "Nl", "Mn", "Mc", "Nd", "Pc"]

/-- A character in the name of a group. -/
def isGroupNameChar (c : Char) : Bool := nameCategories.any (Text.hasProperty · c)

/-- What follows the name of a group and its closing angle bracket. -/
def afterName? (cs : List Char) : Option (List Char) :=
  match cs.span (· != '>') with
  | (name, _ :: rest) =>
    if !name.isEmpty && name.all isGroupNameChar then some rest else none
  | (_, []) => none

/-- A group in front that only sets flags: the flags, and what follows it. -/
def setting? (flags : Flags) : List Char → Option (Flags × List Char)
  | '(' :: '?' :: rest => match flagsTo? flags false false rest with
    | some (flags, ')', rest) => some (flags, rest)
    | _ => none
  | _ => none

/-- How a group begins. -/
structure Opening where
  /-- The flags inside the group. -/
  flags : Flags
  /-- The match of the group is kept. -/
  keeps : Bool

/-- A pattern as a group. -/
def Opening.group (o : Opening) (p : Pattern) : Pattern := if o.keeps then .kept p else p

/-- The start of a group, and what follows. -/
def opening? (flags : Flags) : List Char → Option (Opening × List Char)
  | '?' :: 'P' :: '<' :: rest => (afterName? rest).map (⟨flags, true⟩, ·)
  | '?' :: '<' :: rest => (afterName? rest).map (⟨flags, true⟩, ·)
  | '?' :: rest => match flagsTo? flags false false rest with
    | some (flags, ':', rest) => some (⟨flags, false⟩, rest)
    | _ => none
  | rest => some (⟨flags, true⟩, rest)

/-! ### Patterns -/

/-- A pattern of a backslash and what follows it. -/
def escapedAtom? (flags : Flags) (cs : List Char) : Option (Pattern × List Char) :=
  match cs with
  | 'A' :: rest => some (.anchor .textStart, rest)
  | 'z' :: rest => some (.anchor .textEnd, rest)
  | 'b' :: rest => some (.anchor .wordEdge, rest)
  | 'B' :: rest => some (.anchor .noWordEdge, rest)
  | 'C' :: rest => some (.byte, rest)
  | _ => match escapedClass? cs with
    | some found => found.map fun (p, rest) => (oneOf flags false [p], rest)
    | none => (escaped? cs).map fun (code, rest) => (literal flags code, rest)

/-- A pattern that is neither a group nor repeated. -/
def atom? (flags : Flags) (cs : List Char) : Option (Pattern × List Char) :=
  match cs with
  | [] => none
  | '[' :: rest => class? flags rest
  | '.' :: rest =>
    some (.one ⟨true, false, if flags.dotTakesAll then [] else [⟨false, [(0x0A, 0x0A)]⟩]⟩, rest)
  | '^' :: rest => some (.anchor (if flags.isByLine then .lineStart else .textStart), rest)
  | '$' :: rest => some (.anchor (if flags.isByLine then .lineEnd else .textEnd), rest)
  | '\\' :: rest => escapedAtom? flags rest
  | c :: rest => some (literal flags c.toNat, rest)

mutual

/-- Alternatives up to a closing parenthesis or the end; `fuel` bounds the
number of steps. -/
def alternatives? : Nat → Flags → List Char → Option (Pattern × List Char)
  | 0, _, _ => none
  | fuel + 1, flags, cs => match sequence? fuel flags [] false cs with
    | none => none
    | some (p, flags, '|' :: rest) =>
      (alternatives? fuel flags rest).map fun (q, left) => (.either p q, left)
    | some (p, _, left) => some (p, left)

/-- Patterns one after another, and the flags behind them.  `done` holds the
patterns that were read, the last one first; `marked` says that the last one has
its mark of repetition. -/
def sequence? : Nat → Flags → List Pattern → Bool → List Char →
    Option (Pattern × Flags × List Char)
  | 0, _, _, _, _ => none
  | fuel + 1, flags, done, marked, cs => match cs with
    | [] => some (sequence done.reverse, flags, [])
    | '|' :: _ => some (sequence done.reverse, flags, cs)
    | ')' :: _ => some (sequence done.reverse, flags, cs)
    | '\\' :: 'Q' :: rest =>
      let (inner, left) := quotation rest
      sequence? fuel flags ((inner.map fun c => literal flags c.toNat).reverse ++ done) false left
    | '(' :: inner => match setting? flags cs with
      | some (flags, rest) => sequence? fuel flags done false rest
      | none => (opening? flags inner).bind fun (o, rest) =>
          match alternatives? fuel o.flags rest with
          | some (p, ')' :: left) => sequence? fuel flags (o.group p :: done) false left
          | _ => none
    | _ => match mark? cs, done with
      | some (r, rest), p :: before =>
        if marked then none
        else (r.over? p).bind fun p => sequence? fuel flags (p :: before) true rest
      | some _, [] => none
      | none, _ => (atom? flags cs).bind fun (p, rest) =>
          sequence? fuel flags (p :: done) false rest

end

/-- The pattern that a text is written as, unless it is too large. -/
def ofText? (s : String) : Option Pattern :=
  match alternatives? (2 * s.length + 2) ⟨false, false, false⟩ s.toList with
  | some (p, []) => if p.isFeasible then some p else none
  | _ => none

end Automation.Expr.Pattern
