/-
Automation/Expr/Function.lean

The functions of condition expressions.

A method is a function whose first argument stands in front.  The functions that
are named like a kind of values convert to it; as a value, such a name stands for
the kind.  An argument may be a failure: most functions are not defined for one,
but it has a text and a kind.
-/
import Automation.Expr.Datum.Parts
import Automation.Expr.Pattern.Reader
import Automation.Number.Numeral

namespace Automation.Expr

/-- What ends an evaluation instead of being a value of it. -/
inductive Abort
  /-- One cannot go through a value. -/
  | noMembers
  /-- A comprehension has too many or too few arguments. -/
  | miswritten
  /-- What a comprehension asks of each member failed. -/
  | failed
  /-- Nothing can be done without the result. -/
  | final
  deriving DecidableEq, Repr

namespace Function

/-! ### Numbers -/

/-- Digits of a base in a text, with white space around them and a sign.  The mark
of the base may stand in front of the digits. -/
def digitsIn? (base : Nat) (s : List Char) : Option Int := do
  let (negative, rest) := Numeral.takeSign (Text.stripWhile Numeral.isMargin s)
  let rest := match rest with
    | '0' :: 'x' :: more => skipLine more
    | '0' :: 'X' :: more => skipLine more
    | rest => rest
  let cs ← separated false rest
  let ds ← cs.mapM digitOf?
  if ds.isEmpty then none
  else some (Numeral.signed negative (ds.foldl (fun n d => base * n + d) 0))
where
  /-- The value of a digit of any script, or of a letter. -/
  digitOf? (c : Char) : Option Nat :=
    ((Text.digit? c).or (Text.hexValue? c)).bind fun d => if d < base then some d else none
  /-- A low line may stand behind the mark of the base. -/
  skipLine : List Char → List Char
    | '_' :: rest => rest
    | rest => rest
  /-- Drops the low lines between two digits. -/
  separated (afterDigit : Bool) : List Char → Option (List Char)
    | [] => some []
    | '_' :: c :: rest =>
      if afterDigit && (digitOf? c).isSome then (separated true rest).map (c :: ·) else none
    | c :: rest => if c = '_' then none
      else (separated (digitOf? c).isSome rest).map (c :: ·)

/-- A written integer: in hexadecimal digits behind `0x`, after which white space,
a sign and the mark of the base may come once more, and in decimal ones
otherwise. -/
def writtenInt? (s : String) : Option Int :=
  match s.toList with
  | '0' :: 'x' :: digits => digitsIn? 16 digits
  | '0' :: 'X' :: digits => digitsIn? 16 digits
  | '-' :: '0' :: 'x' :: digits => (digitsIn? 16 digits).map (- ·)
  | '-' :: '0' :: 'X' :: digits => (digitsIn? 16 digits).map (- ·)
  | _ => Numeral.int? s

/-- A written natural number. -/
def writtenNat? (s : String) : Option Int :=
  match s.toList with
  | '0' :: 'x' :: digits => digitsIn? 16 digits
  | '0' :: 'X' :: digits => digitsIn? 16 digits
  | _ => Numeral.int? s

/-- Bytes as the text that they encode, if they do. -/
def decode? (bs : List UInt8) : Option String := String.fromUTF8? ⟨bs.toArray⟩

/-- The bytes of a text. -/
def encode (s : String) : List UInt8 := s.toList.flatMap String.utf8EncodeChar

/-- An integer of a width, if there is one that fits. -/
def fit (w : Width) (n : Option Int) : Datum :=
  match n with
  | some n => Datum.settle (Datum.fitted w n)
  | none => .failed (.unfitting "number")

/-- A floating-point number cut to an integer.  What is infinite ends the
evaluation. -/
def cut (x : Binary64) (result : Option Int → Datum) : Except Abort Datum :=
  if x.isInfinite then .error .final else .ok (result x.truncate?)

/-- A value that has no conversion. -/
def unsuited (name : String) (args : List Datum) : Datum := .failed (Datum.unsuited name args)

/-- A value as an integer of a width. -/
def toInt (name : String) (w : Width) (written? : String → Option Int) (d : Datum) :
    Except Abort Datum :=
  match d with
  | .null => .ok (.int w 0)
  | .double _ x => cut x (fit w)
  | .text _ s => .ok (fit w (written? s))
  | .bytes _ bs => .ok (fit w ((decode? bs).bind Numeral.int?))
  | d => match d.whole? with
    | some n => .ok (fit w (some n))
    | none => .ok (unsuited name [d])

/-- A value as a floating-point number. -/
def toDouble (d : Datum) : Except Abort Datum :=
  match d with
  | .null => .ok (.double .given (.zero false))
  | .double _ x => .ok (.double .given x)
  | .text _ s => .ok (written s)
  | .bytes _ bs => .ok (((decode? bs).map written).getD (.failed (.unfitting "number")))
  | d => match d.whole? with
    | some n => match Binary64.ofInt? n with
      | some x => .ok (.double .given x)
      | none => .error .final
    | none => .ok (unsuited "double" [d])
where
  /-- A written number. -/
  written (s : String) : Datum :=
    match Numeral.float? s with
    | some x => .double .given x
    | none => .failed (.unfitting "number")

/-- A truth value that is the integer given, if there is one. -/
def truthOf (n : Option Int) : Datum :=
  match n with
  | some n => .truth n
  | none => .failed (.unfitting "number")

/-- A value as a truth value: by one of the words, or as an integer. -/
def toTruth (d : Datum) : Except Abort Datum :=
  match d with
  | .null => .ok (.truth 0)
  | .double _ x => cut x truthOf
  | .text _ s =>
    if ["true", "True", "TRUE", "t"].contains s then .ok (.truth 1)
    else if ["false", "False", "FALSE", "f"].contains s then .ok (.truth 0)
    else .ok (truthOf (Numeral.int? s))
  | .bytes _ bs => .ok (truthOf ((decode? bs).bind Numeral.int?))
  | d => match d.whole? with
    | some n => .ok (.truth n)
    | none => .ok (unsuited "bool" [d])

/-! ### Texts, bytes, lists and maps -/

def toText : Datum → Datum
  | .bytes _ bs => match decode? bs with
    | some s => .text .given s
    | none => .failed (.unfitting "text")
  | d => .text .given d.shown

/-- A value as bytes: a text encoded, or a list of small numbers. -/
def toBytes (d : Datum) : Datum :=
  match d with
  | .null => .bytes .given []
  | .text _ s => .bytes .given (encode s)
  | .bytes _ bs => .bytes .given bs
  | d => match d.members? with
    | none => unsuited "bytes" [d]
    | some items => match items.mapM fun i => i.whole?.bind fun n =>
        if 0 ≤ n ∧ n < 256 then some (UInt8.ofNat n.toNat) else none with
      | some bs => .bytes .given bs
      | none => .failed (.unfitting "byte")

/-- The members of a value as a list. -/
def toList (d : Datum) : Datum :=
  match d.members? with
  | some items => .list .given items
  | none => unsuited "list" [d]

/-- The two members of a value. -/
def pair? (d : Datum) : Option (Datum × Datum) :=
  match d.members? with
  | some [k, v] => some (k, v)
  | _ => none

/-- A map as itself, and a list of pairs as a map. -/
def toMap (d : Datum) : Datum :=
  match d with
  | .null => .map []
  | .map entries => .map entries
  | .list _ items => match items.mapM pair? with
    | some entries => Datum.settle (Datum.ofEntries entries)
    | none => unsuited "map" [d]
  | d => unsuited "map" [d]

/-- The name of the kind of a value. -/
def kindName : Datum → String
  | .null => "null_type"
  | .truth _ => "bool"
  | .int .signed _ => "int"
  | .int .unsigned _ => "uint"
  | .int .unbounded _ => "computed int"
  | .double .given _ => "double"
  | .double .computed _ => "computed double"
  | .text .given _ => "string"
  | .text .computed _ => "computed string"
  | .bytes .given _ => "bytes"
  | .bytes .computed _ => "computed bytes"
  | .list .given _ => "list"
  | .list .computed _ => "computed list"
  | .map _ => "map"
  | .scope _ => "scope"
  | .function name => if kinds.contains name then "type" else "function"
  | .failed _ => "failure"
where
  /-- The functions that stand for kinds. -/
  kinds : List String :=
    ["bool", "bytes", "double", "int", "list", "map", "null_type", "string", "type", "uint"]

/-! ### All functions -/

/-- A truth value, if two texts or two runs of bytes say it. -/
def ofParts (name : String) (texts : String → String → Option Bool)
    (bytes : List UInt8 → List UInt8 → Option Bool) (args : List Datum) : Datum :=
  let answer := match args with
    | [.text _ s, .text _ t] => texts s t
    | [.bytes _ s, .bytes _ t] => bytes s t
    | _ => none
  match answer with
  | some b => Datum.ofBool b
  | none => unsuited name args

/-- A function of one argument, or of none if that has a value. -/
def unary (name : String) (default : Option Datum) (f : Datum → Except Abort Datum)
    (args : List Datum) : Except Abort Datum :=
  match args, default with
  | [d], _ => f d
  | [], some d => .ok d
  | _, _ => .ok (unsuited name args)

/-- The names of the functions. -/
def names : List String :=
  ["size", "contains", "startsWith", "endsWith", "matches", "bool", "bytes", "double", "int",
    "list", "map", "null_type", "string", "type", "uint", "duration", "timestamp", "getDate",
    "getDayOfMonth", "getDayOfWeek", "getDayOfYear", "getFullYear", "getMonth", "getHours",
    "getMilliseconds", "getMinutes", "getSeconds"]

/-- What a function makes of its arguments. -/
def apply (name : String) (args : List Datum) : Except Abort Datum :=
  match name with
  | "size" => unary name none (fun d => match d.size? with
    | some n => .ok (.int .signed n)
    | none => .ok (unsuited name args)) args
  | "contains" => match args with
    | [d, item] => .ok (Datum.settle (Datum.answer name args (Datum.contains? d item)))
    | _ => .ok (unsuited name args)
  | "startsWith" => .ok <| ofParts name (fun s t => some (Text.startsWith s t))
      (fun s t => some (t.isPrefixOf s)) args
  | "endsWith" => .ok <| ofParts name (fun s t => some (Text.endsWith s t))
      (fun s t => some (t.isSuffixOf s)) args
  | "matches" => .ok <| ofParts name (fun s t => (Pattern.ofText? t).map (·.occursIn s))
      (fun _ _ => none) args
  | "bool" => unary name none toTruth args
  | "int" => unary name none (toInt name .signed writtenInt?) args
  | "uint" => unary name none (toInt name .unsigned writtenNat?) args
  | "double" => unary name none toDouble args
  | "string" => unary name none (fun d => .ok (toText d)) args
  | "bytes" => unary name none (fun d => .ok (toBytes d)) args
  | "list" => unary name (some (.list .given [])) (fun d => .ok (toList d)) args
  | "map" => unary name (some (.map [])) (fun d => .ok (toMap d)) args
  | "null_type" => .ok (if args.isEmpty then .null else unsuited name args)
  | "type" => unary name none (fun d => .ok (.function (kindName d))) args
  | _ => .ok (if names.contains name then unsuited name args else .failed (.unbound name))

end Function

end Automation.Expr
