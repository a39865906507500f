/-
Automation/Fault.lean

Why something could not be done.

Faults fall into two classes.  A refusal is foreseen: an action, a condition or
a loop explains why it cannot do what it is told, and its message stands for
itself.  Any other fault is a defect that surfaced in the middle of something;
its report names its class in front of the message.
-/
import Automation.Number.Decimal
import Automation.Number.Numeral
import Automation.Shape
import Automation.Text.Quoted
import Automation.Text.Search

namespace Automation

/-- What can be wrong with the host of an address. -/
inductive HostFlaw
  /-- Brackets that are not in their places. -/
  | brackets
  /-- An address of a later version that is malformed. -/
  | laterVersion
  /-- No numeric address where one has to be. -/
  | notNumeric (host : String)
  /-- A numeric address of four numbers in brackets. -/
  | bracketedQuad
  /-- A character that stands in for a delimiter. -/
  | standIn (host : String)
  deriving DecidableEq, Repr

/-- The wording of a flaw. -/
def HostFlaw.message : HostFlaw → String
  | .brackets => "Invalid IPv6 URL"
  | .laterVersion => "IPvFuture address is invalid"
  | .notNumeric host =>
    String.ofList (Text.quote host) ++ " does not appear to be an IPv4 or IPv6 address"
  | .bracketedQuad => "An IPv4 address cannot be in brackets"
  | .standIn host =>
    "netloc '" ++ host ++ "' contains invalid characters under NFKC normalization"

/-- A cause of failure. -/
inductive Fault
  /-- An action explains itself. -/
  | refused (message : String) (details : Value)
  | missingFields (names : List String)
  | unknownKind (kind : String)
  | noLoopData
  | noExpression
  | expressionFailed
  | casesUnreadable
  | casesMalformed (count : Nat)
  | noCases
  | delayNotANumber
  | delayNegative
  | badUrl (url : String)
  | requestTimedOut (seconds : Binary64)
  | requestFailed (reason : String)
  | entriesMalformed
  | noEntries
  | entryWithoutKey (position : Nat)
  /-- An integer beyond the range of floating-point numbers. -/
  | integerTooLarge
  /-- An infinite number taken as an integer. -/
  | infiniteInteger
  /-- A quotient beyond the range of floating-point numbers. -/
  | quotientTooLarge
  /-- What is not a number, taken as an integer. -/
  | nanInteger
  /-- A text that is no number. -/
  | unreadableFloat (text : String)
  /-- A text that is no whole number. -/
  | unreadableInteger (text : String)
  /-- A whole number that is written with too many digits. -/
  | tooManyDigits (count : Nat)
  /-- A value of a kind that stands for no number. -/
  | noFloat (kind : String)
  /-- A value of a kind that stands for no whole number. -/
  | noInteger (kind : String)
  /-- An address whose host is malformed. -/
  | badHost (flaw : HostFlaw)
  /-- In a list of pairs, something of another size. -/
  | unpaired (position size : Nat)
  /-- In a list of pairs, something without parts. -/
  | indivisible (position : Nat)
  /-- A value of a kind that is no key. -/
  | noKey (kind : String)
  /-- A value of a kind that has no elements. -/
  | noElements (kind : String)
  /-- A value of a kind that has no fields. -/
  | noFields (kind : String)
  /-- A value of a kind that is no text, asked for what a text can do. -/
  | noText (kind part : String)
  /-- A place that lies before the beginning of a list. -/
  | outOfRange
  /-- A value that is nested too deeply to be written. -/
  | tooDeep
  /-- A text that is nested too deeply to be read, ending in an object or a list. -/
  | tooNested (inObject : Bool)
  /-- A value of the wrong shape. -/
  | malformed (errors : List ShapeError)
  /-- An action broke down. -/
  | brokeDown (className : String) (message : String)

namespace Fault

/-- The class of a defect; a refusal has none. -/
def defectClass? : Fault → Option String
  | .integerTooLarge | .infiniteInteger | .quotientTooLarge => some "OverflowError"
  | .nanInteger | .unreadableFloat _ | .unreadableInteger _ | .tooManyDigits _ | .badHost _
  | .unpaired .. | .tooDeep => some "ValueError"
  | .noFloat _ | .noInteger _ | .indivisible _ | .noKey _ | .noElements _ | .noFields _ =>
    some "TypeError"
  | .noText .. => some "AttributeError"
  | .outOfRange => some "IndexError"
  | .tooNested _ => some "RecursionError"
  | .malformed _ => some "ValidationError"
  | .brokeDown name _ => some name
  | _ => none

/-- A foreseen fault. -/
def isRefusal (f : Fault) : Bool := f.defectClass?.isNone

/-- The wording for digits that are too many. -/
def digitsMessage (count : Nat) : String :=
  "Exceeds the limit (" ++ Nat.repr Numeral.digitLimit
    ++ " digits) for integer string conversion: value has " ++ Nat.repr count
    ++ " digits; use sys.set_int_max_str_digits() to increase the limit"

/-- The wording of a fault. -/
def message : Fault → String
  | .refused message _ => message
  | .missingFields names => "Missing required fields: " ++ Text.join ", " names
  | .unknownKind kind => "Unknown node kind: " ++ kind
  | .noLoopData => "No valid array data found for any configured loop variables."
  | .noExpression => "Condition expression is required"
  | .expressionFailed => "Condition evaluation failed: <cel error>"
  | .casesUnreadable => "Invalid cases configuration"
  | .casesMalformed count => "Invalid cases configuration: " ++ Nat.repr count ++ " error(s)"
  | .noCases => "At least one condition case is required"
  | .delayNotANumber => "Delay duration must be a number"
  | .delayNegative => "Delay duration must not be negative"
  | .badUrl url => "HTTP Request failed: Invalid URL format \"" ++ url ++ "\"."
  | .requestTimedOut seconds =>
    "HTTP Request timed out after " ++ seconds.toBriefText ++ " seconds"
  | .requestFailed reason => "HTTP Request failed: " ++ reason
  | .entriesMalformed => "entries must resolve to an array of \x7b\"key\",\"value\"\x7d objects"
  | .noEntries => "at least one key/value entry is required"
  | .entryWithoutKey position => "entry " ++ Nat.repr position ++ " is missing key"
  | .integerTooLarge => "int too large to convert to float"
  | .infiniteInteger => "cannot convert float infinity to integer"
  | .quotientTooLarge => "integer division result too large for a float"
  | .nanInteger => "cannot convert float NaN to integer"
  | .unreadableFloat text =>
    "could not convert string to float: " ++ String.ofList (Text.quote text)
  | .unreadableInteger text =>
    "invalid literal for int() with base 10: " ++ String.ofList ((Text.quote text).take 200)
  | .tooManyDigits count => digitsMessage count
  | .noFloat kind => "float() argument must be a string or a real number, not '" ++ kind ++ "'"
  | .noInteger kind =>
    "int() argument must be a string, a bytes-like object or a real number, not '" ++ kind ++ "'"
  | .badHost flaw => flaw.message
  | .unpaired position size =>
    "dictionary update sequence element #" ++ Nat.repr position ++ " has length "
      ++ Nat.repr size ++ "; 2 is required"
  | .indivisible position =>
    "cannot convert dictionary update sequence element #" ++ Nat.repr position
      ++ " to a sequence"
  | .noKey kind => "unhashable type: '" ++ kind ++ "'"
  | .noElements kind => "'" ++ kind ++ "' object is not iterable"
  | .noFields kind => "'" ++ kind ++ "' object is not a mapping"
  | .noText kind part => "'" ++ kind ++ "' object has no attribute '" ++ part ++ "'"
  | .outOfRange => "list index out of range"
  | .tooDeep => "Circular reference detected (depth exceeded)"
  | .tooNested inObject =>
    "maximum recursion depth exceeded while decoding a JSON "
      ++ (if inObject then "object" else "array") ++ " from a unicode string"
  | .malformed errors => Nat.repr errors.length ++ " validation error(s)"
  | .brokeDown _ message => message

/-- What a fault tells beside its message; null if that is nothing. -/
def details : Fault → Value
  | .refused _ details => details
  | .missingFields names => .object [("missingFields", .list (names.map .text))]
  | _ => .null

/-- A fault as the error text of a node. -/
def report (f : Fault) : String :=
  match f.defectClass? with
  | some name => name ++ ": " ++ f.message
  | none => f.message

/-- The fault of a text that is well formed and cannot be read, if it is one. -/
def ofUnreadable? : Unreadable → Option Fault
  | .malformed => none
  | .tooManyDigits count => some (.tooManyDigits count)
  | .tooNested inObject => some (.tooNested inObject)

end Fault

end Automation
