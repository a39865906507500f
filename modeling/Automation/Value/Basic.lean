/-
Automation/Value/Basic.lean

The data that flows carry: settings, results, payloads, bindings.

A value is what structured text can hold, with two kinds of number: integers of
any size and floating-point numbers, which are never mixed up.  The fields of an
object keep their order.  A table is an object with keys that are no texts; all
that can be done with an object can be done with it.
-/
import Automation.Value.Key

namespace Automation

/-- A piece of data. -/
inductive Value
  | null
  | bool (b : Bool)
  | int (n : Int)
  | float (x : Binary64)
  | text (s : String)
  | list (items : List Value)
  | object (fields : List (String × Value))
  /-- An object some of whose keys are no texts. -/
  | table (entries : List (Key × Value))
  deriving Inhabited

namespace Value

mutual

/-- Equality of values is decided part by part. -/
def decEq : (a b : Value) → Decidable (a = b)
  | .null, .null => .isTrue rfl
  | .bool a, .bool b =>
    if h : a = b then .isTrue (by rw [h]) else .isFalse (by simp [h])
  | .int a, .int b =>
    if h : a = b then .isTrue (by rw [h]) else .isFalse (by simp [h])
  | .float a, .float b =>
    if h : a = b then .isTrue (by rw [h]) else .isFalse (by simp [h])
  | .text a, .text b =>
    if h : a = b then .isTrue (by rw [h]) else .isFalse (by simp [h])
  | .list a, .list b => match decEqItems a b with
    | .isTrue h => .isTrue (by rw [h])
    | .isFalse h => .isFalse (by simp [h])
  | .object a, .object b => match decEqFields a b with
    | .isTrue h => .isTrue (by rw [h])
    | .isFalse h => .isFalse (by simp [h])
  | .table a, .table b => match decEqEntries a b with
    | .isTrue h => .isTrue (by rw [h])
    | .isFalse h => .isFalse (by simp [h])
  | .null, .bool _ | .null, .int _ | .null, .float _ | .null, .text _
  | .null, .list _ | .null, .object _ | .null, .table _ => .isFalse (by simp)
  | .bool _, .null | .bool _, .int _ | .bool _, .float _ | .bool _, .text _
  | .bool _, .list _ | .bool _, .object _ | .bool _, .table _ => .isFalse (by simp)
  | .int _, .null | .int _, .bool _ | .int _, .float _ | .int _, .text _
  | .int _, .list _ | .int _, .object _ | .int _, .table _ => .isFalse (by simp)
  | .float _, .null | .float _, .bool _ | .float _, .int _ | .float _, .text _
  | .float _, .list _ | .float _, .object _ | .float _, .table _ => .isFalse (by simp)
  | .text _, .null | .text _, .bool _ | .text _, .int _ | .text _, .float _
  | .text _, .list _ | .text _, .object _ | .text _, .table _ => .isFalse (by simp)
  | .list _, .null | .list _, .bool _ | .list _, .int _ | .list _, .float _
  | .list _, .text _ | .list _, .object _ | .list _, .table _ => .isFalse (by simp)
  | .object _, .null | .object _, .bool _ | .object _, .int _ | .object _, .float _
  | .object _, .text _ | .object _, .list _ | .object _, .table _ => .isFalse (by simp)
  | .table _, .null | .table _, .bool _ | .table _, .int _ | .table _, .float _
  | .table _, .text _ | .table _, .list _ | .table _, .object _ => .isFalse (by simp)

/-- Equality of lists of values. -/
def decEqItems : (a b : List Value) → Decidable (a = b)
  | [], [] => .isTrue rfl
  | [], _ :: _ => .isFalse (by simp)
  | _ :: _, [] => .isFalse (by simp)
  | a :: as, b :: bs => match decEq a b, decEqItems as bs with
    | .isTrue h, .isTrue hs => .isTrue (by rw [h, hs])
    | .isFalse h, _ => .isFalse (by simp [h])
    | _, .isFalse hs => .isFalse (by simp [hs])

/-- Equality of fields, order included. -/
def decEqFields : (a b : List (String × Value)) → Decidable (a = b)
  | [], [] => .isTrue rfl
  | [], _ :: _ => .isFalse (by simp)
  | _ :: _, [] => .isFalse (by simp)
  | (k, a) :: as, (l, b) :: bs =>
    if hk : k = l then match decEq a b, decEqFields as bs with
      | .isTrue h, .isTrue hs => .isTrue (by rw [hk, h, hs])
      | .isFalse h, _ => .isFalse (by simp [h])
      | _, .isFalse hs => .isFalse (by simp [hs])
    else .isFalse (by simp [hk])

/-- Equality of entries, order included. -/
def decEqEntries : (a b : List (Key × Value)) → Decidable (a = b)
  | [], [] => .isTrue rfl
  | [], _ :: _ => .isFalse (by simp)
  | _ :: _, [] => .isFalse (by simp)
  | (k, a) :: as, (l, b) :: bs =>
    if hk : k = l then match decEq a b, decEqEntries as bs with
      | .isTrue h, .isTrue hs => .isTrue (by rw [hk, h, hs])
      | .isFalse h, _ => .isFalse (by simp [h])
      | _, .isFalse hs => .isFalse (by simp [hs])
    else .isFalse (by simp [hk])

end

instance : DecidableEq Value := decEq

/-- Absent. -/
def isNull : Value → Bool
  | .null => true
  | _ => false

/-- Absent, or the empty text. -/
def isMissing : Value → Bool
  | .null => true
  | .text s => s.isEmpty
  | _ => false

/-- Neither absent nor false, zero or empty. -/
def isTruthy : Value → Bool
  | .null => false
  | .bool b => b
  | .int n => n != 0
  | .float x => !x.isZero
  | .text s => !s.isEmpty
  | .list items => !items.isEmpty
  | .object fields => !fields.isEmpty
  | .table entries => !entries.isEmpty

/-- The value itself if it is truthy, else another one. -/
def orElse (v other : Value) : Value := if v.isTruthy then v else other

/-! ### Objects -/

/-- A key as a value of its own. -/
def ofKey : Key → Value
  | .null => .null
  | .bool b => .bool b
  | .int n => .int n
  | .float x => .float x
  | .text s => .text s

/-- The object of some entries: a table only if a key is no text. -/
def ofEntries (entries : Entries Value) : Value :=
  match entries.fields? with
  | some fields => .object fields
  | none => .table entries

/-- The entries of an object. -/
def entries? : Value → Option (Entries Value)
  | .object fields => some (Entries.ofFields fields)
  | .table entries => some entries
  | _ => none

/-- The fields of an object: what it has under texts. -/
def fields? : Value → Option (Fields Value)
  | .object fields => some fields
  | .table entries => some (entries.filterMap fun (k, v) => k.text?.map fun s => (s, v))
  | _ => none

/-- A field of an object; anything else has no fields. -/
def field (v : Value) (key : String) : Value :=
  match v with
  | .object fields => (fields.lookup key).getD .null
  | .table entries => (Entries.get? entries key).getD .null
  | _ => .null

/-- An object with a field written; anything else is left alone. -/
def put (v : Value) (key : String) (x : Value) : Value :=
  match v with
  | .object fields => .object (Fields.set fields key x)
  | .table entries => .table (Entries.set entries (.text key) x)
  | v => v

/-- An object without a field; anything else is left alone. -/
def drop (v : Value) (key : String) : Value :=
  match v with
  | .object fields => .object (Fields.erase fields key)
  | .table entries => .table (Entries.erase entries key)
  | v => v

mutual

/-- How deeply a value is nested; one without parts is one deep. -/
def depth : Value → Nat
  | .list items => depthOfItems items + 1
  | .object fields => depthOfFields fields + 1
  | .table entries => depthOfEntries entries + 1
  | _ => 1

/-- The greatest depth of some elements. -/
def depthOfItems : List Value → Nat
  | [] => 0
  | v :: vs => max v.depth (depthOfItems vs)

/-- The greatest depth of the values of some fields. -/
def depthOfFields : List (String × Value) → Nat
  | [] => 0
  | (_, v) :: fs => max v.depth (depthOfFields fs)

/-- The greatest depth of the values of some entries. -/
def depthOfEntries : List (Key × Value) → Nat
  | [] => 0
  | (_, v) :: es => max v.depth (depthOfEntries es)

end

/-- The word for the kind of a value. -/
def kindName : Value → String
  | .null => "NoneType"
  | .bool _ => "bool"
  | .int _ => "int"
  | .float _ => "float"
  | .text _ => "str"
  | .list _ => "list"
  | .object _ => "dict"
  | .table _ => "dict"

end Value

/-- The value under a key, null if the key is not there. -/
def Fields.at (fs : Fields Value) (key : String) : Value := (fs.get? key).getD .null

end Automation
