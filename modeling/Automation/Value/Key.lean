/-
Automation/Value/Key.lean

The keys of objects.

Structured text has texts as keys and nothing else.  An object that is put
together from pairs can have any scalar as a key.  Two keys are one if they are
the same or equal as numbers, and booleans are numbers; whoever writes under a
key again leaves its first form and its place.
-/
import Automation.Fields
import Automation.Number.Binary64

namespace Automation

/-- What a value in an object stands under. -/
inductive Key
  | null
  | bool (b : Bool)
  | int (n : Int)
  | float (x : Binary64)
  | text (s : String)
  deriving DecidableEq, Inhabited

namespace Key

/-- Two numbers are equal, whatever their kinds; booleans are numbers. -/
def sameNumber : Key → Key → Bool
  | .bool a, .bool b => a == b
  | .bool a, .int n => n == a.toInt
  | .int n, .bool a => n == a.toInt
  | .int m, .int n => m == n
  | .float x, .float y => x.eqv y
  | .float x, .int n => x.compareInt? n == some .eq
  | .int n, .float x => x.compareInt? n == some .eq
  | .float x, .bool a => x.compareInt? a.toInt == some .eq
  | .bool a, .float x => x.compareInt? a.toInt == some .eq
  | _, _ => false

/-- Two keys are one. -/
def same (k l : Key) : Bool := decide (k = l) || sameNumber k l

/-- The text that a key is, if it is one. -/
def text? : Key → Option String
  | .text s => some s
  | _ => none

end Key

/-- Keys of all kinds with values, in order. -/
abbrev Entries (α : Type u) := List (Key × α)

namespace Entries

/-- Fields as entries. -/
def ofFields (fs : Fields α) : Entries α := fs.map fun (k, v) => (.text k, v)

/-- The fields that entries are, if all keys are texts. -/
def fields? (es : Entries α) : Option (Fields α) :=
  es.mapM fun (k, v) => k.text?.map fun s => (s, v)

/-- The value under a text. -/
def get? (es : Entries α) (key : String) : Option α := es.lookup (.text key)

/-- Writes a value under a key: in its place if the key is there, else last. -/
def set : Entries α → Key → α → Entries α
  | [], key, value => [(key, value)]
  | (k, v) :: rest, key, value =>
    if k.same key then (k, value) :: rest else (k, v) :: set rest key value

/-- Writes entries one after another over others. -/
def overlay (es fs : Entries α) : Entries α := fs.foldl (fun acc f => acc.set f.1 f.2) es

/-- The entries of a list of pairs: of keys that are one the first form and place
and the last value. -/
def ofPairs (pairs : List (Key × α)) : Entries α := overlay [] pairs

/-- Leaves out a text. -/
def erase (es : Entries α) (key : String) : Entries α := es.filter fun e => e.1 != .text key

/-- Entries that stand for fields are their own fields. -/
theorem fields?_ofFields (fs : Fields α) : fields? (ofFields fs) = some fs := by
  induction fs with
  | nil => rfl
  | cons f fs ih =>
    simp only [fields?, ofFields, List.map_cons, List.mapM_cons] at ih ⊢
    rw [ih]
    rfl

end Entries

end Automation
