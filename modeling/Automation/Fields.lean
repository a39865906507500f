/-
Automation/Fields.lean

Ordered fields: keys with values, in the order in which the keys came up.

`set` keeps the place of a key that is already there, so writing a field again
changes its value and not the order.  Fields built by `set` have each key once.
-/
namespace Automation

/-- Keys with values, in order. -/
abbrev Fields (α : Type u) := List (String × α)

namespace Fields

/-- The value under a key. -/
def get? (fs : Fields α) (key : String) : Option α := fs.lookup key

/-- Writes a value under a key: in its place if the key is there, else last. -/
def set : Fields α → String → α → Fields α
  | [], key, value => [(key, value)]
  | (k, v) :: rest, key, value =>
    if k = key then (k, value) :: rest else (k, v) :: set rest key value

/-- Writes fields one after another over others. -/
def overlay (fs gs : Fields α) : Fields α := gs.foldl (fun acc g => acc.set g.1 g.2) fs

/-- The fields of a list of pairs: of equal keys the first place and the last
value. -/
def ofPairs (pairs : List (String × α)) : Fields α := overlay [] pairs

/-- The keys in order. -/
def keys (fs : Fields α) : List String := fs.map (·.1)

/-- A key is there. -/
def has (fs : Fields α) (key : String) : Bool := fs.any fun f => f.1 == key

/-- Leaves out a key. -/
def erase (fs : Fields α) (key : String) : Fields α := fs.filter fun f => f.1 != key

/-- Leaves out several keys. -/
def eraseAll (fs : Fields α) (keys : List String) : Fields α :=
  fs.filter fun f => !keys.contains f.1

end Fields

end Automation
