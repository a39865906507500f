/-
Automation/Binding/Template.lean

Templates: texts that hold bindings.

A binding is two opening braces, a reference without braces, and two closing
braces.  A text is cut from the left into pieces: where a binding begins, the
whole binding is one piece, and any other character is a piece of its own.  So
the pieces of a text are its bindings in order, with all that stands between
them, stray braces included.
-/
import Automation.Text.Blank
import Automation.Value.Basic

namespace Automation.Binding

open Automation.Text

/-- The brace that opens a binding. -/
def openBrace : Char := Char.ofNat 0x7B

/-- The brace that closes a binding. -/
def closeBrace : Char := Char.ofNat 0x7D

/-- A character that may stand in a reference. -/
def isReferenceChar (c : Char) : Bool := c != openBrace && c != closeBrace

/-- The inside of the binding at the front of a list, and the rest after it. -/
def binding? (cs : List Char) : Option (List Char × List Char) :=
  match cs with
  | a :: b :: more =>
    if a = openBrace ∧ b = openBrace then
      let inside := more.takeWhile isReferenceChar
      match inside, more.dropWhile isReferenceChar with
      | _ :: _, c :: d :: rest =>
        if c = closeBrace ∧ d = closeBrace then some (inside, rest) else none
      | _, _ => none
    else none
  | _ => none

theorem length_of_binding? {cs inside rest : List Char}
    (h : binding? cs = some (inside, rest)) : rest.length < cs.length := by
  unfold binding? at h
  split at h
  · next a b more =>
    split at h
    · dsimp only at h
      split at h
      · next c d left hd _ =>
        split at h
        · obtain ⟨-, rfl⟩ := by simpa using h
          have := (List.dropWhile_sublist isReferenceChar (l := more)).length_le
          simp_all
          omega
        · simp at h
      · simp at h
    · simp at h
  · simp at h

/-- A part of a template: one character, or a binding with its reference. -/
inductive Piece
  | char (c : Char)
  | reference (ref : String)
  deriving DecidableEq, Repr

/-- A reference without the white space around it. -/
def trimReference (inside : List Char) : String := String.ofList (stripChars inside)

/-- The pieces of a text. -/
def pieces : List Char → List Piece
  | [] => []
  | c :: cs => match _h : binding? (c :: cs) with
    | some (inside, rest) => .reference (trimReference inside) :: pieces rest
    | none => .char c :: pieces cs
termination_by cs => cs.length
decreasing_by
  · exact length_of_binding? _h
  · simp

/-- A piece that is a binding. -/
def Piece.isReference : Piece → Bool
  | .reference _ => true
  | .char _ => false

/-- The references of a text, in order. -/
def referencesIn (s : String) : List String :=
  (pieces s.toList).filterMap fun
    | .reference ref => some ref
    | .char _ => none

/-- The reference of a text that is one binding, white space around it aside. -/
def soleReference? (s : String) : Option String :=
  match pieces (stripChars s.toList) with
  | [.reference ref] => some ref
  | _ => none

/-- Puts a text in the place of each reference. -/
def fill (textOf : String → String) (s : String) : String :=
  String.ofList <| (pieces s.toList).flatMap fun
    | .reference ref => (textOf ref).toList
    | .char c => [c]

/-- Puts a text in the place of each reference, one after another; the first
reference that has none ends it. -/
def fillWith (textOf : String → Except ε String) (s : String) : Except ε String :=
  let parts := (pieces s.toList).mapM fun
    | .reference ref => (textOf ref).map String.toList
    | .char c => .ok [c]
  parts.map fun texts => String.ofList texts.flatten

mutual

/-- A value has a binding in some text; the keys of objects do not count. -/
def containsBindings : Value → Bool
  | .text s => (pieces s.toList).any Piece.isReference
  | .list items => itemsContainBindings items
  | .object fields => fieldsContainBindings fields
  | .table entries => entriesContainBindings entries
  | _ => false

def itemsContainBindings : List Value → Bool
  | [] => false
  | v :: vs => containsBindings v || itemsContainBindings vs

def fieldsContainBindings : List (String × Value) → Bool
  | [] => false
  | (_, v) :: fs => containsBindings v || fieldsContainBindings fs

def entriesContainBindings : List (Key × Value) → Bool
  | [] => false
  | (_, v) :: es => containsBindings v || entriesContainBindings es

end

mutual

/-- The references of a value in the order in which it is resolved: a text that
is one binding, or all bindings of a text; lists and objects in order. -/
def references : Value → List String
  | .text s => match soleReference? s with
    | some ref => [ref]
    | none => referencesIn s
  | .list items => referencesOfItems items
  | .object fields => referencesOfFields fields
  | .table entries => referencesOfEntries entries
  | _ => []

def referencesOfItems : List Value → List String
  | [] => []
  | v :: vs => references v ++ referencesOfItems vs

def referencesOfFields : List (String × Value) → List String
  | [] => []
  | (_, v) :: fs => references v ++ referencesOfFields fs

def referencesOfEntries : List (Key × Value) → List String
  | [] => []
  | (_, v) :: es => references v ++ referencesOfEntries es

end

end Automation.Binding
