/-
Automation/Proofs/Binding/Resolution.lean

When bindings cannot be resolved.

A value is resolved if all its references can be looked up, and fails like the first one that
cannot (`depends_resolve`).  That is a reference with an index of too many digits, and no other
(`lookup_eq_error`).
-/
import Mathlib.Data.List.Basic
import Automation.Binding.View

namespace Automation

open Numeral (digitLimit)

/-! ### Paths -/

/-- The fault is that of an index with too many digits. -/
def Fault.IsDigits (fault : Fault) : Prop := ∃ count, digitLimit < count ∧ fault = .tooManyDigits count

namespace Value

variable {v : Value} {fault : Fault}

theorem elements_eq_error {is : List Index} (h : v.elements is = .error fault) : fault.IsDigits := by
  induction is generalizing v with
  | nil => cases h
  | cons i is ih =>
    unfold elements Index.toInt Numeral.whole at h
    split at h
    · exact ih h
    · next other hint =>
      obtain rfl := Except.error.inj h
      by_cases hlen : i.digits.length ≤ digitLimit
      · simp [hlen] at hint
      · rw [if_neg hlen] at hint
        exact ⟨_, Nat.lt_of_not_le hlen, (Except.error.inj hint).symm⟩

theorem follow_eq_error {path : Path} (h : v.follow path = .error fault) : fault.IsDigits := by
  induction path generalizing v with
  | nil => cases h
  | cons s path ih =>
    cases s with
    | none => cases h
    | some s =>
      unfold follow at h
      split at h
      · next other hselect =>
        obtain rfl := Except.error.inj h
        exact elements_eq_error hselect
      · cases h
      · exact ih h

end Value

namespace View

open Binding

variable {v : View} {fault : Fault}

theorem frameValue_eq_error {frame : Value} {path : String}
    (h : frameValue frame path = .error fault) : fault.IsDigits := by
  unfold frameValue at h
  split at h
  · cases h
  · exact Value.follow_eq_error h

/-- A reference can be looked up, unless it has an index of too many digits. -/
theorem lookup_eq_error {ref : String} (h : v.lookup ref = .error fault) : fault.IsDigits := by
  unfold lookup at h
  split at h
  · cases h
  rcases hcut : headAndRest ref with ⟨head, rest⟩
  rcases hframe : headAndRest rest with ⟨marker, framePath⟩
  simp only [hcut, hframe] at h
  -- environment, secrets and full names of loop bindings are no paths
  split at h
  · cases h
  split at h
  · cases h
  split at h
  · cases h
  split at h
  · exact frameValue_eq_error h
  split at h
  · exact Value.follow_eq_error h
  split at h
  · exact Value.follow_eq_error h
  split at h
  · cases h
  · exact Value.follow_eq_error h

/-- What comes of looking up references: it is there if all of them are, and else it fails like
one of them. -/
def Depends {α : Type} (v : View) (refs : List String) (result : Except Fault α) : Prop :=
  (∃ x, result = .ok x) ∧ (∀ ref ∈ refs, ∃ y, v.lookup ref = .ok y) ∨
    ∃ ref ∈ refs, ∃ fault, v.lookup ref = .error fault ∧ result = .error fault

variable {α β : Type} {refs more : List String}

theorem Depends.ok (x : α) : v.Depends [] (.ok x) := .inl ⟨⟨x, rfl⟩, by simp⟩

theorem depends_lookup (v : View) (ref : String) : v.Depends [ref] (v.lookup ref) := by
  rcases h : v.lookup ref with fault | x
  · exact .inr ⟨ref, List.mem_singleton_self _, fault, h, rfl⟩
  · exact .inl ⟨⟨x, rfl⟩, by simp [h]⟩

theorem Depends.map {result : Except Fault α} (h : v.Depends refs result) (f : α → β) :
    v.Depends refs (result.map f) := by
  rcases h with ⟨⟨x, rfl⟩, hrefs⟩ | ⟨ref, href, fault, hlookup, rfl⟩
  · exact .inl ⟨⟨f x, rfl⟩, hrefs⟩
  · exact .inr ⟨ref, href, fault, hlookup, rfl⟩

theorem Depends.bind {result : Except Fault α} (h : v.Depends refs result) {f : α → Except Fault β}
    (hf : ∀ x, v.Depends more (f x)) : v.Depends (refs ++ more) (result.bind f) := by
  rcases h with ⟨⟨x, rfl⟩, hrefs⟩ | ⟨ref, href, fault, hlookup, rfl⟩
  · rcases hf x with ⟨hok, hmore⟩ | ⟨ref, href, fault, hlookup, hfault⟩
    · exact .inl ⟨hok, fun ref href => (List.mem_append.mp href).elim (hrefs ref) (hmore ref)⟩
    · exact .inr ⟨ref, List.mem_append_right _ href, fault, hlookup, hfault⟩
  · exact .inr ⟨ref, List.mem_append_left _ href, fault, hlookup, rfl⟩

/-- A text is filled piece by piece. -/
theorem depends_fillWith (v : View) (s : String) :
    v.Depends (referencesIn s) (fillWith v.lookupText s) := by
  unfold fillWith referencesIn
  refine Depends.map ?_ _
  induction pieces s.toList with
  | nil => exact Depends.ok _
  | cons piece rest ih =>
    rw [List.mapM_cons]
    cases piece with
    | char c => exact (Depends.ok _).bind fun x => ih.map (x :: ·)
    | reference ref =>
      exact (((depends_lookup v ref).map _).map _).bind fun x => ih.map (x :: ·)

theorem resolveItems_cons (v : View) (x : Value) (xs : List Value) :
    v.resolveItems (x :: xs) = (v.resolve x).bind fun y => (v.resolveItems xs).map (y :: ·) := by
  rw [resolveItems]
  cases v.resolve x <;> rfl

theorem resolveFields_cons (v : View) (k : String) (x : Value) (fs : List (String × Value)) :
    v.resolveFields ((k, x) :: fs) =
      (v.resolve x).bind fun y => (v.resolveFields fs).map ((k, y) :: ·) := by
  rw [resolveFields]
  cases v.resolve x <;> rfl

theorem resolveEntries_cons (v : View) (k : Key) (x : Value) (es : List (Key × Value)) :
    v.resolveEntries ((k, x) :: es) =
      (v.resolve x).bind fun y => (v.resolveEntries es).map ((k, y) :: ·) := by
  rw [resolveEntries]
  cases v.resolve x <;> rfl

mutual

/-- A value is resolved, or fails like one of its references. -/
theorem depends_resolve (v : View) : (x : Value) → v.Depends (references x) (v.resolve x)
  | .text s => by
    unfold resolve references
    rcases soleReference? s with - | ref
    · exact (depends_fillWith v s).map _
    · exact depends_lookup v ref
  | .list items => (depends_resolveItems v items).map _
  | .object fields => (depends_resolveFields v fields).map _
  | .table entries => (depends_resolveEntries v entries).map _
  | .null => Depends.ok _
  | .bool _ => Depends.ok _
  | .int _ => Depends.ok _
  | .float _ => Depends.ok _

theorem depends_resolveItems (v : View) : (xs : List Value) →
    v.Depends (referencesOfItems xs) (v.resolveItems xs)
  | [] => Depends.ok _
  | x :: xs => by
    rw [resolveItems_cons]
    exact (depends_resolve v x).bind fun y => (depends_resolveItems v xs).map (y :: ·)

theorem depends_resolveFields (v : View) : (fs : List (String × Value)) →
    v.Depends (referencesOfFields fs) (v.resolveFields fs)
  | [] => Depends.ok _
  | (k, x) :: fs => by
    rw [resolveFields_cons]
    exact (depends_resolve v x).bind fun y => (depends_resolveFields v fs).map ((k, y) :: ·)

theorem depends_resolveEntries (v : View) : (es : List (Key × Value)) →
    v.Depends (referencesOfEntries es) (v.resolveEntries es)
  | [] => Depends.ok _
  | (k, x) :: es => by
    rw [resolveEntries_cons]
    exact (depends_resolve v x).bind fun y => (depends_resolveEntries v es).map ((k, y) :: ·)

end

end View

end Automation
