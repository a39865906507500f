/-
Automation/Proofs/Binding/Change.lean

What resolving a value changes.

A value without bindings is what it was, whatever it is resolved against (`resolve_plain`).  Where
nothing has a name a reference is null: a text that is one binding is no text any more, and any
other text loses its bindings and becomes shorter (`filledPieces_empty`).  So a value with a
binding anywhere in it is another one then (`alters_resolve`), and `containsBindings` tells exactly
which values resolving can change (`resolve_changes_bindings`).
-/
import Mathlib.Data.Prod.Basic
import Automation.Proofs.Binding.Interpolation
import Automation.Proofs.Binding.Resolution

namespace Automation

open Binding

namespace View

/-! ### Values without bindings -/

/-- A text without a binding stays as it is. -/
theorem resolve_text_plain (view : View) {s : String} (h : containsBindings (.text s) = false) :
    view.resolve (.text s) = .ok (.text s) := by
  have hliteral : IsLiteral s.toList := isLiteral_iff.mpr h
  have hnot : soleReference? s = none := by
    apply Option.eq_none_iff_forall_ne_some.mpr
    intro ref hsole
    have hmem := mem_referencesIn_of_sole hsole
    rw [referencesIn_eq, pieces_eq_chars_iff.mpr hliteral, referencesAmong_chars] at hmem
    exact List.not_mem_nil hmem
  rw [resolve, hnot]
  show (fillWith view.lookupText s).map Value.text = _
  rw [fillWith_of_isLiteral hliteral]
  rfl

mutual

/-- A value without bindings stays as it is. -/
theorem resolve_plain (view : View) : (v : Value) → containsBindings v = false →
    view.resolve v = .ok v
  | .text _, h => resolve_text_plain view h
  | .list items, h => by
    rw [resolve, resolveItems_plain view items h]
    rfl
  | .object fields, h => by
    rw [resolve, resolveFields_plain view fields h]
    rfl
  | .table entries, h => by
    rw [resolve, resolveEntries_plain view entries h]
    rfl
  | .null, _ => rfl
  | .bool _, _ => rfl
  | .int _, _ => rfl
  | .float _, _ => rfl

theorem resolveItems_plain (view : View) : (vs : List Value) → itemsContainBindings vs = false →
    view.resolveItems vs = .ok vs
  | [], _ => rfl
  | v :: vs, h => by
    obtain ⟨hv, hvs⟩ := Bool.or_eq_false_iff.mp h
    rw [resolveItems_cons, resolve_plain view v hv, resolveItems_plain view vs hvs]
    rfl

theorem resolveFields_plain (view : View) : (fs : List (String × Value)) →
    fieldsContainBindings fs = false → view.resolveFields fs = .ok fs
  | [], _ => rfl
  | (k, v) :: fs, h => by
    obtain ⟨hv, hfs⟩ := Bool.or_eq_false_iff.mp h
    rw [resolveFields_cons, resolve_plain view v hv, resolveFields_plain view fs hfs]
    rfl

theorem resolveEntries_plain (view : View) : (es : List (Key × Value)) →
    entriesContainBindings es = false → view.resolveEntries es = .ok es
  | [], _ => rfl
  | (k, v) :: es, h => by
    obtain ⟨hv, hes⟩ := Bool.or_eq_false_iff.mp h
    rw [resolveEntries_cons, resolve_plain view v hv, resolveEntries_plain view es hes]
    rfl

end

/-! ### Where nothing is bound -/

theorem lookup_bare (occasion : Occasion) (ref : String) :
    (bare occasion).lookup ref = .ok .null := by
  unfold lookup
  rcases headAndRest ref with ⟨head, rest⟩
  have hframe : (if (headAndRest rest).1 = frameMarker then (bare occasion).loopFrames.get? head
      else none) = none := ite_self none
  simp only [hframe]
  -- no source has a name, and nothing is in scope
  split
  · rfl
  split
  · rfl
  split
  · rfl
  · rfl

/-- With nothing in place of its references a text becomes shorter, if it has any. -/
theorem filledPieces_empty (cs : List Char) : ∃ left : List Char,
    (filledPieces (fun _ => .ok "") (pieces cs) : Except Fault (List Char)) = .ok left ∧
      left.length ≤ cs.length ∧
      ((pieces cs).any Piece.isReference = true → left.length < cs.length) := by
  induction cs using pieces.induct with
  | case1 => exact ⟨[], by rw [pieces_nil, filledPieces_nil], Nat.le_refl 0, by simp⟩
  | case2 c cs inside rest hbinding ih =>
    obtain ⟨left, heq, hle, -⟩ := ih
    have hshorter : rest.length < (c :: cs).length := length_of_binding? hbinding
    refine ⟨left, ?_, ?_, ?_⟩
    · rw [pieces_of_binding hbinding, filledPieces_reference, heq]
      rfl
    · omega
    · intro _
      omega
  | case3 c cs hnone ih =>
    obtain ⟨left, heq, hle, hlt⟩ := ih
    rw [pieces_of_none hnone]
    refine ⟨c :: left, ?_, Nat.succ_le_succ hle, ?_⟩
    · rw [filledPieces_char, heq]
      rfl
    · intro hany
      apply Nat.succ_lt_succ
      apply hlt
      simpa [Piece.isReference] using hany

/-- What comes of a value: there is something, and something else if the value is to be
altered. -/
def Alters {α : Type} (altered : Bool) (x : α) (result : Except Fault α) : Prop :=
  ∃ y, result = .ok y ∧ (altered = true → y ≠ x)

section Alters

variable {α β : Type} {a b : Bool} {x : α} {result : Except Fault α}

theorem Alters.same (x : α) : Alters false x (.ok x) := ⟨x, rfl, nofun⟩

theorem Alters.map (h : Alters a x result) {f : α → β} (hf : f.Injective) :
    Alters a (f x) (result.map f) := by
  obtain ⟨x', rfl, hx⟩ := h
  exact ⟨f x', rfl, fun ha heq => hx ha (hf heq)⟩

/-- A list is altered if its head or its tail is. -/
theorem Alters.cons {ys : List β} {others : Except Fault (List β)} (h : Alters a x result)
    (hys : Alters b ys others) {f : α → β} (hf : f.Injective) :
    Alters (a || b) (f x :: ys) (result.bind fun x' => others.map (f x' :: ·)) := by
  obtain ⟨x', rfl, hx⟩ := h
  obtain ⟨ys', rfl, hys⟩ := hys
  refine ⟨f x' :: ys', rfl, ?_⟩
  intro hab hsame
  obtain ⟨hhead, htail⟩ := List.cons.inj hsame
  rcases Bool.or_eq_true_iff.mp hab with ha | hb
  · exact hx ha (hf hhead)
  · exact hys hb htail

end Alters

/-- A text with a binding is another value where nothing is bound. -/
theorem alters_resolve_text (occasion : Occasion) (s : String) :
    Alters (containsBindings (.text s)) (.text s) ((bare occasion).resolve (.text s)) := by
  rw [resolve]
  rcases soleReference? s with - | ref
  · have hempty : (bare occasion).lookupText = fun _ => .ok "" := by
      funext ref
      rw [lookupText, lookup_bare]
      rfl
    obtain ⟨left, heq, -, hlt⟩ := filledPieces_empty s.toList
    refine ⟨.text (String.ofList left), ?_, ?_⟩
    · show (fillWith (bare occasion).lookupText s).map Value.text = _
      rw [hempty, fillWith_eq, heq]
      rfl
    · intro hany hsame
      obtain rfl := Value.text.inj hsame
      have hshorter := hlt hany
      rw [String.toList_ofList] at hshorter
      exact Nat.lt_irrefl _ hshorter
  · refine ⟨.null, lookup_bare occasion ref, ?_⟩
    intro _ hsame
    cases hsame

mutual

/-- A value with bindings is another one where nothing is bound. -/
theorem alters_resolve (occasion : Occasion) : (v : Value) →
    Alters (containsBindings v) v ((bare occasion).resolve v)
  | .text s => alters_resolve_text occasion s
  | .list items => (alters_resolveItems occasion items).map fun _ _ => Value.list.inj
  | .object fields => (alters_resolveFields occasion fields).map fun _ _ => Value.object.inj
  | .table entries => (alters_resolveEntries occasion entries).map fun _ _ => Value.table.inj
  | .null => Alters.same _
  | .bool _ => Alters.same _
  | .int _ => Alters.same _
  | .float _ => Alters.same _

theorem alters_resolveItems (occasion : Occasion) : (vs : List Value) →
    Alters (itemsContainBindings vs) vs ((bare occasion).resolveItems vs)
  | [] => Alters.same _
  | v :: vs => by
    rw [resolveItems_cons]
    exact (alters_resolve occasion v).cons (alters_resolveItems occasion vs) Function.injective_id

theorem alters_resolveFields (occasion : Occasion) : (fs : List (String × Value)) →
    Alters (fieldsContainBindings fs) fs ((bare occasion).resolveFields fs)
  | [] => Alters.same _
  | (k, v) :: fs => by
    rw [resolveFields_cons]
    exact (alters_resolve occasion v).cons (alters_resolveFields occasion fs)
      (Prod.mk_right_injective k)

theorem alters_resolveEntries (occasion : Occasion) : (es : List (Key × Value)) →
    Alters (entriesContainBindings es) es ((bare occasion).resolveEntries es)
  | [] => Alters.same _
  | (k, v) :: es => by
    rw [resolveEntries_cons]
    exact (alters_resolve occasion v).cons (alters_resolveEntries occasion es)
      (Prod.mk_right_injective k)

end

/-! ### What can change -/

/-- A value without bindings is the same against any view, and one with a binding becomes another
where nothing is bound.  So what has been resolved stays the same when it has no bindings left. -/
theorem resolve_changes_bindings (v : Value) :
    (containsBindings v = false → ∀ view : View, view.resolve v = .ok v) ∧
      (containsBindings v = true → ∀ occasion, ∃ w, (bare occasion).resolve v = .ok w ∧ w ≠ v) ∧
      ∀ (view later : View) (w : Value), view.resolve v = .ok w → containsBindings w = false →
        later.resolve w = .ok w := by
  refine ⟨?_, ?_, ?_⟩
  · intro hplain view
    exact resolve_plain view v hplain
  · intro hbindings occasion
    obtain ⟨w, heq, haltered⟩ := alters_resolve occasion v
    exact ⟨w, heq, haltered hbindings⟩
  · intro _ later w _ hplain
    exact resolve_plain later w hplain

/-- Braces that make no binding, and a binding inside a list. -/
theorem resolve_changes_bindings_nested :
    let occasion : Occasion := ⟨"run", .null, ⟨"", 0⟩⟩
    let view : View := { bare occasion with declared := .table [("n", .int 3)] false }
    let braces : Value := .text "\x7b \x7b\x7b\x7d\x7d \x7b\x7b \x7bx\x7d\x7d"
    let bound : Value :=
      .object [("a", .list [.int 1, .text "n: \x7b\x7b n \x7d\x7d"]), ("b", braces)]
    let resolved : Value := .object [("a", .list [.int 1, .text "n: 3"]), ("b", braces)]
    (containsBindings braces = false ∧ view.resolve braces = .ok braces) ∧
      (containsBindings bound = true ∧ ∃ w, (bare occasion).resolve bound = .ok w ∧ w ≠ bound) ∧
      view.resolve bound = .ok resolved ∧ (bare occasion).resolve resolved = .ok resolved := by
  intro occasion view braces bound resolved
  have hbraces : containsBindings braces = false := by decide +kernel
  have hbound : containsBindings bound = true := by decide +kernel
  have hresolved : view.resolve bound = .ok resolved := by
    have hoption : (view.resolve bound).toOption = some resolved := by decide +kernel
    rcases hresult : view.resolve bound with fault | w
    · rw [hresult] at hoption
      cases hoption
    · rw [hresult] at hoption
      rw [Option.some.inj hoption]
  refine ⟨⟨hbraces, (resolve_changes_bindings braces).1 hbraces view⟩,
    ⟨hbound, (resolve_changes_bindings bound).2.1 hbound occasion⟩, hresolved, ?_⟩
  exact (resolve_changes_bindings bound).2.2 view (bare occasion) resolved hresolved
    (by decide +kernel)

end View

end Automation
