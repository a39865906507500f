/-
Automation/Proofs/Binding/View.lean

What resolving bindings looks at.

Only references that begin with `env.` or `secrets.` are looked up in the environment or
among the secrets (`Reserved`).  All others have the same value in a view that is veiled,
which means without both (`lookup_veil`), and so has every value that is resolved
without a reserved reference (`resolve_veil`).  No secret is asked for then.
-/
import Automation.Binding.View
import Automation.Proofs.Binding.Template
import Automation.Proofs.Fields

namespace Automation

namespace Text

/-- A list with a mark is what stands before the mark, the mark, and what stands after it. -/
theorem cutOnce_eq {mark : Char} {cs : List Char} (h : (cutOnce mark cs).2 ≠ []) :
    cs = (cutOnce mark cs).1 ++ mark :: (cutOnce mark cs).2 := by
  induction cs with
  | nil => exact absurd rfl h
  | cons c cs ih =>
    unfold cutOnce at h ⊢
    split
    · next hc => rw [hc]; rfl
    · next hc =>
      rw [if_neg hc] at h
      exact congrArg (c :: ·) (ih h)

end Text

namespace Binding

/-- The reference is looked up in the environment or among the secrets. -/
def Reserved (ref : String) : Prop :=
  Text.startsWith ref "env." = true ∨ Text.startsWith ref "secrets." = true

instance (ref : String) : Decidable (Reserved ref) :=
  inferInstanceAs (Decidable (_ ∨ _))

/-- A reference with a rest begins with its head and a dot. -/
theorem startsWith_of_headAndRest {ref head rest : String} (h : headAndRest ref = (head, rest))
    (hrest : rest ≠ "") : (head.toList ++ ['.']).isPrefixOf ref.toList = true := by
  obtain ⟨rfl, rfl⟩ := Prod.mk.inj h
  have hne : (Text.cutOnce '.' ref.toList).2 ≠ [] := by
    intro hnil
    exact hrest (by rw [hnil])
  rw [List.isPrefixOf_iff_prefix]
  refine ⟨(Text.cutOnce '.' ref.toList).2, ?_⟩
  simpa using (Text.cutOnce_eq hne).symm

theorem not_env_of_not_reserved {ref head rest : String} (h : ¬ Reserved ref)
    (hcut : headAndRest ref = (head, rest)) : ¬ (head = "env" ∧ rest ≠ "") := by
  rintro ⟨rfl, hrest⟩
  exact h (.inl (startsWith_of_headAndRest hcut hrest))

theorem not_secrets_of_not_reserved {ref head rest : String} (h : ¬ Reserved ref)
    (hcut : headAndRest ref = (head, rest)) : ¬ (head = "secrets" ∧ rest ≠ "") := by
  rintro ⟨rfl, hrest⟩
  exact h (.inr (startsWith_of_headAndRest hcut hrest))

theorem secretName?_eq_none {ref : String} (h : ¬ Reserved ref) : secretName? ref = none := by
  rcases hcut : headAndRest ref with ⟨head, rest⟩
  have henv := not_env_of_not_reserved h hcut
  have hsecrets := not_secrets_of_not_reserved h hcut
  unfold secretName?
  simp only [hcut]
  exact if_neg fun ⟨hhead, hrest⟩ =>
    hhead.elim (fun h => henv ⟨h, hrest⟩) fun h => hsecrets ⟨h, hrest⟩

/-! ### Values without reserved references -/

/-- No text in the value has a binding that is looked up in the environment or among the
secrets. -/
def Unreserved (v : Value) : Prop := ∀ s ∈ texts v, ∀ ref ∈ referencesIn s, ¬ Reserved ref

instance (v : Value) : Decidable (Unreserved v) :=
  inferInstanceAs (Decidable (∀ s ∈ texts v, ∀ ref ∈ referencesIn s, ¬ Reserved ref))

theorem Unreserved.references {v : Value} (h : Unreserved v) :
    ∀ ref ∈ references v, ¬ Reserved ref := by
  intro ref href
  obtain ⟨s, hs, hmem⟩ := exists_text_of_mem_references v href
  exact h s hs ref hmem

theorem unreserved_null : Unreserved .null := by
  intro s hs
  cases hs

theorem Unreserved.mem_items {items : List Value} (h : Unreserved (.list items)) {v : Value}
    (hv : v ∈ items) : Unreserved v := by
  intro s hs
  refine h s ?_
  show s ∈ textsOfItems items
  clear h
  induction items with
  | nil => cases hv
  | cons x items ih =>
    rcases List.mem_cons.mp hv with rfl | hv
    · exact List.mem_append_left _ hs
    · exact List.mem_append_right _ (ih hv)

theorem Unreserved.mem_fields {fs : Fields Value} (h : Unreserved (.object fs))
    {f : String × Value} (hf : f ∈ fs) : Unreserved f.2 := by
  intro s hs
  refine h s ?_
  show s ∈ textsOfFields fs
  clear h
  induction fs with
  | nil => cases hf
  | cons g fs ih =>
    rcases List.mem_cons.mp hf with rfl | hf
    · exact List.mem_append_left _ hs
    · exact List.mem_append_right _ (ih hf)

theorem Unreserved.get? {fs : Fields Value} (h : Unreserved (.object fs)) {key : String} {v : Value}
    (hv : fs.get? key = some v) : Unreserved v :=
  h.mem_fields (Fields.mem_of_get? hv)

theorem Unreserved.at {fs : Fields Value} (h : Unreserved (.object fs)) (key : String) :
    Unreserved (fs.at key) := by
  unfold Fields.at
  rcases hv : fs.get? key with - | v
  · exact unreserved_null
  · exact h.get? hv

theorem Unreserved.orElse {v w : Value} (hv : Unreserved v) (hw : Unreserved w) :
    Unreserved (v.orElse w) := by
  unfold Value.orElse
  split
  · exact hv
  · exact hw

end Binding

namespace View

open Binding

/-- The view without the environment and the secrets. -/
def veil (v : View) : View := { v with environment := .empty, secrets := .empty }

/-- A reference that is not reserved has the same value without environment and secrets. -/
theorem lookup_veil (v : View) {ref : String} (h : ¬ Reserved ref) :
    v.veil.lookup ref = v.lookup ref := by
  rcases hcut : headAndRest ref with ⟨head, rest⟩
  have henv := not_env_of_not_reserved h hcut
  have hsecrets := not_secrets_of_not_reserved h hcut
  unfold View.lookup
  simp only [hcut, if_neg henv, if_neg hsecrets]
  rfl

theorem secretsAsked_eq_nil (v : View) {refs : List String} (h : ∀ ref ∈ refs, ¬ Reserved ref) :
    v.secretsAsked refs = [] := by
  refine List.filterMap_eq_nil_iff.mpr fun ref href => secretName?_eq_none (h ref ?_)
  exact (List.takeWhile_sublist _).subset href

theorem mapM_congr {ε α β : Type} {f g : α → Except ε β} {xs : List α}
    (h : ∀ x ∈ xs, f x = g x) : xs.mapM f = xs.mapM g := by
  induction xs with
  | nil => rfl
  | cons x xs ih =>
    obtain ⟨hx, hxs⟩ := List.forall_mem_cons.mp h
    rw [List.mapM_cons, List.mapM_cons, hx, ih hxs]

/-- A text is filled in the same way if its references have the same texts. -/
theorem fillWith_congr {ε : Type} {f g : String → Except ε String} {s : String}
    (h : ∀ ref ∈ referencesIn s, f ref = g ref) : fillWith f s = fillWith g s := by
  unfold fillWith
  refine congrArg (Except.map _) (mapM_congr fun piece hpiece => ?_)
  cases piece with
  | char c => rfl
  | reference ref =>
    have href : ref ∈ referencesIn s := List.mem_filterMap.mpr ⟨_, hpiece, rfl⟩
    simp only [h ref href]

mutual

/-- A value without reserved references is resolved in the same way without environment and
secrets. -/
theorem resolve_veil (v : View) : (x : Value) → (∀ ref ∈ references x, ¬ Reserved ref) →
    v.veil.resolve x = v.resolve x
  | .text s, h => by
    unfold resolve references at *
    split
    · next ref hsole =>
      rw [hsole] at h
      exact lookup_veil v (h ref (List.mem_singleton_self _))
    · next hsole =>
      rw [hsole] at h
      rw [fillWith_congr fun ref href => ?_]
      unfold lookupText
      rw [lookup_veil v (h ref href)]
  | .list items, h => by
    unfold resolve
    rw [resolveItems_veil v items h]
  | .object fields, h => by
    unfold resolve
    rw [resolveFields_veil v fields h]
  | .table entries, h => by
    unfold resolve
    rw [resolveEntries_veil v entries h]
  | .null, _ => by simp [resolve]
  | .bool _, _ => by simp [resolve]
  | .int _, _ => by simp [resolve]
  | .float _, _ => by simp [resolve]

theorem resolveItems_veil (v : View) : (xs : List Value) →
    (∀ ref ∈ referencesOfItems xs, ¬ Reserved ref) → v.veil.resolveItems xs = v.resolveItems xs
  | [], _ => by simp [resolveItems]
  | x :: xs, h => by
    unfold resolveItems
    rw [resolve_veil v x fun ref href => h ref (List.mem_append_left _ href),
      resolveItems_veil v xs fun ref href => h ref (List.mem_append_right _ href)]

theorem resolveFields_veil (v : View) : (fs : List (String × Value)) →
    (∀ ref ∈ referencesOfFields fs, ¬ Reserved ref) → v.veil.resolveFields fs = v.resolveFields fs
  | [], _ => by simp [resolveFields]
  | (_, x) :: fs, h => by
    unfold resolveFields
    rw [resolve_veil v x fun ref href => h ref (List.mem_append_left _ href),
      resolveFields_veil v fs fun ref href => h ref (List.mem_append_right _ href)]

theorem resolveEntries_veil (v : View) : (es : List (Key × Value)) →
    (∀ ref ∈ referencesOfEntries es, ¬ Reserved ref) →
    v.veil.resolveEntries es = v.resolveEntries es
  | [], _ => by simp [resolveEntries]
  | (_, x) :: es, h => by
    unfold resolveEntries
    rw [resolve_veil v x fun ref href => h ref (List.mem_append_left _ href),
      resolveEntries_veil v es fun ref href => h ref (List.mem_append_right _ href)]

end

end View

end Automation
