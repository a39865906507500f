/-
Automation/Proofs/Shape.lean

What was read from a value.

A reading is put together from the readings of parts, so what came of it is told by what came of the
parts: an element at each index, and for a field what stands under its key.
-/
import Automation.Shape
import Mathlib.Data.List.Forall2

namespace Automation

variable {α β : Type}

namespace Checked

theorem app_eq_ok {f : Checked (α → β)} {a : Checked α} {b : β} :
    f.app a = .ok b ↔ ∃ g x, f = .ok g ∧ a = .ok x ∧ g x = b := by
  cases f <;> cases a <;> simp [app]

theorem exists_app_eq_ok {f : Checked (α → β)} {a : Checked α} :
    (∃ b, f.app a = .ok b) ↔ (∃ g, f = .ok g) ∧ ∃ x, a = .ok x := by
  cases f <;> cases a <;> simp [app]

theorem map_eq_ok {f : α → β} {a : Checked α} {b : β} :
    a.map f = .ok b ↔ ∃ x, a = .ok x ∧ f x = b := by
  cases a <;> simp [map]

theorem under_eq_ok {s : Step} {a : Checked α} {x : α} :
    a.under s = .ok x ↔ a = .ok x := by
  cases a <;> simp [under]

/-- A list is read if each element is, wherever its numbers begin. -/
theorem eachFrom_eq_ok {read : Value → Checked α} {start : ℕ} {vs : List Value} {xs : List α} :
    eachFrom read start vs = .ok xs ↔ List.Forall₂ (fun v x => read v = .ok x) vs xs := by
  induction vs generalizing start xs with
  | nil =>
    rw [List.forall₂_nil_left_iff]
    exact ⟨fun h => (Checked.ok.inj h).symm, fun h => congrArg Checked.ok h.symm⟩
  | cons v vs ih =>
    unfold eachFrom
    simp only [app_eq_ok, map_eq_ok, under_eq_ok, ih, List.forall₂_cons_left_iff]
    constructor
    · rintro ⟨-, ys, ⟨x, hx, rfl⟩, hys, rfl⟩
      exact ⟨x, ys, hx, hys, rfl⟩
    · rintro ⟨x, ys, hx, hys, rfl⟩
      exact ⟨List.cons x, ys, ⟨x, hx, rfl⟩, hys, rfl⟩

end Checked

namespace Shape

variable {fs : Fields Value} {key : String} {read : Value → Checked α}

/-- A field that has to be there was read from what stands under its key. -/
theorem required_eq_ok {x : α} :
    required fs key read = .ok x ↔ ∃ v, fs.get? key = some v ∧ read v = .ok x := by
  unfold required
  rw [Checked.under_eq_ok]
  cases fs.get? key <;> simp [Checked.defect]

/-- A field that may be absent was read from what stands under its key, if anything does. -/
theorem optional_eq_ok {found : Option α} :
    optional fs key read = .ok found ↔
      Option.Rel (fun v x => read v = .ok x) (fs.get? key) found := by
  unfold optional
  rcases fs.get? key with - | v
  · constructor
    · intro h
      obtain rfl := Checked.ok.inj h
      exact .none
    · rintro ⟨⟩
      rfl
  · show ((read v).map some).under (.field key) = .ok found ↔ _
    rw [Checked.under_eq_ok, Checked.map_eq_ok]
    constructor
    · rintro ⟨x, hx, rfl⟩
      exact .some hx
    · rintro ⟨hx⟩
      exact ⟨_, hx, rfl⟩

/-- A field that may be absent has its default, or was read from the value that is there. -/
theorem of_defaulted {default x : α} (h : defaulted fs key default read = .ok x) :
    x = default ∨ ∃ v, fs.get? key = some v ∧ read v = .ok x := by
  obtain ⟨found, hfound, rfl⟩ := Checked.map_eq_ok.mp h
  rw [optional_eq_ok] at hfound
  rcases hv : fs.get? key with - | v
  · rw [hv] at hfound
    cases hfound
    exact .inl rfl
  · rw [hv] at hfound
    obtain ⟨hread⟩ := hfound
    exact .inr ⟨v, rfl, hread⟩

/-- A text that has a default is read unless something else stands in its place. -/
theorem exists_defaulted_text {default : String} :
    (∃ x, defaulted fs key default text = .ok x) ↔
      ∀ v, fs.get? key = some v → ∃ s, v = .text s := by
  unfold defaulted optional
  rcases fs.get? key with - | v
  · exact iff_of_true ⟨_, rfl⟩ fun _ h => nomatch h
  · cases v <;> simp [text, Checked.map, Checked.under, Checked.defect]

end Shape

end Automation
