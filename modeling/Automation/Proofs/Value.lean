/-
Automation/Proofs/Value.lean

The fields of a value.

An object or a table has under a key what was put there last (`field_put_self`), and
putting something under one key leaves the others alone (`field_put_of_ne`).  So it is with fields
that are read with null for what is not there (`at_set_self`, `at_set_of_ne`).
-/
import Automation.Proofs.Fields
import Automation.Value.Basic

namespace Automation

namespace Fields

theorem at_set_self (fs : Fields Value) (key : String) (v : Value) : (fs.set key v).at key = v := by
  rw [Fields.at, get?_set_self, Option.getD_some]

theorem at_set_of_ne (fs : Fields Value) {key k : String} (h : k ≠ key) (v : Value) :
    (fs.set key v).at k = fs.at k := by
  rw [Fields.at, get?_set_of_ne fs h, Fields.at]

end Fields

namespace Key

/-- A key is one with a text only if it is that text. -/
@[simp] theorem same_text (k : Key) (s : String) : k.same (.text s) = decide (k = .text s) := by
  cases k <;> simp [same, sameNumber]

end Key

namespace Entries

variable {α : Type*}

theorem get?_cons (k : Key) (v : α) (rest : Entries α) (key : String) :
    get? ((k, v) :: rest) key = if .text key = k then some v else rest.get? key := by
  unfold get?
  rw [List.lookup_cons]
  by_cases h : .text key = k
  · simp [h]
  · rw [beq_false_of_ne h, if_neg h]

theorem get?_set (es : Entries α) (key k : String) (v : α) :
    (es.set (.text key) v).get? k = if k = key then some v else es.get? k := by
  induction es with
  | nil => simpa [set, get?] using get?_cons (.text key) v [] k
  | cons e es ih =>
    obtain ⟨k', v'⟩ := e
    unfold set
    simp only [Key.same_text, decide_eq_true_eq]
    split
    · next h =>
      subst h
      rw [get?_cons, get?_cons]
      simp only [Key.text.injEq]
      split <;> rfl
    · next h =>
      rw [get?_cons, get?_cons, ih]
      by_cases hk : .text k = k'
      · subst hk
        have hne : k ≠ key := fun heq => h (by rw [heq])
        simp [hne]
      · simp [hk]

end Entries

namespace Value

theorem isNull_iff {v : Value} : v.isNull = true ↔ v = .null := by
  cases v <;> simp [isNull]

/-- The value has fields: it is an object or a table. -/
def HasFields (v : Value) : Prop := v.entries?.isSome = true

theorem HasFields.put {v : Value} (h : v.HasFields) (key : String) (x : Value) :
    (v.put key x).HasFields := by
  cases v <;> exact h

theorem HasFields.drop {v : Value} (h : v.HasFields) (key : String) : (v.drop key).HasFields := by
  cases v <;> exact h

theorem field_put_self {v : Value} (h : v.HasFields) (key : String) (x : Value) :
    (v.put key x).field key = x := by
  cases v with
  | object fields =>
    show ((Fields.set fields key x).get? key).getD .null = x
    rw [Fields.get?_set_self]
    rfl
  | table entries =>
    show ((Entries.set entries (.text key) x).get? key).getD .null = x
    rw [Entries.get?_set, if_pos rfl]
    rfl
  | _ => cases h

theorem field_put_of_ne (v : Value) {key k : String} (h : k ≠ key) (x : Value) :
    (v.put key x).field k = v.field k := by
  cases v with
  | object fields =>
    show ((Fields.set fields key x).get? k).getD .null = (Fields.get? fields k).getD .null
    rw [Fields.get?_set_of_ne fields h]
  | table entries =>
    show ((Entries.set entries (.text key) x).get? k).getD .null = _
    rw [Entries.get?_set, if_neg h]
    rfl
  | _ => rfl

/-- An object keeps the fields that are not left out. -/
theorem field_drop_of_ne (fields : Fields Value) {key k : String} (h : k ≠ key) :
    ((Value.object fields).drop key).field k = (Value.object fields).field k := by
  show ((Fields.erase fields key).get? k).getD .null = (Fields.get? fields k).getD .null
  rw [Fields.get?_erase_of_ne fields h]

end Value

end Automation
