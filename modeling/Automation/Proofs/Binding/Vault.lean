/-
Automation/Proofs/Binding/Vault.lean

A vault in front of a store that does not change.

A vault keeps the answers that were there, of just the names that were looked up (`Remembers`).  So
it answers every name as the store does, and asks the store unless the name was answered before
(`get_of_remembers`).  For names looked up one after another the answers are those of the store;
and the store is asked for each name that it does not answer, every time, and for each of the
others where it comes up first (`visit_transparent`).
-/
import Automation.Binding.Source
import Automation.Proofs.Value
import Mathlib.Data.List.Induction

namespace Automation

namespace SecretStore

variable {s : SecretStore} {name : String}

/-- The store has a secret of that name, which has a value under its own name. -/
def Holds (s : SecretStore) (name : String) (v : Value) : Prop :=
  v ≠ .null ∧ ∃ secret, s.secrets.get? name = some secret ∧ secret.field name = v

/-- A lookup answers with the value that the store holds, and with null if it holds none. -/
theorem holds_iff {v : Value} : s.Holds name v ↔ v ≠ .null ∧ s.answer name = v := by
  unfold Holds answer Fields.at
  rcases s.secrets.get? name with - | secret
  · constructor
    · rintro ⟨-, secret, hsecret, -⟩
      cases hsecret
    · rintro ⟨hv, hnull⟩
      exact absurd hnull.symm hv
  · simp

/-! ### What has to be asked for -/

/-- The name has to be asked for after others: it has no answer, or it is not among them. -/
def Wants (s : SecretStore) (before : List String) (name : String) : Prop :=
  s.answer name = .null ∨ name ∉ before

instance (s : SecretStore) (before : List String) (name : String) :
    Decidable (s.Wants before name) := by
  unfold Wants; infer_instance

/-- Of names looked up one after another, those that have to be asked for, in their order. -/
def wanted (s : SecretStore) (names : List String) : List String :=
  (names.zipIdx.filter fun p => s.Wants (names.take p.2) p.1).map (·.1)

/-- A name that comes last changes nothing for those before it. -/
theorem wanted_concat (s : SecretStore) (names : List String) (name : String) :
    s.wanted (names ++ [name]) =
      s.wanted names ++ if s.Wants names name then [name] else [] := by
  have hbefore : ∀ p ∈ names.zipIdx, (names ++ [name]).take p.2 = names.take p.2 := by
    rintro ⟨other, i⟩ hp
    have hi : i < names.length := (List.mem_zipIdx' hp).1
    exact List.take_append_of_le_length (Nat.le_of_lt hi)
  have hlast : (names ++ [name]).take names.length = names := List.take_left' rfl
  unfold wanted
  rw [List.zipIdx_append, List.filter_append, List.map_append]
  congr 1
  · congr 1
    apply List.filter_congr
    intro p hp
    rw [hbefore p hp]
  · rw [List.zipIdx_singleton, List.filter_singleton, Nat.zero_add, hlast]
    by_cases hwants : s.Wants names name <;> simp [hwants]

/-- A name without an answer is asked for each time, and one with an answer once. -/
theorem count_wanted (s : SecretStore) (names : List String) (name : String) :
    (s.wanted names).count name =
      if s.answer name = .null then names.count name else if name ∈ names then 1 else 0 := by
  induction names using List.reverseRecOn with
  | nil => simp [wanted]
  | append_singleton names last ih =>
    rw [wanted_concat, List.count_append, ih]
    -- the last name counts only if it is the one in question
    by_cases hlast : last = name
    · subst hlast
      by_cases hnull : s.answer last = .null
      · simp [Wants, hnull]
      · by_cases hmem : last ∈ names <;> simp [Wants, hnull, hmem]
    · have hnone : (if s.Wants names last then [last] else []).count name = 0 := by
        split <;> simp [hlast]
      simp [hnone, hlast, Ne.symm hlast]

end SecretStore

namespace Vault

variable {v : Vault} {store : SecretStore} {seen : List String}

/-- The answers to names that are looked up one after another. -/
def answers (v : Vault) : List String → List Value
  | [] => []
  | name :: names => (v.get name).1 :: (v.get name).2.2.answers names

/-! ### One lookup -/

/-- The vault stands in front of the store, and keeps the answers that were there of the names
seen. -/
structure Remembers (v : Vault) (store : SecretStore) (seen : List String) : Prop where
  store_eq : v.store = store
  kept : ∀ name, v.kept.get? name =
    if store.Wants seen name then none else some (store.answer name)

theorem remembers_new (store : SecretStore) : (new store).Remembers store [] where
  store_eq := rfl
  kept name := by simp [new, SecretStore.Wants]

theorem get_of_some {name : String} {answer : Value} (h : v.kept.get? name = some answer) :
    v.get name = (answer, false, v) := by
  unfold get
  rw [h]

theorem get_of_none {name : String} (h : v.kept.get? name = none) :
    v.get name = (v.store.answer name, true,
      if (v.store.answer name).isNull then v
      else { v with kept := v.kept.set name (v.store.answer name) }) := by
  unfold get
  rw [h]

/-- A vault that has changed at one name only, and keeps the answer to it if there is one,
remembers that name too. -/
theorem Remembers.concat {w : Vault} {name : String} (h : v.Remembers store seen)
    (hstore : w.store = v.store)
    (hself : w.kept.get? name =
      if store.answer name = .null then none else some (store.answer name))
    (hother : ∀ other, other ≠ name → w.kept.get? other = v.kept.get? other) :
    w.Remembers store (seen ++ [name]) where
  store_eq := hstore.trans h.store_eq
  kept other := by
    by_cases hne : other = name
    · rw [hne, hself]
      simp [SecretStore.Wants]
    · rw [hother other hne, h.kept]
      simp [SecretStore.Wants, hne]

/-- A vault answers as its store does, asks for the name if it has to, and remembers it. -/
theorem get_of_remembers (h : v.Remembers store seen) (name : String) :
    (v.get name).1 = store.answer name ∧
      (v.get name).2.1 = decide (store.Wants seen name) ∧
      (v.get name).2.2.Remembers store (seen ++ [name]) := by
  obtain rfl := h.store_eq
  have hkept := h.kept name
  by_cases hwants : v.store.Wants seen name
  · rw [if_pos hwants] at hkept
    rw [get_of_none hkept, decide_eq_true hwants]
    refine ⟨rfl, rfl, ?_⟩
    by_cases hnull : v.store.answer name = .null
    · -- there is no answer that could be kept
      rw [if_pos (Value.isNull_iff.mpr hnull)]
      refine h.concat rfl ?_ fun _ _ => rfl
      rw [hkept, if_pos hnull]
    · rw [if_neg (mt Value.isNull_iff.mp hnull)]
      refine h.concat rfl ?_ fun other hne => Fields.get?_set_of_ne v.kept hne _
      rw [Fields.get?_set_self, if_neg hnull]
  · rw [if_neg hwants] at hkept
    rw [get_of_some hkept, decide_eq_false hwants]
    refine ⟨rfl, rfl, h.concat rfl ?_ fun _ _ => rfl⟩
    have hnull : v.store.answer name ≠ .null := fun hnull => hwants (.inl hnull)
    rw [hkept, if_neg hnull]

/-! ### Lookups one after another -/

theorem visit_concat (v : Vault) (names : List String) (name : String) :
    v.visit (names ++ [name]) =
      ((v.visit names).1 ++ if ((v.visit names).2.get name).2.1 then [name] else [],
        ((v.visit names).2.get name).2.2) := by
  induction names generalizing v with
  | nil => rfl
  | cons first names ih =>
    simp only [List.cons_append, visit, ih]
    split <;> rfl

theorem answers_concat (v : Vault) (names : List String) (name : String) :
    v.answers (names ++ [name]) = v.answers names ++ [((v.visit names).2.get name).1] := by
  induction names generalizing v with
  | nil => rfl
  | cons first names ih =>
    simp only [List.cons_append, answers, visit, ih]

/-- After names looked up one after another a vault has answered as its store does, has asked for
the names that it had to, and remembers them. -/
theorem visit_of_new (store : SecretStore) (names : List String) :
    (new store).answers names = names.map store.answer ∧
      ((new store).visit names).1 = store.wanted names ∧
      ((new store).visit names).2.Remembers store names := by
  induction names using List.reverseRecOn with
  | nil => exact ⟨rfl, rfl, remembers_new store⟩
  | append_singleton names name ih =>
    obtain ⟨hanswers, hasked, hremembers⟩ := ih
    obtain ⟨hanswer, hask, hnext⟩ := get_of_remembers hremembers name
    rw [answers_concat, visit_concat, hanswers, hasked, hanswer, hask,
      SecretStore.wanted_concat, List.map_append]
    refine ⟨rfl, ?_, hnext⟩
    simp

/-- A vault in front of a store answers names that are looked up one after another as the store
would.  The store is asked for a name where it has no answer and where it comes up first, in the
order of the names; so it is asked as often as the name comes up if it has no answer, and else
once. -/
theorem visit_transparent (store : SecretStore) (names : List String) :
    (new store).answers names = names.map (Source.secrets store).get ∧
      (∀ name value, store.Holds name value ↔
        value ≠ .null ∧ (Source.secrets store).get name = value) ∧
      ((new store).visit names).1 = store.wanted names ∧
      ∀ name, ((new store).visit names).1.count name =
        if store.answer name = .null then names.count name else if name ∈ names then 1 else 0 := by
  obtain ⟨hanswers, hasked, -⟩ := visit_of_new store names
  refine ⟨hanswers, fun name value => SecretStore.holds_iff, hasked, fun name => ?_⟩
  rw [hasked, SecretStore.count_wanted]

/-- The store has a key, a secret that is null and one without a value of its own. -/
example :
    let store : SecretStore := ⟨"vault", [("key", .object [("key", .text "k")]), ("gone", .null),
      ("pair", .object [("user", .text "u")])]⟩
    let names := ["key", "gone", "key", "pair", "none", "gone", "key"]
    ((new store).visit names).1 = ["key", "gone", "pair", "none", "gone"] ∧
      (new store).answers names = [.text "k", .null, .text "k", .null, .null, .null, .text "k"] := by
  exact ⟨by decide, rfl⟩

end Vault

end Automation
