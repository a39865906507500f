/-
Automation/Proofs/Fields.lean

What is under the keys of ordered fields.

Writing a field changes what is under its key and nothing else, and adds the key if it is
not there.  So fields that are written one after another have under a key what was
written there last, and each key once.
-/
import Mathlib.Data.List.Nodup
import Automation.Fields

namespace Automation.Fields

variable {α : Type*}

@[simp] theorem get?_nil (key : String) : get? ([] : Fields α) key = none := rfl

theorem get?_cons (k : String) (v : α) (rest : Fields α) (key : String) :
    get? ((k, v) :: rest) key = if key = k then some v else rest.get? key := by
  unfold get?
  rw [List.lookup_cons]
  by_cases h : key = k
  · simp [h]
  · rw [beq_false_of_ne h, if_neg h]

/-- What is under a key stands there with the key. -/
theorem mem_of_get? {fs : Fields α} {key : String} {v : α} (h : fs.get? key = some v) :
    (key, v) ∈ fs := by
  induction fs with
  | nil => cases h
  | cons f fs ih =>
    rw [get?_cons] at h
    split at h
    · next hkey =>
      obtain rfl := Option.some.inj h
      rw [hkey]
      exact List.mem_cons_self
    · exact List.mem_cons_of_mem _ (ih h)

@[simp] theorem keys_nil : keys ([] : Fields α) = [] := rfl

@[simp] theorem keys_cons (f : String × α) (fs : Fields α) : keys (f :: fs) = f.1 :: keys fs := rfl

/-! ### Writing a field -/

theorem get?_set (fs : Fields α) (key k : String) (v : α) :
    (fs.set key v).get? k = if k = key then some v else fs.get? k := by
  induction fs with
  | nil => exact get?_cons key v [] k
  | cons f fs ih =>
    obtain ⟨k', v'⟩ := f
    unfold set
    split
    · next h =>
      subst h
      rw [get?_cons, get?_cons]
      split <;> rfl
    · next h =>
      rw [get?_cons, get?_cons, ih]
      by_cases hk : k = k' <;> simp_all

@[simp] theorem get?_set_self (fs : Fields α) (key : String) (v : α) :
    (fs.set key v).get? key = some v := by
  rw [get?_set, if_pos rfl]

theorem get?_set_of_ne (fs : Fields α) {key k : String} (h : k ≠ key) (v : α) :
    (fs.set key v).get? k = fs.get? k := by
  rw [get?_set, if_neg h]

theorem keys_set (fs : Fields α) (key : String) (v : α) :
    (fs.set key v).keys = if key ∈ fs.keys then fs.keys else fs.keys ++ [key] := by
  induction fs with
  | nil => rfl
  | cons f fs ih =>
    obtain ⟨k, w⟩ := f
    unfold set
    split
    · next h => simp [h]
    · next h =>
      rw [keys_cons, keys_cons, ih]
      by_cases hmem : key ∈ keys fs <;> simp [hmem, Ne.symm h]

/-- Keys stay in their places. -/
theorem keys_prefix_set (fs : Fields α) (key : String) (v : α) :
    fs.keys <+: (fs.set key v).keys := by
  rw [keys_set]
  split
  · exact List.prefix_rfl
  · exact List.prefix_append _ _

theorem mem_keys_set {fs : Fields α} {key k : String} {v : α} :
    k ∈ (fs.set key v).keys ↔ k = key ∨ k ∈ fs.keys := by
  rw [keys_set]
  split
  · next h => exact ⟨.inr, fun hk => hk.elim (fun heq => heq ▸ h) id⟩
  · simp [or_comm]

theorem nodup_keys_set {fs : Fields α} (h : fs.keys.Nodup) (key : String) (v : α) :
    (fs.set key v).keys.Nodup := by
  rw [keys_set]
  split
  · exact h
  · next hkey => exact List.nodup_append.mpr ⟨h, by simp, by aesop⟩

theorem set_ne_nil (fs : Fields α) (key : String) (v : α) : fs.set key v ≠ [] := by
  cases fs with
  | nil => simp [set]
  | cons f fs =>
    unfold set
    split <;> simp

/-- A field that was not there comes last. -/
theorem set_of_not_mem {fs : Fields α} {key : String} (h : key ∉ fs.keys) (v : α) :
    fs.set key v = fs ++ [(key, v)] := by
  induction fs with
  | nil => rfl
  | cons f fs ih =>
    obtain ⟨hne, hrest⟩ := not_or.mp (List.mem_cons.not.mp h)
    simp [set, Ne.symm hne, ih hrest]

/-- A key is there if something is under it. -/
theorem mem_keys_iff {fs : Fields α} {key : String} : key ∈ fs.keys ↔ ∃ v, fs.get? key = some v := by
  induction fs with
  | nil => simp [keys]
  | cons f fs ih =>
    obtain ⟨k, v⟩ := f
    rw [get?_cons, keys_cons, List.mem_cons, ih]
    by_cases h : key = k <;> simp [h]

theorem has_iff {fs : Fields α} {key : String} : fs.has key = true ↔ ∃ v, fs.get? key = some v := by
  rw [← mem_keys_iff]
  simp [has, keys]

theorem has_eq_false_iff {fs : Fields α} {key : String} :
    fs.has key = false ↔ fs.get? key = none := by
  rw [← Bool.not_eq_true, has_iff, Option.eq_none_iff_forall_ne_some, not_exists]

/-- What stands with a key is under it, if each key is there once. -/
theorem get?_of_mem {fs : Fields α} (h : fs.keys.Nodup) {f : String × α} (hf : f ∈ fs) :
    fs.get? f.1 = some f.2 := by
  induction fs with
  | nil => cases hf
  | cons g fs ih =>
    obtain ⟨hg, hfs⟩ := List.nodup_cons.mp h
    rw [get?_cons]
    rcases List.mem_cons.mp hf with rfl | hf
    · exact if_pos rfl
    · have hmem : f.1 ∈ keys fs := List.mem_map_of_mem hf
      have hne : f.1 ≠ g.1 := by
        intro heq
        rw [heq] at hmem
        exact hg hmem
      rw [if_neg hne, ih hfs hf]

/-! ### Leaving out a field -/

theorem get?_erase_of_ne (fs : Fields α) {key k : String} (h : k ≠ key) :
    (fs.erase key).get? k = fs.get? k := by
  induction fs with
  | nil => rfl
  | cons f fs ih =>
    obtain ⟨k', v⟩ := f
    unfold erase at ih ⊢
    rw [List.filter_cons, get?_cons]
    by_cases hkey : k' = key
    · have hne : k ≠ k' := hkey ▸ h
      simpa [hkey, hne, h] using ih
    · simp only [bne_iff_ne, ne_eq, hkey, not_false_eq_true, if_true]
      rw [get?_cons, ih]

/-! ### Writing fields one after another -/

@[simp] theorem overlay_nil (fs : Fields α) : fs.overlay [] = fs := rfl

theorem overlay_ne_nil {fs gs : Fields α} (h : fs ≠ [] ∨ gs ≠ []) : fs.overlay gs ≠ [] := by
  induction gs generalizing fs with
  | nil => simpa using h
  | cons g gs ih => exact ih (.inl (set_ne_nil fs g.1 g.2))

/-- Fields that are written over others, each once. -/
theorem get?_overlay (fs : Fields α) {gs : Fields α} (h : gs.keys.Nodup) (k : String) :
    (fs.overlay gs).get? k = (gs.get? k).or (fs.get? k) := by
  induction gs generalizing fs with
  | nil => rfl
  | cons g gs ih =>
    obtain ⟨key, v⟩ := g
    obtain ⟨hkey, hgs⟩ := List.nodup_cons.mp h
    have hover : fs.overlay ((key, v) :: gs) = (fs.set key v).overlay gs := rfl
    rw [hover, ih _ hgs, get?_cons, get?_set]
    split
    · next hk =>
      -- the key is not written again
      have hnone : Fields.get? gs k = none := by
        by_contra hsome
        obtain ⟨w, hw⟩ := Option.ne_none_iff_exists'.mp hsome
        exact hkey (mem_keys_iff.mpr ⟨w, hk ▸ hw⟩)
      rw [hnone]
      rfl
    · rfl

/-- What is not written stays. -/
theorem get?_overlay_of_not_mem (fs : Fields α) {gs : Fields α} {k : String} (h : k ∉ gs.keys) :
    (fs.overlay gs).get? k = fs.get? k := by
  induction gs generalizing fs with
  | nil => rfl
  | cons g gs ih =>
    obtain ⟨hne, hgs⟩ := not_or.mp (List.mem_cons.not.mp h)
    show ((fs.set g.1 g.2).overlay gs).get? k = fs.get? k
    rw [ih _ hgs, get?_set_of_ne fs hne]

theorem nodup_keys_overlay {fs : Fields α} (h : fs.keys.Nodup) (gs : Fields α) :
    (fs.overlay gs).keys.Nodup := by
  induction gs generalizing fs with
  | nil => exact h
  | cons g gs ih => exact ih (nodup_keys_set h g.1 g.2)

theorem mem_keys_overlay {fs gs : Fields α} {k : String} :
    k ∈ (fs.overlay gs).keys ↔ k ∈ fs.keys ∨ k ∈ gs.keys := by
  induction gs generalizing fs with
  | nil => simp
  | cons g gs ih =>
    have hover : fs.overlay (g :: gs) = (fs.set g.1 g.2).overlay gs := rfl
    rw [hover, ih, mem_keys_set, keys_cons, List.mem_cons]
    tauto

theorem eq_or_mem_of_mem_set {fs : Fields α} {key : String} {v : α} {f : String × α}
    (h : f ∈ fs.set key v) : f = (key, v) ∨ f ∈ fs := by
  induction fs with
  | nil => exact .inl (List.mem_singleton.mp h)
  | cons g fs ih =>
    unfold set at h
    split at h
    · next hkey =>
      subst hkey
      exact (List.mem_cons.mp h).imp id fun hf => List.mem_cons_of_mem _ hf
    · rcases List.mem_cons.mp h with rfl | h
      · exact .inr List.mem_cons_self
      · exact (ih h).imp_right fun hf => List.mem_cons_of_mem _ hf

/-- Nothing is there that was not written. -/
theorem mem_or_mem_of_mem_overlay {fs gs : Fields α} {f : String × α} (h : f ∈ fs.overlay gs) :
    f ∈ fs ∨ f ∈ gs := by
  induction gs generalizing fs with
  | nil => exact .inl h
  | cons g gs ih =>
    rcases ih h with hset | hgs
    · rcases eq_or_mem_of_mem_set hset with rfl | hfs
      · exact .inr List.mem_cons_self
      · exact .inl hfs
    · exact .inr (List.mem_cons_of_mem _ hgs)

/-- A field that is written twice has what was written last. -/
theorem set_set (fs : Fields α) (key : String) (v w : α) :
    (fs.set key v).set key w = fs.set key w := by
  induction fs with
  | nil => simp [set]
  | cons f fs ih =>
    obtain ⟨k, u⟩ := f
    by_cases h : k = key <;> simp [set, h, ih]

/-- A field that is there may be written before or after another one. -/
theorem set_comm_of_mem {fs : Fields α} {key k : String} (hmem : key ∈ fs.keys) (hne : k ≠ key)
    (v w : α) : (fs.set k w).set key v = (fs.set key v).set k w := by
  induction fs with
  | nil => cases hmem
  | cons f fs ih =>
    obtain ⟨first, u⟩ := f
    by_cases hkey : first = key
    · subst hkey
      simp [set, Ne.symm hne]
    · have hrest : key ∈ keys fs := (List.mem_cons.mp hmem).resolve_left (Ne.symm hkey)
      by_cases hk : first = k <;> simp [set, hkey, hk, hne, ih hrest]

theorem overlay_set_of_mem {fs gs : Fields α} {key : String} (hmem : key ∈ fs.keys)
    (hnot : key ∉ gs.keys) (v : α) : (fs.overlay gs).set key v = (fs.set key v).overlay gs := by
  induction gs generalizing fs with
  | nil => rfl
  | cons g gs ih =>
    obtain ⟨k, w⟩ := g
    obtain ⟨hne, hrest⟩ := not_or.mp (List.mem_cons.not.mp hnot)
    show ((fs.set k w).overlay gs).set key v = ((fs.set key v).set k w).overlay gs
    rw [ih (mem_keys_set.mpr (.inr hmem)) hrest, set_comm_of_mem hmem (Ne.symm hne)]

/-- Writing fields of which one was written last is writing them and then that one. -/
theorem overlay_set (fs : Fields α) {gs : Fields α} (h : gs.keys.Nodup) (key : String) (v : α) :
    fs.overlay (gs.set key v) = (fs.overlay gs).set key v := by
  induction gs generalizing fs with
  | nil => rfl
  | cons g gs ih =>
    obtain ⟨k, w⟩ := g
    obtain ⟨hnot, hgs⟩ := List.nodup_cons.mp h
    by_cases hkey : k = key
    · -- the field stands in front already, and is not written again behind it
      subst hkey
      have hset : Fields.set ((k, w) :: gs) k v = (k, v) :: gs := by simp [set]
      show fs.overlay (Fields.set ((k, w) :: gs) k v) = ((fs.set k w).overlay gs).set k v
      rw [hset, overlay_set_of_mem (mem_keys_set.mpr (.inl rfl)) hnot, set_set]
      rfl
    · have hset : Fields.set ((k, w) :: gs) key v = (k, w) :: Fields.set gs key v := by
        simp [set, hkey]
      rw [hset]
      exact ih (fs.set k w) hgs

/-- Fields may be written over others before or after those are written. -/
theorem overlay_overlay (fs : Fields α) {gs : Fields α} (h : gs.keys.Nodup) (hs : Fields α) :
    fs.overlay (gs.overlay hs) = (fs.overlay gs).overlay hs := by
  induction hs generalizing gs with
  | nil => rfl
  | cons f hs ih =>
    have hwritten := ih (nodup_keys_set h f.1 f.2)
    rw [overlay_set fs h] at hwritten
    exact hwritten

/-- Fields with each key once are what comes of writing them one after another. -/
theorem nil_overlay {gs : Fields α} (h : gs.keys.Nodup) : Fields.overlay [] gs = gs := by
  -- those that were written stand in front of those that are written still
  suffices hfront : ∀ fs : Fields α, (fs ++ gs).keys.Nodup → fs.overlay gs = fs ++ gs from
    hfront [] h
  clear h
  induction gs with
  | nil => intro fs _; simp
  | cons g gs ih =>
    intro fs hfs
    have hkeys : keys (fs ++ g :: gs) = fs.keys ++ g.1 :: keys gs := by simp [keys]
    have hnew : g.1 ∉ fs.keys := by
      rw [hkeys] at hfs
      exact fun hmem => (List.nodup_append.mp hfs).2.2 _ hmem _ List.mem_cons_self rfl
    show (fs.set g.1 g.2).overlay gs = fs ++ g :: gs
    rw [set_of_not_mem hnew, ih (fs ++ [g]) (by simpa using hfs)]
    simp

/-- Fields whose values depend on their keys. -/
theorem get?_ofPairs_map {β : Type*} (key : β → String) (f : String → α) (xs : List β)
    {k : String} (h : k ∈ xs.map key) :
    (ofPairs (xs.map fun x => (key x, f (key x)))).get? k = some (f k) := by
  -- a later pair with the key writes the same value again
  suffices hover : ∀ fs : Fields α, (k ∈ xs.map key ∨ fs.get? k = some (f k)) →
      (fs.overlay (xs.map fun x => (key x, f (key x)))).get? k = some (f k) from
    hover [] (.inl h)
  clear h
  induction xs with
  | nil => simp
  | cons x xs ih =>
    intro fs h
    refine ih _ ?_
    rw [get?_set]
    by_cases hk : k = key x
    · exact .inr (by rw [if_pos hk, hk])
    · rw [if_neg hk]
      exact h.imp_left fun hmem => (List.mem_cons.mp hmem).resolve_left hk

end Automation.Fields
