/-
Automation/Proofs/Flow/Record.lean

Records that are read and written again.

A reader keeps what it reads (`Keeps`) if the same data is written, and read from that as the same
again.  A record is written with its known fields first, those that were there, and the others behind
them (`assembled`).  A reader of records keeps them if it keeps each known field (`KeepsField`) and
leaves the other fields as they are (`Keeps.of_record`).
-/
import Automation.Flow.Node
import Automation.Proofs.Json.Data
import Automation.Proofs.Shape

namespace Automation

open Json (IsData Alike)

/-- What was read from data is written as the same data, and read from that as the same again. -/
structure Keeps {α : Type} (read : Value → Checked α) (write : α → Value) : Prop where
  alike : ∀ {v x}, read v = .ok x → IsData v → Alike v (write x)
  again : ∀ {v x}, read v = .ok x → IsData v → read (write x) = .ok x

/-- What was read from a field is written as the same data, or not written if there was no such
field; it is read from any fields that have that under the key. -/
structure KeepsField {α : Type} (key : String) (read : Fields Value → Checked α)
    (slot : α → Option Value) : Prop where
  alike : ∀ {fs x}, read fs = .ok x → IsData (.object fs) → Option.Rel Alike (fs.get? key) (slot x)
  again : ∀ {fs gs x}, read fs = .ok x → IsData (.object fs) → gs.get? key = slot x →
    read gs = .ok x

variable {α : Type} {read : Value → Checked α} {write : α → Value}

/-! ### Values -/

/-- A reader that takes a value as it is keeps it. -/
theorem Keeps.of_eq (h : ∀ {v x}, read v = .ok x → write x = v) : Keeps read write where
  alike hread _ := by
    rw [h hread]
    exact .refl _
  again hread _ := by
    rw [h hread]
    exact hread

theorem keeps_text : Keeps Shape.text .text := by
  refine .of_eq fun {v x} h => ?_
  cases v with
  | text s => rw [Checked.ok.inj h]
  | _ => cases h

theorem keeps_fields : Keeps Shape.fields .object := by
  refine .of_eq fun {v x} h => ?_
  cases v with
  | object fs => rw [Checked.ok.inj h]
  | _ => cases h

theorem keeps_policy : Keeps FailurePolicy.read fun p => .text p.word := by
  refine .of_eq fun {v x} h => ?_
  unfold FailurePolicy.read at h
  split at h
  · rw [← Checked.ok.inj h]
    rfl
  · rw [← Checked.ok.inj h]
    rfl
  · cases h

/-- Null is kept apart from a value that is written. -/
theorem Keeps.nullable (h : Keeps read write) (hnull : ∀ x, write x ≠ .null) :
    Keeps (Shape.nullable read) fun found => (found.map write).getD .null := by
  have hread : ∀ {v}, v ≠ Value.null → Shape.nullable read v = (read v).map some := by
    intro v hv
    unfold Shape.nullable
    split
    · contradiction
    · rfl
  have hfound : ∀ {v found}, v ≠ Value.null → Shape.nullable read v = .ok found →
      ∃ x, read v = .ok x ∧ some x = found := by
    intro v found hv hok
    rw [hread hv] at hok
    exact Checked.map_eq_ok.mp hok
  constructor
  · intro v found hok hdata
    rcases eq_or_ne v .null with rfl | hv
    · obtain rfl := Checked.ok.inj hok
      exact .refl _
    · obtain ⟨x, hx, rfl⟩ := hfound hv hok
      exact h.alike hx hdata
  · intro v found hok hdata
    rcases eq_or_ne v .null with rfl | hv
    · obtain rfl := Checked.ok.inj hok
      rfl
    · obtain ⟨x, hx, rfl⟩ := hfound hv hok
      show Shape.nullable read (write x) = .ok (some x)
      rw [hread (hnull x), h.again hx hdata]
      rfl

theorem keeps_text_or_null :
    Keeps (Shape.nullable Shape.text) fun found => (found.map .text).getD .null :=
  keeps_text.nullable (by simp)

theorem keeps_fields_or_null :
    Keeps (Shape.nullable Shape.fields) fun found => (found.map .object).getD .null :=
  keeps_fields.nullable (by simp)

/-- A list is kept if its elements are. -/
theorem Keeps.list (h : Keeps read write) :
    Keeps (Shape.list read) fun xs => .list (xs.map write) := by
  have hread : ∀ {v xs}, Shape.list read v = .ok xs → IsData v →
      ∃ vs, v = .list vs ∧ List.Forall₂ (fun v x => IsData v ∧ read v = .ok x) vs xs := by
    intro v xs hok hdata
    cases hdata with
    | list hvs =>
      exact ⟨_, rfl, (List.forall₂_and_left _ _).mpr ⟨hvs, Checked.eachFrom_eq_ok.mp hok⟩⟩
    | _ => cases hok
  constructor
  · intro v xs hok hdata
    obtain ⟨vs, rfl, hxs⟩ := hread hok hdata
    apply Alike.of_forall₂
    rw [List.forall₂_map_right_iff]
    exact hxs.imp fun v x hx => h.alike hx.2 hx.1
  · intro v xs hok hdata
    obtain ⟨vs, rfl, hxs⟩ := hread hok hdata
    apply Checked.eachFrom_eq_ok.mpr
    clear hok hdata
    induction hxs with
    | nil => exact .nil
    | cons hx _ ih => exact .cons (h.again hx.2 hx.1) ih

/-! ### Fields -/

theorem Keeps.required (h : Keeps read write) (key : String) :
    KeepsField key (fun fs => Shape.required fs key read) fun x => some (write x) where
  alike hok hdata := by
    obtain ⟨v, hv, hx⟩ := Shape.required_eq_ok.mp hok
    rw [hv]
    exact .some (h.alike hx (hdata.get? hv))
  again hok hdata hslot := by
    obtain ⟨v, hv, hx⟩ := Shape.required_eq_ok.mp hok
    exact Shape.required_eq_ok.mpr ⟨_, hslot, h.again hx (hdata.get? hv)⟩

theorem Keeps.optional (h : Keeps read write) (key : String) :
    KeepsField key (fun fs => Shape.optional fs key read) fun found => found.map write := by
  -- what stands under the key, if anything does, is data itself
  have hread : ∀ {fs : Fields Value} {found}, Shape.optional fs key read = .ok found →
      IsData (.object fs) →
      Option.Rel (fun v x => IsData v ∧ read v = .ok x) (fs.get? key) found := by
    intro fs found hok hdata
    have hfound := Shape.optional_eq_ok.mp hok
    rcases hv : fs.get? key with - | v
    · rw [hv] at hfound
      cases hfound
      exact .none
    · rw [hv] at hfound
      obtain ⟨hx⟩ := hfound
      exact .some ⟨hdata.get? hv, hx⟩
  constructor
  · intro fs found hok hdata
    have hfound := hread hok hdata
    generalize fs.get? key = there at hfound ⊢
    cases hfound with
    | some hx => exact .some (h.alike hx.2 hx.1)
    | none => exact .none
  · intro fs gs found hok hdata hslot
    have hfound := hread hok hdata
    apply Shape.optional_eq_ok.mpr
    rw [hslot]
    generalize fs.get? key = there at hfound
    cases hfound with
    | some hx => exact .some (h.again hx.2 hx.1)
    | none => exact .none

/-! ### Records -/

/-- A known field of a record: its key, and what is written under it, if anything is. -/
abbrev Slot := String × Option Value

/-- The known fields of a record that are there, then the others. -/
def assembled (slots : List Slot) (others : Fields Value) : Fields Value :=
  slots.filterMap (fun s => s.2.map fun v => (s.1, v)) ++ others

namespace Fields

variable {fs : Fields Value} {names : List String} {k : String}

theorem get?_eraseAll (hk : k ∉ names) : (fs.eraseAll names).get? k = fs.get? k := by
  induction fs with
  | nil => rfl
  | cons f fs ih =>
    obtain ⟨key, v⟩ := f
    unfold eraseAll at ih ⊢
    by_cases hkey : key ∈ names
    · have hne : k ≠ key := fun heq => hk (heq ▸ hkey)
      rw [List.filter_cons_of_neg (by simp [hkey]), get?_cons, if_neg hne, ih]
    · rw [List.filter_cons_of_pos (by simp [hkey]), get?_cons, get?_cons, ih]

theorem mem_keys_eraseAll : k ∈ (fs.eraseAll names).keys ↔ k ∈ fs.keys ∧ k ∉ names := by
  unfold keys eraseAll
  simp only [List.mem_map, List.mem_filter, List.contains_eq_mem, Bool.not_eq_true',
    decide_eq_false_iff_not]
  constructor
  · rintro ⟨f, ⟨hf, hnot⟩, rfl⟩
    exact ⟨⟨f, hf, rfl⟩, hnot⟩
  · rintro ⟨⟨f, hf, rfl⟩, hnot⟩
    exact ⟨f, ⟨hf, hnot⟩, rfl⟩

theorem get?_eraseAll_self (hk : k ∈ names) : (fs.eraseAll names).get? k = none := by
  by_contra hsome
  exact (mem_keys_eraseAll.mp (mem_keys_iff.mpr (Option.ne_none_iff_exists'.mp hsome))).2 hk

theorem nodup_keys_eraseAll (h : fs.keys.Nodup) : (fs.eraseAll names).keys.Nodup :=
  h.sublist (List.filter_sublist.map _)

theorem eraseAll_eraseAll : (fs.eraseAll names).eraseAll names = fs.eraseAll names := by
  unfold eraseAll
  rw [List.filter_filter]
  simp only [Bool.and_self]

end Fields

variable {slots : List Slot} {others : Fields Value} {k : String}

theorem assembled_cons_some (key : String) (v : Value) :
    assembled ((key, some v) :: slots) others = (key, v) :: assembled slots others := rfl

/-- What has none of the names of the known fields is found among the others. -/
theorem get?_assembled_of_not_mem (hk : k ∉ slots.map (·.1)) :
    (assembled slots others).get? k = others.get? k := by
  induction slots with
  | nil => rfl
  | cons s slots ih =>
    obtain ⟨key, - | v⟩ := s
    · exact ih (List.not_mem_of_not_mem_cons hk)
    · rw [assembled_cons_some, Fields.get?_cons, if_neg (List.ne_of_not_mem_cons hk),
        ih (List.not_mem_of_not_mem_cons hk)]

/-- Under the name of a known field is what is written there. -/
theorem get?_assembled_of_mem (hnames : (slots.map (·.1)).Nodup)
    (hothers : ∀ name ∈ slots.map (·.1), others.get? name = none) {s : Slot} (hs : s ∈ slots) :
    (assembled slots others).get? s.1 = s.2 := by
  induction slots with
  | nil => cases hs
  | cons t slots ih =>
    obtain ⟨hnot, hslots⟩ := List.nodup_cons.mp hnames
    obtain ⟨hfirst, hrest⟩ := List.forall_mem_cons.mp hothers
    obtain ⟨key, found⟩ := t
    rcases List.mem_cons.mp hs with rfl | hmem
    · cases found with
      | none =>
        show (assembled slots others).get? key = none
        rw [get?_assembled_of_not_mem hnot, hfirst]
      | some v => exact (Fields.get?_cons ..).trans (if_pos rfl)
    · cases found with
      | none => exact ih hslots hrest hmem
      | some v =>
        have hname : s.1 ∈ slots.map (·.1) := List.mem_map_of_mem hmem
        have hne : s.1 ≠ key := by
          rintro rfl
          exact hnot hname
        rw [assembled_cons_some, Fields.get?_cons, if_neg hne, ih hslots hrest hmem]

theorem mem_keys_assembled (hk : k ∈ (assembled slots others).keys) :
    k ∈ slots.map (·.1) ∨ k ∈ others.keys := by
  by_contra hnot
  obtain ⟨hslots, hothers⟩ := not_or.mp hnot
  obtain ⟨v, hv⟩ := Fields.mem_keys_iff.mp hk
  rw [get?_assembled_of_not_mem hslots] at hv
  exact hothers (Fields.mem_keys_iff.mpr ⟨v, hv⟩)

theorem nodup_keys_assembled (hnames : (slots.map (·.1)).Nodup) (hkeys : others.keys.Nodup)
    (hothers : ∀ name ∈ slots.map (·.1), name ∉ others.keys) :
    (assembled slots others).keys.Nodup := by
  induction slots with
  | nil => exact hkeys
  | cons s slots ih =>
    obtain ⟨hnot, hslots⟩ := List.nodup_cons.mp hnames
    obtain ⟨hfirst, hrest⟩ := List.forall_mem_cons.mp hothers
    obtain ⟨key, - | v⟩ := s
    · exact ih hslots hrest
    · refine List.nodup_cons.mpr ⟨fun hmem => ?_, ih hslots hrest⟩
      exact (mem_keys_assembled hmem).elim hnot hfirst

/-- Without the known fields, the others are left. -/
theorem eraseAll_assembled {names : List String} (hslots : ∀ s ∈ slots, s.1 ∈ names)
    (hothers : others.eraseAll names = others) :
    (assembled slots others).eraseAll names = others := by
  induction slots with
  | nil => exact hothers
  | cons s slots ih =>
    obtain ⟨hfirst, hrest⟩ := List.forall_mem_cons.mp hslots
    obtain ⟨key, - | v⟩ := s
    · exact ih hrest
    · show List.filter _ ((key, v) :: assembled slots others) = others
      rw [List.filter_cons_of_neg (by simpa using hfirst)]
      exact ih hrest

theorem mem_assembled {v : Value} (h : (k, some v) ∈ slots) : (k, v) ∈ assembled slots others :=
  List.mem_append_left _ (List.mem_filterMap.mpr ⟨(k, some v), h, rfl⟩)

/-- What stands in a known field is nested less deeply than the record. -/
theorem depth_lt_of_fields_slot {fs : Fields Value} (hslot : (k, some (.object fs)) ∈ slots)
    {f : String × Value} (hf : f ∈ fs) : f.2.depth < (Value.object (assembled slots others)).depth :=
  (Json.depth_lt_object hf).trans (Json.depth_lt_object (mem_assembled hslot))

theorem depth_lt_of_list_slot {vs : List Value} (hslot : (k, some (.list vs)) ∈ slots) {v w : Value}
    (hw : w ∈ vs) (hv : v.depth < w.depth) :
    v.depth < (Value.object (assembled slots others)).depth :=
  calc v.depth < w.depth := hv
    _ < (Value.list vs).depth := Json.depth_lt_list hw
    _ < _ := Json.depth_lt_object (mem_assembled hslot)

/-- A record is the same data as its known fields and the others. -/
theorem alike_assembled {fs : Fields Value} (hkeys : fs.keys.Nodup)
    (hnames : (slots.map (·.1)).Nodup)
    (hslots : ∀ s ∈ slots, Option.Rel Alike (fs.get? s.1) s.2) :
    Alike (.object fs) (.object (assembled slots (fs.eraseAll (slots.map (·.1))))) := by
  have hapart : ∀ name ∈ slots.map (·.1), name ∉ (fs.eraseAll (slots.map (·.1))).keys :=
    fun name hname hmem => (Fields.mem_keys_eraseAll.mp hmem).2 hname
  refine .of_get? hkeys (nodup_keys_assembled hnames (Fields.nodup_keys_eraseAll hkeys) hapart)
    fun k => ?_
  -- a key is the name of a known field, or else is looked up among the others on both sides
  by_cases hk : k ∈ slots.map (·.1)
  · obtain ⟨s, hs, rfl⟩ := List.mem_map.mp hk
    rw [get?_assembled_of_mem hnames (fun name hname => Fields.get?_eraseAll_self hname) hs]
    exact hslots s hs
  · rw [get?_assembled_of_not_mem hk, Fields.get?_eraseAll hk]
    cases fs.get? k with
    | none => exact .none
    | some v => exact .some (.refl v)

/-- A reader of records: it takes the known fields from their slots, and the others as they are. -/
structure ReadsRecord {α : Type} (read : Value → Checked α) (known : List String)
    (slots : α → List Slot) (others : α → Fields Value) : Prop where
  names : ∀ x, (slots x).map (·.1) = known
  object : ∀ {v x}, read v = .ok x →
    ∃ fs : Fields Value, v = .object fs ∧ fs.eraseAll known = others x
  alike : ∀ {fs : Fields Value} {x}, read (.object fs) = .ok x → IsData (.object fs) →
    ∀ s ∈ slots x, Option.Rel Alike (fs.get? s.1) s.2
  again : ∀ {fs gs : Fields Value} {x}, read (.object fs) = .ok x → IsData (.object fs) →
    (∀ s ∈ slots x, gs.get? s.1 = s.2) → gs.eraseAll known = others x → read (.object gs) = .ok x

/-- A reader of records keeps them. -/
theorem Keeps.of_record {known : List String} {slots : α → List Slot} {others : α → Fields Value}
    (h : ReadsRecord read known slots others) (hknown : known.Nodup)
    (hwrite : ∀ x, write x = .object (assembled (slots x) (others x))) : Keeps read write := by
  constructor
  · intro v x hok hdata
    obtain ⟨fs, rfl, hothers⟩ := h.object hok
    rw [hwrite, ← hothers, ← h.names x]
    cases hdata with
    | object hkeys hvalues =>
      exact alike_assembled hkeys ((h.names x).symm ▸ hknown) (h.alike hok (.object hkeys hvalues))
  · intro v x hok hdata
    obtain ⟨fs, rfl, hothers⟩ := h.object hok
    rw [hwrite]
    -- each known field is found where it was written, and the others are what is left
    apply h.again hok hdata
    · intro s hs
      refine get?_assembled_of_mem ((h.names x).symm ▸ hknown) (fun name hname => ?_) hs
      rw [← hothers]
      exact Fields.get?_eraseAll_self (h.names x ▸ hname)
    · apply eraseAll_assembled
      · intro s hs
        rw [← h.names x]
        exact List.mem_map_of_mem hs
      · rw [← hothers, Fields.eraseAll_eraseAll]

end Automation
