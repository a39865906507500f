/-
Automation/Proofs/Binding/Environment.lean

Given values over surrounding ones: which of them a name has.

A name is found under one spelling: its own if that is there, else the first one that is the same
in any case of letters (`spelling?`).  A given value takes the place of the surrounding one of
exactly its own spelling, and any other spelling comes behind the surrounding ones.  So the given
values answer for a name in some spelling of theirs just if they cover the spelling that the
surroundings have for it; if they do not, the surroundings answer, although the name is given in
another spelling (`get_environment_of_given`).
-/
import Automation.Binding.Source
import Automation.Proofs.Fields

namespace Automation

namespace Fields

variable {α : Type*} {p : String → Bool}

/-- Writing a field brings up its key behind the others, if it was not there before. -/
theorem find?_keys_set (fs : Fields α) (key : String) (v : α) :
    (fs.set key v).keys.find? p = (fs.keys.find? p).or (if p key then some key else none) := by
  have hsingle : [key].find? p = if p key then some key else none := by
    rw [List.find?_cons, List.find?_nil]
    cases p key <;> rfl
  rw [keys_set]
  split
  · next hmem =>
    -- the key has its place already, and nothing that holds of it is found behind it
    rcases hfound : fs.keys.find? p with - | k
    · have hkey : p key = false := by simpa using List.find?_eq_none.mp hfound key hmem
      rw [hkey]
      rfl
    · rfl
  · rw [List.find?_append, hsingle]

/-- The first key of its kind comes from the fields below if they have one of that kind. -/
theorem find?_keys_overlay (fs gs : Fields α) :
    (fs.overlay gs).keys.find? p = (fs.keys.find? p).or (gs.keys.find? p) := by
  induction gs generalizing fs with
  | nil => rw [overlay_nil, keys_nil, List.find?_nil, Option.or_none]
  | cons g gs ih =>
    have hcons : (keys (g :: gs)).find? p =
        (if p g.1 then some g.1 else none).or ((keys gs).find? p) := by
      rw [keys_cons, List.find?_cons]
      cases p g.1 <;> rfl
    show ((fs.set g.1 g.2).overlay gs).keys.find? p = _
    rw [ih, find?_keys_set, hcons, Option.or_assoc]

/-- What is found first by its key is what its key has. -/
theorem get?_of_find? {fs : Fields α} {f : String × α} (h : fs.find? (fun f => p f.1) = some f) :
    fs.get? f.1 = some f.2 := by
  induction fs with
  | nil => cases h
  | cons g fs ih =>
    obtain ⟨k, v⟩ := g
    rw [List.find?_cons] at h
    rw [get?_cons]
    by_cases hk : p k = true
    · rw [hk] at h
      obtain rfl := Option.some.inj h
      rw [if_pos rfl]
    · have hf : p f.1 = true := List.find?_some (p := fun f : String × α => p f.1) (by
        simpa [hk] using h)
      have hne : f.1 ≠ k := fun heq => hk (heq ▸ hf)
      rw [if_neg hne]
      exact ih (by simpa [hk] using h)

end Fields

namespace Source

variable {surroundings given fs : Fields Value} {name key : String}

/-- A key is the name in some case of letters. -/
def isSpelling (name key : String) : Bool := Text.lower key == Text.lower name

/-- The spelling under which a name is found: its own before any other, and of the others the
first. -/
def spelling? (fs : Fields Value) (name : String) : Option String :=
  if name ∈ fs.keys then some name else fs.keys.find? (isSpelling name)

theorem isSpelling_self (name : String) : isSpelling name name = true := beq_self_eq_true _

theorem isSpelling_of_spelling? (h : spelling? fs name = some key) :
    key ∈ fs.keys ∧ isSpelling name key = true := by
  unfold spelling? at h
  split at h
  · next hmem =>
    obtain rfl := Option.some.inj h
    exact ⟨hmem, isSpelling_self name⟩
  · exact ⟨List.mem_of_find?_eq_some h, List.find?_some h⟩

theorem exists_spelling? (hkey : key ∈ fs.keys) (hname : isSpelling name key = true) :
    ∃ found, spelling? fs name = some found := by
  unfold spelling?
  split
  · exact ⟨name, rfl⟩
  · apply Option.isSome_iff_exists.mp
    exact List.find?_isSome.mpr ⟨key, hkey, hname⟩

/-- A lookup in any case of letters answers with the value of the spelling that it finds. -/
theorem get_table_eq (fs : Fields Value) (name : String) :
    (table fs true).get name = ((spelling? fs name).bind fs.get?).getD .null := by
  have hget : (table fs true).get name = (fs.get? name).getD
      (((fs.find? fun f => isSpelling name f.1).map (·.2)).getD .null) := by
    cases hname : fs.get? name <;> simp [get, isSpelling, hname]
  rw [hget]
  unfold spelling?
  by_cases hmem : name ∈ fs.keys
  · obtain ⟨v, hv⟩ := Fields.mem_keys_iff.mp hmem
    rw [if_pos hmem, Option.bind_some, hv]
    rfl
  · have hnone : fs.get? name = none := by
      by_contra hsome
      obtain ⟨v, hv⟩ := Option.ne_none_iff_exists'.mp hsome
      exact hmem (Fields.mem_keys_iff.mpr ⟨v, hv⟩)
    have hkeys : fs.keys.find? (isSpelling name) =
        (fs.find? fun f => isSpelling name f.1).map (·.1) := List.find?_map
    rw [if_neg hmem, hnone, hkeys, Option.getD_none]
    rcases hfound : fs.find? fun f => isSpelling name f.1 with - | f
    · rw [hfound]
      rfl
    · rw [hfound, Option.map_some, Option.map_some, Option.bind_some, Fields.get?_of_find? hfound]

/-- Given values bring up a spelling only where the surroundings have none, the name itself
excepted. -/
theorem spelling?_overlay (surroundings given : Fields Value) (name : String) :
    spelling? (surroundings.overlay given) name =
      if name ∈ given.keys then some name
      else (spelling? surroundings name).or (spelling? given name) := by
  unfold spelling?
  by_cases hgiven : name ∈ given.keys
  · rw [if_pos (Fields.mem_keys_overlay.mpr (.inr hgiven)), if_pos hgiven]
  rw [if_neg hgiven, if_neg hgiven]
  by_cases hname : name ∈ surroundings.keys
  · rw [if_pos (Fields.mem_keys_overlay.mpr (.inl hname)), if_pos hname]
    rfl
  · have hover : name ∉ (surroundings.overlay given).keys := by
      intro h
      exact (Fields.mem_keys_overlay.mp h).elim hname hgiven
    rw [if_neg hname, if_neg hover, Fields.find?_keys_overlay]

/-! ### Given values and the surroundings -/

/-- The name itself is given, or else the spelling that the surroundings have for it. -/
def Covers (given surroundings : Fields Value) (name : String) : Prop :=
  name ∈ given.keys ∨ ∀ key, spelling? surroundings name = some key → key ∈ given.keys

/-- A covered name that is given in some spelling is found under one that is given. -/
theorem Covers.exists_spelling? (h : Covers given surroundings name)
    (hgiven : ∃ key ∈ given.keys, isSpelling name key = true) :
    ∃ key ∈ given.keys, isSpelling name key = true ∧
      spelling? (surroundings.overlay given) name = some key := by
  rw [spelling?_overlay]
  by_cases hname : name ∈ given.keys
  · exact ⟨name, hname, isSpelling_self name, if_pos hname⟩
  rw [if_neg hname]
  rcases hsurroundings : spelling? surroundings name with - | key
  · obtain ⟨key, hkey, hspelling⟩ := hgiven
    obtain ⟨found, hfound⟩ := Source.exists_spelling? hkey hspelling
    obtain ⟨hmem, hsame⟩ := isSpelling_of_spelling? hfound
    exact ⟨found, hmem, hsame, hfound⟩
  · have hkey : key ∈ given.keys := (h.resolve_left hname) key hsurroundings
    exact ⟨key, hkey, (isSpelling_of_spelling? hsurroundings).2, rfl⟩

/-- A name that is not covered is found under a spelling of the surroundings that is not given. -/
theorem exists_spelling?_of_not_covers (h : ¬ Covers given surroundings name) :
    ∃ key ∈ surroundings.keys, isSpelling name key = true ∧ key ∉ given.keys ∧
      spelling? (surroundings.overlay given) name = some key := by
  obtain ⟨hname, hother⟩ := not_or.mp h
  obtain ⟨key, hkey⟩ := not_forall.mp hother
  obtain ⟨hfound, hkey⟩ := Classical.not_imp.mp hkey
  obtain ⟨hmem, hspelling⟩ := isSpelling_of_spelling? hfound
  refine ⟨key, hmem, hspelling, hkey, ?_⟩
  rw [spelling?_overlay, if_neg hname, hfound]
  rfl

/-- A name that is given in some spelling has the value of such a spelling if the given values
cover the spelling of the surroundings; if they do not, it has the value of the surroundings. -/
theorem get_environment_of_given (hkeys : given.keys.Nodup)
    (hgiven : ∃ key ∈ given.keys, isSpelling name key = true) :
    (Covers given surroundings name →
      ∃ f ∈ given, isSpelling name f.1 = true ∧ (environment surroundings given).get name = f.2) ∧
    (¬ Covers given surroundings name →
      ∃ f ∈ surroundings, isSpelling name f.1 = true ∧ f.1 ∉ given.keys ∧
        (environment surroundings given).get name = f.2) := by
  unfold environment
  rw [get_table_eq]
  constructor
  · intro hcovers
    obtain ⟨key, hkey, hspelling, hfound⟩ := hcovers.exists_spelling? hgiven
    obtain ⟨v, hv⟩ := Fields.mem_keys_iff.mp hkey
    refine ⟨(key, v), Fields.mem_of_get? hv, hspelling, ?_⟩
    rw [hfound, Option.bind_some, Fields.get?_overlay surroundings hkeys, hv]
    rfl
  · intro hcovers
    obtain ⟨key, hmem, hspelling, hkey, hfound⟩ := exists_spelling?_of_not_covers hcovers
    obtain ⟨v, hv⟩ := Fields.mem_keys_iff.mp hmem
    refine ⟨(key, v), Fields.mem_of_get? hv, hspelling, hkey, ?_⟩
    rw [hfound, Option.bind_some, Fields.get?_overlay_of_not_mem surroundings hkey, hv]
    rfl

/-- The region is given in the spelling of the surroundings, and in another one before it; the
stage is given in another spelling only. -/
theorem get_environment_of_given_spellings :
    let surroundings : Fields Value := [("REGION", .text "theirs"), ("Stage", .text "theirs")]
    let given : Fields Value :=
      [("Region", .text "first"), ("REGION", .text "second"), ("stage", .text "third")]
    (∃ f ∈ given, isSpelling "region" f.1 = true ∧
      (environment surroundings given).get "region" = f.2) ∧
    ∃ f ∈ surroundings, isSpelling "STAGE" f.1 = true ∧ f.1 ∉ given.keys ∧
      (environment surroundings given).get "STAGE" = f.2 := by
  intro surroundings given
  have hkeys : given.keys.Nodup := by decide
  refine ⟨(get_environment_of_given hkeys ⟨"Region", by decide, by decide⟩).1 ?_,
    (get_environment_of_given hkeys ⟨"stage", by decide, by decide⟩).2 ?_⟩
  · refine .inr fun key hkey => ?_
    have hfound : spelling? surroundings "region" = some "REGION" := by decide
    obtain rfl := Option.some.inj (hfound.symm.trans hkey)
    decide
  · rintro (hname | hcovered)
    · exact absurd hname (by decide)
    · exact absurd (hcovered "Stage" (by decide)) (by decide)

end Source

end Automation
