/-
Automation/Proofs/Json/Data.lean

Structured data: what a text can stand for, and when two values are the same data.

Data has each key once and finite numbers only (`IsData`).  Two values are alike if they are the
same up to the order of the keys of objects (`Alike`), and then they fit the same limits
(`Fits.of_alike`).  What a reader reads fits the limits of that reader (`fits_of_read`).
-/
import Automation.Proofs.Json.RoundTrip

namespace Automation.Json

open Numeral (digitLimit signed)

/-- The value is structured data: no object has a key twice or a key that is no text, and all
numbers are finite. -/
inductive IsData : Value → Prop
  | null : IsData .null
  | bool (b : Bool) : IsData (.bool b)
  | int (n : ℤ) : IsData (.int n)
  | float {x : Binary64} (finite : x.isFinite = true) : IsData (.float x)
  | text (s : String) : IsData (.text s)
  | list {vs : List Value} (items : ∀ v ∈ vs, IsData v) : IsData (.list vs)
  | object {fs : Fields Value} (keys : fs.keys.Nodup) (values : ∀ f ∈ fs, IsData f.2) :
      IsData (.object fs)

/-- The values are the same data: they differ in the order of the keys of objects at most. -/
inductive Alike : Value → Value → Prop
  | refl (v : Value) : Alike v v
  | list {vs ws : List Value} (length : vs.length = ws.length)
      (items : ∀ (i : ℕ) v w, vs[i]? = some v → ws[i]? = some w → Alike v w) :
      Alike (.list vs) (.list ws)
  | object {fs gs : Fields Value} (left : fs.keys.Nodup) (right : gs.keys.Nodup)
      (keys : ∀ k, k ∈ fs.keys ↔ k ∈ gs.keys)
      (values : ∀ k v w, fs.get? k = some v → gs.get? k = some w → Alike v w) :
      Alike (.object fs) (.object gs)

variable {rules : Rules} {depth : ℕ} {v w : Value}

theorem IsData.get? {fs : Fields Value} (h : IsData (.object fs)) {key : String}
    (hv : fs.get? key = some v) : IsData v := by
  cases h with
  | object _ hvalues => exact hvalues _ (Fields.mem_of_get? hv)

/-! ### Values that are alike -/

theorem Alike.of_forall₂ {vs ws : List Value} (h : List.Forall₂ Alike vs ws) :
    Alike (.list vs) (.list ws) := by
  refine .list h.length_eq fun i v w hv hw => ?_
  rw [List.forall₂_iff_get] at h
  obtain ⟨hi, rfl⟩ := List.getElem?_eq_some_iff.mp hv
  obtain ⟨hj, rfl⟩ := List.getElem?_eq_some_iff.mp hw
  exact h.2 i hi hj

/-- Objects are alike if under every key is the same data, or nothing in both. -/
theorem Alike.of_get? {fs gs : Fields Value} (left : fs.keys.Nodup) (right : gs.keys.Nodup)
    (h : ∀ k, Option.Rel Alike (fs.get? k) (gs.get? k)) : Alike (.object fs) (.object gs) := by
  refine .object left right (fun k => ?_) fun k v w hv hw => ?_
  · rw [Fields.mem_keys_iff, Fields.mem_keys_iff]
    have hk := h k
    generalize fs.get? k = left, gs.get? k = right at hk ⊢
    cases hk <;> simp
  · have hk := h k
    rw [hv, hw] at hk
    obtain ⟨halike⟩ := hk
    exact halike

/-- Values that are alike fit the same limits. -/
theorem Fits.of_alike (h : Alike v w) (hv : Fits rules depth v) : Fits rules depth w := by
  induction h generalizing depth with
  | refl v => exact hv
  | list hlength hitems ih =>
    cases hv with
    | list hroom hvs =>
      refine .list (fun hne => hroom ?_) fun w hw => ?_
      · rw [← List.length_pos_iff, hlength]
        exact List.length_pos_iff.mpr hne
      · obtain ⟨i, hi, rfl⟩ := List.getElem_of_mem hw
        have hv := List.getElem?_eq_getElem (hlength ▸ hi : i < _)
        exact ih i _ _ hv (List.getElem?_eq_getElem hi) (hvs _ (List.mem_of_getElem? hv))
  | @object fs gs hleft hright hkeys hvalues ih =>
    cases hv with
    | object hroom _ hfs =>
      -- a key on one side is one on the other side
      have hfound : ∀ f ∈ gs, ∃ v, fs.get? f.1 = some v := fun f hf =>
        Fields.mem_keys_iff.mp ((hkeys f.1).mpr (List.mem_map_of_mem hf))
      refine .object (fun hne => hroom ?_) hright fun f hf => ?_
      · rintro rfl
        obtain ⟨f, hf⟩ := List.exists_mem_of_ne_nil gs hne
        obtain ⟨v, hv⟩ := hfound f hf
        cases hv
      · obtain ⟨v, hv⟩ := hfound f hf
        exact ih f.1 v f.2 hv (Fields.get?_of_mem hright hf) (hfs _ (Fields.mem_of_get? hv))

theorem depthOfItems_le {vs : List Value} {n : ℕ} (h : ∀ v ∈ vs, v.depth ≤ n) :
    Value.depthOfItems vs ≤ n := by
  induction vs with
  | nil => exact Nat.zero_le n
  | cons v vs ih =>
    obtain ⟨hv, hvs⟩ := List.forall_mem_cons.mp h
    exact max_le hv (ih hvs)

theorem depthOfFields_le {fs : Fields Value} {n : ℕ} (h : ∀ f ∈ fs, f.2.depth ≤ n) :
    Value.depthOfFields fs ≤ n := by
  induction fs with
  | nil => exact Nat.zero_le n
  | cons f fs ih =>
    obtain ⟨hf, hfs⟩ := List.forall_mem_cons.mp h
    exact max_le hf (ih hfs)

theorem depth_lt_list {vs : List Value} (h : v ∈ vs) : v.depth < (Value.list vs).depth := by
  show v.depth < Value.depthOfItems vs + 1
  rw [Nat.lt_succ_iff]
  induction vs with
  | nil => cases h
  | cons w vs ih =>
    rcases List.mem_cons.mp h with rfl | h
    · exact le_max_left _ _
    · exact le_max_of_le_right (ih h)

theorem depth_lt_object {fs : Fields Value} {f : String × Value} (h : f ∈ fs) :
    f.2.depth < (Value.object fs).depth := by
  show f.2.depth < Value.depthOfFields fs + 1
  rw [Nat.lt_succ_iff]
  induction fs with
  | nil => cases h
  | cons g fs ih =>
    rcases List.mem_cons.mp h with rfl | h
    · exact le_max_left _ _
    · exact le_max_of_le_right (ih h)

/-- A value that fits is nested no deeper than there is room. -/
theorem Fits.depth_le (h : Fits rules depth v) (hdepth : depth ≤ rules.depthLimit) :
    v.depth + depth ≤ rules.depthLimit + 1 := by
  induction h with
  | @list depth vs hroom hvs ih =>
    rcases eq_or_ne vs [] with rfl | hne
    · show 1 + depth ≤ _
      omega
    · have hlt := hroom hne
      have hitems : Value.depthOfItems vs ≤ rules.depthLimit - depth :=
        depthOfItems_le fun v hv => by
          have := ih v hv hlt
          omega
      show Value.depthOfItems vs + 1 + depth ≤ _
      omega
  | @object depth fs hroom hkeys hfs ih =>
    rcases eq_or_ne fs [] with rfl | hne
    · show 1 + depth ≤ _
      omega
    · have hlt := hroom hne
      have hfields : Value.depthOfFields fs ≤ rules.depthLimit - depth :=
        depthOfFields_le fun f hf => by
          have := ih f hf hlt
          omega
      show Value.depthOfFields fs + 1 + depth ≤ _
      omega
  | @null depth | @bool depth | @int depth | @float depth | @text depth =>
    show 1 + depth ≤ _
    omega

theorem Fits.isData (h : Fits rules depth v) : IsData v := by
  induction h with
  | null => exact .null
  | bool b => exact .bool b
  | int => exact .int _
  | float hx => exact .float hx
  | text s => exact .text s
  | list _ _ ih => exact .list ih
  | object _ hkeys _ ih => exact .object hkeys ih

/-! ### Values that were read -/

/-- A run of digits stands for a number with no more digits. -/
theorem runValue_lt {cs : List Char} (h : ∀ c ∈ cs, c.isDigit = true) :
    runValue cs < 10 ^ cs.length := by
  induction cs using List.reverseRecOn with
  | nil => decide
  | append_singleton cs c ih =>
    obtain ⟨hcs, hc⟩ := List.forall_mem_append.mp h
    obtain ⟨hlow, hhigh⟩ := toNat_of_isDigit (hc c (List.mem_singleton_self c))
    have hlast : runValue [c] = c.toNat - 0x30 := by simp [runValue, runDigits, Numeral.valueOf]
    have hfront := ih hcs
    rw [runValue_append, hlast, List.length_append, List.length_singleton, pow_succ]
    omega

theorem isDigit_of_digitRun (cs : List Char) : ∀ c ∈ (digitRun cs).1, c.isDigit = true := by
  intro c hc
  unfold digitRun at hc
  rw [List.span_eq_takeWhile_dropWhile] at hc
  exact List.mem_takeWhile_imp hc

theorem isDigit_of_wholeDigits? {cs whole rest : List Char}
    (h : wholeDigits? cs = some (whole, rest)) : ∀ c ∈ whole, c.isDigit = true := by
  have hrun := isDigit_of_digitRun cs
  unfold wholeDigits? at h
  split at h
  · obtain ⟨rfl, -⟩ := Prod.mk.inj (Option.some.inj h)
    exact List.forall_mem_singleton.mpr rfl
  · split at h
    · cases h
    · next heq =>
      obtain ⟨rfl, -⟩ := Prod.mk.inj (Option.some.inj h)
      rwa [heq] at hrun

/-- A number that is read is an integer of not too many digits, or of the format. -/
theorem number_of_magnitude {s : Bool} {cs rest : List Char}
    (h : magnitude rules s cs = .ok (v, rest)) :
    (∃ n : ℤ, v = .int n ∧ n.natAbs < 10 ^ digitLimit) ∨ ∃ x, v = .float x := by
  unfold magnitude at h
  rcases hwhole : wholeDigits? cs with - | ⟨whole, behind⟩
  · rw [hwhole] at h
    cases h
  rw [hwhole] at h
  by_cases hlimit : whole.length ≤ digitLimit
  · have hinteger : Numeral.whole s (runDigits whole) = .ok (signed s (runValue whole)) := by
      unfold Numeral.whole runDigits
      rw [List.length_map, if_pos hlimit]
      rfl
    simp only [hinteger, Except.map] at h
    split_ifs at h
    · obtain ⟨rfl, -⟩ := Prod.mk.inj (Except.ok.inj h)
      refine .inl ⟨_, rfl, ?_⟩
      calc (signed s (runValue whole)).natAbs = runValue whole := by
            unfold signed
            split <;> simp
        _ < 10 ^ whole.length := runValue_lt (isDigit_of_wholeDigits? hwhole)
        _ ≤ 10 ^ digitLimit := Nat.pow_le_pow_right (by norm_num) hlimit
    · exact .inr ⟨_, (Prod.mk.inj (Except.ok.inj h)).1.symm⟩
    · exact .inr ⟨_, (Prod.mk.inj (Except.ok.inj h)).1.symm⟩
  · have hinteger : Numeral.whole s (runDigits whole) = .error (.tooManyDigits whole.length) := by
      unfold Numeral.whole runDigits
      rw [List.length_map, if_neg hlimit]
    simp only [hinteger, Except.map] at h
    split_ifs at h
    exact .inr ⟨_, (Prod.mk.inj (Except.ok.inj h)).1.symm⟩

theorem fits_of_scalar {cs rest : List Char} (h : scalar rules cs = .ok (v, rest)) (hv : IsData v) :
    Fits rules depth v := by
  have hnumber : ∀ {s : Bool} {cs : List Char}, magnitude rules s cs = .ok (v, rest) →
      Fits rules depth v := by
    intro s cs h
    rcases number_of_magnitude h with ⟨n, rfl, hn⟩ | ⟨x, rfl⟩
    · exact .int hn
    · cases hv with
      | float hx => exact .float hx
  have hnone : ∀ {x : Binary64}, x.isFinite = false → ¬ IsData (.float x) := by
    intro x hx hdata
    cases hdata with
    | float hfinite => simp [hx] at hfinite
  unfold scalar at h
  dsimp only at h
  split at h
  -- one branch for each word, then the numbers
  · split at h <;> cases h
    exact .null
  · split at h <;> cases h
    exact .bool true
  · split at h <;> cases h
    exact .bool false
  · split at h <;> cases h
    exact absurd hv (hnone rfl)
  · split at h <;> cases h
    exact absurd hv (hnone rfl)
  · split at h <;> cases h
    exact absurd hv (hnone rfl)
  · exact hnumber h
  · exact hnumber h

theorem lt_of_tooNested? {inObject : Bool} (h : rules.tooNested? inObject depth = none) :
    depth < rules.depthLimit := by
  by_contra hnot
  simp [Rules.tooNested?, hnot] at h

/-- The result of a reading that was mapped is that of the reading. -/
theorem exists_of_map {α β : Type} {result : Reading α} {f : α → β} {b : β} {rest : List Char}
    (h : (result.map fun (a, left) => (f a, left)) = .ok (b, rest)) :
    ∃ a, result = .ok (a, rest) ∧ f a = b := by
  rcases result with why | ⟨a, left⟩
  · cases h
  · obtain ⟨rfl, rfl⟩ := Prod.mk.inj (Except.ok.inj h)
    exact ⟨a, rfl, rfl⟩

/-- What the reader reads with so much fuel fits its limits. -/
structure ReadsFitting (rules : Rules) (fuel : ℕ) : Prop where
  value : ∀ {depth cs v rest}, value rules depth fuel cs = .ok (v, rest) → IsData v →
    Fits rules depth v
  items : ∀ {depth cs vs rest}, items rules depth fuel cs = .ok (vs, rest) →
    ∀ v ∈ vs, IsData v → Fits rules depth v
  fields : ∀ {depth cs fs rest}, fields rules depth fuel cs = .ok (fs, rest) →
    ∀ f ∈ fs, IsData f.2 → Fits rules depth f.2

variable {fuel : ℕ} {cs rest : List Char}

theorem ReadsFitting.value_succ (ih : ReadsFitting rules fuel)
    (h : Json.value rules depth (fuel + 1) cs = .ok (v, rest)) (hv : IsData v) :
    Fits rules depth v := by
  unfold Json.value at h
  split at h
  · obtain ⟨s, -, rfl⟩ := exists_of_map (f := fun s => Value.text (String.ofList s)) h
    exact .text _
  · split at h
    · obtain ⟨rfl, -⟩ := Prod.mk.inj (Except.ok.inj h)
      exact .list (by simp) (by simp)
    · split at h
      · next hroom =>
        obtain ⟨vs, hvs, rfl⟩ := exists_of_map h
        cases hv with
        | list hdata =>
          exact .list (fun _ => lt_of_tooNested? hroom) fun w hw => ih.items hvs w hw (hdata w hw)
      · cases h
  · split at h
    · split at h
      · split at h
        · obtain ⟨rfl, -⟩ := Prod.mk.inj (Except.ok.inj h)
          exact .object (by simp) .nil (by simp)
        · split at h
          · next hroom =>
            obtain ⟨fs, hfs, rfl⟩ := exists_of_map (f := fun fs => Value.object (Fields.ofPairs fs)) h
            cases hv with
            | object hkeys hdata =>
              refine .object (fun _ => lt_of_tooNested? hroom) hkeys fun f hf => ?_
              -- a later field with the same key is one of those that were read
              have hmem := (Fields.mem_or_mem_of_mem_overlay hf).resolve_left List.not_mem_nil
              exact ih.fields hfs f hmem (hdata f hf)
          · cases h
      · cases h
    · exact fits_of_scalar h hv
  · cases h

theorem ReadsFitting.items_succ (ih : ReadsFitting rules fuel) {vs : List Value}
    (h : Json.items rules depth (fuel + 1) cs = .ok (vs, rest)) :
    ∀ v ∈ vs, IsData v → Fits rules depth v := by
  unfold Json.items at h
  split at h
  · cases h
  · next v behind hvalue =>
    split at h
    · obtain ⟨ws, hws, rfl⟩ := exists_of_map (f := fun ws => v :: ws) h
      exact List.forall_mem_cons.mpr ⟨ih.value hvalue, ih.items hws⟩
    · obtain ⟨rfl, -⟩ := Prod.mk.inj (Except.ok.inj h)
      exact List.forall_mem_singleton.mpr (ih.value hvalue)
    · cases h

theorem ReadsFitting.fields_succ (ih : ReadsFitting rules fuel) {fs : List (String × Value)}
    (h : Json.fields rules depth (fuel + 1) cs = .ok (fs, rest)) :
    ∀ f ∈ fs, IsData f.2 → Fits rules depth f.2 := by
  unfold Json.fields at h
  split at h
  · split at h
    · cases h
    · next key behind hkey =>
      split at h
      · split at h
        · cases h
        · next v behind hvalue =>
          split at h
          · obtain ⟨gs, hgs, rfl⟩ := exists_of_map (f := fun gs => (String.ofList key, v) :: gs) h
            exact List.forall_mem_cons.mpr ⟨ih.value hvalue, ih.fields hgs⟩
          · split at h
            · obtain ⟨rfl, -⟩ := Prod.mk.inj (Except.ok.inj h)
              exact List.forall_mem_singleton.mpr (ih.value hvalue)
            · cases h
          · cases h
      · cases h
  · cases h

theorem readsFitting (rules : Rules) (fuel : ℕ) : ReadsFitting rules fuel := by
  induction fuel with
  | zero => constructor <;> (intro _ _ _ _ h; cases h)
  | succ fuel ih =>
    exact ⟨fun h hv => ih.value_succ h hv, fun h => ih.items_succ h, fun h => ih.fields_succ h⟩

/-- What is read from a text fits the limits of the reader, if its numbers are finite. -/
theorem fits_of_read {s : String} (h : read rules s = .ok v) (hv : IsData v) : Fits rules 0 v := by
  unfold read readChars at h
  split at h
  · cases h
  · next hvalue =>
    split at h
    · obtain rfl := Except.ok.inj h
      exact (readsFitting rules _).value hvalue hv
    · cases h

/-- A text stands for the data that is read from it with the limits for data. -/
theorem data?_eq_some_iff {s : String} : data? s = .ok (some v) ↔ read .data s = .ok v := by
  unfold data? dataOfChars? read
  rcases readChars .data s.toList with why | w
  · cases why <;> simp [Fault.ofUnreadable?]
  · simp

end Automation.Json
