/-
Automation/Proofs/Json/RoundTrip.lean

Values as structured text, written and read again.

A value that fits the limits of a reader (`Fits`) is read back as it was written, the order of its
fields and the kinds of its numbers included (`read_print`), whatever blanks stand behind the
separators.  The induction is on the value; the reader's fuel is at least the length of the text, so
that it never runs out.
-/
import Automation.Proofs.Fields
import Automation.Proofs.Json.Number
import Automation.Proofs.Json.Text

namespace Automation.Json

open Numeral (digitLimit)

/-- The value can be read inside `depth` lists and objects: no object has a key twice, no number is
infinite or none, no integer has too many digits, and nothing is nested too deeply. -/
inductive Fits (rules : Rules) : ℕ → Value → Prop
  | null {depth : ℕ} : Fits rules depth .null
  | bool {depth : ℕ} (b : Bool) : Fits rules depth (.bool b)
  | int {depth : ℕ} {n : ℤ} (digits : n.natAbs < 10 ^ digitLimit) : Fits rules depth (.int n)
  | float {depth : ℕ} {x : Binary64} (finite : x.isFinite = true) : Fits rules depth (.float x)
  | text {depth : ℕ} (s : String) : Fits rules depth (.text s)
  | list {depth : ℕ} {vs : List Value} (room : vs ≠ [] → depth < rules.depthLimit)
      (items : ∀ v ∈ vs, Fits rules (depth + 1) v) : Fits rules depth (.list vs)
  | object {depth : ℕ} {fs : Fields Value} (room : fs ≠ [] → depth < rules.depthLimit)
      (keys : fs.keys.Nodup) (values : ∀ f ∈ fs, Fits rules (depth + 1) f.2) :
      Fits rules depth (.object fs)

/-- A separator with blanks behind it. -/
def IsSeparator (mark : Char) (s : String) : Prop :=
  ∃ blanks, s.toList = mark :: blanks ∧ ∀ c ∈ blanks, isSpace c = true

/-- A style with the separators of the grammar. -/
structure Style.Regular (style : Style) : Prop where
  items : IsSeparator ',' style.betweenItems
  key : IsSeparator ':' style.afterKey

theorem regular_strict : Style.Regular .strict := ⟨⟨[], rfl, by simp⟩, ⟨[], rfl, by simp⟩⟩

theorem regular_spaced : Style.Regular .spaced :=
  have hblank : ∀ c ∈ [' '], isSpace c = true := List.forall_mem_singleton.mpr rfl
  ⟨⟨[' '], rfl, hblank⟩, ⟨[' '], rfl, hblank⟩⟩

/-! ### Blanks -/

theorem skipSpace_cons {c : Char} (h : isSpace c = false) (cs : List Char) :
    skipSpace (c :: cs) = c :: cs := by
  unfold skipSpace
  rw [List.dropWhile_cons_of_neg (by simp [h])]

theorem skipSpace_append {blanks : List Char} (h : ∀ c ∈ blanks, isSpace c = true) (cs : List Char) :
    skipSpace (blanks ++ cs) = skipSpace cs := by
  unfold skipSpace
  exact List.dropWhile_append_of_pos h

/-- The text begins with the first character of a value. -/
def Opens (cs : List Char) : Prop :=
  ∃ c rest, cs = c :: rest ∧ isSpace c = false ∧ c ≠ ']' ∧ c.toNat ≠ 0x7D

theorem Opens.append {cs : List Char} (h : Opens cs) (more : List Char) : Opens (cs ++ more) := by
  obtain ⟨c, rest, rfl, hc⟩ := h
  exact ⟨c, rest ++ more, rfl, hc⟩

theorem Opens.skipSpace {cs : List Char} (h : Opens cs) : skipSpace cs = cs := by
  obtain ⟨c, rest, rfl, hspace, -⟩ := h
  exact skipSpace_cons hspace rest

theorem opens_of_digit {c : Char} (hc : c.isDigit = true) (cs : List Char) : Opens (c :: cs) := by
  obtain ⟨hlow, hhigh⟩ := toNat_of_isDigit hc
  refine ⟨c, cs, rfl, ?_, ne_of_isDigit hc rfl, by omega⟩
  have hne : ∀ {d : Char}, d.isDigit = false → c ≠ d := fun hd => ne_of_isDigit hc hd
  simp [isSpace, hne]

theorem opens_of_sign {b : Prop} [Decidable b] {cs : List Char} (h : Opens cs) :
    Opens ((if b then ['-'] else []) ++ cs) := by
  split
  · exact ⟨'-', cs, rfl, rfl, by decide, by decide⟩
  · exact h

theorem opens_intText (n : ℤ) : Opens (intText n) := by
  obtain ⟨c, cs, htext, hc⟩ := exists_digit_intText n
  rw [htext]
  exact opens_of_sign (opens_of_digit hc cs)

variable {rules : Rules} {style : Style} {depth : ℕ} {v : Value}

theorem opens_chars (h : Fits rules depth v) : Opens (chars style v) := by
  cases h with
  | null => exact ⟨'n', _, rfl, rfl, by decide, by decide⟩
  | bool b => cases b <;> exact ⟨_, _, rfl, rfl, by decide, by decide⟩
  | @int _ n _ => exact opens_intText n
  | @float _ x hfinite =>
    cases x with
    | nan => cases hfinite
    | infinite => cases hfinite
    | finite s m e hc =>
      obtain ⟨c, cs, htext, hdigit⟩ := exists_digit_structured (s := s) hc
      have hchars : chars style (.float (.finite s m e hc)) = Layout.structured.text (.finite s m e hc) :=
        if_pos (Bool.or_true _)
      rw [hchars, htext]
      exact opens_of_sign (opens_of_digit hdigit cs)
  | text s => exact ⟨'"', _, rfl, rfl, by decide, by decide⟩
  | @list _ vs _ _ => cases vs <;> exact ⟨'[', _, rfl, rfl, by decide, by decide⟩
  | @object _ fs _ _ _ => cases fs <;> exact ⟨Char.ofNat 0x7B, _, rfl, rfl, by decide, by decide⟩

/-! ### Brackets around a value -/

theorem getLast?_itemsTail (style : Style) (vs : List Value) :
    (itemsTail style vs).getLast? = some ']' := by
  induction vs with
  | nil => rw [itemsTail]; rfl
  | cons v vs ih => rw [itemsTail, List.getLast?_append, ih]; rfl

theorem getLast?_fieldsTail (style : Style) (fs : List (String × Value)) :
    (fieldsTail style fs).getLast? = some (Char.ofNat 0x7D) := by
  induction fs with
  | nil => rw [fieldsTail]; rfl
  | cons f fs ih => rw [fieldsTail, List.getLast?_append, ih]; rfl

/-- A list stands between its brackets. -/
theorem ends_chars_list (style : Style) (vs : List Value) :
    (chars style (.list vs)).head? = some '[' ∧ (chars style (.list vs)).getLast? = some ']' := by
  cases vs with
  | nil => rw [chars]; exact ⟨rfl, rfl⟩
  | cons v vs =>
    rw [chars, List.getLast?_append, getLast?_itemsTail]
    exact ⟨rfl, rfl⟩

/-- An object stands between its braces. -/
theorem ends_chars_object (style : Style) (fs : Fields Value) :
    (chars style (.object fs)).head? = some (Char.ofNat 0x7B) ∧
      (chars style (.object fs)).getLast? = some (Char.ofNat 0x7D) := by
  cases fs with
  | nil => rw [chars]; exact ⟨rfl, rfl⟩
  | cons f fs =>
    rw [chars, List.getLast?_append, getLast?_fieldsTail]
    exact ⟨rfl, rfl⟩

/-! ### Values that are read back -/

/-- The value is read as it is written, whatever stands behind it. -/
def ReadsBack (rules : Rules) (style : Style) (depth : ℕ) (v : Value) : Prop :=
  ∀ fuel rest, (chars style v).length ≤ fuel → EndsNumber rest →
    value rules depth fuel (chars style v ++ rest) = .ok (v, rest)

theorem endsNumber_cons {c : Char} (hc : c = ',' ∨ c = ']' ∨ c = Char.ofNat 0x7D) (cs : List Char) :
    EndsNumber (c :: cs) := by
  intro d hd
  obtain rfl : c = d := by simpa using hd
  rcases hc with rfl | rfl | rfl <;> decide

/-- A word or a number is told by its first character. -/
theorem value_eq_scalar {fuel : ℕ} {c : Char} {cs : List Char} (hquote : c ≠ '"') (hlist : c ≠ '[')
    (hobject : c.toNat ≠ 0x7B) :
    value rules depth (fuel + 1) (c :: cs) = scalar rules (c :: cs) := by
  rw [value.eq_4 _ _ _ _ _ hquote hlist, if_neg hobject]

theorem value_eq_scalar_of_digit {fuel : ℕ} {b : Prop} [Decidable b] {c : Char} {cs : List Char}
    (hc : c.isDigit = true) : value rules depth (fuel + 1) ((if b then ['-'] else []) ++ c :: cs) =
      scalar rules ((if b then ['-'] else []) ++ c :: cs) := by
  split
  · exact value_eq_scalar (by decide) (by decide) (by decide)
  · obtain ⟨hlow, hhigh⟩ := toNat_of_isDigit hc
    exact value_eq_scalar (ne_of_isDigit hc rfl) (ne_of_isDigit hc rfl) (by omega)

theorem value_intText {fuel : ℕ} (n : ℤ) (rest : List Char) :
    value rules depth (fuel + 1) (intText n ++ rest) = scalar rules (intText n ++ rest) := by
  obtain ⟨c, cs, htext, hc⟩ := exists_digit_intText n
  rw [htext, List.append_assoc]
  exact value_eq_scalar_of_digit hc

/-! ### Steps of the reader -/

section Steps

variable {fuel : ℕ} {cs more blanks rest : List Char} {k : String} {vs : List Value}
  {fs : List (String × Value)}

theorem items_last (h : value rules depth fuel cs = .ok (v, ']' :: rest)) :
    items rules depth (fuel + 1) cs = .ok ([v], rest) := by
  rw [items.eq_2, h]
  rfl

theorem items_more (hblanks : ∀ c ∈ blanks, isSpace c = true) (hmore : Opens more)
    (h : value rules depth fuel cs = .ok (v, ',' :: (blanks ++ more)))
    (hitems : items rules depth fuel more = .ok (vs, rest)) :
    items rules depth (fuel + 1) cs = .ok (v :: vs, rest) := by
  rw [items.eq_2, h]
  simp only [skipSpace_cons (show isSpace ',' = false from rfl), skipSpace_append hblanks,
    hmore.skipSpace, hitems]
  rfl

theorem fields_last (hblanks : ∀ c ∈ blanks, isSpace c = true) (hmore : Opens more)
    (hkey : textBody rules cs = .ok (k.toList, ':' :: (blanks ++ more)))
    (h : value rules depth fuel more = .ok (v, Char.ofNat 0x7D :: rest)) :
    fields rules depth (fuel + 1) ('"' :: cs) = .ok ([(k, v)], rest) := by
  rw [fields.eq_2, hkey]
  simp only [skipSpace_cons (show isSpace ':' = false from rfl), skipSpace_append hblanks,
    hmore.skipSpace, String.ofList_toList, h]
  rfl

theorem fields_more {blanks' next : List Char} (hblanks : ∀ c ∈ blanks, isSpace c = true)
    (hmore : Opens more) (hkey : textBody rules cs = .ok (k.toList, ':' :: (blanks ++ more)))
    (h : value rules depth fuel more = .ok (v, ',' :: (blanks' ++ '"' :: next)))
    (hblanks' : ∀ c ∈ blanks', isSpace c = true)
    (hfields : fields rules depth fuel ('"' :: next) = .ok (fs, rest)) :
    fields rules depth (fuel + 1) ('"' :: cs) = .ok ((k, v) :: fs, rest) := by
  rw [fields.eq_2, hkey]
  simp only [skipSpace_cons (show isSpace ':' = false from rfl), skipSpace_append hblanks,
    hmore.skipSpace, String.ofList_toList, h, skipSpace_cons (show isSpace ',' = false from rfl),
    skipSpace_append hblanks', skipSpace_cons (show isSpace '"' = false from rfl), hfields]
  rfl

end Steps

/-! ### Lists and objects -/

/-- A list is read element by element. -/
theorem items_append (hstyle : style.Regular) {vs : List Value} {v : Value}
    (hread : ∀ w ∈ v :: vs, ReadsBack rules style depth w ∧ Opens (chars style w)) {fuel : ℕ}
    (hfuel : (chars style v ++ itemsTail style vs).length ≤ fuel) (rest : List Char) :
    items rules depth fuel (chars style v ++ (itemsTail style vs ++ rest)) = .ok (v :: vs, rest) := by
  obtain ⟨blanks, hitems, hblanks⟩ := hstyle.items
  induction vs generalizing v fuel with
  | nil =>
    have htail : itemsTail style [] = [']'] := by rw [itemsTail]
    rw [htail, List.length_append, List.length_singleton] at hfuel
    obtain ⟨fuel, rfl⟩ := Nat.exists_eq_add_of_le' (Nat.le_of_add_left_le hfuel)
    have hv := (hread v List.mem_cons_self).1 fuel (']' :: rest) (by omega)
      (endsNumber_cons (.inr (.inl rfl)) rest)
    rw [htail]
    exact items_last hv
  | cons w vs ih =>
    obtain ⟨⟨hv, -⟩, hmore⟩ := List.forall_mem_cons.mp hread
    have htail : itemsTail style (w :: vs) =
        ',' :: (blanks ++ (chars style w ++ itemsTail style vs)) := by
      rw [itemsTail, hitems]
      simp
    rw [htail] at hfuel ⊢
    simp only [List.length_append, List.length_cons] at hfuel
    obtain ⟨fuel, rfl⟩ := Nat.exists_eq_add_of_le' (show 1 ≤ fuel by omega)
    have hopen : Opens (chars style w ++ (itemsTail style vs ++ rest)) :=
      (hmore w List.mem_cons_self).2.append _
    have hfirst := hv fuel (',' :: (blanks ++ (chars style w ++ (itemsTail style vs ++ rest))))
      (by omega) (endsNumber_cons (.inl rfl) _)
    have hrest := ih hmore (show (chars style w ++ itemsTail style vs).length ≤ fuel by
      rw [List.length_append]
      omega)
    simpa using items_more hblanks hopen hfirst hrest

/-- The text of the fields that begin with the given one, up to the end of their object. -/
def fieldsText (style : Style) (k : String) (v : Value) (fs : List (String × Value)) : List Char :=
  quoted k ++ style.afterKey.toList ++ chars style v ++ fieldsTail style fs

theorem fieldsText_append {blanks : List Char} (hafter : style.afterKey.toList = ':' :: blanks)
    (k : String) (v : Value) (fs : List (String × Value)) (rest : List Char) :
    fieldsText style k v fs ++ rest = '"' :: (k.toList.flatMap charText ++
      '"' :: ':' :: (blanks ++ (chars style v ++ (fieldsTail style fs ++ rest)))) := by
  simp [fieldsText, quoted, hafter]

/-- An object is read field by field. -/
theorem fields_append (hstyle : style.Regular) {fs : List (String × Value)} {k : String} {v : Value}
    (hread : ∀ f ∈ (k, v) :: fs, ReadsBack rules style depth f.2 ∧ Opens (chars style f.2))
    {fuel : ℕ} (hfuel : (fieldsText style k v fs).length ≤ fuel) (rest : List Char) :
    fields rules depth fuel (fieldsText style k v fs ++ rest) = .ok ((k, v) :: fs, rest) := by
  obtain ⟨blanks, hitems, hblanks⟩ := hstyle.items
  obtain ⟨blanks', hafter, hblanks'⟩ := hstyle.key
  have hkey : ∀ (k : String) (cs : List Char),
      textBody rules (k.toList.flatMap charText ++ '"' :: cs) = .ok (k.toList, cs) :=
    fun k cs => textBody_flatMap rules k.toList cs
  induction fs generalizing k v fuel with
  | nil =>
    obtain ⟨hv, hopen⟩ := hread (k, v) List.mem_cons_self
    have htail : fieldsTail style [] = [Char.ofNat 0x7D] := by rw [fieldsTail]
    have hlength : (chars style v).length + 1 ≤ (fieldsText style k v []).length := by
      simp [fieldsText, htail]
      omega
    obtain ⟨fuel, rfl⟩ := Nat.exists_eq_add_of_le' (show 1 ≤ fuel by omega)
    have hfirst := hv fuel (Char.ofNat 0x7D :: rest) (show (chars style v).length ≤ fuel by omega)
      (endsNumber_cons (.inr (.inr rfl)) rest)
    rw [fieldsText_append hafter, htail]
    exact fields_last hblanks' (hopen.append _) (hkey k _) hfirst
  | cons f fs ih =>
    obtain ⟨l, w⟩ := f
    obtain ⟨⟨hv, hopen⟩, hmore⟩ := List.forall_mem_cons.mp hread
    have htail : fieldsTail style ((l, w) :: fs) = ',' :: (blanks ++ fieldsText style l w fs) := by
      rw [fieldsTail, hitems, fieldsText]
      simp
    have hlength : (chars style v).length + (fieldsText style l w fs).length + 1 ≤
        (fieldsText style k v ((l, w) :: fs)).length := by
      simp [fieldsText, htail]
      omega
    obtain ⟨fuel, rfl⟩ := Nat.exists_eq_add_of_le' (show 1 ≤ fuel by omega)
    have hnext := fieldsText_append hafter l w fs rest
    have hfirst := hv fuel (',' :: (blanks ++ (fieldsText style l w fs ++ rest)))
      (show (chars style v).length ≤ fuel by omega) (endsNumber_cons (.inl rfl) _)
    have hrest := ih hmore (show (fieldsText style l w fs).length ≤ fuel by omega)
    rw [hnext] at hfirst hrest
    rw [fieldsText_append hafter, htail, List.cons_append, List.append_assoc, hnext]
    exact fields_more hblanks' (hopen.append _) (hkey k _) hfirst hblanks hrest

/-! ### Values -/

theorem tooNested?_of_lt {inObject : Bool} (h : depth < rules.depthLimit) :
    rules.tooNested? inObject depth = none := if_pos h

theorem value_of_items {fuel : ℕ} {cs rest : List Char} {vs : List Value} (hopen : Opens cs)
    (hdepth : depth < rules.depthLimit) (h : items rules (depth + 1) fuel cs = .ok (vs, rest)) :
    value rules depth (fuel + 1) ('[' :: cs) = .ok (.list vs, rest) := by
  obtain ⟨c, more, rfl, hspace, hend, -⟩ := hopen
  rw [value.eq_3, skipSpace_cons hspace]
  split
  · next heq => exact absurd (List.cons.inj heq).1 hend
  · rw [tooNested?_of_lt hdepth, h]
    rfl

theorem value_of_fields {fuel : ℕ} {cs rest : List Char} {fs : List (String × Value)}
    (hkeys : (Fields.keys fs).Nodup) (hdepth : depth < rules.depthLimit)
    (h : fields rules (depth + 1) fuel ('"' :: cs) = .ok (fs, rest)) :
    value rules depth (fuel + 1) (Char.ofNat 0x7B :: '"' :: cs) = .ok (.object fs, rest) := by
  have hsame : Fields.ofPairs fs = fs := Fields.nil_overlay hkeys
  rw [value.eq_4 _ _ _ _ _ (by decide) (by decide), if_pos (by decide),
    skipSpace_cons (show isSpace '"' = false from rfl)]
  simp only [tooNested?_of_lt hdepth, h, Except.map, hsame]
  rfl

/-- A text that is not empty takes fuel. -/
theorem readsBack_of_succ (hopen : Opens (chars style v))
    (h : ∀ fuel rest, (chars style v).length ≤ fuel + 1 → EndsNumber rest →
      value rules depth (fuel + 1) (chars style v ++ rest) = .ok (v, rest)) :
    ReadsBack rules style depth v := by
  intro fuel rest hfuel hends
  obtain ⟨c, cs, htext, -⟩ := hopen
  rw [htext, List.length_cons] at hfuel
  obtain ⟨fuel, rfl⟩ := Nat.exists_eq_add_of_le' (show 1 ≤ fuel by omega)
  exact h fuel rest (by rwa [htext, List.length_cons]) hends

/-- A value that fits is read as it is written. -/
theorem readsBack_of_fits (hstyle : style.Regular) (h : Fits rules depth v) :
    ReadsBack rules style depth v := by
  obtain ⟨blanks, hafter, -⟩ := hstyle.key
  induction h with
  | @null depth =>
    have hfits : Fits rules depth .null := .null
    exact readsBack_of_succ (opens_chars hfits) fun fuel rest _ _ =>
      (value_eq_scalar (by decide) (by decide) (by decide)).trans rfl
  | @bool depth b =>
    have hfits : Fits rules depth (.bool b) := .bool b
    refine readsBack_of_succ (opens_chars hfits) fun fuel rest _ _ => ?_
    cases b <;> exact (value_eq_scalar (by decide) (by decide) (by decide)).trans rfl
  | @int depth n hn =>
    have hfits : Fits rules depth (.int n) := .int hn
    refine readsBack_of_succ (opens_chars hfits) fun fuel rest _ hends => ?_
    exact (value_intText n rest).trans (scalar_intText rules hn hends)
  | @float depth x hx =>
    have hfits : Fits rules depth (.float x) := .float hx
    refine readsBack_of_succ (opens_chars hfits) fun fuel rest _ hends => ?_
    have hread := scalar_structured rules hx hends
    have hchars : chars style (.float x) = Layout.structured.text x := by
      rw [chars, floatText, hx, Bool.or_true, if_pos rfl]
    cases x with
    | nan => cases hx
    | infinite => cases hx
    | finite s m e hc =>
      obtain ⟨c, cs, htext, hdigit⟩ := exists_digit_structured (s := s) hc
      rw [hchars]
      rw [htext, List.append_assoc] at hread ⊢
      exact (value_eq_scalar_of_digit hdigit).trans hread
  | @text depth s =>
    have hfits : Fits rules depth (.text s) := .text s
    refine readsBack_of_succ (opens_chars hfits) fun fuel rest _ _ => ?_
    show value rules depth (fuel + 1) ('"' :: (s.toList.flatMap charText ++ ['"'] ++ rest)) = _
    rw [List.append_assoc, value.eq_2]
    show Except.map _ (textBody rules (s.toList.flatMap charText ++ '"' :: rest)) = _
    rw [textBody_flatMap]
    simp [Except.map]
  | @list depth vs hroom hvs ih =>
    refine readsBack_of_succ (opens_chars (.list hroom hvs)) fun fuel rest hfuel _ => ?_
    cases vs with
    | nil =>
      rw [chars]
      rfl
    | cons v vs =>
      have hread : ∀ w ∈ v :: vs, ReadsBack rules style (depth + 1) w ∧ Opens (chars style w) :=
        fun w hw => ⟨ih w hw, opens_chars (hvs w hw)⟩
      have hopen := (hread v List.mem_cons_self).2
      rw [chars, List.cons_append, List.length_cons] at hfuel
      have hitems := items_append hstyle hread (Nat.le_of_succ_le_succ hfuel) rest
      rw [chars, List.cons_append, List.cons_append, List.append_assoc]
      exact value_of_items (hopen.append _) (hroom (by simp)) hitems
  | @object depth fs hroom hkeys hfs ih =>
    refine readsBack_of_succ (opens_chars (.object hroom hkeys hfs)) fun fuel rest hfuel _ => ?_
    cases fs with
    | nil =>
      rw [chars]
      rfl
    | cons f fs =>
      obtain ⟨k, v⟩ := f
      have hread : ∀ f ∈ (k, v) :: fs, ReadsBack rules style (depth + 1) f.2 ∧
          Opens (chars style f.2) := fun f hf => ⟨ih f hf, opens_chars (hfs f hf)⟩
      have htext : chars style (.object ((k, v) :: fs)) =
          Char.ofNat 0x7B :: fieldsText style k v fs := by
        rw [chars, fieldsText]
        rfl
      rw [htext, List.length_cons] at hfuel
      have hfields := fields_append hstyle hread (Nat.le_of_succ_le_succ hfuel) rest
      rw [htext, List.cons_append]
      rw [fieldsText_append hafter] at hfields ⊢
      exact value_of_fields hkeys (hroom (by simp)) hfields

/-- A value that fits is read back from its text. -/
theorem read_print (hstyle : style.Regular) (h : Fits rules 0 v) :
    read rules (print style v) = .ok v := by
  have hread := readsBack_of_fits hstyle h ((chars style v).length + 1) [] (Nat.le_succ _)
    (by simp [EndsNumber])
  rw [List.append_nil] at hread
  unfold read readChars print
  rw [String.toList_ofList, (opens_chars h).skipSpace, hread]
  rfl

/-! ### Texts that cannot be read -/

section Errors

variable {fuel : ℕ} {cs more blanks : List Char} {k : String} {why : Unreadable}

theorem items_of_error (h : value rules depth fuel cs = .error why) :
    items rules depth (fuel + 1) cs = .error why := by
  rw [items.eq_2, h]

theorem value_of_items_error (hopen : Opens cs) (hdepth : depth < rules.depthLimit)
    (h : items rules (depth + 1) fuel cs = .error why) :
    value rules depth (fuel + 1) ('[' :: cs) = .error why := by
  obtain ⟨c, more, rfl, hspace, hend, -⟩ := hopen
  rw [value.eq_3, skipSpace_cons hspace]
  split
  · next heq => exact absurd (List.cons.inj heq).1 hend
  · rw [tooNested?_of_lt hdepth, h]
    rfl

theorem fields_of_error (hblanks : ∀ c ∈ blanks, isSpace c = true) (hmore : Opens more)
    (hkey : textBody rules cs = .ok (k.toList, ':' :: (blanks ++ more)))
    (h : value rules depth fuel more = .error why) :
    fields rules depth (fuel + 1) ('"' :: cs) = .error why := by
  rw [fields.eq_2, hkey]
  simp only [skipSpace_cons (show isSpace ':' = false from rfl), skipSpace_append hblanks,
    hmore.skipSpace, h]

theorem value_of_fields_error (hdepth : depth < rules.depthLimit)
    (h : fields rules (depth + 1) fuel ('"' :: cs) = .error why) :
    value rules depth (fuel + 1) (Char.ofNat 0x7B :: '"' :: cs) = .error why := by
  rw [value.eq_4 _ _ _ _ _ (by decide) (by decide), if_pos (by decide),
    skipSpace_cons (show isSpace '"' = false from rfl)]
  simp only [tooNested?_of_lt hdepth, h]
  rfl

end Errors

/-! ### Integers that are too long -/

theorem value_of_long {n : ℤ} (hn : ¬ n.natAbs < 10 ^ digitLimit) {fuel : ℕ} {rest : List Char}
    (hends : EndsNumber rest) : value rules depth (fuel + 1) (intText n ++ rest) =
      .error (.tooManyDigits (Decimal.length n.natAbs)) := by
  rw [value_intText, scalar_intText_eq, magnitude_of_long rules _ hn hends]

/-- An integer that is too long makes the list around it unreadable. -/
theorem read_of_long {n : ℤ} (hn : ¬ n.natAbs < 10 ^ digitLimit) (hdepth : 0 < rules.depthLimit) :
    read rules (print style (.list [.int n])) =
      .error (.tooManyDigits (Decimal.length n.natAbs)) := by
  have htext : chars style (.list [.int n]) = '[' :: (intText n ++ [']']) := by
    rw [chars, itemsTail]
    rfl
  have hends : EndsNumber [']'] := endsNumber_cons (.inr (.inl rfl)) []
  have hvalue : ∀ fuel, value rules 0 (fuel + 3) ('[' :: (intText n ++ [']'])) =
      .error (.tooManyDigits (Decimal.length n.natAbs)) := fun fuel =>
    value_of_items_error ((opens_intText n).append [']']) hdepth
      (items_of_error (value_of_long hn hends))
  unfold read readChars print
  rw [String.toList_ofList, htext, skipSpace_cons rfl, List.length_cons, List.length_append,
    List.length_singleton, hvalue]

theorem endsNumber_fieldsTail (hstyle : style.Regular) (fs : List (String × Value))
    (rest : List Char) : EndsNumber (fieldsTail style fs ++ rest) := by
  obtain ⟨blanks, hitems, -⟩ := hstyle.items
  cases fs with
  | nil =>
    rw [fieldsTail]
    exact endsNumber_cons (.inr (.inr rfl)) rest
  | cons f fs =>
    obtain ⟨k, v⟩ := f
    rw [fieldsTail, hitems]
    exact endsNumber_cons (.inl rfl) _

/-- So does one that is the first field of an object in a list. -/
theorem read_of_long_field (hstyle : style.Regular) {n : ℤ}
    (hn : ¬ n.natAbs < 10 ^ digitLimit) (hdepth : 1 < rules.depthLimit) (k : String)
    (fs : List (String × Value)) :
    read rules (print style (.list [.object ((k, .int n) :: fs)])) =
      .error (.tooManyDigits (Decimal.length n.natAbs)) := by
  obtain ⟨blanks, hafter, hblanks⟩ := hstyle.key
  have htext : chars style (.list [.object ((k, .int n) :: fs)]) =
      '[' :: Char.ofNat 0x7B :: (fieldsText style k (.int n) fs ++ [']']) := by
    rw [chars, chars, itemsTail, fieldsText]
    simp
  have hint : chars style (.int n) = intText n := by rw [chars]
  have hfields : ∀ fuel, fields rules 2 (fuel + 2) (fieldsText style k (.int n) fs ++ [']']) =
      .error (.tooManyDigits (Decimal.length n.natAbs)) := by
    intro fuel
    rw [fieldsText_append hafter, hint]
    exact fields_of_error hblanks ((opens_intText n).append _)
      (textBody_flatMap rules k.toList _) (value_of_long hn (endsNumber_fieldsTail hstyle fs _))
  have hvalue : ∀ fuel, value rules 0 (fuel + 5)
      ('[' :: Char.ofNat 0x7B :: (fieldsText style k (.int n) fs ++ [']'])) =
        .error (.tooManyDigits (Decimal.length n.natAbs)) := by
    intro fuel
    have hread := hfields fuel
    rw [fieldsText_append hafter] at hread ⊢
    have hopen : ∀ cs, Opens (Char.ofNat 0x7B :: cs) :=
      fun cs => ⟨_, cs, rfl, rfl, by decide, by decide⟩
    exact value_of_items_error (hopen _) (Nat.lt_trans Nat.zero_lt_one hdepth)
      (items_of_error (value_of_fields_error hdepth hread))
  -- the text has more characters than the reader goes down to find the integer
  have hlength : ∃ fuel, (chars style (.list [.object ((k, .int n) :: fs)])).length + 1 =
      fuel + 5 := by
    apply Nat.exists_eq_add_of_le'
    rw [htext, fieldsText_append hafter]
    simp only [List.length_cons, List.length_append]
    omega
  obtain ⟨fuel, hfuel⟩ := hlength
  unfold read readChars print
  rw [String.toList_ofList, hfuel, htext, skipSpace_cons rfl, hvalue]

end Automation.Json
