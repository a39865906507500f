/-
Automation/Proofs/Value/Path.lean

Paths read back.

An address leads into a value by keys and indices.  Its path is written segment by segment: a
segment is a key or an index, with indices in brackets behind it, or indices in brackets alone
(`Written`).  Reading the text gives back the segments (`Path.ofText_write`), so that following it
takes the steps of the address one after another (`Value.at_write`).  Each of them is taken as it
is meant, or leads to null.  So the path leads to what is at its address, and to null if some step
leads to nothing (`Value.at_address`).
-/
import Automation.Proofs.Number.Numeral
import Automation.Proofs.Text.Blank
import Automation.Proofs.Value
import Automation.Value.Path

namespace Automation

open Automation.Text
open Numeral (IsShort takeDigits)

/-! ### Addresses -/

/-- A step into a value: to what is under a key, or to an element. -/
inductive Access
  | key (name : String)
  /-- A negative index counts from the end. -/
  | index (i : ℤ)

/-- A step as it stands between two dots. -/
def Access.text : Access → String
  | key name => name
  | index i => String.ofList (Json.intText i)

namespace Value

/-- What a step leads to. -/
def child? : Value → Access → Option Value
  | object fields, .key name => Fields.get? fields name
  | table entries, .key name => Entries.get? entries name
  | list items, .index i =>
    if 0 ≤ i then items[i.toNat]?
    else if -(items.length : ℤ) ≤ i then items[(items.length + i).toNat]?
    else none
  | _, _ => none

/-- What an address leads to. -/
def descend? (v : Value) (address : List Access) : Option Value := address.foldlM child? v

/-- A step leads to nothing, in whatever way it is written. -/
def Lacks : Value → Access → Prop
  | object fields, step => Fields.get? fields step.text = none
  | table entries, step => Entries.get? entries step.text = none
  | list items, .index i => i < -(items.length : ℤ) ∨ (items.length : ℤ) ≤ i
  | list _, .key name => Numeral.int? name = none
  | _, _ => True

/-- Some step of an address leads to nothing. -/
inductive Misses : Value → List Access → Prop
  | here {v : Value} {step : Access} {rest : List Access} : v.Lacks step → v.Misses (step :: rest)
  | there {v u : Value} {step : Access} {rest : List Access} :
    v.child? step = some u → u.Misses rest → v.Misses (step :: rest)

end Value

/-! ### Paths as they are written -/

/-- A name that can stand between two dots. -/
structure IsName (name : String) : Prop where
  nonempty : name ≠ ""
  trimmed : strip name = name
  chars : ∀ c ∈ name.toList, c ≠ '.' ∧ c ≠ '[' ∧ c ≠ ']'

instance (name : String) : Decidable (IsName name) :=
  decidable_of_iff (name ≠ "" ∧ strip name = name ∧
      (name.toList.all fun c => c != '.' && c != '[' && c != ']') = true)
    ⟨fun h => ⟨h.1, h.2.1, by simpa [and_assoc] using h.2.2⟩,
      fun h => ⟨h.nonempty, h.trimmed, by simpa [and_assoc] using h.chars⟩⟩

/-- A step of a path as it is written: between dots, or as an index in brackets. -/
inductive Part
  | dotted (step : Access)
  | bracketed (i : ℤ)

namespace Part

/-- The step that is written. -/
def step : Part → Access
  | dotted step => step
  | bracketed i => .index i

/-- What the step reads of a value. -/
def read (v : Value) : Part → Value
  | dotted step => v.member step.text
  | bracketed i => v.element i

end Part

/-- A segment as it is written: a step, or none, with indices in brackets behind it. -/
structure Written where
  front : Option Access
  behind : List ℤ

namespace Written

/-- An index in brackets. -/
def bracketChars (i : ℤ) : List Char := '[' :: (Json.intText i ++ [']'])

/-- What stands in front of the brackets. -/
def name (w : Written) : String := w.front.elim "" Access.text

/-- The characters of a segment. -/
def chars (w : Written) : List Char := w.name.toList ++ w.behind.flatMap bracketChars

/-- The steps of a segment. -/
def parts (w : Written) : List Part := w.front.toList.map .dotted ++ w.behind.map .bracketed

/-- Keys are names, and something is written at all. -/
structure Proper (w : Written) : Prop where
  key : ∀ name, w.front = some (.key name) → IsName name
  nonempty : w.front ≠ none ∨ w.behind ≠ []

/-- The indices in brackets have few enough digits to be read. -/
def HasShortBrackets (w : Written) : Prop := ∀ i ∈ w.behind, IsShort i

end Written

namespace Path

/-- The text of a path. -/
def write (ws : List Written) : String := String.ofList (['.'].intercalate (ws.map Written.chars))

/-- The steps of a path. -/
def parts (ws : List Written) : List Part := ws.flatMap Written.parts

/-- The address that a path is written for. -/
def address (ws : List Written) : List Access := (parts ws).map Part.step

end Path

/-! ### Reading indices -/

/-- An index with the sign and the digits of an integer. -/
def Index.ofInt (i : ℤ) : Index :=
  ⟨decide (i < 0), (Decimal.digitChars i.natAbs).map fun c => c.toNat - 0x30⟩

theorem Index.toInt_ofInt {i : ℤ} (h : IsShort i) : (ofInt i).toInt = .ok i := by
  unfold toInt ofInt
  rw [Numeral.whole_digitChars, if_pos h]

namespace Segment

variable {c : Char} {cs rest : List Char} {d : ℕ} {ds : List ℕ}

theorem index?_negative (h : takeDigits cs = (d :: ds, ']' :: rest)) :
    index? ('[' :: '-' :: cs) = some (⟨true, d :: ds⟩, rest) := by
  have hdash : isBlank '-' = false := by decide
  have hclose : isBlank ']' = false := by decide
  simp [index?, hdash, hclose, h]

theorem index?_unsigned (hblank : isBlank c = false) (hc : c ≠ '-')
    (h : takeDigits (c :: cs) = (d :: ds, ']' :: rest)) :
    index? ('[' :: c :: cs) = some (⟨false, d :: ds⟩, rest) := by
  have hdrop : (c :: cs).dropWhile isBlank = c :: cs := by simp [hblank]
  have hclose : isBlank ']' = false := by decide
  unfold index?
  split
  · next heq =>
    obtain rfl := (List.cons.inj heq).2
    split
    next hsign =>
      rw [hdrop] at hsign
      split at hsign
      · next hdash => exact absurd (List.cons.inj hdash).1 hc
      · obtain ⟨rfl, rfl⟩ := Prod.mk.inj hsign
        simp [h, hclose]
  · next hne => exact absurd rfl (hne _)

/-- An index is read from its brackets, whatever follows. -/
theorem index?_bracketChars (i : ℤ) (rest : List Char) :
    index? (Written.bracketChars i ++ rest) = some (.ofInt i, rest) := by
  have hdigits : takeDigits (Decimal.digitChars i.natAbs ++ ']' :: rest) =
      ((Decimal.digitChars i.natAbs).map (fun c => c.toNat - 0x30), ']' :: rest) :=
    Numeral.takeDigits_append (fun _ hc => Decimal.isDigit_of_mem hc)
      (fun c hc => Option.some.inj hc ▸ (by decide : digit? ']' = none))
  rcases hchars : Decimal.digitChars i.natAbs with - | ⟨c, cs⟩
  · exact absurd hchars (Decimal.digitChars_ne_nil _)
  have hmem : c ∈ Decimal.digitChars i.natAbs := hchars ▸ List.mem_cons_self
  have hblank : isBlank c = false :=
    Numeral.isBlank_of_mem_intText (n := i) (List.mem_append_right _ hmem)
  have hminus : c ≠ '-' := ne_of_isDigit (Decimal.isDigit_of_mem hmem) (by decide)
  have htext : Written.bracketChars i ++ rest =
      '[' :: ((if i < 0 then ['-'] else []) ++ (c :: cs ++ ']' :: rest)) := by
    simp [Written.bracketChars, Json.intText, hchars]
  have hofInt : Index.ofInt i =
      ⟨decide (i < 0), (c.toNat - 0x30) :: cs.map fun c => c.toNat - 0x30⟩ := by
    simp [Index.ofInt, hchars]
  rw [hchars, List.map_cons] at hdigits
  rw [htext, hofInt]
  by_cases hi : i < 0
  · rw [if_pos hi, decide_eq_true hi]
    exact index?_negative hdigits
  · rw [if_neg hi, decide_eq_false hi]
    exact index?_unsigned hblank hminus hdigits

theorem indices?_flatMap {fuel : ℕ} {is : List ℤ} (h : is.length ≤ fuel) :
    indices? fuel (is.flatMap Written.bracketChars) = some (is.map Index.ofInt) := by
  induction is generalizing fuel with
  | nil => cases fuel <;> rfl
  | cons i is ih =>
    cases fuel with
    | zero => cases h
    | succ fuel =>
      have hfront := index?_bracketChars i (is.flatMap Written.bracketChars)
      have hrest := ih (Nat.le_of_succ_le_succ h)
      obtain ⟨cs, hcs⟩ : ∃ cs, Written.bracketChars i ++ is.flatMap Written.bracketChars =
          '[' :: cs := ⟨_, rfl⟩
      rw [hcs] at hfront
      rw [List.flatMap_cons, hcs]
      simp [indices?, hfront, hrest]

end Segment

/-! ### Reading segments -/

namespace Written

variable {w : Written}

/-- The segment that is read back. -/
def segment (w : Written) : Segment := ⟨w.name, w.behind.map Index.ofInt⟩

theorem name_eq_key {key : String} (h : w.front = some (.key key)) : w.name = key := by
  rw [name, h]
  rfl

theorem name_eq_index {i : ℤ} (h : w.front = some (.index i)) :
    w.name.toList = Json.intText i := by
  rw [name, h]
  exact String.toList_ofList

/-- What stands in front of the brackets is no dot and no bracket. -/
theorem Proper.ne_of_mem_name (h : w.Proper) {c : Char} (hc : c ∈ w.name.toList) :
    c ≠ '.' ∧ c ≠ '[' ∧ c ≠ ']' := by
  rcases hfront : w.front with - | (key | i)
  · rw [name, hfront] at hc
    cases hc
  · rw [name_eq_key hfront] at hc
    exact (h.key key hfront).chars c hc
  · rw [name_eq_index hfront] at hc
    rcases Numeral.mem_intText hc with rfl | hdigit
    · decide
    · exact ⟨ne_of_isDigit hdigit (by decide), ne_of_isDigit hdigit (by decide),
        ne_of_isDigit hdigit (by decide)⟩

theorem mem_bracketChars {i : ℤ} {c : Char} (h : c ∈ bracketChars i) :
    c = '[' ∨ c = ']' ∨ c ∈ Json.intText i := by
  simp only [bracketChars, List.mem_cons, List.mem_append, List.not_mem_nil, or_false] at h
  tauto

theorem Proper.dot_not_mem (h : w.Proper) : '.' ∉ w.chars := by
  intro hmem
  rcases List.mem_append.mp hmem with hmem | hmem
  · exact (h.ne_of_mem_name hmem).1 rfl
  · obtain ⟨i, -, hmem⟩ := List.mem_flatMap.mp hmem
    rcases mem_bracketChars hmem with hc | hc | hc
    · cases hc
    · cases hc
    · rcases Numeral.mem_intText hc with hc | hc <;> cases hc

/-- A segment is read back. -/
theorem Proper.ofChars?_chars (h : w.Proper) : Segment.ofChars? w.chars = some w.segment := by
  have hname : ∀ c ∈ w.name.toList, Segment.isNameChar c = true := fun c hc => by
    have := h.ne_of_mem_name hc
    simp [Segment.isNameChar, this]
  have hbehind : (w.behind.flatMap bracketChars).takeWhile Segment.isNameChar = [] ∧
      (w.behind.flatMap bracketChars).dropWhile Segment.isNameChar =
        w.behind.flatMap bracketChars := by
    cases w.behind with
    | nil => exact ⟨rfl, rfl⟩
    | cons i is => exact ⟨rfl, rfl⟩
  have hfuel : w.behind.length ≤ w.chars.length := by
    have hbrackets := List.length_le_sum_of_one_le
      (w.behind.map fun i => (bracketChars i).length) (by simp [bracketChars])
    rw [List.length_map, ← List.length_flatMap] at hbrackets
    rw [chars, List.length_append]
    omega
  unfold Segment.ofChars?
  rw [chars, List.takeWhile_append_of_pos hname, List.dropWhile_append_of_pos hname, hbehind.1,
    hbehind.2, ← chars, Segment.indices?_flatMap hfuel]
  simp [segment]

/-- No white space stands at the ends of a segment. -/
theorem Proper.stripChars_chars (h : w.Proper) : stripChars w.chars = w.chars := by
  have hname : stripChars w.name.toList = w.name.toList := by
    rcases hfront : w.front with - | (key | i)
    · rw [name, hfront]
      rfl
    · rw [name_eq_key hfront]
      exact strip_eq_self_iff.mp (h.key key hfront).trimmed
    · rw [name_eq_index hfront]
      exact Numeral.stripWhile_eq_self fun c => Numeral.isBlank_of_mem_intText
  obtain ⟨hhead, hlast⟩ := stripChars_eq_self_iff.mp hname
  refine stripChars_eq_self_iff.mpr ⟨?_, ?_⟩
  · rw [chars]
    rcases eq_or_ne w.name.toList [] with hempty | hname
    · rw [hempty, List.nil_append]
      cases w.behind with
      | nil => simp
      | cons i is => exact fun c hc => Option.some.inj hc ▸ by decide
    · rwa [List.head?_append_of_ne_nil _ hname]
  · rw [chars]
    rcases List.eq_nil_or_concat w.behind with hempty | ⟨is, i, hbehind⟩
    · rwa [hempty, List.flatMap_nil, List.append_nil]
    · -- the last character closes a bracket
      have hbracket : w.name.toList ++ w.behind.flatMap bracketChars =
          (w.name.toList ++ is.flatMap bracketChars ++ '[' :: Json.intText i) ++ [']'] := by
        simp [hbehind, bracketChars]
      rw [hbracket, List.getLast?_concat]
      exact fun c hc => Option.some.inj hc ▸ by decide

theorem Proper.name_ne_empty (h : w.Proper) (hfront : w.front ≠ none) : w.name ≠ "" := by
  rcases hstep : w.front with - | (key | i)
  · exact absurd hstep hfront
  · rw [name_eq_key hstep]
    exact (h.key key hstep).nonempty
  · intro hempty
    have htext := name_eq_index hstep
    rw [hempty] at htext
    exact Decimal.digitChars_ne_nil _ (List.append_eq_nil_iff.mp htext.symm).2

theorem Proper.chars_ne_nil (h : w.Proper) : w.chars ≠ [] := by
  intro hnil
  obtain ⟨hname, hbehind⟩ := List.append_eq_nil_iff.mp hnil
  rcases h.nonempty with hfront | hne
  · exact h.name_ne_empty hfront (String.toList_inj.mp hname)
  · obtain ⟨i, is, hcons⟩ := List.exists_cons_of_ne_nil hne
    rw [hcons] at hbehind
    cases hbehind

end Written

/-! ### Reading paths -/

namespace Path

variable {ws : List Written}

/-- A path is read back. -/
theorem ofText_write (h : ∀ w ∈ ws, w.Proper) :
    ofText (write ws) = ws.map fun w => some w.segment := by
  rcases eq_or_ne ws [] with rfl | hne
  · rfl
  have hcut : cut '.' (['.'].intercalate (ws.map Written.chars)) = ws.map Written.chars := by
    apply List.splitOn_intercalate
    · simpa using fun w hw => (h w hw).dot_not_mem
    · simpa using hne
  have hstrip : (ws.map Written.chars).map stripChars = ws.map Written.chars := by
    rw [List.map_map]
    exact List.map_congr_left fun w hw => (h w hw).stripChars_chars
  have hfilter : (ws.map Written.chars).filter (fun p => !p.isEmpty) = ws.map Written.chars := by
    apply List.filter_eq_self.mpr
    simpa using fun w hw => (h w hw).chars_ne_nil
  unfold ofText write
  simp only [String.toList_ofList, hcut, hstrip, hfilter, List.map_map]
  exact List.map_congr_left fun w hw => (h w hw).ofChars?_chars

/-- The path that is a name. -/
theorem ofText_name {name : String} (h : IsName name) : ofText name = [some ⟨name, []⟩] := by
  have hproper : ∀ w ∈ [Written.mk (some (.key name)) []], w.Proper := by
    refine List.forall_mem_singleton.mpr ⟨?_, .inl (by simp)⟩
    rintro _ ⟨⟩
    exact h
  have hwrite : write [⟨some (.key name), []⟩] = name := by
    simp [write, Written.chars, Written.name, Access.text]
  have hread := ofText_write hproper
  rwa [hwrite] at hread

end Path

/-! ### Following paths -/

theorem Part.read_null (p : Part) : p.read .null = .null := by cases p <;> rfl

theorem Part.foldl_read_null (ps : List Part) : ps.foldl Part.read .null = .null := by
  induction ps with
  | nil => rfl
  | cons p ps ih => rwa [List.foldl_cons, p.read_null]

namespace Value

variable {v u : Value} {ws : List Written}

theorem elements_ofInt {is : List ℤ} (h : ∀ i ∈ is, IsShort i) (v : Value) :
    v.elements (is.map Index.ofInt) = .ok (is.foldl element v) := by
  induction is generalizing v with
  | nil => rfl
  | cons i is ih =>
    obtain ⟨hi, his⟩ := List.forall_mem_cons.mp h
    rw [List.map_cons, elements, Index.toInt_ofInt hi]
    exact ih his _

/-- A segment selects what its steps read one after another. -/
theorem select_segment {w : Written} (h : w.Proper) (hshort : w.HasShortBrackets) (v : Value) :
    v.select w.segment = .ok (w.parts.foldl Part.read v) := by
  have hfront : (if w.name.isEmpty then v else v.member w.name) =
      (w.front.toList.map Part.dotted).foldl Part.read v := by
    rcases hstep : w.front with - | step
    · simp [Written.name, hstep]
    · have hname : w.name.isEmpty = false := by
        simpa using h.name_ne_empty (by simp [hstep])
      rw [hname, Written.name, hstep]
      rfl
  have hbehind : ∀ u : Value, (w.behind.map Part.bracketed).foldl Part.read u =
      w.behind.foldl element u := fun u => List.foldl_map
  unfold select Written.segment
  rw [hfront, elements_ofInt hshort, Written.parts, List.foldl_append, hbehind]

/-- Segments are followed one after another, and nothing is looked for behind null. -/
theorem follow_segments (h : ∀ w ∈ ws, w.Proper) (hshort : ∀ w ∈ ws, w.HasShortBrackets)
    (v : Value) (rest : Path) :
    v.follow (ws.map (fun w => some w.segment) ++ rest) =
        ((Path.parts ws).foldl Part.read v).follow rest ∨
      ws ≠ [] ∧ (Path.parts ws).foldl Part.read v = .null ∧
        v.follow (ws.map (fun w => some w.segment) ++ rest) = .ok .null := by
  induction ws generalizing v with
  | nil => exact .inl rfl
  | cons w ws ih =>
    obtain ⟨hw, hws⟩ := List.forall_mem_cons.mp h
    obtain ⟨hwshort, hwsshort⟩ := List.forall_mem_cons.mp hshort
    have hselect := select_segment hw hwshort v
    have hparts : Path.parts (w :: ws) = w.parts ++ Path.parts ws := rfl
    rw [hparts, List.foldl_append, List.map_cons, List.cons_append, follow, hselect]
    split
    · next heq => cases heq
    · next heq =>
      rw [Except.ok.inj heq, Part.foldl_read_null]
      exact .inr ⟨List.cons_ne_nil w ws, rfl, rfl⟩
    · next heq =>
      obtain rfl := Except.ok.inj heq
      exact (ih hws hwsshort _).imp_right (And.imp_left fun _ => List.cons_ne_nil w ws)

/-- A path leads to what its steps read one after another. -/
theorem at_write (h : ∀ w ∈ ws, w.Proper) (hshort : ∀ w ∈ ws, w.HasShortBrackets) (v : Value) :
    v.at (Path.write ws) = .ok ((Path.parts ws).foldl Part.read v) := by
  have hfollow := follow_segments h hshort v []
  rw [List.append_nil] at hfollow
  rw [Value.at, Path.ofText_write h]
  rcases hfollow with hread | ⟨-, hnull, hread⟩
  · exact hread
  · rw [hread, hnull]

theorem select_name {name : String} (h : IsName name) (fs : Fields Value) :
    (Value.object fs).select ⟨name, []⟩ = .ok ((fs.get? name).getD .null) := by
  have hname : name.isEmpty = false := by simpa using h.nonempty
  unfold select
  rw [hname]
  rfl

/-- A name leads to the field of an object. -/
theorem at_name {name : String} (h : IsName name) (fs : Fields Value) :
    (Value.object fs).at name = .ok ((fs.get? name).getD .null) := by
  rw [Value.at, Path.ofText_name h, follow, select_name h]
  split
  · next heq => cases heq
  · next heq => exact heq.symm
  · next heq => exact heq.symm

theorem elements_eq_tooManyDigits {is : List ℤ} (h : ¬ ∀ i ∈ is, IsShort i) (v : Value) :
    ∃ i ∈ is, v.elements (is.map Index.ofInt) = .error (.tooManyDigits (Decimal.length i.natAbs)) := by
  induction is generalizing v with
  | nil => exact absurd (List.forall_mem_nil _) h
  | cons i is ih =>
    rw [List.map_cons, elements]
    by_cases hi : IsShort i
    · have hrest : ¬ ∀ i ∈ is, IsShort i := fun his => h (List.forall_mem_cons.mpr ⟨hi, his⟩)
      obtain ⟨j, hj, helements⟩ := ih hrest (v.element i)
      rw [Index.toInt_ofInt hi]
      exact ⟨j, List.mem_cons_of_mem _ hj, helements⟩
    · refine ⟨i, List.mem_cons_self, ?_⟩
      unfold Index.toInt Index.ofInt
      rw [Numeral.whole_digitChars, if_neg hi, List.length_map]
      rfl

/-- An index in brackets that is too long is a fault, if there is something for it to be taken
from. -/
theorem at_write_eq_tooManyDigits {front back : List Written} {w : Written}
    (h : ∀ w' ∈ front ++ w :: back, w'.Proper) (hfront : ∀ w' ∈ front, w'.HasShortBrackets)
    (hread : front = [] ∨ (Path.parts front).foldl Part.read v ≠ .null)
    (hlong : ¬ w.HasShortBrackets) :
    ∃ i ∈ w.behind, v.at (Path.write (front ++ w :: back)) =
      .error (.tooManyDigits (Decimal.length i.natAbs)) := by
  have hproper : ∀ w' ∈ front, w'.Proper := fun w' hw' => h w' (List.mem_append_left _ hw')
  rw [Value.at, Path.ofText_write h, List.map_append, List.map_cons]
  rcases follow_segments hproper hfront v (some w.segment :: back.map fun w => some w.segment) with
    hfollow | ⟨hne, hnull, -⟩
  · rw [hfollow]
    unfold follow select Written.segment
    obtain ⟨i, hi, helements⟩ := elements_eq_tooManyDigits hlong _
    exact ⟨i, hi, by rw [helements]⟩
  · exact absurd hnull (hread.resolve_left hne)

/-! ### Following addresses -/

/-- An element is what an index leads to. -/
theorem element_eq (v : Value) (i : ℤ) : v.element i = (v.child? (.index i)).getD .null := by
  cases v with
  | list items =>
    simp only [element, child?]
    rcases lt_or_ge i 0 with hi | hi
    · rw [if_pos hi, if_neg (Int.not_le.mpr hi), Int.add_comm]
      by_cases hback : -(items.length : ℤ) ≤ i
      · rw [if_pos hback, if_pos (by omega)]
      · rw [if_neg hback, if_neg (by omega)]
        rfl
    · rw [if_neg (Int.not_lt.mpr hi), if_pos hi, if_pos hi]
  | _ => rfl

/-- A name leads from a list to an element if it is the text of its index. -/
theorem member_list (items : List Value) (i : ℤ) :
    (list items).member (Access.index i).text =
      if IsShort i then (list items).element i else .null := by
  unfold member Access.text
  rw [Numeral.int?_intText]
  by_cases hi : IsShort i
  · rw [if_pos hi, if_pos hi]
    rfl
  · rw [if_neg hi, if_neg hi]
    rfl

theorem child?_of_lacks {step : Access} (h : v.Lacks step) : v.child? step = none := by
  cases v with
  | list items =>
    cases step with
    | key name => rfl
    | index i =>
      have hitems : i < -(items.length : ℤ) ∨ (items.length : ℤ) ≤ i := h
      simp only [child?]
      split
      · rw [List.getElem?_eq_none]
        omega
      · rw [if_neg (by omega)]
  | object fields =>
    cases step with
    | key name => exact h
    | index i => rfl
  | table entries =>
    cases step with
    | key name => exact h
    | index i => rfl
  | _ => rfl

/-- A step that leads to nothing reads null. -/
theorem read_of_lacks {p : Part} (h : v.Lacks p.step) : p.read v = .null := by
  have hnone := child?_of_lacks h
  rcases p with step | i
  · show v.member step.text = .null
    cases v with
    | list items =>
      cases step with
      | key name =>
        have hname : Numeral.int? name = none := h
        simp [Access.text, member, hname]
      | index i =>
        have helement : (list items).element i = .null := by
          rw [element_eq, show (list items).child? (.index i) = none from hnone]
          rfl
        rw [member_list, helement, ite_self]
    | object fields => exact congrArg (fun x : Option Value => x.getD .null) h
    | table entries => exact congrArg (fun x : Option Value => x.getD .null) h
    | _ => rfl
  · show v.element i = .null
    rw [element_eq, show v.child? (.index i) = none from hnone]
    rfl

/-- A step that leads somewhere reads what is there, unless its index is too long. -/
theorem read_of_child? {p : Part} (h : v.child? p.step = some u) :
    p.read v = u ∨ p.read v = .null ∧ ∃ i, p.step = .index i ∧ ¬ IsShort i := by
  rcases p with step | i
  · show v.member step.text = u ∨ v.member step.text = .null ∧ ∃ i, step = .index i ∧ ¬ IsShort i
    have hchild : v.child? step = some u := h
    cases v with
    | list items =>
      cases step with
      | key name => cases hchild
      | index i =>
        rw [member_list, element_eq, hchild]
        by_cases hi : IsShort i
        · exact .inl (if_pos hi)
        · exact .inr ⟨if_neg hi, i, rfl, hi⟩
    | object fields =>
      cases step with
      | key name => exact .inl (congrArg (fun x : Option Value => x.getD .null) hchild)
      | index i => cases hchild
    | table entries =>
      cases step with
      | key name => exact .inl (congrArg (fun x : Option Value => x.getD .null) hchild)
      | index i => cases hchild
    | _ => cases hchild
  · apply Or.inl
    show v.element i = u
    rw [element_eq, show v.child? (.index i) = some u from h]
    rfl

theorem foldl_read_of_descend? {ps : List Part} {v x : Value}
    (h : v.descend? (ps.map Part.step) = some x)
    (hshort : ∀ i, Access.index i ∈ ps.map Part.step → IsShort i) :
    ps.foldl Part.read v = x := by
  induction ps generalizing v with
  | nil => exact Option.some.inj h
  | cons p ps ih =>
    rw [List.map_cons] at h hshort
    unfold descend? at h
    obtain ⟨u, hchild, hrest⟩ := Option.bind_eq_some_iff.mp h
    have hread : p.read v = u := by
      rcases read_of_child? hchild with hread | ⟨-, i, hstep, hi⟩
      · exact hread
      · exact absurd (hshort i (hstep ▸ List.mem_cons_self)) hi
    rw [List.foldl_cons, hread]
    exact ih hrest fun i hi => hshort i (List.mem_cons_of_mem _ hi)

theorem foldl_read_of_misses {ps : List Part} {v : Value} (h : v.Misses (ps.map Part.step)) :
    ps.foldl Part.read v = .null := by
  induction ps generalizing v with
  | nil => cases h
  | cons p ps ih =>
    rw [List.foldl_cons]
    cases h with
    | here hlacks => rw [read_of_lacks hlacks, Part.foldl_read_null]
    | there hchild hrest =>
      rcases read_of_child? hchild with hread | ⟨hread, -⟩
      · rw [hread, ih hrest]
      · rw [hread, Part.foldl_read_null]

/-- A path leads to what is at its address, and to null if a step of the address leads to nothing,
as long as its indices can be read. -/
theorem at_address {v : Value} {ws : List Written} (hproper : ∀ w ∈ ws, w.Proper)
    (hbrackets : ∀ w ∈ ws, w.HasShortBrackets) :
    (∀ x, v.descend? (Path.address ws) = some x →
        (∀ i, Access.index i ∈ Path.address ws → IsShort i) → v.at (Path.write ws) = .ok x) ∧
      (v.Misses (Path.address ws) → v.at (Path.write ws) = .ok .null) := by
  rw [at_write hproper hbrackets v]
  refine ⟨fun x hx hshort => ?_, fun hmisses => ?_⟩
  · rw [foldl_read_of_descend? hx hshort]
  · rw [foldl_read_of_misses hmisses]

/-- The path `orders[-1].lines.1`. -/
def lastOrderLine : List Written :=
  [⟨some (.key "orders"), [-1]⟩, ⟨some (.key "lines"), []⟩, ⟨some (.index 1), []⟩]

example : Path.write lastOrderLine = "orders[-1].lines.1" := by decide

theorem proper_lastOrderLine : ∀ w ∈ lastOrderLine, w.Proper := by
  have horders : IsName "orders" := by decide
  have hlines : IsName "lines" := by decide
  unfold lastOrderLine
  refine List.forall_mem_cons.mpr ⟨⟨?_, by simp⟩, List.forall_mem_cons.mpr ⟨⟨?_, by simp⟩, ?_⟩⟩
  · rintro _ ⟨⟩
    exact horders
  · rintro _ ⟨⟩
    exact hlines
  · exact List.forall_mem_singleton.mpr ⟨nofun, by simp⟩

theorem hasShortBrackets_lastOrderLine : ∀ w ∈ lastOrderLine, w.HasShortBrackets := by
  simp [lastOrderLine, Written.HasShortBrackets, Numeral.isShort_of_lt]

/-- The second line of the last order is found, and an order that has no lines has no second. -/
theorem at_address_lastOrderLine :
    (object [("orders", list [null, object [("lines", list [int 7, int 8])]])]).at
        (Path.write lastOrderLine) = .ok (int 8) ∧
      (object [("orders", list [null])]).at (Path.write lastOrderLine) = .ok null := by
  constructor
  · apply (at_address proper_lastOrderLine hasShortBrackets_lastOrderLine).1
    · rfl
    · intro i hi
      have hpair : i = -1 ∨ i = 1 := by
        simpa [Path.address, Path.parts, lastOrderLine, Written.parts, Part.step] using hi
      apply Numeral.isShort_of_lt
      omega
  · apply (at_address proper_lastOrderLine hasShortBrackets_lastOrderLine).2
    exact .there rfl (.there rfl (.here trivial))

end Value

end Automation
