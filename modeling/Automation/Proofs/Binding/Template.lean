/-
Automation/Proofs/Binding/Template.lean

The pieces and the references of templates.

Two texts that are put together have the pieces of both, if no binding of the first one could run
on into the second (`pieces_append`); white space and bindings are such second texts.  So white
space around a text has no part in its bindings (`referencesIn_strip`), and a text that is one
binding, white space aside, is resolved by a reference that the text has
(`mem_referencesIn_of_sole`).  The references of a value are references of the texts that stand
anywhere in it (`exists_text_of_mem_references`).
-/
import Mathlib.Data.List.TakeWhile
import Automation.Binding.Template

namespace Automation.Binding

open Automation.Text

/-! ### Bindings -/

theorem openBrace_not_blank : isBlank openBrace = false := by decide

theorem closeBrace_not_blank : isBlank closeBrace = false := by decide

/-- A binding at the front of a text: two opening braces, a reference that is not empty, and
two closing braces. -/
theorem binding?_eq_some_iff {cs inside rest : List Char} :
    binding? cs = some (inside, rest) ↔
      cs = openBrace :: openBrace :: (inside ++ closeBrace :: closeBrace :: rest) ∧
        inside ≠ [] ∧ ∀ c ∈ inside, isReferenceChar c = true := by
  constructor
  · intro h
    unfold binding? at h
    split at h
    · next a b more =>
      split at h
      · next hopen =>
        obtain ⟨rfl, rfl⟩ := hopen
        dsimp only at h
        split at h
        · next c d left hinside hrest =>
          split at h
          · next hclose =>
            obtain ⟨rfl, rfl⟩ := hclose
            obtain ⟨rfl, rfl⟩ := Prod.mk.inj (Option.some.inj h)
            have hmore := List.takeWhile_append_dropWhile (p := isReferenceChar) (l := more)
            rw [hrest] at hmore
            exact ⟨by rw [hmore], by rw [hinside]; exact List.cons_ne_nil _ _,
              fun c hc => List.mem_takeWhile_imp hc⟩
          · cases h
        · cases h
      · cases h
    · cases h
  · rintro ⟨rfl, hne, hinside⟩
    have hstop : isReferenceChar closeBrace = false := by decide
    have htake : (inside ++ closeBrace :: closeBrace :: rest).takeWhile isReferenceChar = inside := by
      rw [List.takeWhile_append_of_pos hinside, List.takeWhile_cons_of_neg (by simp [hstop]),
        List.append_nil]
    have hdrop : (inside ++ closeBrace :: closeBrace :: rest).dropWhile isReferenceChar
        = closeBrace :: closeBrace :: rest := by
      rw [List.dropWhile_append_of_pos hinside, List.dropWhile_cons_of_neg (by simp [hstop])]
    obtain ⟨first, others, rfl⟩ := List.exists_cons_of_ne_nil hne
    simp only [binding?, and_self, if_true]
    rw [htake, hdrop]
    simp

/-- The text of a binding. -/
def bracketed (inside : List Char) : List Char :=
  openBrace :: openBrace :: (inside ++ [closeBrace, closeBrace])

/-- What may stand between the braces of a binding. -/
structure IsInside (inside : List Char) : Prop where
  ne_nil : inside ≠ []
  chars : ∀ c ∈ inside, isReferenceChar c = true

instance (inside : List Char) : Decidable (IsInside inside) :=
  decidable_of_iff (inside ≠ [] ∧ inside.all isReferenceChar = true)
    ⟨fun h => ⟨h.1, List.all_eq_true.mp h.2⟩, fun h => ⟨h.ne_nil, List.all_eq_true.mpr h.chars⟩⟩

theorem binding?_bracketed {inside : List Char} (h : IsInside inside) (rest : List Char) :
    binding? (bracketed inside ++ rest) = some (inside, rest) :=
  binding?_eq_some_iff.mpr ⟨by simp [bracketed], h.ne_nil, h.chars⟩

theorem exists_bracketed {cs inside rest : List Char} (h : binding? cs = some (inside, rest)) :
    cs = bracketed inside ++ rest ∧ IsInside inside := by
  obtain ⟨heq, hne, hchars⟩ := binding?_eq_some_iff.mp h
  exact ⟨by rw [heq]; simp [bracketed], hne, hchars⟩

theorem IsInside.openBrace_not_mem {inside : List Char} (h : IsInside inside) :
    openBrace ∉ inside := by
  intro hmem
  have hchar := h.chars openBrace hmem
  have hbrace : isReferenceChar openBrace = false := by decide
  rw [hbrace] at hchar
  cases hchar

/-! ### Texts put together -/

/-- No binding that begins in a text runs on into this one behind it. -/
def Apart (tail : List Char) : Prop :=
  ∀ inside front more, IsInside inside → bracketed inside = front ++ more → front ≠ [] →
    more ≠ [] → ¬ more <+: tail

theorem apart_blank {blanks : List Char} (h : ∀ c ∈ blanks, isBlank c = true) : Apart blanks := by
  intro inside front more hinside heq _ hmore hstarts
  -- what is left of a binding ends with a brace
  obtain ⟨ds, d, rfl⟩ := List.eq_nil_or_concat more |>.resolve_left hmore
  have hends : (openBrace :: openBrace :: (inside ++ [closeBrace])) ++ [closeBrace]
      = (front ++ ds) ++ [d] := by simpa [bracketed] using heq
  obtain ⟨-, hlast⟩ := List.append_inj' hends rfl
  obtain rfl : closeBrace = d := by simpa using hlast
  have hblank := h closeBrace (hstarts.subset (by simp))
  rw [closeBrace_not_blank] at hblank
  cases hblank

theorem apart_openBraces (cs : List Char) : Apart (openBrace :: openBrace :: cs) := by
  intro inside front more hinside heq hfront hmore hstarts
  obtain ⟨a, front, rfl⟩ := List.exists_cons_of_ne_nil hfront
  obtain ⟨d, more, rfl⟩ := List.exists_cons_of_ne_nil hmore
  obtain ⟨rfl, hafter⟩ := List.cons_prefix_cons.mp hstarts
  have hsecond : openBrace :: (inside ++ [closeBrace, closeBrace]) = front ++ openBrace :: more :=
    (List.cons.inj heq).2
  cases front with
  | nil =>
    -- the inside would begin with the second of the braces
    have hinner : inside ++ [closeBrace, closeBrace] = more := (List.cons.inj hsecond).2
    obtain ⟨c, others, rfl⟩ := List.exists_cons_of_ne_nil hinside.ne_nil
    rw [← hinner] at hafter
    obtain ⟨rfl, -⟩ := List.cons_prefix_cons.mp hafter
    exact hinside.openBrace_not_mem List.mem_cons_self
  | cons b front =>
    -- after its first two characters a binding has no opening brace
    have hinner : inside ++ [closeBrace, closeBrace] = front ++ openBrace :: more :=
      (List.cons.inj hsecond).2
    have hmem : openBrace ∈ inside ++ [closeBrace, closeBrace] := by
      rw [hinner]
      simp
    rcases List.mem_append.mp hmem with h | h
    · exact hinside.openBrace_not_mem h
    · exact absurd h (by decide)

theorem apart_bracketed (inside rest : List Char) : Apart (bracketed inside ++ rest) :=
  apart_openBraces _

/-- A binding at the front of a text is there with another text behind it as well. -/
theorem binding?_append (c : Char) (cs : List Char) {tail : List Char} (h : Apart tail) :
    binding? (c :: cs ++ tail) =
      (binding? (c :: cs)).map fun found => (found.1, found.2 ++ tail) := by
  rcases hcs : binding? (c :: cs) with - | ⟨inside, rest⟩
  · -- a binding would end in the second text, or before it
    apply Option.eq_none_iff_forall_ne_some.mpr
    rintro ⟨inside, rest⟩ hbinding
    obtain ⟨heq, hinside⟩ := exists_bracketed hbinding
    have hnot : ∀ more, c :: cs ≠ bracketed inside ++ more := by
      intro more hmore
      rw [hmore, binding?_bracketed hinside] at hcs
      cases hcs
    rcases List.append_eq_append_iff.mp heq with ⟨more, hmore, htail⟩ | ⟨more, hmore, -⟩
    · rcases eq_or_ne more [] with rfl | hne
      · exact hnot [] (by rw [hmore, List.append_nil, List.append_nil])
      · exact h inside (c :: cs) more hinside hmore (List.cons_ne_nil c cs) hne ⟨rest, htail.symm⟩
    · exact hnot more hmore
  · obtain ⟨heq, hinside⟩ := exists_bracketed hcs
    rw [heq, List.append_assoc, binding?_bracketed hinside]
    rfl

theorem binding?_cons_blank {c : Char} (h : isBlank c = true) (cs : List Char) :
    binding? (c :: cs) = none := by
  apply Option.eq_none_iff_forall_ne_some.mpr
  rintro ⟨inside, rest⟩ hbinding
  obtain ⟨heq, -⟩ := exists_bracketed hbinding
  obtain ⟨rfl, -⟩ := List.cons.inj heq
  rw [openBrace_not_blank] at h
  cases h

@[simp] theorem pieces_nil : pieces [] = [] := by
  rw [pieces]

theorem pieces_of_binding {cs inside rest : List Char} (h : binding? cs = some (inside, rest)) :
    pieces cs = .reference (trimReference inside) :: pieces rest := by
  cases cs with
  | nil => simp [binding?] at h
  | cons c cs =>
    rw [pieces]
    split
    · next found rest' h' =>
      obtain ⟨rfl, rfl⟩ : inside = found ∧ rest = rest' := by
        rw [h] at h'
        simpa using h'
      rfl
    · next h' =>
      rw [h] at h'
      cases h'

theorem pieces_of_none {c : Char} {cs : List Char} (h : binding? (c :: cs) = none) :
    pieces (c :: cs) = .char c :: pieces cs := by
  rw [pieces]
  split
  · next h' =>
    rw [h] at h'
    cases h'
  · rfl

theorem pieces_bracketed {inside : List Char} (h : IsInside inside) (rest : List Char) :
    pieces (bracketed inside ++ rest) = .reference (trimReference inside) :: pieces rest :=
  pieces_of_binding (binding?_bracketed h rest)

/-- Two texts put together have the pieces of both. -/
theorem pieces_append (cs : List Char) {tail : List Char} (h : Apart tail) :
    pieces (cs ++ tail) = pieces cs ++ pieces tail := by
  -- along the pieces of the first text: each has the same binding at its front
  induction cs using pieces.induct with
  | case1 => simp
  | case2 c cs inside rest hbinding ih =>
    have happend := binding?_append c cs h
    rw [hbinding, Option.map_some] at happend
    rw [pieces_of_binding happend, pieces_of_binding hbinding, ih, List.cons_append]
  | case3 c cs hnone ih =>
    have happend := binding?_append c cs h
    rw [hnone, Option.map_none, List.cons_append] at happend
    rw [List.cons_append, pieces_of_none happend, pieces_of_none hnone, ih, List.cons_append]

theorem pieces_blank_append {blanks : List Char} (h : ∀ c ∈ blanks, isBlank c = true)
    (cs : List Char) : pieces (blanks ++ cs) = blanks.map .char ++ pieces cs := by
  induction blanks with
  | nil => rfl
  | cons c blanks ih =>
    obtain ⟨hc, hblanks⟩ := List.forall_mem_cons.mp h
    rw [List.cons_append, pieces_of_none (binding?_cons_blank hc _), ih hblanks, List.map_cons,
      List.cons_append]

theorem pieces_blank {blanks : List Char} (h : ∀ c ∈ blanks, isBlank c = true) :
    pieces blanks = blanks.map .char := by
  simpa using pieces_blank_append h []

/-- No binding stands anywhere in a text. -/
def IsLiteral (cs : List Char) : Prop := ∀ inside, IsInside inside → ¬ bracketed inside <:+: cs

/-- A text is all characters exactly if no binding stands in it. -/
theorem pieces_eq_chars_iff {cs : List Char} : pieces cs = cs.map .char ↔ IsLiteral cs := by
  induction cs using pieces.induct with
  | case1 => simp [IsLiteral, bracketed]
  | case2 c cs inside rest hbinding ih =>
    obtain ⟨heq, hinside⟩ := exists_bracketed hbinding
    constructor
    · intro h
      rw [pieces_of_binding hbinding] at h
      cases h
    · intro h
      exact absurd ⟨[], rest, by rw [heq, List.nil_append]⟩ (h inside hinside)
  | case3 c cs hnone ih =>
    rw [pieces_of_none hnone, List.map_cons, List.cons_inj_right, ih]
    apply forall₂_congr
    intro inside hinside
    have hfront : ¬ bracketed inside <+: c :: cs := by
      rintro ⟨rest, heq⟩
      rw [← heq, binding?_bracketed hinside] at hnone
      cases hnone
    rw [List.infix_cons_iff, or_iff_right hfront]

/-- A text has a binding exactly if one of its pieces is a reference. -/
theorem isLiteral_iff {cs : List Char} :
    IsLiteral cs ↔ (pieces cs).any Piece.isReference = false := by
  rw [← pieces_eq_chars_iff]
  constructor
  · intro h
    rw [h]
    simp [Piece.isReference]
  · intro h
    induction cs using pieces.induct with
    | case1 => simp
    | case2 c cs inside rest hbinding ih =>
      rw [pieces_of_binding hbinding] at h
      simp [Piece.isReference] at h
    | case3 c cs hnone ih =>
      rw [pieces_of_none hnone] at h ⊢
      rw [ih (by simpa [Piece.isReference] using h), List.map_cons]

instance (cs : List Char) : Decidable (IsLiteral cs) := decidable_of_iff' _ isLiteral_iff

/-! ### References -/

/-- The references among some pieces. -/
def referencesAmong (ps : List Piece) : List String :=
  ps.filterMap fun
    | .reference ref => some ref
    | .char _ => none

theorem referencesIn_eq (s : String) : referencesIn s = referencesAmong (pieces s.toList) := rfl

@[simp] theorem referencesAmong_nil : referencesAmong [] = [] := rfl

@[simp] theorem referencesAmong_append (ps qs : List Piece) :
    referencesAmong (ps ++ qs) = referencesAmong ps ++ referencesAmong qs :=
  List.filterMap_append

@[simp] theorem referencesAmong_chars (cs : List Char) :
    referencesAmong (cs.map .char) = [] := by
  unfold referencesAmong
  simp

/-- A list without the white space at its ends, and that white space. -/
theorem exists_blanks (cs : List Char) : ∃ front back, cs = front ++ stripChars cs ++ back ∧
    (∀ c ∈ front, isBlank c = true) ∧ ∀ c ∈ back, isBlank c = true := by
  have hfront := List.takeWhile_append_dropWhile (p := isBlank) (l := cs)
  have hback := List.takeWhile_append_dropWhile (p := isBlank) (l := (cs.dropWhile isBlank).reverse)
  refine ⟨cs.takeWhile isBlank, ((cs.dropWhile isBlank).reverse.takeWhile isBlank).reverse, ?_,
    fun c hc => List.mem_takeWhile_imp hc,
    fun c hc => List.mem_takeWhile_imp (List.mem_reverse.mp hc)⟩
  rw [List.append_assoc, stripChars, stripWhile, dropEndWhile, ← List.reverse_append, hback,
    List.reverse_reverse, hfront]

/-- The pieces of a text are those of its middle part, with the white space around it. -/
theorem exists_pieces_strip (cs : List Char) : ∃ front back : List Char,
    pieces cs = front.map .char ++ pieces (stripChars cs) ++ back.map .char ∧
      (∀ c ∈ front, isBlank c = true) ∧ ∀ c ∈ back, isBlank c = true := by
  obtain ⟨front, back, heq, hfront, hback⟩ := exists_blanks cs
  refine ⟨front, back, ?_, hfront, hback⟩
  calc pieces cs = pieces (front ++ stripChars cs ++ back) := congrArg pieces heq
    _ = front.map .char ++ pieces (stripChars cs) ++ back.map .char := by
      rw [pieces_append _ (apart_blank hback), pieces_blank_append hfront, pieces_blank hback]

theorem referencesAmong_strip (cs : List Char) :
    referencesAmong (pieces (stripChars cs)) = referencesAmong (pieces cs) := by
  obtain ⟨front, back, heq, -, -⟩ := exists_pieces_strip cs
  simp [heq]

/-- White space around a text has no part in its references. -/
theorem referencesIn_strip (s : String) : referencesIn (strip s) = referencesIn s := by
  rw [referencesIn_eq, referencesIn_eq, strip, String.toList_ofList, referencesAmong_strip]

/-- A text that is one binding has nothing but white space around it. -/
theorem exists_pieces_of_sole {s ref : String} (h : soleReference? s = some ref) :
    ∃ front back : List Char, pieces s.toList = front.map .char ++ .reference ref :: back.map .char ∧
      (∀ c ∈ front, isBlank c = true) ∧ ∀ c ∈ back, isBlank c = true := by
  obtain ⟨front, back, heq, hblanks⟩ := exists_pieces_strip s.toList
  refine ⟨front, back, ?_, hblanks⟩
  unfold soleReference? at h
  split at h
  · next found hpieces =>
    obtain rfl := Option.some.inj h
    rw [heq, hpieces, List.append_assoc]
    rfl
  · cases h

/-- The reference of a text that is one binding is one of its references. -/
theorem mem_referencesIn_of_sole {s ref : String} (h : soleReference? s = some ref) :
    ref ∈ referencesIn s := by
  obtain ⟨front, back, heq, -, -⟩ := exists_pieces_of_sole h
  rw [referencesIn_eq, heq, referencesAmong_append]
  exact List.mem_append_right _ List.mem_cons_self

/-! ### Texts in values -/

mutual

/-- The texts that stand anywhere in a value, its keys aside. -/
def texts : Value → List String
  | .text s => [s]
  | .list items => textsOfItems items
  | .object fields => textsOfFields fields
  | .table entries => textsOfEntries entries
  | _ => []

def textsOfItems : List Value → List String
  | [] => []
  | v :: vs => texts v ++ textsOfItems vs

def textsOfFields : List (String × Value) → List String
  | [] => []
  | (_, v) :: fs => texts v ++ textsOfFields fs

def textsOfEntries : List (Key × Value) → List String
  | [] => []
  | (_, v) :: es => texts v ++ textsOfEntries es

end

mutual

/-- A reference of a value is a reference of some text in it. -/
theorem exists_text_of_mem_references {ref : String} :
    (v : Value) → ref ∈ references v → ∃ s ∈ texts v, ref ∈ referencesIn s
  | .text s, h => by
    refine ⟨s, List.mem_singleton_self _, ?_⟩
    unfold references at h
    split at h
    · next found hsole =>
      obtain rfl := List.mem_singleton.mp h
      exact mem_referencesIn_of_sole hsole
    · exact h
  | .list items, h => exists_text_of_mem_items items h
  | .object fields, h => exists_text_of_mem_fields fields h
  | .table entries, h => exists_text_of_mem_entries entries h
  | .null, h => nomatch h
  | .bool _, h => nomatch h
  | .int _, h => nomatch h
  | .float _, h => nomatch h

theorem exists_text_of_mem_items {ref : String} : (vs : List Value) →
    ref ∈ referencesOfItems vs → ∃ s ∈ textsOfItems vs, ref ∈ referencesIn s
  | v :: vs, h => by
    rcases List.mem_append.mp h with h | h
    · obtain ⟨s, hs, href⟩ := exists_text_of_mem_references v h
      exact ⟨s, List.mem_append_left _ hs, href⟩
    · obtain ⟨s, hs, href⟩ := exists_text_of_mem_items vs h
      exact ⟨s, List.mem_append_right _ hs, href⟩

theorem exists_text_of_mem_fields {ref : String} : (fs : List (String × Value)) →
    ref ∈ referencesOfFields fs → ∃ s ∈ textsOfFields fs, ref ∈ referencesIn s
  | (_, v) :: fs, h => by
    rcases List.mem_append.mp h with h | h
    · obtain ⟨s, hs, href⟩ := exists_text_of_mem_references v h
      exact ⟨s, List.mem_append_left _ hs, href⟩
    · obtain ⟨s, hs, href⟩ := exists_text_of_mem_fields fs h
      exact ⟨s, List.mem_append_right _ hs, href⟩

theorem exists_text_of_mem_entries {ref : String} : (es : List (Key × Value)) →
    ref ∈ referencesOfEntries es → ∃ s ∈ textsOfEntries es, ref ∈ referencesIn s
  | (_, v) :: es, h => by
    rcases List.mem_append.mp h with h | h
    · obtain ⟨s, hs, href⟩ := exists_text_of_mem_references v h
      exact ⟨s, List.mem_append_left _ hs, href⟩
    · obtain ⟨s, hs, href⟩ := exists_text_of_mem_entries es h
      exact ⟨s, List.mem_append_right _ hs, href⟩

end

end Automation.Binding
