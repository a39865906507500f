/-
Automation/Proofs/Binding/Interpolation.lean

Texts put together from literals and bindings.

A `Draft` is a text as its author sees it: a literal, and bindings with a literal behind each.
The literals may have stray braces, but no binding of their own.  Cutting the text of a draft into
pieces gives back what its author put together (`Draft.pieces_text`), whatever the literals begin
and end with.  So a draft is resolved in one pass (`resolve_draft`): to the value of its binding if
there is one and nothing but white space around it, and otherwise to the text with the texts of the
values in place of the bindings.  Nobody looks for bindings in these again.
-/
import Mathlib.Data.List.Basic
import Mathlib.Data.List.TakeWhile
import Automation.Binding.View
import Automation.Proofs.Binding.Template
import Automation.Proofs.Text.Blank

namespace Automation

namespace Binding

open Text

/-! ### Pieces with texts in place of references -/

section Fill

variable {ε : Type} {textOf : String → Except ε String}

/-- The characters of a piece, with a text in place of a reference. -/
def pieceText (textOf : String → Except ε String) : Piece → Except ε (List Char)
  | .reference ref => (textOf ref).map String.toList
  | .char c => .ok [c]

/-- The characters of pieces, one after another. -/
def filledPieces (textOf : String → Except ε String) (ps : List Piece) : Except ε (List Char) :=
  (ps.mapM (pieceText textOf)).map List.flatten

theorem fillWith_eq (textOf : String → Except ε String) (s : String) :
    fillWith textOf s = (filledPieces textOf (pieces s.toList)).map String.ofList := by
  have hparts : ∀ f : Piece → Except ε (List Char), (∀ piece, f piece = pieceText textOf piece) →
      ((pieces s.toList).mapM f).map (fun texts => String.ofList texts.flatten) =
        (filledPieces textOf (pieces s.toList)).map String.ofList := by
    intro f hf
    rw [funext hf, filledPieces]
    cases (pieces s.toList).mapM (pieceText textOf) <;> rfl
  exact hparts _ fun piece => by cases piece <;> rfl

theorem filledPieces_nil : filledPieces textOf [] = .ok [] := rfl

theorem filledPieces_char (c : Char) (ps : List Piece) :
    filledPieces textOf (.char c :: ps) = (filledPieces textOf ps).map (c :: ·) := by
  unfold filledPieces
  rw [List.mapM_cons]
  cases ps.mapM (pieceText textOf) <;> rfl

theorem filledPieces_reference (ref : String) (ps : List Piece) :
    filledPieces textOf (.reference ref :: ps) =
      (textOf ref).bind fun s => (filledPieces textOf ps).map (s.toList ++ ·) := by
  unfold filledPieces
  rw [List.mapM_cons, pieceText]
  rcases textOf ref with fault | s
  · rfl
  · cases ps.mapM (pieceText textOf) <;> rfl

theorem filledPieces_chars (cs : List Char) (ps : List Piece) :
    filledPieces textOf (cs.map .char ++ ps) = (filledPieces textOf ps).map (cs ++ ·) := by
  induction cs with
  | nil =>
    show filledPieces textOf ps = _
    cases filledPieces textOf ps <;> rfl
  | cons c cs ih =>
    rw [List.map_cons, List.cons_append, filledPieces_char, ih]
    cases filledPieces textOf ps <;> rfl

/-- A text without a binding is filled with nothing. -/
theorem fillWith_of_isLiteral {s : String} (h : IsLiteral s.toList) :
    fillWith textOf s = .ok s := by
  have hchars : filledPieces textOf (s.toList.map .char) = .ok s.toList := by
    have hfilled : filledPieces textOf (s.toList.map .char ++ []) = _ := filledPieces_chars _ _
    rw [List.append_nil, filledPieces_nil] at hfilled
    simpa [Except.map] using hfilled
  rw [fillWith_eq, pieces_eq_chars_iff.mpr h, hchars]
  show Except.ok (String.ofList s.toList) = .ok s
  rw [String.ofList_toList]

end Fill

/-! ### Drafts -/

/-- A literal, and bindings with the literal behind each. -/
structure Draft where
  first : String
  rest : List (String × String)

namespace Draft

/-- A draft with a text in place of each binding. -/
def insert (textOf : String → String) (d : Draft) : String :=
  d.first ++ String.join (d.rest.map fun part => textOf part.1 ++ part.2)

/-- The text of a draft. -/
def text (d : Draft) : String := d.insert fun ref => "\x7b\x7b" ++ ref ++ "\x7d\x7d"

/-- A draft with a text in place of each binding; the first binding that has none ends it. -/
def insertWith {ε : Type} (textOf : String → Except ε String) (d : Draft) : Except ε String :=
  (d.rest.mapM fun part => (textOf part.1).map (· ++ part.2)).map fun texts =>
    d.first ++ String.join texts

/-- References have no braces and are not empty, and no binding stands in a literal. -/
structure Proper (d : Draft) : Prop where
  references : ∀ part ∈ d.rest, IsInside part.1.toList
  first : IsLiteral d.first.toList
  literals : ∀ part ∈ d.rest, IsLiteral part.2.toList

instance (d : Draft) : Decidable d.Proper :=
  decidable_of_iff ((∀ part ∈ d.rest, IsInside part.1.toList) ∧ IsLiteral d.first.toList ∧
      ∀ part ∈ d.rest, IsLiteral part.2.toList)
    ⟨fun h => ⟨h.1, h.2.1, h.2.2⟩, fun h => ⟨h.references, h.first, h.literals⟩⟩

/-- The reference of a draft that is one binding with white space around it. -/
def sole? (d : Draft) : Option String :=
  match d.rest with
  | [(ref, literal)] => if isBlankText d.first && isBlankText literal then some ref else none
  | _ => none

variable {d : Draft}

/-! ### The pieces of a draft -/

/-- The pieces that bindings are meant to have, with the literals behind them. -/
def meant (rest : List (String × String)) : List Piece :=
  rest.flatMap fun part => .reference (strip part.1) :: part.2.toList.map .char

theorem toList_insert (textOf : String → String) (d : Draft) : (d.insert textOf).toList =
    d.first.toList ++ d.rest.flatMap fun part => (textOf part.1).toList ++ part.2.toList := by
  simp [insert, List.flatMap_map]

theorem toList_text (d : Draft) : d.text.toList =
    d.first.toList ++ d.rest.flatMap fun part => bracketed part.1.toList ++ part.2.toList := by
  have hbraces : ("\x7b\x7b" : String).toList = [openBrace, openBrace] ∧
      ("\x7d\x7d" : String).toList = [closeBrace, closeBrace] := by decide
  rw [text, toList_insert]
  simp [bracketed, hbraces]

/-- A text without a binding, and bindings with such texts behind them. -/
theorem pieces_append_bindings {cs : List Char} {rest : List (String × String)}
    (hcs : IsLiteral cs) (hreferences : ∀ part ∈ rest, IsInside part.1.toList)
    (hliterals : ∀ part ∈ rest, IsLiteral part.2.toList) :
    pieces (cs ++ rest.flatMap fun part => bracketed part.1.toList ++ part.2.toList) =
      cs.map .char ++ meant rest := by
  induction rest generalizing cs with
  | nil => simpa [meant] using pieces_eq_chars_iff.mpr hcs
  | cons part rest ih =>
    obtain ⟨href, hreferences⟩ := List.forall_mem_cons.mp hreferences
    obtain ⟨hliteral, hliterals⟩ := List.forall_mem_cons.mp hliterals
    rw [List.flatMap_cons, List.append_assoc]
    -- the text before a binding cannot reach into its opening braces
    rw [pieces_append cs (apart_bracketed _ _), pieces_bracketed href,
      ih hliteral hreferences hliterals, pieces_eq_chars_iff.mpr hcs]
    rfl

/-- The pieces of a draft's text are what its author put together. -/
theorem pieces_text (h : d.Proper) :
    pieces d.text.toList = d.first.toList.map .char ++ meant d.rest := by
  rw [toList_text]
  exact pieces_append_bindings h.first h.references h.literals

/-- The references of a draft are those of its bindings, without the white space around them. -/
theorem referencesIn_text (h : d.Proper) :
    referencesIn d.text = d.rest.map fun part => strip part.1 := by
  rw [referencesIn_eq, pieces_text h, referencesAmong_append, referencesAmong_chars, List.nil_append]
  generalize d.rest = rest
  induction rest with
  | nil => rfl
  | cons part rest ih =>
    have hcons : meant (part :: rest) =
        [.reference (strip part.1)] ++ part.2.toList.map .char ++ meant rest := by
      simp [meant]
    rw [hcons, referencesAmong_append, referencesAmong_append, referencesAmong_chars, ih]
    rfl

/-! ### One binding -/

theorem eq_of_chars_append_reference {cs ds : List Char} {a b : String} {ps qs : List Piece}
    (h : cs.map .char ++ .reference a :: ps = ds.map .char ++ .reference b :: qs) :
    cs = ds ∧ a = b ∧ ps = qs := by
  induction cs generalizing ds with
  | nil =>
    cases ds with
    | nil => simpa using h
    | cons d ds => simp at h
  | cons c cs ih =>
    cases ds with
    | nil => simp at h
    | cons d ds =>
      obtain ⟨hchar, hrest⟩ := List.cons.inj h
      obtain ⟨rfl, hab⟩ := ih hrest
      exact ⟨by rw [Piece.char.inj hchar], hab⟩

theorem chars_append_meant_eq_chars {cs ds : List Char} {rest : List (String × String)}
    (h : cs.map .char ++ meant rest = ds.map .char) : cs = ds ∧ rest = [] := by
  cases rest with
  | nil =>
    refine ⟨?_, rfl⟩
    apply List.map_injective_iff.mpr fun _ _ => Piece.char.inj
    simpa [meant] using h
  | cons part rest =>
    have hmem : Piece.reference (strip part.1) ∈ ds.map .char := by
      rw [← h]
      simp [meant]
    simp at hmem

theorem stripChars_bracketed {front inside back : List Char}
    (hfront : ∀ c ∈ front, isBlank c = true) (hback : ∀ c ∈ back, isBlank c = true) :
    stripChars (front ++ (bracketed inside ++ back)) = bracketed inside := by
  have hends : bracketed inside =
      (openBrace :: openBrace :: (inside ++ [closeBrace])) ++ [closeBrace] := by
    simp [bracketed]
  rw [← List.append_assoc]
  apply stripChars_around hfront hback
  · exact List.cons_ne_nil _ _
  · intro c hc
    obtain rfl : openBrace = c := by simpa [bracketed] using hc
    exact openBrace_not_blank
  · intro c hc
    obtain rfl : closeBrace = c := by
      rw [hends, List.getLast?_concat] at hc
      simpa using hc
    exact closeBrace_not_blank

theorem sole?_eq_some_iff {ref : String} : d.sole? = some ref ↔
    ∃ literal, d.rest = [(ref, literal)] ∧ isBlankText d.first = true ∧
      isBlankText literal = true := by
  unfold sole?
  split
  · next ref' literal hrest =>
    rw [hrest]
    simp
    tauto
  · next hrest =>
    simp
    intro literal hone
    exact absurd hone (hrest ref literal)

/-- A draft that is one binding is the only one whose text is. -/
theorem soleReference?_text (h : d.Proper) : soleReference? d.text = d.sole?.map strip := by
  ext ref
  rw [Option.map_eq_some_iff]
  constructor
  · intro hsole
    obtain ⟨front, back, hpieces, hfront, hback⟩ := exists_pieces_of_sole hsole
    rw [pieces_text h] at hpieces
    rcases hrest : d.rest with - | ⟨part, rest⟩
    · have hmem : Piece.reference ref ∈ d.first.toList.map .char ++ meant [] := by
        rw [hrest] at hpieces
        simp [hpieces]
      simp [meant] at hmem
    · rw [hrest] at hpieces
      obtain ⟨hfirst, href, hmore⟩ := eq_of_chars_append_reference hpieces
      obtain ⟨hliteral, hnil⟩ := chars_append_meant_eq_chars hmore
      refine ⟨part.1, sole?_eq_some_iff.mpr ⟨part.2, ?_, ?_, ?_⟩, href⟩
      · rw [hrest, hnil]
      · rw [isBlankText, hfirst]
        exact List.all_eq_true.mpr hfront
      · rw [isBlankText, hliteral]
        exact List.all_eq_true.mpr hback
  · rintro ⟨authored, hsole, rfl⟩
    obtain ⟨literal, hrest, hfirst, hliteral⟩ := sole?_eq_some_iff.mp hsole
    have hinside : IsInside authored.toList := h.references (authored, literal) (by simp [hrest])
    have hstrip : stripChars d.text.toList = bracketed authored.toList := by
      rw [toList_text, hrest, List.flatMap_singleton]
      exact stripChars_bracketed (List.all_eq_true.mp hfirst) (List.all_eq_true.mp hliteral)
    have hpieces : pieces (bracketed authored.toList) = [.reference (strip authored)] := by
      have hbinding := pieces_bracketed hinside []
      rwa [List.append_nil, pieces_nil] at hbinding
    rw [soleReference?, hstrip, hpieces]

/-! ### Resolving a draft -/

section Fill

variable {ε : Type} {textOf : String → Except ε String}

theorem filledPieces_meant (rest : List (String × String)) : filledPieces textOf (meant rest) =
    (rest.mapM fun part => (textOf (strip part.1)).map (· ++ part.2)).map fun texts =>
      (String.join texts).toList := by
  induction rest with
  | nil => rfl
  | cons part rest ih =>
    have hcons : meant (part :: rest) =
        .reference (strip part.1) :: (part.2.toList.map .char ++ meant rest) := by
      simp [meant]
    rw [hcons, filledPieces_reference, filledPieces_chars, ih, List.mapM_cons]
    rcases textOf (strip part.1) with fault | s
    · rfl
    rcases rest.mapM _ with fault | texts
    · rfl
    show Except.ok (s.toList ++ (part.2.toList ++ (String.join texts).toList)) =
      .ok (String.join ((s ++ part.2) :: texts)).toList
    simp

/-- The texts of the references stand where the bindings stood. -/
theorem fill_text (h : d.Proper) (textOf : String → String) :
    fill textOf d.text = d.insert fun ref => textOf (strip ref) := by
  rw [← String.toList_inj, toList_insert, fill, pieces_text h]
  simp [meant, List.flatMap_assoc, List.flatMap_map]

theorem insert_congr {f g : String → String} (h : ∀ part ∈ d.rest, f part.1 = g part.1) :
    d.insert f = d.insert g := by
  unfold insert
  rw [List.map_congr_left fun part hpart => by rw [h part hpart]]

/-- The same, with texts that may not be there. -/
theorem fillWith_text (h : d.Proper) :
    fillWith textOf d.text = d.insertWith fun ref => textOf (strip ref) := by
  rw [fillWith_eq, pieces_text h, filledPieces_chars, filledPieces_meant, insertWith]
  rcases d.rest.mapM _ with fault | texts
  · rfl
  show Except.ok (String.ofList (d.first.toList ++ (String.join texts).toList)) =
    .ok (d.first ++ String.join texts)
  rw [← String.toList_append, String.ofList_toList]

/-- With a text for every reference no binding stops the insertion. -/
theorem insertWith_of_forall (value : String → String)
    (h : ∀ part ∈ d.rest, textOf part.1 = .ok (value part.1)) :
    d.insertWith textOf = .ok (d.insert value) := by
  have hparts : (d.rest.mapM fun part => (textOf part.1).map (· ++ part.2)) =
      .ok (d.rest.map fun part => value part.1 ++ part.2) := by
    obtain ⟨_, rest⟩ := d
    induction rest with
    | nil => rfl
    | cons part rest ih =>
      obtain ⟨hpart, hrest⟩ := List.forall_mem_cons.mp h
      rw [List.mapM_cons, ih hrest, hpart]
      rfl
  rw [insertWith, hparts, insert]
  rfl

end Fill

end Draft

/-- A draft's text is resolved to the value of its binding, if the draft is one binding with
white space around it, and else to the literals with the plain texts of the values between them. -/
theorem resolve_draft (view : View) {d : Draft} (h : d.Proper) :
    (∀ ref, d.sole? = some ref → view.resolve (.text d.text) = view.lookup (strip ref)) ∧
      (d.sole? = none →
        view.resolve (.text d.text) =
          (d.insertWith fun ref => view.lookupText (strip ref)).map .text ∧
        ∀ value : String → Value,
          (∀ part ∈ d.rest, view.lookup (strip part.1) = .ok (value part.1)) →
          view.resolve (.text d.text) = .ok (.text (d.insert fun ref => (value ref).plain))) := by
  constructor
  · intro ref hsole
    have hone : soleReference? d.text = some (strip ref) := by
      rw [Draft.soleReference?_text h, hsole]
      rfl
    unfold View.resolve
    rw [hone]
  · intro hsole
    have hnot : soleReference? d.text = none := by
      rw [Draft.soleReference?_text h, hsole]
      rfl
    have hfilled : view.resolve (.text d.text) =
        (d.insertWith fun ref => view.lookupText (strip ref)).map .text := by
      unfold View.resolve
      rw [hnot]
      show (fillWith view.lookupText d.text).map Value.text = _
      rw [Draft.fillWith_text h]
    refine ⟨hfilled, ?_⟩
    intro value hvalue
    have hinserted : (d.insertWith fun ref => view.lookupText (strip ref)) =
        .ok (d.insert fun ref => (value ref).plain) := by
      apply Draft.insertWith_of_forall
      intro part hpart
      rw [View.lookupText, hvalue part hpart]
      rfl
    rw [hfilled, hinserted]
    rfl

/-- Literals that begin and end with braces, a value that looks like a binding, and a draft of one
binding. -/
theorem resolve_draft_among_braces :
    let view : View := { View.bare ⟨"run", .null, ⟨"", 0⟩⟩ with
      declared := .table [("who", .text "\x7b\x7bcount\x7d\x7d"), ("count", .int 3)] false }
    let many : Draft :=
      ⟨"\x7b\"q\": \x7b", [(" who ", "\x7d\x7d, \"n\": \x7b"), ("count", "\x7d \x7d")]⟩
    let one : Draft := ⟨" ", [("count ", "\n")]⟩
    view.resolve (.text many.text) =
        .ok (.text "\x7b\"q\": \x7b\x7b\x7bcount\x7d\x7d\x7d\x7d, \"n\": \x7b3\x7d \x7d") ∧
      view.resolve (.text one.text) = .ok (.int 3) := by
  intro view many one
  have hmany : many.Proper := by decide +kernel
  have hone : one.Proper := by decide +kernel
  constructor
  · let value : String → Value := fun ref =>
      if ref = "count" then .int 3 else .text "\x7b\x7bcount\x7d\x7d"
    have hvalues : ∀ part ∈ many.rest, view.lookup (strip part.1) = .ok (value part.1) := by
      intro part hpart
      obtain rfl | rfl : part = (" who ", "\x7d\x7d, \"n\": \x7b") ∨
          part = ("count", "\x7d \x7d") := by
        simpa [many] using hpart
      · rfl
      · rfl
    exact ((resolve_draft view hmany).2 rfl).2 value hvalues
  · exact (resolve_draft view hone).1 "count " (by decide)

end Binding

end Automation
