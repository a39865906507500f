/-
Automation/Proofs/Text/Blank.lean

White space at the ends of a text.

Stripping takes away what is put around a text that neither begins nor ends with white space
(`stripChars_around`), and such a text is what is left alone by it (`stripChars_eq_self_iff`).
White space at the end of a text is stripped up to the last character that is not blank
(`stripChars_append_cons`).
-/
import Mathlib.Data.List.Basic
import Mathlib.Data.List.TakeWhile
import Automation.Text.Blank

namespace Automation.Text

theorem dropWhile_blank_append {blanks cs : List Char} (hblanks : ∀ c ∈ blanks, isBlank c = true)
    (hcs : ∀ c ∈ cs.head?, isBlank c = false) : (blanks ++ cs).dropWhile isBlank = cs := by
  rw [List.dropWhile_append_of_pos hblanks]
  cases cs with
  | nil => rfl
  | cons c cs => exact List.dropWhile_cons_of_neg (by simp [hcs c rfl])

/-- White space around a text that neither begins nor ends with white space. -/
theorem stripChars_around {front core back : List Char} (hfront : ∀ c ∈ front, isBlank c = true)
    (hback : ∀ c ∈ back, isBlank c = true) (hne : core ≠ [])
    (hhead : ∀ c ∈ core.head?, isBlank c = false)
    (hlast : ∀ c ∈ core.getLast?, isBlank c = false) :
    stripChars (front ++ core ++ back) = core := by
  have hstart : (front ++ (core ++ back)).dropWhile isBlank = core ++ back := by
    apply dropWhile_blank_append hfront
    rwa [List.head?_append_of_ne_nil _ hne]
  have hend : (core ++ back).reverse.dropWhile isBlank = core.reverse := by
    rw [List.reverse_append]
    apply dropWhile_blank_append
    · simpa using hback
    · simpa using hlast
  rw [stripChars, stripWhile, dropEndWhile, List.append_assoc, hstart, hend, List.reverse_reverse]

theorem dropWhile_blank_eq_self_iff {cs : List Char} :
    cs.dropWhile isBlank = cs ↔ ∀ c ∈ cs.head?, isBlank c = false := by
  rw [List.dropWhile_eq_self_iff]
  cases cs <;> simp

/-- A text is left alone that neither begins nor ends with white space, and no other. -/
theorem stripChars_eq_self_iff {cs : List Char} : stripChars cs = cs ↔
    (∀ c ∈ cs.head?, isBlank c = false) ∧ ∀ c ∈ cs.getLast?, isBlank c = false := by
  constructor
  · intro h
    have hfront : (cs.dropWhile isBlank).length ≤ cs.length :=
      (List.dropWhile_sublist isBlank).length_le
    have hback : ((cs.dropWhile isBlank).reverse.dropWhile isBlank).length ≤
        (cs.dropWhile isBlank).reverse.length := (List.dropWhile_sublist isBlank).length_le
    have hlength := congrArg List.length h
    simp only [stripChars, stripWhile, dropEndWhile, List.length_reverse] at hlength hback
    -- nothing is dropped at the front, and so nothing at the end
    have hhead : cs.dropWhile isBlank = cs :=
      (List.dropWhile_sublist isBlank).eq_of_length (by omega)
    rw [hhead] at hlength
    have hlast : cs.reverse.dropWhile isBlank = cs.reverse :=
      (List.dropWhile_sublist isBlank).eq_of_length (by simpa using hlength)
    refine ⟨dropWhile_blank_eq_self_iff.mp hhead, ?_⟩
    rw [← List.head?_reverse]
    exact dropWhile_blank_eq_self_iff.mp hlast
  · rintro ⟨hhead, hlast⟩
    rcases eq_or_ne cs [] with rfl | hne
    · rfl
    · simpa using stripChars_around (List.forall_mem_nil _) (List.forall_mem_nil _) hne hhead hlast

theorem strip_eq_self_iff {s : String} : strip s = s ↔ stripChars s.toList = s.toList := by
  rw [← String.toList_inj, strip, String.toList_ofList]

/-- Two texts without white space around them, one behind the other. -/
theorem strip_append {front back : String} (hfront : strip front = front)
    (hback : strip back = back) : strip (front ++ back) = front ++ back := by
  obtain ⟨hhead, hlast⟩ := stripChars_eq_self_iff.mp (strip_eq_self_iff.mp hfront)
  obtain ⟨hhead', hlast'⟩ := stripChars_eq_self_iff.mp (strip_eq_self_iff.mp hback)
  rw [strip_eq_self_iff, stripChars_eq_self_iff, String.toList_append]
  constructor
  · rcases eq_or_ne front.toList [] with hnil | hne
    · rwa [hnil, List.nil_append]
    · rwa [List.head?_append_of_ne_nil _ hne]
  · rcases eq_or_ne back.toList [] with hnil | hne
    · rwa [hnil, List.append_nil]
    · rwa [List.getLast?_append_of_ne_nil _ hne]

/-! ### White space at the end -/

theorem dropEndWhile_append_blanks (cs : List Char) {blanks : List Char}
    (hblanks : ∀ c ∈ blanks, isBlank c = true) :
    dropEndWhile isBlank (cs ++ blanks) = dropEndWhile isBlank cs := by
  unfold dropEndWhile
  rw [List.reverse_append, List.dropWhile_append_of_pos (by simpa using hblanks)]

/-- White space at the end is stripped. -/
theorem stripChars_append_blanks (cs : List Char) {blanks : List Char}
    (hblanks : ∀ c ∈ blanks, isBlank c = true) : stripChars (cs ++ blanks) = stripChars cs := by
  unfold stripChars stripWhile
  rw [List.dropWhile_append]
  split
  · next hempty =>
    -- nothing but white space stands in front of it
    have hnothing : cs.dropWhile isBlank = [] := List.isEmpty_iff.mp hempty
    rw [hnothing, List.dropWhile_eq_nil_iff.mpr hblanks]
  · exact dropEndWhile_append_blanks _ hblanks

/-- A text is what is left of it and the white space at its end. -/
theorem exists_eq_dropEndWhile (cs : List Char) :
    ∃ blanks, (∀ c ∈ blanks, isBlank c = true) ∧ cs = dropEndWhile isBlank cs ++ blanks := by
  refine ⟨(cs.reverse.takeWhile isBlank).reverse, ?_, ?_⟩
  · exact fun c hc => List.mem_takeWhile_imp (List.mem_reverse.mp hc)
  · rw [dropEndWhile, ← List.reverse_append, List.takeWhile_append_dropWhile, List.reverse_reverse]

/-- What stands before a character that is not blank stays. -/
theorem stripChars_append_cons {front : List Char} {c : Char} (hne : front ≠ [])
    (hfront : stripChars front = front) (hc : isBlank c = false) (back : List Char) :
    stripChars (front ++ c :: back) = front ++ c :: dropEndWhile isBlank back := by
  have hhead : ∀ d ∈ (front ++ c :: back).head?, isBlank d = false := by
    rw [List.head?_append_of_ne_nil _ hne]
    exact (stripChars_eq_self_iff.mp hfront).1
  unfold stripChars stripWhile
  rw [dropWhile_blank_eq_self_iff.mpr hhead]
  unfold dropEndWhile
  rw [List.reverse_append, List.reverse_cons, List.append_assoc, List.dropWhile_append]
  split
  · next hempty =>
    rw [List.isEmpty_iff.mp hempty]
    simp [hc]
  · simp

end Automation.Text
