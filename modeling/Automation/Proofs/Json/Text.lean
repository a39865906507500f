/-
Automation/Proofs/Json/Text.lean

Texts in quotation marks, written and read again.

A character is written as itself, by a short escape, by one unit, or by the two units of a pair;
each form is read as the character (`textBody_charText`).  No character is half of a pair, so a unit
that is written for one never joins with the unit behind it.
-/
import Mathlib.Data.List.Basic
import Mathlib.Tactic
import Automation.Json.Printer
import Automation.Json.Reader

namespace Automation.Json

open Automation.Text

/-! ### Units -/

theorem hexValue?_hexDigit {n : ℕ} (h : n < 16) : hexValue? (hexDigit n) = some n := by
  have hall : ∀ k : Fin 16, hexValue? (hexDigit k) = some (k : ℕ) := by decide
  exact hall ⟨n, h⟩

/-- Four hexadecimal digits are read as the unit that they are written for. -/
theorem exists_unitEscape {n : ℕ} (h : n < 0x10000) :
    ∃ a b c d, unitEscape n = ['\\', 'u', a, b, c, d] ∧ unit? a b c d = some n := by
  refine ⟨_, _, _, _, rfl, ?_⟩
  unfold unit?
  simp only [hexValue?_hexDigit (Nat.mod_lt _ (by norm_num)), Option.bind_eq_bind,
    Option.bind_some]
  congr 1
  omega

theorem isHalf_eq_false (c : Char) : isHalf c.toNat = false := by
  have hvalid : c.toNat < 0xD800 ∨ 0xDFFF < c.toNat ∧ c.toNat < 0x110000 := c.valid
  simp only [isHalf, decide_eq_false_iff_not]
  omega

theorem single_toNat (c : Char) : single c.toNat = c := by
  have hhalf := isHalf_eq_false c
  unfold isHalf at hhalf
  unfold single
  rw [if_neg (of_decide_eq_false hhalf), Char.ofNat_toNat]

/-- Four characters that are no unit make a text malformed. -/
theorem textBody_of_no_unit (rules : Rules) {a b c d : Char} (hunit : unit? a b c d = none)
    (rest : List Char) :
    textBody rules ('\\' :: 'u' :: a :: b :: c :: d :: rest) = .error .malformed := by
  by_cases hmore : ∃ e f g h more, rest = '\\' :: 'u' :: e :: f :: g :: h :: more
  · obtain ⟨e, f, g, h, more, rfl⟩ := hmore
    rw [textBody.eq_2]
    simp [hunit]
  · rw [textBody.eq_3 _ _ _ _ _ _ fun e f g h more heq => hmore ⟨e, f, g, h, more, heq⟩]
    simp [hunit]

/-- A unit that is no half of a pair is read as its character, whatever stands behind it. -/
theorem textBody_unit (rules : Rules) (x : Char) {a b c d : Char}
    (hunit : unit? a b c d = some x.toNat) (rest : List Char) :
    textBody rules ('\\' :: 'u' :: a :: b :: c :: d :: rest) =
      withChar x (textBody rules rest) := by
  have hhalf := isHalf_eq_false x
  by_cases hmore : ∃ e f g h more, rest = '\\' :: 'u' :: e :: f :: g :: h :: more
  · -- another unit follows, which is read by itself
    obtain ⟨e, f, g, h, more, rfl⟩ := hmore
    have hpair : ∀ low, isPair x.toNat low = false := by
      intro low
      unfold isHalf at hhalf
      have hnot := of_decide_eq_false hhalf
      simp only [isPair, decide_eq_false_iff_not]
      omega
    rw [textBody.eq_2]
    rcases hlow : unit? e f g h with - | low
    · rw [textBody_of_no_unit rules hlow]
      simp [hunit, withChar, Except.map]
    · simp [hunit, hpair, hhalf, single_toNat]
  · rw [textBody.eq_3 _ _ _ _ _ _ fun e f g h more heq => hmore ⟨e, f, g, h, more, heq⟩]
    simp [hunit, hhalf, single_toNat]

/-! ### Characters -/

theorem textBody_short (rules : Rules) {c x : Char} (hne : c ≠ 'u') (h : shortEscape? c = some x)
    (rest : List Char) : textBody rules ('\\' :: c :: rest) = withChar x (textBody rules rest) := by
  rw [textBody.eq_4 _ _ _ (fun _ _ _ _ _ _ _ _ _ hc _ => hne hc) fun _ _ _ _ _ hc _ => hne hc]
  simp [h]

theorem textBody_plain (rules : Rules) {c : Char} (hquote : c ≠ '"') (hslash : c ≠ '\\')
    (hprint : 0x20 ≤ c.toNat) (rest : List Char) :
    textBody rules (c :: rest) = withChar c (textBody rules rest) := by
  rw [textBody.eq_5 _ _ _ (fun _ _ _ _ _ _ _ _ _ hc _ => hslash hc)
    (fun _ _ _ _ _ hc _ => hslash hc) fun _ _ hc _ => hslash hc]
  simp [hquote, hslash, not_lt.mpr hprint]

/-- The two units of a pair are read as the character that they are written for. -/
theorem textBody_pair (rules : Rules) {x : Char} (hx : 0x10000 ≤ x.toNat) (rest : List Char) :
    textBody rules (unitEscape (0xD800 + (x.toNat - 0x10000) / 0x400) ++
        unitEscape (0xDC00 + (x.toNat - 0x10000) % 0x400) ++ rest) =
      withChar x (textBody rules rest) := by
  have hvalid : x.toNat < 0x110000 := by
    have hvalid : x.toNat < 0xD800 ∨ 0xDFFF < x.toNat ∧ x.toNat < 0x110000 := x.valid
    omega
  obtain ⟨a, b, c, d, hhigh, hunit⟩ :=
    exists_unitEscape (n := 0xD800 + (x.toNat - 0x10000) / 0x400) (by omega)
  obtain ⟨e, f, g, h, hlow, hunit'⟩ :=
    exists_unitEscape (n := 0xDC00 + (x.toNat - 0x10000) % 0x400) (by omega)
  have hpair : isPair (0xD800 + (x.toNat - 0x10000) / 0x400)
      (0xDC00 + (x.toNat - 0x10000) % 0x400) = true := by
    simp only [isPair, decide_eq_true_eq]
    omega
  have hpaired : paired (0xD800 + (x.toNat - 0x10000) / 0x400)
      (0xDC00 + (x.toNat - 0x10000) % 0x400) = x := by
    have hsum : 0x10000 + (0xD800 + (x.toNat - 0x10000) / 0x400 - 0xD800) * 0x400 +
        (0xDC00 + (x.toNat - 0x10000) % 0x400 - 0xDC00) = x.toNat := by omega
    rw [paired, hsum, Char.ofNat_toNat]
  rw [hhigh, hlow]
  show textBody rules ('\\' :: 'u' :: a :: b :: c :: d :: '\\' :: 'u' :: e :: f :: g :: h :: rest) = _
  rw [textBody.eq_2]
  simp only [hunit, hunit', hpair, hpaired, if_true]

/-- A character is read as it is written. -/
theorem textBody_charText (rules : Rules) (c : Char) (rest : List Char) :
    textBody rules (charText c ++ rest) = withChar c (textBody rules rest) := by
  have hcode : ∀ {n : ℕ}, c.toNat = n → c = Char.ofNat n := fun h => h ▸ (Char.ofNat_toNat c).symm
  unfold charText
  split_ifs with hquote hslash hline hreturn htab hback hfeed hprint hunit
  · subst hquote
    exact textBody_short rules (by decide) rfl rest
  · subst hslash
    exact textBody_short rules (by decide) rfl rest
  · subst hline
    exact textBody_short rules (by decide) rfl rest
  · subst hreturn
    exact textBody_short rules (by decide) rfl rest
  · subst htab
    exact textBody_short rules (by decide) rfl rest
  · rw [hcode hback]
    exact textBody_short rules (by decide) rfl rest
  · rw [hcode hfeed]
    exact textBody_short rules (by decide) rfl rest
  · exact textBody_plain rules hquote hslash hprint.1 rest
  · obtain ⟨a, b, d, e, hescape, hread⟩ := exists_unitEscape hunit
    rw [hescape]
    exact textBody_unit rules c hread rest
  · exact textBody_pair rules (not_lt.mp hunit) rest

/-- A text is read up to its closing quotation mark. -/
theorem textBody_flatMap (rules : Rules) (cs rest : List Char) :
    textBody rules (cs.flatMap charText ++ '"' :: rest) = .ok (cs, rest) := by
  induction cs with
  | nil =>
    rw [List.flatMap_nil, List.nil_append, textBody.eq_5 _ _ _ (by simp) (by simp) (by simp)]
    rfl
  | cons c cs ih =>
    rw [List.flatMap_cons, List.append_assoc, textBody_charText, ih]
    rfl

end Automation.Json
