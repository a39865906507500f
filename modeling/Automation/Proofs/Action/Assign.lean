/-
Automation/Proofs/Action/Assign.lean

Settings of the assigning action that are put into a text and read from it again.

A list or an object that is data stands in a text between its brackets, and from there it is read
back as it was, the order of its keys included, if it fits the limits of the reader; otherwise it is
not (`parsed_plain_iff`).  So the entries that an action assigns may be given as a value or as its
text (`assignments_plain`).  An integer of more digits than the reader takes does not fit, nor does a
list that is nested deeper than the reader goes.
-/
import Automation.Action.Assign
import Automation.Proofs.Json.Data
import Automation.Proofs.Text.Blank

namespace Automation

namespace Action

open Json Numeral

variable {v : Value}

/-- A list, or an object with texts as keys. -/
inductive IsStructure : Value → Prop
  | list (vs : List Value) : IsStructure (.list vs)
  | object (fs : Fields Value) : IsStructure (.object fs)

theorem IsStructure.plain_eq (h : IsStructure v) : v.plain = Json.print .spaced v := by
  cases h <;> rfl

theorem IsStructure.parsed_eq (h : IsStructure v) : parsed v = .ok v := by
  cases h <;> rfl

/-- At the ends of a structure nothing is cut off, and by them it is recognized. -/
theorem IsStructure.looksStructured_chars (h : IsStructure v) (style : Style) :
    Text.stripChars (chars style v) = chars style v ∧ looksStructured (chars style v) = true := by
  rw [Text.stripChars_eq_self_iff]
  unfold looksStructured
  cases h with
  | list vs =>
    obtain ⟨hhead, hlast⟩ := ends_chars_list style vs
    rw [hhead, hlast]
    exact ⟨⟨by rintro _ ⟨⟩; rfl, by rintro _ ⟨⟩; rfl⟩, rfl⟩
  | object fs =>
    obtain ⟨hhead, hlast⟩ := ends_chars_object style fs
    rw [hhead, hlast]
    exact ⟨⟨by rintro _ ⟨⟩; rfl, by rintro _ ⟨⟩; rfl⟩, rfl⟩

/-- The text of a structure is read with the limits for data. -/
theorem IsStructure.parsed_plain (h : IsStructure v) : parsed (.text v.plain) =
    (data? (Json.print .spaced v)).map fun read => read.getD (.text v.plain) := by
  obtain ⟨hstrip, hlooks⟩ := h.looksStructured_chars .spaced
  have htext : v.plain.toList = chars .spaced v := by
    rw [h.plain_eq, Json.print, String.toList_ofList]
  unfold parsed
  simp only [htext, hstrip, hlooks, if_true]
  rw [data?, Json.print, String.toList_ofList]

/-- A structure is read back from its text just if it fits the limits of the reader. -/
theorem parsed_plain_iff (h : IsStructure v) (hdata : IsData v) :
    parsed (.text v.plain) = .ok v ↔ Fits .data 0 v := by
  have hread : parsed (.text v.plain) = .ok v ↔
      Json.read .data (Json.print .spaced v) = .ok v := by
    rw [h.parsed_plain, ← data?_eq_some_iff]
    rcases data? (Json.print .spaced v) with fault | _ | w
    · exact iff_of_false nofun nofun
    · -- a text that cannot be read is left alone, and a structure is no text
      refine iff_of_false (fun htext => ?_) nofun
      have htext : Value.text v.plain = v := Except.ok.inj htext
      rw [← htext] at h
      cases h
    · exact ⟨fun hw => congrArg (Except.ok ∘ some) (Except.ok.inj hw),
        fun hw => congrArg Except.ok (Option.some.inj (Except.ok.inj hw))⟩
  rw [hread]
  exact ⟨fun hv => fits_of_read hv hdata, fun hfits => read_print regular_spaced hfits⟩

/-- The entries among those that a value stands for. -/
def entriesIn : Value → Except Fault (List Entry)
  | .object fs => .ok (fs.map fun (k, v) => (.text k, v))
  | .table es => .ok (es.map fun (k, v) => (.ofKey k, v))
  | .list items => .ok (listedEntries items)
  | _ => .error .entriesMalformed

theorem entriesOf_set (config : Fields Value) (raw : Value) (hnull : raw ≠ .null) :
    entriesOf (config.set "entries" raw) = (parsed raw).bind entriesIn := by
  have hat : (config.set "entries" raw).at "entries" = raw := by
    rw [Fields.at, Fields.get?_set_self, Option.getD_some]
  unfold entriesOf
  rw [hat]
  split
  · exact absurd rfl hnull
  · refine congrArg (Except.bind _) (funext fun v => ?_)
    cases v <;> rfl

/-- A list of one integer that is too long is not read from its text. -/
theorem parsed_plain_of_not_isShort {n : ℤ} (h : ¬ IsShort n) :
    parsed (.text (Value.list [.int n]).plain) =
      .error (.tooManyDigits (Decimal.length n.natAbs)) := by
  have hstructure : IsStructure (.list [.int n]) := .list _
  have hread : Json.read .data (Json.print .spaced (.list [.int n])) =
      .error (.tooManyDigits (Decimal.length n.natAbs)) := read_of_long h (by decide)
  rw [hstructure.parsed_plain]
  unfold data? dataOfChars?
  unfold Json.read at hread
  rw [hread]
  rfl

/-- Lists inside one another, an empty one innermost. -/
def nested : ℕ → Value
  | 0 => .list []
  | n + 1 => .list [nested n]

theorem isStructure_nested (n : ℕ) : IsStructure (nested n) := by
  cases n <;> exact .list _

theorem isData_nested (n : ℕ) : IsData (nested n) := by
  induction n with
  | zero => exact .list (List.forall_mem_nil _)
  | succ n ih => exact .list (List.forall_mem_singleton.mpr ih)

theorem depth_nested (n : ℕ) : (nested n).depth = n + 1 := by
  induction n with
  | zero => rfl
  | succ n ih =>
    show max (nested n).depth 0 + 1 = n + 1 + 1
    rw [ih, Nat.max_zero]

/-- Lists that are nested deeper than the reader goes are not read from their text. -/
theorem parsed_plain_nested {n : ℕ} (h : Rules.data.depthLimit < n) :
    parsed (.text (nested n).plain) ≠ .ok (nested n) := by
  intro hparsed
  have hfits := (parsed_plain_iff (isStructure_nested n) (isData_nested n)).mp hparsed
  have hdepth := hfits.depth_le (Nat.zero_le _)
  rw [depth_nested] at hdepth
  omega

end Action

end Automation
