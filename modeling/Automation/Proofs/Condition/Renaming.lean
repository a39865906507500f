/-
Automation/Proofs/Condition/Renaming.lean

Binding the references of an expression is a renaming.

An expression is a draft: literals and bindings in turn.  The number of a reference is how many
different ones come before its first occurrence (`numberOf`), and that is its place among the
distinct references (`idxOf_distinct`).  So bindings get the same variable just if their references
are the same, the variables are numbered from zero on without a gap, and each stands for the
reference that it was made from (`bindReferences_renames`).  No view takes part in this; what
references are bound to comes in when the expression is evaluated.

Distinct references are gathered from the left, so facts about them go by induction on the list with
its last reference last.
-/
import Mathlib.Data.Finset.Card
import Mathlib.Data.List.Induction
import Mathlib.Data.List.TakeWhile
import Automation.Proofs.Binding.Interpolation
import Automation.Proofs.Condition
import Automation.Proofs.Fields
import Automation.Proofs.Number.Numeral

namespace Automation

open Binding Text

namespace Condition

variable {refs : List String} {ref : String}

/-! ### Distinct references -/

theorem nodup_distinct (refs : List String) : (distinct refs).Nodup := by
  induction refs using List.reverseRecOn with
  | nil => exact .nil
  | append_singleton refs last ih =>
    rw [distinct_concat]
    split
    · exact ih
    · next hnew => simpa using List.Nodup.concat hnew ih

/-- There are as many distinct references as there are different ones. -/
theorem length_distinct (refs : List String) : (distinct refs).length = refs.toFinset.card := by
  rw [← List.toFinset_card_of_nodup (nodup_distinct refs)]
  congr 1
  ext ref
  simp [mem_distinct_iff]

/-- Further references come behind. -/
theorem distinct_prefix (refs more : List String) : distinct refs <+: distinct (refs ++ more) := by
  induction more using List.reverseRecOn with
  | nil => rw [List.append_nil]
  | append_singleton more last ih =>
    rw [← List.append_assoc, distinct_concat]
    split
    · exact ih
    · exact ih.trans (List.prefix_append _ _)

/-! ### Numbers of references -/

/-- How many different references come before the first occurrence of a reference. -/
def numberOf (refs : List String) (ref : String) : ℕ := (refs.takeWhile (· != ref)).toFinset.card

/-- The variable of a reference. -/
def nameOf (refs : List String) (ref : String) : String := variableName (numberOf refs ref)

/-- The number of a reference is its place among the distinct ones. -/
theorem idxOf_distinct (h : ref ∈ refs) : (distinct refs).idxOf ref = numberOf refs ref := by
  obtain ⟨before, after, rfl, hnew⟩ := List.eq_append_cons_of_mem h
  have htake : (before ++ ref :: after).takeWhile (· != ref) = before := by
    rw [List.takeWhile_append_of_pos, List.takeWhile_cons_of_neg (by simp), List.append_nil]
    intro other hother
    simpa using ne_of_mem_of_not_mem hother hnew
  have hnew' : ref ∉ distinct before := fun hmem => hnew (mem_distinct_iff.mp hmem)
  -- what comes before the first occurrence is gathered first, and then the reference itself
  have hprefix : distinct before ++ [ref] <+: distinct (before ++ ref :: after) := by
    have hfirst := distinct_prefix (before ++ [ref]) after
    rwa [distinct_concat, if_neg hnew', List.append_assoc, List.singleton_append] at hfirst
  rw [← hprefix.idxOf_eq_of_mem List.mem_concat_self, List.idxOf_append_of_notMem hnew',
    List.idxOf_cons_self, Nat.add_zero, length_distinct, numberOf, htake]

theorem variableName_injective : Function.Injective variableName :=
  Decimal.append_repr_injective "_b"

/-- References have the same variable just if they are the same. -/
theorem nameOf_inj {r s : String} (hr : r ∈ refs) (hs : s ∈ refs) :
    nameOf refs r = nameOf refs s ↔ r = s := by
  rw [nameOf, nameOf, variableName_injective.eq_iff, ← idxOf_distinct hr, ← idxOf_distinct hs]
  exact List.idxOf_inj (mem_distinct_iff.mpr hr)

/-! ### The table of variables -/

theorem keys_numbered (refs : List String) :
    (numbered refs).keys = (List.range refs.length).map variableName := by
  have hplaces : refs.zipIdx.map Prod.snd = List.range refs.length := by
    rw [List.zipIdx_map_snd, List.range_eq_range']
  rw [← hplaces, List.map_map, Fields.keys, numbered, List.map_map]
  rfl

theorem mem_numbered_iff {name : String} :
    (name, ref) ∈ numbered refs ↔ ∃ i, refs[i]? = some ref ∧ name = variableName i := by
  simp [numbered, List.mk_mem_zipIdx_iff_getElem?, eq_comm]

/-- The variable of a reference stands for it, and no other does. -/
theorem get?_numbered_distinct {name : String} :
    (numbered (distinct refs)).get? name = some ref ↔ ref ∈ refs ∧ name = nameOf refs ref := by
  have hkeys : (numbered (distinct refs)).keys.Nodup := by
    rw [keys_numbered]
    exact List.nodup_range.map variableName_injective
  have hmem : (numbered (distinct refs)).get? name = some ref ↔
      (name, ref) ∈ numbered (distinct refs) :=
    ⟨Fields.mem_of_get?, fun h => Fields.get?_of_mem hkeys h⟩
  rw [hmem, mem_numbered_iff]
  constructor
  · rintro ⟨i, hi, rfl⟩
    have href : ref ∈ refs := mem_distinct_iff.mp (List.mem_of_getElem? hi)
    obtain ⟨hlt, rfl⟩ := List.getElem?_eq_some_iff.mp hi
    refine ⟨href, ?_⟩
    rw [nameOf, ← idxOf_distinct href, (nodup_distinct refs).idxOf_getElem]
  · rintro ⟨href, rfl⟩
    have hmem := mem_distinct_iff.mpr href
    refine ⟨numberOf refs ref, ?_, rfl⟩
    rw [← idxOf_distinct href, List.getElem?_idxOf hmem]

/-! ### Expressions as drafts -/

variable {d : Draft}

theorem evaluate_eq (view : View) (expression : String) : evaluate view expression =
    if isBlankText expression then .error .noExpression else
      (activation view (bindReferences (strip expression))).bind fun values =>
        (Expr.truthOf? (withoutReturn (bindReferences (strip expression)).source) values).elim
          (.error .expressionFailed) .ok := by
  unfold evaluate
  split
  · rfl
  · refine congrArg (Except.bind _) (funext fun values => ?_)
    split
    · next truth htruth => rw [htruth]; rfl
    · next hnone => rw [hnone]; rfl

/-- Binding the references of an expression renames them.  The text of a draft stays as it is but
for its bindings, which become variables: the same one for the same reference, and `_b0`, `_b1`, … by
first occurrences.  The table sends each variable back to its reference and has no other variables.
What is evaluated is one source, whatever is bound to the references. -/
theorem bindReferences_renames (h : d.Proper) :
    let refs := d.rest.map fun part => strip part.1
    let b := bindReferences d.text
    b.source = d.insert (fun ref => nameOf refs (strip ref)) ∧
    (∀ r ∈ refs, ∀ s ∈ refs, nameOf refs r = nameOf refs s ↔ r = s) ∧
    b.references.keys = (List.range refs.toFinset.card).map (fun i => "_b" ++ Nat.repr i) ∧
    (∀ name ref, b.references.get? name = some ref ↔ ref ∈ refs ∧ name = nameOf refs ref) ∧
    ∃ source, ∀ view, evaluate view d.text =
      if isBlankText d.text then .error .noExpression else (activation view b).bind fun values =>
        (Expr.truthOf? source values).elim (.error .expressionFailed) .ok := by
  intro refs b
  have hrefs : referencesIn d.text = refs := Draft.referencesIn_text h
  have htable : b.references = numbered (distinct refs) := by rw [← hrefs]; rfl
  refine ⟨?_, fun r hr s hs => nameOf_inj hr hs, ?_, ?_, ?_⟩
  · show fill (fun ref => variableName ((distinct (referencesIn d.text)).idxOf ref)) d.text = _
    rw [hrefs, Draft.fill_text h]
    refine Draft.insert_congr fun part hpart => ?_
    have hmem : strip part.1 ∈ refs := List.mem_map_of_mem hpart
    rw [idxOf_distinct hmem, nameOf]
  · rw [htable, keys_numbered, length_distinct]
    rfl
  · intro name ref
    rw [htable]
    exact get?_numbered_distinct
  · refine ⟨withoutReturn (bindReferences (strip d.text)).source, fun view => ?_⟩
    have hstrip : activation view (bindReferences (strip d.text)) = activation view b := by
      simp [activation, b, bindReferences, referencesIn_strip]
    rw [evaluate_eq, hstrip]

/-- Literals with stray braces, and references that are repeated with other white space. -/
theorem bindReferences_renames_among_braces :
    let d : Draft := ⟨"\x7b",
      [(" n.a", " > 1 && "), ("b ", "\x7d == \x7b\x7b\x7d"), ("n.a ", " + "), ("b", "")]⟩
    d.Proper ∧
      (bindReferences d.text).source = "\x7b_b0 > 1 && _b1\x7d == \x7b\x7b\x7d_b0 + _b1" ∧
      (bindReferences d.text).references.get? "_b1" = some "b" ∧
      (bindReferences d.text).references.keys = ["_b0", "_b1"] := by
  intro d
  have hproper : d.Proper := by decide +kernel
  obtain ⟨hsource, -, hkeys, hget, -⟩ := bindReferences_renames hproper
  refine ⟨hproper, ?_, ?_, ?_⟩
  · rw [hsource]
    decide +kernel
  · rw [hget]
    decide +kernel
  · rw [hkeys]
    decide +kernel

end Condition

end Automation
