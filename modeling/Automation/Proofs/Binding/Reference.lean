/-
Automation/Proofs/Binding/Reference.lean

A single reference, and where it is looked up.

A text that is one binding is resolved to what its reference refers to (`resolve_bindingTo`).  A
reference that is not reserved is looked up among the bindings of the loops by its full name
(`lookup_scope`), then in the frame of a loop (`lookup_frame`), then as a path into the results
(`lookup_result`).  Each of these says what has to be absent before it.
-/
import Automation.Proofs.Binding.Interpolation
import Automation.Proofs.Binding.View

namespace Automation

open Automation.Text

namespace Text

theorem cutOnce_append {mark : Char} {cs : List Char} (h : mark ∉ cs) (rest : List Char) :
    cutOnce mark (cs ++ mark :: rest) = (cs, rest) := by
  induction cs with
  | nil => simp [cutOnce]
  | cons c cs ih =>
    obtain ⟨hc, hcs⟩ := not_or.mp (List.mem_cons.not.mp h)
    rw [List.cons_append, cutOnce, if_neg (Ne.symm hc), ih hcs]

theorem cutOnce_of_not_mem {mark : Char} {cs : List Char} (h : mark ∉ cs) :
    cutOnce mark cs = (cs, []) := by
  induction cs with
  | nil => rfl
  | cons c cs ih =>
    obtain ⟨hc, hcs⟩ := not_or.mp (List.mem_cons.not.mp h)
    rw [cutOnce, if_neg (Ne.symm hc), ih hcs]

end Text

namespace Binding

/-! ### The parts of a reference -/

theorem headAndRest_dot {head : String} (h : '.' ∉ head.toList) (rest : String) :
    headAndRest (head ++ "." ++ rest) = (head, rest) := by
  have hchars : (head ++ "." ++ rest).toList = head.toList ++ '.' :: rest.toList := by simp
  unfold headAndRest
  rw [hchars, cutOnce_append h]
  simp

theorem headAndRest_of_not_mem {name : String} (h : '.' ∉ name.toList) :
    headAndRest name = (name, "") := by
  unfold headAndRest
  rw [cutOnce_of_not_mem h]
  simp

theorem segmentName_of_not_mem {name : String} (h : '[' ∉ name.toList) :
    segmentName name = name := by
  have hall : name.toList.takeWhile (· != '[') = name.toList := by
    apply List.takeWhile_eq_self_iff.mpr
    intro c hc
    simpa using fun heq : c = '[' => h (heq ▸ hc)
  rw [segmentName, hall, String.ofList_toList]

/-- Only the environment and the secrets are reserved. -/
theorem not_reserved_of_head {ref head rest : String} (hcut : headAndRest ref = (head, rest))
    (henv : head ≠ "env") (hsecrets : head ≠ "secrets") : ¬ Reserved ref := by
  have hhead : ∀ start : String, '.' ∉ start.toList →
      startsWith ref (start ++ ".") = true → head = start := by
    intro start hdot hstart
    obtain ⟨tail, htail⟩ := List.isPrefixOf_iff_prefix.mp hstart
    have href : ref = start ++ "." ++ String.ofList tail := by
      apply String.toList_inj.mp
      simp [← htail]
    rw [href, headAndRest_dot hdot] at hcut
    exact (Prod.mk.inj hcut).1.symm
  rintro (h | h)
  · exact henv (hhead "env" (by decide) h)
  · exact hsecrets (hhead "secrets" (by decide) h)

/-! ### Texts that are one binding -/

/-- The text that is one binding. -/
def bindingTo (ref : String) : Value := .text ("\x7b\x7b" ++ ref ++ "\x7d\x7d")

theorem soleReference?_bindingTo {ref : String} (h : IsInside ref.toList) :
    soleReference? ("\x7b\x7b" ++ ref ++ "\x7d\x7d") = some (strip ref) := by
  have hproper : Draft.Proper ⟨"", [(ref, "")]⟩ := by
    have hnothing : IsLiteral [] := pieces_eq_chars_iff.mp (by simp)
    exact ⟨by simpa using h, hnothing, by simpa using hnothing⟩
  have hsole := Draft.soleReference?_text hproper
  simpa [Draft.text, Draft.insert, Draft.sole?, isBlankText] using hsole

/-- A name that a binding can refer to as it stands. -/
structure IsBindable (name : String) : Prop where
  inside : IsInside name.toList
  trimmed : strip name = name
  unreserved : ¬ Reserved name

instance (name : String) : Decidable (IsBindable name) :=
  decidable_of_iff (IsInside name.toList ∧ strip name = name ∧ ¬ Reserved name)
    ⟨fun h => ⟨h.1, h.2.1, h.2.2⟩, fun h => ⟨h.inside, h.trimmed, h.unreserved⟩⟩

theorem IsBindable.ne_empty {name : String} (h : IsBindable name) : name ≠ "" :=
  fun hempty => h.inside.ne_nil (by rw [hempty]; rfl)

/-- What is put behind a name that is not reserved does not make it so, if it has no dot. -/
theorem not_reserved_append {name ending : String} (h : ¬ Reserved name)
    (hending : '.' ∉ ending.toList) : ¬ Reserved (name ++ ending) := by
  have hstart : ∀ head : String,
      startsWith (name ++ ending) (head ++ ".") = true → startsWith name (head ++ ".") = true := by
    intro head hhead
    have hlong : (head ++ ".").toList <+: name.toList ++ ending.toList := by
      rw [← String.toList_append]
      exact List.isPrefixOf_iff_prefix.mp hhead
    apply List.isPrefixOf_iff_prefix.mpr
    rcases List.prefix_or_prefix_of_prefix hlong (List.prefix_append _ _) with hshort | hshort
    · exact hshort
    -- the head ends with a dot, which is not in the ending
    obtain ⟨more, hmore⟩ := hshort
    rcases List.eq_nil_or_concat more with rfl | ⟨front, c, rfl⟩
    · have hsame : name.toList = (head ++ ".").toList := by rw [← hmore, List.append_nil]
      exact hsame ▸ List.prefix_rfl
    · have hdot : c = '.' := by
        have hlast := congrArg List.getLast? hmore
        simpa using hlast
      rw [← hmore, List.prefix_append_right_inj] at hlong
      exact absurd (hlong.subset (by simp [hdot])) hending
  rintro (henv | hsecrets)
  · exact h (.inl (hstart "env" henv))
  · exact h (.inr (hstart "secrets" hsecrets))

theorem isInside_append {name ending : String} (h : ∀ c ∈ name.toList, isReferenceChar c = true)
    (hending : IsInside ending.toList) : IsInside (name ++ ending).toList := by
  rw [String.toList_append]
  refine ⟨List.append_ne_nil_of_right_ne_nil _ hending.ne_nil, fun c hc => ?_⟩
  exact (List.mem_append.mp hc).elim (h c) (hending.chars c)

/-- A name with something behind it can be referred to as the name can. -/
theorem IsBindable.append {name ending : String} (h : IsBindable name)
    (hinside : IsInside ending.toList) (htrimmed : strip ending = ending)
    (hdot : '.' ∉ ending.toList) : IsBindable (name ++ ending) :=
  ⟨isInside_append h.inside.chars hinside, strip_append h.trimmed htrimmed,
    not_reserved_append h.unreserved hdot⟩

end Binding

open Binding

namespace View

variable {v : View} {ref head rest : String}

/-- A text that is one binding is resolved to what its reference refers to. -/
theorem resolve_bindingTo (v : View) (h : IsInside ref.toList) :
    v.resolve (bindingTo ref) = v.lookup (strip ref) := by
  rw [bindingTo, resolve, soleReference?_bindingTo h]

/-! ### Where a reference is looked up -/

/-- A name of the bindings of the loops. -/
theorem lookup_scope (hne : ref ≠ "") (h : ¬ Reserved ref) {x : Value}
    (hbound : v.loopScope.get? ref = some x) : v.lookup ref = .ok x := by
  rcases hcut : headAndRest ref with ⟨head, rest⟩
  unfold lookup
  rw [if_neg (by simpa using hne)]
  simp only [hcut, if_neg (not_env_of_not_reserved h hcut),
    if_neg (not_secrets_of_not_reserved h hcut), hbound]

/-- A binding to a name that the loops around have bound. -/
theorem resolve_scope {name : String} (h : IsBindable name) {x : Value}
    (hbound : v.loopScope.get? name = some x) : v.resolve (bindingTo name) = .ok x := by
  rw [resolve_bindingTo v h.inside, h.trimmed, lookup_scope h.ne_empty h.unreserved hbound]

/-- A path into the frame of a loop. -/
theorem lookup_frame (hne : ref ≠ "") (h : ¬ Reserved ref)
    (hbound : v.loopScope.get? ref = none) (hcut : headAndRest ref = (head, rest)) {path : String}
    (hmarker : headAndRest rest = (frameMarker, path)) {frame : Value}
    (hframe : v.loopFrames.get? head = some frame) : v.lookup ref = frameValue frame path := by
  unfold lookup
  rw [if_neg (by simpa using hne)]
  simp only [hcut, if_neg (not_env_of_not_reserved h hcut),
    if_neg (not_secrets_of_not_reserved h hcut), hbound, hmarker, if_true, hframe]

/-- A path into the results. -/
theorem lookup_result (hne : ref ≠ "") (h : ¬ Reserved ref) (hbound : v.loopScope.get? ref = none)
    (hcut : headAndRest ref = (head, rest))
    (hframe : (headAndRest rest).1 = frameMarker → v.loopFrames.get? head = none)
    (hscope : v.loopScope.has (segmentName head) = false)
    (hresult : v.results.has (segmentName head) = true) :
    v.lookup ref = (Value.object v.results).at ref := by
  have hnone : (if (headAndRest rest).1 = frameMarker then v.loopFrames.get? head else none) =
      none := by
    split
    · next hmarker => exact hframe hmarker
    · rfl
  unfold lookup
  rw [if_neg (by simpa using hne)]
  simp only [hcut, if_neg (not_env_of_not_reserved h hcut),
    if_neg (not_secrets_of_not_reserved h hcut), hbound, hnone, hscope, hresult, if_true,
    Bool.false_eq_true, if_false]

end View

end Automation
