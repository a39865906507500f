/-
Automation/Proofs/Binding/Upstream.lean

The ways of reading a result.

A binding names a node and a field of its result in one reference, which is walked as a path into
all results.  The source of a loop variable and the settings of a filter name the node and the
field apart, and the field is walked as a path into the result of the node.  Both walks take the
same steps (`Path.ofText_dot`), white space at the end of the reference aside
(`Path.ofText_append_blanks`).  So all of them read the same value, and no variable, secret or
environment has a part in it (`resolve_upstream`).
-/
import Automation.Action.Filter
import Automation.Loop.Plan
import Automation.Proofs.Binding.Reference
import Automation.Proofs.Value.Path

namespace Automation

open Automation.Text

/-! ### Paths cut at dots -/

namespace Text

theorem cut_append (mark : Char) (cs ds : List Char) :
    cut mark (cs ++ mark :: ds) = cut mark cs ++ cut mark ds :=
  List.splitOnP_append_cons cs ds (beq_self_eq_true mark)

theorem cut_of_not_mem {mark : Char} {cs : List Char} (h : mark ∉ cs) : cut mark cs = [cs] := by
  apply List.splitOnP_eq_singleton
  intro c hc
  simpa using fun heq : c = mark => h (heq ▸ hc)

/-- The parts of a text, the last of them with what is put behind the text. -/
theorem cut_append_of_not_mem {mark : Char} (cs : List Char) {ds : List Char} (h : mark ∉ ds) :
    ∃ front last, cut mark cs = front ++ [last] ∧ cut mark (cs ++ ds) = front ++ [last ++ ds] := by
  by_cases hmem : mark ∈ cs
  · obtain ⟨before, after, hcs, hbefore⟩ :=
      List.eq_append_cons_of_mem (List.mem_reverse.mpr hmem)
    have hlast : cs = after.reverse ++ mark :: before.reverse := by
      rw [← List.reverse_reverse cs, hcs]
      simp
    have hbefore' : mark ∉ before.reverse := by simpa using hbefore
    refine ⟨cut mark after.reverse, before.reverse, ?_, ?_⟩
    · rw [hlast, cut_append, cut_of_not_mem hbefore']
    · rw [hlast, List.append_assoc, List.cons_append, cut_append,
        cut_of_not_mem (List.mem_append.not.mpr (not_or.mpr ⟨hbefore', h⟩))]
  · exact ⟨[], cs, cut_of_not_mem hmem,
      cut_of_not_mem (List.mem_append.not.mpr (not_or.mpr ⟨hmem, h⟩))⟩

end Text

namespace Path

/-- The path of a name and a dot is that of the name and that of what follows. -/
theorem ofText_dot (name field : String) :
    ofText (name ++ "." ++ field) = ofText name ++ ofText field := by
  have hchars : (name ++ "." ++ field).toList = name.toList ++ '.' :: field.toList := by simp
  unfold ofText
  simp only [hchars, cut_append, List.map_append, List.filter_append]

/-- White space at the end of a path does not count. -/
theorem ofText_append_blanks (cs : List Char) {blanks : List Char}
    (h : ∀ c ∈ blanks, isBlank c = true) :
    ofText (String.ofList (cs ++ blanks)) = ofText (String.ofList cs) := by
  have hdot : '.' ∉ blanks := fun hmem => absurd (h _ hmem) (by decide)
  obtain ⟨front, last, hcut, hblanks⟩ := cut_append_of_not_mem cs hdot
  unfold ofText
  simp only [String.toList_ofList, hcut, hblanks, List.map_append, List.map_cons, List.map_nil,
    stripChars_append_blanks last h]

end Path

/-! ### References to results -/

namespace Binding

/-- A field path without the white space at its end, as it stands at the end of a reference. -/
def trimmedField (field : String) : String := String.ofList (dropEndWhile isBlank field.toList)

/-- The first segment of the field path of a reference. -/
def firstSegment (field : String) : String := (headAndRest (trimmedField field)).1

theorem strip_reference {node : String} (h : IsName node) (field : String) :
    strip (node ++ "." ++ field) = node ++ "." ++ trimmedField field := by
  have hne : node.toList ≠ [] := fun hnil => h.nonempty (String.toList_inj.mp hnil)
  have hchars : (node ++ "." ++ field).toList = node.toList ++ '.' :: field.toList := by simp
  rw [strip, hchars, stripChars_append_cons hne (strip_eq_self_iff.mp h.trimmed) (by decide)]
  apply String.toList_inj.mp
  simp [trimmedField]

theorem ofText_trimmedField (field : String) :
    Path.ofText (trimmedField field) = Path.ofText field := by
  obtain ⟨blanks, hblanks, hfield⟩ := exists_eq_dropEndWhile field.toList
  have happend := Path.ofText_append_blanks (dropEndWhile isBlank field.toList) hblanks
  rw [← hfield, String.ofList_toList] at happend
  exact happend.symm

/-- A node whose results can be referred to: its name is no part of the grammar of references, and
neither of the heads that are reserved. -/
structure IsReferable (node : String) : Prop where
  isName : IsName node
  inside : IsInside node.toList
  not_env : node ≠ "env"
  not_secrets : node ≠ "secrets"

end Binding

open Binding

namespace View

variable {view : View} {node field : String} {r : Value}

/-- A path into the results leads through the result of its node. -/
theorem at_results (hname : IsName node) (hresult : view.results.get? node = some r)
    (hr : r ≠ .null) (field : String) :
    (Value.object view.results).at (node ++ "." ++ field) = r.at field := by
  have hselect : (Value.object view.results).select ⟨node, []⟩ = .ok r := by
    rw [Value.select_name hname, hresult, Option.getD_some]
  unfold Value.at
  rw [Path.ofText_dot, Path.ofText_name hname, List.singleton_append, Value.follow, hselect]
  split
  · next heq => cases heq
  · next heq => exact absurd (Except.ok.inj heq) hr
  · next heq => rw [Except.ok.inj heq]

/-- A reference to a field of a result is looked up in the result. -/
theorem lookup_reference (hnode : IsReferable node) (hresult : view.results.get? node = some r)
    (hr : r ≠ .null) (hname : view.loopScope.has node = false)
    (hfull : view.loopScope.has (strip (node ++ "." ++ field)) = false)
    (hframe : view.loopFrames.has node = true → firstSegment field ≠ frameMarker) :
    view.lookup (strip (node ++ "." ++ field)) = r.at field := by
  have hdot : '.' ∉ node.toList := fun hmem => (hnode.isName.chars _ hmem).1 rfl
  have hbracket : '[' ∉ node.toList := fun hmem => (hnode.isName.chars _ hmem).2.1 rfl
  have hsegment := segmentName_of_not_mem hbracket
  rw [strip_reference hnode.isName] at hfull ⊢
  have hcut := headAndRest_dot hdot (trimmedField field)
  have hne : node ++ "." ++ trimmedField field ≠ "" := fun hempty => by
    simpa using congrArg String.toList hempty
  rw [lookup_result hne (not_reserved_of_head hcut hnode.not_env hnode.not_secrets)
    (Fields.has_eq_false_iff.mp hfull) hcut ?_ (by rwa [hsegment])
    (by rw [hsegment]; exact Fields.has_iff.mpr ⟨r, hresult⟩), at_results hnode.isName hresult hr]
  · rw [Value.at, ofText_trimmedField, ← Value.at]
  · intro hmarker
    rw [← Fields.has_eq_false_iff, ← Bool.not_eq_true]
    exact fun hhas => hframe hhas hmarker

theorem results_at (hresult : view.results.get? node = some r) : view.results.at node = r := by
  show (view.results.get? node).getD .null = r
  rw [hresult]
  rfl

/-- The elements that a loop variable goes through are those of the field of the result. -/
theorem source?_eq (hnode : node ≠ "") (hfield : field ≠ "")
    (hresult : view.results.get? node = some r) (trims : Bool) {v : Loop.Variable}
    (hsourceNode : v.sourceNode = node) (hsourceField : v.sourceField = field) :
    Loop.Plan.source? trims view v = (r.at field).map (Loop.Plan.elements? trims) := by
  have hsource : v.hasSource = true := by
    simp [Loop.Variable.hasSource, hsourceNode, hsourceField, hnode, hfield]
  unfold Loop.Plan.source? Loop.Plan.sourceValue
  rw [if_pos hsource, hsourceNode, hsourceField, results_at hresult]

/-- What a filter keeps records of is the field of the result. -/
theorem filterSource_eq (hresult : view.results.get? node = some r) {config : Fields Value}
    (hitems : config.get? "items" = none) (hsourceNode : config.at "sourceNodeId" = .text node)
    (hsourceField : config.at "outputField" = .text field) :
    Action.filterSource config view = r.at field := by
  have hpath : Action.pathOf (.text field) = .ok field := by
    unfold Action.pathOf Value.orElse
    by_cases hempty : field = ""
    · rw [hempty]
      rfl
    · simp [Value.isTruthy, hempty]
  unfold Action.filterSource
  simp only [hitems, hsourceNode, hsourceField, hpath, Action.namedResult, results_at hresult]
  rfl

/-- A binding to a field of a result, the source of a loop variable and that of a filter read the
same value, whatever variables, environment and secrets there are.  The result of a node is an
object; for any other value but null it would be the same. -/
theorem resolve_upstream (hnode : IsReferable node) (hfield : IsInside field.toList)
    (hresult : view.results.get? node = some r) (hr : r ≠ .null)
    (hname : view.loopScope.has node = false)
    (hfull : view.loopScope.has (strip (node ++ "." ++ field)) = false)
    (hframe : view.loopFrames.has node = true → firstSegment field ≠ frameMarker) :
    (∀ declared environment secrets,
        { view with declared, environment, secrets }.resolve (bindingTo (node ++ "." ++ field)) =
          r.at field) ∧
      (∀ trims v, v.sourceNode = node → v.sourceField = field →
        Loop.Plan.sourceValue view v = r.at field ∧
          Loop.Plan.source? trims view v = (r.at field).map (Loop.Plan.elements? trims)) ∧
      ∀ config : Fields Value, config.get? "items" = none →
        config.at "sourceNodeId" = .text node → config.at "outputField" = .text field →
          Action.filterSource config view = r.at field := by
  have hinside : IsInside (node ++ "." ++ field).toList := by
    apply isInside_append _ hfield
    rw [String.toList_append]
    exact List.forall_mem_append.mpr ⟨hnode.inside.chars, List.forall_mem_singleton.mpr rfl⟩
  have hne : field ≠ "" := fun hempty => hfield.ne_nil (by rw [hempty]; rfl)
  refine ⟨fun declared environment secrets => ?_, fun trims v hv hfieldv => ⟨?_, ?_⟩,
    fun config hitems hsourceNode hsourceField => ?_⟩
  · rw [resolve_bindingTo _ hinside]
    exact lookup_reference hnode hresult hr hname hfull hframe
  · rw [Loop.Plan.sourceValue, hv, hfieldv, results_at hresult]
  · exact source?_eq hnode.isName.nonempty hne hresult trims hv hfieldv
  · exact filterSource_eq hresult hitems hsourceNode hsourceField

/-- A view inside an iteration of the loop `fetch`, whose last result is there as well. -/
def afterFetch : View :=
  { bare ⟨"run-1", .null, ⟨"", 0⟩⟩ with
    results := [("fetch", .object [("items", .list [.int 7, .int 8])])]
    loopFrames := [("fetch", .object [("index", .int 0)])] }

/-- The second item of that result is read in all ways. -/
theorem resolve_upstream_fetch :
    (∀ declared environment secrets,
        { afterFetch with declared, environment, secrets }.resolve
          (bindingTo ("fetch" ++ "." ++ "items[1] ")) = .ok (.int 8)) ∧
      (∀ trims v, v.sourceNode = "fetch" → v.sourceField = "items[1] " →
        Loop.Plan.sourceValue afterFetch v = .ok (.int 8) ∧
          Loop.Plan.source? trims afterFetch v = .ok (Loop.Plan.elements? trims (.int 8))) ∧
      ∀ config : Fields Value, config.get? "items" = none →
        config.at "sourceNodeId" = .text "fetch" → config.at "outputField" = .text "items[1] " →
          Action.filterSource config afterFetch = .ok (.int 8) := by
  apply resolve_upstream (r := .object [("items", .list [.int 7, .int 8])])
  · exact ⟨by decide, by decide, by decide, by decide⟩
  · decide
  · rfl
  · exact Value.noConfusion
  · rfl
  · rfl
  · decide

end View

end Automation
