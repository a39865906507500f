/-
Automation/Proofs/Flow/Problem.lean

When a flow has no structural problems.

The problems of a flow are gathered in passes over its nodes and its edges, each with the
ids that came before.  Read from behind, an empty list says of each node and each edge what
it says of the whole flow: the flow is well formed (`problems_eq_nil_iff`).
-/
import Mathlib.Data.List.DropRight
import Mathlib.Data.List.TakeWhile
import Automation.Proofs.Flow.Graph

namespace Automation

/-- A text is blank if nothing is left of it without the white space at its ends. -/
theorem Text.isBlankText_iff {s : String} : Text.isBlankText s = true ↔ Text.strip s = "" := by
  have hstrip : Text.strip s = "" ↔ Text.stripChars s.toList = [] := by
    rw [Text.strip, ← String.ofList_nil, String.ofList_inj]
  rw [hstrip]
  show s.toList.all Text.isBlank = true ↔
    (s.toList.dropWhile Text.isBlank).rdropWhile Text.isBlank = []
  rw [List.rdropWhile_eq_nil_iff, List.all_eq_true]
  constructor
  · intro hall
    simp [List.dropWhile_eq_nil_iff.mpr hall]
  · -- what is left in front begins with a character that is not blank, so it is nothing
    intro hall
    apply List.dropWhile_eq_nil_iff.mp
    rcases hleft : s.toList.dropWhile Text.isBlank with - | ⟨c, rest⟩
    · rfl
    · have hne : s.toList.dropWhile Text.isBlank ≠ [] := by simp [hleft]
      have hhead := List.head_dropWhile_not Text.isBlank hne
      have hblank := hall c (by simp [hleft])
      simp [hleft, hblank] at hhead

namespace Document

/-- What a flow needs so that it can be run. -/
structure WellFormed (d : Document) : Prop where
  /-- The id of a node is more than white space. -/
  named : ∀ n ∈ d.nodes, Text.strip n.id ≠ ""
  nodeIds : (d.nodes.map Node.id).Nodup
  /-- One node is of a kind that begins a run. -/
  start : d.nodes.countP Node.isStart = 1
  edgeIds : (d.edges.map Edge.id).Nodup
  /-- An edge joins two nodes of the flow. -/
  joined : ∀ e ∈ d.edges, e.source ∈ d.nodes.map Node.id ∧ e.target ∈ d.nodes.map Node.id

/-- Of the rest of a list nothing is in the list and nothing equals its head. -/
theorem fresh_cons_iff {α : Type*} (id : α → String) {x : α} {rest : List α} {seen : List String} :
    ((∀ y ∈ rest, id y ∉ id x :: seen) ∧ (rest.map id).Nodup) ↔
      (∀ y ∈ rest, id y ∉ seen) ∧ ((x :: rest).map id).Nodup := by
  rw [List.map_cons, List.nodup_cons]
  constructor
  · rintro ⟨hrest, hnodup⟩
    refine ⟨fun y hy hseen => hrest y hy (List.mem_cons_of_mem _ hseen), fun hmem => ?_, hnodup⟩
    obtain ⟨y, hy, hid⟩ := List.mem_map.mp hmem
    exact hrest y hy (hid ▸ List.mem_cons_self)
  · rintro ⟨hrest, hfresh, hnodup⟩
    refine ⟨fun y hy hseen => ?_, hnodup⟩
    rcases List.mem_cons.mp hseen with hid | hseen
    · exact hfresh (List.mem_map.mpr ⟨y, hy, hid⟩)
    · exact hrest y hy hseen

theorem nodeProblems_eq_nil_iff {seen : List String} {nodes : List Node} :
    nodeProblems seen nodes = [] ↔ (∀ n ∈ nodes, Text.strip n.id ≠ "") ∧
      (∀ n ∈ nodes, n.id ∉ seen) ∧ (nodes.map Node.id).Nodup := by
  induction nodes generalizing seen with
  | nil => simp [nodeProblems]
  | cons n rest ih =>
    -- the node itself is neither blank nor repeated
    have hnode : (if Text.isBlankText n.id then [Problem.blankNodeId]
        else if seen.contains n.id then [.repeatedNode n.id] else []) = []
          ↔ Text.strip n.id ≠ "" ∧ n.id ∉ seen := by
      rw [Ne, ← Text.isBlankText_iff]
      by_cases hblank : Text.isBlankText n.id = true <;> simp [hblank]
    rw [nodeProblems, List.append_eq_nil_iff, hnode, ih, fresh_cons_iff, List.forall_mem_cons,
      List.forall_mem_cons]
    constructor
    · rintro ⟨⟨hname, hfresh⟩, hnames, hrest, hnodup⟩
      exact ⟨⟨hname, hnames⟩, ⟨hfresh, hrest⟩, hnodup⟩
    · rintro ⟨⟨hname, hnames⟩, ⟨hfresh, hrest⟩, hnodup⟩
      exact ⟨⟨hname, hfresh⟩, hnames, hrest, hnodup⟩

theorem startProblems_eq_nil_iff {nodes : List Node} :
    startProblems nodes = [] ↔ nodes.countP Node.isStart = 1 := by
  have hlength : ((nodes.filter Node.isStart).map Node.id).length = nodes.countP Node.isStart := by
    rw [List.length_map, List.countP_eq_length_filter]
  rw [startProblems, ← hlength]
  rcases (nodes.filter Node.isStart).map Node.id with - | ⟨id, - | ⟨other, ids⟩⟩ <;> simp

theorem edgeProblems_eq_nil_iff {nodeIds seen : List String} {edges : List Edge} :
    edgeProblems nodeIds seen edges = [] ↔
      (∀ e ∈ edges, e.source ∈ nodeIds ∧ e.target ∈ nodeIds) ∧
        (∀ e ∈ edges, e.id ∉ seen) ∧ (edges.map Edge.id).Nodup := by
  induction edges generalizing seen with
  | nil => simp [edgeProblems]
  | cons e rest ih =>
    -- the edge itself has none of the three problems
    have hedge : ((if seen.contains e.id then [Problem.repeatedEdge e.id] else [])
        ++ (if nodeIds.contains e.source then [] else [Problem.unknownSource e.id e.source])
        ++ (if nodeIds.contains e.target then [] else [Problem.unknownTarget e.id e.target]) = [])
          ↔ (e.source ∈ nodeIds ∧ e.target ∈ nodeIds) ∧ e.id ∉ seen := by
      simp only [List.append_eq_nil_iff, List.contains_iff_mem, ite_eq_left_iff,
        ite_eq_right_iff, List.cons_ne_self, imp_false, not_not]
      rw [and_assoc, and_comm]
    rw [edgeProblems, List.append_eq_nil_iff, hedge, ih, fresh_cons_iff, List.forall_mem_cons,
      List.forall_mem_cons]
    constructor
    · rintro ⟨⟨hends, hfresh⟩, hjoined, hrest, hnodup⟩
      exact ⟨⟨hends, hjoined⟩, ⟨hfresh, hrest⟩, hnodup⟩
    · rintro ⟨⟨hends, hjoined⟩, ⟨hfresh, hrest⟩, hnodup⟩
      exact ⟨⟨hends, hfresh⟩, hjoined, hrest, hnodup⟩

/-- A flow has no problems just if it is well formed. -/
theorem problems_eq_nil_iff {d : Document} : d.problems = [] ↔ d.WellFormed := by
  rw [problems, List.append_eq_nil_iff, List.append_eq_nil_iff, nodeProblems_eq_nil_iff,
    startProblems_eq_nil_iff, edgeProblems_eq_nil_iff]
  constructor
  · rintro ⟨⟨⟨hnamed, -, hnodeIds⟩, hstart⟩, hjoined, -, hedgeIds⟩
    exact ⟨hnamed, hnodeIds, hstart, hedgeIds, hjoined⟩
  · intro h
    exact ⟨⟨⟨h.named, by simp, h.nodeIds⟩, h.start⟩, h.joined, by simp, h.edgeIds⟩

end Document

/-- A flow without problems can be run. -/
theorem Graph.exists_ofDocument {d : Document} (h : d.problems = []) :
    ∃ g, Graph.ofDocument d = .ok g ∧ g.document = d := by
  have hstart : ∃ n ∈ d.nodes, n.isStart = true := by
    have hcount := (Document.problems_eq_nil_iff.mp h).start
    exact List.countP_pos_iff.mp (by omega)
  unfold Graph.ofDocument
  rw [dif_pos h]
  split
  · next start hfind => exact ⟨_, rfl, rfl⟩
  · next hfind =>
    obtain ⟨n, hn, hkind⟩ := hstart
    exact absurd hkind (List.find?_eq_none.mp hfind n hn)

theorem Graph.document_of_ofDocument {d : Document} {g : Graph}
    (h : Graph.ofDocument d = .ok g) : g.document = d := by
  unfold Graph.ofDocument at h
  split at h
  · split at h
    · cases h
      rfl
    · cases h
  · cases h

end Automation
