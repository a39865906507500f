/-
Automation/Proofs/Flow/Graph.lean

What is found in a sound flow.

A graph carries the proof that its document has no problems.  What a run relies on
is read off that proof here: the node that is found under an id has that id, and
every edge leads to a node.
-/
import Mathlib.Data.List.Basic
import Automation.Flow.Graph
import Automation.Proofs.Fields

namespace Automation

namespace Graph

/-- The node that is found under an id has that id. -/
theorem id_of_node? {g : Graph} {id : String} {n : Node} (h : g.node? id = some n) :
    n.id = id := by
  simpa using List.find?_some h

/-- The id of each node of a flow leads to a node. -/
theorem exists_node? {g : Graph} {id : String} (h : id ∈ g.nodes.map Node.id) :
    ∃ n, g.node? id = some n := by
  obtain ⟨n, hn, rfl⟩ := List.mem_map.mp h
  have hsome : (g.nodes.find? fun m => m.id == n.id).isSome := by
    rw [List.find?_isSome]
    exact ⟨n, hn, by simp⟩
  exact Option.isSome_iff_exists.mp hsome

end Graph

namespace Document

/-- Without problems of edges each edge leads to one of the nodes. -/
theorem target_of_edgeProblems {nodeIds seen : List String} {edges : List Edge}
    (h : edgeProblems nodeIds seen edges = []) {e : Edge} (he : e ∈ edges) :
    e.target ∈ nodeIds := by
  -- the ids of the edges before do not matter for the targets
  induction edges generalizing seen with
  | nil => cases he
  | cons first rest ih =>
    simp only [edgeProblems, List.append_eq_nil_iff] at h
    obtain ⟨⟨⟨-, -⟩, htarget⟩, hrest⟩ := h
    rcases List.mem_cons.mp he with rfl | he
    · by_contra hnot
      simp [hnot] at htarget
    · exact ih hrest he

end Document

namespace Graph

/-- Every edge of a sound flow leads to a node. -/
theorem exists_target {g : Graph} {e : Edge} (h : e ∈ g.edges) : ∃ n, g.node? e.target = some n := by
  have hsound := g.sound
  simp only [Document.problems, List.append_eq_nil_iff] at hsound
  exact exists_node? (Document.target_of_edgeProblems hsound.2 h)

/-- Under each node the index has the edges that leave it, in the order of all edges. -/
theorem getD_bySource (edges : List Edge) (id : String) :
    (Fields.get? (bySource edges) id).getD [] = edges.filter fun e => e.source == id := by
  -- what the edges read so far have left in the index stands in front
  have hfold : ∀ index : Fields (List Edge),
      (Fields.get? (edges.foldl (fun index e =>
          Fields.set index e.source ((Fields.get? index e.source).getD [] ++ [e])) index) id).getD []
        = (Fields.get? index id).getD [] ++ edges.filter fun e => e.source == id := by
    induction edges with
    | nil => simp
    | cons e edges ih =>
      intro index
      rw [List.foldl_cons, ih, Fields.get?_set]
      by_cases hid : e.source = id
      · simp [hid]
      · simp [hid, Ne.symm hid]
  simpa [bySource] using hfold []

/-- The edges from a node are those edges of the flow that leave it, as authored. -/
theorem outgoing_eq_filter (g : Graph) (id : String) :
    g.outgoing id = g.edges.filter fun e => e.source == id :=
  getD_bySource g.edges id

theorem mem_outgoing {g : Graph} {id : String} {e : Edge} :
    e ∈ g.outgoing id ↔ e ∈ g.edges ∧ e.source = id := by
  rw [outgoing_eq_filter]
  simp

/-- Every edge from a node leads to a node. -/
theorem exists_target_of_outgoing {g : Graph} {id : String} {e : Edge} (h : e ∈ g.outgoing id) :
    ∃ n, g.node? e.target = some n :=
  exists_target (mem_outgoing.mp h).1

end Graph

end Automation
