/-
Automation/Proofs/Run/Lookup.lean

No node is looked up in vain.

A flow that is well formed can be run, and no other.  What a branch is about to do names
the nodes that it looks up in the flow (`Strand.lookups`): the node that it is to look at,
the nodes that it is to follow, or the node whose edges it is to choose from.  The grounds
of a branch (`Grounded`) lead each of them back to the start of the flow or to an edge,
and both lead to nodes.  So in every run, in any order of work, each of them is found.
-/
import Automation.Proofs.Flow.Problem
import Automation.Proofs.Run.Coverage

namespace Automation.Run

variable {setup : Setup}

/-- The ids of the nodes that a branch looks up in the flow for its next step. -/
def Strand.lookups : Strand → List String
  | .visit id _ => [id]
  | .act n _ _ => [n.id]
  | .turn n _ _ => [n.id]
  | .gather n _ _ => [n.id]
  | .settle n _ _ _ => [n.id]
  | .follow targets _ => targets
  | .merge _ => []
  | .close _ => []

/-- What a branch has a reason to look at is a node of the flow. -/
theorem Justified.exists_node? {j : Journal} {scope : Scope} {id : String}
    (h : Justified setup j scope id) : ∃ n, setup.graph.node? id = some n := by
  cases h with
  | start => exact Graph.exists_node? (List.mem_map.mpr ⟨_, setup.graph.start_mem, rfl⟩)
  | body _ _ _ hedge => exact Graph.exists_target_of_outgoing (List.mem_of_mem_filter hedge)
  | passed _ _ _ _ hedge => exact Graph.exists_target_of_outgoing (List.mem_of_mem_filter hedge)
  | followed _ _ _ _ hedge =>
    exact Graph.exists_target_of_outgoing (mem_outgoing_of_mem_successors hedge)

/-- A branch on grounds finds what it looks up. -/
theorem Grounded.exists_node? {j : Journal} {a : Strand} (h : Grounded setup j a) {id : String}
    (hid : id ∈ a.lookups) : ∃ n, setup.graph.node? id = some n := by
  cases a with
  | visit target b =>
    obtain rfl := List.mem_singleton.mp hid
    exact h.2.exists_node?
  | act n activity b =>
    obtain rfl := List.mem_singleton.mp hid
    exact ⟨n, AtWork.node h⟩
  | turn n course b =>
    obtain rfl := List.mem_singleton.mp hid
    exact ⟨n, (Looping.toAtWork h).node⟩
  | gather n course b =>
    obtain rfl := List.mem_singleton.mp hid
    exact ⟨n, h.1.toAtWork.node⟩
  | settle n course batch b =>
    obtain rfl := List.mem_singleton.mp hid
    exact ⟨n, (Looping.toAtWork h).node⟩
  | follow targets b => exact (h.2 id hid).exists_node?
  | merge report => cases hid
  | close report => cases hid

/-- A flow has no problems, and can be run, just if it is well formed.  Whatever run of it
is then made, each node that a branch looks up is one of its nodes; and the edges from a
node are exactly those edges of the flow that leave it, in the order of the flow. -/
theorem accepted_iff_wellFormed (d : Document) :
    (d.problems = [] ↔ d.WellFormed) ∧
      ((∃ g, Graph.ofDocument d = .ok g) ↔ d.WellFormed) ∧
      ∀ g, Graph.ofDocument d = .ok g →
        (∀ id, g.outgoing id = d.edges.filter fun e => e.source == id) ∧
          ∀ setup given world c, setup.graph = g →
            Reaches setup (opening setup given world) c →
            ∀ a ∈ c.states, ∀ id ∈ a.lookups, ∃ n ∈ d.nodes, g.node? id = some n ∧ n.id = id := by
  refine ⟨Document.problems_eq_nil_iff, ⟨?_, ?_⟩, ?_⟩
  · rintro ⟨g, hg⟩
    have hsound := g.sound
    rw [Graph.document_of_ofDocument hg] at hsound
    exact Document.problems_eq_nil_iff.mp hsound
  · intro hwell
    obtain ⟨g, hg, -⟩ := Graph.exists_ofDocument (Document.problems_eq_nil_iff.mpr hwell)
    exact ⟨g, hg⟩
  · intro g hg
    obtain rfl := Graph.document_of_ofDocument hg
    refine ⟨Graph.outgoing_eq_filter g, ?_⟩
    rintro setup given world c rfl hreaches a ha id hid
    have hgrounded := (grounds_of_reaches hreaches).2 a ha
    obtain ⟨n, hn⟩ := hgrounded.exists_node? hid
    exact ⟨n, List.mem_of_find?_eq_some hn, hn, Graph.id_of_node? hn⟩

/-- In the midst of a run with a fork, a join and a loop, the branches look up the loop, which
two of them have come to, and twice the node in its body. -/
theorem accepted_iff_wellFormed_in_diamond :
    Graph.ofDocument Sample.diamond.graph.document = .ok Sample.diamond.graph ∧
      (Sample.after Sample.diamond 13).states.map Strand.lookups
        = [[], ["l"], ["z"], ["z"], ["l"]] ∧
      ∀ a ∈ (Sample.after Sample.diamond 13).states, ∀ id ∈ a.lookups,
        ∃ n ∈ Sample.diamond.graph.document.nodes,
          Sample.diamond.graph.node? id = some n ∧ n.id = id := by
  have hgraph : Graph.ofDocument Sample.diamond.graph.document = .ok Sample.diamond.graph := rfl
  refine ⟨hgraph, by decide +kernel, ?_⟩
  exact ((accepted_iff_wellFormed _).2.2 _ hgraph).2 Sample.diamond Sample.given Sample.world _ rfl
    (Sample.reaches_after Sample.diamond 13)

end Automation.Run
