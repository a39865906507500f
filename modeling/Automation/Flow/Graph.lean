/-
Automation/Flow/Graph.lean

A flow that may be run: a document without structural problems, and its start.
-/
import Automation.Flow.Problem

namespace Automation

/-- A flow without structural problems. -/
structure Graph where
  document : Document
  start : Node
  sound : document.problems = []
  start_mem : start ∈ document.nodes
  start_isStart : start.isStart = true

namespace Graph

/-- The graph of a document, or the problems of the document. -/
def ofDocument (d : Document) : Except (List Problem) Graph :=
  if sound : d.problems = [] then
    match h : d.nodes.find? Node.isStart with
    | some start => .ok ⟨d, start, sound, List.mem_of_find?_eq_some h, List.find?_some h⟩
    | none => .error d.problems
  else .error d.problems

def nodes (g : Graph) : List Node := g.document.nodes

def edges (g : Graph) : List Edge := g.document.edges

/-- The node of an id. -/
def node? (g : Graph) (id : String) : Option Node := g.nodes.find? fun n => n.id == id

/-- Edges under the nodes that they leave.  Whoever comes later stands behind those that
leave the same node. -/
def bySource (edges : List Edge) : Fields (List Edge) :=
  edges.foldl (fun index e =>
    Fields.set index e.source ((Fields.get? index e.source).getD [] ++ [e])) []

/-- The edges from a node. -/
def outgoing (g : Graph) (id : String) : List Edge :=
  (Fields.get? (bySource g.edges) id).getD []

/-- The edges from a node that have no tag. -/
def untagged (g : Graph) (id : String) : List Edge := (g.outgoing id).filter Edge.isUntagged

/-- The edges from a node that have a tag. -/
def tagged (g : Graph) (id tag : String) : List Edge :=
  (g.outgoing id).filter fun e => e.branch == some tag

end Graph

end Automation
