/-
Automation/Flow/Problem.lean

What can be wrong with the structure of a flow.

A flow has exactly one start node, its nodes have ids that are not blank and
differ, and its edges have ids that differ and join nodes that exist.  Problems
are listed in the order of the nodes, then those of the start, then in the order
of the edges.
-/
import Automation.Flow.Document
import Automation.Text.Search

namespace Automation

/-- A structural problem of a flow. -/
inductive Problem
  | blankNodeId
  | repeatedNode (id : String)
  | noStart
  | severalStarts (ids : List String)
  | repeatedEdge (id : String)
  | unknownSource (edge node : String)
  | unknownTarget (edge node : String)
  deriving DecidableEq, Repr

namespace Problem

/-- The wording of a problem. -/
def text : Problem → String
  | .blankNodeId => "Node with empty id"
  | .repeatedNode id => "Duplicate node id: " ++ id
  | .noStart => "Flow has no start node"
  | .severalStarts ids =>
    "Flow has " ++ Nat.repr ids.length ++ " start nodes: " ++ Text.join ", " ids
  | .repeatedEdge id => "Duplicate edge id: " ++ id
  | .unknownSource edge node => "Edge " ++ edge ++ " references unknown source node: " ++ node
  | .unknownTarget edge node => "Edge " ++ edge ++ " references unknown target node: " ++ node

/-- The wording of several problems. -/
def summary (problems : List Problem) : String :=
  "Invalid flow: " ++ Text.join "; " (problems.map text)

end Problem

namespace Document

/-- Problems of the ids of nodes; `seen` are the ids before them. -/
def nodeProblems (seen : List String) : List Node → List Problem
  | [] => []
  | n :: rest =>
    (if Text.isBlankText n.id then [.blankNodeId]
      else if seen.contains n.id then [.repeatedNode n.id] else [])
      ++ nodeProblems (n.id :: seen) rest

/-- Problems of the number of start nodes. -/
def startProblems (nodes : List Node) : List Problem :=
  match (nodes.filter Node.isStart).map Node.id with
  | [] => [.noStart]
  | [_] => []
  | ids => [.severalStarts ids]

/-- Problems of edges; `seen` are the ids of the edges before them. -/
def edgeProblems (nodeIds : List String) (seen : List String) : List Edge → List Problem
  | [] => []
  | e :: rest =>
    (if seen.contains e.id then [.repeatedEdge e.id] else [])
      ++ (if nodeIds.contains e.source then [] else [.unknownSource e.id e.source])
      ++ (if nodeIds.contains e.target then [] else [.unknownTarget e.id e.target])
      ++ edgeProblems nodeIds (e.id :: seen) rest

/-- Every structural problem of a flow. -/
def problems (d : Document) : List Problem :=
  nodeProblems [] d.nodes ++ startProblems d.nodes
    ++ edgeProblems (d.nodes.map Node.id) [] d.edges

end Document

end Automation
