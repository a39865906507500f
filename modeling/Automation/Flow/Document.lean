/-
Automation/Flow/Document.lean

A flow as a document: nodes, edges, and what the flow belongs to.

Reading a document and writing it again gives back the fields that were there,
no more and no fewer; only the order of known fields becomes their own order.  What
has no meaning here is written only if it is not nested too deeply.
-/
import Automation.Flow.Node
import Automation.Json.Printer
import Automation.Json.Reader

namespace Automation

/-- A flow as it is saved. -/
structure Document where
  authoredNodes : Option (List Node)
  authoredEdges : Option (List Edge)
  authoredTrigger : Option String
  authoredComponent : Option String
  others : Fields Value

namespace Document

def nodes (d : Document) : List Node := d.authoredNodes.getD []

def edges (d : Document) : List Edge := d.authoredEdges.getD []

/-- The event that sets the flow off. -/
def trigger (d : Document) : String := d.authoredTrigger.getD ""

/-- The component that the flow belongs to. -/
def component (d : Document) : String := d.authoredComponent.getD ""

def knownFields : List String := ["nodes", "edges", "trigger", "componentId"]

/-- Reads a document. -/
def ofValue (v : Value) : Checked Document :=
  match v with
  | .object fs =>
    (Checked.ok Document.mk).app (Shape.optional fs "nodes" (Shape.list Node.ofValue))
      |>.app (Shape.optional fs "edges" (Shape.list Edge.ofValue))
      |>.app (Shape.optional fs "trigger" Shape.text)
      |>.app (Shape.optional fs "componentId" Shape.text)
      |>.app (.ok (Fields.eraseAll fs knownFields))
  | _ => .defect .notRecord

/-- Reads the text of a document. -/
def ofText (s : String) : Checked Document :=
  match Json.read .document s with
  | .ok v => ofValue v
  | .error _ => .defect .unreadable

/-- The fields that the document came with. -/
def toValue (d : Document) : Value :=
  let known : List (Option (String × Value)) :=
    [d.authoredNodes.map fun ns => ("nodes", .list (ns.map Node.toValue)),
      d.authoredEdges.map fun es => ("edges", .list (es.map Edge.toValue)),
      d.authoredTrigger.map fun t => ("trigger", .text t),
      d.authoredComponent.map fun c => ("componentId", .text c)]
  .object ((known.filterMap fun f => f) ++ d.others)

/-- The values of a document that have no meaning here. -/
def freeValues (d : Document) : List Value :=
  d.nodes.flatMap Node.freeValues ++ d.edges.flatMap Edge.freeValues ++ d.others.map (·.2)

/-- How deeply a value without a meaning may be nested. -/
def depthLimit : Nat := 255

/-- The text of the document, without spaces.  Numbers that are not finite are
written as nulls. -/
def toText (d : Document) : Except Fault String :=
  if d.freeValues.all fun v => decide (v.depth ≤ depthLimit) then
    .ok (Json.print .strict d.toValue)
  else .error .tooDeep

end Document

end Automation
