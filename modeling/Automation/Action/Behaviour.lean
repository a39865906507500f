/-
Automation/Action/Behaviour.lean

What the nodes of a kind do, and the registry of kinds.

A behaviour fills in defaults and checks required fields before it is invoked.
Most behaviours get their settings resolved and are followed along all untagged
edges; a condition resolves its own operands and chooses one tagged edge.
-/
import Automation.Action.Activity
import Automation.Binding.View
import Automation.Flow.Graph

namespace Automation

/-- What the nodes of a kind do. -/
structure Behaviour where
  required : List String
  defaults : Fields Value
  /-- Bindings in the settings are resolved beforehand. -/
  resolves : Bool
  invoke : Fields Value → View → Activity
  /-- The edges to follow after a node, by its result. -/
  successors : Graph → Node → Value → List Edge
  /-- They are chosen among the edges from the node. -/
  successors_mem : ∀ g n result, ∀ e ∈ successors g n result, e ∈ g.outgoing n.id := by
    intro _ _ _ _ he
    exact (List.mem_filter.mp he).1

namespace Behaviour

/-- The edges without tag. -/
def allUntagged (g : Graph) (n : Node) (_ : Value) : List Edge := g.untagged n.id

/-- They are edges from the node. -/
theorem mem_outgoing_of_mem_allUntagged : ∀ g n result, ∀ e ∈ allUntagged g n result,
    e ∈ g.outgoing n.id :=
  fun _ _ _ _ he => (List.mem_filter.mp he).1

/-- An action without defaults or requirements. -/
def plain (invoke : Fields Value → View → Activity) : Behaviour :=
  ⟨[], [], true, invoke, allUntagged, mem_outgoing_of_mem_allUntagged⟩

/-- Settings with the defaults of a behaviour in the place of missing ones. -/
def withDefaults (b : Behaviour) (config : Fields Value) : Fields Value :=
  b.defaults.foldl (fun acc (name, v) => if (acc.at name).isMissing then acc.set name v else acc)
    config

/-- Settings that a behaviour can be invoked with. -/
def prepare (b : Behaviour) (config : Fields Value) : Except Fault (Fields Value) :=
  let prepared := b.withDefaults config
  let missing := b.required.filter fun name => (prepared.at name).isMissing
  if missing.isEmpty then .ok prepared else .error (.missingFields missing)

/-- Invokes a behaviour with resolved settings. -/
def start (b : Behaviour) (config : Fields Value) (view : View) : Activity :=
  Activity.attempt (b.prepare config) fun prepared => b.invoke prepared view

end Behaviour

/-- The behaviours of kinds. -/
abbrev Registry := Fields Behaviour

namespace Registry

def find? (r : Registry) (kind : String) : Option Behaviour := Fields.get? r kind

/-- Gives kinds a behaviour, in the place of what they had. -/
def register (r : Registry) (kinds : List String) (b : Behaviour) : Registry :=
  kinds.foldl (fun acc kind => Fields.set acc kind b) r

/-- The kinds in alphabetical order. -/
def kinds (r : Registry) : List String :=
  (Fields.keys r).mergeSort fun a b => decide (a ≤ b)

/-- What invoking a kind does. -/
def invoke (r : Registry) (kind : String) (config : Fields Value) (view : View) : Activity :=
  match r.find? kind with
  | some b => b.start config view
  | none => .fail (.unknownKind kind)

end Registry

end Automation
