/-
Automation/Action/Decide.lean

The action of a condition: it works out what its condition comes to, and is
followed along the first edge whose tag is wanted most.
-/
import Automation.Action.Behaviour
import Automation.Condition.Selection

namespace Automation.Action

/-- The field of a result that carries the wanted tags. -/
def branchTagsKey : String := "_branchTags"

/-- The tags that a result wants, most wanted first. -/
def wantedTags (result : Value) : List String :=
  match result.field branchTagsKey with
  | .list (tag :: tags) => (tag :: tags).filterMap fun
    | .text s => some s
    | _ => none
  | _ => ["false", "else"]

/-- The first edge of the first tag that has one. -/
def chosenEdge (g : Graph) (n : Node) : List String → List Edge
  | [] => []
  | tag :: tags => match g.tagged n.id tag with
    | e :: _ => [e]
    | [] => chosenEdge g n tags

theorem mem_outgoing_of_mem_chosenEdge {g : Graph} {n : Node} {tags : List String} {e : Edge}
    (h : e ∈ chosenEdge g n tags) : e ∈ g.outgoing n.id := by
  induction tags with
  | nil => cases h
  | cons tag tags ih =>
    unfold chosenEdge at h
    split at h
    · next first rest htagged =>
      obtain rfl := List.mem_singleton.mp h
      have hmem : e ∈ g.tagged n.id tag := by
        rw [htagged]
        exact List.mem_cons_self
      exact (List.mem_filter.mp hmem).1
    · exact ih h

/-- The action of a condition. -/
def decide : Behaviour where
  required := []
  defaults := []
  resolves := false
  invoke config view :=
    .askSecrets (view.secretsAsked (Condition.Selection.references view config)) <|
      Activity.attempt (Condition.Selection.ofConfig view config) fun s =>
        .done (Fields.set (s.toFields view.occasion.now) branchTagsKey
          (.list (s.branchTags.map .text)))
  successors g n result := chosenEdge g n (wantedTags result)
  successors_mem _ _ _ _ := mem_outgoing_of_mem_chosenEdge

end Automation.Action
