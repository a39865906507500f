/-
Automation/Proofs/Flow/JoinFree.lean

Flows without joins.

In a flow without joins no edge leads to the start and one at most to any other node.
Whatever the start leads to is then a tree: each node has one level, the number of edges
from the start to it (`AtLevel.unique`), what lies below two edges from one node is apart
(`JoinFree.eq_of_below`), and nothing lies below itself (`JoinFree.not_below`).  There
are fewer levels than nodes (`AtLevel.lt`).
-/
import Mathlib.Data.List.Nodup
import Mathlib.Data.List.Perm.Subperm
import Mathlib.Logic.Relation
import Automation.Proofs.Flow.Graph

namespace Automation.Graph

/-- No edge leads to the start, and one at most to any other node. -/
structure JoinFree (g : Graph) : Prop where
  start : g.start.id ∉ g.edges.map Edge.target
  once : (g.edges.map Edge.target).Nodup

instance (g : Graph) : Decidable g.JoinFree :=
  decidable_of_iff (g.start.id ∉ g.edges.map Edge.target ∧ (g.edges.map Edge.target).Nodup)
    ⟨fun h => ⟨h.1, h.2⟩, fun h => ⟨h.start, h.once⟩⟩

variable {g : Graph}

/-- An edge leads from one id to another. -/
def Leads (g : Graph) (source target : String) : Prop :=
  ∃ e ∈ g.edges, e.source = source ∧ e.target = target

theorem leads_of_outgoing {id : String} {e : Edge} (h : e ∈ g.outgoing id) :
    g.Leads id e.target := by
  obtain ⟨he, hsource⟩ := mem_outgoing.mp h
  exact ⟨e, he, hsource, rfl⟩

/-- The node is where edges lead from another, or is that node. -/
def Below (g : Graph) : String → String → Prop := Relation.ReflTransGen g.Leads

theorem Below.refl (id : String) : g.Below id id := Relation.ReflTransGen.refl

theorem Below.head {source target id : String} (h : g.Leads source target)
    (hbelow : g.Below target id) : g.Below source id :=
  Relation.ReflTransGen.head h hbelow

/-- The id can be come to from the start along some number of edges. -/
inductive AtLevel (g : Graph) : ℕ → String → Prop
  | start : AtLevel g 0 g.start.id
  | next {level source target} : AtLevel g level source → g.Leads source target →
    AtLevel g (level + 1) target

/-- What lies below an id is on a level behind it. -/
theorem AtLevel.descend {level : ℕ} {source id : String} (h : g.AtLevel level source)
    (hbelow : g.Below source id) : ∃ steps, g.AtLevel (level + steps) id := by
  induction hbelow with
  | refl => exact ⟨0, h⟩
  | tail _ hleads ih =>
    obtain ⟨steps, hlevel⟩ := ih
    exact ⟨steps + 1, hlevel.next hleads⟩

/-- An id on a level is that of a node. -/
theorem AtLevel.mem_nodes {level : ℕ} {id : String} (h : g.AtLevel level id) :
    id ∈ g.nodes.map Node.id := by
  cases h with
  | start => exact List.mem_map_of_mem g.start_mem
  | next _ hleads =>
    obtain ⟨e, he, -, rfl⟩ := hleads
    obtain ⟨n, hn⟩ := exists_target he
    exact List.mem_map.mpr ⟨n, List.mem_of_find?_eq_some hn, id_of_node? hn⟩

theorem AtLevel.exists_node? {level : ℕ} {id : String} (h : g.AtLevel level id) :
    ∃ n, g.node? id = some n :=
  Graph.exists_node? h.mem_nodes

namespace JoinFree

/-- One edge leads to an id. -/
theorem eq_of_target (h : g.JoinFree) {e e' : Edge} (he : e ∈ g.edges) (he' : e' ∈ g.edges)
    (htarget : e.target = e'.target) : e = e' :=
  List.inj_on_of_nodup_map h.once he he' htarget

/-- An id has one predecessor. -/
theorem eq_of_leads (h : g.JoinFree) {first second target : String}
    (hfirst : g.Leads first target) (hsecond : g.Leads second target) : first = second := by
  obtain ⟨e, he, rfl, rfl⟩ := hfirst
  obtain ⟨e', he', rfl, htarget⟩ := hsecond
  rw [h.eq_of_target he he' htarget.symm]

theorem not_leads_start (h : g.JoinFree) (source : String) : ¬ g.Leads source g.start.id := by
  rintro ⟨e, he, -, htarget⟩
  exact h.start (htarget ▸ List.mem_map_of_mem he)

end JoinFree

/-- In a flow without joins an id has one level. -/
theorem AtLevel.unique (hfree : g.JoinFree) {first second : ℕ} {id : String}
    (hfirst : g.AtLevel first id) (hsecond : g.AtLevel second id) : first = second := by
  -- go back from the id: both ways go along the same edges
  induction hfirst generalizing second with
  | start =>
    cases hsecond with
    | start => rfl
    | next _ hleads => exact absurd hleads (hfree.not_leads_start _)
  | next _ hleads ih =>
    cases hsecond with
    | start => exact absurd hleads (hfree.not_leads_start _)
    | next hother hleads' =>
      rw [hfree.eq_of_leads hleads' hleads] at hother
      rw [ih hother]

/-- There are fewer levels than nodes. -/
theorem AtLevel.lt (hfree : g.JoinFree) {level : ℕ} {id : String} (h : g.AtLevel level id) :
    level < g.nodes.length := by
  -- the ids on the way from the start are different, as they are on different levels
  suffices hway : ∃ ids : List String, ids.Nodup ∧ ids.length = level + 1 ∧
      ∀ other ∈ ids, ∃ lower ≤ level, g.AtLevel lower other by
    obtain ⟨ids, hnodup, hlength, hlevels⟩ := hway
    have hsubset : ids ⊆ g.nodes.map Node.id := by
      intro other hother
      obtain ⟨lower, -, hlower⟩ := hlevels other hother
      exact hlower.mem_nodes
    have hle := (List.subperm_of_subset hnodup hsubset).length_le
    rw [hlength, List.length_map] at hle
    exact hle
  induction h with
  | start =>
    refine ⟨[g.start.id], List.nodup_singleton _, rfl, fun other hother => ?_⟩
    obtain rfl := List.mem_singleton.mp hother
    exact ⟨0, Nat.le_refl 0, .start⟩
  | @next level source target hsource hleads ih =>
    obtain ⟨ids, hnodup, hlength, hlevels⟩ := ih
    have htarget : g.AtLevel (level + 1) target := hsource.next hleads
    refine ⟨target :: ids, List.nodup_cons.mpr ⟨fun hmem => ?_, hnodup⟩, by simp [hlength], ?_⟩
    · obtain ⟨lower, hle, hlower⟩ := hlevels target hmem
      have hsame := htarget.unique hfree hlower
      omega
    · intro other hother
      rcases List.mem_cons.mp hother with rfl | hother
      · exact ⟨level + 1, Nat.le_refl _, htarget⟩
      · obtain ⟨lower, hle, hlower⟩ := hlevels other hother
        exact ⟨lower, Nat.le_succ_of_le hle, hlower⟩

namespace JoinFree

/-- Nothing lies below what an edge leads to from it. -/
theorem not_below (hfree : g.JoinFree) {level : ℕ} {source target : String}
    (h : g.AtLevel level source) (hleads : g.Leads source target) : ¬ g.Below target source := by
  intro hbelow
  obtain ⟨steps, hagain⟩ := (h.next hleads).descend hbelow
  have hsame := h.unique hfree hagain
  omega

/-- Ids on one level below which the same lies are the same. -/
theorem eq_of_below (hfree : g.JoinFree) {level : ℕ} {first second id : String}
    (hfirst : g.AtLevel level first) (hsecond : g.AtLevel level second)
    (hbelow : g.Below first id) (hbelow' : g.Below second id) : first = second := by
  induction hbelow with
  | refl =>
    cases hbelow' with
    | refl => rfl
    | @tail before _ hbefore hleads =>
      obtain ⟨steps, hlevel⟩ := hsecond.descend hbefore
      have hsame := hfirst.unique hfree (hlevel.next hleads)
      omega
  | @tail before id hbefore hleads ih =>
    cases hbelow' with
    | refl =>
      obtain ⟨steps, hlevel⟩ := hfirst.descend hbefore
      have hsame := hsecond.unique hfree (hlevel.next hleads)
      omega
    | tail hbefore' hleads' =>
      rw [hfree.eq_of_leads hleads' hleads] at hbefore'
      exact ih hbefore'

end JoinFree

end Automation.Graph
