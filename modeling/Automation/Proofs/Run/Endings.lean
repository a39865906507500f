/-
Automation/Proofs/Run/Endings.lean

Every node that is begun ends once.

The books of a node in a scope (`begun_eq`): the times it was begun are the times
it has ended and the branches in which it is at work.  A node is begun at most
once in a scope, so it ends at most once there, and has ended if the run has
(`exists_outcome`, `outcome_unique`).
-/
import Mathlib.Data.List.Nodup
import Automation.Proofs.Run.Grounds

namespace Automation.Run

open Automation.Schedule (Pool Task)

variable {setup : Setup}

/-! ### Outcomes in a journal -/

/-- What came of a node in a scope each time it ended, latest first. -/
def outcomes (scope : Scope) (node : String) (j : Journal) : List (Except Fault Value) :=
  j.filterMap fun
    | .ended s n outcome => if s = scope ∧ n = node then some outcome else none
    | _ => none

theorem mem_outcomes {scope : Scope} {node : String} {j : Journal} {outcome : Except Fault Value} :
    outcome ∈ outcomes scope node j ↔ .ended scope node outcome ∈ j := by
  simp only [outcomes, List.mem_filterMap]
  constructor
  · rintro ⟨e, he, heq⟩
    cases e with
    | ended s n o =>
      simp only [Option.ite_none_right_eq_some, Option.some.injEq] at heq
      obtain ⟨⟨rfl, rfl⟩, rfl⟩ := heq
      exact he
    | _ => cases heq
  · exact fun h => ⟨_, h, by simp⟩

theorem length_outcomes_adding (scope : Scope) (node : String) (j : Journal)
    (events : List Event) : (outcomes scope node (j.adding events)).length
      = (outcomes scope node events).length + (outcomes scope node j).length := by
  simp [outcomes, Journal.adding]

theorem count_starts_adding (start : Scope × String) (j : Journal) (events : List Event) :
    (Journal.starts (j.adding events)).count start
      = (Journal.starts events).count start + (Journal.starts j).count start := by
  simp [Journal.starts, Journal.adding]

/-- In quiet events nothing has ended. -/
theorem outcomes_eq_nil {events : List Event} (h : ∀ e ∈ events, Quiet e) (scope : Scope)
    (node : String) : outcomes scope node events = [] := by
  refine List.eq_nil_iff_forall_not_mem.mpr fun outcome hmem => ?_
  exact h _ (mem_outcomes.mp hmem)

/-- In quiet events nothing is begun. -/
theorem starts_eq_nil {events : List Event} (h : ∀ e ∈ events, Quiet e) :
    Journal.starts events = [] := by
  refine List.eq_nil_iff_forall_not_mem.mpr fun start hmem => ?_
  exact h _ (Journal.mem_starts.mp hmem)

/-! ### Branches in which a node is at work -/

/-- The node that is at work in a branch, with its scope. -/
def executing : Strand → Option (Scope × String)
  | .act n _ b => some (b.view.scope, n.id)
  | .turn n _ b => some (b.view.scope, n.id)
  | .gather n _ b => some (b.view.scope, n.id)
  | .settle n _ _ b => some (b.view.scope, n.id)
  | _ => none

/-- One for a branch in which a node is at work, else nothing. -/
def occupied (start : Scope × String) (a : Strand) : ℕ := if executing a = some start then 1 else 0

@[simp] theorem occupied_visit (start : Scope × String) (id : String) (b : Branch) :
    occupied start (.visit id b) = 0 := rfl

@[simp] theorem occupied_follow (start : Scope × String) (targets : List String) (b : Branch) :
    occupied start (.follow targets b) = 0 := rfl

@[simp] theorem occupied_merge (start : Scope × String) (report : Report) :
    occupied start (.merge report) = 0 := rfl

@[simp] theorem occupied_close (start : Scope × String) (report : Report) :
    occupied start (.close report) = 0 := rfl

/-- Branches that begin with no node at work. -/
theorem sum_occupied_eq_zero {start : Scope × String} {β : Type*} (f : β → Strand)
    (h : ∀ x, executing (f x) = none) (xs : List β) :
    ((xs.map f).map (occupied start)).sum = 0 := by
  induction xs with
  | nil => rfl
  | cons x xs ih =>
    rw [List.map_cons, List.map_cons, List.sum_cons, ih]
    simp [occupied, h x]

theorem Opening.executing {n : Node} {b : Branch} {opening : List Event} {next : Strand}
    (h : Opening setup n b opening next) : executing next = some (b.view.scope, n.id) := by
  cases h <;> rfl

/-! ### The books -/

/-- A deed that begins or ends no node leaves the books as they are. -/
theorem balanced_of_idle {j : Journal} {events : List Event} {a : Strand}
    {task : Task Strand Report} (scope : Scope) (node : String)
    (hended : outcomes scope node events = []) (hbegun : Journal.starts events = [])
    (hsame : (task.states.map (occupied (scope, node))).sum = occupied (scope, node) a) :
    (outcomes scope node (j.adding events)).length + (task.states.map (occupied (scope, node))).sum
        + (Journal.starts j).count (scope, node)
      = (outcomes scope node j).length + occupied (scope, node) a
        + (Journal.starts (j.adding events)).count (scope, node) := by
  rw [length_outcomes_adding, count_starts_adding, hended, hbegun, hsame]
  simp

/-- A node that ends was at work, and is no longer. -/
theorem balanced_of_ended {j : Journal} {n : Node} {b : Branch} {outcome : Except Fault Value}
    {activity : Activity} {task : Task Strand Report} (scope : Scope) (node : String)
    (hnone : (task.states.map (occupied (scope, node))).sum = 0) :
    (outcomes scope node (j.adding
        (.ended b.view.scope n.id outcome :: recorded n b.view.scope (.of outcome)))).length
        + (task.states.map (occupied (scope, node))).sum + (Journal.starts j).count (scope, node)
      = (outcomes scope node j).length + occupied (scope, node) (.act n activity b)
        + (Journal.starts (j.adding (.ended b.view.scope n.id outcome ::
            recorded n b.view.scope (.of outcome)))).count (scope, node) := by
  have hquiet : ∀ e ∈ recorded n b.view.scope (.of outcome), Quiet e := fun e => quiet_recorded
  have hstarts : Journal.starts (.ended b.view.scope n.id outcome ::
      recorded n b.view.scope (.of outcome)) = [] := by
    have htail := starts_eq_nil hquiet
    simpa [Journal.starts] using htail
  have houtcomes : (outcomes scope node (.ended b.view.scope n.id outcome ::
      recorded n b.view.scope (.of outcome))).length = occupied (scope, node) (.act n activity b) := by
    have htail := outcomes_eq_nil hquiet scope node
    unfold outcomes at htail ⊢
    rw [List.filterMap_cons, htail]
    by_cases heq : b.view.scope = scope ∧ n.id = node
    · simp [occupied, executing, heq]
    · have hne : (b.view.scope, n.id) ≠ (scope, node) := fun h => heq (Prod.mk.inj h)
      simp [occupied, executing, heq, hne]
  rw [length_outcomes_adding, count_starts_adding, hstarts, houtcomes, hnone]
  simp
  omega

theorem Deed.balanced {j : Journal} {a : Strand} {events : List Event} {task : Task Strand Report}
    (h : Deed setup j a events task) (scope : Scope) (node : String) :
    (outcomes scope node (j.adding events)).length + (task.states.map (occupied (scope, node))).sum
        + (Journal.starts j).count (scope, node)
      = (outcomes scope node j).length + occupied (scope, node) a
        + (Journal.starts (j.adding events)).count (scope, node) := by
  cases h with
  | @start id b n opening next htakes henabled hopening =>
    -- the one deed that begins a node: it is at work from then on
    have hquiet : ∀ e ∈ opening, Quiet e := fun e => quiet_opening hopening
    rw [length_outcomes_adding, count_starts_adding]
    have houtcomes : outcomes scope node ([.claimed b.view.scope id,
        lineOf n (.executing n.kind), .reached b.view.scope n.id .resolving] ++ opening) = [] := by
      have htail := outcomes_eq_nil hquiet scope node
      simpa [outcomes, lineOf] using htail
    have hstarts : Journal.starts ([.claimed b.view.scope id,
        lineOf n (.executing n.kind), .reached b.view.scope n.id .resolving] ++ opening)
          = [(b.view.scope, n.id)] := by
      have htail := starts_eq_nil hquiet
      simpa [Journal.starts, lineOf] using htail
    rw [houtcomes, hstarts]
    have hwork : (((Task.live next : Task Strand Report).states.map (occupied (scope, node))).sum)
        = [(b.view.scope, n.id)].count (scope, node) := by
      by_cases heq : (b.view.scope, n.id) = (scope, node) <;>
        simp [occupied, hopening.executing, heq]
    rw [hwork, occupied_visit]
    simp
    omega
  | leave | abort => exact balanced_of_ended scope node (by simp)
  | batch =>
    refine balanced_of_idle scope node rfl rfl ?_
    rw [Task.states_waiting, Task.statesAll_map_live, List.map_cons, List.sum_cons,
      sum_occupied_eq_zero _ fun _ => rfl]
    rfl
  | fan =>
    refine balanced_of_idle scope node rfl rfl ?_
    rw [Task.states_waiting, Task.statesAll_map_live, List.map_cons, List.sum_cons,
      sum_occupied_eq_zero _ fun _ => rfl]
    rfl
  | _ => exact balanced_of_idle scope node rfl rfl rfl

/-- In every run, the times that a node was begun in a scope are the times that it has
ended and the branches in which it is at work. -/
theorem begun_eq {given : Given} {world : World} {c : Pool State Strand Report}
    (h : Reaches setup (opening setup given world) c) (scope : Scope) (node : String) :
    (outcomes scope node c.shared.journal).length
        + (c.states.map (occupied (scope, node))).sum
      = c.shared.journal.starts.count (scope, node) := by
  have hbalanced : Pool.Balanced (program setup) Disturbs
      (fun s => s.journal.Always (Fits setup)) (fun s a => Grounded setup s.journal a)
      (fun s => (outcomes scope node s.journal).length)
      (fun s => s.journal.starts.count (scope, node)) (occupied (scope, node)) :=
    balanced_of_deeds (J := Journal.Always (Fits setup)) (K := Grounded setup)
      (fun j => (outcomes scope node j).length) (fun j => (Journal.starts j).count (scope, node))
      (occupied (scope, node)) (fun _ _ h => h.balanced scope node)
      (fun {a} _ => by cases a <;> rfl) ⟨rfl, rfl⟩
  exact hbalanced.reaches grounds_kept (grounds_opening setup given world) h rfl

/-- A node is at work in one branch at most in a scope, and in none once it has ended. -/
theorem outcomes_add_occupied_le_one {given : Given} {world : World}
    {c : Pool State Strand Report} (h : Reaches setup (opening setup given world) c)
    (scope : Scope) (node : String) :
    (outcomes scope node c.shared.journal).length
      + (c.states.map (occupied (scope, node))).sum ≤ 1 := by
  rw [begun_eq h scope node]
  exact List.nodup_iff_count_le_one.mp (nodup_starts (grounds_of_reaches h).1) (scope, node)

theorem occupied_of_executing {start : Scope × String} {a : Strand}
    (h : executing a = some start) : occupied start a = 1 := if_pos h

theorem sum_occupied_pos {start : Scope × String} {states : List Strand} {a : Strand}
    (ha : a ∈ states) (hwork : executing a = some start) :
    0 < (states.map (occupied start)).sum := by
  have hone : 0 < occupied start a := by rw [occupied_of_executing hwork]; exact Nat.one_pos
  exact List.sum_pos_iff_exists_pos_nat.mpr ⟨_, List.mem_map_of_mem ha, hone⟩

/-- Of branches that have one node at work together at most once, two that have it at work
are one. -/
theorem eq_of_sum_occupied_le_one {start : Scope × String} {states : List Strand}
    (h : (states.map (occupied start)).sum ≤ 1) {a b : Strand} (ha : a ∈ states)
    (hb : b ∈ states) (hworka : executing a = some start) (hworkb : executing b = some start) :
    a = b := by
  induction states with
  | nil => cases ha
  | cons c states ih =>
    rw [List.map_cons, List.sum_cons] at h
    -- one that comes later leaves nothing for the first
    rcases List.mem_cons.mp ha with hfirst | hlatera
    · subst hfirst
      rcases List.mem_cons.mp hb with heq | hlater
      · exact heq.symm
      · have hone := occupied_of_executing hworka
        have hpos := sum_occupied_pos hlater hworkb
        omega
    · rcases List.mem_cons.mp hb with hfirst | hlater
      · subst hfirst
        have hone := occupied_of_executing hworkb
        have hpos := sum_occupied_pos hlatera hworka
        omega
      · exact ih (by omega) hlatera hlater

/-- A node is at work in one branch at most in a scope. -/
theorem executing_unique {given : Given} {world : World} {c : Pool State Strand Report}
    (h : Reaches setup (opening setup given world) c) {scope : Scope} {node : String}
    {a b : Strand} (ha : a ∈ c.states) (hb : b ∈ c.states)
    (hworka : executing a = some (scope, node)) (hworkb : executing b = some (scope, node)) :
    a = b := by
  have hle := outcomes_add_occupied_le_one h scope node
  exact eq_of_sum_occupied_le_one (Nat.le_trans (Nat.le_add_left _ _) hle) ha hb hworka hworkb

/-- A node that has ended is at work in no branch. -/
theorem not_executing_of_ended {given : Given} {world : World} {c : Pool State Strand Report}
    (h : Reaches setup (opening setup given world) c) {scope : Scope} {node : String}
    {outcome : Except Fault Value} (hended : .ended scope node outcome ∈ c.shared.journal)
    {a : Strand} (ha : a ∈ c.states) : executing a ≠ some (scope, node) := by
  intro hwork
  have hle := outcomes_add_occupied_le_one h scope node
  have hpos : 0 < (outcomes scope node c.shared.journal).length :=
    List.length_pos_of_mem (mem_outcomes.mpr hended)
  have hsum := sum_occupied_pos ha hwork
  omega

/-- A node that has ended was begun. -/
theorem begun_of_ended {given : Given} {world : World} {c : Pool State Strand Report}
    (h : Reaches setup (opening setup given world) c) {scope : Scope} {node : String}
    {outcome : Except Fault Value} (hended : .ended scope node outcome ∈ c.shared.journal) :
    .reached scope node .resolving ∈ c.shared.journal := by
  have hbegun := begun_eq h scope node
  have hpos : 0 < (outcomes scope node c.shared.journal).length :=
    List.length_pos_of_mem (mem_outcomes.mpr hended)
  exact Journal.mem_starts.mp (List.count_pos_iff.mp (by omega))

/-- A node ends in a scope with one outcome. -/
theorem outcome_unique {given : Given} {world : World} {c : Pool State Strand Report}
    (h : Reaches setup (opening setup given world) c) {scope : Scope} {node : String}
    {first second : Except Fault Value} (hfirst : .ended scope node first ∈ c.shared.journal)
    (hsecond : .ended scope node second ∈ c.shared.journal) : first = second := by
  have hle := outcomes_add_occupied_le_one h scope node
  rw [← mem_outcomes] at hfirst hsecond
  rcases hout : outcomes scope node c.shared.journal with - | ⟨outcome, rest⟩
  · rw [hout] at hfirst
    cases hfirst
  · obtain rfl : rest = [] := by
      rw [hout, List.length_cons] at hle
      exact List.eq_nil_of_length_eq_zero (by omega)
    rw [hout, List.mem_singleton] at hfirst hsecond
    rw [hfirst, hsecond]

/-- A node that was begun has ended once the run has. -/
theorem exists_outcome {given : Given} {world : World} {c : Pool State Strand Report}
    (h : Reaches setup (opening setup given world) c) (hover : c.IsOver) {scope : Scope}
    {node : String} (hbegun : .reached scope node .resolving ∈ c.shared.journal) :
    ∃ outcome, .ended scope node outcome ∈ c.shared.journal := by
  -- at the end of a run no branch is left in which the node could be at work
  have hcount := begun_eq h scope node
  rw [hover.states_eq_nil] at hcount
  have hpos : 0 < c.shared.journal.starts.count (scope, node) :=
    List.count_pos_iff.mpr (Journal.mem_starts.mpr hbegun)
  have hlength : 0 < (outcomes scope node c.shared.journal).length := by
    simp at hcount
    omega
  obtain ⟨outcome, hmem⟩ := List.exists_mem_of_length_pos hlength
  exact ⟨outcome, mem_outcomes.mp hmem⟩

end Automation.Run
