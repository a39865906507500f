/-
Automation/Proofs/Run/Coverage.lean

No branch is lost.

In a scope a run begins with some nodes (`Entry`), and by what happened there one
node leads to another (`Leads`).  Whatever is led to is taken, or some branch is
on its way there, unless the run is cancelled: every target is a debt that is
settled by taking it (`solvent_of_reaches`).  Nothing else is taken
(`claimed_subset`).  So at the end of a run that was never cancelled the nodes
taken in a scope are the least set that contains the entries and is closed under
leading on (`claimed_isLeast`).

The nodes that lead no further, because they are loops around the scope, are left
out of the entries as well: the body of a loop may begin with the loop itself, and
then that branch ends at once (`entries_not_all_claimed`).
-/
import Mathlib.Order.Bounds.Defs
import Automation.Proofs.Run.Endings

namespace Automation.Run

open Automation.Schedule (Pool Task)

variable {setup : Setup}

/-! ### What leads where -/

/-- The nodes with which a scope begins: the start of the flow, or the targets of the
edges into the body of the loop whose iteration it is. -/
inductive Entry (setup : Setup) : Scope → String → Prop
  | start : Entry setup [] setup.graph.start.id
  | body {outer loop index edge} : edge ∈ setup.graph.tagged loop "each" →
    Entry setup (outer ++ [(loop, index)]) edge.target

/-- By what happened in a scope, one node leads to another: a node that is passed over
by its edges without tag, a node that did not abort its branch by the edges that are
chosen for its result. -/
inductive Leads (setup : Setup) (j : Journal) (scope : Scope) : String → String → Prop
  | passed {n edge} : setup.graph.node? n.id = some n → n.isDisabled = true →
    edge ∈ setup.graph.untagged n.id → Leads setup j scope n.id edge.target
  | followed {n outcome edge} : setup.graph.node? n.id = some n →
    .ended scope n.id outcome ∈ j → (Verdict.of outcome).aborts n.failurePolicy = false →
    edge ∈ successors setup n (Verdict.of outcome).result → Leads setup j scope n.id edge.target

/-- The nodes that were taken in a scope. -/
def claimedIn (scope : Scope) (j : Journal) : Set String := {node | .claimed scope node ∈ j}

/-- A set of nodes contains whatever nodes its nodes lead to in a scope, but for the
loops around. -/
def Closed (setup : Setup) (j : Journal) (scope : Scope) (nodes : Set String) : Prop :=
  ∀ node ∈ nodes, ∀ target, Leads setup j scope node target →
    target ∉ scope.map (·.1) → target ∈ nodes

/-- What leads where depends on the endings in the scope alone. -/
theorem Leads.of_endings {j k : Journal} {scope : Scope}
    (hjk : ∀ node outcome, .ended scope node outcome ∈ j → .ended scope node outcome ∈ k)
    {node target : String} (h : Leads setup j scope node target) :
    Leads setup k scope node target := by
  cases h with
  | passed hnode hdisabled hedge => exact .passed hnode hdisabled hedge
  | followed hnode hended habort hedge => exact .followed hnode (hjk _ _ hended) habort hedge

/-- The edges that are followed after a node are edges from it. -/
theorem mem_outgoing_of_mem_successors {n : Node} {result : Value} {edge : Edge}
    (h : edge ∈ successors setup n result) : edge ∈ setup.graph.outgoing n.id := by
  unfold successors at h
  split at h
  · exact List.mem_of_mem_filter h
  · split at h
    · next b _ => exact b.successors_mem _ _ _ _ h
    · exact List.mem_of_mem_filter h

/-- A node leads to nodes of the flow. -/
theorem Leads.exists_node? {j : Journal} {scope : Scope} {node target : String}
    (h : Leads setup j scope node target) : ∃ n, setup.graph.node? target = some n := by
  cases h with
  | passed _ _ hedge => exact Graph.exists_target_of_outgoing (List.mem_of_mem_filter hedge)
  | followed _ _ _ hedge =>
    exact Graph.exists_target_of_outgoing (mem_outgoing_of_mem_successors hedge)

/-- The entries of an iteration are the targets of the edges into the body. -/
theorem Entry.exists_edge {outer : Scope} {loop : String} {index : Int} {target : String}
    (h : Entry setup (outer ++ [(loop, index)]) target) :
    ∃ edge ∈ setup.graph.tagged loop "each", edge.target = target := by
  generalize hscope : outer ++ [(loop, index)] = scope at h
  cases h with
  | start => simp at hscope
  | body hedge =>
    obtain ⟨-, heq⟩ := List.append_inj' hscope rfl
    obtain ⟨rfl, -⟩ : loop = _ ∧ index = _ := by simpa using heq
    exact ⟨_, hedge, rfl⟩

/-- The entries of a scope are nodes of the flow. -/
theorem Entry.exists_node? {scope : Scope} {target : String} (h : Entry setup scope target) :
    ∃ n, setup.graph.node? target = some n := by
  cases h with
  | start => exact Graph.exists_node? (List.mem_map.mpr ⟨_, setup.graph.start_mem, rfl⟩)
  | body hedge => exact Graph.exists_target_of_outgoing (List.mem_of_mem_filter hedge)

/-! ### Nothing else is taken -/

/-- What is taken in a scope lies in each closed set that contains the entries. -/
theorem claimed_subset {j k : Journal} (hjk : ∀ e ∈ k, e ∈ j) (hk : k.Always (Fits setup))
    {scope : Scope} {nodes : Set String}
    (hentries : ∀ target, Entry setup scope target → target ∉ scope.map (·.1) → target ∈ nodes)
    (hclosed : Closed setup j scope nodes) : claimedIn scope k ⊆ nodes := by
  -- by induction on the journal: the reason for taking a node is in the events before
  induction k with
  | nil =>
    intro node hnode
    cases hnode
  | cons e past ih =>
    have hpast := ih (fun e he => hjk e (List.mem_cons_of_mem _ he)) hk.2
    intro node hnode
    rcases List.mem_cons.mp hnode with rfl | hold
    · obtain ⟨-, hout, hjustified⟩ : Fits setup (.claimed scope node) past := hk.1
      cases hjustified with
      | start => exact hentries _ .start hout
      | body hloop _ _ hedge => exact hentries _ (.body hedge) hout
      | passed hn hdisabled hclaimed _ hedge =>
        exact hclosed _ (hpast hclaimed) _ (.passed hn hdisabled hedge) hout
      | followed hn hended _ habort hedge =>
        have hclaimed := claimed_of_ended hk.2 hended
        refine hclosed _ (hpast hclaimed) _ (.followed hn ?_ habort hedge) hout
        exact hjk _ (List.mem_cons_of_mem _ hended)
    · exact hpast hold

/-! ### Everything that is led to is taken -/

/-- What a branch sees, while it is not waiting for forks or at its end. -/
def Strand.view? : Strand → Option View
  | .visit _ b => some b.view
  | .act _ _ b => some b.view
  | .turn _ _ b => some b.view
  | .gather _ _ b => some b.view
  | .settle _ _ _ b => some b.view
  | .follow _ b => some b.view
  | .merge _ => none
  | .close _ => none

/-- The scope in which a branch is. -/
def Strand.scope? (a : Strand) : Option Scope := a.view?.map View.scope

/-- A node that was taken in the scope leads to the target. -/
def Due (setup : Setup) (j : Journal) (debt : Scope × String) : Prop :=
  ∃ node, .claimed debt.1 node ∈ j ∧ Leads setup j debt.1 node debt.2

/-- The target was taken in the scope, or no branch takes it there: it is a loop
around, or no node, or the run is cancelled. -/
def Settled (setup : Setup) (j : Journal) (debt : Scope × String) : Prop :=
  .claimed debt.1 debt.2 ∈ j ∨ .cancelled ∈ j ∨ setup.graph.node? debt.2 = none ∨
    debt.2 ∈ debt.1.map (·.1)

/-- The branch is on its way to the target. -/
def Owes (a : Strand) (debt : Scope × String) : Prop :=
  match a with
  | .visit id b => b.view.scope = debt.1 ∧ id = debt.2
  | .follow targets b => b.view.scope = debt.1 ∧ debt.2 ∈ targets
  | _ => False

/-- The target is an entry of the scope in which the branch is. -/
def Vouches (setup : Setup) (a : Strand) (debt : Scope × String) : Prop :=
  a.scope? = some debt.1 ∧ Entry setup debt.1 debt.2

/-- What falls due with more events: by a disabled node that was taken, or by a node
that has ended. -/
theorem Due.of_adding {j : Journal} (hj : j.Always (Fits setup)) {events : List Event}
    {scope : Scope} {target : String} (h : Due setup (j.adding events) (scope, target)) :
    Due setup j (scope, target) ∨
      (∃ n edge, .claimed scope n.id ∈ events ∧ setup.graph.node? n.id = some n ∧
        n.isDisabled = true ∧ edge ∈ setup.graph.untagged n.id ∧ edge.target = target) ∨
      (∃ n outcome edge, .ended scope n.id outcome ∈ events ∧ setup.graph.node? n.id = some n ∧
        (Verdict.of outcome).aborts n.failurePolicy = false ∧
        edge ∈ successors setup n (Verdict.of outcome).result ∧ edge.target = target) := by
  obtain ⟨node, hclaimed, hleads⟩ := h
  -- either of the two events on which the leading rests may be the new one
  generalize htarget : (scope, target).2 = goal at hleads
  cases hleads with
  | @passed n edge hn hdisabled hedge =>
    rcases Journal.mem_adding.mp hclaimed with hnew | hold
    · exact .inr (.inl ⟨n, edge, hnew, hn, hdisabled, hedge, htarget.symm⟩)
    · exact .inl ⟨n.id, hold, htarget ▸ .passed hn hdisabled hedge⟩
  | @followed n outcome edge hn hended habort hedge =>
    rcases Journal.mem_adding.mp hended with hnew | hold
    · exact .inr (.inr ⟨n, outcome, edge, hnew, hn, habort, hedge, htarget.symm⟩)
    · exact .inl ⟨n.id, claimed_of_ended hj hold, htarget ▸ .followed hn hold habort hedge⟩

/-- A branch that is on its way to a node gets there or hands the way on. -/
theorem Deed.handed {j : Journal} {a : Strand} {events : List Event} {task : Task Strand Report}
    (h : Deed setup j a events task) {debt : Scope × String} (howes : Owes a debt) :
    Settled setup (j.adding events) debt ∨ ∃ b ∈ task.states, Owes b debt := by
  obtain ⟨scope, target⟩ := debt
  cases h with
  | @turnBack id b hback =>
    obtain ⟨rfl, rfl⟩ := howes
    rcases hback with hcancelled | hnone | hinside
    · exact .inl (.inr (.inl (Journal.isCancelled_iff.mp hcancelled)))
    · exact .inl (.inr (.inr (.inl hnone)))
    · have hmem : id ∈ b.view.scope.map (·.1) := by
        by_contra hout
        rw [isInside_eq_false.mpr hout] at hinside
        cases hinside
      exact .inl (.inr (.inr (.inr hmem)))
  | @repeated id b n _ _ _ hclaimed =>
    obtain ⟨rfl, rfl⟩ := howes
    exact .inl (.inl (by simp [Journal.hasClaimed_iff.mp hclaimed]))
  | @pass id b n htakes _ =>
    obtain ⟨rfl, rfl⟩ := howes
    exact .inl (.inl (by simp))
  | @start id b n opening next htakes _ _ =>
    obtain ⟨rfl, rfl⟩ := howes
    exact .inl (.inl (by simp))
  | stop => exact absurd howes.2 (by simp)
  | @go first b =>
    obtain ⟨rfl, hmem⟩ := howes
    obtain rfl : target = first := by simpa using hmem
    exact .inr ⟨_, List.mem_singleton_self _, rfl, rfl⟩
  | @fan targets b _ =>
    obtain ⟨rfl, hmem⟩ := howes
    exact .inr ⟨.visit target ⟨b.view, .empty⟩,
      Task.mem_states_forked.mpr (.inr ⟨target, hmem, rfl⟩), rfl, rfl⟩
  | _ => exact howes.elim

/-- What falls due in a deed is what the branch goes on to. -/
theorem Deed.fresh {j : Journal} {a : Strand} {events : List Event} {task : Task Strand Report}
    (h : Deed setup j a events task) (hj : j.Always (Fits setup)) (ha : Grounded setup j a)
    {debt : Scope × String} (hdue : Due setup (j.adding events) debt) :
    Due setup j debt ∨ ∃ b ∈ task.states, Owes b debt := by
  obtain ⟨scope, target⟩ := debt
  rcases hdue.of_adding hj with hold | ⟨m, edge, hclaimed, hm, hdisabled, hedge, rfl⟩ |
    ⟨m, outcome, edge, hended, hm, habort, hedge, rfl⟩
  · exact .inl hold
  · -- a disabled node is taken by the deed that passes over it
    obtain ⟨b, n, rfl, rfl, hn, ⟨-, rfl⟩ | ⟨henabled, -⟩⟩ := h.claimed_cases hclaimed
    · exact .inr ⟨_, List.mem_singleton_self _, rfl, List.mem_map_of_mem hedge⟩
    · obtain rfl := Option.some.inj (hm.symm.trans hn)
      rw [hdisabled] at henabled
      cases henabled
  · -- a node ends in the deed that leaves its result
    obtain ⟨n, b, rfl, rfl, hid, hnext⟩ := h.ended_cases hended
    obtain rfl : m = n := Option.some.inj (hm.symm.trans (hid ▸ AtWork.node ha))
    rcases hnext with haborts | ⟨b', rfl, hscope⟩
    · rw [habort] at haborts
      cases haborts
    · exact .inr ⟨_, List.mem_singleton_self _, hscope, List.mem_map_of_mem hedge⟩

/-- A branch that comes of a deed is in the same scope, or begins an iteration with its
entries. -/
theorem Deed.vouched {j : Journal} {a : Strand} {events : List Event} {task : Task Strand Report}
    (h : Deed setup j a events task) (ha : Grounded setup j a) {debt : Scope × String} :
    ∀ b ∈ task.states, Vouches setup b debt →
      Vouches setup a debt ∨ ∃ b ∈ task.states, Owes b debt := by
  obtain ⟨scope, target⟩ := debt
  intro b hb hvouches
  cases h with
  | @batch n course branch count _ _ _ =>
    rcases Task.mem_states_forked.mp hb with rfl | ⟨i, hi, rfl⟩
    · exact .inl hvouches
    obtain ⟨hscope, hentry⟩ := hvouches
    have hinner : (course.plan.enter branch.view i).scope = scope := Option.some.inj hscope
    have houter : branch.view.scope ++ [(n.id, (i : Int))] = scope := by
      rw [← hinner, ha.scope_enter]
    rw [← houter] at hentry
    obtain ⟨edge, hedge, rfl⟩ := hentry.exists_edge
    exact .inr ⟨iteration setup n course.plan branch.view i,
      Task.mem_states_forked.mpr (.inr ⟨i, hi, rfl⟩), hinner, List.mem_map_of_mem hedge⟩
  | @fan targets branch _ =>
    rcases Task.mem_states_forked.mp hb with rfl | ⟨t, -, rfl⟩
    · cases hvouches.1
    · exact .inl hvouches
  | start _ _ hopening =>
    obtain rfl := List.mem_singleton.mp hb
    cases hopening <;> exact .inl hvouches
  | turnBack | repeated | abort | stop | merge | close => cases hb
  | _ =>
    obtain rfl := List.mem_singleton.mp hb
    exact .inl hvouches

theorem Settled.adding {j : Journal} {debt : Scope × String} (h : Settled setup j debt)
    (events : List Event) : Settled setup (j.adding events) debt := by
  rcases h with h | h | h
  · exact .inl (by simp [h])
  · exact .inr (.inl (by simp [h]))
  · exact .inr (.inr h)

/-- The debts of a run are honoured. -/
theorem debts_honoured : Pool.Honoured (program setup) Disturbs
    (fun s => s.journal.Always (Fits setup)) (fun s a => Grounded setup s.journal a)
    (fun s => Due setup s.journal) (fun s => Settled setup s.journal) (Vouches setup) Owes := by
  refine honoured_of_deeds (J := Journal.Always (Fits setup)) (K := Grounded setup) (Due setup)
    (Settled setup) (Vouches setup) Owes (fun _ _ _ hi => .inl (hi.adding _))
    (fun _ _ h howes => h.handed howes) ?_ ?_ ?_ ?_
  · intro j a events task i hj ha h hdue
    rcases h.fresh hj ha hdue with hold | howes
    · exact .inl hold
    · exact .inr (.inr howes)
  · intro j a events task i hj ha h b hb hvouches
    rcases h.vouched ha b hb hvouches with hold | howes
    · exact .inl hold
    · exact .inr (.inr howes)
  · intro a i reports
    cases a <;> exact ⟨fun h => h, fun h => h⟩
  · refine fun {j i} => ⟨fun hi => hi.adding _, fun hdue => ?_⟩
    obtain ⟨node, hclaimed, hleads⟩ := hdue
    refine ⟨node, by simpa using hclaimed, hleads.of_endings fun node outcome hended => ?_⟩
    simpa using hended

/-- In every run, all that is led to and all entries of the scopes at work are taken or
have a branch on the way. -/
theorem solvent_of_reaches {given : Given} {world : World} {c : Pool State Strand Report}
    (h : Reaches setup (opening setup given world) c) :
    Pool.Solvent (fun s => Due setup s.journal) (fun s => Settled setup s.journal) (Vouches setup)
      Owes c := by
  refine debts_honoured.solvent_reaches grounds_kept (grounds_opening setup given world) h ?_
  rintro ⟨scope, target⟩ (⟨node, hclaimed, -⟩ | ⟨a, ha, hscope, hentry⟩)
  · cases hclaimed
  · -- the first branch is on its way to the start
    obtain rfl := List.mem_singleton.mp ha
    obtain rfl : [] = scope := Option.some.inj hscope
    generalize hnil : ([] : Scope) = outer at hentry
    cases hentry with
    | start => exact .inr ⟨_, ha, rfl, rfl⟩
    | body => simp at hnil

/-! ### At the end of a run -/

/-- An enabled node that was taken was begun. -/
def BegunIfTaken (setup : Setup) (j : Journal) : Prop :=
  ∀ scope n, setup.graph.node? n.id = some n → n.isDisabled = false →
    .claimed scope n.id ∈ j → .reached scope n.id .resolving ∈ j

theorem Deed.begunIfTaken {j : Journal} {a : Strand} {events : List Event}
    {task : Task Strand Report} (h : Deed setup j a events task) (hj : BegunIfTaken setup j) :
    BegunIfTaken setup (j.adding events) := by
  intro scope m hm henabled hclaimed
  rw [Journal.mem_adding] at hclaimed ⊢
  rcases hclaimed with hnew | hold
  swap
  · exact .inr (hj scope m hm henabled hold)
  obtain ⟨b, n, -, -, hn, hcases⟩ := h.claimed_cases hnew
  obtain rfl : m = n := Option.some.inj (hm.symm.trans hn)
  rcases hcases with ⟨hdisabled, -⟩ | ⟨-, hbegun⟩
  · rw [hdisabled] at henabled
    cases henabled
  · exact .inl hbegun

theorem begunIfTaken_of_reaches {given : Given} {world : World} {c : Pool State Strand Report}
    (h : Reaches setup (opening setup given world) c) : BegunIfTaken setup c.shared.journal := by
  have hkept : Pool.Kept (program setup) Disturbs (fun s => BegunIfTaken setup s.journal)
      (fun _ _ => True) :=
    kept_of_deeds (J := BegunIfTaken setup) (K := fun _ _ => True)
      (fun hj _ h => h.begunIfTaken hj) (fun _ _ _ _ _ => trivial) (fun _ _ _ => trivial)
      (fun hj scope n hn henabled hclaimed => by
        simpa using hj scope n hn henabled (by simpa using hclaimed))
      (fun _ _ => trivial)
  refine (hkept.reaches (Pool.holds_start ?_ trivial) h).1
  intro scope n _ _ hclaimed
  cases hclaimed

/-- The debts of a run that has ended and was never cancelled: what is led to was taken,
but for loops around. -/
theorem claimed_of_settled {j : Journal} (hcancel : j.isCancelled = false) {scope : Scope}
    {target : String} (hsettled : Settled setup j (scope, target))
    (hnode : ∃ n, setup.graph.node? target = some n) (hout : target ∉ scope.map (·.1)) :
    target ∈ claimedIn scope j := by
  rcases hsettled with hclaimed | hcancelled | hnone | hinside
  · exact hclaimed
  · rw [Journal.isCancelled_iff.mpr hcancelled] at hcancel
    cases hcancel
  · obtain ⟨n, hn⟩ := hnode
    cases hn.symm.trans hnone
  · exact absurd hinside hout

end Automation.Run
