/-
Automation/Proofs/Run/Visibility.lean

What a branch sees.

The path of a branch is the list of the executions that lie behind it: a branch adds
to it when a node has left its result, a fork hands it on to all branches, and an
iteration takes over the path that led to its loop (`remember`).  The path is kept
beside the branch as a trail, which no step reads.

A path is a chain from the start of the flow along the edges that were followed,
into iterations and out of nothing (`Chain`).  In every run each branch sees exactly
what is on its own path, for each node the latest result (`view_shows_own_path`).
So it sees no result of a sibling, of another iteration, or of the body of a loop that
is over: what is on the path lies in the scope of the branch or around it.
-/
import Automation.Proofs.Run.Coverage
import Automation.Proofs.Schedule.Trail

namespace Automation.Run

open Automation.Schedule (Pool Task)

variable {setup : Setup}

/-! ### Paths -/

/-- A node that was executed in a scope and has left a result. -/
structure Execution where
  scope : Scope
  node : String
  result : Value

/-- The path of what comes of a branch: with the node that has left its result, if the
branch is about to leave one. -/
def remember : Strand → List Execution → List Execution
  | .act n (.finish outcome) b, path =>
    path ++ [⟨b.view.scope, n.id, (Verdict.of outcome).left n.failurePolicy⟩]
  | _, path => path

/-- The latest result of each node on a path. -/
def lastResults (path : List Execution) : Fields Value :=
  Fields.ofPairs (path.map fun e => (e.node, e.result))

theorem lastResults_append (path : List Execution) (e : Execution) :
    lastResults (path ++ [e]) = (lastResults path).set e.node e.result := by
  simp [lastResults, Fields.ofPairs, Fields.overlay]

/-- A path that leads to a node in a scope, by the events so far. -/
inductive Chain (setup : Setup) (j : Journal) : List Execution → Scope → String → Prop
  | start : Chain setup j [] [] setup.graph.start.id
  /-- Over a node that was passed. -/
  | pass {path scope n edge} : Chain setup j path scope n.id →
    setup.graph.node? n.id = some n → n.isDisabled = true → .claimed scope n.id ∈ j →
    edge ∈ setup.graph.untagged n.id → Chain setup j path scope edge.target
  /-- Out of a node that has ended and has written what it leaves. -/
  | leave {path scope n outcome edge} : Chain setup j path scope n.id →
    setup.graph.node? n.id = some n → .ended scope n.id outcome ∈ j →
    .wrote scope n.id ((Verdict.of outcome).left n.failurePolicy) ∈ j →
    (Verdict.of outcome).aborts n.failurePolicy = false →
    edge ∈ successors setup n (Verdict.of outcome).result →
    Chain setup j (path ++ [⟨scope, n.id, (Verdict.of outcome).left n.failurePolicy⟩]) scope
      edge.target
  /-- Into an iteration of a loop that was begun, without a result of the loop. -/
  | enter {path scope loop index edge} : Chain setup j path scope loop.id →
    setup.graph.node? loop.id = some loop → loop.isLoop = true →
    .reached scope loop.id .invoking ∈ j → edge ∈ setup.graph.tagged loop.id "each" →
    Chain setup j path (scope ++ [(loop.id, index)]) edge.target

theorem Chain.adding {j : Journal} {path : List Execution} {scope : Scope} {node : String}
    (h : Chain setup j path scope node) (events : List Event) :
    Chain setup (j.adding events) path scope node := by
  have hsub : ∀ e ∈ j, e ∈ j.adding events := fun e he => by simp [he]
  induction h with
  | start => exact .start
  | pass _ hn hdisabled hclaimed hedge ih =>
    exact .pass ih hn hdisabled (hsub _ hclaimed) hedge
  | leave _ hn hended hwrote habort hedge ih =>
    exact .leave ih hn (hsub _ hended) (hsub _ hwrote) habort hedge
  | enter _ hn hloop hinvoked hedge ih => exact .enter ih hn hloop (hsub _ hinvoked) hedge

/-- What is on a path lies in the scope that it leads to, or around it. -/
theorem Chain.isAround {j : Journal} {path : List Execution} {scope : Scope} {node : String}
    (h : Chain setup j path scope node) : ∀ e ∈ path, e.scope <+: scope := by
  induction h with
  | start => simp
  | pass _ _ _ _ _ ih => exact ih
  | leave _ _ _ _ _ _ ih =>
    intro e he
    rcases List.mem_append.mp he with he | he
    · exact ih e he
    · obtain rfl := List.mem_singleton.mp he
      exact List.prefix_refl _
  | enter _ _ _ _ _ ih => exact fun e he => (ih e he).trans (List.prefix_append _ _)

/-! ### Branches on their paths -/

/-- The nodes that a branch looks at, carries out, or goes on to. -/
def Strand.heads : Strand → List String
  | .visit id _ => [id]
  | .act n _ _ => [n.id]
  | .turn n _ _ => [n.id]
  | .gather n _ _ => [n.id]
  | .settle n _ _ _ => [n.id]
  | .follow targets _ => targets
  | .merge _ => []
  | .close _ => []

/-- A branch sees what is on its path, and the path leads to where the branch is. -/
def OnPath (setup : Setup) (j : Journal) (a : Strand) (path : List Execution) : Prop :=
  ∀ view, a.view? = some view → view.results = lastResults path ∧
    ∀ id ∈ a.heads, Chain setup j path view.scope id

theorem OnPath.adding {j : Journal} {a : Strand} {path : List Execution}
    (h : OnPath setup j a path) (events : List Event) : OnPath setup (j.adding events) a path :=
  fun view hview => ⟨(h view hview).1, fun id hid => ((h view hview).2 id hid).adding events⟩

theorem OnPath.rejoin {j : Journal} {a : Strand} {path : List Execution}
    (h : OnPath setup j a path) (reports : List Report) :
    OnPath setup j (rejoin a reports) path := by
  cases a with
  | merge report =>
    intro view hview
    cases hview
  | _ => exact h

theorem Continues.remember {a next : Activity} (h : Continues a next) (n : Node) (b : Branch)
    (path : List Execution) : remember (.act n a b) path = path := by
  cases h <;> rfl

/-- What comes of a deed is on its path. -/
theorem Deed.onPath {j : Journal} {a : Strand} {events : List Event} {task : Task Strand Report}
    (h : Deed setup j a events task) (ha : Grounded setup j a) {path : List Execution}
    (hpath : OnPath setup j a path) :
    ∀ b ∈ task.states, OnPath setup (j.adding events) b (remember a path) := by
  intro b hb
  have hlater := hpath.adding events
  cases h with
  | turnBack | repeated | abort | stop | merge | close => cases hb
  | @pass id branch n htakes hdisabled =>
    obtain rfl := Graph.id_of_node? htakes.node
    obtain rfl := List.mem_singleton.mp hb
    rintro view ⟨⟩
    obtain ⟨hresults, hchain⟩ := hlater _ rfl
    refine ⟨hresults, fun target htarget => ?_⟩
    obtain ⟨edge, hedge, rfl⟩ := List.mem_map.mp htarget
    exact .pass (hchain n.id (List.mem_singleton_self _)) htakes.node hdisabled (by simp) hedge
  | @start id branch n opening next htakes _ hopening =>
    obtain rfl := Graph.id_of_node? htakes.node
    obtain rfl := List.mem_singleton.mp hb
    cases hopening <;> exact hlater
  | work hnext =>
    obtain rfl := List.mem_singleton.mp hb
    rw [hnext.remember]
    exact hlater
  | cancel | oversleep | wind | idle | conclude | again | overrest =>
    obtain rfl := List.mem_singleton.mp hb
    exact hlater
  | @leave n outcome branch habort =>
    obtain rfl := List.mem_singleton.mp hb
    rintro view ⟨⟩
    obtain ⟨hresults, hchain⟩ := hlater _ rfl
    -- the result is written to the view and put on the path in the same deed
    refine ⟨?_, fun target htarget => ?_⟩
    · show branch.view.results.set _ _ = lastResults (path ++ [_])
      rw [lastResults_append, hresults]
    · obtain ⟨edge, hedge, rfl⟩ := List.mem_map.mp htarget
      have hwrote := wrote_mem_recorded n branch.view.scope (.of outcome)
      exact .leave (hchain n.id (List.mem_singleton_self _)) (AtWork.node ha) (by simp)
        (by simp [hwrote]) habort hedge
  | @batch n course branch count _ _ _ =>
    rcases Task.mem_states_forked.mp hb with rfl | ⟨i, -, rfl⟩
    · exact hlater
    rintro view ⟨⟩
    obtain ⟨hresults, hchain⟩ := hlater _ rfl
    refine ⟨hresults, fun target htarget => ?_⟩
    obtain ⟨edge, hedge, rfl⟩ := List.mem_map.mp htarget
    -- the iteration takes over the view of the loop, which has not yet left a result
    show Chain setup _ path (course.plan.enter branch.view i).scope _
    rw [ha.scope_enter]
    exact .enter (hchain n.id (List.mem_singleton_self _)) ha.node ha.loop ha.invoked hedge
  | go =>
    obtain rfl := List.mem_singleton.mp hb
    exact hlater
  | fan =>
    rcases Task.mem_states_forked.mp hb with rfl | ⟨target, htarget, rfl⟩
    · intro view hview
      cases hview
    rintro view ⟨⟩
    obtain ⟨hresults, hchain⟩ := hlater _ rfl
    refine ⟨hresults, fun id hid => ?_⟩
    obtain rfl := List.mem_singleton.mp hid
    exact hchain id htarget

/-! ### Every branch sees its own path -/

/-- A run in which each branch keeps its path. -/
abbrev ReachesOnPaths (setup : Setup) : Pool State (Strand × List Execution) Report →
    Pool State (Strand × List Execution) Report → Prop :=
  Pool.Reaches ((program setup).tracked remember) Disturbs

/-- A run that has not begun, with nothing on the path of its first branch. -/
def openingOnPath (setup : Setup) (given : Given) (world : World) :
    Pool State (Strand × List Execution) Report :=
  .start ⟨[], given.vault, world⟩ (firstStrand setup.graph given, [])

theorem paths_kept : Pool.Kept ((program setup).tracked remember) Disturbs
    (fun s => s.journal.Always (Fits setup))
    (fun s a => Grounded setup s.journal a.1 ∧ OnPath setup s.journal a.1 a.2) := by
  refine grounds_kept.tracked (T := fun s a path => OnPath setup s.journal a path) ?_ ?_ ?_ ?_
  · intro s a path _ ha hpath b hb
    obtain ⟨events, task, hdeed, hj, hbirths⟩ := exists_deed_births setup s a
    rw [hbirths] at hb
    rw [hj]
    exact hdeed.onPath ha hpath b hb
  · intro s a b path _ _ hb
    obtain ⟨events, task, -, hj, -⟩ := exists_deed_births setup s a
    rw [hj]
    exact hb.adding events
  · exact fun results hpath => hpath.rejoin results
  · intro s s' a path hout hpath
    rcases hout with hj | hj
    · rw [hj]
      exact hpath
    · rw [hj]
      exact hpath.adding _

/-- Paths can be kept in every run, and only in runs; and in every run in which they are
kept each branch sees the latest results of the nodes on its own path, which leads
to the nodes that the branch looks at, carries out or goes on to, and lies in its
scope or around it. -/
theorem view_shows_own_path (setup : Setup) (given : Given) (world : World) :
    (∀ c, Reaches setup (opening setup given world) c ↔
      ∃ t, ReachesOnPaths setup (openingOnPath setup given world) t ∧ t.untracked = c) ∧
    ∀ t, ReachesOnPaths setup (openingOnPath setup given world) t →
      ∀ a path, (a, path) ∈ t.states → ∀ view, a.view? = some view →
        view.results = lastResults path ∧
        ∀ id ∈ a.heads, Chain setup t.shared.journal path view.scope id ∧
          ∀ e ∈ path, e.scope <+: view.scope := by
  refine ⟨fun c => ?_, fun t ht a path ha view hview => ?_⟩
  · -- paths are trails, and trails do not change what can happen
    have hstart : opening setup given world = (openingOnPath setup given world).untracked := by
      rw [openingOnPath, Pool.untracked_start]
      rfl
    rw [hstart]
    exact Pool.reaches_iff_tracked remember
  · have hstart : Pool.Holds (fun s => s.journal.Always (Fits setup))
        (fun s (a : Strand × List Execution) =>
          Grounded setup s.journal a.1 ∧ OnPath setup s.journal a.1 a.2)
        (openingOnPath setup given world) := by
      refine Pool.holds_start Journal.always_nil ⟨⟨nested_nil, .start⟩, ?_⟩
      rintro view ⟨⟩
      refine ⟨rfl, fun id hid => ?_⟩
      obtain rfl := List.mem_singleton.mp hid
      exact .start
    obtain ⟨hresults, hchain⟩ := ((paths_kept.reaches hstart ht).2 (a, path) ha).2 view hview
    exact ⟨hresults, fun id hid => ⟨hchain id hid, (hchain id hid).isAround⟩⟩

end Automation.Run
