/-
Automation/Proofs/Run/Grounds.lean

Why a node is taken, and that it is taken once.

A node is looked at for one of four reasons (`Justified`): a run begins with it,
an iteration of a loop begins with it, an edge leads to it from a node that was
passed over, or from a node that was executed and left its result.  The reason is
found in the journal, among the events of the same scope or, for an iteration,
in the record that its loop was begun.  Events are never taken back, so a reason
stays one (`Justified.mono`).

What a branch is about to do has its grounds in the journal (`Grounded`); with
that, every node in the journal was taken for a reason, for the first time in its
scope, and in no iteration of its own (`Fits`).  Both are kept by every deed.
-/
import Automation.Proofs.Flow.Graph
import Automation.Proofs.Run.Deed

namespace Automation.Run

open Automation.Schedule (Pool Task)

variable {setup : Setup}

/-! ### Reasons -/

/-- Why a branch looks at a node in a scope, by the events so far. -/
inductive Justified (setup : Setup) (j : Journal) : Scope → String → Prop
  /-- The run begins with the node. -/
  | start : Justified setup j [] setup.graph.start.id
  /-- An iteration of a loop that was begun around the scope begins with the node. -/
  | body {loop outer index edge} : setup.graph.node? loop.id = some loop → loop.isLoop = true →
    .reached outer loop.id .invoking ∈ j → edge ∈ setup.graph.tagged loop.id "each" →
    Justified setup j (outer ++ [(loop.id, index)]) edge.target
  /-- An edge without tag leads there from a node that was taken and passed over. -/
  | passed {scope n edge} : setup.graph.node? n.id = some n → n.isDisabled = true →
    .claimed scope n.id ∈ j → lineOf n .disabled ∈ j → edge ∈ setup.graph.untagged n.id →
    Justified setup j scope edge.target
  /-- An edge chosen for the result leads there from a node that has ended, has written
  what it leaves, and did not abort its branch. -/
  | followed {scope n outcome edge} : setup.graph.node? n.id = some n →
    .ended scope n.id outcome ∈ j →
    .wrote scope n.id ((Verdict.of outcome).left n.failurePolicy) ∈ j →
    (Verdict.of outcome).aborts n.failurePolicy = false →
    edge ∈ successors setup n (Verdict.of outcome).result →
    Justified setup j scope edge.target

/-- A reason stays one. -/
theorem Justified.mono {j k : Journal} (hjk : ∀ e ∈ j, e ∈ k) {scope : Scope} {node : String}
    (h : Justified setup j scope node) : Justified setup k scope node := by
  cases h with
  | start => exact .start
  | body hnode hloop hbegun hedge => exact .body hnode hloop (hjk _ hbegun) hedge
  | passed hnode hdisabled hclaimed hline hedge =>
    exact .passed hnode hdisabled (hjk _ hclaimed) (hjk _ hline) hedge
  | followed hnode hended hwrote habort hedge =>
    exact .followed hnode (hjk _ hended) (hjk _ hwrote) habort hedge

/-- The loops around a scope are different loops of the flow. -/
structure Nested (setup : Setup) (scope : Scope) : Prop where
  nodup : (scope.map (·.1)).Nodup
  loops : ∀ id ∈ scope.map (·.1), ∃ n, setup.graph.node? id = some n ∧ n.isLoop = true

theorem nested_nil : Nested setup [] := ⟨by simp, by simp⟩

/-- A loop that is not around may be entered. -/
theorem Nested.enter {scope : Scope} (h : Nested setup scope) {n : Node}
    (hn : setup.graph.node? n.id = some n) (hloop : n.isLoop = true)
    (hout : n.id ∉ scope.map (·.1)) (index : Int) : Nested setup (scope ++ [(n.id, index)]) where
  nodup := by
    rw [List.map_append, List.nodup_append]
    refine ⟨h.nodup, by simp, fun id hid other hother => ?_⟩
    obtain rfl : other = n.id := by simpa using hother
    exact fun heq => hout (heq ▸ hid)
  loops := by
    intro id hid
    rcases List.mem_append.mp (List.map_append ▸ hid) with hid | hid
    · exact h.loops id hid
    · obtain rfl : id = n.id := by simpa using hid
      exact ⟨n, hn, hloop⟩

/-- A node is carried out in a scope: it was taken and begun there. -/
structure AtWork (setup : Setup) (j : Journal) (scope : Scope) (n : Node) : Prop where
  nested : Nested setup scope
  node : setup.graph.node? n.id = some n
  enabled : n.isDisabled = false
  outside : n.id ∉ scope.map (·.1)
  claimed : .claimed scope n.id ∈ j
  begun : .reached scope n.id .resolving ∈ j

/-- A loop is carried out in a scope. -/
structure Looping (setup : Setup) (j : Journal) (scope : Scope) (n : Node)
    (course : Loop.Course) : Prop extends AtWork setup j scope n where
  loop : n.isLoop = true
  plan : course.plan.loop = n.id
  invoked : .reached scope n.id .invoking ∈ j

theorem AtWork.mono {j : Journal} {scope : Scope} {n : Node} (h : AtWork setup j scope n)
    (events : List Event) : AtWork setup (j.adding events) scope n :=
  { h with
    claimed := by simp [h.claimed]
    begun := by simp [h.begun] }

theorem Looping.mono {j : Journal} {scope : Scope} {n : Node} {course : Loop.Course}
    (h : Looping setup j scope n course) (events : List Event) :
    Looping setup (j.adding events) scope n course :=
  { h.toAtWork.mono events with
    loop := h.loop
    plan := h.plan
    invoked := by simp [h.invoked] }

/-- An iteration has its loop around it, with the number of the iteration. -/
theorem Looping.scope_enter {j : Journal} {scope : Scope} {n : Node} {course : Loop.Course}
    (h : Looping setup j scope n course) (view : View) (index : ℕ) :
    (course.plan.enter view index).scope = view.scope ++ [(n.id, (index : Int))] := by
  show view.scope ++ [(course.plan.loop, (index : Int))] = _
  rw [h.plan]

/-- What a branch is about to do has its grounds in the journal. -/
def Grounded (setup : Setup) (j : Journal) : Strand → Prop
  | .visit id b => Nested setup b.view.scope ∧ Justified setup j b.view.scope id
  | .act n _ b => AtWork setup j b.view.scope n
  | .turn n course b => Looping setup j b.view.scope n course
  | .gather n course b =>
    Looping setup j b.view.scope n course ∧ course.next < course.plan.count
  | .settle n course _ b => Looping setup j b.view.scope n course
  | .follow targets b => Nested setup b.view.scope ∧
    ∀ target ∈ targets, Justified setup j b.view.scope target
  | .merge _ => True
  | .close _ => True

theorem Grounded.mono {j : Journal} {a : Strand} (events : List Event) (h : Grounded setup j a) :
    Grounded setup (j.adding events) a := by
  have hsub : ∀ e ∈ j, e ∈ j.adding events := fun e he => by simp [he]
  cases a with
  | visit id b => exact ⟨h.1, h.2.mono hsub⟩
  | act n activity b => exact AtWork.mono h events
  | turn n course b => exact Looping.mono h events
  | gather n course b => exact ⟨Looping.mono h.1 events, h.2⟩
  | settle n course batch b => exact Looping.mono h events
  | follow targets b => exact ⟨h.1, fun target ht => (h.2 target ht).mono hsub⟩
  | merge report => trivial
  | close report => trivial

/-! ### What the deeds keep -/

/-- What is taken or begun is justified by the events before, lies in no iteration of
its own, and had not been taken or begun in the scope before; what is begun or has
ended was taken. -/
def Fits (setup : Setup) : Event → Journal → Prop
  | .claimed scope node, past =>
    .claimed scope node ∉ past ∧ node ∉ scope.map (·.1) ∧ Justified setup past scope node
  | .reached scope node .resolving, past => .claimed scope node ∈ past ∧
    .reached scope node .resolving ∉ past ∧ node ∉ scope.map (·.1) ∧
    Justified setup past scope node
  | .ended scope node _, past => .claimed scope node ∈ past
  | _, _ => True

/-- An event that does not say that a node was taken, begun or has ended. -/
def Quiet : Event → Prop
  | .claimed .. => False
  | .reached _ _ .resolving => False
  | .ended .. => False
  | _ => True

theorem Quiet.fits {e : Event} (h : Quiet e) (past : Journal) : Fits setup e past := by
  cases e with
  | claimed scope node => exact h.elim
  | ended scope node outcome => exact h.elim
  | reached scope node how => cases how <;> trivial
  | _ => trivial

theorem quiet_recorded {n : Node} {scope : Scope} {v : Verdict} {e : Event}
    (h : e ∈ recorded n scope v) : Quiet e := by
  unfold recorded at h
  rcases hv : v.error with - | error
  · simp only [hv] at h
    rcases List.mem_append.mp h with h | h
    · simp only [List.mem_cons, List.not_mem_nil, or_false] at h
      rcases h with rfl | rfl | rfl <;> trivial
    · split at h
      · obtain rfl := List.mem_singleton.mp h
        trivial
      · simp at h
  · simp only [hv, List.mem_cons, List.not_mem_nil, or_false] at h
    rcases h with rfl | rfl | rfl | rfl <;> trivial

theorem quiet_opening {n : Node} {b : Branch} {opening : List Event} {next : Strand}
    (h : Opening setup n b opening next) {e : Event} (he : e ∈ opening) : Quiet e := by
  cases h with
  | stuck => simp at he
  | _ =>
    obtain rfl := List.mem_singleton.mp he
    trivial

/-- A node is taken by a branch that looks at it, and the branch then passes over the
node or begins it. -/
theorem Deed.claimed_cases {j : Journal} {a : Strand} {events : List Event}
    {task : Task Strand Report} (h : Deed setup j a events task) {scope : Scope} {node : String}
    (hmem : .claimed scope node ∈ events) :
    ∃ b n, a = .visit node b ∧ b.view.scope = scope ∧ setup.graph.node? node = some n ∧
      (n.isDisabled = true ∧
          task = .live (.follow ((setup.graph.untagged node).map Edge.target) b) ∨
        n.isDisabled = false ∧ .reached scope n.id .resolving ∈ events) := by
  cases h with
  | @pass id b n htakes hdisabled =>
    obtain ⟨rfl, rfl⟩ : scope = b.view.scope ∧ node = id := by simpa [lineOf] using hmem
    exact ⟨b, n, rfl, rfl, htakes.node, .inl ⟨hdisabled, rfl⟩⟩
  | @start id b n opening next htakes henabled hopening =>
    rcases List.mem_append.mp hmem with hmem | hmem
    · obtain ⟨rfl, rfl⟩ : scope = b.view.scope ∧ node = id := by simpa [lineOf] using hmem
      exact ⟨b, n, rfl, rfl, htakes.node, .inr ⟨henabled, by simp⟩⟩
    · exact (quiet_opening hopening hmem).elim
  | leave | abort =>
    rcases List.mem_cons.mp hmem with heq | hmem
    · cases heq
    · exact (quiet_recorded hmem).elim
  | _ => simp [lineOf] at hmem

/-- A node ends in the branch that carries it out, and the branch then goes on to the
nodes that are chosen for the result, or aborts. -/
theorem Deed.ended_cases {j : Journal} {a : Strand} {events : List Event}
    {task : Task Strand Report} (h : Deed setup j a events task) {scope : Scope} {node : String}
    {outcome : Except Fault Value} (hmem : .ended scope node outcome ∈ events) :
    ∃ n b, a = .act n (.finish outcome) b ∧ b.view.scope = scope ∧ n.id = node ∧
      ((Verdict.of outcome).aborts n.failurePolicy = true ∨
        ∃ b', task = .live (.follow (nextTargets setup n (Verdict.of outcome).result) b') ∧
          b'.view.scope = scope) := by
  cases h with
  | @leave n found b _ =>
    rcases List.mem_cons.mp hmem with heq | hmem
    · obtain ⟨rfl, rfl, rfl⟩ := Event.ended.inj heq
      exact ⟨n, b, rfl, rfl, rfl, .inr ⟨_, rfl, rfl⟩⟩
    · exact (quiet_recorded hmem).elim
  | @abort n found b haborts =>
    rcases List.mem_cons.mp hmem with heq | hmem
    · obtain ⟨rfl, rfl, rfl⟩ := Event.ended.inj heq
      exact ⟨n, b, rfl, rfl, rfl, .inl haborts⟩
    · exact (quiet_recorded hmem).elim
  | start _ _ hopening =>
    rcases List.mem_append.mp hmem with hmem | hmem
    · simp [lineOf] at hmem
    · exact (quiet_opening hopening hmem).elim
  | _ => simp [lineOf] at hmem

/-- Quiet events do no harm. -/
theorem always_adding {j : Journal} (h : j.Always (Fits setup)) {events : List Event}
    (hquiet : ∀ e ∈ events, Quiet e) : (j.adding events).Always (Fits setup) := by
  induction events generalizing j with
  | nil => exact h
  | cons e events ih =>
    rw [Journal.adding_cons]
    exact ih ⟨(hquiet e List.mem_cons_self).fits j, h⟩
      fun e he => hquiet e (List.mem_cons_of_mem _ he)

/-- Nothing is begun that was not taken. -/
theorem claimed_of_begun {j : Journal} (h : j.Always (Fits setup)) {scope : Scope}
    {node : String} (hj : .reached scope node .resolving ∈ j) : .claimed scope node ∈ j := by
  obtain ⟨later, earlier, rfl⟩ := List.append_of_mem hj
  have hfits : Fits setup (.reached scope node .resolving) earlier := h.fits_of_eq rfl
  simp [hfits.1]

/-- Nothing has ended that was not taken. -/
theorem claimed_of_ended {j : Journal} (h : j.Always (Fits setup)) {scope : Scope}
    {node : String} {outcome : Except Fault Value} (hj : .ended scope node outcome ∈ j) :
    .claimed scope node ∈ j := by
  obtain ⟨later, earlier, rfl⟩ := List.append_of_mem hj
  have hfits : Fits setup (.ended scope node outcome) earlier := h.fits_of_eq rfl
  exact List.mem_append_right _ (List.mem_cons_of_mem _ hfits)

theorem isInside_eq_false {view : View} {id : String} :
    view.isInside id = false ↔ id ∉ view.scope.map (·.1) := by
  rw [View.isInside, List.any_eq_false]
  constructor
  · intro h hmem
    obtain ⟨s, hs, rfl⟩ := List.mem_map.mp hmem
    exact h s hs (by simp)
  · intro h s hs heq
    exact h (List.mem_map.mpr ⟨s, hs, by simpa using heq⟩)

/-- Taking a node for a reason, for the first time, fits. -/
theorem Takes.fits {j : Journal} {id : String} {b : Branch} {n : Node}
    (htakes : Takes setup j id b n) (hj : Justified setup j b.view.scope id) :
    Fits setup (.claimed b.view.scope id) j := by
  refine ⟨fun hmem => ?_, isInside_eq_false.mp htakes.inside, hj⟩
  have hclaimed := Journal.hasClaimed_iff.mpr hmem
  rw [htakes.claimed] at hclaimed
  cases hclaimed

/-- A node that is taken is put to work. -/
theorem Takes.atWork {j : Journal} {id : String} {b : Branch} {n : Node}
    (htakes : Takes setup j id b n) (hnested : Nested setup b.view.scope)
    (henabled : n.isDisabled = false) (opening : List Event) :
    AtWork setup (j.adding ([.claimed b.view.scope id, lineOf n (.executing n.kind),
      .reached b.view.scope n.id .resolving] ++ opening)) b.view.scope n := by
  obtain rfl := Graph.id_of_node? htakes.node
  exact ⟨hnested, htakes.node, henabled, isInside_eq_false.mp htakes.inside, by simp, by simp⟩

/-- The journal keeps to its order. -/
theorem Deed.fits {j : Journal} {a : Strand} {events : List Event} {task : Task Strand Report}
    (h : Deed setup j a events task) (hj : j.Always (Fits setup)) (ha : Grounded setup j a) :
    (j.adding events).Always (Fits setup) := by
  cases h with
  | @pass id b n htakes hdisabled => exact ⟨trivial, htakes.fits ha.2, hj⟩
  | @start id b n opening next htakes henabled hopening =>
    -- a node that is not yet taken cannot have been begun, so it is begun for the first time
    obtain rfl := Graph.id_of_node? htakes.node
    have hclaim := htakes.fits ha.2
    have hfresh : .reached b.view.scope n.id .resolving ∉ j :=
      fun hmem => hclaim.1 (claimed_of_begun hj hmem)
    have hbegun : Fits setup (.reached b.view.scope n.id .resolving)
        (lineOf n (.executing n.kind) :: .claimed b.view.scope n.id :: j) :=
      ⟨by simp, by simpa [lineOf] using hfresh, hclaim.2.1, ha.2.mono fun e he => by simp [he]⟩
    have hfirst : Journal.Always (Fits setup) (j.adding [.claimed b.view.scope n.id,
        lineOf n (.executing n.kind), .reached b.view.scope n.id .resolving]) :=
      ⟨hbegun, trivial, hclaim, hj⟩
    rw [← Journal.adding_adding]
    exact always_adding hfirst fun e he => quiet_opening hopening he
  | @leave n outcome b _ | @abort n outcome b _ =>
    have hended : Journal.Always (Fits setup) (.ended b.view.scope n.id outcome :: j) :=
      ⟨AtWork.claimed ha, hj⟩
    rw [Journal.adding_cons]
    exact always_adding hended fun e he => quiet_recorded he
  | repeated | cancel => exact ⟨trivial, hj⟩
  | _ => exact hj

/-- What comes of an opening has its grounds. -/
theorem Opening.grounded {j : Journal} {n : Node} {b : Branch} {opening : List Event}
    {next : Strand} (h : Opening setup n b opening next) (hwork : AtWork setup j b.view.scope n)
    (hj : ∀ e ∈ opening, e ∈ j) : Grounded setup j next := by
  cases h with
  | stuck => exact hwork
  | action => exact hwork
  | noPlan => exact hwork
  | loop hloop hplan =>
    exact { hwork with loop := hloop, plan := loop_of_planOf hplan, invoked := hj _ (by simp) }

/-- What comes of a deed has its grounds. -/
theorem Deed.grounded {j : Journal} {a : Strand} {events : List Event} {task : Task Strand Report}
    (h : Deed setup j a events task) (ha : Grounded setup j a) :
    ∀ b ∈ task.states, Grounded setup (j.adding events) b := by
  have hsame := Grounded.mono events ha
  cases h with
  | @pass id b n htakes hdisabled =>
    obtain rfl := Graph.id_of_node? htakes.node
    simp only [Task.states_live, List.mem_singleton, forall_eq]
    refine ⟨ha.1, fun target ht => ?_⟩
    obtain ⟨edge, hedge, rfl⟩ := List.mem_map.mp ht
    exact .passed htakes.node hdisabled (by simp) (by simp) hedge
  | @start id b n opening next htakes henabled hopening =>
    simp only [Task.states_live, List.mem_singleton, forall_eq]
    exact hopening.grounded (htakes.atWork ha.1 henabled opening) fun e he => by simp [he]
  | @leave n outcome b habort =>
    -- the events that are the reason for going on are those of this very deed
    simp only [Task.states_live, List.mem_singleton, forall_eq]
    refine ⟨ha.nested, fun target ht => ?_⟩
    obtain ⟨edge, hedge, rfl⟩ := List.mem_map.mp ht
    have hwrote := wrote_mem_recorded n b.view.scope (.of outcome)
    exact .followed ha.node (by simp [Branch.leave, View.write])
      (by simp [Branch.leave, View.write, hwrote]) habort hedge
  | @batch n course b count hmove hpos hle =>
    intro next hnext
    rcases Task.mem_states_forked.mp hnext with rfl | ⟨i, -, rfl⟩
    · exact ⟨ha, by omega⟩
    refine ⟨?_, fun target ht => ?_⟩
    · show Nested setup (course.plan.enter b.view i).scope
      rw [ha.scope_enter]
      exact ha.nested.enter ha.node ha.loop ha.outside i
    · show Justified setup _ (course.plan.enter b.view i).scope target
      obtain ⟨edge, hedge, rfl⟩ := List.mem_map.mp ht
      rw [ha.scope_enter]
      exact .body ha.node ha.loop ha.invoked hedge
  | @fan targets b htwo =>
    intro next hnext
    rcases Task.mem_states_forked.mp hnext with rfl | ⟨target, ht, rfl⟩
    · exact trivial
    · exact ⟨ha.1, ha.2 target ht⟩
  | go => simpa using ⟨ha.1, ha.2 _ List.mem_cons_self⟩
  | work | cancel | oversleep | again =>
    intro b hb
    obtain rfl := List.mem_singleton.mp hb
    exact hsame
  | wind | conclude | overrest =>
    intro b hb
    obtain rfl := List.mem_singleton.mp hb
    exact Looping.toAtWork hsame
  | idle =>
    intro b hb
    obtain rfl := List.mem_singleton.mp hb
    exact Looping.toAtWork hsame.1
  | _ => simp

theorem Grounded.rejoin {j : Journal} {a : Strand} (h : Grounded setup j a)
    (reports : List Report) : Grounded setup j (rejoin a reports) := by
  cases a with
  | gather n course b =>
    obtain ⟨hlooping, -⟩ := h
    exact { hlooping.toAtWork with
      loop := hlooping.loop, plan := hlooping.plan, invoked := hlooping.invoked }
  | merge report => trivial
  | _ => exact h

/-- Runs keep the journal to its order and their branches on grounds. -/
theorem grounds_kept : Pool.Kept (program setup) Disturbs
    (fun s => s.journal.Always (Fits setup)) (fun s a => Grounded setup s.journal a) :=
  kept_of_deeds (J := Journal.Always (Fits setup)) (K := Grounded setup)
    (fun hj ha h => h.fits hj ha) (fun _ ha h => h.grounded ha)
    (fun reports _ ha => ha.rejoin reports) (fun hj => ⟨trivial, hj⟩)
    (fun events hb => hb.mono events)

theorem grounds_opening (setup : Setup) (given : Given) (world : World) :
    Pool.Holds (fun s => s.journal.Always (Fits setup)) (fun s a => Grounded setup s.journal a)
      (opening setup given world) := by
  refine Pool.holds_start Journal.always_nil ?_
  exact ⟨nested_nil, .start⟩

/-- The order of the journal and the grounds of all branches, in every run. -/
theorem grounds_of_reaches {given : Given} {world : World} {c : Pool State Strand Report}
    (h : Reaches setup (opening setup given world) c) :
    c.shared.journal.Always (Fits setup) ∧ ∀ a ∈ c.states, Grounded setup c.shared.journal a :=
  grounds_kept.reaches (grounds_opening setup given world) h

/-! ### Once, and for a reason -/

theorem nodup_starts {j : Journal} (h : j.Always (Fits setup)) : j.starts.Nodup := by
  induction j with
  | nil => simp [Journal.starts]
  | cons e past ih =>
    have hpast := ih h.2
    cases e with
    | reached scope node how =>
      cases how with
      | resolving =>
        have hfits : Fits setup (.reached scope node .resolving) past := h.1
        exact List.nodup_cons.mpr ⟨fun hmem => hfits.2.1 (Journal.mem_starts.mp hmem), hpast⟩
      | _ => exact hpast
    | _ => exact hpast

/-- In every run of a flow, in any order of work, no node is begun twice in one scope,
none in an iteration of its own, and each for a reason found among the events before. -/
theorem begun_once_and_justified (setup : Setup) (given : Given) (world : World)
    {c : Pool State Strand Report} (h : Reaches setup (opening setup given world) c) :
    c.shared.journal.starts.Nodup ∧
      ∀ later scope node earlier,
        c.shared.journal = later ++ .reached scope node .resolving :: earlier →
        node ∉ scope.map (·.1) ∧ Justified setup earlier scope node := by
  obtain ⟨hj, -⟩ := grounds_of_reaches h
  refine ⟨nodup_starts hj, fun later scope node earlier heq => ?_⟩
  have hfits : Fits setup (.reached scope node .resolving) earlier := hj.fits_of_eq heq
  exact ⟨hfits.2.2.1, hfits.2.2.2⟩

/-- In a flow with a join and a loop, the join and each iteration begin their nodes once. -/
theorem begun_once_in_diamond :
    (Sample.after Sample.diamond 100).shared.journal.starts = [([], "z"), ([("l", 1)], "z"),
        ([("l", 0)], "z"), ([], "l"), ([], "y"), ([], "x"), ([], "a")] ∧
      (Sample.after Sample.diamond 100).shared.journal.starts.Nodup ∧
      ∀ later scope node earlier, (Sample.after Sample.diamond 100).shared.journal
          = later ++ .reached scope node .resolving :: earlier →
        node ∉ scope.map (·.1) ∧ Justified Sample.diamond earlier scope node :=
  ⟨by decide +kernel, begun_once_and_justified Sample.diamond Sample.given Sample.world
    (Sample.reaches_after Sample.diamond 100)⟩

end Automation.Run
