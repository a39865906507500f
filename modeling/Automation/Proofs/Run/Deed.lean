/-
Automation/Proofs/Run/Deed.lean

What one step of a branch can do.

A *deed* is a step of a strand, told by what it leaves: the events that it adds to
the journal, and the task that takes the place of the strand.  There is one
constructor for each thing that can happen, with the conditions under which it
does, and every step is a deed (`exists_deed`).  The secret store and the outside
world decide which of several deeds it is and are otherwise left out: nothing
below depends on them, so they may change at any time (`Disturbs`).

What all runs keep is proved from what the deeds keep (`kept_of_deeds`).
-/
import Automation.Proofs.Run.Journal
import Automation.Proofs.Schedule.Account
import Automation.Proofs.Schedule.Queue
import Automation.Run.Outcome

namespace Automation

/-- A batch starts where the loop stands, is not empty, and ends with the loop at the
latest. -/
theorem Loop.Course.batch_of_move {course : Course} {cancelled : Bool} {first count : Nat}
    (h : course.move cancelled = .batch first count) :
    first = course.next ∧ 0 < count ∧ course.next + count ≤ course.plan.count := by
  unfold Course.move at h
  rcases hc : course.isComplete with - | -
  · rcases cancelled with - | -
    · simp only [hc, Bool.false_eq_true, if_false, Move.batch.injEq] at h
      have hnext : course.next < course.plan.count := by simpa [isComplete] using hc
      have hsize : 0 < course.plan.settings.batchSize := by
        unfold Settings.batchSize
        split <;> omega
      omega
    · simp [hc] at h
  · simp [hc] at h

namespace Run

open Automation.Schedule (Directive Pool Task)

/-- An activity goes on as another one after one request. -/
inductive Continues : Activity → Activity → Prop
  | pause {a} : Continues (.pause a) a
  | sleep {seconds a} : Continues (.sleep seconds a) a
  | askSecrets {names a} : Continues (.askSecrets names a) a
  | note {effect a} : Continues (.note effect a) a
  | send {request next} (reply) : Continues (.send request next) (next reply)
  | publish {message next} (failure) : Continues (.publish message next) (next failure)

/-- How a node that was started gets to work: what is recorded about it, and what is
then left to do. -/
inductive Opening (setup : Setup) (n : Node) (b : Branch) : List Event → Strand → Prop
  /-- Its settings cannot be resolved, or its kind is unknown. -/
  | stuck (fault) : Opening setup n b [] (.act n (.fail fault) b)
  | action (activity) : n.isLoop = false →
    Opening setup n b [.reached b.view.scope n.id .invoking] (.act n activity b)
  | noPlan {config fault} : n.isLoop = true → planOf setup n config b.view = .error fault →
    Opening setup n b [.reached b.view.scope n.id .invoking] (.act n (.fail fault) b)
  | loop {config plan} : n.isLoop = true → planOf setup n config b.view = .ok plan →
    Opening setup n b [.reached b.view.scope n.id .invoking] (.turn n (.new plan) b)

/-- A branch that is to look at a node may take it: the run is not cancelled, and the
node is there, is no loop around, and was not taken before in the same scope. -/
structure Takes (setup : Setup) (j : Journal) (id : String) (b : Branch) (n : Node) : Prop where
  cancelled : j.isCancelled = false
  node : setup.graph.node? id = some n
  inside : b.view.isInside id = false
  claimed : j.hasClaimed b.view.scope id = false

/-- A rest between two batches has a length that no clock can tell. -/
def TooLong (milliseconds : ℕ) (fault : Fault) : Prop :=
  secondsOf milliseconds = .error fault ∨
    ∃ seconds, secondsOf milliseconds = .ok seconds ∧ microsecondsOf seconds = .error fault

/-- What a step of a strand does under a journal: the events that it adds, and the
task that takes its place. -/
inductive Deed (setup : Setup) (j : Journal) :
    Strand → List Event → Task Strand Report → Prop
  | turnBack {id b} :
    j.isCancelled = true ∨ setup.graph.node? id = none ∨ b.view.isInside id = true →
    Deed setup j (.visit id b) [] (.ended b.report)
  | repeated {id b n} : j.isCancelled = false → setup.graph.node? id = some n →
    b.view.isInside id = false → j.hasClaimed b.view.scope id = true →
    Deed setup j (.visit id b) [lineOf n .repeated] (.ended b.report)
  | pass {id b n} : Takes setup j id b n → n.isDisabled = true →
    Deed setup j (.visit id b) [.claimed b.view.scope id, lineOf n .disabled]
      (.live (.follow ((setup.graph.untagged id).map Edge.target) b))
  | start {id b n opening next} : Takes setup j id b n → n.isDisabled = false →
    Opening setup n b opening next →
    Deed setup j (.visit id b)
      ([.claimed b.view.scope id, lineOf n (.executing n.kind),
        .reached b.view.scope n.id .resolving] ++ opening) (.live next)
  | work {n a next b} : Continues a next → Deed setup j (.act n a b) [] (.live (.act n next b))
  | cancel {n next b} :
    Deed setup j (.act n (.cancelRun next) b) [.cancelled] (.live (.act n next b))
  /-- A sleep of a length that no clock can tell. -/
  | oversleep {n seconds next b} (fault) :
    Deed setup j (.act n (.sleep seconds next) b) [] (.live (.act n (.fail fault) b))
  | leave {n outcome b} : (Verdict.of outcome).aborts n.failurePolicy = false →
    Deed setup j (.act n (.finish outcome) b)
      (.ended b.view.scope n.id outcome :: recorded n b.view.scope (.of outcome))
      (.live (.follow (nextTargets setup n (Verdict.of outcome).result)
        (b.leave n.id ((Verdict.of outcome).left n.failurePolicy) (Verdict.of outcome).error)))
  | abort {n outcome b} : (Verdict.of outcome).aborts n.failurePolicy = true →
    Deed setup j (.act n (.finish outcome) b)
      (.ended b.view.scope n.id outcome :: recorded n b.view.scope (.of outcome))
      (.ended { (b.leave n.id ((Verdict.of outcome).left n.failurePolicy)
        (Verdict.of outcome).error).report with aborted := true })
  | wind {n course b report} : course.move j.isCancelled = .finish report →
    Deed setup j (.turn n course b) [] (.live (.act n (.done report.toFields) b))
  | batch {n course b count} : course.move j.isCancelled = .batch course.next count →
    0 < count → course.next + count ≤ course.plan.count →
    Deed setup j (.turn n course b) []
      (.waiting (.gather n course b) (((List.range' course.next count).map
        (iteration setup n course.plan b.view)).map .live))
  | idle {n course b} : Deed setup j (.gather n course b) []
    (.live (.act n (.done (course.report true true false none).toFields) b))
  | conclude {n course batch b report} : course.turn batch = .finish report →
    Deed setup j (.settle n course batch b) [] (.live (.act n (.done report.toFields) b))
  | again {n course batch b} : (∀ report, course.turn batch ≠ .finish report) →
    Deed setup j (.settle n course batch b) [] (.live (.turn n course b))
  | overrest {n course batch b milliseconds fault} : course.turn batch = .rest milliseconds →
    TooLong milliseconds fault →
    Deed setup j (.settle n course batch b) [] (.live (.act n (.fail fault) b))
  | stop {b} : Deed setup j (.follow [] b) [] (.ended b.report)
  | go {target b} : Deed setup j (.follow [target] b) [] (.live (.visit target b))
  | fan {targets b} : 2 ≤ targets.length →
    Deed setup j (.follow targets b) []
      (.waiting (.merge b.report)
        ((targets.map fun target => Strand.visit target ⟨b.view, .empty⟩).map .live))
  | merge {report} : Deed setup j (.merge report) [] (.ended report)
  | close {report} : Deed setup j (.close report) [] (.ended report)

/-- A branch waits for those that it forked into, or for a batch of a loop. -/
def Waits : Strand → Prop
  | .merge _ => True
  | .gather .. => True
  | _ => False

/-! ### Every step is a deed -/

/-- A step that adds events to the journal and brings in no new root. -/
def Does (setup : Setup) (s : State) (a : Strand) (result : State × Directive Strand Report) :
    Prop :=
  ∃ events, Deed setup s.journal a events (result.2.task (program setup)) ∧
    result.1.journal = s.journal.adding events ∧ result.2.roots = []

@[simp] theorem journal_askSecrets (s : State) (names : List String) :
    (s.askSecrets names).journal = s.journal := by
  unfold State.askSecrets
  split <;> rfl

@[simp] theorem journal_adding (s : State) (events : List Event) :
    (s.adding events).journal = s.journal.adding events := rfl

/-- A plan is made for the loop that asks for it, with the settings that are read. -/
theorem made_of_planOf {setup : Setup} {n : Node} {config : Fields Value} {view : View}
    {plan : Loop.Plan} (h : planOf setup n config view = .ok plan) : plan.loop = n.id ∧
      Loop.Settings.ofConfig config setup.defaultMaxIterations = .ok plan.settings := by
  unfold planOf at h
  rcases hs : Loop.Settings.ofConfig config setup.defaultMaxIterations with fault | settings
  · simp [hs, bind, Except.bind] at h
  · rcases hp : Loop.Plan.make n.id settings view with fault | made
    · simp [hs, hp, bind, Except.bind] at h
    · simp only [hs, hp, bind, Except.bind] at h
      split at h
      · cases h
      · obtain rfl := Except.ok.inj h
        unfold Loop.Plan.make at hp
        rcases hc : Loop.Plan.collect settings.trims view settings.vars with fault | sources
        · simp [hc, Except.map] at hp
        · simp only [hc, Except.map, Except.ok.injEq] at hp
          exact hp ▸ ⟨rfl, rfl⟩

theorem loop_of_planOf {setup : Setup} {n : Node} {config : Fields Value} {view : View}
    {plan : Loop.Plan} (h : planOf setup n config view = .ok plan) : plan.loop = n.id :=
  (made_of_planOf h).1

/-- How an action that can be carried out, or not, gets to work. -/
theorem opening_beginAction (setup : Setup) (s : State) {n : Node} (b : Branch)
    (hn : n.isLoop = false) :
    ∃ opening next, Opening setup n b opening next ∧
      (beginAction setup s n b).2 = .proceed next ∧
      (beginAction setup s n b).1.journal = s.journal.adding opening := by
  unfold beginAction
  rcases setup.registry.find? n.kind with - | behaviour
  · exact ⟨_, _, .stuck _, rfl, rfl⟩
  · rcases hsettings : settingsFor behaviour n b.view with fault | config
    · refine ⟨_, _, .stuck fault, by simp [hsettings], ?_⟩
      simp only [hsettings]
      split <;> simp
    · refine ⟨_, _, .action (behaviour.start config b.view) hn, by simp [hsettings], ?_⟩
      simp only [hsettings]
      split <;> simp

theorem opening_beginLoop (setup : Setup) (s : State) {n : Node} (b : Branch)
    (hn : n.isLoop = true) :
    ∃ opening next, Opening setup n b opening next ∧
      (beginLoop setup s n b).2 = .proceed next ∧
      (beginLoop setup s n b).1.journal = s.journal.adding opening := by
  unfold beginLoop
  rcases b.view.resolveFields n.config with fault | config
  · exact ⟨_, _, .stuck fault, rfl, by simp⟩
  · rcases hplan : planOf setup n config b.view with fault | plan
    · exact ⟨_, _, .noPlan hn hplan, by simp [hplan], by simp [hplan]⟩
    · exact ⟨_, _, .loop hn hplan, by simp [hplan], by simp [hplan]⟩

theorem opening_begin (setup : Setup) (s : State) (n : Node) (b : Branch) :
    ∃ opening next, Opening setup n b opening next ∧
      (begin setup s n b).2 = .proceed next ∧
      (begin setup s n b).1.journal = s.journal.adding
        ([lineOf n (.executing n.kind), .reached b.view.scope n.id .resolving] ++ opening) := by
  rcases hn : n.isLoop with - | -
  · obtain ⟨opening, next, hopening, hnext, hj⟩ := opening_beginAction setup
      (s.adding [lineOf n (.executing n.kind), .reached b.view.scope n.id .resolving]) b hn
    exact ⟨opening, next, hopening, by simpa [begin, hn] using hnext, by simpa [begin, hn] using hj⟩
  · obtain ⟨opening, next, hopening, hnext, hj⟩ := opening_beginLoop setup
      (s.adding [lineOf n (.executing n.kind), .reached b.view.scope n.id .resolving]) b hn
    exact ⟨opening, next, hopening, by simpa [begin, hn] using hnext, by simpa [begin, hn] using hj⟩

/-- A node that is taken is begun, unless it is disabled. -/
theorem Takes.visit_eq_begin {setup : Setup} {s : State} {id : String} {b : Branch} {n : Node}
    (h : Takes setup s.journal id b n) (henabled : n.isDisabled = false) : visit setup s id b
      = begin setup { s with journal := .claimed b.view.scope id :: s.journal } n b := by
  simp [visit, h.cancelled, h.node, h.inside, Journal.claim, h.claimed, henabled]

theorem Takes.visit_eq_pass {setup : Setup} {s : State} {id : String} {b : Branch} {n : Node}
    (h : Takes setup s.journal id b n) (hdisabled : n.isDisabled = true) : visit setup s id b
      = (({ s with journal := .claimed b.view.scope id :: s.journal } : State).adding
          [lineOf n .disabled],
        .proceed (.follow ((setup.graph.untagged id).map Edge.target) b)) := by
  simp [visit, h.cancelled, h.node, h.inside, Journal.claim, h.claimed, hdisabled]

theorem does_visit (setup : Setup) (s : State) (id : String) (b : Branch) :
    Does setup s (.visit id b) (visit setup s id b) := by
  -- the tests in the order in which they are made; each that fails ends the branch
  rcases hc : s.journal.isCancelled with - | -
  swap
  · have hstep : visit setup s id b = (s, .finish b.report) := by simp [visit, hc]
    rw [hstep]
    exact ⟨[], .turnBack (.inl hc), rfl, rfl⟩
  rcases hn : setup.graph.node? id with - | n
  · have hstep : visit setup s id b = (s, .finish b.report) := by simp [visit, hn]
    rw [hstep]
    exact ⟨[], .turnBack (.inr (.inl hn)), rfl, rfl⟩
  rcases hi : b.view.isInside id with - | -
  swap
  · have hstep : visit setup s id b = (s, .finish b.report) := by simp [visit, hn, hi]
    rw [hstep]
    exact ⟨[], .turnBack (.inr (.inr hi)), rfl, rfl⟩
  rcases hclaim : s.journal.hasClaimed b.view.scope id with - | -
  swap
  · have hstep : visit setup s id b = (s.adding [lineOf n .repeated], .finish b.report) := by
      simp [visit, hc, hn, hi, Journal.claim, hclaim]
    rw [hstep]
    exact ⟨_, .repeated hc hn hi hclaim, rfl, rfl⟩
  have htakes : Takes setup s.journal id b n := ⟨hc, hn, hi, hclaim⟩
  rcases hd : n.isDisabled with - | -
  · have hstep := htakes.visit_eq_begin hd
    obtain ⟨opening, next, hopening, hnext, hj⟩ := opening_begin setup
      { s with journal := .claimed b.view.scope id :: s.journal } n b
    have hdeed := Deed.start htakes hd hopening
    refine ⟨.claimed b.view.scope id :: ([lineOf n (.executing n.kind),
      .reached b.view.scope n.id .resolving] ++ opening), ?_, ?_, ?_⟩
    · rw [hstep, hnext]
      exact hdeed
    · rw [hstep, hj, Journal.adding_cons]
    · rw [hstep, hnext]
      rfl
  · rw [htakes.visit_eq_pass hd]
    exact ⟨_, .pass htakes hd, rfl, rfl⟩

theorem does_complete (setup : Setup) (s : State) (n : Node) (outcome : Except Fault Value)
    (b : Branch) : Does setup s (.act n (.finish outcome) b) (complete setup s n outcome b) := by
  have hj : (complete setup s n outcome b).1.journal = s.journal.adding
      (.ended b.view.scope n.id outcome :: recorded n b.view.scope (.of outcome)) := by
    unfold complete
    dsimp only
    split <;> rfl
  rcases ha : (Verdict.of outcome).aborts n.failurePolicy with - | -
  · refine ⟨_, ?_, hj, by simp [complete, ha, Directive.roots]⟩
    have hdeed : Deed setup s.journal (.act n (.finish outcome) b) _ _ := .leave ha
    simpa [complete, ha, Directive.task] using hdeed
  · refine ⟨_, ?_, hj, by simp [complete, ha, Directive.roots]⟩
    have hdeed : Deed setup s.journal (.act n (.finish outcome) b) _ _ := .abort ha
    simpa [complete, ha, Directive.task] using hdeed

theorem does_act (setup : Setup) (s : State) (n : Node) (a : Activity) (b : Branch) :
    Does setup s (.act n a b) (act setup s n a b) := by
  cases a with
  | finish outcome => exact does_complete setup s n outcome b
  | pause next => exact ⟨[], .work .pause, rfl, rfl⟩
  | sleep seconds next =>
    simp only [act]
    split
    · next fault _ => exact ⟨[], .oversleep fault, rfl, rfl⟩
    · exact ⟨[], .work .sleep, rfl, rfl⟩
  | cancelRun next => exact ⟨[.cancelled], .cancel, rfl, rfl⟩
  | askSecrets names next => exact ⟨[], .work .askSecrets, journal_askSecrets s names, rfl⟩
  | note effect next => exact ⟨[], .work .note, rfl, rfl⟩
  | send request next => exact ⟨[], .work (.send _), rfl, rfl⟩
  | publish message next => exact ⟨[], .work (.publish _), rfl, rfl⟩

theorem does_turn (setup : Setup) (s : State) (n : Node) (course : Loop.Course) (b : Branch) :
    Does setup s (.turn n course b) (turn setup s n course b) := by
  unfold turn
  rcases hmove : course.move s.journal.isCancelled with ⟨first, count⟩ | report
  swap
  · exact ⟨[], .wind hmove, rfl, rfl⟩
  obtain ⟨rfl, hpos, hle⟩ := Loop.Course.batch_of_move hmove
  refine ⟨[], ?_, rfl, rfl⟩
  -- a fork with children waits for them, and a batch has some
  have htask : ∀ children : List Strand, children ≠ [] →
      (Directive.fork children (.gather n course b)).task (program setup)
        = .waiting (.gather n course b) (children.map .live) := by
    intro children hne
    cases children with
    | nil => exact absurd rfl hne
    | cons child children => rfl
  have hne : (List.range' course.next count).map (iteration setup n course.plan b.view) ≠ [] := by
    simp only [ne_eq, List.map_eq_nil_iff, List.range'_eq_nil_iff]
    omega
  have hdeed : Deed setup s.journal (.turn n course b) _ _ := .batch hmove hpos hle
  rw [← htask _ hne] at hdeed
  exact hdeed

theorem does_settle (setup : Setup) (s : State) (n : Node) (course : Loop.Course)
    (batch : List Loop.Lap) (b : Branch) :
    Does setup s (.settle n course batch b) (settle s n course batch b) := by
  rcases hturn : course.turn batch with - | ms | report
  · have hstep : settle s n course batch b = (s, .proceed (.turn n course b)) := by
      simp [settle, hturn]
    rw [hstep]
    exact ⟨[], .again (by simp [hturn]), rfl, rfl⟩
  · rcases hs : secondsOf ms with fault | seconds
    · have hstep : settle s n course batch b = (s, .proceed (.act n (.fail fault) b)) := by
        simp [settle, hturn, hs]
      rw [hstep]
      exact ⟨[], .overrest hturn (.inl hs), rfl, rfl⟩
    rcases hm : microsecondsOf seconds with fault | microseconds
    · have hstep : settle s n course batch b
          = (s.notice (.slept seconds), .proceed (.act n (.fail fault) b)) := by
        simp [settle, hturn, hs, hm]
      rw [hstep]
      exact ⟨[], .overrest hturn (.inr ⟨seconds, hs, hm⟩), rfl, rfl⟩
    · have hstep : settle s n course batch b
          = (s.notice (.slept seconds), .sleep microseconds (.turn n course b)) := by
        simp [settle, hturn, hs, hm]
      rw [hstep]
      exact ⟨[], .again (by simp [hturn]), rfl, rfl⟩
  · have hstep : settle s n course batch b = (s, .proceed (.act n (.done report.toFields) b)) := by
      simp [settle, hturn]
    rw [hstep]
    exact ⟨[], .conclude hturn, rfl, rfl⟩

theorem does_follow (setup : Setup) (s : State) (targets : List String) (b : Branch) :
    Does setup s (.follow targets b) (follow s targets b) := by
  match targets with
  | [] => exact ⟨[], .stop, rfl, rfl⟩
  | [target] => exact ⟨[], .go, rfl, rfl⟩
  | first :: second :: rest => exact ⟨[], .fan (by simp), rfl, rfl⟩

/-- What a node leaves is recorded, whether it completed or failed. -/
theorem wrote_mem_recorded (n : Node) (scope : Scope) (v : Verdict) :
    .wrote scope n.id (v.left n.failurePolicy) ∈ recorded n scope v := by
  unfold recorded
  split <;> simp

/-- Every step of a branch is one of the deeds. -/
theorem exists_deed (setup : Setup) (s : State) (a : Strand) : Does setup s a (step setup s a) := by
  cases a with
  | visit id b => exact does_visit setup s id b
  | act n activity b => exact does_act setup s n activity b
  | turn n course b => exact does_turn setup s n course b
  | gather n course b => exact ⟨[], .idle, rfl, rfl⟩
  | settle n course batch b => exact does_settle setup s n course batch b
  | follow targets b => exact does_follow setup s targets b
  | merge report => exact ⟨[], .merge, rfl, rfl⟩
  | close report => exact ⟨[], .close, rfl, rfl⟩

/-- No strand puts up another root. -/
theorem roots_of_step {setup : Setup} {s s' : State} {a : Strand} {d : Directive Strand Report}
    (h : step setup s a = (s', d)) : d.roots = [] := by
  obtain ⟨-, -, -, hroots⟩ := exists_deed setup s a
  rwa [h] at hroots

/-! ### Runs in any order -/

/-- What may change from outside between two steps of a run: the secret store and the
world do as they like, and the run may be cancelled. -/
def Disturbs (s s' : State) : Prop :=
  s'.journal = s.journal ∨ s'.journal = s.journal.adding [.cancelled]

/-- A run from one pool of branches to another, in any order of work. -/
abbrev Reaches (setup : Setup) :
    Pool State Strand Report → Pool State Strand Report → Prop :=
  Pool.Reaches (program setup) Disturbs

/-- The pool of a run that has not begun. -/
abbrev opening (setup : Setup) (given : Given) (world : World) : Pool State Strand Report :=
  (beginning setup given [] world).toPool

/-- A step of a branch is a deed, and what comes of the one comes of the other. -/
theorem exists_deed_births (setup : Setup) (s : State) (a : Strand) :
    ∃ events task, Deed setup s.journal a events task ∧
      ((program setup).step s a).1.journal = s.journal.adding events ∧
      ((program setup).step s a).2.births (program setup) = task.states := by
  obtain ⟨events, hdeed, hj, hroots⟩ := exists_deed setup s a
  refine ⟨events, _, hdeed, hj, ?_⟩
  show ((step setup s a).2.task (program setup)).states
    ++ Task.statesAll (step setup s a).2.roots = _
  rw [hroots]
  simp

section OfDeeds

variable {setup : Setup} {J : Journal → Prop} {K : Journal → Strand → Prop}

/-- What all deeds keep, about the journal and about each branch beside it, is kept by
all steps. -/
theorem kept_of_deeds
    (hJ : ∀ {j a events task}, J j → K j a → Deed setup j a events task → J (j.adding events))
    (hbirths : ∀ {j a events task}, J j → K j a → Deed setup j a events task →
      ∀ b ∈ task.states, K (j.adding events) b)
    (hrejoin : ∀ {j a} reports, J j → K j a → K j (rejoin a reports))
    (hcancel : ∀ {j}, J j → J (j.adding [.cancelled]))
    (hmono : ∀ {j b} events, K j b → K (j.adding events) b) :
    Pool.Kept (program setup) Disturbs (fun s => J s.journal) (fun s a => K s.journal a) where
  shared {s a} h ha := by
    obtain ⟨events, task, hdeed, hj, -⟩ := exists_deed_births setup s a
    rw [hj]
    exact hJ h ha hdeed
  births {s a} h ha b hb := by
    obtain ⟨events, task, hdeed, hj, hbirths'⟩ := exists_deed_births setup s a
    rw [hj]
    rw [hbirths'] at hb
    exact hbirths h ha hdeed b hb
  others {s a b} h ha hb := by
    obtain ⟨events, task, -, hj, -⟩ := exists_deed_births setup s a
    rw [hj]
    exact hmono events hb
  rejoin {s a} reports h ha := hrejoin reports h ha
  outside {s s'} hout h := by
    rcases hout with hj | hj
    · rw [hj]
      exact ⟨h, fun a ha => ha⟩
    · rw [hj]
      exact ⟨hcancel h, fun a ha => hmono _ ha⟩

/-- Debts that all deeds honour are honoured by all steps. -/
theorem honoured_of_deeds {ι : Type*} (due settled : Journal → ι → Prop)
    (vouches owes : Strand → ι → Prop)
    (hkeeps : ∀ {j a events task i}, J j → K j a → Deed setup j a events task → settled j i →
      settled (j.adding events) i ∨ ∃ b ∈ task.states, owes b i)
    (hhanded : ∀ {j a events task i}, J j → K j a → Deed setup j a events task → owes a i →
      settled (j.adding events) i ∨ ∃ b ∈ task.states, owes b i)
    (hfresh : ∀ {j a events task i}, J j → K j a → Deed setup j a events task →
      due (j.adding events) i →
      due j i ∨ settled (j.adding events) i ∨ ∃ b ∈ task.states, owes b i)
    (hvouched : ∀ {j a events task i}, J j → K j a → Deed setup j a events task →
      ∀ b ∈ task.states, vouches b i →
      vouches a i ∨ settled (j.adding events) i ∨ ∃ b ∈ task.states, owes b i)
    (hrejoin : ∀ {a i} reports, (owes a i → owes (rejoin a reports) i) ∧
      (vouches (rejoin a reports) i → vouches a i))
    (hcancel : ∀ {j i}, (settled j i → settled (j.adding [.cancelled]) i) ∧
      (due (j.adding [.cancelled]) i → due j i)) :
    Pool.Honoured (program setup) Disturbs (fun s => J s.journal) (fun s a => K s.journal a)
      (fun s => due s.journal) (fun s => settled s.journal) vouches owes where
  keeps {s a i} h ha hi := by
    obtain ⟨events, task, hdeed, hj, hbirths⟩ := exists_deed_births setup s a
    rw [hj, hbirths]
    exact hkeeps h ha hdeed hi
  handed {s a i} h ha hi := by
    obtain ⟨events, task, hdeed, hj, hbirths⟩ := exists_deed_births setup s a
    rw [hj, hbirths]
    exact hhanded h ha hdeed hi
  fresh {s a i} h ha hi := by
    obtain ⟨events, task, hdeed, hj, hbirths⟩ := exists_deed_births setup s a
    rw [hj] at hi ⊢
    rw [hbirths]
    exact hfresh h ha hdeed hi
  vouched {s a i} h ha b hb hi := by
    obtain ⟨events, task, hdeed, hj, hbirths⟩ := exists_deed_births setup s a
    rw [hbirths] at hb ⊢
    rw [hj]
    exact hvouched h ha hdeed b hb hi
  rejoinOwes reports := (hrejoin reports).1
  rejoinVouches reports := (hrejoin reports).2
  outside {s s' i} hout := by
    rcases hout with hj | hj
    · rw [hj]
      exact ⟨id, id⟩
    · rw [hj]
      exact hcancel

/-- Books that all deeds balance are balanced by all steps. -/
theorem balanced_of_deeds (entered raised : Journal → ℕ) (weight : Strand → ℕ)
    (hstep : ∀ {j a events task}, J j → K j a → Deed setup j a events task →
      entered (j.adding events) + (task.states.map weight).sum + raised j
        = entered j + weight a + raised (j.adding events))
    (hrejoin : ∀ {a} reports, weight (rejoin a reports) = weight a)
    (hcancel : ∀ {j}, entered (j.adding [.cancelled]) = entered j ∧
      raised (j.adding [.cancelled]) = raised j) :
    Pool.Balanced (program setup) Disturbs (fun s => J s.journal) (fun s a => K s.journal a)
      (fun s => entered s.journal) (fun s => raised s.journal) weight where
  step {s a} h ha := by
    obtain ⟨events, task, hdeed, hj, hbirths⟩ := exists_deed_births setup s a
    rw [hj, hbirths]
    exact hstep h ha hdeed
  rejoin reports := hrejoin reports
  outside {s s'} hout := by
    rcases hout with hj | hj
    · rw [hj]
      exact ⟨rfl, rfl⟩
    · rw [hj]
      exact hcancel

end OfDeeds

/-! ### Small flows -/

namespace Sample

def node (id kind : String) (config : Fields Value) : Node :=
  ⟨id, kind, none, some config, none, none, []⟩

def edge (id source target : String) (branch : Option String) : Edge :=
  ⟨id, source, target, branch.map some, []⟩

theorem isStart_node : (node "a" "start" []).isStart = true := rfl

/-- Each step lets others go first and gives its settings back. -/
def registry : Registry :=
  [("start", .plain fun config _ => .done config),
    ("step", .plain fun config _ => .pause (.done config))]

/-- A start forks into two branches that join at a loop of two iterations side by side.
Its body has an edge back; a disabled node is behind it. -/
def diamond : Setup where
  graph :=
    { document :=
        { authoredNodes := some [node "a" "start" [], node "x" "step" [], node "y" "step" [],
            node "l" "loop" [("maxIterations", .int 2), ("loopType", .text "async")],
            node "z" "step" [], node "d" "step" [("disabled", .bool true)]]
          authoredEdges := some [edge "1" "a" "x" none, edge "2" "a" "y" none,
            edge "3" "x" "l" none, edge "4" "y" "l" none, edge "5" "l" "z" (some "each"),
            edge "6" "z" "l" none, edge "7" "l" "d" (some "after"), edge "8" "d" "z" none]
          authoredTrigger := none
          authoredComponent := none
          others := [] }
      start := node "a" "start" []
      sound := rfl
      start_mem := by simp [Document.nodes]
      start_isStart := isStart_node }
  registry := registry
  defaultMaxIterations := 500

/-- A loop whose body begins with the loop itself.  There it would have as many
iterations as the number of the iteration around it. -/
def ownBody : Setup where
  graph :=
    { document :=
        { authoredNodes := some [node "a" "start" [],
            node "l" "loop" [("maxIterations", .text "\x7b\x7bloop_iteration\x7d\x7d"),
              ("loopCounterStart", .int 0)]]
          authoredEdges := some [edge "e1" "a" "l" none, edge "e2" "l" "l" (some "each")]
          authoredTrigger := none
          authoredComponent := none
          others := [] }
      start := node "a" "start" []
      sound := rfl
      start_mem := by simp [Document.nodes]
      start_isStart := isStart_node }
  registry := registry
  defaultMaxIterations := 1

def given : Given := ⟨⟨"run", .null, ⟨"", 0⟩⟩, .empty, .empty, .empty⟩

def world : World := ⟨[], none, []⟩

/-- A run after some steps of the machine. -/
def after (setup : Setup) (steps : Nat) : Pool State Strand Report :=
  ((beginning setup given [] world).run (program setup) steps).1.toPool

theorem reaches_after (setup : Setup) (steps : Nat) :
    Reaches setup (opening setup given world) (after setup steps) :=
  Schedule.Machine.reaches_run (program setup) Disturbs steps (beginning setup given [] world)

theorem reaches_later (setup : Setup) (first second : Nat) :
    Reaches setup (after setup first) (after setup (first + second)) := by
  unfold after
  rw [Schedule.Machine.run_append]
  exact Schedule.Machine.reaches_run (program setup) Disturbs second _

end Sample

end Run

end Automation
