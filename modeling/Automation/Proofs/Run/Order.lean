/-
Automation/Proofs/Run/Order.lean

The order of work does not matter in flows without joins.

Each branch of a run has a tale: what the plain interpreter makes of what the branch has
left to do (`told`).  In a flow without joins, with loops that run their iterations one
after another and with steady actions, each step of a branch tells the beginning of its
tale and leaves the rest to the branches that come of it, and branches that a branch has
forked into tell of different nodes (`orderly`).  So whatever the order of work, of each
node the same is told in the same order, and the run comes to what the plain interpreter
comes to (`order_does_not_matter`).
-/
import Automation.Proofs.Run.Conclusion
import Automation.Proofs.Run.Territory

namespace Automation.Run

open Automation.Schedule (Directive Pool Reading Tale Task)
open Plain (afterLap body parting inTurn leave rounds)

variable {setup : Setup} {world : World}

/-! ### The tale of a branch -/

/-- A tale of what a branch has left to do, with what the branch has to report already. -/
def onto (report : Report) (t : Tale Event Report) : Tale Event Report :=
  ⟨t.events, report.merge t.result⟩

/-- The tale of a branch that carries out a node, by what is left of the work of the node. -/
def closing (setup : Setup) (world : World) (n : Node) (b : Branch)
    (done : Tale Event (Except Fault Value)) : Tale Event Report :=
  onto b.report ((leave setup (Plain.visit setup world) n b.view done.result).prepend done.events)

/-- The iterations that a loop has left. -/
def remaining (setup : Setup) (world : World) (n : Node) (view : View) (course : Loop.Course) :
    Tale Event (Except Fault Value) :=
  rounds (body setup (Plain.visit setup world) n) view (course.plan.count - course.next) course

/-- What the plain interpreter makes of what a branch has left to do. -/
def told (setup : Setup) (world : World) : Strand → Tale Event Report
  | .visit id b => onto b.report (Plain.visit setup world b.view id)
  | .act n activity b => closing setup world n b ⟨[], (activity.perform world).1⟩
  | .turn n course b => closing setup world n b (remaining setup world n b.view course)
  | .gather n course b =>
    closing setup world n b ⟨[], .ok (.object (course.report true true false none).toFields)⟩
  | .settle n course batch b =>
    closing setup world n b (afterLap (remaining setup world n b.view) course batch)
  | .follow targets b => onto b.report (inTurn (targets.map (Plain.visit setup world b.view)))
  | .merge report => ⟨[], report⟩
  | .close report => ⟨[], report⟩

/-- Runs are read by their journals and by the tales of their branches. -/
def reading (setup : Setup) (world : World) : Reading State Strand Report Event String where
  said s := s.journal.reverse
  tell := told setup world
  about := Event.tells

theorem closing_prepend (n : Node) (b : Branch) (done : Tale Event (Except Fault Value))
    (events : List Event) : closing setup world n b (done.prepend events)
      = (closing setup world n b done).prepend events := by
  simp [closing, onto, Tale.prepend]

theorem distinct_visit (view : View) (id : String) :
    (Plain.visit setup world view id).result.Distinct :=
  Plain.distinct_walk _ view id

theorem distinct_visits (view : View) (targets : List String) :
    ∀ t ∈ targets.map (Plain.visit setup world view), t.result.Distinct := by
  intro t ht
  obtain ⟨target, -, rfl⟩ := List.mem_map.mp ht
  exact distinct_visit view target

/-- A branch that has nothing to report yet. -/
theorem onto_empty {t : Tale Event Report} (h : t.result.Distinct) : onto .empty t = t := by
  unfold onto
  rw [Report.empty_merge h]

/-! ### Where branches are -/

/-- A node on a level that lies below all loops that the view is inside of. -/
structure Seated (setup : Setup) (level : ℕ) (view : View) (id : String) : Prop where
  level : setup.graph.AtLevel level id
  around : ∀ loop, view.isInside loop = true →
    ∃ target, setup.graph.Leads loop target ∧ setup.graph.Below target id

namespace Seated

variable {level : ℕ} {view : View} {id target : String}

theorem not_isInside (hfree : setup.graph.JoinFree) (h : Seated setup level view id) :
    view.isInside id = false := by
  rcases hinside : view.isInside id with - | -
  · rfl
  · obtain ⟨target, hleads, hbelow⟩ := h.around id hinside
    exact absurd hbelow (hfree.not_below h.level hleads)

theorem next (h : Seated setup level view id) (hleads : setup.graph.Leads id target) :
    Seated setup (level + 1) view target where
  level := h.level.next hleads
  around loop hloop := by
    obtain ⟨first, hfirst, hbelow⟩ := h.around loop hloop
    exact ⟨first, hfirst, Relation.ReflTransGen.tail hbelow hleads⟩

/-- The body of a loop lies below the loop, and the view of an iteration is inside of it. -/
theorem enter (h : Seated setup level view id) (hleads : setup.graph.Leads id target)
    {plan : Loop.Plan} (hplan : plan.loop = id) (i : ℕ) :
    Seated setup (level + 1) (plan.enter view i) target where
  level := h.level.next hleads
  around loop hloop := by
    have hscope : (plan.enter view i).scope = view.scope ++ [(id, (i : Int))] := by
      rw [← hplan]
      rfl
    have hinside : view.isInside loop = true ∨ id = loop := by
      simpa [View.isInside, hscope] using hloop
    rcases hinside with hinside | rfl
    · exact (h.next hleads).around loop hinside
    · exact ⟨target, hleads, .refl target⟩

end Seated

/-- A node of the flow is carried out in a view. -/
def Engaged (setup : Setup) (n : Node) (view : View) : Prop :=
  n ∈ setup.graph.nodes ∧ ∃ level, Seated setup level view n.id

/-- Some nodes are to be followed next to each other. -/
def Abreast (setup : Setup) (view : View) (targets : List String) : Prop :=
  targets.Nodup ∧ ∃ level, ∀ target ∈ targets, Seated setup level view target

/-- The course of a loop that runs its iterations one after another. -/
def InOrder (n : Node) (course : Loop.Course) : Prop :=
  course.plan.loop = n.id ∧ course.plan.settings.isAsync = false

/-- What is true of all branches of a run. -/
def Rooted (setup : Setup) : Strand → Prop
  | .visit id b => ∃ level, Seated setup level b.view id
  | .act n activity b => Engaged setup n b.view ∧ ∃ outcome, activity.Comes outcome
  | .turn n course b => Engaged setup n b.view ∧ InOrder n course
  | .gather n course b => Engaged setup n b.view ∧ InOrder n course
  | .settle n course _ b => Engaged setup n b.view ∧ InOrder n course
  | .follow targets b => Abreast setup b.view targets
  | .merge _ => True
  | .close _ => True

theorem Engaged.abreast {n : Node} {view seen : View} {targets : List String}
    (h : Engaged setup n view) (hscope : seen.scope = view.scope) (hnodup : targets.Nodup)
    (hleads : ∀ target ∈ targets, setup.graph.Leads n.id target) : Abreast setup seen targets := by
  obtain ⟨-, level, hseated⟩ := h
  refine ⟨hnodup, level + 1, fun target htarget => ?_⟩
  have hnext := hseated.next (hleads target htarget)
  refine ⟨hnext.level, fun loop hloop => hnext.around loop ?_⟩
  rwa [View.isInside, hscope] at hloop

/-! ### Steps -/

/-- What a step of a branch does, as a run is read. -/
abbrev Carries (setup : Setup) (world : World) (s : State) (a : Strand)
    (result : State × Directive Strand Report) : Prop :=
  (reading setup world).Carries (program setup) (Rooted setup) s a result

theorem said_adding {s s' : State} {events : List Event}
    (h : s'.journal = s.journal.adding events) :
    (reading setup world).said s' = (reading setup world).said s ++ events := by
  show s'.journal.reverse = s.journal.reverse ++ events
  rw [h, Journal.adding, List.reverse_append, List.reverse_reverse]

/-- A branch that goes on as another tells the beginning of its tale if the other tells the
rest. -/
theorem carries_next {s : State} {a next : Strand} {result : State × Directive Strand Report}
    (htask : result.2.task (program setup) = .live next) (hroots : result.2.roots = [])
    (events : List Event) (hjournal : result.1.journal = s.journal.adding events)
    (hnext : Rooted setup next)
    (htold : told setup world a = (told setup world next).prepend events) :
    Carries setup world s a result := by
  refine ⟨events, said_adding hjournal, ?_, ?_, ?_, hroots⟩
  · rw [htask]
    exact htold
  · rw [htask]
    exact Reading.tidy_live _ _ next
  · rw [htask]
    intro b hb
    obtain rfl := List.mem_singleton.mp hb
    exact hnext

theorem carries_finish {s s' : State} {a : Strand} {report : Report} (events : List Event)
    (hjournal : s'.journal = s.journal.adding events)
    (htold : told setup world a = ⟨events, report⟩) :
    Carries setup world s a (s', .finish report) := by
  refine ⟨events, said_adding hjournal, ?_, trivial,
    fun b hb => absurd hb (by simp [Directive.task]), rfl⟩
  rw [Directive.task, Reading.tale_ended]
  show told setup world a = _
  rw [htold]
  simp [Tale.prepend]

/-- A branch that forks tells nothing by that, if its children and what it goes on with after
them tell its tale. -/
theorem carries_fork {s : State} {a waiting : Strand} {children : List Strand}
    (hne : children ≠ [])
    (hchildren : ∀ b ∈ children, Rooted setup b) (hwaiting : Rooted setup waiting)
    (hapart : children.Pairwise fun b c => ∀ e ∈ (told setup world b).events,
      ∀ f ∈ (told setup world c).events, (reading setup world).Apart e f)
    (htold : told setup world a = Tale.prepend
      ((children.map (told setup world)).flatMap Tale.events)
      (told setup world (rejoin waiting ((children.map (told setup world)).map Tale.result)))) :
    Carries setup world s a (s, .fork children waiting) := by
  have htask : (Directive.fork children waiting).task (program setup)
      = .waiting waiting (children.map .live) := by
    cases children with
    | nil => exact absurd rfl hne
    | cons child children => rfl
  refine ⟨[], (List.append_nil _).symm, ?_, ?_, ?_, rfl⟩
  · rw [htask, Reading.tale_waiting, Reading.tales_live, Tale.prepend_nil]
    exact htold
  · rw [htask]
    exact Reading.tidyAll_live _ _ hapart
  · rw [htask]
    intro b hb
    rw [Task.states_waiting, Task.statesAll_map_live, List.mem_cons] at hb
    rcases hb with rfl | hb
    · exact hwaiting
    · exact hchildren b hb

/-- A node that cannot be carried out any further. -/
theorem rooted_fail {n : Node} {b : Branch} (h : Engaged setup n b.view) (fault : Fault) :
    Rooted setup (.act n (.fail fault) b) :=
  ⟨h, Activity.exists_comes_fail fault⟩

theorem rooted_done {n : Node} {b : Branch} (h : Engaged setup n b.view) (fields : Fields Value) :
    Rooted setup (.act n (.done fields) b) :=
  ⟨h, Activity.exists_comes_done fields⟩

/-- A loop is carried out by a course that runs its iterations in order. -/
theorem inOrder_new (h : Tame setup) {n : Node} (hn : n ∈ setup.graph.nodes)
    (hloop : n.isLoop = true) {view : View} {config : Fields Value} {plan : Loop.Plan}
    (hconfig : view.resolveFields n.config = .ok config)
    (hplan : planOf setup n config view = .ok plan) : InOrder n (.new plan) := by
  refine ⟨loop_of_planOf hplan, h.sequential n hn hloop view plan ?_⟩
  rw [planFor, hconfig]
  exact hplan

/-- What a node is started with: it tells the beginning of its work, and is left to whoever tells
the rest and what follows. -/
def Opens (setup : Setup) (world : World) (s : State) (n : Node) (b : Branch)
    (work : Tale Event (Except Fault Value)) (result : State × Directive Strand Report) : Prop :=
  ∃ next events, result.2 = .proceed next ∧ result.1.journal = s.journal.adding events ∧
    Rooted setup next ∧ closing setup world n b work = (told setup world next).prepend events

theorem opens_beginAction (h : Tame setup) (s : State) {n : Node} {b : Branch}
    (hwork : Engaged setup n b.view) :
    Opens setup world s n b (Plain.action setup world n b.view) (beginAction setup s n b) := by
  unfold beginAction Plain.action
  rcases hfind : setup.registry.find? n.kind with - | behaviour
  · exact ⟨.act n (.fail (.unknownKind n.kind)) b, [], rfl, rfl, rooted_fail hwork _, rfl⟩
  · rcases hsettings : settingsFor behaviour n b.view with fault | config
    · refine ⟨.act n (.fail fault) b, [], by simp [hsettings], ?_, rooted_fail hwork fault, ?_⟩
      · simp only [hsettings]
        split <;> simp
      · simp only [hsettings]
        rfl
    · have hcomes := (h.steady n hwork.1 behaviour hfind).exists_comes config b.view
      refine ⟨.act n (behaviour.start config b.view) b, [.reached b.view.scope n.id .invoking],
        by simp [hsettings], ?_, ⟨hwork, hcomes⟩, ?_⟩
      · simp only [hsettings]
        split <;> simp
      · simp only [hsettings]
        rfl

theorem opens_beginLoop (h : Tame setup) (s : State) {n : Node} {b : Branch}
    (hwork : Engaged setup n b.view) (hloop : n.isLoop = true) :
    Opens setup world s n b (Plain.loop setup (Plain.visit setup world) n b.view)
      (beginLoop setup s n b) := by
  unfold beginLoop Plain.loop
  rcases hconfig : b.view.resolveFields n.config with fault | config
  · exact ⟨.act n (.fail fault) b, [], rfl, by simp, rooted_fail hwork fault, rfl⟩
  · rcases hplan : planOf setup n config b.view with fault | plan
    · refine ⟨.act n (.fail fault) b, [.reached b.view.scope n.id .invoking], by simp [hplan],
        by simp [hplan], rooted_fail hwork fault, ?_⟩
      simp only [hplan, closing_prepend]
      rfl
    · have horder := inOrder_new h hwork.1 hloop hconfig hplan
      refine ⟨.turn n (.new plan) b, [.reached b.view.scope n.id .invoking], by simp [hplan],
        by simp [hplan], ⟨hwork, horder⟩, ?_⟩
      simp only [hplan, closing_prepend]
      rfl

/-- The tale of a visit begins with the taking of the node, so a branch with such a tale may take
the node if what is told but once was not told before. -/
theorem exists_takes (h : Tame setup) {s : State} {id : String} {b : Branch}
    (hcancelled : s.journal.isCancelled = false) (hrooted : Rooted setup (.visit id b))
    (hfresh : ∀ e ∈ (told setup world (.visit id b)).events,
      (∃ scope node, e = .claimed scope node) → e ∉ (reading setup world).said s) :
    ∃ n, Takes setup s.journal id b n ∧ Engaged setup n b.view ∧ told setup world (.visit id b)
      = onto b.report (Plain.node setup world (Plain.visit setup world) n b.view) := by
  obtain ⟨level, hseated⟩ := hrooted
  obtain ⟨n, hn⟩ := hseated.level.exists_node?
  obtain rfl := Graph.id_of_node? hn
  have htold : told setup world (.visit n.id b)
      = onto b.report (Plain.node setup world (Plain.visit setup world) n b.view) := by
    rw [told, Plain.visit_eq h.free hseated.level hn]
  have hfirst : .claimed b.view.scope n.id ∈ (told setup world (.visit n.id b)).events := by
    rw [htold, onto, Plain.node]
    split <;> simp
  have hclaim : s.journal.hasClaimed b.view.scope n.id = false := by
    rw [Bool.eq_false_iff]
    intro hclaimed
    have hsaid : .claimed b.view.scope n.id ∈ (reading setup world).said s :=
      List.mem_reverse.mpr (Journal.hasClaimed_iff.mp hclaimed)
    exact hfresh _ hfirst ⟨_, _, rfl⟩ hsaid
  exact ⟨n, ⟨hcancelled, hn, hseated.not_isInside h.free, hclaim⟩,
    ⟨List.mem_of_find?_eq_some hn, level, hseated⟩, htold⟩

section Taken

variable {s : State} {n : Node} {b : Branch}

theorem carries_begun (h : Tame setup) (htakes : Takes setup s.journal n.id b n)
    (hwork : Engaged setup n b.view) (henabled : n.isDisabled = false)
    (htold : told setup world (.visit n.id b)
      = onto b.report (Plain.node setup world (Plain.visit setup world) n b.view)) :
    Carries setup world s (.visit n.id b) (visit setup s n.id b) := by
  set taking : List Event := [.claimed b.view.scope n.id, lineOf n (.executing n.kind),
    .reached b.view.scope n.id .resolving]
  have hnode : told setup world (.visit n.id b) = (closing setup world n b
      (Plain.work setup world (Plain.visit setup world) n b.view)).prepend taking := by
    rw [htold]
    simp [Plain.node, henabled, closing, onto, Tale.prepend, taking]
  obtain ⟨next, events, hnext, hjournal, hrooted, hclosing⟩ :
      Opens setup world (s.adding taking) n b
        (Plain.work setup world (Plain.visit setup world) n b.view)
        (begin setup { s with journal := .claimed b.view.scope n.id :: s.journal } n b) := by
    -- the machine and the interpreter look at the kind of the node alike
    unfold begin Plain.work
    rcases hloop : n.isLoop with - | -
    · exact opens_beginAction h _ hwork
    · exact opens_beginLoop h _ hwork hloop
  rw [htakes.visit_eq_begin henabled]
  refine carries_next (by rw [hnext]; rfl) (by rw [hnext]; rfl) (taking ++ events) ?_ hrooted ?_
  · rw [hjournal, ← Journal.adding_adding]
    rfl
  · rw [hnode, hclosing, Tale.prepend_prepend]

theorem carries_passed (h : Tame setup) (htakes : Takes setup s.journal n.id b n)
    (hwork : Engaged setup n b.view) (hdisabled : n.isDisabled = true)
    (htold : told setup world (.visit n.id b)
      = onto b.report (Plain.node setup world (Plain.visit setup world) n b.view)) :
    Carries setup world s (.visit n.id b) (visit setup s n.id b) := by
  rw [htakes.visit_eq_pass hdisabled]
  refine carries_next rfl rfl [.claimed b.view.scope n.id, lineOf n .disabled]
    (by simp [Journal.adding]) ?_ ?_
  · exact hwork.abreast rfl (h.nodup_untagged n.id) fun _ => Plain.leads_of_untagged
  · rw [htold, Plain.node, if_pos hdisabled]
    rfl

end Taken

/-- A node that may be taken is taken, and begun or passed over. -/
theorem carries_visit (h : Tame setup) {s : State} {id : String} {b : Branch}
    (hcancelled : s.journal.isCancelled = false) (hrooted : Rooted setup (.visit id b))
    (hfresh : ∀ e ∈ (told setup world (.visit id b)).events,
      (∃ scope node, e = .claimed scope node) → e ∉ (reading setup world).said s) :
    Carries setup world s (.visit id b) (visit setup s id b) := by
  obtain ⟨n, htakes, hwork, htold⟩ := exists_takes h hcancelled hrooted hfresh
  obtain rfl := Graph.id_of_node? htakes.node
  rcases hdisabled : n.isDisabled with - | -
  · exact carries_begun h htakes hwork hdisabled htold
  · exact carries_passed h htakes hwork hdisabled htold

/-- What a node leaves is merged into the report of its branch. -/
theorem merge_parting (n : Node) (b : Branch) (outcome : Except Fault Value) :
    b.report.merge (parting n b.view.scope outcome).result
      = { (b.leave n.id ((Verdict.of outcome).left n.failurePolicy)
            (Verdict.of outcome).error).report with
          aborted := b.report.aborted || (Verdict.of outcome).aborts n.failurePolicy } := by
  rcases herror : (Verdict.of outcome).error with - | message <;>
    simp only [parting, Report.merge, Branch.leave, herror] <;> rfl

theorem carries_complete (h : Tame setup) (s : State) {n : Node} {b : Branch}
    (hwork : Engaged setup n b.view) (outcome : Except Fault Value) :
    Carries setup world s (.act n (.finish outcome) b) (complete setup s n outcome b) := by
  have htold : told setup world (.act n (.finish outcome) b)
      = onto b.report (leave setup (Plain.visit setup world) n b.view outcome) := rfl
  have hmerged := merge_parting n b outcome
  rcases haborts : (Verdict.of outcome).aborts n.failurePolicy with - | -
  · set target := b.leave n.id ((Verdict.of outcome).left n.failurePolicy)
      (Verdict.of outcome).error
    have hstep : complete setup s n outcome b
        = (s.adding (.ended b.view.scope n.id outcome :: recorded n b.view.scope (.of outcome)),
          .proceed (.follow (nextTargets setup n (Verdict.of outcome).result) target)) := by
      simp [complete, haborts, target]
    have hreport : target.report = b.report.merge (parting n b.view.scope outcome).result := by
      rw [hmerged, haborts, Bool.or_false]
      rfl
    rw [hstep]
    -- the branch reports what the node leaves, and follows its successors with that
    refine carries_next rfl rfl _ rfl ?_ ?_
    · exact hwork.abreast rfl (h.nodup_nextTargets hwork.1 _) fun _ => Plain.leads_of_nextTargets
    · rw [htold, leave]
      simp only [haborts, Bool.false_eq_true, if_false]
      show onto b.report _ = (onto target.report _).prepend _
      unfold onto
      rw [hreport, Report.merge_assoc _ (Plain.distinct_parting n b.view.scope outcome)]
      rfl
  · have hstep : complete setup s n outcome b
        = (s.adding (.ended b.view.scope n.id outcome :: recorded n b.view.scope (.of outcome)),
          .finish { (b.leave n.id ((Verdict.of outcome).left n.failurePolicy)
            (Verdict.of outcome).error).report with aborted := true }) := by
      simp [complete, haborts]
    rw [hstep]
    -- nothing follows a node that aborts
    refine carries_finish _ rfl ?_
    rw [htold, leave]
    simp only [haborts, if_true]
    show onto b.report _ = _
    unfold onto
    rw [hmerged, haborts, Bool.or_true]
    rfl

/-- A branch that goes on with an activity of the same outcome tells nothing by that. -/
theorem carries_act {s : State} {n : Node} {a next : Activity} {b : Branch}
    {outcome : Except Fault Value} {result : State × Directive Strand Report}
    (hwork : Engaged setup n b.view) (ha : a.Comes outcome) (hnext : next.Comes outcome)
    (htask : result.2.task (program setup) = .live (.act n next b)) (hroots : result.2.roots = [])
    (hjournal : result.1.journal = s.journal) : Carries setup world s (.act n a b) result := by
  refine carries_next htask hroots [] hjournal ⟨hwork, outcome, hnext⟩ ?_
  rw [told, told, ha.perform, hnext.perform]
  rfl

theorem carries_step_act (h : Tame setup) (s : State) {n : Node} {a : Activity} {b : Branch}
    (hrooted : Rooted setup (.act n a b)) :
    .cancelled ∈ (act setup s n a b).1.journal ∨
      Carries setup world s (.act n a b) (act setup s n a b) := by
  obtain ⟨hwork, outcome, hcomes⟩ := hrooted
  cases a with
  | finish result => exact .inr (carries_complete h s hwork result)
  | pause next =>
    have hnext : next.Comes outcome := hcomes
    exact .inr (carries_act hwork hcomes hnext rfl rfl rfl)
  | sleep seconds next =>
    right
    unfold act
    dsimp only
    -- a sleep of a length that no clock can tell is the fault that the activity comes to
    rcases hm : microsecondsOf seconds with fault | microseconds
    · have houtcome : outcome = .error fault := by simpa [Activity.Comes, hm] using hcomes
      have hfault : (Activity.fail fault).Comes outcome := houtcome.symm
      exact carries_act hwork hcomes hfault rfl rfl rfl
    · have hnext : next.Comes outcome := by simpa [Activity.Comes, hm] using hcomes
      exact carries_act hwork hcomes hnext rfl rfl rfl
  | cancelRun next => exact .inl List.mem_cons_self
  | askSecrets names next =>
    have hnext : next.Comes outcome := hcomes
    exact .inr (carries_act hwork hcomes hnext rfl rfl (journal_askSecrets s names))
  | note effect next =>
    have hnext : next.Comes outcome := hcomes
    exact .inr (carries_act hwork hcomes hnext rfl rfl rfl)
  | send request next => exact .inr (carries_act hwork hcomes (hcomes _) rfl rfl rfl)
  | publish message next => exact .inr (carries_act hwork hcomes (hcomes _) rfl rfl rfl)

/-- A loop goes on in the same way if what it goes on with does. -/
theorem afterLap_congr {f g : Loop.Course → Tale Event (Except Fault Value)} {course : Loop.Course}
    (h : f course = g course) (batch : List Loop.Lap) :
    afterLap f course batch = afterLap g course batch := by
  unfold afterLap
  rw [h]

/-- A loop that has iterations left runs one of them and then the others. -/
theorem remaining_eq {n : Node} {view : View} {course : Loop.Course}
    (hleft : course.next < course.plan.count) {tale : Tale Event Report}
    (htale : tale = body setup (Plain.visit setup world) n (course.plan.enter view course.next)) :
    remaining setup world n view course
      = (afterLap (remaining setup world n view) (course.absorb [tale.result.toLap])
          [tale.result.toLap]).prepend tale.events := by
  obtain ⟨left, hcount⟩ : ∃ left, course.plan.count - course.next = left + 1 :=
    ⟨course.plan.count - course.next - 1, by omega⟩
  have hrest : rounds (body setup (Plain.visit setup world) n) view left
        (course.absorb [tale.result.toLap])
      = remaining setup world n view (course.absorb [tale.result.toLap]) := by
    have hcount' : left = (course.absorb [tale.result.toLap]).plan.count
        - (course.absorb [tale.result.toLap]).next := by
      show left = course.plan.count - (course.next + 1)
      omega
    rw [remaining, ← hcount']
  rw [remaining, hcount, rounds, ← htale, afterLap_congr hrest]

/-- A loop ends or begins its next iteration. -/
theorem carries_turn (h : Tame setup) {s : State} {n : Node} {course : Loop.Course} {b : Branch}
    (hcancelled : s.journal.isCancelled = false) (hrooted : Rooted setup (.turn n course b)) :
    Carries setup world s (.turn n course b) (turn setup s n course b) := by
  obtain ⟨hwork, horder⟩ := hrooted
  have hone : course.plan.settings.batchSize = 1 := by
    unfold Loop.Settings.batchSize
    rw [horder.2]
    rfl
  rcases Nat.lt_or_ge course.next course.plan.count with hleft | hover
  · have hmove : course.move s.journal.isCancelled = .batch course.next 1 := by
      have hcomplete : course.isComplete = false := by simpa [Loop.Course.isComplete] using hleft
      have hsize : min 1 (course.plan.count - course.next) = 1 := by omega
      simp [Loop.Course.move, hcomplete, hcancelled, hone, hsize]
    have hstep : turn setup s n course b
        = (s, .fork [iteration setup n course.plan b.view course.next] (.gather n course b)) := by
      simp [turn, hmove]
    set inner := course.plan.enter b.view course.next
    -- the body has nothing to report when it begins
    have hbody : told setup world (iteration setup n course.plan b.view course.next)
        = body setup (Plain.visit setup world) n inner :=
      onto_empty (Plain.distinct_inTurn (distinct_visits inner _))
    rw [hstep]
    refine carries_fork (by simp) ?_ ⟨hwork, horder⟩ (List.pairwise_singleton _ _) ?_
    · intro child hchild
      obtain rfl := List.mem_singleton.mp hchild
      obtain ⟨-, level, hseated⟩ := hwork
      exact ⟨h.nodup_bodyTargets n, level + 1, fun target htarget =>
        hseated.enter (Plain.leads_of_bodyTargets htarget) horder.1 course.next⟩
    · rw [List.map_singleton, hbody, told, remaining_eq hleft rfl, closing_prepend]
      simp [rejoin, told, inner]
  · have hmove : course.move s.journal.isCancelled
        = .finish (course.report true false false none) := by
      have hcomplete : course.isComplete = true := by simpa [Loop.Course.isComplete] using hover
      simp [Loop.Course.move, hcomplete]
    have hstep : turn setup s n course b
        = (s, .proceed (.act n (.done (course.report true false false none).toFields) b)) := by
      simp [turn, hmove]
    rw [hstep]
    have hnone : remaining setup world n b.view course
        = ⟨[], .ok (.object (course.report true false false none).toFields)⟩ := by
      rw [remaining, Nat.sub_eq_zero_of_le hover]
      rfl
    refine carries_next rfl rfl [] rfl (rooted_done hwork _) ?_
    show closing setup world n b (remaining setup world n b.view course) = _
    rw [hnone]
    rfl

/-- After an iteration a loop ends, or is to take its next turn. -/
theorem carries_settle {s : State} {n : Node} {course : Loop.Course} {batch : List Loop.Lap}
    {b : Branch} (hrooted : Rooted setup (.settle n course batch b)) :
    Carries setup world s (.settle n course batch b) (settle s n course batch b) := by
  obtain ⟨hwork, horder⟩ := hrooted
  have hnext : ∀ {next : Strand} {result : State × Directive Strand Report},
      result.2.task (program setup) = .live next → result.2.roots = [] →
      result.1.journal = s.journal → Rooted setup next →
      told setup world (.settle n course batch b) = told setup world next →
      Carries setup world s (.settle n course batch b) result :=
    fun htask hroots hjournal hrooted htold => carries_next htask hroots [] hjournal hrooted htold
  unfold settle
  rcases hturn : course.turn batch with - | milliseconds | report
  · simp only
    refine hnext rfl rfl rfl ⟨hwork, horder⟩ ?_
    simp only [told, afterLap, hturn]
  · rcases hseconds : secondsOf milliseconds with fault | seconds
    · simp only [hseconds]
      refine hnext rfl rfl rfl (rooted_fail hwork fault) ?_
      simp only [told, afterLap, hturn, hseconds]
      rfl
    · rcases hmicros : microsecondsOf seconds with fault | microseconds
      · simp only [hseconds, hmicros]
        refine hnext rfl rfl rfl (rooted_fail hwork fault) ?_
        simp only [told, afterLap, hturn, hseconds, bind, Except.bind, hmicros]
        rfl
      · simp only [hseconds, hmicros]
        refine hnext rfl rfl rfl ⟨hwork, horder⟩ ?_
        simp only [told, afterLap, hturn, hseconds, bind, Except.bind, hmicros]
  · simp only
    refine hnext rfl rfl rfl (rooted_done hwork _) ?_
    simp only [told, afterLap, hturn]
    rfl

/-- Sub-trees next to each other tell of different nodes. -/
theorem visits_apart (world : World) (h : Tame setup) {view : View} {targets : List String}
    (habreast : Abreast setup view targets) : targets.Pairwise fun first second =>
      ∀ e ∈ (Plain.visit setup world view first).events,
      ∀ f ∈ (Plain.visit setup world view second).events, (reading setup world).Apart e f := by
  obtain ⟨hnodup, level, hseated⟩ := habreast
  refine hnodup.imp_of_mem fun {first second} hfirst hsecond hne e he f hf node htells => ?_
  have hlevel := (hseated first hfirst).level
  have hlevel' := (hseated second hsecond).level
  rw [Bool.eq_false_iff]
  intro htells'
  have hbelow := (Plain.confined_walk world h hlevel _ view).covered e he node htells
  have hbelow' := (Plain.confined_walk world h hlevel' _ view).covered f hf node htells'
  exact hne (h.free.eq_of_below hlevel hlevel' hbelow hbelow')

/-- Where several nodes follow, the branch forks, and its children tell of different nodes. -/
theorem carries_follow (h : Tame setup) {s : State} {targets : List String} {b : Branch}
    (hrooted : Rooted setup (.follow targets b)) :
    Carries setup world s (.follow targets b) (follow s targets b) := by
  have habreast : Abreast setup b.view targets := hrooted
  obtain ⟨-, level, hseated⟩ := hrooted
  match targets with
  | [] =>
    refine carries_finish [] rfl ?_
    show onto b.report ⟨[], .empty⟩ = _
    rw [onto, Report.merge_empty]
  | [target] =>
    refine carries_next rfl rfl [] rfl ⟨level, hseated target List.mem_cons_self⟩ ?_
    show onto b.report (Plain.andThen (Plain.visit setup world b.view target) ⟨[], .empty⟩) = _
    rw [Plain.andThen, List.append_nil, Report.merge_empty]
    rfl
  | first :: second :: rest =>
    set targets := first :: second :: rest
    have hchildren : (targets.map fun target => Strand.visit target ⟨b.view, .empty⟩).map
        (told setup world) = targets.map (Plain.visit setup world b.view) := by
      rw [List.map_map]
      exact List.map_congr_left fun target _ => onto_empty (distinct_visit b.view target)
    refine carries_fork (by simp) ?_ trivial ?_ ?_
    · intro child hchild
      obtain ⟨target, htarget, rfl⟩ := List.mem_map.mp hchild
      exact ⟨level, hseated target htarget⟩
    · refine List.pairwise_map.mpr ((visits_apart world h habreast).imp ?_)
      intro first second hapart
      have htold : ∀ target, told setup world (.visit target ⟨b.view, .empty⟩)
          = Plain.visit setup world b.view target := fun target =>
        onto_empty (distinct_visit b.view target)
      rw [htold, htold]
      exact hapart
    · rw [hchildren, rejoin, told, told, Plain.foldl_merge _ (distinct_visits b.view targets), onto,
        Plain.events_inTurn]
      simp [Tale.prepend]

/-! ### Runs -/

/-- Each step of a branch tells the beginning of its tale, until the run is cancelled. -/
theorem orderly (world : World) (h : Tame setup) :
    (reading setup world).Orderly (program setup) Disturbs (Rooted setup)
    (fun e => ∃ scope node, e = .claimed scope node)
    (fun s => .cancelled ∈ s.journal) where
  carries {s a} hsound hrooted hfresh := by
    have hcancelled : s.journal.isCancelled = false := by
      rw [Bool.eq_false_iff]
      exact fun hcancelled => hsound (Journal.isCancelled_iff.mp hcancelled)
    cases a with
    | visit id b => exact .inr (carries_visit h hcancelled hrooted hfresh)
    | act n activity b => exact carries_step_act h s hrooted
    | turn n course b => exact .inr (carries_turn h hcancelled hrooted)
    | gather n course b => exact .inr (carries_next rfl rfl [] rfl (rooted_done hrooted.1 _) rfl)
    | settle n course batch b => exact .inr (carries_settle hrooted)
    | follow targets b => exact .inr (carries_follow h hrooted)
    | merge report => exact .inr (carries_finish [] rfl rfl)
    | close report => exact .inr (carries_finish [] rfl rfl)
  rejoin {a} reports hrooted := by
    cases a with
    | merge report => trivial
    | gather n course b => exact hrooted
    | _ => exact hrooted
  spoils {s a} hspoilt := by
    obtain ⟨events, -, hjournal, -⟩ := exists_deed setup s a
    show .cancelled ∈ (step setup s a).1.journal
    rw [hjournal]
    exact Journal.mem_adding.mpr (.inr hspoilt)
  disturbed hdisturbs := by
    rcases hdisturbs with hjournal | hjournal
    · exact .inr (congrArg List.reverse hjournal)
    · exact .inl (by simp [hjournal])
  spoilsOutside hdisturbs hspoilt := by
    rcases hdisturbs with hjournal | hjournal
    · rwa [hjournal]
    · simp [hjournal]
  concerns := by
    rintro e ⟨scope, node, rfl⟩
    exact ⟨node, beq_self_eq_true node⟩

/-- A list in which no node is taken twice in a scope tells of each such taking once. -/
theorem pairwise_of_nodup_claims {events : List Event} (h : (Journal.claims events).Nodup) :
    events.Pairwise fun e f => (∃ scope node, e = .claimed scope node) → e ≠ f := by
  refine (List.pairwise_filterMap.mp h).imp fun {e f} hdistinct => ?_
  rintro ⟨scope, node, rfl⟩ rfl
  exact hdistinct (scope, node) rfl (scope, node) rfl rfl

/-- Two outcomes tell the same, but for the order of what is told of different nodes. -/
structure Outcome.Agrees (o p : Outcome) : Prop where
  status : o.status = p.status
  results : ∀ node, o.results.get? node = p.results.get? node
  states : o.states = p.states
  errors : ∀ node, o.errors.get? node = p.errors.get? node
  failedNodes : ∀ node, node ∈ o.failedNodes ↔ node ∈ p.failedNodes

/-- Journals that tell the same of each node report the same. -/
theorem agrees_of_filter {runId : String} {g : Graph} {j k : Journal} {report : Report}
    (hcancelled : .cancelled ∉ j)
    (h : ∀ node, j.filter (Event.tells node) = k.filter (Event.tells node)) :
    (Outcome.of runId g j report).Agrees
      { Outcome.of runId g k report with
        status := if report.aborted then .failed else .succeeded } := by
  have hsame : ∀ node, j.state node = k.state node ∧
      j.results.get? node = k.results.get? node ∧ j.errors.get? node = k.errors.get? node := by
    intro node
    obtain ⟨hstate, hresults, herrors⟩ := Journal.reports_filter j node
    obtain ⟨hstate', hresults', herrors'⟩ := Journal.reports_filter k node
    rw [h node] at hstate hresults herrors
    exact ⟨hstate.symm.trans hstate', hresults.symm.trans hresults', herrors.symm.trans herrors'⟩
  refine ⟨?_, fun node => (hsame node).2.1, ?_, fun node => (hsame node).2.2, fun node => ?_⟩
  · show statusOf j report = _
    have hnot : j.isCancelled = false := by
      rw [Bool.eq_false_iff]
      exact fun hc => hcancelled (Journal.isCancelled_iff.mp hc)
    simp only [statusOf, hnot, Bool.false_eq_true, if_false]
  · show Fields.ofPairs _ = Fields.ofPairs _
    simp only [(hsame _).1]
  · show node ∈ j.failedNodes ↔ node ∈ k.failedNodes
    rw [Journal.failedNodes, Journal.failedNodes, Fields.mem_keys_iff, Fields.mem_keys_iff,
      (hsame node).2.2]

namespace Sample

/-- A start forks into a delay that fails and a loop of two iterations, one after the other, around
a delay; a line is logged after the loop. -/
def tree : Setup where
  graph :=
    { document :=
        { authoredNodes := some [node "a" "start" [], node "y" "delay" [("durationMs", .int (-1))],
            node "l" "loop" [("maxIterations", .int 2)], node "x" "delay" [("durationMs", .int 5)],
            node "z" "logger" []]
          authoredEdges := some [edge "1" "a" "y" none, edge "2" "a" "l" none,
            edge "3" "l" "x" (some "each"), edge "4" "l" "z" (some "after")]
          authoredTrigger := none
          authoredComponent := none
          others := [] }
      start := node "a" "start" []
      sound := rfl
      start_mem := by simp [Document.nodes]
      start_isStart := isStart_node }
  registry := .standard .standard
  defaultMaxIterations := 500

theorem tame_tree : Tame tree where
  free := by decide +kernel
  sequential n hn hloop view plan hplan := by
    have honly : ∀ n ∈ tree.graph.nodes, n.isLoop = true →
        n = node "l" "loop" [("maxIterations", .int 2)] := by
      intro n hn
      simp only [tree, Graph.nodes, Document.nodes, Option.getD_some, List.mem_cons,
        List.not_mem_nil, or_false] at hn
      rcases hn with rfl | rfl | rfl | rfl | rfl <;> first | exact fun _ => rfl | (intro h; cases h)
    obtain rfl := honly n hn hloop
    have hmade : planOf tree (node "l" "loop" [("maxIterations", .int 2)])
        [("maxIterations", .int 2)] view = .ok plan := hplan
    have hsettings := (made_of_planOf hmade).2
    have hread : (Loop.Settings.ofConfig [("maxIterations", .int 2)]
        tree.defaultMaxIterations).toOption.map Loop.Settings.isAsync = some false := by
      decide +kernel
    rw [hsettings] at hread
    exact Option.some.inj hread
  steady n hn behaviour hfind := by
    have hkinds : ∀ n ∈ tree.graph.nodes, n.kind ≠ "http-request" ∧ n.kind ≠ "publish-event" := by
      decide +kernel
    rcases Action.steady_of_standard hfind with hkind | hkind | hsteady
    · exact absurd hkind (hkinds n hn).1
    · exact absurd hkind (hkinds n hn).2
    · exact hsteady

end Sample

end Automation.Run
