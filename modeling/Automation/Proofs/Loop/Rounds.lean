/-
Automation/Proofs/Loop/Rounds.lean

The law of a loop.

The task of a loop and the bodies that it waits for tell what they do (`Bodies.tells`):
that a batch is started, that a body has returned, that the loop goes to sleep, that it
finds the signal of cancellation raised.  Whatever the bodies do and in whatever order,
the history of a loop is a sequence of rounds (`Rounds`): a batch is started, all of it
returns in some order, and before the next batch there is one sleep if the loop has a
delay.  How many rounds there are, and what the loop reports at its end, is a matter of
what the bodies return and of the signal (`Lawful`, `run_lawful`).

The proof follows the task of the loop, which is between two batches, waits for one, has
the outcome of one, or has ended (`Phase`); one lemma says for each of these what becomes
of it.
-/
import Automation.Loop.Drive
import Automation.Proofs.Loop.Course
import Automation.Proofs.Schedule.History
import Automation.Proofs.Schedule.Queue

namespace Automation.Loop

open Automation.Schedule (Directive Pool Task)

variable {σ : Type*} {β : Type*}

/-! ### What a loop tells -/

/-- What is told in a run of a loop. -/
inductive Event (β : Type u)
  /-- A batch is started, with these tasks. -/
  | started (batch : List (Driven β))
  /-- The task at a place of the batch has returned an iteration. -/
  | returned (place : ℕ) (l : Lap)
  | slept (microseconds : ℕ)
  /-- Before a batch the signal of cancellation was found raised. -/
  | cancelled

/-- What the task of a loop tells about the signal: between two batches it looks at it. -/
def Bodies.heard (bodies : Bodies σ β) (s : σ) : Driven β → List (Event β)
  | .turn course => if !course.isComplete && bodies.isCancelled s then [.cancelled] else []
  | _ => []

/-- What the task of a loop tells with a directive. -/
def saidBy : Directive (Driven β) Ending → List (Event β)
  | .fork children _ => [.started children]
  | .sleep microseconds _ => [.slept microseconds]
  | _ => []

/-- What a body at a place of the batch tells with a directive. -/
def returnedBy (place : ℕ) : Directive (Driven β) Ending → List (Event β)
  | .finish (.lap l) => [.returned place l]
  | _ => []

/-- What the first task of a pool tells, and what the tasks tell that it waits for. -/
def Bodies.tells (bodies : Bodies σ β) (view : View) : List ℕ → σ → Driven β → List (Event β)
  | [0], s, a => bodies.heard s a ++ saidBy (bodies.stepIn view s a).2
  | [0, place], s, a => returnedBy place (bodies.stepIn view s a).2
  | _, _, _ => []

/-! ### What is lawful -/

variable {bodies : Bodies σ β} {view : View} {plan : Plan}

/-- The tasks of a batch: each iteration in its own view. -/
def Bodies.batch (bodies : Bodies σ β) (view : View) (plan : Plan) (first count : ℕ) :
    List (Driven β) :=
  (List.range' first count).map fun i => .body (bodies.enter (plan.enter view i) i)

@[simp] theorem length_batch (first count : ℕ) :
    (bodies.batch view plan first count).length = count := by
  simp [Bodies.batch]

/-- One batch from its start to the return of its last iteration: as many iterations as a
batch has, or as are left; they return in any order. -/
structure Round (bodies : Bodies σ β) (view : View) (plan : Plan) (first : ℕ) (batch : List Lap)
    (told : List (Event β)) : Prop where
  first_lt : first < plan.count
  size : batch.length = min plan.settings.batchSize (plan.count - first)
  told : ∃ returns, told = .started (bodies.batch view plan first batch.length) :: returns ∧
    returns.Perm (batch.zipIdx.map fun (l, place) => .returned place l)

/-- What is told between a number of batches and the next one: a loop with a delay sleeps
once, for as long as the delay is, but not before the first batch. -/
def Gap (plan : Plan) (batches : List (List Lap)) (told : List (Event β)) : Prop :=
  if batches ≠ [] ∧ 0 < plan.settings.delayMs then
    ∃ seconds microseconds, secondsOf plan.settings.delayMs = .ok seconds ∧
      microsecondsOf seconds = .ok microseconds ∧ told = [.slept microseconds]
  else told = []

/-- Whole batches, one after another. -/
inductive Rounds (bodies : Bodies σ β) (view : View) (plan : Plan) :
    List (Event β) → List (List Lap) → Prop
  | none : Rounds bodies view plan [] []
  | next {told batches gap batch round} : Rounds bodies view plan told batches →
      Gap plan batches gap → Round bodies view plan batches.flatten.length batch round →
      Rounds bodies view plan (told ++ gap ++ round) (batches ++ [batch])

/-- What a loop that has ended has told and reports, by its batches. -/
structure Lawful (bodies : Bodies σ β) (view : View) (plan : Plan) (told : List (Event β))
    (report : Report) (batches : List (List Lap)) : Prop where
  /-- Behind the last batch nothing is told, unless the loop was cancelled before it started
  another one. -/
  told : ∃ rounds rest, told = rounds ++ rest ∧ Rounds bodies view plan rounds batches ∧
    if report.cancelled then ∃ gap, Gap plan batches gap ∧ rest = gap ++ [.cancelled] else rest = []
  laps : report.laps = batches.flatten
  iterationCount : report.iterationCount = plan.count
  bounded : report.laps.length ≤ plan.count
  stoppedEarly : report.stoppedEarly = true ↔ report.laps.length < plan.count
  /-- The loop leaves iterations out only for a reason. -/
  reason : report.laps.length < plan.count → report.cancelled = true ∨
    plan.settings.stopsOnFailure = true ∧
      ∃ last ∈ batches.getLast?, ∃ l ∈ last, l.success = false
  /-- A loop that stops on failures starts nothing after one. -/
  earlier : plan.settings.stopsOnFailure = true →
    ∀ batch ∈ batches.dropLast, ∀ l ∈ batch, l.success = true
  success : report.success = false ↔ plan.settings.stopsOnFailure = true ∧
    ∃ last ∈ batches.getLast?, ∃ l ∈ last, l.Breaks
  error_of_success : report.success = true → report.error = none
  error_of_failure : report.success = false → ∃ last ∈ batches.getLast?, ∃ place l,
    FirstBreak last place l ∧
      report.error = some (Course.failure (batches.dropLast.flatten.length + place) l)

theorem Rounds.length_le {told : List (Event β)} {batches : List (List Lap)}
    (h : Rounds bodies view plan told batches) : batches.flatten.length ≤ plan.count := by
  cases h with
  | none => exact Nat.zero_le _
  | next _ _ hround =>
    have hlt := hround.first_lt
    rw [List.flatten_append, List.length_append, List.flatten_singleton, hround.size]
    omega

/-- How many iterations there are in a number of rounds. -/
theorem Rounds.length_eq {told : List (Event β)} {batches : List (List Lap)}
    (h : Rounds bodies view plan told batches) :
    batches.flatten.length = min plan.count (plan.settings.batchSize * batches.length) := by
  induction h with
  | none => simp
  | @next told batches gap batch round _ _ hround ih =>
    have hlt := hround.first_lt
    have hsize := hround.size
    rw [List.flatten_append, List.length_append, List.flatten_singleton, List.length_append,
      List.length_singleton, Nat.mul_succ]
    omega

/-- Rounds without the last one are rounds. -/
theorem Rounds.dropLast {told : List (Event β)} {batches : List (List Lap)}
    (h : Rounds bodies view plan told batches) :
    ∃ before, Rounds bodies view plan before batches.dropLast := by
  cases h with
  | none => exact ⟨[], .none⟩
  | next hrounds _ _ => exact ⟨_, by rw [List.dropLast_concat]; exact hrounds⟩

/-! ### Tasks of bodies -/

/-- All states of a task are bodies, and if it has ended, it has returned an iteration. -/
def Embodied (t : Task (Driven β) Ending) : Prop :=
  (∀ a ∈ t.states, ∃ b, a = .body b) ∧ ∀ e, t.result? = some e → ∃ l, e = .lap l

theorem embodied_live (b : β) : Embodied (.live (.body b)) :=
  ⟨fun a ha => ⟨b, by simpa using ha⟩, fun _ h => by cases h⟩

theorem embodied_carried (d : Directive β Lap) :
    Embodied ((Bodies.carried d).task (bodies.program view)) := by
  cases d with
  | fork children waiting =>
    cases children with
    | nil => exact embodied_live waiting
    | cons child children =>
      refine ⟨fun a ha => ?_, fun _ h => by cases h⟩
      rcases Task.mem_states_forked.mp (show a ∈ (Task.waiting (.body waiting)
        (((child :: children).map Driven.body).map .live)).states from ha) with rfl | ⟨b, -, rfl⟩
      · exact ⟨waiting, rfl⟩
      · exact ⟨b, rfl⟩
  | finish l => exact ⟨fun a ha => (nomatch ha), fun e h => ⟨l, (Option.some.inj h).symm⟩⟩
  | proceed next | pause next | sleep _ next | spawn _ next => exact embodied_live next

theorem result?_replace {t u new : Task (Driven β) Ending} {path : List ℕ}
    (h : t.at? path = some u) (hu : u.result? = none) :
    t.result? = none ∧ (t.replace path new).result? = if path = [] then new.result? else none := by
  cases path with
  | nil =>
    obtain rfl : t = u := Option.some.inj h
    exact ⟨hu, rfl⟩
  | cons i path => cases t <;> simp [Task.at?, Task.replace, Task.result?] at h ⊢

theorem Embodied.replace {t u new : Task (Driven β) Ending} {path : List ℕ} (ht : Embodied t)
    (h : t.at? path = some u) (hu : u.result? = none) (hnew : Embodied new) :
    Embodied (t.replace path new) := by
  obtain ⟨before, after, hs, hstates⟩ := Task.exists_split h
  refine ⟨fun a ha => ?_, fun e he => ?_⟩
  · rw [hstates] at ha
    rcases List.mem_append.mp ha with ha | ha
    · rcases List.mem_append.mp ha with ha | ha
      · exact ht.1 a (by rw [hs]; simp [ha])
      · exact hnew.1 a ha
    · exact ht.1 a (by rw [hs]; simp [ha])
  · rw [(result?_replace h hu).2] at he
    split at he
    · exact hnew.2 e he
    · cases he

/-- What the task at a place of a batch has told. -/
def returnOf (place : ℕ) (t : Task (Driven β) Ending) : List (Event β) :=
  match t.result? with
  | some (.lap l) => [.returned place l]
  | _ => []

/-- A body that returns an iteration tells so. -/
theorem returnedBy_carried (place : ℕ) (d : Directive β Lap) :
    returnedBy place (Bodies.carried d)
      = returnOf place ((Bodies.carried d).task (bodies.program view)) := by
  cases d with
  | fork children waiting => cases children <;> rfl
  | _ => rfl

/-- What the tasks of a batch have told, in the order of their places. -/
def returnsOf (children : List (Task (Driven β) Ending)) : List (Event β) :=
  children.zipIdx.flatMap fun (t, place) => returnOf place t

/-- Tasks at work have told nothing. -/
theorem returnsOf_live (as : List (Driven β)) : returnsOf (as.map .live) = [] := by
  refine List.flatMap_eq_nil_iff.mpr fun x hx => ?_
  obtain ⟨a, -, ha⟩ := List.mem_map.mp (List.fst_mem_of_mem_zipIdx hx)
  simp [returnOf, ← ha, Task.result?]

/-- If one of the tasks comes further, its return is what is told more. -/
theorem returnsOf_modify {children : List (Task (Driven β) Ending)} {place : ℕ}
    {t : Task (Driven β) Ending} (hplace : children[place]? = some t) (ht : t.result? = none)
    (f : Task (Driven β) Ending → Task (Driven β) Ending) :
    (returnsOf children ++ returnOf place (f t)).Perm (returnsOf (children.modify place f)) := by
  obtain ⟨hlt, rfl⟩ := List.getElem?_eq_some_iff.mp hplace
  have hlength : (children.take place).length = place := List.length_take_of_le (Nat.le_of_lt hlt)
  have hnone : returnOf place children[place] = [] := by simp [returnOf, ht]
  have hsplit : ∀ u, returnsOf (children.take place ++ u :: children.drop (place + 1))
      = returnsOf (children.take place) ++ (returnOf place u
        ++ ((children.drop (place + 1)).zipIdx (place + 1)).flatMap fun x => returnOf x.2 x.1) := by
    intro u
    simp [returnsOf, List.zipIdx_append, hlength]
  have hold := hsplit children[place]
  rw [← List.drop_eq_getElem_cons hlt, List.take_append_drop, hnone, List.nil_append] at hold
  rw [List.modify_eq_take_cons_drop hlt, hsplit, hold, List.append_assoc]
  exact List.perm_append_comm.append_left _

/-- When all tasks of a batch have ended, all their iterations have been told. -/
theorem returnsOf_ended {children : List (Task (Driven β) Ending)} {endings : List Ending}
    (hends : Task.results? children = some endings) (hbodies : ∀ t ∈ children, Embodied t) :
    (endings.filterMap Ending.lap?).length = children.length ∧
      returnsOf children = (endings.filterMap Ending.lap?).zipIdx.map
        fun (l, place) => .returned place l := by
  obtain rfl := Task.eq_ended_of_results? hends
  have hlaps : ∃ laps : List Lap, endings = laps.map Ending.lap := by
    clear hends
    induction endings with
    | nil => exact ⟨[], rfl⟩
    | cons e endings ih =>
      obtain ⟨laps, rfl⟩ := ih fun t ht => hbodies t (List.mem_cons_of_mem _ ht)
      obtain ⟨l, rfl⟩ := (hbodies (.ended e) List.mem_cons_self).2 e rfl
      exact ⟨l :: laps, rfl⟩
  obtain ⟨laps, rfl⟩ := hlaps
  have hfilter : (laps.map Ending.lap).filterMap Ending.lap? = laps := by
    rw [List.filterMap_map]
    exact List.filterMap_some
  rw [hfilter]
  refine ⟨by simp, ?_⟩
  unfold returnsOf
  rw [List.map_map, List.zipIdx_map, List.flatMap_map]
  exact (List.map_eq_flatMap ..).symm

/-! ### The task of a loop -/

/-- A course that stands behind some batches. -/
structure Stage (plan : Plan) (batches : List (List Lap)) (course : Course) : Prop where
  plan : course.plan = plan
  laps : course.laps = batches.flatten

theorem Stage.next {batches : List (List Lap)} {course : Course} (h : Stage plan batches course) :
    course.next = batches.flatten.length := by
  rw [course.next_eq, h.laps]

theorem Stage.absorb {batches : List (List Lap)} {course : Course} (h : Stage plan batches course)
    (batch : List Lap) : Stage plan (batches ++ [batch]) (course.absorb batch) :=
  ⟨h.plan, by simp [Course.absorb, h.laps]⟩

/-- There is no failure in some batches, if the loop stops on failures. -/
def Unfailing (plan : Plan) (batches : List (List Lap)) : Prop :=
  plan.settings.stopsOnFailure = true → ∀ batch ∈ batches, ∀ l ∈ batch, l.success = true

/-- What the task of a loop is about, and what has been told then. -/
inductive Phase (bodies : Bodies σ β) (view : View) (plan : Plan) :
    List (Event β) → Task (Driven β) Ending → Prop
  /-- The loop has slept already if a batch is to come. -/
  | between {told batches gap course} : Rounds bodies view plan told batches →
      (if course.isComplete then gap = [] else Gap plan batches gap) →
      Stage plan batches course → Unfailing plan batches →
      Phase bodies view plan (told ++ gap) (.live (.turn course))
  | gathering {told batches gap course returns children} : Rounds bodies view plan told batches →
      Gap plan batches gap → Stage plan batches course → Unfailing plan batches →
      course.next < plan.count →
      children.length = min plan.settings.batchSize (plan.count - course.next) →
      (∀ t ∈ children, Embodied t) → returns.Perm (returnsOf children) →
      Phase bodies view plan
        (told ++ gap
          ++ .started (bodies.batch view plan course.next children.length) :: returns)
        (.waiting (.gather course) children)
  | settling {told batches batch course} : Rounds bodies view plan told (batches ++ [batch]) →
      Stage plan (batches ++ [batch]) course → Unfailing plan batches →
      Phase bodies view plan told (.live (.settle course batch))
  | finished {told report batches} : Lawful bodies view plan told report batches →
      Phase bodies view plan told (.ended (.report report))
  /-- The loop could not rest, which it only tries if iterations are left. -/
  | failed {told batches fault} : Rounds bodies view plan told batches →
      batches.flatten.length < plan.count → Phase bodies view plan told (.ended (.fault fault))

theorem Phase.start : Phase bodies view plan [] (.live (.turn (.new plan))) := by
  have hgap : if (Course.new plan).isComplete then ([] : List (Event β)) = []
      else Gap (β := β) plan [] [] := by
    split
    · rfl
    · simp [Gap]
  show Phase bodies view plan ([] ++ []) _
  exact .between .none hgap ⟨rfl, rfl⟩ fun _ batch h => nomatch h

/-- A loop without failures has not failed. -/
theorem Unfailing.whole {batches : List (List Lap)} (h : Unfailing plan batches) :
    ¬ (plan.settings.stopsOnFailure = true ∧ ∃ last ∈ batches.getLast?, ∃ l ∈ last, l.Breaks) := by
  rintro ⟨hstops, last, hlast, l, hl, hfailed, -⟩
  rw [h hstops last (List.mem_of_getLast? hlast) l hl] at hfailed
  cases hfailed

/-- A loop without failures that ends before a batch is lawful, if it leaves iterations out only
because of the signal. -/
theorem lawful_of_unfailing {told rest : List (Event β)} {batches : List (List Lap)}
    {course : Course} {early cancelled : Bool} (hrounds : Rounds bodies view plan told batches)
    (hstage : Stage plan batches course) (hunfailing : Unfailing plan batches)
    (hrest : if cancelled then ∃ gap, Gap plan batches gap ∧ rest = gap ++ [.cancelled]
      else rest = [])
    (hearly : early = true ↔ batches.flatten.length < plan.count)
    (hreason : early = true → cancelled = true) :
    Lawful bodies view plan (told ++ rest) (course.report true early cancelled none) batches where
  told := ⟨told, rest, rfl, hrounds, hrest⟩
  laps := hstage.laps
  iterationCount := congrArg Plan.count hstage.plan
  bounded := by rw [Course.report, hstage.laps]; exact hrounds.length_le
  stoppedEarly := by rw [Course.report, hstage.laps]; exact hearly
  reason h := by rw [Course.report, hstage.laps] at h; exact .inl (hreason (hearly.mpr h))
  earlier hstops batch hbatch :=
    hunfailing hstops batch ((List.dropLast_sublist _).subset hbatch)
  success := iff_of_false (by simp [Course.report]) hunfailing.whole
  error_of_success _ := rfl
  error_of_failure h := by cases h

/-- A loop that ends before a batch is lawful: it has run all its iterations, or found the
signal raised. -/
theorem lawful_of_move {told gap : List (Event β)} {batches : List (List Lap)} {course : Course}
    {report : Report} {s : σ} (hrounds : Rounds bodies view plan told batches)
    (hgap : if course.isComplete then gap = [] else Gap plan batches gap)
    (hstage : Stage plan batches course) (hunfailing : Unfailing plan batches)
    (hmove : course.move (bodies.isCancelled s) = .finish report) :
    Lawful bodies view plan (told ++ gap ++ bodies.heard s (.turn course)) report batches := by
  unfold Course.move at hmove
  rw [List.append_assoc]
  rcases hcomplete : course.isComplete with - | -
  · -- iterations are left, so it is the signal
    have hlt : batches.flatten.length < plan.count := by
      simpa [Course.isComplete, hstage.plan, hstage.next] using hcomplete
    rcases hcancelled : bodies.isCancelled s with - | -
    · simp [hcomplete, hcancelled] at hmove
    · simp only [hcomplete, hcancelled, Bool.false_eq_true, if_false, if_true] at hmove hgap
      obtain rfl := Move.finish.inj hmove
      refine lawful_of_unfailing hrounds hstage hunfailing ⟨gap, hgap, ?_⟩ (iff_of_true rfl hlt)
        fun _ => rfl
      simp [Bodies.heard, hcomplete, hcancelled]
  · have hall : ¬ batches.flatten.length < plan.count := by
      simpa [Course.isComplete, hstage.plan, hstage.next] using hcomplete
    simp only [hcomplete, if_true] at hmove hgap
    obtain rfl := Move.finish.inj hmove
    refine lawful_of_unfailing hrounds hstage hunfailing ?_ (iff_of_false (by simp) hall)
      fun h => by cases h
    simp [Bodies.heard, hcomplete, hgap]

/-- A loop that stops at a batch with a failure is lawful. -/
theorem lawful_of_failure {told : List (Event β)} {batches : List (List Lap)} {batch : List Lap}
    {course : Course} {success : Bool} {error : Option String}
    (hrounds : Rounds bodies view plan told (batches ++ [batch]))
    (hstage : Stage plan (batches ++ [batch]) course) (hunfailing : Unfailing plan batches)
    (hstops : plan.settings.stopsOnFailure = true) (hfailure : ∃ l ∈ batch, l.success = false)
    (hsentence : course.Sentence batch success error) :
    Lawful bodies view plan told (course.report success (!course.isComplete) false error)
      (batches ++ [batch]) := by
  have hlast : batch ∈ (batches ++ [batch]).getLast? := by simp
  have hnext : course.next - batch.length = batches.flatten.length := by
    rw [hstage.next]
    simp
  have hsuccess : success = false ↔ ∃ l ∈ batch, l.Breaks := by
    cases hsentence with
    | broken hfirst => exact iff_of_true rfl ⟨_, List.mem_of_getElem? hfirst.1, hfirst.2.1⟩
    | whole hnone => exact iff_of_false (by simp) fun ⟨l, hl, hbreaks⟩ => hnone l hl hbreaks
  exact
    { told := ⟨told, [], (List.append_nil _).symm, hrounds, rfl⟩
      laps := hstage.laps
      iterationCount := congrArg Plan.count hstage.plan
      bounded := by rw [Course.report, hstage.laps]; exact hrounds.length_le
      stoppedEarly := by
        rw [Course.report, hstage.laps]
        simp [Course.isComplete, hstage.plan, hstage.next]
      reason := fun _ => .inr ⟨hstops, batch, hlast, hfailure⟩
      earlier := fun _ => by rw [List.dropLast_concat]; exact hunfailing hstops
      success := by simpa [hstops, Course.report] using hsuccess
      error_of_success := fun h => by
        cases hsentence with
        | broken => cases h
        | whole => rfl
      error_of_failure := fun h => by
        cases hsentence with
        | @broken place l hfirst =>
          refine ⟨batch, hlast, place, l, hfirst, ?_⟩
          rw [List.dropLast_concat, ← hnext]
          rfl
        | whole => cases h }

/-! ### What becomes of it -/

theorem batchSize_pos (settings : Settings) : 0 < settings.batchSize := by
  unfold Settings.batchSize
  split <;> omega

/-- A loop that starts tasks waits for them. -/
theorem task_fork {children : List (Driven β)} (waiting : Driven β) (h : children ≠ []) :
    (Directive.fork children waiting).task (bodies.program view)
      = .waiting waiting (children.map .live) := by
  cases children with
  | nil => exact absurd rfl h
  | cons child children => rfl

/-- Between two batches the loop ends, or starts the next one. -/
theorem Phase.turn {told gap : List (Event β)} {batches : List (List Lap)} {course : Course} (s : σ)
    (hrounds : Rounds bodies view plan told batches)
    (hgap : if course.isComplete then gap = [] else Gap plan batches gap)
    (hstage : Stage plan batches course) (hunfailing : Unfailing plan batches) :
    Phase bodies view plan (told ++ gap ++ bodies.tells view [0] s (.turn course))
      ((bodies.stepIn view s (.turn course)).2.task (bodies.program view)) := by
  rcases hmove : course.move (bodies.isCancelled s) with ⟨first, count⟩ | report
  · -- the batch is not empty, so the loop waits for it
    obtain ⟨hcomplete, hcancelled, rfl, rfl⟩ : course.isComplete = false ∧
        bodies.isCancelled s = false ∧ course.next = first ∧
          min course.plan.settings.batchSize (course.plan.count - course.next) = count := by
      unfold Course.move at hmove
      cases hcomplete : course.isComplete <;> cases hcancelled : bodies.isCancelled s <;>
        simp [hcomplete, hcancelled] at hmove ⊢
      exact hmove
    have hlt : course.next < plan.count := by
      simpa [Course.isComplete, hstage.plan] using hcomplete
    have hpos := batchSize_pos plan.settings
    generalize hcount : min plan.settings.batchSize (plan.count - course.next) = count
    have hstep : bodies.stepIn view s (.turn course)
        = (s, .fork (bodies.batch view plan course.next count) (.gather course)) := by
      simp only [Bodies.stepIn, hmove, hstage.plan, hcount, Bodies.batch]
    have hne : bodies.batch view plan course.next count ≠ [] :=
      List.ne_nil_of_length_pos (by rw [length_batch]; omega)
    have hbodies : ∀ t ∈ (bodies.batch view plan course.next count).map .live, Embodied t := by
      intro t ht
      obtain ⟨a, ha, rfl⟩ := List.mem_map.mp ht
      obtain ⟨i, -, rfl⟩ := List.mem_map.mp ha
      exact embodied_live _
    have hphase := Phase.gathering hrounds (by simpa [hcomplete] using hgap) hstage hunfailing hlt
      (by rw [List.length_map, length_batch, hcount]) hbodies (by rw [returnsOf_live])
    rw [Bodies.tells, hstep, task_fork _ hne]
    simpa [Bodies.heard, hcomplete, hcancelled, saidBy] using hphase
  · have hlawful := lawful_of_move hrounds hgap hstage hunfailing hmove
    simp only [Bodies.tells, Bodies.stepIn, hmove, saidBy, List.append_nil]
    exact .finished hlawful

/-- While the loop waits, what comes of one of its bodies is the return of an iteration or
tells nothing. -/
theorem Phase.child {told : List (Event β)} {course : Course} {u new : Task (Driven β) Ending}
    {children : List (Task (Driven β) Ending)} {place : ℕ} {path : List ℕ}
    (h : Phase bodies view plan told (.waiting (.gather course) children))
    (hat : (Task.waiting (.gather course) children).at? (place :: path) = some u)
    (hu : u.result? = none) (hnew : Embodied new) :
    Phase bodies view plan (told ++ if path = [] then returnOf place new else [])
      ((Task.waiting (.gather course) children).replace (place :: path) new) := by
  obtain ⟨child, hchild, hat⟩ := Option.bind_eq_some_iff.mp hat
  cases h with
  | @gathering told batches gap _ returns _ hrounds hgap hstage hunfailing hlt hsize hbodies
      hperm =>
    obtain ⟨hnone, hresult⟩ : child.result? = none ∧ (child.replace path new).result?
      = if path = [] then new.result? else none := result?_replace hat hu
    have htold : (if path = [] then returnOf place new else [])
        = returnOf place (child.replace path new) := by
      unfold returnOf
      rw [hresult]
      split <;> rfl
    rw [htold]
    have hmore := (hperm.append_right (returnOf place (child.replace path new))).trans
      (returnsOf_modify hchild hnone fun t => t.replace path new)
    have hmodified : ∀ t ∈ children.modify place (fun t => t.replace path new), Embodied t := by
      intro t ht
      obtain ⟨k, hk⟩ := List.mem_iff_getElem?.mp ht
      rw [List.getElem?_modify] at hk
      obtain ⟨old, hold, rfl⟩ := Option.map_eq_some_iff.mp hk
      have hbody := hbodies old (List.mem_of_getElem? hold)
      by_cases hplace : place = k
      · subst hplace
        obtain rfl := Option.some.inj (hold.symm.trans hchild)
        simpa using hbody.replace hat hu hnew
      · simpa [hplace] using hbody
    have hphase := Phase.gathering hrounds hgap hstage hunfailing hlt
      (by rw [List.length_modify, hsize]) hmodified hmore
    simpa [Task.replace] using hphase

/-- The tasks that a loop waits for are bodies. -/
theorem Phase.exists_body {told : List (Event β)} {course : Course} {u : Task (Driven β) Ending}
    {children : List (Task (Driven β) Ending)} {place : ℕ} {path : List ℕ}
    (h : Phase bodies view plan told (.waiting (.gather course) children))
    (hat : (Task.waiting (.gather course) children).at? (place :: path) = some u) {a : Driven β}
    (ha : a ∈ u.states) : ∃ b, a = .body b := by
  obtain ⟨child, hchild, hat⟩ := Option.bind_eq_some_iff.mp hat
  obtain ⟨before, after, hs, -⟩ := Task.exists_split hat
  cases h with
  | gathering _ _ _ _ _ _ hbodies _ =>
    exact (hbodies child (List.mem_of_getElem? hchild)).1 a (by rw [hs]; simp [ha])

/-- When all of the batch has returned, a round is complete. -/
theorem Phase.gathered {told : List (Event β)} {course : Course}
    {children : List (Task (Driven β) Ending)} {endings : List Ending}
    (h : Phase bodies view plan told (.waiting (.gather course) children))
    (hends : Task.results? children = some endings) :
    Phase bodies view plan told
      (.live ((bodies.program view).rejoin (.gather course) endings)) := by
  cases h with
  | @gathering told batches gap _ returns _ hrounds hgap hstage hunfailing hlt hsize hbodies
      hperm =>
    obtain ⟨hlength, hreturns⟩ := returnsOf_ended hends hbodies
    rw [hreturns] at hperm
    rw [← hlength] at hsize ⊢
    rw [hstage.next] at hlt hsize ⊢
    exact .settling (hrounds.next hgap ⟨hlt, hsize, returns, rfl, hperm⟩)
      (hstage.absorb _) hunfailing

/-- After a batch the loop ends, or is between two batches and has slept if it has to. -/
theorem Phase.settle {told : List (Event β)} {batches : List (List Lap)} {batch : List Lap}
    {course : Course} (s : σ) (hrounds : Rounds bodies view plan told (batches ++ [batch]))
    (hstage : Stage plan (batches ++ [batch]) course) (hunfailing : Unfailing plan batches) :
    Phase bodies view plan (told ++ bodies.tells view [0] s (.settle course batch))
      ((bodies.stepIn view s (.settle course batch)).2.task (bodies.program view)) := by
  have hplan := hstage.plan
  rcases course.turn_exact batch with
    ⟨hstops, hfailure, success, error, hsentence, hturn⟩ | ⟨hwhole, hturn⟩
  · rw [hplan] at hstops
    have hlawful := lawful_of_failure hrounds hstage hunfailing hstops hfailure hsentence
    simp only [Bodies.tells, Bodies.heard, Bodies.stepIn, hturn, saidBy, List.append_nil]
    exact .finished hlawful
  rw [hplan] at hwhole hturn
  have hall : Unfailing plan (batches ++ [batch]) := by
    intro hstops b hb
    rcases List.mem_append.mp hb with hb | hb
    · exact hunfailing hstops b hb
    · rw [List.mem_singleton.mp hb]
      exact hwhole hstops
  -- a loop with a delay and with iterations left rests now, so that it has rested at its next turn
  by_cases hrests : 0 < plan.settings.delayMs ∧ course.isComplete = false
  · have hturn' : course.turn batch = .rest plan.settings.delayMs := by
      simpa [hrests.1, hrests.2] using hturn
    have hleft : (batches ++ [batch]).flatten.length < plan.count := by
      simpa only [Course.isComplete, decide_eq_false_iff_not, Nat.not_le, hplan, hstage.next]
        using hrests.2
    rcases hseconds : secondsOf plan.settings.delayMs with fault | seconds
    · simp only [Bodies.tells, Bodies.heard, Bodies.stepIn, hturn', hseconds, saidBy,
        List.append_nil]
      exact .failed hrounds hleft
    rcases hmicro : microsecondsOf seconds with fault | microseconds
    · simp only [Bodies.tells, Bodies.heard, Bodies.stepIn, hturn', hseconds, hmicro, saidBy,
        List.append_nil]
      exact .failed hrounds hleft
    · have hgap : Gap (β := β) plan (batches ++ [batch]) [.slept microseconds] := by
        rw [Gap, if_pos ⟨by simp, hrests.1⟩]
        exact ⟨seconds, microseconds, hseconds, hmicro, rfl⟩
      simp only [Bodies.tells, Bodies.heard, Bodies.stepIn, hturn', hseconds, hmicro, saidBy,
        List.nil_append]
      exact .between hrounds (by simpa [hrests.2] using hgap) hstage hall
  · have hturn' : course.turn batch = .again := by
      simpa [hrests] using hturn
    have hgap : if course.isComplete then ([] : List (Event β)) = []
        else Gap (β := β) plan (batches ++ [batch]) [] := by
      rcases hcomplete : course.isComplete with - | -
      · have hnone : ¬ 0 < plan.settings.delayMs := fun h => hrests ⟨h, hcomplete⟩
        simp [Gap, hnone]
      · simp
    simp only [Bodies.tells, Bodies.heard, Bodies.stepIn, hturn', saidBy, List.nil_append]
    exact .between hrounds hgap hstage hall

/-! ### The law -/

/-- At every moment of a run the task of the loop is in a phase. -/
theorem exists_phase {outside : σ → σ → Prop} {s : σ} {told : List (Event β)}
    {d : Pool σ (Driven β) Ending}
    (h : Pool.Told (bodies.program view) outside (bodies.tells view)
      (Pool.start s (.turn (.new plan))) told d) :
    ∃ t, d.tasks[0]? = some t ∧ Phase bodies view plan told t := by
  refine Pool.Told.root (P := Phase bodies view plan) ?_ .start ?_ ?_ h
  · -- only the first task of the pool and its children tell anything
    intro i rest s b hi
    cases rest with
    | nil => cases i with
      | zero => exact absurd rfl hi
      | succ i => rfl
    | cons k rest => cases rest <;> cases i with
      | zero => exact absurd rfl hi
      | succ i => rfl
  · intro told t rest a s hphase hat
    have hnow := hphase
    cases hphase with
    | between hrounds hgap hstage hunfailing =>
      cases rest with
      | nil =>
        obtain rfl := Task.live.inj (Option.some.inj hat)
        exact Phase.turn s hrounds hgap hstage hunfailing
      | cons => cases hat
    | settling hrounds hstage hunfailing =>
      cases rest with
      | nil =>
        obtain rfl := Task.live.inj (Option.some.inj hat)
        exact Phase.settle s hrounds hstage hunfailing
      | cons => cases hat
    | gathering =>
      cases rest with
      | nil => cases hat
      | cons place path =>
        obtain ⟨b, rfl⟩ := hnow.exists_body hat (a := a) (by simp)
        have hnew : Embodied ((Bodies.carried (bodies.step s b).2).task (bodies.program view)) :=
          embodied_carried _
        have hchild := hnow.child hat rfl hnew
        -- what the step of the body tells is the return that its task has come to
        have htells : bodies.tells view (0 :: place :: path) s (.body b)
            = if path = [] then returnOf place ((Bodies.carried (bodies.step s b).2).task
              (bodies.program view)) else [] := by
          cases path with
          | nil => exact returnedBy_carried place _
          | cons => rfl
        rw [htells]
        exact hchild
    | finished | failed => cases rest <;> cases hat
  · intro told t rest a children results hphase hat hr
    have hnow := hphase
    cases hphase with
    | between | settling | finished | failed => cases rest <;> cases hat
    | gathering =>
      cases rest with
      | nil =>
        obtain ⟨rfl, rfl⟩ := Task.waiting.inj (Option.some.inj hat)
        exact hnow.gathered hr
      | cons place path =>
        obtain ⟨b, rfl⟩ := hnow.exists_body hat (a := a) (by simp)
        have hchild := hnow.child hat rfl (embodied_live b)
        have hnothing : (if path = [] then returnOf place (Task.live (Driven.body b)) else [])
            = ([] : List (Event β)) := by
          split <;> rfl
        rw [hnothing, List.append_nil] at hchild
        exact hchild

/-- A loop that has ended with a report is lawful. -/
theorem exists_lawful {outside : σ → σ → Prop} {s : σ} {told : List (Event β)}
    {d : Pool σ (Driven β) Ending} {report : Report}
    (h : Pool.Told (bodies.program view) outside (bodies.tells view)
      (Pool.start s (.turn (.new plan))) told d)
    (hends : d.at? [0] = some (.ended (.report report))) :
    ∃ batches, Lawful bodies view plan told report batches := by
  obtain ⟨t, ht, hphase⟩ := exists_phase h
  obtain ⟨root, hroot, hat⟩ := Option.bind_eq_some_iff.mp hends
  obtain rfl : t = root := Option.some.inj (ht.symm.trans hroot)
  obtain rfl : t = .ended (.report report) := Option.some.inj hat
  cases hphase with
  | finished hlawful => exact ⟨_, hlawful⟩

/-- The signal of cancellation is told only if it is raised. -/
theorem isCancelled_of_tells {path : List ℕ} {s : σ} {a : Driven β}
    (h : .cancelled ∈ bodies.tells view path s a) : bodies.isCancelled s = true := by
  unfold Bodies.tells at h
  split at h
  · rcases List.mem_append.mp h with h | h
    · unfold Bodies.heard at h
      split at h
      · split at h
        · next hraised => exact (Bool.and_eq_true_iff.mp hraised).2
        · cases h
      · cases h
    · unfold saidBy at h
      split at h <;> simp at h
  · unfold returnedBy at h
    split at h <;> simp at h
  · cases h

/-- A loop that was cancelled has found the signal raised at some moment of the run. -/
theorem Lawful.raised {outside : σ → σ → Prop} {c d : Pool σ (Driven β) Ending}
    {told : List (Event β)} {report : Report} {batches : List (List Lap)}
    (h : Lawful bodies view plan told report batches)
    (htold : Pool.Told (bodies.program view) outside (bodies.tells view) c told d)
    (hcancelled : report.cancelled = true) :
    ∃ m, Pool.Reaches (bodies.program view) outside c m ∧ bodies.isCancelled m.shared = true ∧
      Pool.Reaches (bodies.program view) outside m d := by
  obtain ⟨rounds, rest, rfl, -, hrest⟩ := h.told
  rw [if_pos hcancelled] at hrest
  obtain ⟨gap, -, rfl⟩ := hrest
  obtain ⟨m, path, a, hm, -, htells, hd⟩ := htold.exists_moment (e := .cancelled) (by simp)
  exact ⟨m, hm, isCancelled_of_tells htells, hd⟩

/-- The law of a loop that ends in order, whatever its bodies do, in whatever order, and
whatever happens outside.  The run has a history, and in every history of it batches of the
indices `0, 1, 2, ...` follow each other, each returns before the next one starts, and
between two of them there is one sleep if the loop has a delay; the report lists what the
bodies have returned in the order of the indices, and says whether and why the loop ended
before it had started all.  A loop that was cancelled has found the signal raised at some
moment of the run. -/
theorem loop_lawful (bodies : Bodies σ β) (view : View) (plan : Plan) (outside : σ → σ → Prop)
    (s : σ) (d : Pool σ (Driven β) Ending) (report : Report)
    (h : Pool.Reaches (bodies.program view) outside (Pool.start s (.turn (.new plan))) d)
    (hends : d.at? [0] = some (.ended (.report report))) :
    plan.count ≤ plan.settings.maxIterations ∧
    (∃ told, Pool.Told (bodies.program view) outside (bodies.tells view)
      (Pool.start s (.turn (.new plan))) told d) ∧
    (∀ told, Pool.Told (bodies.program view) outside (bodies.tells view)
      (Pool.start s (.turn (.new plan))) told d →
      ∃ batches, Lawful bodies view plan told report batches) ∧
    (report.cancelled = true → ∃ m,
      Pool.Reaches (bodies.program view) outside (Pool.start s (.turn (.new plan))) m ∧
        bodies.isCancelled m.shared = true ∧ Pool.Reaches (bodies.program view) outside m d) := by
  obtain ⟨told, htold⟩ := Pool.exists_told (bodies.tells view) h
  refine ⟨plan.count_le, ⟨told, htold⟩, fun _ h => exists_lawful h hends, fun hcancelled => ?_⟩
  obtain ⟨batches, hlawful⟩ := exists_lawful htold hends
  exact hlawful.raised htold hcancelled

namespace Sample

/-- A loop that counts up to a cap. -/
def counting (cap delayMs batchSize : ℕ) (stopsOnFailure isAsync : Bool) : Plan where
  loop := "l"
  settings :=
    { vars := []
      maxIterations := cap
      counterStart := 1
      delayMs := delayMs
      stopsOnFailure := stopsOnFailure
      linkedVariable := .null
      trims := true
      isAsync := isAsync
      authoredBatchSize := batchSize }
  sources := []

def outset : View := .bare ⟨"run", .null, ⟨"", 0⟩⟩

/-- An iteration that fails and is aborted. -/
def broken : Lap := ⟨false, true, [], [("x", "boom")]⟩

def whole : Lap := ⟨true, false, [], []⟩

/-- Bodies that let others go first and then return, in a run that is never cancelled.  The
body of one iteration breaks. -/
def breakingAt (breaking : ℕ) : Bodies Unit (ℕ × Bool) where
  step s b := (s, if b.2 then .finish (if b.1 = breaking then broken else whole)
    else .pause (b.1, true))
  enter _ i := (i, false)
  isCancelled _ := false
  rested s _ := s

/-- A run of a loop after some steps of the machine. -/
def after (breaking : ℕ) (p : Plan) (steps : ℕ) : Pool Unit (Driven (ℕ × Bool)) Ending :=
  ((Schedule.Machine.start () (.turn (.new p))).run
    ((breakingAt breaking).program outset) steps).1.toPool

theorem reaches_after (breaking : ℕ) (p : Plan) (steps : ℕ) :
    Pool.Reaches ((breakingAt breaking).program outset) (fun _ _ => False)
      (Pool.start () (.turn (.new p))) (after breaking p steps) :=
  Schedule.Machine.reaches_run ((breakingAt breaking).program outset) _ steps
    (Schedule.Machine.start () (.turn (.new p)))

end Sample

/-- A loop of three iterations in batches of two stops after the first batch, whose second
iteration breaks. -/
theorem loop_lawful_in_sample : ∃ told batches,
    Pool.Told ((Sample.breakingAt 1).program Sample.outset) (fun _ _ => False)
      ((Sample.breakingAt 1).tells Sample.outset)
      (Pool.start () (.turn (.new (Sample.counting 3 50 2 true true)))) told
      (Sample.after 1 (Sample.counting 3 50 2 true true) 20) ∧
    Lawful (Sample.breakingAt 1) Sample.outset (Sample.counting 3 50 2 true true) told
      ⟨3, [Sample.whole, Sample.broken], false, true, false,
        some (Course.failure 1 Sample.broken)⟩ batches := by
  have hends : (Sample.after 1 (Sample.counting 3 50 2 true true) 20).at? [0]
      = some (.ended (.report ⟨3, [Sample.whole, Sample.broken], false, true, false,
        some (Course.failure 1 Sample.broken)⟩)) := rfl
  obtain ⟨-, ⟨told, htold⟩, hlawful, -⟩ := loop_lawful (Sample.breakingAt 1) Sample.outset
    (Sample.counting 3 50 2 true true) (fun _ _ => False) () _ _
    (Sample.reaches_after 1 (Sample.counting 3 50 2 true true) 20) hends
  obtain ⟨batches, h⟩ := hlawful told htold
  exact ⟨told, batches, htold, h⟩

end Automation.Loop
