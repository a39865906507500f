/-
Automation/Proofs/Service/Turn.lean

What one step of a task of the service can do.

A *turn* is a step of a task of the service, told by the state that it leaves and the directive
that it gives.  There is one constructor for each thing that can happen, with the conditions
under which it does; every step is a turn, if the run that the task carries out is there
(`turn_step`).  All that the service does to a run between two steps of the run is in the
turns of other tasks: it opens a run, raises its cancellation signal, or changes the world.
-/
import Automation.Proofs.Fields
import Automation.Proofs.Number.Numeral
import Automation.Proofs.Run.Deed
import Automation.Service.Client

namespace Automation.Service

open Automation.Schedule (Directive Task)

/-! ### Work on a run -/

namespace Work

/-- The run that a task carries out, as a whole or in part. -/
def run? : Work → Option String
  | .client _ => none
  | .foreground id .. => some id
  | .background id _ => some id
  | .branch id _ => some id

/-- The strand of a run that a task carries out; a client has none, and so one with nothing
left to do stands for it. -/
def strand : Work → Run.Strand
  | .client _ => .close .empty
  | .foreground _ strand _ => strand
  | .background _ strand => strand
  | .branch _ strand => strand

/-- The task with another strand. -/
def withStrand : Work → Run.Strand → Work
  | .client commands, _ => .client commands
  | .foreground id _ commands, next => .foreground id next commands
  | .background id _, next => .background id next
  | .branch id _, next => .branch id next

/-- The task is a branch that a run has forked into. -/
def IsBranch : Work → Prop
  | .branch .. => True
  | _ => False

variable {w : Work} {id : String}

@[simp] theorem run?_withStrand (w : Work) (next : Run.Strand) :
    (w.withStrand next).run? = w.run? := by
  cases w <;> rfl

@[simp] theorem isBranch_withStrand (w : Work) (next : Run.Strand) :
    (w.withStrand next).IsBranch ↔ w.IsBranch := by
  cases w <;> rfl

theorem strand_withStrand (hid : w.run? = some id) (next : Run.Strand) :
    (w.withStrand next).strand = next := by
  cases w with
  | client => cases hid
  | _ => rfl

theorem withStrand_withStrand (w : Work) (first second : Run.Strand) :
    (w.withStrand first).withStrand second = w.withStrand second := by
  cases w <;> rfl

/-- A directive of the strand as one of the task. -/
def carry (w : Work) (id : String) : Directive Run.Strand Run.Report → Directive Work Run.Report
  | .proceed next => .proceed (w.withStrand next)
  | .pause next => .pause (w.withStrand next)
  | .sleep microseconds next => .sleep microseconds (w.withStrand next)
  | .fork children waiting => .fork (children.map (.branch id)) (w.withStrand waiting)
  | .spawn child next => .spawn (.branch id child) (w.withStrand next)
  | .finish report => .finish report

theorem rejoin_eq (w : Work) (reports : List Run.Report) :
    rejoin w reports = w.withStrand (Run.rejoin w.strand reports) := by
  cases w <;> rfl

end Work

/-! ### The state of the service -/

namespace Desk

variable {d : Desk} {id : String} {s : Session} {f : Session → Session}

theorem update_of_get? (h : d.sessions.get? id = some s) :
    d.update id f = { d with sessions := d.sessions.set id (f s) } := by
  unfold update
  rw [h]

/-- To change the session of a run changes nothing else. -/
theorem update_eq (d : Desk) (id : String) (f : Session → Session) :
    d.update id f = { d with sessions := (d.update id f).sessions } := by
  unfold update
  split <;> rfl

theorem get?_update (d : Desk) (id : String) (f : Session → Session) (i : String) :
    (d.update id f).sessions.get? i
      = if i = id then (d.sessions.get? i).map f else d.sessions.get? i := by
  rcases h : d.sessions.get? id with - | s
  · have hsame : d.update id f = d := by
      unfold update
      rw [h]
    rw [hsame]
    split
    · next hi => rw [hi, h, Option.map_none]
    · rfl
  · rw [update_of_get? h, Fields.get?_set]
    split
    · next hi => rw [hi, h, Option.map_some]
    · rfl

/-- The state of the service after a step of a run has left what the run shares. -/
def sharing (d : Desk) (id : String) (shared : Run.State) : Desk :=
  { d.update id fun s => { s with journal := shared.journal, vault := shared.vault } with
    world := shared.world }

/-- What a run shares, by its session. -/
def stateOf (d : Desk) (s : Session) : Run.State := ⟨s.journal, s.vault, d.world⟩

theorem get?_sharing (d : Desk) (id : String) (shared : Run.State) (i : String) :
    (d.sharing id shared).sessions.get? i
      = if i = id then (d.sessions.get? i).map fun s =>
          { s with journal := shared.journal, vault := shared.vault }
        else d.sessions.get? i :=
  get?_update ..

/-- What a service is set up with, and keeps. -/
def terms (d : Desk) : Settings × Registry × Moment × Fields Value × SecretStore :=
  (d.settings, d.registry, d.now, d.surroundings, d.secretStore)

theorem givenFor_of_terms {e : Desk} (h : e.terms = d.terms) (i : String) (r : RunRequest) :
    e.givenFor i r = d.givenFor i r := by
  simp only [terms, Prod.mk.injEq] at h
  obtain ⟨hsettings, -, hnow, hsurroundings, hstore⟩ := h
  unfold givenFor
  rw [hsettings, hnow, hsurroundings, hstore]

theorem setupFor_of_terms {e : Desk} (h : e.terms = d.terms) (g : Graph) :
    e.setupFor g = d.setupFor g := by
  simp only [terms, Prod.mk.injEq] at h
  obtain ⟨hsettings, hregistry, -⟩ := h
  unfold setupFor
  rw [hsettings, hregistry]

@[simp] theorem terms_update : (d.update id f).terms = d.terms := by
  rw [update_eq]
  rfl

@[simp] theorem records_update : (d.update id f).records = d.records := by
  rw [update_eq]

@[simp] theorem issued_update : (d.update id f).issued = d.issued := by
  rw [update_eq]

@[simp] theorem answers_update : (d.update id f).answers = d.answers := by
  rw [update_eq]

@[simp] theorem world_update : (d.update id f).world = d.world := by
  rw [update_eq]

@[simp] theorem keys_update (d : Desk) (id : String) (f : Session → Session) :
    (d.update id f).sessions.keys = d.sessions.keys := by
  unfold update
  split
  · next s hs => rw [Fields.keys_set, if_pos (Fields.mem_keys_iff.mpr ⟨s, hs⟩)]
  · rfl

section

variable {shared : Run.State} {report : Run.Report}

@[simp] theorem terms_sharing : (d.sharing id shared).terms = d.terms := terms_update

@[simp] theorem records_sharing : (d.sharing id shared).records = d.records := records_update

@[simp] theorem issued_sharing : (d.sharing id shared).issued = d.issued := issued_update

@[simp] theorem answers_sharing : (d.sharing id shared).answers = d.answers := answers_update

@[simp] theorem keys_sharing : (d.sharing id shared).sessions.keys = d.sessions.keys :=
  keys_update ..

@[simp] theorem terms_close : (d.close id report).terms = d.terms := terms_update

@[simp] theorem records_close : (d.close id report).records = d.records := records_update

@[simp] theorem issued_close : (d.close id report).issued = d.issued := issued_update

@[simp] theorem answers_close : (d.close id report).answers = d.answers := answers_update

@[simp] theorem world_close : (d.close id report).world = d.world := world_update

@[simp] theorem keys_close : (d.close id report).sessions.keys = d.sessions.keys :=
  keys_update ..

end

@[simp] theorem terms_answer (a : Answer) : (d.answer a).terms = d.terms := rfl

@[simp] theorem records_answer (a : Answer) : (d.answer a).records = d.records := rfl

@[simp] theorem issued_answer (a : Answer) : (d.answer a).issued = d.issued := rfl

@[simp] theorem answers_answer (a : Answer) : (d.answer a).answers = a :: d.answers := rfl

@[simp] theorem sessions_answer (a : Answer) : (d.answer a).sessions = d.sessions := rfl

theorem get?_close (d : Desk) (id : String) (report : Run.Report) (i : String) :
    (d.close id report).sessions.get? i
      = if i = id then (d.sessions.get? i).map fun s => s.close id report
        else d.sessions.get? i :=
  get?_update ..

theorem get?_close_sharing (d : Desk) (id : String) (shared : Run.State) (report : Run.Report)
    (i : String) : ((d.sharing id shared).close id report).sessions.get? i
      = if i = id then (d.sessions.get? i).map fun s =>
          Session.close { s with journal := shared.journal, vault := shared.vault } id report
        else d.sessions.get? i := by
  rw [get?_close, get?_sharing]
  split
  · rw [Option.map_map]
    rfl
  · rfl

/-- The run of an id is there and has not ended. -/
def Unfinished (d : Desk) (id : String) : Prop :=
  (d.sessions.get? id).map Session.outcome = some none

theorem unfinished_iff : d.Unfinished id ↔ ∃ s, d.sessions.get? id = some s ∧ s.outcome = none := by
  simp [Unfinished]

theorem Unfinished.outcome_eq (h : d.Unfinished id) (hs : d.sessions.get? id = some s) :
    s.outcome = none := by
  simpa [Unfinished, hs] using h

theorem unfinished_of_get? {e : Desk} {i : String}
    (h : (e.sessions.get? i).map Session.outcome = (d.sessions.get? i).map Session.outcome) :
    e.Unfinished i ↔ d.Unfinished i := by
  unfold Unfinished
  rw [h]

theorem unfinished_update (hf : ∀ s, (f s).outcome = s.outcome) (i : String) :
    (d.update id f).Unfinished i ↔ d.Unfinished i := by
  refine unfinished_of_get? ?_
  rw [get?_update]
  split
  · rw [Option.map_map]
    exact congrArg (Option.map · _) (funext hf)
  · rfl

theorem unfinished_sharing (shared : Run.State) (i : String) :
    (d.sharing id shared).Unfinished i ↔ d.Unfinished i :=
  unfinished_update (f := fun s => { s with journal := shared.journal, vault := shared.vault })
    (fun _ => rfl) i

theorem unfinished_close_sharing (shared : Run.State) (report : Run.Report) (i : String) :
    ((d.sharing id shared).close id report).Unfinished i ↔ i ≠ id ∧ d.Unfinished i := by
  unfold Unfinished
  rw [get?_close_sharing]
  split
  · next hi => simp [hi, Session.close]
  · next hi => simp [hi]

theorem unfinished_openSession (g : Graph) (r : RunRequest) (i : String) :
    (d.openSession g r).2.2.Unfinished i ↔ i = idOf (d.issued + 1) ∨ d.Unfinished i := by
  show ((Fields.set _ _ _).get? i).map Session.outcome = some none ↔ _
  rw [Fields.get?_set]
  split
  · next hi => simp [hi]
  · next hi => simp [hi, Unfinished]

theorem hasFinished_iff : d.hasFinished id = true ↔
    ∃ s outcome, d.sessions.get? id = some s ∧ s.outcome = some outcome := by
  unfold hasFinished
  rcases d.sessions.get? id with - | s
  · simp
  · simp [Session.isFinished, Option.isSome_iff_exists]

theorem onRecord?_eq_some (h : d.onRecord? id = some s) :
    id ∈ d.records ∧ d.sessions.get? id = some s := by
  unfold onRecord? at h
  split at h
  · next hmem => exact ⟨by simpa using hmem, h⟩
  · cases h

/-- A run is cancelled at shutdown if it is on record and has not ended. -/
theorem get?_cancelPending (d : Desk) (hnodup : d.records.Nodup) (i : String) :
    d.cancelPending.sessions.get? i
      = if i ∈ d.records ∧ d.hasFinished i = false then (d.sessions.get? i).map Session.cancel
        else d.sessions.get? i := by
  have hfold : ∀ (ids : List String) (e : Desk), ids.Nodup →
      (ids.foldl (fun d id => d.update id Session.cancel) e).sessions.get? i
        = if i ∈ ids then (e.sessions.get? i).map Session.cancel else e.sessions.get? i := by
    intro ids
    induction ids with
    | nil => simp
    | cons id ids ih =>
      intro e hids
      obtain ⟨hid, hids⟩ := List.nodup_cons.mp hids
      rw [List.foldl_cons, ih _ hids, get?_update]
      by_cases hi : i = id
      · subst hi
        simp [hid]
      · simp [hi]
  unfold cancelPending
  rw [hfold _ d (hnodup.filter _)]
  simp

theorem cancelPending_eq (d : Desk) :
    d.cancelPending = { d with sessions := d.cancelPending.sessions } := by
  unfold cancelPending
  generalize d.records.filter (fun id => !d.hasFinished id) = ids
  induction ids generalizing d with
  | nil => rfl
  | cons id ids ih =>
    rw [List.foldl_cons, ih, update_eq]

theorem unfinished_cancelPending (d : Desk) (i : String) :
    d.cancelPending.Unfinished i ↔ d.Unfinished i := by
  unfold cancelPending
  generalize d.records.filter (fun id => !d.hasFinished id) = ids
  induction ids generalizing d with
  | nil => rfl
  | cons id ids ih =>
    rw [List.foldl_cons, ih]
    exact unfinished_update (f := Session.cancel) (fun _ => rfl) i

@[simp] theorem terms_cancelPending : d.cancelPending.terms = d.terms := by
  rw [cancelPending_eq]
  rfl

@[simp] theorem records_cancelPending : d.cancelPending.records = d.records := by
  rw [cancelPending_eq]

@[simp] theorem issued_cancelPending : d.cancelPending.issued = d.issued := by
  rw [cancelPending_eq]

@[simp] theorem answers_cancelPending : d.cancelPending.answers = d.answers := by
  rw [cancelPending_eq]

@[simp] theorem keys_cancelPending (d : Desk) :
    d.cancelPending.sessions.keys = d.sessions.keys := by
  unfold cancelPending
  generalize d.records.filter (fun id => !d.hasFinished id) = ids
  induction ids generalizing d with
  | nil => rfl
  | cons id ids ih => rw [List.foldl_cons, ih, keys_update]

end Desk

/-! ### Turns -/

/-- The service answers a command and changes nothing. -/
inductive Answers (d : Desk) : Command → Answer → Prop
  | health : Answers d .health .healthy
  | validate {flow : Document} : Answers d (.validate flow) (.validated flow.problems)
  | malformed {errors} : Answers d (.malformed errors) (.malformed errors)
  | get {id s} : d.onRecord? id = some s → Answers d (.get id) (.standing (s.standing id))
  | unknown {id} : d.onRecord? id = none → Answers d (.get id) (.unknownRun id)
  | cancelUnknown {id} : d.onRecord? id = none → Answers d (.cancel id) (.unknownRun id)
  | waitTooLong {seconds fault} : microsecondsOf seconds = .error fault →
    Answers d (.wait seconds) (.failed fault)
  | waited {seconds microseconds} : microsecondsOf seconds = .ok microseconds →
    Answers d (.wait seconds) .waited
  | runInvalid {r problems} : Graph.ofDocument r.flow = .error problems →
    Answers d (.run r) (.invalidFlow problems)
  | startInvalid {r problems} : Graph.ofDocument r.flow = .error problems →
    Answers d (.start r) (.invalidFlow problems)

/-- The client goes on with the rest of what it wants, at once, after others, or later. -/
inductive GoesOn (rest : List Command) : Directive Work Run.Report → Prop
  | proceed : GoesOn rest (.proceed (.client rest))
  | pause : GoesOn rest (.pause (.client rest))
  | sleep {microseconds} : GoesOn rest (.sleep microseconds (.client rest))

/-- The service as it puts a new background run on record. -/
def Desk.enlist (d : Desk) (g : Graph) (r : RunRequest) : Desk :=
  let opened := (d.prune.openSession g r).2.2
  { opened with records := opened.records ++ [Desk.idOf (d.issued + 1)] }

/-- What a step of a task of the service does. -/
inductive Turn (d : Desk) : Work → Desk → Directive Work Run.Report → Prop
  | answers {command rest answer directive} : Answers d command answer → GoesOn rest directive →
    Turn d (.client (command :: rest)) (d.answer answer) directive
  | cancels {id rest s} : d.onRecord? id = some s →
    Turn d (.client (.cancel id :: rest)) ((d.update id Session.cancel).answer (.cancelling id))
      (.proceed (.client rest))
  | runs {r rest g} : Graph.ofDocument r.flow = .ok g →
    Turn d (.client (.run r :: rest)) (d.openSession g r).2.2
      (.proceed (.foreground (Desk.idOf (d.issued + 1))
        (Run.firstStrand g (d.givenFor (Desk.idOf (d.issued + 1)) r)) rest))
  | starts {r rest g} : Graph.ofDocument r.flow = .ok g →
    Turn d (.client (.start r :: rest))
      ((d.enlist g r).answer (.started (Desk.idOf (d.issued + 1))))
      (.spawn (.background (Desk.idOf (d.issued + 1))
        (Run.firstStrand g (d.givenFor (Desk.idOf (d.issued + 1)) r))) (.client rest))
  | shutsDown : Turn d (.client []) d.cancelPending (.finish .empty)
  /-- A strand takes a step and is not at its end. -/
  | works {w id s shared directive} : w.run? = some id → d.sessions.get? id = some s →
    Run.step s.setup (d.stateOf s) w.strand = (shared, directive) →
    (∀ report, directive ≠ .finish report) → Turn d w (d.sharing id shared) (w.carry id directive)
  /-- A branch comes to its end. -/
  | reports {id strand s shared report} : d.sessions.get? id = some s →
    Run.step s.setup (d.stateOf s) strand = (shared, .finish report) →
    Turn d (.branch id strand) (d.sharing id shared) (.finish report)
  /-- A background run comes to its end. -/
  | ends {id strand s shared report} : d.sessions.get? id = some s →
    Run.step s.setup (d.stateOf s) strand = (shared, .finish report) →
    Turn d (.background id strand) ((d.sharing id shared).close id report) (.finish report)
  /-- A run that the client waits for comes to its end. -/
  | returns {id strand rest s shared report} : d.sessions.get? id = some s →
    Run.step s.setup (d.stateOf s) strand = (shared, .finish report) →
    Turn d (.foreground id strand rest)
      (((d.sharing id shared).close id report).answer
        (.ran (.of id s.setup.graph shared.journal report)))
      (.proceed (.client rest))

theorem turn_serve (d : Desk) (command : Command) (rest : List Command) :
    Turn d (.client (command :: rest)) (serve d command rest).1 (serve d command rest).2 := by
  cases command with
  | health => exact .answers .health .proceed
  | validate flow => exact .answers .validate .proceed
  | malformed errors => exact .answers .malformed .proceed
  | get id =>
    rcases h : d.onRecord? id with - | s
    · simpa [serve, withRecord, h] using Turn.answers (.unknown h) .proceed
    · simpa [serve, withRecord, h] using Turn.answers (.get h) .proceed
  | cancel id =>
    rcases h : d.onRecord? id with - | s
    · simpa [serve, withRecord, h] using Turn.answers (.cancelUnknown h) .proceed
    · simpa [serve, withRecord, h] using Turn.cancels h
  | wait seconds =>
    rcases h : microsecondsOf seconds with fault | microseconds
    · simpa [serve, h] using Turn.answers (.waitTooLong h) .proceed
    · by_cases hlong : (Binary64.zero false).lt seconds = true
      · simpa [serve, h, hlong] using Turn.answers (.waited h) .sleep
      · simpa [serve, h, hlong] using Turn.answers (.waited h) .pause
  | run r =>
    rcases h : Graph.ofDocument r.flow with problems | g
    · simpa [serve, withGraph, h] using Turn.answers (.runInvalid h) .proceed
    · simp only [serve, withGraph, h]
      exact .runs h
  | start r =>
    rcases h : Graph.ofDocument r.flow with problems | g
    · simpa [serve, withGraph, h] using Turn.answers (.startInvalid h) .proceed
    · simp only [serve, withGraph, h]
      exact .starts h

/-- The step of a strand, as the service takes it. -/
theorem stepRun_eq {d : Desk} {id : String} {s : Session} (hs : d.sessions.get? id = some s)
    (strand : Run.Strand) : stepRun d id strand
      = (d.sharing id (Run.step s.setup (d.stateOf s) strand).1,
        (Run.step s.setup (d.stateOf s) strand).2) := by
  unfold stepRun
  rw [hs]
  rfl

/-- The step of a strand is a turn of its task, if its end is one. -/
theorem turn_carried {d : Desk} {w : Work} {id : String} {s : Session} (hid : w.run? = some id)
    (hs : d.sessions.get? id = some s) {shared : Run.State}
    {directive : Directive Run.Strand Run.Report}
    (hstep : Run.step s.setup (d.stateOf s) w.strand = (shared, directive))
    {atEnd : Run.Report → Desk × Directive Work Run.Report}
    (hend : ∀ report, directive = .finish report → Turn d w (atEnd report).1 (atEnd report).2) :
    Turn d w (carried w.withStrand id (d.sharing id shared) atEnd directive).1
      (carried w.withStrand id (d.sharing id shared) atEnd directive).2 := by
  cases directive with
  | finish report => exact hend report rfl
  | _ => exact .works hid hs hstep (by simp)

/-- Every step of a task is a turn, if the run that it carries out is there. -/
theorem turn_step (d : Desk) (w : Work)
    (hthere : ∀ id, w.run? = some id → ∃ s, d.sessions.get? id = some s) :
    Turn d w (step d w).1 (step d w).2 := by
  cases w with
  | client commands =>
    cases commands with
    | nil => exact .shutsDown
    | cons command rest => exact turn_serve d command rest
  | foreground id strand rest =>
    obtain ⟨s, hs⟩ := hthere id rfl
    rcases hstep : Run.step s.setup (d.stateOf s) strand with ⟨shared, directive⟩
    simp only [step, stepRun_eq hs, hstep]
    refine turn_carried (w := .foreground id strand rest) rfl hs hstep fun report h => ?_
    rw [h] at hstep
    have hreturns : Turn d (.foreground id strand rest) _ _ := .returns hs hstep
    simpa [closeForeground, Desk.get?_close, Desk.get?_sharing, hs, Session.close]
      using hreturns
  | background id strand =>
    obtain ⟨s, hs⟩ := hthere id rfl
    rcases hstep : Run.step s.setup (d.stateOf s) strand with ⟨shared, directive⟩
    simp only [step, stepRun_eq hs, hstep]
    refine turn_carried (w := .background id strand) rfl hs hstep fun report h => ?_
    rw [h] at hstep
    exact .ends hs hstep
  | branch id strand =>
    obtain ⟨s, hs⟩ := hthere id rfl
    rcases hstep : Run.step s.setup (d.stateOf s) strand with ⟨shared, directive⟩
    simp only [step, stepRun_eq hs, hstep]
    refine turn_carried (w := .branch id strand) rfl hs hstep fun report h => ?_
    rw [h] at hstep
    exact .reports hs hstep

/-! ### What a turn does to a run -/

theorem Desk.idOf_inj {m n : ℕ} (h : Desk.idOf m = Desk.idOf n) : m = n :=
  Decimal.append_repr_injective "run-" h

/-- Ids are given out in order, each to one session; what is on record has a session, and
stands in the order of the ids. -/
structure Desk.Sound (d : Desk) : Prop where
  keys : d.sessions.keys = (List.range' 1 d.issued).map Desk.idOf
  recorded : ∃ ns : List ℕ, d.records = ns.map Desk.idOf ∧ ns.Pairwise (· < ·) ∧
    ∀ n ∈ ns, 1 ≤ n ∧ n ≤ d.issued

section Sound

variable {d : Desk}

theorem Desk.sound_new (settings : Settings) (registry : Registry) (now : Moment)
    (surroundings : Fields Value) (secretStore : SecretStore) (world : World) :
    (Desk.new settings registry now surroundings secretStore world).Sound :=
  ⟨rfl, [], rfl, .nil, by simp⟩

theorem Desk.Sound.mem_keys (h : d.Sound) {n : ℕ} :
    Desk.idOf n ∈ d.sessions.keys ↔ 1 ≤ n ∧ n ≤ d.issued := by
  rw [h.keys]
  simp only [List.mem_map, List.mem_range'_1]
  constructor
  · rintro ⟨m, hm, heq⟩
    obtain rfl := Desk.idOf_inj heq
    omega
  · exact fun hn => ⟨n, by omega, rfl⟩

/-- The next id has no session. -/
theorem Desk.Sound.fresh (h : d.Sound) : d.sessions.get? (Desk.idOf (d.issued + 1)) = none := by
  rcases hget : d.sessions.get? (Desk.idOf (d.issued + 1)) with - | s
  · rfl
  · have := h.mem_keys.mp (Fields.mem_keys_iff.mpr ⟨s, hget⟩)
    omega

theorem Desk.Sound.nodup (h : d.Sound) : d.records.Nodup := by
  obtain ⟨ns, hns, hsorted, -⟩ := h.recorded
  rw [hns]
  exact (hsorted.imp Nat.ne_of_lt).map _ fun _ _ hne heq => hne (Desk.idOf_inj heq)

theorem Desk.Sound.exists_session (h : d.Sound) {id : String} (hid : id ∈ d.records) :
    ∃ s, d.sessions.get? id = some s := by
  obtain ⟨ns, hns, -, hbounds⟩ := h.recorded
  rw [hns] at hid
  obtain ⟨n, hn, rfl⟩ := List.mem_map.mp hid
  exact Fields.mem_keys_iff.mp (h.mem_keys.mpr (hbounds n hn))

theorem Desk.dropFirst_sublist (p : String → Bool) (count : ℕ) (ids : List String) :
    (Desk.dropFirst p count ids).Sublist ids := by
  induction ids generalizing count with
  | nil => cases count <;> exact .slnil
  | cons id ids ih =>
    cases count with
    | zero => exact .refl _
    | succ count =>
      unfold Desk.dropFirst
      split
      · exact (ih count).cons id
      · exact (ih (count + 1)).cons_cons id

/-- Opening a session gives out the next id. -/
theorem Desk.Sound.openSession (h : d.Sound) (g : Graph) (r : RunRequest) :
    (d.openSession g r).2.2.Sound where
  keys := by
    have hnew : Desk.idOf (d.issued + 1) ∉ d.sessions.keys := by
      rw [h.mem_keys]
      omega
    show Fields.keys (Fields.set _ _ _) = (List.range' 1 (d.issued + 1)).map Desk.idOf
    rw [Fields.keys_set, if_neg hnew, h.keys, List.range'_concat, List.map_append]
    simp [Nat.add_comm]
  recorded := by
    obtain ⟨ns, hns, hsorted, hbounds⟩ := h.recorded
    exact ⟨ns, hns, hsorted, fun n hn =>
      ⟨(hbounds n hn).1, Nat.le_succ_of_le (hbounds n hn).2⟩⟩

theorem Desk.Sound.prune (h : d.Sound) : d.prune.Sound where
  keys := h.keys
  recorded := by
    obtain ⟨ns, hns, hsorted, hbounds⟩ := h.recorded
    have hsub := Desk.dropFirst_sublist d.hasFinished
      (((d.records.filter d.hasFinished).length : Int) - d.settings.keptRuns).toNat d.records
    conv at hsub => rhs; rw [hns]
    obtain ⟨ms, hms, heq⟩ := List.sublist_map_iff.mp hsub
    exact ⟨ms, heq, hsorted.sublist hms, fun n hn => hbounds n (hms.subset hn)⟩

theorem Desk.Sound.enlist (h : d.Sound) (g : Graph) (r : RunRequest) : (d.enlist g r).Sound where
  keys := (h.prune.openSession g r).keys
  recorded := by
    obtain ⟨ns, hns, hsorted, hbounds⟩ := h.prune.recorded
    refine ⟨ns ++ [d.issued + 1], ?_, ?_, ?_⟩
    · show d.prune.records ++ [_] = _
      rw [hns, List.map_append]
      rfl
    · refine List.pairwise_append.mpr ⟨hsorted, List.pairwise_singleton .., fun m hm n hn => ?_⟩
      obtain rfl := List.mem_singleton.mp hn
      exact Nat.lt_succ_of_le (hbounds m hm).2
    · intro n hn
      rcases List.mem_append.mp hn with hn | hn
      · exact ⟨(hbounds n hn).1, Nat.le_succ_of_le (hbounds n hn).2⟩
      · obtain rfl := List.mem_singleton.mp hn
        exact ⟨Nat.le_add_left 1 _, Nat.le_refl _⟩

/-- Sessions may change as long as they stay there. -/
theorem Desk.Sound.congr {e : Desk} (h : d.Sound) (hkeys : e.sessions.keys = d.sessions.keys)
    (hrecords : e.records = d.records) (hissued : e.issued = d.issued) : e.Sound := by
  obtain ⟨hk, hr⟩ := h
  rw [← hkeys, ← hissued] at hk
  rw [← hrecords, ← hissued] at hr
  exact ⟨hk, hr⟩

end Sound

/-- What becomes of the session of one run in a turn of a task. -/
inductive Fate (d : Desk) (w : Work) (i : String) : Option Session → Option Session → Prop
  | left {session} : w.run? ≠ some i → Fate d w i session session
  | cancelled {s} : w.run? = none → Fate d w i (some s) (some s.cancel)
  | opened {g r} : w.run? = none → i = Desk.idOf (d.issued + 1) →
    Fate d w i none (some ⟨d.setupFor g, [], (d.givenFor i r).vault, none⟩)
  | worked {s shared directive} : w.run? = some i →
    Run.step s.setup (d.stateOf s) w.strand = (shared, directive) →
    Fate d w i (some s) (some { s with journal := shared.journal, vault := shared.vault })
  | closed {s shared report} : w.run? = some i → ¬ w.IsBranch →
    Run.step s.setup (d.stateOf s) w.strand = (shared, .finish report) →
    Fate d w i (some s)
      (some (Session.close { s with journal := shared.journal, vault := shared.vault } i report))

section

variable {d d' : Desk} {w : Work} {directive : Directive Work Run.Report}

theorem Turn.sound (h : Turn d w d' directive) (hd : d.Sound) : d'.Sound := by
  cases h with
  | runs => exact hd.openSession _ _
  | starts => exact (hd.enlist _ _).congr rfl rfl rfl
  | _ => exact hd.congr (by simp) (by simp) (by simp)

theorem Turn.terms_eq (h : Turn d w d' directive) : d'.terms = d.terms := by
  cases h with
  | runs => rfl
  | starts => rfl
  | _ => simp

/-- Ids are given out to those who ask for a run, and to nobody else. -/
theorem Turn.issued_eq (h : Turn d w d' directive)
    (hnew : ∀ r rest, w ≠ .client (.run r :: rest) ∧ w ≠ .client (.start r :: rest)) :
    d'.issued = d.issued := by
  cases h with
  | runs => exact absurd rfl (hnew _ _).1
  | starts => exact absurd rfl (hnew _ _).2
  | _ => simp

theorem fate_openSession (hd : d.Sound) (hw : w.run? = none) (g : Graph) (r : RunRequest)
    (i : String) :
    Fate d w i (d.sessions.get? i) ((d.openSession g r).2.2.sessions.get? i) := by
  show Fate d w i _ (Fields.get? (Fields.set _ _ _) i)
  rw [Fields.get?_set]
  split
  · next hi =>
    rw [hi, hd.fresh]
    exact .opened hw rfl
  · exact .left (by simp [hw])

/-- A strand changes the session of its run alone. -/
theorem fate_ite {id : String} {s : Session} {f : Session → Session} (hid : w.run? = some id)
    (hs : d.sessions.get? id = some s) (hfate : Fate d w id (some s) (some (f s))) (i : String) :
    Fate d w i (d.sessions.get? i)
      (if i = id then (d.sessions.get? i).map f else d.sessions.get? i) := by
  split
  · next hi =>
    rw [hi, hs]
    exact hfate
  · next hi => exact .left fun h => hi (Option.some.inj (h.symm.trans hid))

/-- A client cancels some runs, and no others. -/
theorem fate_cancel_ite (hw : w.run? = none) (i : String) (c : Prop) [Decidable c] :
    Fate d w i (d.sessions.get? i)
      (if c then (d.sessions.get? i).map Session.cancel else d.sessions.get? i) := by
  split
  · rcases d.sessions.get? i with - | s
    · exact .left (by simp [hw])
    · exact .cancelled hw
  · exact .left (by simp [hw])

/-- What becomes of each run in a turn. -/
theorem Turn.fate (h : Turn d w d' directive) (hd : d.Sound) (i : String) :
    Fate d w i (d.sessions.get? i) (d'.sessions.get? i) := by
  cases h with
  | answers => exact .left (by simp [Work.run?])
  | cancels =>
    rw [Desk.sessions_answer, Desk.get?_update]
    exact fate_cancel_ite rfl i _
  | runs => exact fate_openSession hd rfl _ _ i
  | starts => exact fate_openSession hd rfl _ _ i
  | shutsDown =>
    rw [Desk.get?_cancelPending d hd.nodup]
    exact fate_cancel_ite rfl i _
  | works hid hs hstep =>
    rw [Desk.get?_sharing]
    exact fate_ite hid hs (.worked hid hstep) i
  | reports hs hstep =>
    rw [Desk.get?_sharing]
    exact fate_ite rfl hs (.worked rfl hstep) i
  | ends hs hstep =>
    rw [Desk.get?_close_sharing]
    exact fate_ite rfl hs (.closed rfl (by simp [Work.IsBranch]) hstep) i
  | returns hs hstep =>
    rw [Desk.sessions_answer, Desk.get?_close_sharing]
    exact fate_ite rfl hs (.closed rfl (by simp [Work.IsBranch]) hstep) i

/-- A run that is there stays there. -/
theorem Turn.session (h : Turn d w d' directive) (hd : d.Sound) {id : String} {s : Session}
    (hs : d.sessions.get? id = some s) :
    ∃ s', d'.sessions.get? id = some s' ∧ Fate d w id (some s) (some s') := by
  have hfate := h.fate hd id
  rw [hs] at hfate
  rcases hs' : d'.sessions.get? id with - | s' <;> rw [hs'] at hfate
  · cases hfate
  · exact ⟨s', rfl, hfate⟩

theorem Turn.world_eq (h : Turn d w d' directive) {id : String} {s : Session}
    (hid : w.run? = some id) (hs : d.sessions.get? id = some s) :
    d'.world = (Run.step s.setup (d.stateOf s) w.strand).1.world := by
  cases h with
  | answers | cancels | runs | starts | shutsDown => cases hid
  | works hi hr hstep =>
    obtain rfl := Option.some.inj (hi.symm.trans hid)
    obtain rfl := Option.some.inj (hr.symm.trans hs)
    exact (congrArg (fun result => result.1.world) hstep).symm
  | reports hr hstep =>
    obtain rfl := Option.some.inj hid
    obtain rfl := Option.some.inj (hr.symm.trans hs)
    exact (congrArg (fun result => result.1.world) hstep).symm
  | ends hr hstep | returns hr hstep =>
    obtain rfl := Option.some.inj hid
    obtain rfl := Option.some.inj (hr.symm.trans hs)
    exact Desk.world_close.trans (congrArg (fun result => result.1.world) hstep).symm

/-- What a run shares after a step of one of its own strands is what the step has left. -/
theorem Turn.own (h : Turn d w d' directive) (hd : d.Sound) {id : String} {s : Session}
    (hid : w.run? = some id) (hs : d.sessions.get? id = some s) :
    ∃ s', d'.sessions.get? id = some s' ∧ s'.setup = s.setup ∧
      d'.stateOf s' = (Run.step s.setup (d.stateOf s) w.strand).1 := by
  have hworld := h.world_eq hid hs
  obtain ⟨s', hs', hfate⟩ := h.session hd hs
  cases hfate with
  | left hnot => exact absurd hid hnot
  | cancelled hnone => rw [hnone] at hid; cases hid
  | worked _ hstep =>
    rw [hstep] at hworld ⊢
    exact ⟨_, hs', rfl, by rw [Desk.stateOf, hworld]⟩
  | closed _ _ hstep =>
    rw [hstep] at hworld ⊢
    exact ⟨_, hs', rfl, by rw [Desk.stateOf, hworld]; rfl⟩

/-- What becomes of a run in a step of another one, or of the client, is to the run something that
happens outside. -/
theorem Turn.other (h : Turn d w d' directive) (hd : d.Sound) {id : String} {s : Session}
    (hid : w.run? ≠ some id) (hs : d.sessions.get? id = some s) :
    ∃ s', d'.sessions.get? id = some s' ∧ s'.setup = s.setup ∧ s'.outcome = s.outcome ∧
      Run.Disturbs (d.stateOf s) (d'.stateOf s') := by
  obtain ⟨s', hs', hfate⟩ := h.session hd hs
  cases hfate with
  | left => exact ⟨_, hs', rfl, rfl, .inl rfl⟩
  | cancelled => exact ⟨_, hs', rfl, rfl, .inr rfl⟩
  | worked hown | closed hown => exact absurd hown hid

/-- A run that was not there before has just been opened. -/
theorem Turn.fresh (h : Turn d w d' directive) (hd : d.Sound) {id : String} {s : Session}
    (hnone : d.sessions.get? id = none) (hs : d'.sessions.get? id = some s) :
    ∃ g r, w.run? = none ∧ id = Desk.idOf (d.issued + 1) ∧
      s = ⟨d.setupFor g, [], (d.givenFor id r).vault, none⟩ := by
  have hfate := h.fate hd id
  rw [hnone, hs] at hfate
  cases hfate with
  | opened hw hid => exact ⟨_, _, hw, hid, rfl⟩

end

end Automation.Service
