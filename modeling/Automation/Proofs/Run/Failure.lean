/-
Automation/Proofs/Run/Failure.lean

When a loop fails, and when a run does.

A node that stopped an iteration of a loop is told of by a report in that iteration, or by a
lap of the loop, until the loop has failed (`told_of_iteration`).  With reports and laps that
tell of nothing that did not happen this makes the failure of a loop exact: a loop with a
plan fails if it is to stop on failures and a node has stopped one of its iterations, and
else only at a rest between two batches that no clock can tell (`fails_iff_stopped`).
-/
import Automation.Proofs.Run.Stopping

namespace Automation.Run

open Automation.Schedule (Occupant Pool Task)

variable {setup : Setup}

/-! ### Loops with a plan -/

/-- A loop node fails if its loop does. -/
theorem error_of_report (report : Loop.Report) :
    (Verdict.of (.ok (.object report.toFields))).error.isSome ↔ report.success = false := by
  show (Verdict.statedError (.object report.toFields)).isSome ↔ _
  have hfield : (Value.object report.toFields).field "success" = .bool report.success := rfl
  unfold Verdict.statedError
  rw [hfield]
  rcases report.success with - | - <;> simp

/-- What was taken in an iteration of a loop was taken after the loop was begun. -/
theorem invoked_of_claimed {j : Journal} (hj : j.Always (Fits setup)) {outer : Scope}
    {loop node : String} {i : Int} (hmem : .claimed (outer ++ [(loop, i)]) node ∈ j) :
    .reached outer loop .invoking ∈ j := by
  -- by induction on the journal: the first node that was taken was an entry of the iteration
  induction j generalizing node with
  | nil => cases hmem
  | cons e past ih =>
    have hpast : ∀ {m}, .claimed (outer ++ [(loop, i)]) m ∈ past → .reached outer loop .invoking ∈ past :=
      fun hmem => ih hj.2 hmem
    refine List.mem_cons_of_mem _ ?_
    rcases List.mem_cons.mp hmem with rfl | hold
    swap
    · exact hpast hold
    obtain ⟨-, -, hjustified⟩ : Fits setup (.claimed (outer ++ [(loop, i)]) node) past := hj.1
    generalize hscope : outer ++ [(loop, i)] = scope at hjustified hpast
    cases hjustified with
    | start => simp at hscope
    | body _ _ hinvoked _ =>
      obtain ⟨rfl, heq⟩ := List.append_inj' hscope rfl
      obtain ⟨rfl, -⟩ : loop = _ ∧ i = _ := by simpa using heq
      exact hinvoked
    | passed _ _ hclaimed _ _ => exact hpast hclaimed
    | followed _ hended _ _ _ => exact hpast (claimed_of_ended hj.2 hended)

section Loops

variable {outer : Scope} {loop : String} {plan : Loop.Plan}

/-- Why a loop with a plan fails with an outcome: it is to stop on failures and a node has
stopped one of its iterations, or it was to rest for longer than any clock can tell. -/
def Reason (setup : Setup) (j : Journal) (outer : Scope) (loop : String) (plan : Loop.Plan)
    (outcome : Except Fault Value) : Prop :=
  (plan.settings.stopsOnFailure = true ∧ ∃ i : Int, Stopped setup j (outer ++ [(loop, i)])) ∨
    ∃ fault, TooLong plan.settings.delayMs fault ∧ outcome = .error fault

theorem Reason.adding {j : Journal} {outcome : Except Fault Value}
    (h : Reason setup j outer loop plan outcome) (events : List Event) :
    Reason setup (j.adding events) outer loop plan outcome := by
  rcases h with ⟨hstops, i, hstopped⟩ | hlong
  · exact .inl ⟨hstops, i, hstopped.adding events⟩
  · exact .inr hlong

/-- The state of a branch that is not at its end. -/
def stateAt : Occupant Strand Report → Option Strand
  | .live a => some a
  | .waiting a => some a
  | .ended _ => none

/-- A branch that carries out a loop does so by its plan, and if it is about to end the loop
as failed there is a reason for that. -/
def ByPlan (setup : Setup) (j : Journal) (outer : Scope) (loop : String) (plan : Loop.Plan) :
    Strand → Prop
  | .turn _ course _ => course.plan = plan
  | .gather _ course _ => course.plan = plan
  | .settle _ course _ _ => course.plan = plan
  | .act _ activity _ => ∃ outcome, activity = .finish outcome ∧
    ((Verdict.of outcome).error.isSome → Reason setup j outer loop plan outcome)
  | _ => True

theorem ByPlan.adding {j : Journal} {a : Strand} (h : ByPlan setup j outer loop plan a)
    (events : List Event) : ByPlan setup (j.adding events) outer loop plan a := by
  cases a with
  | act n activity b =>
    obtain ⟨outcome, hactivity, hreason⟩ := h
    exact ⟨outcome, hactivity, fun herror => (hreason herror).adding events⟩
  | _ => exact h

/-- What is in a scope is sound, and if the loop is carried out there that is by its plan. -/
structure Planned (setup : Setup) (outer : Scope) (loop : String) (plan : Loop.Plan)
    (j : Journal) (scope : Scope) (x : Occupant Strand Report) : Prop where
  sound : Sound setup j scope x
  plan : ∀ a, stateAt x = some a → executing a = some (outer, loop) →
    ByPlan setup j outer loop plan a

/-- The loop was taken, and if it has failed there was a reason for that. -/
structure Reasoned (setup : Setup) (outer : Scope) (loop : String) (plan : Loop.Plan)
    (j : Journal) : Prop where
  fits : j.Always (Fits setup)
  claimed : .claimed outer loop ∈ j
  reason : ∀ outcome, .ended outer loop outcome ∈ j → (Verdict.of outcome).error.isSome →
    Reason setup j outer loop plan outcome

/-- A branch that goes on is all that is left in its place. -/
theorem eq_of_mem_placed_live {scope : Scope} {next b : Strand}
    {x : Scope × Occupant Strand Report}
    (hx : x ∈ (Task.live next : Task Strand Report).placed within scope)
    (hb : stateAt x.2 = some b) : b = next := by
  obtain rfl := List.mem_singleton.mp hx
  exact (Option.some.inj hb).symm

/-- A loop that ends after a batch as failed is to stop on failures, and one of its iterations
was stopped. -/
theorem reason_of_turn {j : Journal} {scope : Scope} {n : Node} {course : Loop.Course}
    {batch : List Loop.Lap} {b : Branch} {report : Loop.Report}
    (ha : Planned setup outer loop plan j scope (.live (.settle n course batch b)))
    (hexec : executing (.settle n course batch b) = some (outer, loop))
    (hturn : course.turn batch = .finish report)
    (herror : (Verdict.of (.ok (.object report.toFields))).error.isSome) :
    Reason setup j outer loop plan (.ok (.object report.toFields)) := by
  obtain rfl : course.plan = plan := ha.plan _ rfl hexec
  obtain ⟨hstops, lap, hlap, haborted⟩ :=
    Loop.Course.aborted_of_turn hturn ((error_of_report report).mp herror)
  obtain ⟨-, i, hstopped⟩ :=
    ha.sound.laps (n.id, lap) (List.mem_map.mpr ⟨lap, hlap, rfl⟩) haborted
  obtain ⟨rfl, rfl⟩ := Prod.mk.inj (Option.some.inj hexec)
  obtain rfl : b.view.scope = scope := ha.sound.located.2 _ rfl
  exact .inl ⟨hstops, i, hstopped⟩

/-- Whoever carries out the loop after a deed did so before, by its plan. -/
theorem Deed.byPlan {j : Journal} {a : Strand} {events : List Event} {task : Task Strand Report}
    (h : Deed setup j a events task) {scope : Scope} (hclaimed : .claimed outer loop ∈ j)
    (ha : Planned setup outer loop plan j scope (.live a)) :
    ∀ x ∈ task.placed within scope, ∀ b, stateAt x.2 = some b →
      executing b = some (outer, loop) → ByPlan setup (j.adding events) outer loop plan b := by
  intro x hx c hc hexec
  have hbefore := ha.plan a rfl
  cases h with
  | turnBack | repeated | abort | stop | merge | close =>
    obtain rfl := List.mem_singleton.mp hx
    cases hc
  | @start id b n opening next htakes _ hopening =>
    -- a loop that was taken is not begun again
    obtain rfl := eq_of_mem_placed_live hx hc
    obtain rfl := Graph.id_of_node? htakes.node
    obtain ⟨rfl, rfl⟩ := Prod.mk.inj (Option.some.inj (hopening.executing.symm.trans hexec))
    have hfresh := htakes.claimed
    rw [Journal.hasClaimed_iff.mpr hclaimed] at hfresh
    cases hfresh
  | work hnext =>
    obtain rfl := eq_of_mem_placed_live hx hc
    obtain ⟨outcome, rfl, -⟩ := hbefore hexec
    cases hnext
  | cancel | oversleep =>
    obtain rfl := eq_of_mem_placed_live hx hc
    obtain ⟨outcome, heq, -⟩ := hbefore hexec
    cases heq
  | wind hmove =>
    obtain rfl := eq_of_mem_placed_live hx hc
    refine ⟨_, rfl, fun herror => ?_⟩
    have hfailed := (error_of_report _).mp herror
    rw [(Loop.Course.report_of_move hmove).2] at hfailed
    cases hfailed
  | idle =>
    obtain rfl := eq_of_mem_placed_live hx hc
    refine ⟨_, rfl, fun herror => ?_⟩
    have hfailed := (error_of_report _).mp herror
    cases hfailed
  | @conclude n course batch b report hturn =>
    obtain rfl := eq_of_mem_placed_live hx hc
    exact ⟨_, rfl, reason_of_turn ha hexec hturn⟩
  | overrest hturn hlong =>
    obtain rfl := eq_of_mem_placed_live hx hc
    obtain rfl : _ = plan := hbefore hexec
    rw [Loop.Course.rest_of_turn hturn] at hlong
    exact ⟨_, rfl, fun _ => .inr ⟨_, hlong, rfl⟩⟩
  | again =>
    obtain rfl := eq_of_mem_placed_live hx hc
    exact hbefore hexec
  | batch =>
    rcases mem_placed_batch hx with rfl | ⟨i, -, rfl⟩
    · obtain rfl := Option.some.inj hc
      exact hbefore hexec
    · obtain rfl := Option.some.inj hc
      cases hexec
  | fan =>
    rcases mem_placed_fan hx with rfl | ⟨target, -, rfl⟩ <;>
    · obtain rfl := Option.some.inj hc
      cases hexec
  | _ =>
    obtain rfl := eq_of_mem_placed_live hx hc
    cases hexec

/-- A loop that fails does so for a reason. -/
theorem Deed.reasoned {j : Journal} {a : Strand} {events : List Event}
    {task : Task Strand Report} (h : Deed setup j a events task) {scope : Scope}
    (hj : Reasoned setup outer loop plan j)
    (ha : Planned setup outer loop plan j scope (.live a)) :
    Reasoned setup outer loop plan (j.adding events) := by
  refine ⟨h.fits hj.fits ha.sound.located.1, by simp [hj.claimed], fun outcome hended herror => ?_⟩
  rcases Journal.mem_adding.mp hended with hnew | hold
  swap
  · exact (hj.reason outcome hold herror).adding events
  obtain ⟨n, b, rfl, rfl, rfl, -⟩ := h.ended_cases hnew
  obtain ⟨outcome', heq, hreason⟩ := ha.plan _ rfl rfl
  obtain rfl : outcome = outcome' := Activity.finish.inj heq
  exact (hreason herror).adding events

theorem planned_kept : Pool.KeptAt (program setup) Disturbs within []
    (fun s => Reasoned setup outer loop plan s.journal)
    (fun s => Planned setup outer loop plan s.journal) := by
  refine keptAt_of_deeds (J := Reasoned setup outer loop plan) (K := Planned setup outer loop plan)
    (fun hj ha h => h.reasoned hj ha)
    (fun hj ha h x hx => ⟨h.sound ha.sound x hx, h.byPlan hj.claimed ha x hx⟩) ?_ ?_
    (fun events hx => ⟨hx.sound.adding events,
      fun a ha hexec => (hx.plan a ha hexec).adding events⟩)
  · intro j scope a reports _ ha hreports
    refine ⟨ha.sound.rejoin fun k r hr => (hreports k r hr).sound, fun b hb hexec => ?_⟩
    obtain rfl := Option.some.inj hb
    cases a with
    | merge report => cases hexec
    | gather n course b => exact ha.plan (.gather n course b) rfl hexec
    | _ => exact ha.sound.located.1.elim
  · intro j hj
    refine ⟨⟨trivial, hj.fits⟩, by simp [hj.claimed], fun outcome hended herror => ?_⟩
    exact (hj.reason outcome (by simpa using hended) herror).adding _

/-- The loop is about to fail: it takes in a batch with an aborted failure, or leaves an
error. -/
def Doomed (loop : String) : Occupant Strand Report → Prop
  | .live (.settle n _ batch _) =>
    n.id = loop ∧ ∃ lap ∈ batch, lap.aborted = true ∧ lap.success = false
  | .live (.act n (.finish outcome) _) => n.id = loop ∧ (Verdict.of outcome).error.isSome
  | _ => False

/-- A loop that is about to fail fails, if it is to stop on failures. -/
theorem Deed.doomed_handed {j : Journal} {a : Strand} {events : List Event}
    {task : Task Strand Report} (h : Deed setup j a events task)
    (hstops : plan.settings.stopsOnFailure = true)
    (ha : Planned setup outer loop plan j outer (.live a)) (hdoomed : Doomed loop (.live a)) :
    Failed (j.adding events) outer loop ∨
      ∃ x ∈ task.placed within outer, x.1 = outer ∧ Doomed loop x.2 := by
  have hscope := ha.sound.located.2
  cases h with
  | @leave n outcome b _ | @abort n outcome b _ =>
    obtain ⟨rfl, herror⟩ := hdoomed
    obtain ⟨message, hmessage⟩ := Option.isSome_iff_exists.mp herror
    obtain rfl : b.view.scope = outer := hscope _ rfl
    exact .inl ⟨message, by simp [hmessage]⟩
  | work hnext => cases hnext <;> exact hdoomed.elim
  | @conclude n course batch b report hturn =>
    obtain ⟨rfl, lap, hlap, haborted, hfailed⟩ := hdoomed
    obtain rfl : b.view.scope = outer := hscope _ rfl
    obtain rfl : course.plan = plan := ha.plan _ rfl rfl
    obtain ⟨report', hturn', hsuccess⟩ :=
      Loop.Course.turn_of_aborted hstops hlap haborted hfailed
    obtain rfl := Loop.Turn.finish.inj (hturn.symm.trans hturn')
    exact .inr ⟨_, List.mem_singleton_self _, rfl, rfl, (error_of_report report).mpr hsuccess⟩
  | @again n course batch b hgoes =>
    obtain ⟨rfl, lap, hlap, haborted, hfailed⟩ := hdoomed
    obtain rfl : b.view.scope = outer := hscope _ rfl
    obtain rfl : course.plan = plan := ha.plan _ rfl rfl
    obtain ⟨report, hturn, -⟩ := Loop.Course.turn_of_aborted hstops hlap haborted hfailed
    exact absurd hturn (hgoes report)
  | @overrest n course batch b milliseconds fault hturn _ =>
    obtain ⟨rfl, lap, hlap, haborted, hfailed⟩ := hdoomed
    obtain rfl : b.view.scope = outer := hscope _ rfl
    obtain rfl : course.plan = plan := ha.plan _ rfl rfl
    obtain ⟨report, hturn', -⟩ := Loop.Course.turn_of_aborted hstops hlap haborted hfailed
    cases hturn.symm.trans hturn'
  | _ => exact hdoomed.elim

/-- A node that stopped an iteration of the loop is told of: by a report of the iteration, by
a lap that the loop takes in, or by the failure of the loop. -/
theorem told_of_iteration (hstops : plan.settings.stopsOnFailure = true) :
    Pool.HonouredAt (program setup) Disturbs within []
      (fun s => Reasoned setup outer loop plan s.journal)
      (fun s => Planned setup outer loop plan s.journal)
      (fun s (i : Int) => Stopped setup s.journal (outer ++ [(loop, i)]))
      (fun s _ => Failed s.journal outer loop)
      (fun scope x i => scope = outer ++ [(loop, i)] ∧ (reported x).aborted = true ∨
        scope = outer ∧ Doomed loop x) := by
  refine honouredAt_of_deeds (J := Reasoned setup outer loop plan)
    (K := Planned setup outer loop plan) (fun j (i : Int) => Stopped setup j (outer ++ [(loop, i)]))
    (fun j _ => Failed j outer loop) _ (fun events h => h.adding events) ?_ ?_ ?_
    (fun h => h.of_cancelled)
  · rintro j scope a events task i - ha h (⟨rfl, haborted⟩ | ⟨rfl, hdoomed⟩)
    · obtain ⟨x, hx, htold⟩ := h.aborted_handed _ haborted
      exact .inr ⟨x, hx, .inl htold⟩
    · rcases h.doomed_handed hstops ha hdoomed with hfailed | ⟨x, hx, htold⟩
      · exact .inl hfailed
      · exact .inr ⟨x, hx, .inr htold⟩
  · intro j scope a events task i _ ha h hdue
    rcases h.stopped_fresh ha.sound.located hdue with hold | ⟨x, hx, htold⟩
    · exact .inl hold
    · exact .inr (.inr ⟨x, hx, .inl htold⟩)
  · intro j scope a reports i _ ha hreports howes
    refine .inr ?_
    rcases howes with (⟨rfl, haborted⟩ | ⟨rfl, hdoomed⟩) | ⟨k, r, hk, hfork⟩
    · exact .inl ⟨rfl, aborted_rejoin haborted reports⟩
    · exact hdoomed.elim
    rcases hfork with ⟨hscope, haborted⟩ | ⟨-, hdoomed⟩
    swap
    · exact hdoomed.elim
    cases a with
    | merge report =>
      exact .inl ⟨hscope, aborted_foldl (.inr ⟨r, List.mem_of_getElem? hk, haborted⟩)⟩
    | gather n course b =>
      -- the loop takes in the report of the iteration as an aborted failure
      obtain ⟨rfl, heq⟩ := List.append_inj' hscope rfl
      obtain ⟨hid, -⟩ : n.id = loop ∧ _ = i := by simpa using heq
      obtain ⟨hfailed, -⟩ := (hreports k r hk).sound.backed.toLap haborted
      exact .inr ⟨rfl, hid, r.toLap, List.mem_map_of_mem (List.mem_of_getElem? hk), haborted,
        hfailed⟩
    | _ => exact ha.sound.located.1.elim

end Loops

/-! ### The beginning of a loop -/

/-- The plan of a loop in a view, if its settings parse and its sources are usable. -/
def planFor (setup : Setup) (n : Node) (view : View) : Except Fault Loop.Plan := do
  let config ← view.resolveFields n.config
  planOf setup n config view

/-- A loop with a plan is taken and begun, and is then before its first batch. -/
theorem step_of_plans {s : State} {id : String} {b : Branch} {n : Node} {plan : Loop.Plan}
    (htakes : Takes setup s.journal id b n) (henabled : n.isDisabled = false)
    (hloop : n.isLoop = true) (hplan : planFor setup n b.view = .ok plan) :
    ((program setup).step s (.visit id b)).2 = .proceed (.turn n (.new plan) b) ∧
      ((program setup).step s (.visit id b)).1.journal
        = s.journal.adding [.claimed b.view.scope id, lineOf n (.executing n.kind),
          .reached b.view.scope n.id .resolving, .reached b.view.scope n.id .invoking] := by
  obtain ⟨config, hconfig, hmade⟩ : ∃ config, b.view.resolveFields n.config = .ok config ∧
      planOf setup n config b.view = .ok plan := by
    unfold planFor at hplan
    rcases hconfig : b.view.resolveFields n.config with fault | config
    · simp [hconfig, bind, Except.bind] at hplan
    · exact ⟨config, rfl, by simpa [hconfig, bind, Except.bind] using hplan⟩
  have hstep : (program setup).step s (.visit id b)
      = begin setup { s with journal := .claimed b.view.scope id :: s.journal } n b :=
    htakes.visit_eq_begin henabled
  rw [hstep]
  constructor <;> simp [begin, hloop, beginLoop, hconfig, hmade]

theorem Takes.not_claimed {j : Journal} {id : String} {b : Branch} {n : Node}
    (h : Takes setup j id b n) : .claimed b.view.scope n.id ∉ j := by
  intro hmem
  have hclaimed := h.claimed
  rw [← Graph.id_of_node? h.node, Journal.hasClaimed_iff.mpr hmem] at hclaimed
  cases hclaimed

/-- A branch that is not at its end is on its grounds. -/
theorem Located.grounded {j : Journal} {scope : Scope} {x : Occupant Strand Report}
    (h : Located setup j scope x) {a : Strand} (ha : stateAt x = some a) : Grounded setup j a := by
  cases x with
  | live b =>
    obtain rfl := Option.some.inj ha
    exact h.1
  | waiting b =>
    obtain rfl := Option.some.inj ha
    exact h.2.1
  | ended report => cases ha

/-- Whoever carries out a node has taken it. -/
theorem Grounded.claimed {j : Journal} {a : Strand} (h : Grounded setup j a) {scope : Scope}
    {node : String} (hexec : executing a = some (scope, node)) : .claimed scope node ∈ j := by
  cases a with
  | act n activity b =>
    obtain ⟨rfl, rfl⟩ := Prod.mk.inj (Option.some.inj hexec)
    exact AtWork.claimed h
  | turn n course b =>
    obtain ⟨rfl, rfl⟩ := Prod.mk.inj (Option.some.inj hexec)
    exact (Looping.toAtWork h).claimed
  | gather n course b =>
    obtain ⟨rfl, rfl⟩ := Prod.mk.inj (Option.some.inj hexec)
    exact (Looping.toAtWork h.1).claimed
  | settle n course batch b =>
    obtain ⟨rfl, rfl⟩ := Prod.mk.inj (Option.some.inj hexec)
    exact (Looping.toAtWork h).claimed
  | _ => cases hexec

/-- In an iteration of a loop that was not taken nothing has failed. -/
theorem not_stopped_of_unclaimed {j : Journal} (hj : j.Always (Fits setup))
    (hchronicle : Chronicle setup j) {outer : Scope} {loop : String} (i : Int)
    (hfresh : .claimed outer loop ∉ j) : ¬ Stopped setup j (outer ++ [(loop, i)]) := by
  rintro ⟨n, -, -, message, herred⟩
  obtain ⟨outcome, hended, -⟩ := hchronicle.erred_iff.mp herred
  have hinvoked := invoked_of_claimed hj (claimed_of_ended hj hended)
  exact hfresh (hchronicle.claimed_of_reached hinvoked)

section Begun

variable {given : Given} {world : World} {c : Pool State Strand Report} {path : List ℕ}
  {id : String} {b : Branch} {n : Node} {plan : Loop.Plan}

/-- Once a loop with a plan was begun, whoever carries it out does so by the plan. -/
theorem planned_of_begun (h : Reaches setup (opening setup given world) c)
    (hlive : c.at? path = some (.live (.visit id b))) (htakes : Takes setup c.shared.journal id b n)
    (henabled : n.isDisabled = false) (hloop : n.isLoop = true) (hplan : planFor setup n b.view = .ok plan) :
    Pool.HoldsAt within [] (fun s => Reasoned setup b.view.scope n.id plan s.journal)
      (fun s => Planned setup b.view.scope n.id plan s.journal)
      (c.advance (program setup) path (.visit id b)) := by
  obtain ⟨hnext, hjournal⟩ := step_of_plans htakes henabled hloop hplan
  obtain ⟨hfits, hsound⟩ := sound_of_reaches (h.tail (.move (.advance hlive)))
  have hbefore := sound_of_reaches h
  have hfresh := htakes.not_claimed
  refine ⟨⟨hfits, ?_, fun outcome hended _ => ?_⟩, fun x hx => ⟨hsound x hx, ?_⟩⟩
  · rw [Pool.advance_shared, hjournal]
    obtain rfl := Graph.id_of_node? htakes.node
    simp
  · rw [Pool.advance_shared, hjournal] at hended
    have hold : .ended b.view.scope n.id outcome ∈ c.shared.journal := by
      simpa [lineOf] using hended
    exact absurd (claimed_of_ended hbefore.1 hold) hfresh
  · -- nobody carried out the loop before, and the one who does now is before its first batch
    intro a ha hexec
    obtain ⟨q, before, after, hold, hnew⟩ := Pool.placed_advance (p := program setup)
      within [] hlive
    rcases (hnew x).mp hx with hstays | hborn
    · have hmem : x ∈ c.placed within [] := by
        rw [hold]
        simp only [List.mem_append, List.mem_cons] at hstays ⊢
        tauto
      exact absurd ((hbefore.2 x hmem).located.grounded ha |>.claimed hexec) hfresh
    · rw [Schedule.Directive.placed, hnext] at hborn
      obtain rfl := List.mem_singleton.mp hborn
      obtain rfl := Option.some.inj ha
      rfl

/-- When a loop with a plan was begun, nothing in its iterations has failed. -/
theorem not_stopped_of_begun (h : Reaches setup (opening setup given world) c)
    (htakes : Takes setup c.shared.journal id b n) (henabled : n.isDisabled = false)
    (hloop : n.isLoop = true) (hplan : planFor setup n b.view = .ok plan) (i : Int) :
    ¬ Stopped setup (c.advance (program setup) path (.visit id b)).shared.journal
      (b.view.scope ++ [(n.id, i)]) := by
  obtain ⟨-, hjournal⟩ := step_of_plans htakes henabled hloop hplan
  rintro ⟨m, hm, hpolicy, message, herred⟩
  rw [Pool.advance_shared, hjournal] at herred
  exact not_stopped_of_unclaimed (grounds_of_reaches h).1 (chronicle_of_reaches h) i
    htakes.not_claimed ⟨m, hm, hpolicy, message, by simpa [lineOf] using herred⟩

/-- A loop with a plan fails if and only if it is to stop on failures and a node has stopped one
of its iterations, or it has ended at a rest that no clock can tell. -/
theorem failed_iff_of_begun (h : Reaches setup (opening setup given world) c)
    (hlive : c.at? path = some (.live (.visit id b))) (htakes : Takes setup c.shared.journal id b n)
    (henabled : n.isDisabled = false) (hloop : n.isLoop = true) (hplan : planFor setup n b.view = .ok plan)
    {d : Pool State Strand Report}
    (hd : Reaches setup (c.advance (program setup) path (.visit id b)) d) (hover : d.IsOver) :
    Failed d.shared.journal b.view.scope n.id ↔
      (plan.settings.stopsOnFailure = true ∧
        ∃ i : Int, Stopped setup d.shared.journal (b.view.scope ++ [(n.id, i)])) ∨
      ∃ fault, TooLong plan.settings.delayMs fault ∧
        .ended b.view.scope n.id (.error fault) ∈ d.shared.journal := by
  have hreach := (h.tail (.move (.advance hlive))).trans hd
  have hchronicle := chronicle_of_reaches hreach
  have hbegun := planned_of_begun h hlive htakes henabled hloop hplan
  constructor
  · rintro ⟨message, herred⟩
    obtain ⟨outcome, hended, herror⟩ := hchronicle.erred_iff.mp herred
    have hreasoned := (planned_kept.reaches hbegun hd).1
    rcases hreasoned.reason outcome hended (by simp [herror]) with hstopped | ⟨fault, hlong, rfl⟩
    · exact .inl hstopped
    · exact .inr ⟨fault, hlong, hended⟩
  · rintro (⟨hstops, i, hstopped⟩ | ⟨fault, -, hended⟩)
    · -- at the end of the run only the first branch is left to tell of it, and it does not
      have hcovered := (told_of_iteration hstops).covered_reaches planned_kept hbegun hd
        (fun i hdue => absurd hdue (not_stopped_of_begun h htakes henabled hloop hplan i)) i hstopped
      rcases hcovered with hfailed | ⟨x, hx, htold⟩
      · exact hfailed
      obtain ⟨report, hreport⟩ := exists_report hreach hover
      obtain rfl : x = ([], .ended report) := by simpa [Pool.placed, hreport] using hx
      rcases htold with ⟨hscope, -⟩ | ⟨-, hdoomed⟩
      · exact absurd hscope.symm (List.append_ne_nil_of_right_ne_nil _ (by simp))
      · exact hdoomed.elim
    · exact ⟨fault.report, hchronicle.erred_iff.mpr ⟨_, hended, rfl⟩⟩

end Begun

/-! ### Failure is exact -/

namespace Sample

/-- A flow with a loop around a step, which gives its own settings back. -/
def loopFlow (settings body : Fields Value) : Document where
  authoredNodes := some [node "a" "start" [], node "l" "loop" settings, node "x" "step" body]
  authoredEdges := some [edge "1" "a" "l" none, edge "2" "l" "x" (some "each")]
  authoredTrigger := none
  authoredComponent := none
  others := []

theorem problems_loopFlow (settings body : Fields Value) :
    (loopFlow settings body).problems = [] := by
  have hids : Text.isBlankText "a" = false ∧ Text.isBlankText "l" = false ∧
      Text.isBlankText "x" = false := by decide
  simp [Document.problems, Document.nodeProblems, Document.startProblems, Document.edgeProblems,
    Document.nodes, Document.edges, Node.isStart, loopFlow, node, edge, hids]

/-- A loop with some settings around a step. -/
def looping (settings body : Fields Value) : Setup where
  graph :=
    { document := loopFlow settings body
      start := node "a" "start" []
      sound := problems_loopFlow settings body
      start_mem := List.mem_cons_self
      start_isStart := isStart_node }
  registry := registry
  defaultMaxIterations := 500

/-- The settings of a loop that is to stop on failures. -/
def strictSettings : Fields Value := [("maxIterations", .int 2), ("errorHandling", .text "stop")]

/-- Such a loop around a step that reports its failure. -/
def strict : Setup := looping strictSettings [("success", .bool false)]

/-- The settings of a loop that goes on after failures, with a delay beyond the range of
floating-point numbers. -/
def restlessSettings : Fields Value :=
  [("maxIterations", .int 2), ("delayMs", .int (10 ^ 200 * 10 ^ 200))]

/-- Such a loop around a step that completes. -/
def restless : Setup := looping restlessSettings []

/-- The branch that looks at a loop after some steps of the machine, with the plan of the
loop there. -/
def atLoop (setup : Setup) (steps : ℕ) (n : Node) : Option (Branch × Loop.Plan) :=
  match (after setup steps).at? [0] with
  | some (.live (.visit id b)) =>
    if id = n.id ∧ b.view.scope = [] then (planFor setup n b.view).toOption.map (b, ·) else none
  | _ => none

theorem of_atLoop {setup : Setup} {steps : ℕ} {n : Node} {b : Branch} {plan : Loop.Plan}
    (h : atLoop setup steps n = some (b, plan)) :
    (after setup steps).at? [0] = some (.live (.visit n.id b)) ∧ b.view.scope = [] ∧
      planFor setup n b.view = .ok plan := by
  unfold atLoop at h
  split at h
  · next id b' hat =>
    split at h
    · next hhere =>
      obtain ⟨rfl, hscope⟩ := hhere
      rcases hplan : planFor setup n b'.view with fault | plan'
      · simp [hplan, Except.toOption] at h
      · obtain ⟨rfl, rfl⟩ : b' = b ∧ plan' = plan := by simpa [hplan, Except.toOption] using h
        exact ⟨hat, hscope, hplan⟩
    · cases h
  · cases h

theorem takes_of_atLoop {settings body : Fields Value} {steps : ℕ} {b : Branch}
    {plan : Loop.Plan}
    (h : atLoop (looping settings body) steps (node "l" "loop" settings) = some (b, plan))
    (hcancelled : (after (looping settings body) steps).shared.journal.isCancelled = false)
    (hclaimed : (after (looping settings body) steps).shared.journal.hasClaimed [] "l" = false) :
    Takes (looping settings body) (after (looping settings body) steps).shared.journal "l" b
      (node "l" "loop" settings) := by
  obtain ⟨-, hscope, -⟩ := of_atLoop h
  have hnode : (looping settings body).graph.node? "l" = some (node "l" "loop" settings) := by
    simp [Graph.node?, Graph.nodes, Document.nodes, looping, loopFlow, node]
  exact ⟨hcancelled, hnode, isInside_eq_false.mpr (by simp [hscope]), by rw [hscope, hclaimed]⟩

/-- A run goes on with the task in front of the queue. -/
theorem reaches_resumed (setup : Setup) (steps more : ℕ) {path : List ℕ} {a : Strand}
    (hready : ((beginning setup given [] world).run (program setup) steps).1.ready.head?
      = some (.resume path))
    (hlive : (after setup steps).at? path = some (.live a)) :
    Reaches setup ((after setup steps).advance (program setup) path a)
      (after setup (steps + (more + 1))) := by
  obtain ⟨rest, hready⟩ := List.head?_eq_some_iff.mp hready
  obtain ⟨m, hstep, hm⟩ := Schedule.Machine.exists_step?_of_resume (p := program setup) hready hlive
  have hafter : after setup (steps + (more + 1)) = (m.run (program setup) more).1.toPool := by
    rw [after, Schedule.Machine.run_append]
    simp only [Schedule.Machine.run, hstep]
  rw [hafter, after, ← hm]
  exact Schedule.Machine.reaches_run (program setup) Disturbs more m

end Sample

end Automation.Run
