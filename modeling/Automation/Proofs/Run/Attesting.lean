/-
Automation/Proofs/Run/Attesting.lean

Reports tell of nothing that did not happen.

The report of a branch is put together on the way: from what its nodes leave, and from
the reports of the branches that it forked into.  The journal is written by all branches
of a run in turn, and what a node has written in one iteration may be overwritten from
another.  Both agree nevertheless, because each event has the scope in which it happened:
whatever a branch reports is in the journal with the scope of the branch (`Attested`).

A loop makes laps of the reports of its iterations, so its laps are true as well, and an
iteration that it has a lap of was begun (`Faithful`).  If a loop ends it is with its
laps, or with a fault of its configuration (`Closing`).  All this is kept by all deeds
(`accounted_kept`).
-/
import Automation.Proofs.Run.Iterations

namespace Automation.Run

open Automation.Schedule (Noting Occupant Pool Task)

variable {setup : Setup}

/-! ### Reports of what has happened -/

/-- A branch reports nothing that did not happen in its scope, and each node once. -/
structure Attested (j : Journal) (scope : Scope) (report : Report) : Prop where
  wrote : ∀ node result, report.outputs.get? node = some result → .wrote scope node result ∈ j
  erred : ∀ node message, report.errors.get? node = some message → .erred scope node message ∈ j
  outputs_nodup : report.outputs.keys.Nodup
  errors_nodup : report.errors.keys.Nodup

theorem attested_empty (j : Journal) (scope : Scope) : Attested j scope .empty where
  wrote node result hget := by cases hget
  erred node message hget := by cases hget
  outputs_nodup := List.nodup_nil
  errors_nodup := List.nodup_nil

theorem Attested.adding {j : Journal} {scope : Scope} {report : Report}
    (h : Attested j scope report) (events : List Event) :
    Attested (j.adding events) scope report where
  wrote node result hget := by simp [h.wrote node result hget]
  erred node message hget := by simp [h.erred node message hget]
  outputs_nodup := h.outputs_nodup
  errors_nodup := h.errors_nodup

theorem Attested.merge {j : Journal} {scope : Scope} {r s : Report} (hr : Attested j scope r)
    (hs : Attested j scope s) : Attested j scope (r.merge s) where
  wrote node result hget := by
    have hover : (s.outputs.get? node).or (r.outputs.get? node) = some result := by
      rw [← Fields.get?_overlay _ hs.outputs_nodup]
      exact hget
    rcases hlast : s.outputs.get? node with - | last
    · exact hr.wrote node result (by simpa [hlast] using hover)
    · exact hs.wrote node result (by simpa [hlast] using hover)
  erred node message hget := by
    have hover : (s.errors.get? node).or (r.errors.get? node) = some message := by
      rw [← Fields.get?_overlay _ hs.errors_nodup]
      exact hget
    rcases hlast : s.errors.get? node with - | last
    · exact hr.erred node message (by simpa [hlast] using hover)
    · exact hs.erred node message (by simpa [hlast] using hover)
  outputs_nodup := Fields.nodup_keys_overlay hr.outputs_nodup _
  errors_nodup := Fields.nodup_keys_overlay hr.errors_nodup _

theorem Attested.foldl {j : Journal} {scope : Scope} {report : Report} {reports : List Report}
    (h : Attested j scope report) (hall : ∀ r ∈ reports, Attested j scope r) :
    Attested j scope (reports.foldl Report.merge report) := by
  induction reports generalizing report with
  | nil => exact h
  | cons r reports ih =>
    have hmerged := h.merge (hall r List.mem_cons_self)
    exact ih hmerged fun s hs => hall s (List.mem_cons_of_mem _ hs)

/-- A branch reports a node that ends, once it is recorded. -/
theorem Attested.leave {j : Journal} {n : Node} {b : Branch} {outcome : Except Fault Value}
    (h : Attested j b.view.scope b.report) :
    Attested (j.adding (.ended b.view.scope n.id outcome :: recorded n b.view.scope (.of outcome)))
      b.view.scope (b.leave n.id ((Verdict.of outcome).left n.failurePolicy)
        (Verdict.of outcome).error).report := by
  have hlater := h.adding
    (.ended b.view.scope n.id outcome :: recorded n b.view.scope (.of outcome))
  refine ⟨fun node result hget => ?_, fun node message hget => ?_,
    Fields.nodup_keys_set h.outputs_nodup _ _, ?_⟩
  · have hset := (Fields.get?_set _ _ node _).symm.trans hget
    split at hset
    · next hnode =>
      obtain rfl := Option.some.inj hset
      simp [hnode]
    · exact hlater.wrote node result hset
  · rcases herror : (Verdict.of outcome).error with - | last
    · simp only [Branch.leave, herror] at hget
      exact hlater.erred node message hget
    · simp only [Branch.leave, herror] at hget
      rw [Fields.get?_set] at hget
      split at hget
      · next hnode =>
        obtain rfl := Option.some.inj hget
        simp [hnode, herror]
      · exact hlater.erred node message hget
  · unfold Branch.leave
    dsimp only
    split
    · exact h.errors_nodup
    · exact Fields.nodup_keys_set h.errors_nodup _ _

/-- Whether its branch was aborted makes no difference to what a report tells. -/
theorem Attested.abort {j : Journal} {scope : Scope} {report : Report}
    (h : Attested j scope report) : Attested j scope { report with aborted := true } :=
  ⟨h.wrote, h.erred, h.outputs_nodup, h.errors_nodup⟩

/-! ### Loops that know their iterations -/

/-- The iterations of a loop, by the laps that it has of them: each was begun, and each lap is
made of a report of what has happened in its iteration. -/
def Faithful (j : Journal) (told : List Scope) (outer : Scope) (loop : String)
    (laps : List Loop.Lap) : Prop :=
  ∀ (i : ℕ) lap, laps[i]? = some lap → outer ++ [(loop, (i : Int))] ∈ told ∧
    ∃ report : Report, lap = report.toLap ∧ Attested j (outer ++ [(loop, (i : Int))]) report

theorem Faithful.adding {j : Journal} {told : List Scope} {outer : Scope} {loop : String}
    {laps : List Loop.Lap} (h : Faithful j told outer loop laps) (events : List Event)
    (more : List Scope) : Faithful (j.adding events) (told ++ more) outer loop laps := by
  intro i lap hlap
  obtain ⟨hbegun, report, hreport, hattested⟩ := h i lap hlap
  exact ⟨List.mem_append_left _ hbegun, report, hreport, hattested.adding events⟩

/-- A loop node is badly configured in a view: its settings make no plan, or they have it rest
for longer than any clock can tell. -/
def Misconfigured (setup : Setup) (n : Node) (view : View) (fault : Fault) : Prop :=
  planFor setup n view = .error fault ∨
    ∃ plan, planFor setup n view = .ok plan ∧ TooLong plan.settings.delayMs fault

/-- What a loop may come to: a fault of its configuration, or the report of its iterations. -/
inductive Closing (setup : Setup) (j : Journal) (told : List Scope) (outer : Scope) (n : Node) :
    Except Fault Value → Prop
  | misconfigured {view fault} : view.scope = outer → Misconfigured setup n view fault →
    Closing setup j told outer n (.error fault)
  | reported {report : Loop.Report} : Faithful j told outer n.id report.laps →
    Closing setup j told outer n (.ok (.object report.toFields))

theorem Closing.adding {j : Journal} {told : List Scope} {outer : Scope} {n : Node}
    {outcome : Except Fault Value} (h : Closing setup j told outer n outcome) (events : List Event)
    (more : List Scope) : Closing setup (j.adding events) (told ++ more) outer n outcome := by
  cases h with
  | misconfigured hscope hfault => exact .misconfigured hscope hfault
  | reported hlaps => exact .reported (hlaps.adding events more)

/-- A loop that is carried out goes by its plan and knows its iterations, and if it is about to
end it is with what a loop may come to. -/
def OnCourse (setup : Setup) (j : Journal) (told : List Scope) : Strand → Prop
  | .turn n course b => planFor setup n b.view = .ok course.plan ∧
    Faithful j told b.view.scope n.id course.laps
  | .gather n course b => planFor setup n b.view = .ok course.plan ∧
    Faithful j told b.view.scope n.id course.laps
  | .settle n course _ b => planFor setup n b.view = .ok course.plan ∧
    Faithful j told b.view.scope n.id course.laps
  | .act n activity b => n.isLoop = true →
    ∃ outcome, activity = .finish outcome ∧ Closing setup j told b.view.scope n outcome
  | _ => True

theorem OnCourse.adding {j : Journal} {told : List Scope} {a : Strand}
    (h : OnCourse setup j told a) (events : List Event) (more : List Scope) :
    OnCourse setup (j.adding events) (told ++ more) a := by
  cases a with
  | act n activity b =>
    intro hloop
    obtain ⟨outcome, hactivity, hclosing⟩ := h hloop
    exact ⟨outcome, hactivity, hclosing.adding events more⟩
  | turn n course b => exact ⟨h.1, h.2.adding events more⟩
  | gather n course b => exact ⟨h.1, h.2.adding events more⟩
  | settle n course batch b => exact ⟨h.1, h.2.adding events more⟩
  | _ => trivial

/-- What is in a scope belongs there, in an iteration that was begun; it reports nothing that did
not happen there, and if it is a loop it is on its course. -/
structure Accounted (setup : Setup) (j : Journal) (told : List Scope) (scope : Scope)
    (x : Occupant Strand Report) : Prop where
  located : Located setup j scope x
  begun : scope ≠ [] → scope ∈ told
  attested : Attested j scope (reported x)
  course : ∀ a, stateAt x = some a → OnCourse setup j told a

theorem Accounted.adding {j : Journal} {told : List Scope} {scope : Scope}
    {x : Occupant Strand Report} (h : Accounted setup j told scope x) (events : List Event)
    (more : List Scope) : Accounted setup (j.adding events) (told ++ more) scope x where
  located := h.located.adding events
  begun hne := List.mem_append_left _ (h.begun hne)
  attested := h.attested.adding events
  course a ha := (h.course a ha).adding events more

/-- The journal is in order, and each loop has ended with what a loop may come to. -/
structure Concluded (setup : Setup) (j : Journal) (told : List Scope) : Prop where
  fits : j.Always (Fits setup)
  closing : ∀ outer n outcome, setup.graph.node? n.id = some n → n.isLoop = true →
    .ended outer n.id outcome ∈ j → Closing setup j told outer n outcome

/-! ### What the deeds keep -/

/-- What is begun by a deed is told. -/
theorem Deed.begun_told {j : Journal} {a : Strand} {events : List Event}
    {task : Task Strand Report} (h : Deed setup j a events task) {told : List Scope}
    {scope : Scope} (ha : Accounted setup j told scope (.live a)) :
    ∀ x ∈ task.placed within scope, x.1 ≠ [] → x.1 ∈ told ++ entered a task := by
  have hhere : scope ≠ [] → scope ∈ told ++ entered a task :=
    fun hne => List.mem_append_left _ (ha.begun hne)
  intro x hx hne
  cases h with
  | @batch n course b count _ _ _ =>
    rcases mem_placed_batch hx with rfl | ⟨i, hi, rfl⟩
    · exact hhere hne
    · refine List.mem_append_right _ ?_
      rw [entered_batch ha.located.1]
      obtain rfl : b.view.scope = scope := ha.located.2 _ rfl
      exact List.mem_map.mpr ⟨i, hi, rfl⟩
  | fan =>
    rcases mem_placed_fan hx with rfl | ⟨target, -, rfl⟩
    · exact hhere hne
    · exact hhere hne
  | _ =>
    obtain rfl := List.mem_singleton.mp hx
    exact hhere hne

/-- What comes of a deed reports nothing that did not happen. -/
theorem Deed.attested {j : Journal} {a : Strand} {events : List Event}
    {task : Task Strand Report} (h : Deed setup j a events task) {told : List Scope}
    {scope : Scope} (ha : Accounted setup j told scope (.live a)) :
    ∀ x ∈ task.placed within scope, Attested (j.adding events) x.1 (reported x.2) := by
  have hsame : Attested (j.adding events) scope a.report := ha.attested.adding events
  intro x hx
  cases h with
  | start _ _ hopening =>
    obtain rfl := List.mem_singleton.mp hx
    cases hopening <;> exact hsame
  | @leave n outcome b _ =>
    obtain rfl := List.mem_singleton.mp hx
    obtain rfl : b.view.scope = scope := ha.located.2 _ rfl
    exact Attested.leave ha.attested
  | @abort n outcome b _ =>
    obtain rfl := List.mem_singleton.mp hx
    obtain rfl : b.view.scope = scope := ha.located.2 _ rfl
    exact (Attested.leave ha.attested).abort
  | batch =>
    rcases mem_placed_batch hx with rfl | ⟨i, -, rfl⟩
    · exact hsame
    · exact attested_empty _ _
  | fan =>
    rcases mem_placed_fan hx with rfl | ⟨target, -, rfl⟩
    · exact hsame
    · exact attested_empty _ _
  | _ =>
    obtain rfl := List.mem_singleton.mp hx
    exact hsame

/-- A loop that is begun is on its course: it goes by its plan, or is about to fail because it has
none. -/
theorem Opening.onCourse {j : Journal} {told : List Scope} {id : String} {n : Node} {b : Branch}
    {events : List Event} {next : Strand} (h : Opening setup n b events next)
    (hprepared : Prepared setup (.visit id b) (.live next)) : OnCourse setup j told next := by
  have hfault : ∀ {fault}, Prepared setup (.visit id b) (.live (.act n (.fail fault) b)) →
      OnCourse setup j told (.act n (.fail fault) b) := by
    intro fault hprepared hloop
    obtain ⟨_, hactivity, hplan⟩ := hprepared hloop
    obtain rfl := Except.error.inj (Activity.finish.inj hactivity)
    exact ⟨_, rfl, .misconfigured rfl (.inl hplan)⟩
  cases h with
  | stuck => exact hfault hprepared
  | noPlan => exact hfault hprepared
  | action _ hn =>
    intro hloop
    rw [hn] at hloop
    cases hloop
  | loop => exact ⟨hprepared, fun i lap hlap => by cases hlap⟩

/-- A loop that comes of a deed is on its course. -/
theorem Deed.onCourse {j : Journal} {a : Strand} {events : List Event}
    {task : Task Strand Report} (h : Deed setup j a events task) {told : List Scope}
    {scope : Scope} (hprepared : Prepared setup a task)
    (ha : OnCourse setup j told a) :
    ∀ x ∈ task.placed within scope, ∀ b, stateAt x.2 = some b →
      OnCourse setup (j.adding events) (told ++ entered a task) b := by
  have hlater := ha.adding events (entered a task)
  intro x hx c hc
  cases h with
  | turnBack | repeated | abort | stop | merge | close =>
    obtain rfl := List.mem_singleton.mp hx
    cases hc
  | start _ _ hopening =>
    obtain rfl := eq_of_mem_placed_live hx hc
    exact hopening.onCourse hprepared
  | work hnext =>
    obtain rfl := eq_of_mem_placed_live hx hc
    intro hloop
    obtain ⟨outcome, rfl, -⟩ := ha hloop
    cases hnext
  | cancel | oversleep =>
    obtain rfl := eq_of_mem_placed_live hx hc
    intro hloop
    obtain ⟨outcome, heq, -⟩ := ha hloop
    cases heq
  | wind hmove =>
    obtain rfl := eq_of_mem_placed_live hx hc
    intro _
    refine ⟨_, rfl, .reported ?_⟩
    rw [(Loop.Course.report_of_move hmove).1]
    exact hlater.2
  | idle =>
    obtain rfl := eq_of_mem_placed_live hx hc
    exact fun _ => ⟨_, rfl, .reported hlater.2⟩
  | conclude hturn =>
    obtain rfl := eq_of_mem_placed_live hx hc
    intro _
    refine ⟨_, rfl, .reported ?_⟩
    rw [Loop.Course.laps_of_turn hturn]
    exact hlater.2
  | overrest hturn hlong =>
    obtain rfl := eq_of_mem_placed_live hx hc
    rw [Loop.Course.rest_of_turn hturn] at hlong
    exact fun _ => ⟨_, rfl, .misconfigured rfl (.inr ⟨_, ha.1, hlong⟩)⟩
  | again =>
    obtain rfl := eq_of_mem_placed_live hx hc
    exact hlater
  | batch =>
    rcases mem_placed_batch hx with rfl | ⟨i, -, rfl⟩
    · obtain rfl := Option.some.inj hc
      exact hlater
    · obtain rfl := Option.some.inj hc
      trivial
  | fan =>
    rcases mem_placed_fan hx with rfl | ⟨target, -, rfl⟩ <;>
    · obtain rfl := Option.some.inj hc
      trivial
  | _ =>
    obtain rfl := eq_of_mem_placed_live hx hc
    trivial

/-- A loop that ends does so with what a loop may come to. -/
theorem Deed.concluded {j : Journal} {a : Strand} {events : List Event}
    {task : Task Strand Report} (h : Deed setup j a events task) {told : List Scope}
    {scope : Scope} (hj : Concluded setup j told) (ha : Accounted setup j told scope (.live a)) :
    Concluded setup (j.adding events) (told ++ entered a task) where
  fits := h.fits hj.fits ha.located.1
  closing outer n outcome hn hloop hended := by
    rcases Journal.mem_adding.mp hended with hnew | hold
    swap
    · exact (hj.closing outer n outcome hn hloop hold).adding events _
    obtain ⟨m, b, rfl, rfl, hid, -⟩ := h.ended_cases hnew
    obtain rfl : n = m := Option.some.inj (hn.symm.trans (hid ▸ AtWork.node ha.located.1))
    obtain ⟨outcome', heq, hclosing⟩ := ha.course _ rfl hloop
    obtain rfl : outcome = outcome' := Activity.finish.inj heq
    exact hclosing.adding events _

/-- A branch that has waited reports what its forks report, and a loop takes in what its
iterations report. -/
theorem Accounted.rejoin {j : Journal} {told : List Scope} {scope : Scope} {a : Strand}
    {reports : List Report} (ha : Accounted setup j told scope (.waiting a))
    (hreports : ∀ (k : ℕ) r, reports[k]? = some r →
      Accounted setup j told (within scope a k) (.ended r)) :
    Accounted setup j told scope (.live (rejoin a reports)) := by
  have hlocated := ha.located.rejoin reports
  cases a with
  | merge report =>
    refine ⟨hlocated, ha.begun, ha.attested.foldl fun r hr => ?_, fun b hb => ?_⟩
    · obtain ⟨k, hk⟩ := List.mem_iff_getElem?.mp hr
      exact (hreports k r hk).attested
    · obtain rfl := Option.some.inj hb
      trivial
  | gather n course b =>
    refine ⟨hlocated, ha.begun, ha.attested, fun c hc => ?_⟩
    obtain rfl := Option.some.inj hc
    obtain ⟨hplan, hlaps⟩ : OnCourse setup j told (.gather n course b) := ha.course _ rfl
    obtain rfl : b.view.scope = scope := ha.located.2.2 _ rfl
    refine ⟨hplan, fun i lap hlap => ?_⟩
    rw [Loop.Course.absorb, List.getElem?_append] at hlap
    split at hlap
    · exact hlaps i lap hlap
    · next hnew =>
      -- the reports of the batch follow the laps so far
      rw [List.getElem?_map, Option.map_eq_some_iff] at hlap
      obtain ⟨r, hr, rfl⟩ := hlap
      have hchild := hreports _ r hr
      have hscope : within b.view.scope (.gather n course b) (i - course.laps.length)
          = b.view.scope ++ [(n.id, (i : Int))] := by
        have hindex : course.next + (i - course.laps.length) = i := by
          rw [course.next_eq]
          omega
        simp only [within, hindex]
      rw [hscope] at hchild
      exact ⟨hchild.begun (by simp), r, rfl, hchild.attested⟩
  | _ => exact ha.located.1.elim

/-- Runs keep reports and loops accounted for. -/
theorem accounted_kept : Pool.KeptAt ((program setup).noted (enters setup)) (Noting Disturbs)
    within [] (fun s => Concluded setup s.1.journal s.2)
    (fun s => Accounted setup s.1.journal s.2) := by
  refine keptAt_of_deeds_noted (J := Concluded setup) (K := Accounted setup)
    (fun hj ha h _ => h.concluded hj ha) ?_ (fun _ ha hreports => ha.rejoin hreports) ?_
    (fun events more hx => hx.adding events more)
  · intro j told scope a events task hj ha h hprepared x hx
    exact ⟨h.located ha.located x hx, h.begun_told ha x hx, h.attested ha x hx,
      h.onCourse hprepared (ha.course a rfl) x hx⟩
  · intro j told hj
    refine ⟨⟨trivial, hj.fits⟩, fun outer n outcome hn hloop hended => ?_⟩
    have hold := hj.closing outer n outcome hn hloop (by simpa using hended)
    simpa using hold.adding [.cancelled] []

theorem accounted_opening (setup : Setup) (given : Given) (world : World) :
    Pool.HoldsAt within [] (fun s => Concluded setup s.1.journal s.2)
      (fun s => Accounted setup s.1.journal s.2)
      ((opening setup given world).withNotes ([] : List Scope)) := by
  have hopening := (sound_opening setup given world).2 _ List.mem_cons_self
  refine Pool.holdsAt_start ⟨Journal.always_nil, fun _ _ _ _ _ hended => by cases hended⟩
    ⟨hopening.located, fun hne => absurd rfl hne, attested_empty _ _, fun a ha => ?_⟩
  obtain rfl := Option.some.inj ha
  trivial

end Automation.Run
