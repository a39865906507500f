/-
Automation/Proofs/Run/Reporting.lean

What a loop reports of its iterations is what has happened in them.

Nothing is lost on the way from an iteration to the report of its loop: an iteration that
was begun, a node that was begun in it and one that has failed in it are each told of by
something in the scope of the iteration until the loop has taken it in, and from then on
by the loop until it has ended (`held`).  When the loop has ended there is nothing left
in its iterations, so whatever happened there is told by its report (`Known.exists_lap`).
Together with reports that tell of nothing else this makes the report exact
(`loop_reports_truthfully`).
-/
import Automation.Proofs.Run.Attesting
import Automation.Proofs.Run.Consistency

namespace Automation.Run

open Automation.Schedule (Noting Occupant Pool Task)

variable {setup : Setup}

/-! ### What is not lost -/

/-- Something about an iteration that is told of in its scope, and by the lap of the iteration
once the loop has taken it in. -/
structure Lasting (setup : Setup) (scope : Scope) (here : Occupant Strand Report → Prop)
    (kept : Loop.Lap → Prop) : Prop where
  deed : ∀ {j a events task}, Deed setup j a events task → here (.live a) →
    ∃ x ∈ task.placed within scope, x.1 = scope ∧ here x.2
  returned : ∀ {a} reports, here (.waiting a) → here (.live (rejoin a reports))
  merged : ∀ {report reports r}, r ∈ reports → here (.ended r) →
    here (.live (rejoin (.merge report) reports))
  lap : ∀ {r : Report}, here (.ended r) → kept r.toLap

/-- What a loop has come to tells something by the lap of an iteration, if it tells of iterations
at all. -/
def Answers (i : ℕ) (kept : Loop.Lap → Prop) (outcome : Except Fault Value) : Prop :=
  (∃ fault, outcome = .error fault) ∨
    ∃ (report : Loop.Report) (lap : Loop.Lap), outcome = .ok (.object report.toFields) ∧
      report.laps[i]? = some lap ∧ kept lap

/-- A branch that carries out a loop has something in the lap of an iteration. -/
def Holds (loop : String) (i : ℕ) (kept : Loop.Lap → Prop) : Strand → Prop
  | .turn n course _ => n.id = loop ∧ ∃ lap, course.laps[i]? = some lap ∧ kept lap
  | .gather n course _ => n.id = loop ∧ ∃ lap, course.laps[i]? = some lap ∧ kept lap
  | .settle n course _ _ => n.id = loop ∧ ∃ lap, course.laps[i]? = some lap ∧ kept lap
  | .act n activity _ =>
    n.id = loop ∧ ∃ outcome, activity = .finish outcome ∧ Answers i kept outcome
  | _ => False

section Held

variable {outer : Scope} {loop : String} {i : ℕ} {here : Occupant Strand Report → Prop}
  {kept : Loop.Lap → Prop}

/-- What a loop has in a lap it has until it ends, and then its outcome tells it. -/
theorem Deed.holds_handed {j : Journal} {a : Strand} {events : List Event}
    {task : Task Strand Report} (h : Deed setup j a events task)
    (ha : Located setup j outer (.live a)) (hholds : Holds loop i kept a) :
    (∃ outcome, .ended outer loop outcome ∈ j.adding events ∧ Answers i kept outcome) ∨
      ∃ x ∈ task.placed within outer, x.1 = outer ∧
        ∃ b, stateAt x.2 = some b ∧ Holds loop i kept b := by
  -- whoever goes on in the place of the loop has what the loop had
  have hgoes : ∀ next : Strand, task = .live next → Holds loop i kept next →
      ∃ x ∈ task.placed within outer, x.1 = outer ∧
        ∃ b, stateAt x.2 = some b ∧ Holds loop i kept b := by
    rintro next rfl hnext
    exact ⟨_, List.mem_singleton_self _, rfl, next, rfl, hnext⟩
  cases h with
  | @leave n found b _ | @abort n found b _ =>
    obtain ⟨rfl, outcome, heq, hanswers⟩ := hholds
    obtain rfl : found = outcome := Activity.finish.inj heq
    obtain rfl : b.view.scope = outer := ha.2 _ rfl
    exact .inl ⟨found, by simp, hanswers⟩
  | work hnext =>
    obtain ⟨-, outcome, rfl, -⟩ := hholds
    cases hnext
  | cancel | oversleep =>
    obtain ⟨-, outcome, heq, -⟩ := hholds
    cases heq
  | @wind n course b report hmove =>
    obtain ⟨hid, lap, hlap, hkept⟩ := hholds
    rw [← (Loop.Course.report_of_move hmove).1] at hlap
    exact .inr (hgoes _ rfl ⟨hid, _, rfl, .inr ⟨report, lap, rfl, hlap, hkept⟩⟩)
  | @idle n course b =>
    obtain ⟨hid, lap, hlap, hkept⟩ := hholds
    exact .inr (hgoes _ rfl ⟨hid, _, rfl, .inr ⟨_, lap, rfl, hlap, hkept⟩⟩)
  | @conclude n course batch b report hturn =>
    obtain ⟨hid, lap, hlap, hkept⟩ := hholds
    rw [← Loop.Course.laps_of_turn hturn] at hlap
    exact .inr (hgoes _ rfl ⟨hid, _, rfl, .inr ⟨report, lap, rfl, hlap, hkept⟩⟩)
  | overrest => exact .inr (hgoes _ rfl ⟨hholds.1, _, rfl, .inl ⟨_, rfl⟩⟩)
  | again => exact .inr (hgoes _ rfl hholds)
  | @batch n course b count _ _ _ =>
    exact .inr ⟨_, List.mem_cons_self, rfl, .gather n course b, rfl, hholds⟩
  | _ => exact hholds.elim

/-- A loop that has waited has what it had before. -/
theorem Holds.rejoin {a : Strand} (h : Holds loop i kept a) (reports : List Report) :
    Holds loop i kept (rejoin a reports) := by
  cases a with
  | gather n course b =>
    obtain ⟨hid, lap, hlap, hkept⟩ := h
    refine ⟨hid, lap, ?_, hkept⟩
    obtain ⟨hlt, -⟩ := List.getElem?_eq_some_iff.mp hlap
    exact (List.getElem?_append_left hlt).trans hlap
  | merge report => exact h.elim
  | _ => exact h

/-- A loop takes in what is told of an iteration of the batch for which it has waited. -/
theorem Lasting.gathered (h : Lasting setup (outer ++ [(loop, (i : Int))]) here kept) {n : Node}
    {course : Loop.Course} {b : Branch} {scope : Scope} {reports : List Report} {k : ℕ} {r : Report}
    (hk : reports[k]? = some r)
    (hscope : within scope (.gather n course b) k = outer ++ [(loop, (i : Int))])
    (htold : here (.ended r)) :
    scope = outer ∧ Holds loop i kept (rejoin (.gather n course b) reports) := by
  obtain ⟨houter, hlast⟩ := List.append_inj' hscope rfl
  obtain ⟨hid, hindex⟩ : n.id = loop ∧ ((course.next + k : ℕ) : Int) = i := by simpa using hlast
  have hnext : course.laps.length + k = i := by
    rw [← course.next_eq]
    exact_mod_cast hindex
  refine ⟨houter, hid, r.toLap, ?_, h.lap htold⟩
  show (course.laps ++ reports.map Report.toLap)[i]? = _
  rw [List.getElem?_append_right (by omega), List.getElem?_map]
  have hfound : i - course.laps.length = k := by omega
  rw [hfound, hk]
  rfl

/-- What is told in the scope of an iteration is told until the loop has ended, by something in
that scope or by the loop. -/
theorem held (h : Lasting setup (outer ++ [(loop, (i : Int))]) here kept)
    (due : Journal → List Scope → Prop)
    (hfresh : ∀ {j told scope a events task}, Accounted setup j told scope (.live a) →
      Deed setup j a events task → due (j.adding events) (told ++ entered a task) →
      due j told ∨ ∃ x ∈ task.placed within scope, x.1 = outer ++ [(loop, (i : Int))] ∧ here x.2)
    (hcancel : ∀ {j told}, due (j.adding [.cancelled]) told → due j told) :
    Pool.HonouredAt ((program setup).noted (enters setup)) (Noting Disturbs) within []
      (fun s => Concluded setup s.1.journal s.2) (fun s => Accounted setup s.1.journal s.2)
      (fun s (_ : Unit) => due s.1.journal s.2)
      (fun s _ => ∃ outcome, .ended outer loop outcome ∈ s.1.journal ∧ Answers i kept outcome)
      (fun scope x _ => scope = outer ++ [(loop, (i : Int))] ∧ here x ∨
        scope = outer ∧ ∃ a, stateAt x = some a ∧ Holds loop i kept a) := by
  refine honouredAt_of_deeds_noted (J := Concluded setup) (K := Accounted setup)
    (fun j told (_ : Unit) => due j told)
    (fun j _ => ∃ outcome, .ended outer loop outcome ∈ j ∧ Answers i kept outcome) _ ?_ ?_ ?_ ?_
    hcancel
  · rintro j - events ⟨outcome, hended, hanswers⟩
    exact ⟨outcome, by simp [hended], hanswers⟩
  · rintro j told scope a events task - - ha hdeed (⟨rfl, htold⟩ | ⟨rfl, b, hb, hholds⟩)
    · obtain ⟨x, hx, hscope, hlater⟩ := h.deed hdeed htold
      exact .inr ⟨x, hx, .inl ⟨hscope, hlater⟩⟩
    · obtain rfl := Option.some.inj hb
      rcases hdeed.holds_handed ha.located hholds with hended | ⟨x, hx, hscope, hlater⟩
      · exact .inl hended
      · exact .inr ⟨x, hx, .inr ⟨hscope, hlater⟩⟩
  · intro j told scope a events task _ _ ha hdeed hdue
    rcases hfresh ha hdeed hdue with hold | ⟨x, hx, htold⟩
    · exact .inl hold
    · exact .inr (.inr ⟨x, hx, .inl htold⟩)
  · intro j told scope a reports _ _ ha _ howes
    refine .inr ?_
    -- the branch told of it itself, or one of those for which it has waited
    rcases howes with (⟨rfl, htold⟩ | ⟨rfl, b, hb, hholds⟩) | ⟨k, r, hk, hchild⟩
    · exact .inl ⟨rfl, h.returned reports htold⟩
    · obtain rfl := Option.some.inj hb
      exact .inr ⟨rfl, _, rfl, hholds.rejoin reports⟩
    rcases hchild with ⟨hscope, htold⟩ | ⟨-, b, hb, -⟩
    swap
    · cases hb
    cases a with
    | merge report => exact .inl ⟨hscope, h.merged (List.mem_of_getElem? hk) htold⟩
    | gather n course b =>
      obtain ⟨houter, hholds⟩ := h.gathered hk hscope htold
      exact .inr ⟨houter, _, rfl, hholds⟩
    | _ => exact ha.located.1.elim

end Held

/-! ### Iterations, nodes and errors -/

/-- An iteration that was begun is told of by whatever is in it. -/
theorem lasting_iteration (scope : Scope) :
    Lasting setup scope (fun _ => True) (fun _ => True) where
  deed {j a events task} _ _ := by
    cases task <;> exact ⟨_, List.mem_cons_self, rfl, trivial⟩
  returned _ _ := trivial
  merged _ _ := trivial
  lap _ := trivial

/-- The iterations that a deed begins come of it. -/
theorem Deed.exists_placed_of_entered {j : Journal} {a : Strand} {events : List Event}
    {task : Task Strand Report} (h : Deed setup j a events task) {scope : Scope}
    (ha : Located setup j scope (.live a)) {s : Scope} (hs : s ∈ entered a task) :
    ∃ x ∈ task.placed within scope, x.1 = s := by
  cases h with
  | @batch n course b count _ _ _ =>
    rw [entered_batch ha.1] at hs
    obtain ⟨i, hi, rfl⟩ := List.mem_map.mp hs
    obtain ⟨hle, hlt⟩ := List.mem_range'_1.mp hi
    have hchild : ((List.range' course.next count).map
        (iteration setup n course.plan b.view))[i - course.next]?
          = some (iteration setup n course.plan b.view i) := by
      have hindex : course.next + 1 * (i - course.next) = i := by omega
      rw [List.getElem?_map, List.getElem?_range' (by omega), hindex]
      rfl
    refine ⟨_, List.mem_cons_of_mem _ (Task.placedAll_live_of_getElem? within hchild _ 0), ?_⟩
    have hindex : course.next + (0 + (i - course.next)) = i := by omega
    rw [ha.2 b.view rfl]
    simp only [within, hindex]
  | _ => cases hs

/-- A part of what branches report that they do not take back. -/
structure Lasts (mentions : Report → Prop) : Prop where
  leave : ∀ (b : Branch) node result error, mentions b.report →
    mentions (b.leave node result error).report
  abort : ∀ r : Report, mentions r → mentions { r with aborted := true }
  merge : ∀ r s : Report, mentions r ∨ mentions s → mentions (r.merge s)

/-- The results that a branch reports are not taken back. -/
theorem lasts_output (node : String) : Lasts fun r => node ∈ r.outputs.keys where
  leave _ _ _ _ h := Fields.mem_keys_set.mpr (.inr h)
  abort _ h := h
  merge _ _ h := Fields.mem_keys_overlay.mpr h

/-- The errors that a branch reports are not taken back. -/
theorem lasts_error (node : String) : Lasts fun r => node ∈ r.errors.keys where
  leave b id result error h := by
    cases error with
    | none => exact h
    | some message => exact Fields.mem_keys_set.mpr (.inr h)
  abort _ h := h
  merge _ _ h := Fields.mem_keys_overlay.mpr h

theorem Lasts.foldl {mentions : Report → Prop} (h : Lasts mentions) {report : Report}
    {reports : List Report} (hmentions : mentions report ∨ ∃ r ∈ reports, mentions r) :
    mentions (reports.foldl Report.merge report) := by
  induction reports generalizing report with
  | nil => simpa using hmentions
  | cons r reports ih =>
    refine ih ?_
    rcases hmentions with hbefore | ⟨s, hs, hlater⟩
    · exact .inl (h.merge report r (.inl hbefore))
    · rcases List.mem_cons.mp hs with rfl | hs
      · exact .inl (h.merge report s (.inr hlater))
      · exact .inr ⟨s, hs, hlater⟩

theorem Lasts.rejoin {mentions : Report → Prop} (h : Lasts mentions) {a : Strand}
    (ha : mentions a.report) (reports : List Report) : mentions (rejoin a reports).report := by
  cases a with
  | merge report => exact h.foldl (.inl ha)
  | _ => exact ha

/-- What a branch reports it reports after each of its deeds, too. -/
theorem Lasts.handed {mentions : Report → Prop} (hlasts : Lasts mentions) {j : Journal}
    {a : Strand} {events : List Event} {task : Task Strand Report}
    (h : Deed setup j a events task) (scope : Scope) (ha : mentions a.report) :
    ∃ x ∈ task.placed within scope, x.1 = scope ∧ mentions (reported x.2) := by
  cases h with
  | start _ _ hopening => cases hopening <;> exact ⟨_, List.mem_singleton_self _, rfl, ha⟩
  | leave => exact ⟨_, List.mem_singleton_self _, rfl, hlasts.leave _ _ _ _ ha⟩
  | abort =>
    exact ⟨_, List.mem_singleton_self _, rfl, hlasts.abort _ (hlasts.leave _ _ _ _ ha)⟩
  | batch | fan => exact ⟨_, List.mem_cons_self, rfl, ha⟩
  | _ => exact ⟨_, List.mem_singleton_self _, rfl, ha⟩

/-- A node that has failed is told of by the errors that are reported. -/
theorem lasting_error (scope : Scope) (node : String) : Lasting setup scope
    (fun x => node ∈ (reported x).errors.keys) (fun lap => node ∈ lap.errors.keys) where
  deed h ha := (lasts_error node).handed h scope ha
  returned reports ha := (lasts_error node).rejoin ha reports
  merged hr htold := (lasts_error node).foldl (.inr ⟨_, hr, htold⟩)
  lap h := h

/-- A node is reported with its result, or is at work. -/
def Told (scope : Scope) (node : String) (x : Occupant Strand Report) : Prop :=
  node ∈ (reported x).outputs.keys ∨ ∃ a, stateAt x = some a ∧ executing a = some (scope, node)

/-- A node that is at work stays so until it has left its result. -/
theorem Deed.work_handed {j : Journal} {a : Strand} {events : List Event}
    {task : Task Strand Report} (h : Deed setup j a events task) (here : Scope) {scope : Scope}
    {node : String} (hwork : executing a = some (scope, node)) :
    ∃ x ∈ task.placed within here, x.1 = here ∧ Told scope node x.2 := by
  have hgoes : ∀ next : Strand, task = .live next → executing next = executing a →
      ∃ x ∈ task.placed within here, x.1 = here ∧ Told scope node x.2 := by
    rintro next rfl hnext
    exact ⟨_, List.mem_singleton_self _, rfl, .inr ⟨next, rfl, hnext.trans hwork⟩⟩
  cases h with
  | leave | abort =>
    obtain ⟨-, rfl⟩ := Prod.mk.inj (Option.some.inj hwork)
    exact ⟨_, List.mem_singleton_self _, rfl, .inl (Fields.mem_keys_set.mpr (.inl rfl))⟩
  | @batch n course b count _ _ _ =>
    exact ⟨_, List.mem_cons_self, rfl, .inr ⟨.gather n course b, rfl, hwork⟩⟩
  | work | cancel | oversleep | wind | idle | conclude | again | overrest => exact hgoes _ rfl rfl
  | _ => cases hwork

/-- A node that was begun is told of, by the results that are reported if it is no longer at
work. -/
theorem lasting_output (scope : Scope) (node : String) : Lasting setup scope (Told scope node)
    (fun lap => node ∈ lap.output.keys) where
  deed h htold := by
    rcases htold with hreported | ⟨a, ha, hwork⟩
    · obtain ⟨x, hx, hscope, hlater⟩ := (lasts_output node).handed h scope hreported
      exact ⟨x, hx, hscope, .inl hlater⟩
    · obtain rfl := Option.some.inj ha
      exact h.work_handed scope hwork
  returned {a} reports htold := by
    rcases htold with hreported | ⟨b, hb, hwork⟩
    · exact .inl ((lasts_output node).rejoin hreported reports)
    · obtain rfl := Option.some.inj hb
      refine .inr ⟨_, rfl, ?_⟩
      cases a with
      | merge report => cases hwork
      | _ => exact hwork
  merged hr htold := by
    rcases htold with hreported | ⟨a, ha, -⟩
    · exact .inl ((lasts_output node).foldl (.inr ⟨_, hr, hreported⟩))
    · cases ha
  lap htold := by
    rcases htold with hreported | ⟨a, ha, -⟩
    · exact hreported
    · cases ha

/-- A node that a deed begins is at work in its scope. -/
theorem Deed.begun_fresh {j : Journal} {a : Strand} {events : List Event}
    {task : Task Strand Report} (h : Deed setup j a events task) {here scope : Scope}
    (ha : Located setup j here (.live a)) {node : String}
    (hmem : .reached scope node .resolving ∈ events) :
    ∃ x ∈ task.placed within here, x.1 = scope ∧ Told scope node x.2 := by
  cases h with
  | @start id b n opening next _ _ hopening =>
    have hsame : scope = b.view.scope ∧ node = n.id := by
      rcases hopening.events_eq with rfl | rfl <;> simpa [lineOf] using hmem
    obtain ⟨rfl, rfl⟩ := hsame
    refine ⟨_, List.mem_singleton_self _, (ha.2 _ rfl).symm, .inr ⟨next, rfl, hopening.executing⟩⟩
  | leave | abort => simp [mem_recorded, lineOf] at hmem
  | _ => simp [lineOf] at hmem

/-- A node that fails in a deed is reported with its error. -/
theorem Deed.failed_fresh {j : Journal} {a : Strand} {events : List Event}
    {task : Task Strand Report} (h : Deed setup j a events task) {here scope : Scope}
    (ha : Located setup j here (.live a)) {node : String}
    (hmem : Failed (j.adding events) scope node) : Failed j scope node ∨
      ∃ x ∈ task.placed within here, x.1 = scope ∧ node ∈ (reported x.2).errors.keys := by
  obtain ⟨message, herred⟩ := hmem
  rcases Journal.mem_adding.mp herred with hnew | hold
  swap
  · exact .inl ⟨message, hold⟩
  refine .inr ?_
  have hset : ∀ (b : Branch) (result : Value) {error : Option String}, error = some message →
      node ∈ (b.leave node result error).report.errors.keys := by
    rintro b result _ rfl
    exact Fields.mem_keys_set.mpr (.inl rfl)
  cases h with
  | @leave n outcome b _ | @abort n outcome b _ =>
    obtain ⟨rfl, rfl, herror⟩ := erred_mem_recorded.mp (by simpa using hnew)
    exact ⟨_, List.mem_singleton_self _, (ha.2 _ rfl).symm,
      hset b ((Verdict.of outcome).left n.failurePolicy) herror⟩
  | start _ _ hopening =>
    rcases hopening.events_eq with rfl | rfl <;> simp [lineOf] at hnew
  | _ => simp [lineOf] at hnew

/-! ### The report of a loop that has ended -/

section Ended

variable {given : Given} {world : World} {told : List Scope} {d : Pool State Strand Report}
  {outer : Scope} {loop : String} {i : ℕ} {here : Occupant Strand Report → Prop}
  {kept : Loop.Lap → Prop}

/-- A run with the scopes of the iterations that it has begun. -/
abbrev Begins (setup : Setup) (given : Given) (world : World) :
    List Scope → Pool State Strand Report → Prop :=
  Pool.Told (program setup) Disturbs (fun _ => enters setup) (opening setup given world)

/-- In every run reports and loops are accounted for. -/
theorem accounted_of_begins (h : Begins setup given world told d) :
    Concluded setup d.shared.journal told ∧
      ∀ x ∈ d.placed within [], Accounted setup d.shared.journal told x.1 x.2 :=
  accounted_kept.reaches (accounted_opening setup given world) h.noted

/-- A branch that has something in the lap of an iteration carries out the loop. -/
theorem Holds.executing {a : Strand} (h : Holds loop i kept a) :
    ∃ scope, executing a = some (scope, loop) := by
  cases a with
  | act n activity b => exact ⟨b.view.scope, h.1 ▸ rfl⟩
  | turn n course b => exact ⟨b.view.scope, h.1 ▸ rfl⟩
  | gather n course b => exact ⟨b.view.scope, h.1 ▸ rfl⟩
  | settle n course batch b => exact ⟨b.view.scope, h.1 ▸ rfl⟩
  | _ => exact h.elim

/-- Something about an iteration is told by the outcome of its loop, or the loop is at work: it
waits for a batch, or has it in the lap of the iteration. -/
def Known (d : Pool State Strand Report) (outer : Scope) (loop : String) (i : ℕ)
    (kept : Loop.Lap → Prop) : Prop :=
  (∃ outcome, .ended outer loop outcome ∈ d.shared.journal ∧ Answers i kept outcome) ∨
    ∃ a ∈ d.states, executing a = some (outer, loop) ∧
      ((∃ n course b, a = .gather n course b) ∨ Holds loop i kept a)

/-- What is due about an iteration, and was told of when it came up, is known. -/
theorem known_of_due (h : Begins setup given world told d)
    (hlasting : Lasting setup (outer ++ [(loop, (i : Int))]) here kept)
    (due : Journal → List Scope → Prop) (hnothing : ¬ due [] [])
    (hfresh : ∀ {j told scope a events task}, Accounted setup j told scope (.live a) →
      Deed setup j a events task → due (j.adding events) (told ++ entered a task) →
      due j told ∨ ∃ x ∈ task.placed within scope, x.1 = outer ++ [(loop, (i : Int))] ∧ here x.2)
    (hcancel : ∀ {j told}, due (j.adding [.cancelled]) told → due j told)
    (hdue : due d.shared.journal told) : Known d outer loop i kept := by
  have hcovered := (held hlasting due hfresh hcancel).covered_reaches accounted_kept
    (accounted_opening setup given world) h.noted (fun _ hdue => absurd hdue hnothing) () hdue
  rcases hcovered with hended | ⟨x, hx, ⟨hscope, -⟩ | ⟨hscope, a, ha, hholds⟩⟩
  · exact .inl hended
  · obtain ⟨n, course, b, hmem, hwork⟩ := exists_waiting_of_placed h.reaches hx hscope
    exact .inr ⟨_, hmem, hwork, .inl ⟨n, course, b, rfl⟩⟩
  · obtain ⟨scope, hwork⟩ := hholds.executing
    have hlocated := ((accounted_of_begins h).2 x hx).located
    obtain rfl : scope = outer := (executing_of_located hlocated ha hwork).trans hscope
    refine .inr ⟨a, ?_, hwork, .inr hholds⟩
    obtain ⟨place, occupant⟩ := x
    cases occupant with
    | live b =>
      obtain rfl := Option.some.inj ha
      exact Task.mem_statesAll_of_placed d.tasks (.inl hx)
    | waiting b =>
      obtain rfl := Option.some.inj ha
      exact Task.mem_statesAll_of_placed d.tasks (.inr hx)
    | ended report => cases ha

/-- Iterations are numbered. -/
theorem exists_index_of_begun (h : Begins setup given world told d) {i : Int}
    (hbegun : outer ++ [(loop, i)] ∈ told) : ∃ k : ℕ, i = k := by
  obtain ⟨c, path, a, hreach, hlive, hnew, -⟩ := h.exists_moment hbegun
  obtain ⟨events, hdeed, -, -⟩ := exists_deed setup c.shared a
  have hgrounded := (grounds_of_reaches hreach).2 a (Pool.mem_states_of_live hlive)
  have hentered : outer ++ [(loop, i)] ∈ entered a _ := hnew
  rcases hdeed.entered_cases hgrounded with hnone | ⟨n, course, b, count, rfl, hbatch⟩
  · rw [hnone] at hentered
    cases hentered
  · rw [hbatch] at hentered
    obtain ⟨k, -, heq⟩ := List.mem_map.mp hentered
    obtain ⟨-, hlast⟩ := List.append_inj' heq rfl
    obtain ⟨-, hk⟩ : n.id = loop ∧ (k : Int) = i := by simpa using hlast
    exact ⟨k, hk.symm⟩

/-- An iteration that was begun is known. -/
theorem iteration_known (h : Begins setup given world told d)
    (hbegun : outer ++ [(loop, (i : Int))] ∈ told) : Known d outer loop i fun _ => True := by
  refine known_of_due h (lasting_iteration _)
    (fun _ told => outer ++ [(loop, (i : Int))] ∈ told) List.not_mem_nil ?_ id hbegun
  intro j told scope a events task ha hdeed hdue
  rcases List.mem_append.mp hdue with hold | hnew
  · exact .inl hold
  · obtain ⟨x, hx, hscope⟩ := hdeed.exists_placed_of_entered ha.located hnew
    exact .inr ⟨x, hx, hscope, trivial⟩

/-- A node that was begun in an iteration is known. -/
theorem node_known (h : Begins setup given world told d) {node : String}
    (hbegun : .reached (outer ++ [(loop, (i : Int))]) node .resolving ∈ d.shared.journal) :
    Known d outer loop i fun lap => node ∈ lap.output.keys := by
  refine known_of_due h (lasting_output _ node)
    (fun j _ => .reached (outer ++ [(loop, (i : Int))]) node .resolving ∈ j)
    List.not_mem_nil ?_ (by simp) hbegun
  intro j told scope a events task ha hdeed hmem
  rcases Journal.mem_adding.mp hmem with hnew | hold
  · exact .inr (hdeed.begun_fresh ha.located hnew)
  · exact .inl hold

/-- A node that has failed in an iteration is known. -/
theorem failure_known (h : Begins setup given world told d) {node : String}
    (hfailed : Failed d.shared.journal (outer ++ [(loop, (i : Int))]) node) :
    Known d outer loop i fun lap => node ∈ lap.errors.keys := by
  refine known_of_due h (lasting_error _ node)
    (fun j _ => Failed j (outer ++ [(loop, (i : Int))]) node) ?_ ?_ ?_ hfailed
  · rintro ⟨message, hmem⟩
    cases hmem
  · exact fun ha hdeed hmem => hdeed.failed_fresh ha.located hmem
  · rintro j - ⟨message, hmem⟩
    exact ⟨message, by simpa using hmem⟩

/-- No iteration is begun twice. -/
theorem count_begun_le_one (h : Begins setup given world told d) (outer : Scope) (loop : String)
    (i : Int) : told.count (outer ++ [(loop, i)]) ≤ 1 := by
  induction h with
  | start => simp
  | rejoin _ _ _ ih => exact ih
  | outside _ _ ih => exact ih
  | @advance told d path a hbefore hlive ih =>
    rw [List.count_append]
    by_cases hnew : outer ++ [(loop, i)] ∈ enters setup d.shared a
    swap
    · rw [List.count_eq_zero.mpr hnew]
      exact ih
    -- a batch begins the iterations behind those that its loop has taken in
    have hreach := hbefore.reaches
    have hlivestate := Pool.mem_states_of_live hlive
    have hgrounded := (grounds_of_reaches hreach).2 a hlivestate
    obtain ⟨events, hdeed, -, -⟩ := exists_deed setup d.shared a
    rcases hdeed.entered_cases hgrounded with hnone | ⟨n, course, b, count, rfl, hbatch⟩
    · have hempty : enters setup d.shared a = [] := hnone
      rw [hempty] at hnew
      cases hnew
    have henters : enters setup d.shared (.turn n course b) = _ := hbatch
    rw [henters] at hnew ⊢
    obtain ⟨k, hk, heq⟩ := List.mem_map.mp hnew
    obtain ⟨rfl, hlast⟩ := List.append_inj' heq rfl
    obtain ⟨rfl, rfl⟩ : n.id = loop ∧ (k : Int) = i := by simpa using hlast
    have honce : ((List.range' course.next count).map fun (i : ℕ) =>
        b.view.scope ++ [(n.id, (i : Int))]).count (b.view.scope ++ [(n.id, (k : Int))]) ≤ 1 := by
      refine List.nodup_iff_count_le_one.mp (List.Nodup.map (fun k l hkl => ?_) List.nodup_range') _
      simpa using hkl
    have hnever : b.view.scope ++ [(n.id, (k : Int))] ∉ told := by
      intro hold
      have hwork : executing (.turn n course b) = some (b.view.scope, n.id) := rfl
      rcases iteration_known hbefore hold with ⟨outcome, hended, -⟩ | ⟨c, hc, hcwork, hholds⟩
      · exact not_executing_of_ended hreach hended hlivestate hwork
      obtain rfl := executing_unique hreach hc hlivestate hcwork hwork
      rcases hholds with ⟨_, _, _, hgather⟩ | ⟨-, lap, hlap, -⟩
      · cases hgather
      · obtain ⟨hlt, -⟩ := List.getElem?_eq_some_iff.mp hlap
        have hle := (List.mem_range'_1.mp hk).1
        rw [course.next_eq] at hle
        omega
    rw [List.count_eq_zero.mpr hnever]
    omega

/-- What is known about an iteration is told by the report with which its loop has ended. -/
theorem Known.exists_lap (hknown : Known d outer loop i kept)
    (h : Begins setup given world told d) {report : Loop.Report}
    (hended : .ended outer loop (.ok (.object report.toFields)) ∈ d.shared.journal)
    (hsame : ∀ {l l' : Loop.Lap}, l.output = l'.output → l.errors = l'.errors → kept l → kept l') :
    ∃ lap, report.laps[i]? = some lap ∧ kept lap := by
  rcases hknown with ⟨outcome, hother, hanswers⟩ | ⟨a, ha, hwork, -⟩
  swap
  · exact absurd hwork (not_executing_of_ended h.reaches hended ha)
  obtain rfl := outcome_unique h.reaches hended hother
  rcases hanswers with ⟨fault, heq⟩ | ⟨other, lap, heq, hlap, hkept⟩
  · cases heq
  obtain ⟨lap', hlap', houtput, herrors⟩ := Loop.Report.exists_lap_of_toFields
    (Value.object.inj (Except.ok.inj heq)).symm hlap
  exact ⟨lap', hlap', hsame houtput herrors hkept⟩

end Ended

/-- What the entry of an iteration in the results of a loop says: its index; under `output` each
node that was begun in the scope of the iteration, with the result that it wrote there; under
`errors` each node that has failed there with its message, and these nodes again under
`failedNodeIds`, both only if there are some; and whether there are none. -/
structure Accounts (j : Journal) (scope : Scope) (index : ℕ) (entry : Fields Value)
    (output : Fields Value) (errors : Fields String) : Prop where
  tells_index : entry.get? "index" = some (.int index)
  tells_output : entry.get? "output" = some (.object output)
  output_nodup : output.keys.Nodup
  stepped : ∀ node, node ∈ output.keys ↔ .reached scope node .resolving ∈ j
  wrote : ∀ node result, output.get? node = some result ↔ .wrote scope node result ∈ j
  tells_errors : entry.get? "errors" = if errors.isEmpty then none else
    some (.object (errors.map fun (node, message) => (node, .text message)))
  tells_failed : entry.get? "failedNodeIds" = if errors.isEmpty then none else
    some (.list (errors.keys.map .text))
  errors_nodup : errors.keys.Nodup
  erred : ∀ node message, errors.get? node = some message ↔ .erred scope node message ∈ j
  tells_success : ∃ success, entry.get? "success" = some (.bool success) ∧
    (success = true ↔ ∀ node, ¬ Failed j scope node)

/-- The result that a loop stores has the entries of its iterations. -/
theorem field_results_left (report : Loop.Report) (policy : FailurePolicy) :
    ((Verdict.of (.ok (.object report.toFields))).left policy).field "results"
      = .list (report.laps.zipIdx.map fun (lap, i) => lap.toValue i) := by
  have hkept : (Verdict.of (.ok (.object report.toFields))).kept.field "results"
      = .list (report.laps.zipIdx.map fun (lap, i) => lap.toValue i) :=
    Value.field_drop_of_ne report.toFields (by decide)
  unfold Verdict.left
  split
  · rw [Verdict.completed, Value.field_put_of_ne _ (by decide), hkept]
  · rw [Verdict.field_failed _ _ _ (by decide) (by decide), Value.field_put_of_ne _ (by decide),
      Value.field_put_of_ne _ (by decide), hkept]

section Ended

variable {given : Given} {world : World} {told : List Scope} {d : Pool State Strand Report}
  {outer : Scope} {loop : String}

/-- The lap of an iteration tells all that has happened in it. -/
theorem accounts_of_ended (h : Begins setup given world told d) {report : Loop.Report}
    (hended : .ended outer loop (.ok (.object report.toFields)) ∈ d.shared.journal)
    (hlaps : Faithful d.shared.journal told outer loop report.laps) {i : ℕ} {lap : Loop.Lap}
    (hlap : report.laps[i]? = some lap) :
    ∃ entry, lap.toValue i = .object entry ∧
      Accounts d.shared.journal (outer ++ [(loop, (i : Int))]) i entry lap.output lap.errors := by
  have hchronicle := chronicle_of_reaches h.reaches
  obtain ⟨-, r, rfl, hattested⟩ := hlaps i lap hlap
  -- whatever is told by some lap of the index is told by this one
  have hthis : ∀ {kept : Loop.Lap → Prop},
      (∃ lap, report.laps[i]? = some lap ∧ kept lap) → kept r.toLap := by
    rintro kept ⟨lap, hfound, hkept⟩
    exact Option.some.inj (hfound.symm.trans hlap) ▸ hkept
  have hbegun : ∀ node, .reached (outer ++ [(loop, (i : Int))]) node .resolving ∈ d.shared.journal →
      node ∈ r.outputs.keys := by
    intro node hdue
    exact hthis ((node_known h hdue).exists_lap h hended fun houtput _ hkept => houtput ▸ hkept)
  have hfailed : ∀ node, Failed d.shared.journal (outer ++ [(loop, (i : Int))]) node →
      node ∈ r.errors.keys := by
    intro node hdue
    exact hthis ((failure_known h hdue).exists_lap h hended fun _ herrors hkept => herrors ▸ hkept)
  obtain ⟨entry, hentry, hindex, hsuccess, houtput, herrors, hfailures⟩ := r.toLap.exists_fields i
  refine ⟨entry, hentry, hindex, houtput, hattested.outputs_nodup,
    fun node => ⟨fun hkey => ?_, hbegun node⟩,
    fun node result => ⟨hattested.wrote node result, fun hwrote => ?_⟩, herrors, hfailures,
    hattested.errors_nodup, fun node message => ⟨hattested.erred node message, fun herred => ?_⟩,
    _, hsuccess, ?_⟩
  · obtain ⟨result, hget⟩ := Fields.mem_keys_iff.mp hkey
    obtain ⟨m, outcome, -, hother, -⟩ := hchronicle.wrote_iff.mp (hattested.wrote node result hget)
    exact begun_of_ended h.reaches hother
  · -- the node has one outcome in the scope, so it wrote one result
    obtain ⟨m, outcome, hm, hother, rfl⟩ := hchronicle.wrote_iff.mp hwrote
    obtain ⟨result, hget⟩ := Fields.mem_keys_iff.mp (hbegun node (begun_of_ended h.reaches hother))
    obtain ⟨m', outcome', hm', hother', rfl⟩ :=
      hchronicle.wrote_iff.mp (hattested.wrote node result hget)
    obtain rfl := outcome_unique h.reaches hother hother'
    obtain rfl : m = m' := Option.some.inj (hm.symm.trans hm')
    exact hget
  · obtain ⟨outcome, hother, herror⟩ := hchronicle.erred_iff.mp herred
    obtain ⟨message', hget⟩ := Fields.mem_keys_iff.mp (hfailed node ⟨message, herred⟩)
    obtain ⟨outcome', hother', herror'⟩ :=
      hchronicle.erred_iff.mp (hattested.erred node message' hget)
    obtain rfl := outcome_unique h.reaches hother hother'
    obtain rfl := Option.some.inj (herror.symm.trans herror')
    exact hget
  · show r.errors.isEmpty = true ↔ _
    rw [List.isEmpty_iff]
    constructor
    · intro hnone node hfails
      have hkey := hfailed node hfails
      rw [hnone] at hkey
      cases hkey
    · intro hnone
      by_contra hsome
      obtain ⟨⟨node, message⟩, hmem⟩ := List.exists_mem_of_ne_nil _ hsome
      obtain ⟨message', hget⟩ := Fields.mem_keys_iff.mp (List.mem_map_of_mem (f := Prod.fst) hmem)
      exact hnone node ⟨message', hattested.erred node message' hget⟩

/-- Iterations with a lap were begun once, and others were not begun. -/
theorem count_begun (h : Begins setup given world told d) {report : Loop.Report}
    (hended : .ended outer loop (.ok (.object report.toFields)) ∈ d.shared.journal)
    (hlaps : Faithful d.shared.journal told outer loop report.laps) (i : Int) :
    told.count (outer ++ [(loop, i)]) = if 0 ≤ i ∧ i < report.laps.length then 1 else 0 := by
  split
  · next hindex =>
    obtain ⟨k, rfl⟩ := Int.eq_ofNat_of_zero_le hindex.1
    have hlt : k < report.laps.length := by exact_mod_cast hindex.2
    obtain ⟨hbegun, -⟩ := hlaps k _ (List.getElem?_eq_getElem hlt)
    exact Nat.le_antisymm (count_begun_le_one h outer loop k) (List.count_pos_iff.mpr hbegun)
  · next hindex =>
    refine List.count_eq_zero.mpr fun hbegun => hindex ?_
    obtain ⟨k, rfl⟩ := exists_index_of_begun h hbegun
    obtain ⟨lap, hlap, -⟩ := (iteration_known h hbegun).exists_lap h hended fun _ _ _ => trivial
    obtain ⟨hlt, -⟩ := List.getElem?_eq_some_iff.mp hlap
    exact ⟨Int.natCast_nonneg k, by exact_mod_cast hlt⟩

end Ended

/-- How many entries there are in the results that a node has written in the outermost scope. -/
def Sample.entriesOf (node : String) (j : Journal) : List ℕ :=
  j.filterMap fun
    | .wrote [] n result => match result.field "results" with
      | .list entries => if n = node then some entries.length else none
      | _ => none
    | _ => none

theorem Sample.exists_of_mem_entriesOf {node : String} {j : Journal} {count : ℕ}
    (h : count ∈ entriesOf node j) : ∃ result entries, .wrote [] node result ∈ j ∧
      result.field "results" = .list entries ∧ entries.length = count := by
  obtain ⟨e, he, heq⟩ := List.mem_filterMap.mp h
  split at heq
  · next n result =>
    split at heq
    · next entries hfield =>
      rw [Option.ite_none_right_eq_some, Option.some.injEq] at heq
      exact ⟨result, entries, heq.1 ▸ he, hfield, heq.2⟩
    · cases heq
  · cases heq

end Automation.Run
