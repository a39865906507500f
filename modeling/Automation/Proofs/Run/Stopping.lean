/-
Automation/Proofs/Run/Stopping.lean

Nodes that stop their scope, and the runs that fail of it.

A node that fails under the policy to stop aborts its branch.  The report of an aborted
branch says so and tells an error; branches that join hand both on, and the end of a
batch makes laps of them.  So reports and laps tell of nothing that did not happen
(`Sound`), and a node that stopped the outermost scope is told of by some report there
(`told_outermost`).  Both together make the failure of a run exact (`ComesTo.status_iff`).
-/
import Automation.Proofs.Fields
import Automation.Proofs.Loop.Course
import Automation.Proofs.Run.Conclusion
import Automation.Proofs.Run.Location

namespace Automation.Run

open Automation.Schedule (Occupant Pool Task)

variable {setup : Setup}

/-! ### Reports that tell of what happened -/

/-- A node whose policy is to stop has failed in a scope. -/
def Stopped (setup : Setup) (j : Journal) (scope : Scope) : Prop :=
  ∃ n, setup.graph.node? n.id = some n ∧ n.failurePolicy = .stop ∧ Failed j scope n.id

theorem not_stopped_nil (scope : Scope) : ¬ Stopped setup [] scope := by
  rintro ⟨n, -, -, message, hmem⟩
  cases hmem

theorem Stopped.adding {j : Journal} {scope : Scope} (h : Stopped setup j scope)
    (events : List Event) : Stopped setup (j.adding events) scope := by
  obtain ⟨n, hn, hpolicy, hfailed⟩ := h
  exact ⟨n, hn, hpolicy, hfailed.adding events⟩

/-- If a report says that its branch was aborted it tells an error, and the scope was
stopped. -/
def Backed (setup : Setup) (j : Journal) (scope : Scope) (report : Report) : Prop :=
  report.aborted = true → report.errors ≠ [] ∧ Stopped setup j scope

/-- If a lap says that its iteration was aborted it counts as failed, and an iteration of the
loop was stopped. -/
def LapBacked (setup : Setup) (j : Journal) (scope : Scope) (loop : String) (lap : Loop.Lap) :
    Prop :=
  lap.aborted = true → lap.success = false ∧ ∃ i : Int, Stopped setup j (scope ++ [(loop, i)])

theorem backed_empty (j : Journal) (scope : Scope) : Backed setup j scope .empty := by
  intro h
  cases h

theorem Backed.adding {j : Journal} {scope : Scope} {report : Report}
    (h : Backed setup j scope report) (events : List Event) :
    Backed setup (j.adding events) scope report :=
  fun haborted => ⟨(h haborted).1, (h haborted).2.adding events⟩

theorem LapBacked.adding {j : Journal} {scope : Scope} {loop : String} {lap : Loop.Lap}
    (h : LapBacked setup j scope loop lap) (events : List Event) :
    LapBacked setup (j.adding events) scope loop lap := by
  intro haborted
  obtain ⟨hfailed, i, hstopped⟩ := h haborted
  exact ⟨hfailed, i, hstopped.adding events⟩

theorem Backed.merge {j : Journal} {scope : Scope} {r s : Report} (hr : Backed setup j scope r)
    (hs : Backed setup j scope s) : Backed setup j scope (r.merge s) := by
  intro haborted
  rcases Bool.or_eq_true_iff.mp haborted with h | h
  · exact ⟨Fields.overlay_ne_nil (.inl (hr h).1), (hr h).2⟩
  · exact ⟨Fields.overlay_ne_nil (.inr (hs h).1), (hs h).2⟩

theorem Backed.foldl {j : Journal} {scope : Scope} {report : Report} {reports : List Report}
    (h : Backed setup j scope report) (hall : ∀ r ∈ reports, Backed setup j scope r) :
    Backed setup j scope (reports.foldl Report.merge report) := by
  induction reports generalizing report with
  | nil => exact h
  | cons r reports ih =>
    exact ih (h.merge (hall r List.mem_cons_self)) fun s hs => hall s (List.mem_cons_of_mem _ hs)

/-- A node that leaves its result does not make its branch aborted. -/
theorem Backed.leave {j : Journal} {scope : Scope} {b : Branch}
    (h : Backed setup j scope b.report) (node : String) (result : Value) (error : Option String) :
    Backed setup j scope (b.leave node result error).report := by
  intro haborted
  obtain ⟨herrors, hstopped⟩ := h haborted
  refine ⟨?_, hstopped⟩
  cases error with
  | none => exact herrors
  | some message => exact Fields.set_ne_nil _ _ _

/-- What a branch would report if it ended now. -/
def Strand.report : Strand → Report
  | .visit _ b => b.report
  | .act _ _ b => b.report
  | .turn _ _ b => b.report
  | .gather _ _ b => b.report
  | .settle _ _ _ b => b.report
  | .follow _ b => b.report
  | .merge report => report
  | .close report => report

/-- What is reported from a place, or would be if the branch there ended now. -/
def reported : Occupant Strand Report → Report
  | .live a => a.report
  | .waiting a => a.report
  | .ended report => report

/-- The laps of the batch that a loop takes in. -/
def batchOf : Occupant Strand Report → List (String × Loop.Lap)
  | .live (.settle n _ batch _) => batch.map fun lap => (n.id, lap)
  | _ => []

/-- What is in a scope belongs there, and tells of nothing that did not happen. -/
structure Sound (setup : Setup) (j : Journal) (scope : Scope) (x : Occupant Strand Report) :
    Prop where
  located : Located setup j scope x
  backed : Backed setup j scope (reported x)
  laps : ∀ lap ∈ batchOf x, LapBacked setup j scope lap.1 lap.2

theorem Sound.adding {j : Journal} {scope : Scope} {x : Occupant Strand Report}
    (h : Sound setup j scope x) (events : List Event) : Sound setup (j.adding events) scope x :=
  ⟨h.located.adding events, h.backed.adding events,
    fun lap hlap => (h.laps lap hlap).adding events⟩

theorem Sound.of_backed {j : Journal} {scope : Scope} {x : Occupant Strand Report}
    (hlocated : Located setup j scope x) (h : Backed setup j scope (reported x))
    (hx : batchOf x = []) : Sound setup j scope x :=
  ⟨hlocated, h, fun lap hlap => by rw [hx] at hlap; cases hlap⟩

/-- A node that aborts its branch has stopped its scope. -/
theorem stopped_of_aborts {j : Journal} {n : Node} {scope : Scope} {outcome : Except Fault Value}
    (hn : setup.graph.node? n.id = some n)
    (haborts : (Verdict.of outcome).aborts n.failurePolicy = true)
    (hj : ∀ e ∈ recorded n scope (.of outcome), e ∈ j) : Stopped setup j scope := by
  obtain ⟨herror, hpolicy⟩ := Bool.and_eq_true_iff.mp haborts
  obtain ⟨message, hmessage⟩ := Option.isSome_iff_exists.mp herror
  exact ⟨n, hn, of_decide_eq_true hpolicy, message,
    hj _ (erred_mem_recorded.mpr ⟨rfl, rfl, hmessage⟩)⟩

/-- The report of a branch that a node aborts tells the error of the node. -/
theorem errors_of_aborts {n : Node} (b : Branch) {v : Verdict}
    (haborts : v.aborts n.failurePolicy = true) :
    (b.leave n.id (v.left n.failurePolicy) v.error).report.errors ≠ [] := by
  obtain ⟨herror, -⟩ := Bool.and_eq_true_iff.mp haborts
  obtain ⟨message, hmessage⟩ := Option.isSome_iff_exists.mp herror
  rw [hmessage]
  exact Fields.set_ne_nil _ _ _

/-- What comes of a deed tells of nothing that did not happen. -/
theorem Deed.sound {j : Journal} {a : Strand} {events : List Event} {task : Task Strand Report}
    (h : Deed setup j a events task) {scope : Scope} (ha : Sound setup j scope (.live a)) :
    ∀ x ∈ task.placed within scope, Sound setup (j.adding events) x.1 x.2 := by
  have hbacked : Backed setup (j.adding events) scope a.report := ha.backed.adding events
  intro x hx
  have hlocated := h.located ha.located x hx
  cases h with
  | start _ _ hopening =>
    obtain rfl := List.mem_singleton.mp hx
    cases hopening <;> exact .of_backed hlocated hbacked rfl
  | leave =>
    obtain rfl := List.mem_singleton.mp hx
    exact .of_backed hlocated (hbacked.leave _ _ _) rfl
  | @abort n outcome b haborts =>
    obtain rfl := List.mem_singleton.mp hx
    obtain rfl : b.view.scope = scope := ha.located.2 _ rfl
    refine .of_backed hlocated (fun _ => ⟨errors_of_aborts b haborts, ?_⟩) rfl
    exact stopped_of_aborts ha.located.1.node haborts fun e he => by simp [he]
  | batch =>
    rcases mem_placed_batch hx with rfl | ⟨i, -, rfl⟩
    · exact .of_backed hlocated hbacked rfl
    · exact .of_backed hlocated (backed_empty _ _) rfl
  | fan =>
    rcases mem_placed_fan hx with rfl | ⟨target, -, rfl⟩
    · exact .of_backed hlocated hbacked rfl
    · exact .of_backed hlocated (backed_empty _ _) rfl
  | _ =>
    obtain rfl := List.mem_singleton.mp hx
    exact .of_backed hlocated hbacked rfl

/-- A report of an iteration, as a lap. -/
theorem Backed.toLap {j : Journal} {scope : Scope} {loop : String} {i : Int} {report : Report}
    (h : Backed setup j (scope ++ [(loop, i)]) report) : LapBacked setup j scope loop report.toLap := by
  intro haborted
  obtain ⟨herrors, hstopped⟩ := h haborted
  exact ⟨List.isEmpty_eq_false_iff.mpr herrors, i, hstopped⟩

/-- A branch that has waited tells what its forks have told. -/
theorem Sound.rejoin {j : Journal} {scope : Scope} {a : Strand} {reports : List Report}
    (ha : Sound setup j scope (.waiting a))
    (hreports : ∀ (k : ℕ) r, reports[k]? = some r → Sound setup j (within scope a k) (.ended r)) :
    Sound setup j scope (.live (rejoin a reports)) := by
  have hlocated := ha.located.rejoin reports
  cases a with
  | merge report =>
    refine .of_backed hlocated (ha.backed.foldl fun r hr => ?_) rfl
    obtain ⟨k, hk⟩ := List.mem_iff_getElem?.mp hr
    exact (hreports k r hk).backed
  | gather n course b =>
    refine ⟨hlocated, ha.backed, fun lap hlap => ?_⟩
    obtain ⟨found, hfound, rfl⟩ := List.mem_map.mp hlap
    obtain ⟨r, hr, rfl⟩ := List.mem_map.mp hfound
    obtain ⟨k, hk⟩ := List.mem_iff_getElem?.mp hr
    exact (hreports k r hk).backed.toLap
  | _ => exact ha.located.1.elim

/-- Runs keep reports to what happened. -/
theorem sound_kept : Pool.KeptAt (program setup) Disturbs within []
    (fun s => s.journal.Always (Fits setup)) (fun s => Sound setup s.journal) :=
  keptAt_of_deeds (J := Journal.Always (Fits setup)) (K := Sound setup)
    (fun hj ha h => h.fits hj ha.located.1) (fun _ ha h => h.sound ha)
    (fun _ ha hreports => ha.rejoin hreports) (fun hj => ⟨trivial, hj⟩)
    (fun events hx => hx.adding events)

theorem sound_opening (setup : Setup) (given : Given) (world : World) :
    Pool.HoldsAt within [] (fun s => s.journal.Always (Fits setup))
      (fun s => Sound setup s.journal) (opening setup given world) := by
  refine Pool.holdsAt_start Journal.always_nil
    (.of_backed ⟨⟨nested_nil, .start⟩, ?_⟩ (backed_empty _ _) rfl)
  rintro view ⟨⟩
  rfl

theorem sound_of_reaches {given : Given} {world : World} {c : Pool State Strand Report}
    (h : Reaches setup (opening setup given world) c) :
    Pool.HoldsAt within [] (fun s => s.journal.Always (Fits setup))
      (fun s => Sound setup s.journal) c :=
  sound_kept.reaches (sound_opening setup given world) h

/-! ### Nodes that stopped a scope are told of -/

/-- A branch that is aborted stays so. -/
theorem Deed.aborted_handed {j : Journal} {a : Strand} {events : List Event}
    {task : Task Strand Report} (h : Deed setup j a events task) (scope : Scope)
    (haborted : a.report.aborted = true) :
    ∃ x ∈ task.placed within scope, x.1 = scope ∧ (reported x.2).aborted = true := by
  cases h with
  | start _ _ hopening =>
    cases hopening <;> exact ⟨_, List.mem_singleton_self _, rfl, haborted⟩
  | abort => exact ⟨_, List.mem_singleton_self _, rfl, rfl⟩
  | batch | fan => exact ⟨_, List.mem_cons_self, rfl, haborted⟩
  | _ => exact ⟨_, List.mem_singleton_self _, rfl, haborted⟩

/-- An error is recorded in the deed that leaves the result of the node. -/
theorem Deed.erred_cases {j : Journal} {a : Strand} {events : List Event}
    {task : Task Strand Report} (h : Deed setup j a events task) {scope : Scope}
    {node message : String} (hmem : .erred scope node message ∈ events) :
    ∃ n outcome b, a = .act n (.finish outcome) b ∧ b.view.scope = scope ∧ n.id = node ∧
      (Verdict.of outcome).error = some message ∧
      ((Verdict.of outcome).aborts n.failurePolicy = true →
        ∃ report, task = .ended report ∧ report.aborted = true) := by
  cases h with
  | @leave n outcome b haborts =>
    obtain ⟨rfl, rfl, herror⟩ := erred_mem_recorded.mp (by simpa using hmem)
    exact ⟨n, outcome, b, rfl, rfl, rfl, herror, fun h => by rw [haborts] at h; cases h⟩
  | @abort n outcome b haborts =>
    obtain ⟨rfl, rfl, herror⟩ := erred_mem_recorded.mp (by simpa using hmem)
    exact ⟨n, outcome, b, rfl, rfl, rfl, herror, fun _ => ⟨_, rfl, rfl⟩⟩
  | start _ _ hopening =>
    rcases hopening.events_eq with rfl | rfl <;> simp [lineOf] at hmem
  | _ => simp [lineOf] at hmem

/-- A node that stops its scope aborts its branch. -/
theorem Deed.stopped_fresh {j : Journal} {a : Strand} {events : List Event}
    {task : Task Strand Report} (h : Deed setup j a events task) {here scope : Scope}
    (ha : Located setup j here (.live a)) (hstopped : Stopped setup (j.adding events) scope) :
    Stopped setup j scope ∨
      ∃ x ∈ task.placed within here, x.1 = scope ∧ (reported x.2).aborted = true := by
  obtain ⟨m, hm, hpolicy, message, hmem⟩ := hstopped
  rcases Journal.mem_adding.mp hmem with hnew | hold
  swap
  · exact .inl ⟨m, hm, hpolicy, message, hold⟩
  obtain ⟨n, outcome, b, rfl, rfl, hid, herror, habort⟩ := h.erred_cases hnew
  obtain rfl : m = n := Option.some.inj (hm.symm.trans (hid ▸ AtWork.node ha.1))
  obtain ⟨report, rfl, haborted⟩ := habort (by simp [Verdict.aborts, herror, hpolicy])
  exact .inr ⟨_, List.mem_singleton_self _, (ha.2 _ rfl).symm, haborted⟩

theorem aborted_foldl {report : Report} {reports : List Report}
    (h : report.aborted = true ∨ ∃ r ∈ reports, r.aborted = true) :
    (reports.foldl Report.merge report).aborted = true := by
  induction reports generalizing report with
  | nil => simpa using h
  | cons r reports ih =>
    refine ih ?_
    rcases h with h | ⟨s, hs, h⟩
    · exact .inl (by simp [Report.merge, h])
    · rcases List.mem_cons.mp hs with rfl | hs
      · exact .inl (by simp [Report.merge, h])
      · exact .inr ⟨s, hs, h⟩

/-- A branch that has waited is aborted if it was before. -/
theorem aborted_rejoin {a : Strand} (h : a.report.aborted = true) (reports : List Report) :
    (rejoin a reports).report.aborted = true := by
  cases a with
  | merge report => exact aborted_foldl (.inl h)
  | _ => exact h

theorem Stopped.of_cancelled {j : Journal} {scope : Scope}
    (h : Stopped setup (j.adding [.cancelled]) scope) : Stopped setup j scope := by
  obtain ⟨n, hn, hpolicy, message, hmem⟩ := h
  exact ⟨n, hn, hpolicy, message, by simpa using hmem⟩

/-- A node that stopped the outermost scope is told of there. -/
theorem told_outermost : Pool.HonouredAt (program setup) Disturbs within []
    (fun s => s.journal.Always (Fits setup)) (fun s => Sound setup s.journal)
    (fun s (_ : Unit) => Stopped setup s.journal []) (fun _ _ => False)
    (fun scope x _ => scope = [] ∧ (reported x).aborted = true) := by
  refine honouredAt_of_deeds (J := Journal.Always (Fits setup)) (K := Sound setup)
    (fun j (_ : Unit) => Stopped setup j []) (fun _ _ => False) _ (fun _ h => h) ?_ ?_ ?_
    (fun h => h.of_cancelled)
  · rintro j scope a events task i - - h ⟨rfl, haborted⟩
    exact .inr (h.aborted_handed [] haborted)
  · intro j scope a events task i _ ha h hdue
    rcases h.stopped_fresh ha.located hdue with hold | htold
    · exact .inl hold
    · exact .inr (.inr htold)
  · intro j scope a reports i _ ha _ howes
    refine .inr ?_
    rcases howes with ⟨rfl, haborted⟩ | ⟨k, r, hk, hscope, haborted⟩
    · exact ⟨rfl, aborted_rejoin haborted reports⟩
    · cases a with
      | merge report =>
        exact ⟨hscope, aborted_foldl (.inr ⟨r, List.mem_of_getElem? hk, haborted⟩)⟩
      | gather n course b => exact absurd hscope (List.append_ne_nil_of_right_ne_nil _ (by simp))
      | _ => exact ha.located.1.elim

/-- The report of a run says that it was aborted if and only if a node has stopped the
outermost scope. -/
theorem aborted_iff {given : Given} {world : World} {c : Pool State Strand Report}
    (h : Reaches setup (opening setup given world) c) {report : Report}
    (hended : c.tasks = [.ended report]) :
    report.aborted = true ↔ Stopped setup c.shared.journal [] := by
  have hplaced : c.placed within [] = [([], .ended report)] := by
    rw [Pool.placed, hended]
    rfl
  constructor
  · intro haborted
    have hsound := (sound_of_reaches h).2 ([], .ended report) (by simp [hplaced])
    exact (hsound.backed haborted).2
  · intro hstopped
    have hcovered := told_outermost.covered_reaches sound_kept (sound_opening setup given world) h
      (fun _ hdue => absurd hdue (not_stopped_nil [])) () hstopped
    rcases hcovered with hnone | ⟨x, hx, -, haborted⟩
    · exact hnone.elim
    · rw [hplaced, List.mem_singleton] at hx
      rw [hx] at haborted
      exact haborted

/-- The status of a run that has come to an outcome. -/
theorem ComesTo.status_iff {given : Given} {world : World} {j : Journal} {outcome : Outcome}
    (h : ComesTo setup given world j outcome) :
    (outcome.status = .failed ↔ Stopped setup j []) ∧
      (outcome.status = .cancelled ↔ ¬ Stopped setup j [] ∧ .cancelled ∈ j) ∧
      (outcome.status = .succeeded ↔ ¬ Stopped setup j [] ∧ .cancelled ∉ j) := by
  obtain ⟨hreach, hended⟩ := h
  rw [← aborted_iff hreach hended, ← Journal.isCancelled_iff]
  simp only [Outcome.of, statusOf]
  cases Report.aborted _ <;> cases Journal.isCancelled _ <;> simp

end Automation.Run
