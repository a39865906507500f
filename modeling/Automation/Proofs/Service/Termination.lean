/-
Automation/Proofs/Service/Termination.lean

The service comes to its end.

To a run the rest of the service is something that happens outside: it may change the world and
cancel the run.  So what every run keeps, the service keeps about each of its runs
(`kept_of_runs`), and the ranks of the branches of all runs descend together.  What a client
has left to ask is put in front of them, since each command opens one run at most
(`ranks_descend`).  Therefore the client is served and shuts the service down, and all runs come
to their end, in whatever order the tasks work (`exists_run`).
-/
import Automation.Proofs.Run.Termination
import Automation.Proofs.Service.Housing

namespace Automation.Service

open Automation.Schedule (Directive Machine Pool Task)

/-! ### What runs keep -/

section Runs

variable {J : Run.Setup → Run.State → Prop} {K : Run.Setup → Run.State → Run.Strand → Prop}

/-- A fact about what a run shares, of each run of the service. -/
def OfRuns (J : Run.Setup → Run.State → Prop) (d : Desk) : Prop :=
  d.Sound ∧ ∀ id s, d.sessions.get? id = some s → J s.setup (d.stateOf s)

/-- A fact about the strand of a task, which is in a run. -/
def OfStrand (K : Run.Setup → Run.State → Run.Strand → Prop) (d : Desk) (w : Work) : Prop :=
  ∀ id, w.run? = some id →
    ∃ s, d.sessions.get? id = some s ∧ K s.setup (d.stateOf s) w.strand

/-- A step of a task is a turn, if its run is there. -/
theorem OfStrand.turn {d : Desk} {w : Work} (hw : OfStrand K d w) :
    Turn d w (program.step d w).1 (program.step d w).2 :=
  turn_step d w fun id hid => (hw id hid).imp fun _ hs => hs.1

/-- What comes of a turn: work of the client, a run that was opened, or what comes of a strand. -/
theorem Turn.births {d d' : Desk} {w : Work} {directive : Directive Work Run.Report}
    (h : Turn d w d' directive) {b : Work} (hb : b ∈ directive.births program) :
    b.run? = none ∨
    (∃ g r, w.run? = none ∧ b.run? = some (Desk.idOf (d.issued + 1)) ∧
      b.strand = Run.firstStrand g (d.givenFor (Desk.idOf (d.issued + 1)) r) ∧
      d'.sessions.get? (Desk.idOf (d.issued + 1)) = some
        ⟨d.setupFor g, [], (d.givenFor (Desk.idOf (d.issued + 1)) r).vault, none⟩) ∨
    ∃ id s, w.run? = some id ∧ d.sessions.get? id = some s ∧ b.run? = some id ∧
      b.strand ∈ (Run.step s.setup (d.stateOf s) w.strand).2.births (Run.program s.setup) := by
  cases h with
  | answers _ hgoes =>
    obtain ⟨htask, hroots⟩ := goesOn_task hgoes
    rw [Directive.births, htask, hroots] at hb
    obtain rfl := List.mem_singleton.mp hb
    exact .inl rfl
  | cancels =>
    obtain rfl := List.mem_singleton.mp hb
    exact .inl rfl
  | @runs r rest g =>
    obtain rfl := List.mem_singleton.mp hb
    exact .inr (.inl ⟨g, r, rfl, rfl, rfl, Fields.get?_set_self ..⟩)
  | @starts r rest g =>
    have hb' : b = .client rest ∨ b = .background (Desk.idOf (d.issued + 1))
        (Run.firstStrand g (d.givenFor (Desk.idOf (d.issued + 1)) r)) := by
      simpa [Directive.births, Directive.task, Directive.roots] using hb
    rcases hb' with rfl | rfl
    · exact .inl rfl
    · exact .inr (.inl ⟨g, r, rfl, rfl, rfl, Fields.get?_set_self ..⟩)
  | shutsDown => cases hb
  | @works _ id s shared directive hid hs hstep =>
    have hroots := Run.roots_of_step hstep
    rw [Directive.births, roots_carry hroots, Task.statesAll_nil, List.append_nil] at hb
    obtain ⟨hrun, hstrand, -⟩ := (carried_task hid s.setup directive).of_mem_states hid hb
    refine .inr (.inr ⟨id, s, hid, hs, hrun, ?_⟩)
    rw [hstep]
    exact List.mem_append_left _ hstrand
  | reports => cases hb
  | ends => cases hb
  | returns =>
    obtain rfl := List.mem_singleton.mp hb
    exact .inl rfl

/-- What every run keeps, the service keeps about each of its runs. -/
theorem kept_of_runs
    (hkept : ∀ setup, Pool.Kept (Run.program setup) Run.Disturbs (J setup) (K setup))
    (hstart : ∀ setup given world, J setup ⟨[], Run.Given.vault given, world⟩ ∧
      K setup ⟨[], Run.Given.vault given, world⟩ (Run.firstStrand setup.graph given)) :
    Pool.Kept program (fun _ _ => False) (OfRuns J) (OfStrand K) where
  shared {d w} hd hw := by
    have hturn := hw.turn
    refine ⟨hturn.sound hd.1, fun id s' hs' => ?_⟩
    rcases hs : d.sessions.get? id with - | s
    · obtain ⟨g, r, -, -, rfl⟩ := hturn.fresh hd.1 hs hs'
      exact (hstart _ _ _).1
    · by_cases hid : w.run? = some id
      · obtain ⟨r, hr, hK⟩ := hw id hid
        obtain rfl := Option.some.inj (hs.symm.trans hr)
        obtain ⟨r', hr', hsetup, hstate⟩ := hturn.own hd.1 hid hs
        obtain rfl := Option.some.inj (hs'.symm.trans hr')
        rw [hsetup, hstate]
        exact (hkept s.setup).shared (hd.2 id s hs) hK
      · obtain ⟨r', hr', hsetup, -, hout⟩ := hturn.other hd.1 hid hs
        obtain rfl := Option.some.inj (hs'.symm.trans hr')
        rw [hsetup]
        exact ((hkept s.setup).outside hout (hd.2 id s hs)).1
  births {d w} hd hw b hb := by
    have hturn := hw.turn
    intro i hi
    rcases hturn.births hb with hnone | ⟨g, r, -, hid, hstrand, hs'⟩ | ⟨id, s, hid, hs, hbid, hmem⟩
    · rw [hnone] at hi
      cases hi
    · obtain rfl := Option.some.inj (hid.symm.trans hi)
      refine ⟨_, hs', ?_⟩
      rw [hstrand]
      exact (hstart _ _ _).2
    · obtain rfl := Option.some.inj (hbid.symm.trans hi)
      obtain ⟨r, hr, hK⟩ := hw id hid
      obtain rfl := Option.some.inj (hs.symm.trans hr)
      obtain ⟨s', hs', hsetup, hstate⟩ := hturn.own hd.1 hid hs
      refine ⟨s', hs', ?_⟩
      rw [hsetup, hstate]
      exact (hkept s.setup).births (hd.2 id s hs) hK b.strand hmem
  others {d w b} hd hw hb := by
    have hturn := hw.turn
    intro id hbid
    obtain ⟨s, hs, hKb⟩ := hb id hbid
    by_cases hid : w.run? = some id
    · obtain ⟨r, hr, hK⟩ := hw id hid
      obtain rfl := Option.some.inj (hs.symm.trans hr)
      obtain ⟨s', hs', hsetup, hstate⟩ := hturn.own hd.1 hid hs
      refine ⟨s', hs', ?_⟩
      rw [hsetup, hstate]
      exact (hkept s.setup).others (hd.2 id s hs) hK hKb
    · obtain ⟨s', hs', hsetup, -, hout⟩ := hturn.other hd.1 hid hs
      refine ⟨s', hs', ?_⟩
      rw [hsetup]
      exact ((hkept s.setup).outside hout (hd.2 id s hs)).2 _ hKb
  rejoin {d w} reports hd hw id hid := by
    rw [show program.rejoin w reports = rejoin w reports from rfl, Work.rejoin_eq] at hid ⊢
    rw [Work.run?_withStrand] at hid
    obtain ⟨s, hs, hK⟩ := hw id hid
    refine ⟨s, hs, ?_⟩
    rw [Work.strand_withStrand hid]
    exact (hkept s.setup).rejoin reports (hd.2 id s hs) hK
  outside h := h.elim

end Runs

/-! ### The end of the service -/

/-- Who is grounded in a run of the service. -/
abbrev Grounded : Desk → Work → Prop :=
  OfStrand fun setup shared a => Run.Grounded setup shared.journal a

/-- The journals of all runs keep to their order. -/
abbrev Orderly : Desk → Prop := OfRuns fun setup shared => shared.journal.Always (Run.Fits setup)

theorem grounds_kept : Pool.Kept program (fun _ _ => False) Orderly Grounded :=
  kept_of_runs (fun _ => Run.grounds_kept) fun setup given world =>
    have hopening := Run.grounds_opening setup given world
    ⟨hopening.1, hopening.2 _ (List.mem_singleton_self _)⟩

/-- What a client has left to ask, counted such that a run it waits for is more than what is asked
after it. -/
def Work.pending : Work → ℕ
  | .client commands => 2 * commands.length
  | .foreground _ _ rest => 2 * rest.length + 1
  | _ => 0

/-- The rank of the strand of a task in its run. -/
def strandRank (d : Desk) (w : Work) : Run.Rank :=
  match w.run?.bind d.sessions.get? with
  | some s => Run.rank s.setup s.journal w.strand
  | none => (0, 0, .inl 0)

/-- The rank of a task: what its client has left to ask, then the rank of its strand. -/
def rank (d : Desk) (w : Work) : ℕ × Run.Rank := (w.pending, strandRank d w)

def Lower : ℕ × Run.Rank → ℕ × Run.Rank → Prop := Prod.Lex (· < ·) Run.Lower

theorem wellFounded_lower : WellFounded Lower := by
  have hlt : WellFounded (fun m n : ℕ => m < n) := wellFounded_lt
  exact hlt.prod_lex Run.wellFounded_lower

theorem strandRank_eq {d : Desk} {w : Work} {id : String} {s : Session} (hid : w.run? = some id)
    (hs : d.sessions.get? id = some s) : strandRank d w = Run.rank s.setup s.journal w.strand := by
  simp [strandRank, hid, hs]

/-- A task of a run that is not there ends, or goes back to its client. -/
theorem task_of_absent {d : Desk} {w : Work} {id : String} (hid : w.run? = some id)
    (hnone : d.sessions.get? id = none) {b : Work} {children : List (Task Work Run.Report)} :
    (step d w).2.task program ≠ .waiting b children := by
  cases w with
  | client commands => cases hid
  | background | branch =>
    obtain rfl := Option.some.inj hid
    simp [step, stepRun, hnone, carried, Directive.task]
  | foreground i strand rest =>
    obtain rfl := Option.some.inj hid
    have hclose : (d.close i .empty).sessions.get? i = none := by
      simp [Desk.get?_close, hnone]
    simp [step, stepRun, hnone, carried, closeForeground, hclose, Directive.task]

/-- Tasks are left waiting only for branches of a run. -/
theorem waits_of_task {d : Desk} {w b : Work} {children : List (Task Work Run.Report)}
    (h : (step d w).2.task program = .waiting b children) : Run.Waits b.strand := by
  by_cases hthere : ∀ id, w.run? = some id → ∃ s, d.sessions.get? id = some s
  · have hturn := turn_step d w hthere
    generalize (step d w).1 = d' at hturn
    generalize (step d w).2 = directive at hturn h
    cases hturn with
    | answers _ hgoes => rw [(goesOn_task hgoes).1] at h; cases h
    | cancels | runs | starts | shutsDown | reports | ends | returns => cases h
    | @works _ id s shared directive hid hs hstep =>
      have hcarried := carried_task (w := w) hid s.setup directive
      rw [h] at hcarried
      generalize htask : directive.task (Run.program s.setup) = task at hcarried
      cases hcarried with
      | waiting =>
        rw [Work.strand_withStrand hid]
        rw [← show (Run.step s.setup (d.stateOf s) w.strand).2 = directive by rw [hstep]] at htask
        exact Run.waits_of_task htask
  · simp only [not_forall, not_exists] at hthere
    obtain ⟨id, hid, hnone⟩ := hthere
    exact absurd h (task_of_absent hid (Option.eq_none_iff_forall_ne_some.mpr hnone))

@[simp] theorem Work.pending_withStrand (w : Work) (next : Run.Strand) :
    (w.withStrand next).pending = w.pending := by
  cases w <;> rfl

theorem Carried.pending_le {w b : Work} {id : String} {t : Task Run.Strand Run.Report}
    {u : Task Work Run.Report} (h : Carried w id t u) (hb : b ∈ u.states) :
    b.pending ≤ w.pending := by
  cases h with
  | live =>
    obtain rfl := List.mem_singleton.mp hb
    exact (Work.pending_withStrand ..).le
  | waiting =>
    rcases Task.mem_states_forked.mp hb with rfl | ⟨child, -, rfl⟩
    · exact (Work.pending_withStrand ..).le
    · exact Nat.zero_le _
  | ended => cases hb

/-- What comes of a task has less to ask than the task had, or it is work on the same run. -/
theorem Turn.pending {d d' : Desk} {w b : Work} {directive : Directive Work Run.Report}
    (h : Turn d w d' directive) (hb : b ∈ directive.births program) :
    b.pending < w.pending ∨
      b.pending = w.pending ∧ ∃ id, w.run? = some id ∧ b.run? = some id := by
  cases h with
  | answers _ hgoes =>
    obtain ⟨htask, hroots⟩ := goesOn_task hgoes
    rw [Directive.births, htask, hroots] at hb
    obtain rfl := List.mem_singleton.mp hb
    exact .inl (by simp [Work.pending])
  | cancels | returns =>
    obtain rfl := List.mem_singleton.mp hb
    exact .inl (by simp [Work.pending])
  | runs =>
    obtain rfl := List.mem_singleton.mp hb
    exact .inl (by simp only [Work.pending, List.length_cons]; omega)
  | @starts r rest g =>
    have hb' : b = .client rest ∨ b = .background (Desk.idOf (d.issued + 1))
        (Run.firstStrand g (d.givenFor (Desk.idOf (d.issued + 1)) r)) := by
      simpa [Directive.births, Directive.task, Directive.roots] using hb
    rcases hb' with rfl | rfl <;> exact .inl (by simp [Work.pending])
  | shutsDown | reports | ends => cases hb
  | @works _ id s shared directive hid hs hstep =>
    have hroots := Run.roots_of_step hstep
    rw [Directive.births, roots_carry hroots, Task.statesAll_nil, List.append_nil] at hb
    have hcarried := carried_task (w := w) hid s.setup directive
    rcases (hcarried.pending_le hb).lt_or_eq with hlt | heq
    · exact .inl hlt
    · exact .inr ⟨heq, id, hid, (hcarried.of_mem_states hid hb).1⟩

/-- A client that goes on has less to ask than before, or the rank of its strand has gone down. -/
theorem ranks_descend : Pool.Descends program (fun _ _ => False) Orderly Grounded
    (fun w => Run.Waits w.strand) Lower rank where
  wellFounded := wellFounded_lower
  forks d w b children h := waits_of_task h
  births {d w} hd hw b hb := by
    have hturn := hw.turn
    rcases hturn.pending hb with hless | ⟨hsame, id, hid, hbid⟩
    · exact .left _ _ hless
    · rcases hturn.births hb with hnone | ⟨g, r, hnone, -⟩ | ⟨i, s, hi, hs, -, hmem⟩
      · rw [hnone] at hbid
        cases hbid
      · rw [hnone] at hid
        cases hid
      · obtain rfl := Option.some.inj (hi.symm.trans hid)
        obtain ⟨r, hr, hK⟩ := hw i hid
        obtain rfl := Option.some.inj (hs.symm.trans hr)
        obtain ⟨s', hs', hsetup, hstate⟩ := hturn.own hd.1 hid hs
        have hdown := (Run.ranks_descend s.setup).births (hd.2 i s hs) hK b.strand hmem
        rw [rank, rank, hsame, strandRank_eq hbid hs', strandRank_eq hid hs, hsetup]
        refine .right _ ?_
        rwa [show s'.journal = _ from congrArg Run.State.journal hstate]
  others {d w b} hd hw hb := by
    have hturn := hw.turn
    rcases hbid : b.run? with - | id
    · exact .inl (by simp [rank, strandRank, hbid])
    · obtain ⟨s, hs, hKb⟩ := hb id hbid
      by_cases hid : w.run? = some id
      · obtain ⟨r, hr, hK⟩ := hw id hid
        obtain rfl := Option.some.inj (hs.symm.trans hr)
        obtain ⟨s', hs', hsetup, hstate⟩ := hturn.own hd.1 hid hs
        have hdown := (Run.ranks_descend s.setup).others (hd.2 id s hs) hK hKb
        rw [rank, rank, strandRank_eq hbid hs', strandRank_eq hbid hs, hsetup,
          show s'.journal = _ from congrArg Run.State.journal hstate]
        exact hdown.imp (congrArg _) (.right _)
      · obtain ⟨s', hs', hsetup, -, hout⟩ := hturn.other hd.1 hid hs
        have hsame := (Run.ranks_descend s.setup).outside (a := b.strand) hout
        rw [rank, rank, strandRank_eq hbid hs', strandRank_eq hbid hs, hsetup]
        exact .inl (congrArg _ hsame)
  rejoin {d w results} hd hw hwaits hne := by
    rcases hid : w.run? with - | id
    · cases w with
      | client commands => exact hwaits.elim
      | _ => cases hid
    · obtain ⟨s, hs, hK⟩ := hw id hid
      show Lower (rank d (rejoin w results)) (rank d w)
      rw [Work.rejoin_eq, rank, rank, Work.pending_withStrand, strandRank_eq hid hs,
        strandRank_eq ((Work.run?_withStrand ..).trans hid) hs, Work.strand_withStrand hid]
      exact .right _ (Run.rank_rejoin hK hwaits hne)
  outside h := h.elim

/-- A service that has no run yet. -/
structure Desk.Fresh (d : Desk) : Prop where
  sound : d.Sound
  empty : ∀ id, d.sessions.get? id = none

theorem Desk.fresh_new (settings : Settings) (registry : Registry) (now : Moment)
    (surroundings : Fields Value) (secretStore : SecretStore) (world : World) :
    (Desk.new settings registry now surroundings secretStore world).Fresh :=
  ⟨Desk.sound_new .., fun _ => rfl⟩

theorem Desk.Fresh.housed {d : Desk} (hd : d.Fresh) (commands : List Command) :
    Housed (opening d commands) :=
  housed_opening hd.sound (fun id => by simp [Desk.Unfinished, hd.empty]) commands

/-- A service comes to its end, in whatever order its tasks work. -/
theorem acc_opening {d : Desk} (hd : d.Fresh) (commands : List Command) :
    Acc (fun after before => Pool.Move program before after) (opening d commands) := by
  have hshared : Orderly d := ⟨hd.sound, fun id s hs => by simp [hd.empty] at hs⟩
  have hclient : Grounded d (.client commands) := fun _ hid => by cases hid
  exact ranks_descend.acc grounds_kept (Pool.holds_start hshared hclient) (Pool.forked_start _ _)

/-- The service after some steps in the order of its queue. -/
def serving (d : Desk) (commands : List Command) (n : ℕ) : Machine Desk Work Run.Report :=
  ((Machine.start d (.client commands)).run program n).1

theorem reaches_serving (d : Desk) (commands : List Command) (n : ℕ) :
    Reaches (opening d commands) (serving d commands n).toPool :=
  Machine.reaches_run program (fun _ _ => False) n (.start d (.client commands))

/-- Once the service has come to its end, more steps change nothing. -/
theorem run_add {d : Desk} {commands : List Command} {fuel : ℕ}
    (h : (run fuel d commands).2 = true) (more : ℕ) :
    run (fuel + more) d commands = ((serving d commands fuel).shared, true) := by
  have hended : ((Machine.start d (Work.client commands)).run program fuel).2 = true := h
  unfold run
  rw [Machine.run_add hended, ← hended]
  rfl

/-- In the order of its queue the service comes to its end after finitely many steps. -/
theorem exists_run {d : Desk} (hd : d.Fresh) (commands : List Command) :
    ∃ fuel, (serving d commands fuel).IsOver ∧
      ∀ more, run (fuel + more) d commands = ((serving d commands fuel).shared, true) := by
  obtain ⟨fuel, hfuel⟩ := Machine.exists_run (m := Machine.start d (Work.client commands))
    (acc_opening hd commands)
  exact ⟨fuel, Machine.isOver_of_run (Machine.attentive_start _ _) hfuel, run_add hfuel⟩

end Automation.Service
