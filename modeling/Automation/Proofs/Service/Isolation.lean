/-
Automation/Proofs/Service/Isolation.lean

Runs that do not get in each other's way.

All runs of the service share one queue, one clock and one world.  A run whose actions keep to
themselves is nevertheless, step by step, the run of the same request on its own (`onItsOwn`): it
is lodged in the service (`Hosted`), whoever else works there.  Only a cancellation
can make a difference (`Hosted.next`).  So what it comes to among others (`reported_among`) is what
the client gets that asks for nothing else and waits for the run (`served_alone`).
-/
import Automation.Proofs.Run.Seclusion
import Automation.Proofs.Schedule.Lodging
import Automation.Proofs.Service.Attendance

namespace Automation.Service

open Automation.Schedule (Directive Lodged Machine Parallel Pool Task)

/-! ### The run on its own -/

/-- The run of a request without anybody else, after some steps. -/
def onItsOwn (d : Desk) (g : Graph) (r : RunRequest) (n : ℕ) :
    Machine Run.State Run.Strand Run.Report :=
  ((Run.beginning (d.setupFor g) (d.givenFor "" r) [] Run.nowhere).run
    (Run.program (d.setupFor g)) n).1

section

variable {d : Desk} {g : Graph} {r : RunRequest} {n k : ℕ}

theorem onItsOwn_succ {own : Machine Run.State Run.Strand Run.Report}
    (h : (onItsOwn d g r n).step? (Run.program (d.setupFor g)) = some own) :
    onItsOwn d g r (n + 1) = own := by
  have hsucc : onItsOwn d g r (n + 1)
      = ((onItsOwn d g r n).step? (Run.program (d.setupFor g))).getD (onItsOwn d g r n) :=
    Machine.run_succ ..
  rw [hsucc, h, Option.getD_some]

/-- All actions at work keep to the run. -/
theorem secluded_onItsOwn (h : Run.Secluded (d.setupFor g)) :
    ∀ b ∈ (onItsOwn d g r n).states, b.Secluded :=
  ((Run.sealed_of_secluded h).kept.reaches
    ⟨trivial, by simp [Run.beginning, Machine.start, Pool.start, Pool.states, Run.firstStrand,
      Run.Strand.Secluded]⟩
    (Machine.reaches_run _ (fun _ _ => False) n _)).2

/-- Once the run has ended nothing changes any more. -/
theorem onItsOwn_add {report : Run.Report} (h : (onItsOwn d g r n).tasks = [.ended report]) :
    (onItsOwn d g r (n + k)).toPool = (onItsOwn d g r n).toPool := by
  rw [onItsOwn, Machine.run_append]
  exact Machine.eq_of_isOver (Run.isOver_of_ended h) (Machine.reaches_run _ _ k _)

/-- The run comes to one end. -/
theorem onItsOwn_unique {report report' : Run.Report} {n' : ℕ}
    (h : (onItsOwn d g r n).tasks = [.ended report])
    (h' : (onItsOwn d g r n').tasks = [.ended report']) :
    report' = report ∧ (onItsOwn d g r n').shared = (onItsOwn d g r n).shared := by
  have hpools : (onItsOwn d g r n').toPool = (onItsOwn d g r n).toPool := by
    rcases Nat.le_total n n' with hle | hle
    · obtain ⟨k, rfl⟩ := Nat.exists_eq_add_of_le hle
      exact onItsOwn_add h
    · obtain ⟨k, rfl⟩ := Nat.exists_eq_add_of_le hle
      exact (onItsOwn_add h').symm
  have htasks := congrArg Pool.tasks hpools
  rw [h, h'] at htasks
  exact ⟨by simpa using htasks, congrArg Pool.shared hpools⟩

/-- The run comes to its end. -/
theorem exists_end (d : Desk) (g : Graph) (r : RunRequest) :
    ∃ n report, (onItsOwn d g r n).tasks = [.ended report] := by
  have hstart : Run.Reaches (d.setupFor g)
      (Run.opening (d.setupFor g) (d.givenFor "" r) Run.nowhere)
      (Run.beginning (d.setupFor g) (d.givenFor "" r) [] Run.nowhere).toPool := .refl
  have hacc := (Run.ranks_descend (d.setupFor g)).acc Run.grounds_kept
    (Run.grounds_of_reaches hstart) (Pool.forked_start _ _)
  obtain ⟨n, hn⟩ := Machine.exists_run hacc
  have hover := Machine.isOver_of_run (Machine.attentive_start _ _) hn
  have hreach := hstart.trans (Machine.reaches_run _ Run.Disturbs n _)
  exact ⟨n, Run.exists_report hreach hover⟩

end

/-! ### A run among others -/

/-- A task of the service, seen without the name of its run in what the run sees. -/
def Work.seen (w : Work) : Option String × Run.Strand := (w.run?, w.strand.anonymous)

/-- A strand that is on its own, seen as a task of a run. -/
def seenAs (id : String) (a : Run.Strand) : Option String × Run.Strand := (some id, a.anonymous)

/-- The session of a run that is at work, as far as it is on its own after `n` steps. -/
def sessionAt (d : Desk) (g : Graph) (r : RunRequest) (n : ℕ) : Session :=
  ⟨d.setupFor g, (onItsOwn d g r n).shared.journal, (onItsOwn d g r n).shared.vault, none⟩

/-- A run of the service is at work, as far as it is on its own after `n` steps. -/
structure Hosted (d : Desk) (g : Graph) (r : RunRequest) (id : String) (k T n : ℕ)
    (m : Machine Desk Work Run.Report) : Prop where
  lodged : Lodged Work.seen (seenAs id) k T (onItsOwn d g r n) m
  going : ∀ report, (onItsOwn d g r n).tasks ≠ [.ended report]
  session : m.shared.sessions.get? id = some (sessionAt d g r n)

/-- A run of the service has come to what it comes to on its own. -/
def Settled (d : Desk) (g : Graph) (r : RunRequest) (id : String) (e : Desk) : Prop :=
  ∃ n report, (onItsOwn d g r n).tasks = [.ended report] ∧
    (e.sessions.get? id).bind Session.outcome
      = some (.of id g (onItsOwn d g r n).shared.journal report)

/-- A run was cancelled before it has come to its end. -/
def Interrupted (e : Desk) (id : String) : Prop :=
  ∃ s, e.sessions.get? id = some s ∧ s.outcome = none ∧ .cancelled ∈ s.journal

theorem rejoin_seen (id : String) (w : Work) (a : Run.Strand) (results : List Run.Report)
    (h : w.seen = seenAs id a) :
    (program.rejoin w results).seen = seenAs id (Run.rejoin a results) := by
  obtain ⟨hid, hstrand⟩ := Prod.mk.inj h
  show (rejoin w results).seen = _
  rw [Work.rejoin_eq, Work.seen, Work.run?_withStrand, Work.strand_withStrand hid,
    Run.rejoin_anonymous, hstrand, ← Run.rejoin_anonymous, hid]
  rfl

/-- Directives that look the same do so as directives of tasks. -/
theorem parallel_carry {w : Work} {id : String} (hid : w.run? = some id)
    {directive directive' : Directive Run.Strand Run.Report}
    (h : directive.map Run.Strand.anonymous = directive'.map Run.Strand.anonymous)
    (hroots : directive.roots = []) :
    Parallel Work.seen (seenAs id) (w.carry id directive) directive' := by
  have hseen : ∀ {next next' : Run.Strand}, next.anonymous = next'.anonymous →
      (w.withStrand next).seen = seenAs id next' := by
    intro next next' h
    rw [Work.seen, Work.run?_withStrand, hid, Work.strand_withStrand hid, h]
    rfl
  cases directive with
  | proceed next =>
    cases directive' with
    | proceed next' => exact .proceed (hseen (by simpa [Directive.map] using h))
    | _ => simp [Directive.map] at h
  | pause next =>
    cases directive' with
    | pause next' => exact .pause (hseen (by simpa [Directive.map] using h))
    | _ => simp [Directive.map] at h
  | sleep microseconds next =>
    cases directive' with
    | sleep microseconds' next' =>
      obtain ⟨rfl, hnext⟩ : microseconds = microseconds' ∧ next.anonymous = next'.anonymous := by
        simpa [Directive.map] using h
      exact .sleep (hseen hnext)
    | _ => simp [Directive.map] at h
  | fork children waiting =>
    cases directive' with
    | fork children' waiting' =>
      obtain ⟨hchildren, hwaiting⟩ : children.map Run.Strand.anonymous
          = children'.map Run.Strand.anonymous ∧ waiting.anonymous = waiting'.anonymous := by
        simpa [Directive.map] using h
      refine .fork ?_ (hseen hwaiting)
      have hbranches := congrArg (List.map (Prod.mk (some id))) hchildren
      rw [List.map_map, List.map_map] at hbranches
      rw [List.map_map]
      exact hbranches
    | _ => simp [Directive.map] at h
  | spawn child next => cases hroots
  | finish report =>
    cases directive' with
    | finish report' =>
      obtain rfl : report = report' := by simpa [Directive.map] using h
      exact .finish
    | _ => simp [Directive.map] at h

/-- Only a directive that ends the strand looks like one. -/
theorem eq_finish_of_map {report : Run.Report} {directive : Directive Run.Strand Run.Report}
    (h : Directive.map Run.Strand.anonymous (.finish report)
      = directive.map Run.Strand.anonymous) : directive = .finish report := by
  cases directive with
  | finish report' => simpa [Directive.map] using h.symm
  | _ => simp [Directive.map] at h

/-- A run has one root. -/
theorem Housed.root_unique {c : House} (hc : Housed c) {i k : ℕ} {t u : Task Work Run.Report}
    {id : String} (hi : c.tasks[i]? = some t) (hk : c.tasks[k]? = some u)
    (ht : owner t = some id) (hu : owner u = some id) : i = k := by
  have happart := List.pairwise_filterMap.mp hc.apart
  obtain ⟨hilt, rfl⟩ := List.getElem?_eq_some_iff.mp hi
  obtain ⟨hklt, rfl⟩ := List.getElem?_eq_some_iff.mp hk
  rcases Nat.lt_trichotomy i k with hlt | heq | hlt
  · exact absurd rfl (List.pairwise_iff_getElem.mp happart i k hilt hklt hlt id ht id hu)
  · exact heq
  · exact absurd rfl (List.pairwise_iff_getElem.mp happart k i hklt hilt hlt id hu id ht)

section

variable {d : Desk} {g : Graph} {r : RunRequest} {id : String} {k T n : ℕ}
  {m m' : Machine Desk Work Run.Report}

theorem Hosted.outcome_eq (h : Hosted d g r id k T n m) :
    (m.shared.sessions.get? id).bind Session.outcome = none := by
  rw [h.session]
  rfl

/-- The root in which the run is lodged is its house. -/
theorem Hosted.exists_house (h : Hosted d g r id k T n m) :
    ∃ t, m.tasks[k]? = some t ∧ owner t = some id := by
  obtain ⟨t, u, ht, hu, hmap⟩ := h.lodged.root
  refine ⟨t, ht, ?_⟩
  cases u with
  | ended report => exact absurd hu (h.going report)
  | live b =>
    obtain ⟨w, rfl, hseen⟩ := Task.exists_live_of_map_eq hmap.symm rfl
    exact (Prod.mk.inj hseen).1.symm
  | waiting b below =>
    obtain ⟨w, children, rfl, hseen, -⟩ := Task.exists_waiting_of_map_eq hmap.symm rfl
    exact (Prod.mk.inj hseen).1.symm

/-- Whoever works on the run does so in that root. -/
theorem Hosted.root_eq (h : Hosted d g r id k T n m) (hc : Housed m.toPool) {i : ℕ}
    {path : List ℕ} {w : Work} (hat : m.at? (i :: path) = some (.live w))
    (hid : w.run? = some id) : i = k := by
  obtain ⟨u, hu, howner⟩ := h.exists_house
  obtain ⟨j, rest, t, heq, hj, hroot⟩ := Pool.at?_eq_some hat
  obtain ⟨rfl, rfl⟩ := List.cons.inj heq
  have hmem := Task.states_subset hroot (List.mem_singleton_self w)
  exact hc.root_unique hj hu ((hc.households t (List.mem_of_getElem? hj)).owner_eq hmem hid) howner

/-- A machine with one root has ended if the step of its root was the last one. -/
theorem ended_advance {own : Machine Run.State Run.Strand Run.Report} {setup : Run.Setup}
    {u : Task Run.Strand Run.Report} {path : List ℕ} {b : Run.Strand} {report : Run.Report}
    (hroot : own.tasks = [u]) (hat : own.at? (0 :: path) = some (.live b)) :
    (own.advance (Run.program setup) (0 :: path) b).tasks = [.ended report] ↔
      path = [] ∧ (Run.step setup own.shared b).2 = .finish report := by
  have hu : u.at? path = some (.live b) := by simpa [Pool.at?, hroot] using hat
  obtain ⟨-, -, -, hroots⟩ := Run.exists_deed setup own.shared b
  have htasks : (own.advance (Run.program setup) (0 :: path) b).tasks
      = [u.replace path ((Run.step setup own.shared b).2.task (Run.program setup))] := by
    show own.tasks.modify 0 _ ++ (Run.step setup own.shared b).2.roots = _
    rw [hroot, hroots]
    rfl
  rw [htasks]
  constructor
  · intro h
    obtain ⟨hpath, htask⟩ := Task.ended_of_replace hu (List.cons.inj h).1
    exact ⟨hpath, eq_finish htask⟩
  · rintro ⟨rfl, hfinish⟩
    rw [hfinish]
    rfl

/-- A strand that looks the same on its own takes a step that looks the same. -/
theorem likeness (hsecluded : Run.Secluded (d.setupFor g)) {w : Work} {b : Run.Strand}
    (hb : b ∈ (onItsOwn d g r n).states) (hstrand : w.strand.anonymous = b.anonymous)
    {e : Desk} {shared : Run.State} {directive : Directive Run.Strand Run.Report}
    (hstep : Run.step (d.setupFor g) (e.stateOf (sessionAt d g r n)) w.strand
      = (shared, directive)) :
    shared.journal = (Run.step (d.setupFor g) (onItsOwn d g r n).shared b).1.journal ∧
    shared.vault = (Run.step (d.setupFor g) (onItsOwn d g r n).shared b).1.vault ∧
    directive.map Run.Strand.anonymous
      = (Run.step (d.setupFor g) (onItsOwn d g r n).shared b).2.map Run.Strand.anonymous := by
  have hKb := secluded_onItsOwn hsecluded b hb
  have hKw : w.strand.Secluded := by
    rw [← Run.Strand.secluded_anonymous, hstrand, Run.Strand.secluded_anonymous]
    exact hKb
  have hstates : Run.State.unworldly (e.stateOf (sessionAt d g r n))
      = (onItsOwn d g r n).shared.unworldly := rfl
  have halike := (Run.sealed_of_secluded hsecluded).step_congr hKw hKb hstates hstrand
  rw [show (Run.program (d.setupFor g)).step _ w.strand = (shared, directive) from hstep] at halike
  have hstate : shared.unworldly
      = (Run.step (d.setupFor g) (onItsOwn d g r n).shared b).1.unworldly := halike.1
  have hjournal := congrArg Run.State.journal hstate
  have hvault := congrArg Run.State.vault hstate
  exact ⟨hjournal, hvault, halike.2⟩

/-- What a task does for its run: it goes on, or it is the head of the run and ends it. -/
theorem Turn.of_run {e e' : Desk} {w : Work} {directive : Directive Work Run.Report}
    (h : Turn e w e' directive) (hid : w.run? = some id) {s : Session}
    (hs : e.sessions.get? id = some s) {shared : Run.State}
    {step : Directive Run.Strand Run.Report}
    (hstep : Run.step s.setup (e.stateOf s) w.strand = (shared, step)) :
    (e' = e.sharing id shared ∧ directive = w.carry id step ∧
      ∀ report, step = .finish report → w.IsBranch) ∨
    ∃ report, step = .finish report ∧ ¬ w.IsBranch ∧
      (e'.sessions.get? id).bind Session.outcome
        = some (.of id s.setup.graph shared.journal report) := by
  cases h with
  | answers | cancels | runs | starts | shutsDown => cases hid
  | works hi hr hstep' hgoes =>
    obtain rfl := Option.some.inj (hi.symm.trans hid)
    obtain rfl := Option.some.inj (hr.symm.trans hs)
    obtain ⟨rfl, rfl⟩ := Prod.mk.inj (hstep'.symm.trans hstep)
    exact .inl ⟨rfl, rfl, fun report hfinish => absurd hfinish (hgoes report)⟩
  | reports hr hstep' =>
    obtain rfl := Option.some.inj hid
    obtain rfl := Option.some.inj (hr.symm.trans hs)
    obtain ⟨rfl, rfl⟩ := Prod.mk.inj (hstep'.symm.trans hstep)
    exact .inl ⟨rfl, rfl, fun _ _ => trivial⟩
  | ends hr hstep' | returns hr hstep' =>
    obtain rfl := Option.some.inj hid
    obtain rfl := Option.some.inj (hr.symm.trans hs)
    obtain ⟨rfl, rfl⟩ := Prod.mk.inj (hstep'.symm.trans hstep)
    refine .inr ⟨_, rfl, fun h => h, ?_⟩
    simp only [Desk.sessions_answer, Desk.get?_close_sharing, hs]
    rfl

/-- A task of the run takes a step: the run on its own takes the same step, and the run is at
work as before or has come to the same end. -/
theorem Hosted.own (h : Hosted d g r id k T n m) (hc : Housed m.toPool)
    (hsecluded : Run.Secluded (d.setupFor g)) {path : List ℕ} {w : Work} {b : Run.Strand}
    {own : Machine Run.State Run.Strand Run.Report} (hat : m.at? (k :: path) = some (.live w))
    (hb : (onItsOwn d g r n).at? (0 :: path) = some (.live b)) (hseen : w.seen = seenAs id b)
    (hpool : m'.toPool = m.toPool.advance program (k :: path) w)
    (hown : onItsOwn d g r (n + 1) = own)
    (hownPool : own.toPool
      = (onItsOwn d g r n).toPool.advance (Run.program (d.setupFor g)) (0 :: path) b)
    (hstay : Parallel Work.seen (seenAs id) (step m.shared w).2
      (Run.step (d.setupFor g) (onItsOwn d g r n).shared b).2 →
      Lodged Work.seen (seenAs id) k T own m') :
    (∃ n', Hosted d g r id k T n' m') ∨ Settled d g r id m'.shared := by
  -- the strand of the service and the one on its own differ in the name of their run alone
  obtain ⟨hid, hstrand⟩ := Prod.mk.inj hseen
  have hturn := hc.turn (Pool.mem_states_of_live hat)
  have hshared : m'.shared = (step m.shared w).1 := by
    rw [hpool]
    exact Pool.advance_shared ..
  have hownShared : own.shared = (Run.step (d.setupFor g) (onItsOwn d g r n).shared b).1 := by
    rw [hownPool]
    exact Pool.advance_shared ..
  obtain ⟨-, u, -, hroot, -⟩ := h.lodged.root
  have hends : ∀ report, own.tasks = [.ended report] ↔
      path = [] ∧ (Run.step (d.setupFor g) (onItsOwn d g r n).shared b).2 = .finish report := by
    intro report
    rw [show own.tasks = _ from congrArg Pool.tasks hownPool]
    exact ended_advance hroot hb
  -- a head is all of its root
  have hbranch : w.IsBranch ↔ path ≠ [] := by
    obtain ⟨j, rest, t, heq, hj, hrest⟩ := Pool.at?_eq_some hat
    obtain ⟨rfl, rfl⟩ := List.cons.inj heq
    exact (hc.households t (List.mem_of_getElem? hj)).isBranch_iff hrest (.inl rfl)
  subst hown
  rcases hstep : Run.step (d.setupFor g) (m.shared.stateOf (sessionAt d g r n)) w.strand with
    ⟨shared, directive⟩
  obtain ⟨hjournal, hvault, hdirective⟩ :=
    likeness hsecluded (Pool.mem_states_of_live hb) hstrand hstep
  rw [← hownShared] at hjournal hvault
  rcases hturn.of_run hid h.session hstep with
    ⟨hdesk, hcarry, hgoes⟩ | ⟨report, rfl, hhead, houtcome⟩
  · rw [hcarry] at hstay
    refine .inl ⟨n + 1, hstay (parallel_carry hid hdirective (Run.roots_of_step hstep)),
      fun report hended => ?_, ?_⟩
    · obtain ⟨hpath, hfinish⟩ := (hends report).mp hended
      rw [hfinish] at hdirective
      exact hbranch.mp (hgoes report (eq_finish_of_map hdirective.symm)) hpath
    · rw [hshared, hdesk, Desk.get?_sharing, if_pos rfl, h.session]
      simp [sessionAt, hjournal, hvault]
  · have hpath : path = [] := by simpa using mt hbranch.mpr hhead
    refine .inr ⟨n + 1, report, (hends report).mpr ⟨hpath, eq_finish_of_map hdirective⟩, ?_⟩
    rw [hshared, houtcome, hjournal]
    rfl

/-- Whatever the service does, the run is at work as on its own, or has come to the same end, or
a client has cancelled it. -/
theorem Hosted.next (h : Hosted d g r id k T n m) (hm : m.Regular) (hc : Housed m.toPool)
    (hsecluded : Run.Secluded (d.setupFor g)) (hstep : m.step? program = some m') :
    (∃ n', Hosted d g r id k T n' m') ∨ Settled d g r id m'.shared ∨
      (∃ commands, .client commands ∈ m.states) ∧ Interrupted m'.shared id := by
  cases h.lodged.next (q := Run.program (d.setupFor g)) (fun w b results hseen =>
      rejoin_seen id w b results hseen) hm hstep with
  | own hat hb hseen hpool hown hownPool hstay =>
    exact (h.own hc hsecluded hat hb hseen hpool (onItsOwn_succ hown) hownPool hstay).imp_right
      .inl
  | @other i path w hi hat hpool hlodged =>
    have hid : w.run? ≠ some id := fun hid => hi (h.root_eq hc hat hid)
    have hshared : m'.shared = (step m.shared w).1 := by
      rw [hpool]
      exact Pool.advance_shared ..
    have hfate := (hc.turn (Pool.mem_states_of_live hat)).fate hc.sound id
    rw [h.session, ← hshared] at hfate
    generalize hs : m'.shared.sessions.get? id = session at hfate
    cases hfate with
    | left => exact .inl ⟨n, hlodged, h.going, hs⟩
    | cancelled hclient =>
      have hmem := Pool.mem_states_of_live hat
      cases w with
      | client commands =>
        exact .inr (.inr ⟨⟨commands, hmem⟩, _, hs, rfl, by simp [Session.cancel]⟩)
      | _ => cases hclient
    | worked hown | closed hown => exact absurd hown hid
  | @idle own hown hshared hownShared hends hlodged =>
    have hsteps : ∃ n', onItsOwn d g r n' = own := by
      rcases hown with rfl | hown
      · exact ⟨n, rfl⟩
      · exact ⟨n + 1, onItsOwn_succ hown⟩
    obtain ⟨n', rfl⟩ := hsteps
    refine .inl ⟨n', hlodged, fun report hended => h.going report (hends report hended), ?_⟩
    rw [hshared, sessionAt, hownShared]
    exact h.session

/-! ### How a run begins -/

theorem step_run {e : Desk} {rest : List Command} (hg : Graph.ofDocument r.flow = .ok g) :
    step e (.client (.run r :: rest)) = ((e.openSession g r).2.2,
      .proceed (.foreground (Desk.idOf (e.issued + 1))
        (Run.firstStrand g (e.givenFor (Desk.idOf (e.issued + 1)) r)) rest)) := by
  simp only [step, serve, withGraph, hg]
  rfl

theorem step_start {e : Desk} {rest : List Command} (hg : Graph.ofDocument r.flow = .ok g) :
    step e (.client (.start r :: rest))
      = ((e.enlist g r).answer (.started (Desk.idOf (e.issued + 1))),
        .spawn (.background (Desk.idOf (e.issued + 1))
          (Run.firstStrand g (e.givenFor (Desk.idOf (e.issued + 1)) r))) (.client rest)) := by
  simp only [step, serve, withGraph, hg]
  rfl

/-- A run that has just been opened has not taken a step. -/
theorem hosted_of_lodged {e : Desk} (hterms : e.terms = d.terms)
    (hlodged : Lodged Work.seen (seenAs id) k T (onItsOwn d g r 0) m)
    (hs : m.shared.sessions.get? id = some ⟨e.setupFor g, [], (e.givenFor id r).vault, none⟩) :
    Hosted d g r id k T 0 m := by
  refine ⟨hlodged, fun report => nofun, ?_⟩
  rw [hs, Desk.setupFor_of_terms hterms, Desk.givenFor_of_terms hterms]
  rfl

/-- Runs that begin look the same, whatever their ids. -/
theorem seen_firstStrand {e : Desk} (hterms : e.terms = d.terms) {w : Work}
    (hid : w.run? = some id) (hstrand : w.strand = Run.firstStrand g (e.givenFor id r)) :
    w.seen = seenAs id (Run.firstStrand g (d.givenFor "" r)) := by
  rw [Work.seen, hid, hstrand, Desk.givenFor_of_terms hterms]
  rfl

/-- A client that asks for a background run gets one, and it is at work. -/
theorem hosted_spawned {path : List ℕ} {rest : List Schedule.Notice} {after : List Command}
    (hm : m.Regular) (hterms : m.shared.terms = d.terms) (hg : Graph.ofDocument r.flow = .ok g)
    (hready : m.ready = .resume path :: rest)
    (hat : m.at? path = some (.live (.client (.start r :: after))))
    (hm' : m' = { m with
        ready := rest
        toPool := m.advance program path (.client (.start r :: after)) }.arrange path
      m.tasks.length (program.step m.shared (.client (.start r :: after))).2) :
    m'.shared.answers = .started (Desk.idOf (m.shared.issued + 1)) :: m.shared.answers ∧
      Hosted d g r (Desk.idOf (m.shared.issued + 1)) m.tasks.length m.now 0 m' := by
  have hstep : program.step m.shared (.client (.start r :: after)) = _ := step_start hg
  have hshared : m'.shared
      = (m.shared.enlist g r).answer (.started (Desk.idOf (m.shared.issued + 1))) := by
    rw [hm', Machine.toPool_arrange]
    exact (Pool.advance_shared ..).trans (congrArg Prod.fst hstep)
  refine ⟨by rw [hshared]; rfl, hosted_of_lodged hterms ?_ ?_⟩
  · rw [hm']
    exact Lodged.spawned hm hready hat (congrArg Prod.snd hstep) (seen_firstStrand hterms rfl rfl)
  · rw [hshared]
    exact Fields.get?_set_self ..

/-- The service after its first step, if the client wants nothing but one run. -/
theorem serving_one (hg : Graph.ofDocument r.flow = .ok g) (d : Desk) :
    serving d [.run r] 1 = ⟨⟨(d.openSession g r).2.2,
      [.live (.foreground (Desk.idOf (d.issued + 1))
        (Run.firstStrand g (d.givenFor (Desk.idOf (d.issued + 1)) r)) [])]⟩,
      [.resume [0]], [], 0⟩ := by
  have hstep : program.step (opening d [.run r]).shared (.client [.run r]) = _ := step_run hg
  have hone : serving d [.run r] 1 = Machine.resume program ⟨opening d [.run r], [], [], 0⟩ [0] :=
    rfl
  rw [hone, Machine.resume_eq rfl, Pool.advance, hstep]
  rfl

/-! ### The run by itself -/

theorem Settled.reaches (hc : Housed m.toPool) (hreach : Reaches m.toPool m'.toPool)
    (h : Settled d g r id m.shared) : Settled d g r id m'.shared := by
  obtain ⟨n, report, hended, ho⟩ := h
  exact ⟨n, report, hended, hc.kept (J := fun e => (e.sessions.get? id).bind Session.outcome = _)
    (fun he hw hturn ho => hturn.outcome he hw ho) ho hreach⟩

theorem serving_succ (d : Desk) (commands : List Command) (n : ℕ) :
    serving d commands (n + 1) = serving d commands n ∨
      (serving d commands n).step? program = some (serving d commands (n + 1)) := by
  have hsucc : serving d commands (n + 1)
      = ((serving d commands n).step? program).getD (serving d commands n) := Machine.run_succ ..
  rcases hstep : (serving d commands n).step? program with - | next
  · exact .inl (by rw [hsucc, hstep, Option.getD_none])
  · exact .inr (by rw [hsucc, hstep, Option.getD_some])

theorem regular_serving (d : Desk) (commands : List Command) (n : ℕ) :
    (serving d commands n).Regular := by
  induction n with
  | zero => exact Machine.regular_start ..
  | succ n ih =>
    rcases serving_succ d commands n with heq | hstep
    · rwa [heq]
    · exact ih.step? hstep

/-- A service that was not asked for anything. -/
structure Desk.Idle (d : Desk) : Prop extends d.Fresh where
  issued : d.issued = 0
  answers : d.answers = []

theorem Desk.idle_new (settings : Settings) (registry : Registry) (now : Moment)
    (surroundings : Fields Value) (secretStore : SecretStore) (world : World) :
    (Desk.new settings registry now surroundings secretStore world).Idle :=
  ⟨Desk.fresh_new .., rfl, rfl⟩

theorem Desk.Idle.housed (hd : d.Idle) (commands : List Command) (n : ℕ) :
    Housed (serving d commands n).toPool :=
  (hd.toFresh.housed commands).reaches (reaches_serving d commands n)

/-- A client that wants nothing but one run waits for it, or was told what it has come to. -/
theorem attended_serving (hd : d.Idle) (hg : Graph.ofDocument r.flow = .ok g) (n : ℕ) :
    Attended (serving d [.run r] (n + 1)).toPool := by
  induction n with
  | zero =>
    rw [serving_one hg]
    exact ⟨congrArg (· + 1) hd.issued, .inl ⟨rfl, hd.answers⟩⟩
  | succ n ih =>
    rcases serving_succ d [.run r] (n + 1) with heq | hstep
    · rwa [heq]
    · exact ih.reaches (hd.housed _ _) (Machine.reaches_step? _ hstep)

/-- A run that the client waits for is at work as on its own, or has come to the same end. -/
theorem hosted_serving (hd : d.Idle) (hg : Graph.ofDocument r.flow = .ok g)
    (hsecluded : Run.Secluded (d.setupFor g)) (n : ℕ) :
    (∃ k T i, Hosted d g r (Desk.idOf 1) k T i (serving d [.run r] (n + 1))) ∨
      Settled d g r (Desk.idOf 1) (serving d [.run r] (n + 1)).shared := by
  -- by induction on the steps; a cancellation needs a client, and the only one waits
  induction n with
  | zero =>
    have hid : Desk.idOf (d.issued + 1) = Desk.idOf 1 := by rw [hd.issued]
    rw [serving_one hg, hid]
    refine .inl ⟨0, 0, 0, hosted_of_lodged (e := d) rfl
      (Lodged.alone rfl rfl rfl rfl (seen_firstStrand rfl rfl rfl)) ?_⟩
    rw [← hid]
    exact Fields.get?_set_self ..
  | succ n ih =>
    have hc := hd.housed [.run r] (n + 1)
    have hattended := attended_serving hd hg n
    rcases serving_succ d [.run r] (n + 1) with heq | hstep
    · rwa [heq]
    rcases ih with ⟨k, T, i, h⟩ | h
    · rcases h.next (regular_serving d _ _) hc hsecluded hstep with
        ⟨i', h'⟩ | h' | ⟨⟨commands, hclient⟩, -⟩
      · exact .inl ⟨k, T, i', h'⟩
      · exact .inr h'
      · -- the only client has been told what the run has come to, while it is at work
        have hasks : (0, commands) ∈ asking (serving d [.run r] (n + 1)).toPool :=
          List.mem_filterMap.mpr ⟨_, hclient, rfl⟩
        rcases hattended.served with ⟨hone, -⟩ | ⟨-, o, -, ho⟩
        · rw [hone] at hasks
          simp at hasks
        · obtain ⟨s, hs, -⟩ := Option.bind_eq_some_iff.mp ho
          rw [hattended.eq_idOf hc hs, h.outcome_eq] at ho
          cases ho
    · exact .inr (h.reaches hc (Machine.reaches_step? _ hstep))

/-- A client that wants nothing but one run is told what the run comes to on its own. -/
theorem served_alone (hd : d.Idle) (hg : Graph.ofDocument r.flow = .ok g)
    (hsecluded : Run.Secluded (d.setupFor g)) {report : Run.Report}
    (hended : (onItsOwn d g r n).tasks = [.ended report]) :
    ∃ fuel e, (∀ more, run (fuel + more) d [.run r] = (e, true)) ∧ e.answers
      = [.ran (.of (Desk.idOf 1) g (onItsOwn d g r n).shared.journal report)] := by
  obtain ⟨fuel, hover, hrun⟩ := exists_run hd.toFresh [.run r]
  refine ⟨fuel, _, hrun, ?_⟩
  cases fuel with
  | zero => exact absurd (hover.states_eq_nil : [Work.client [.run r]] = []) (List.cons_ne_nil _ _)
  | succ i =>
    have hattended := attended_serving hd hg i
    have hasking : asking (serving d [.run r] (i + 1)).toPool = [] := by
      rw [asking, hover.states_eq_nil, List.filterMap_nil]
    rcases hattended.served with ⟨hone, -⟩ | ⟨-, o, hanswers, ho⟩
    · rw [hasking] at hone
      cases hone
    obtain ⟨s, hs, -⟩ := Option.bind_eq_some_iff.mp ho
    rw [hattended.eq_idOf (hd.housed _ _) hs] at ho
    rcases hosted_serving hd hg hsecluded i with ⟨k, T, i', h⟩ | ⟨n', report', hended', ho'⟩
    · rw [h.outcome_eq] at ho
      cases ho
    · obtain ⟨rfl, hsame⟩ := onItsOwn_unique hended hended'
      rw [hanswers, ← hsame]
      exact congrArg (fun o => [Answer.ran o]) (Option.some.inj (ho.symm.trans ho'))

/-! ### The run among others -/

/-- A client has been told the id of a run, as the answer to what it asked for after `count`
other commands. -/
def Begun (count : ℕ) (id : String) (e : Desk) : Prop :=
  ∃ later earlier, e.answers = later ++ .started id :: earlier ∧ earlier.length = count

theorem Begun.reaches {count : ℕ} (hc : Housed m.toPool) (hreach : Reaches m.toPool m'.toPool)
    (h : Begun count id m.shared) : Begun count id m'.shared := by
  refine hc.kept (J := Begun count id) ?_ h hreach
  rintro e w e' directive he - hturn ⟨later, earlier, hanswers, hlength⟩
  obtain ⟨new, hnew, -⟩ := hturn.voices he
  exact ⟨new ++ later, earlier, by rw [hnew, hanswers, List.append_assoc], hlength⟩

/-- How a request for a background run fares: the client has not come to it yet, or its run is at
work, has come to what it comes to on its own, or was interrupted. -/
inductive Fares (d : Desk) (g : Graph) (r : RunRequest) (before after : List Command)
    (interrupted : String → Prop) (m : Machine Desk Work Run.Report) : Prop
  | ahead : Ahead before (.start r :: after) m.toPool → Fares d g r before after interrupted m
  | hosted {id : String} {k T n : ℕ} : Begun before.length id m.shared →
    Hosted d g r id k T n m → Fares d g r before after interrupted m
  | settled {id : String} : Begun before.length id m.shared → Settled d g r id m.shared →
    Fares d g r before after interrupted m
  | interrupted {id : String} : Begun before.length id m.shared → interrupted id →
    Fares d g r before after interrupted m

theorem Fares.step {before after : List Command} {interrupted : String → Prop}
    (h : Fares d g r before after interrupted m) (hm : m.Regular) (hc : Housed m.toPool)
    (hterms : m.shared.terms = d.terms) (hg : Graph.ofDocument r.flow = .ok g)
    (hsecluded : Run.Secluded (d.setupFor g))
    (hinterrupted : ∀ id, Interrupted m'.shared id → interrupted id)
    (hstep : m.step? program = some m') : Fares d g r before after interrupted m' := by
  have hreach : Reaches m.toPool m'.toPool := Machine.reaches_step? _ hstep
  cases h with
  | ahead h =>
    cases Machine.acts_of_step? hstep with
    | resumes hready hat hm' =>
      rcases h.advance hc hat with ⟨rfl, hcount⟩ | hahead
      · obtain ⟨hanswers, hhosted⟩ := hosted_spawned hm hterms hg hready hat hm'
        exact .hosted ⟨[], _, hanswers, hcount⟩ hhosted
      · refine .ahead ?_
        rwa [hm', Machine.toPool_arrange]
    | rejoins hat hresults hpool =>
      refine .ahead ?_
      rw [hpool]
      exact h.rejoin hat hresults
    | rests hpool =>
      refine .ahead ?_
      rwa [hpool]
  | hosted hbegun h =>
    have hbegun' := hbegun.reaches hc hreach
    rcases h.next hm hc hsecluded hstep with ⟨n', h'⟩ | h' | ⟨-, h'⟩
    · exact .hosted hbegun' h'
    · exact .settled hbegun' h'
    · exact .interrupted hbegun' (hinterrupted _ h')
  | settled hbegun h => exact .settled (hbegun.reaches hc hreach) (h.reaches hc hreach)
  | interrupted hbegun h => exact .interrupted (hbegun.reaches hc hreach) h

/-- How a request fares after some steps of the service. -/
theorem fares_serving (hd : d.Idle) (hg : Graph.ofDocument r.flow = .ok g)
    (hsecluded : Run.Secluded (d.setupFor g)) (before after : List Command) (n : ℕ) :
    Fares d g r before after
      (fun id => ∃ moment, Interrupted (serving d (before ++ .start r :: after) moment).shared id)
      (serving d (before ++ .start r :: after) n) := by
  generalize hall : before ++ .start r :: after = commands
  induction n with
  | zero =>
    subst hall
    exact .ahead (ahead_opening d hd.answers before _)
  | succ n ih =>
    rcases serving_succ d commands n with heq | hstep
    · rwa [heq]
    · exact ih.step (regular_serving ..) (hd.housed ..)
        ((hd.toFresh.housed commands).terms_eq (reaches_serving ..)) hg hsecluded
        (fun _ h => ⟨_, h⟩) hstep

/-- What a client was told about the outcome of a run is the outcome. -/
theorem Course.outcome_eq {e : Desk} {running settled : List Standing} {gone : ℕ}
    {later : List Answer} (h : Course e id running settled gone)
    (htold : told id later = account running settled gone) {o : Run.Outcome}
    (ho : (e.sessions.get? id).bind Session.outcome = some o) {st : Standing}
    (hst : .standing st ∈ later) (hid : st.runId = id) :
    st.outcome = none ∨ st.outcome = some o := by
  have hmem : some st ∈ told id later := by
    refine List.mem_filterMap.mpr ⟨_, List.mem_reverse.mpr hst, ?_⟩
    simp [Answer.about?, hid]
  rw [htold] at hmem
  rcases List.mem_append.mp hmem with hmem | hmem
  · obtain ⟨st', hst', heq⟩ := List.mem_map.mp hmem
    obtain rfl := Option.some.inj heq
    rcases List.mem_append.mp hst' with hrunning | hsettled
    · exact .inl (h.atWork _ hrunning).2
    · obtain ⟨s, o', hs, ho', -, hall⟩ := h.ended (.inl (List.ne_nil_of_mem hsettled))
      have hsame : o' = o := by simpa [hs, ho'] using ho
      right
      rw [hall _ hsettled, hsame]
  · simp at hmem

/-- A client was given the id of a run, as the answer to what it asked for after `count` other
commands.  The run has come to `o`, and no client was told that it has come to anything else. -/
def Reported (count : ℕ) (id : String) (o : Run.Outcome) (e : Desk) : Prop :=
  ∃ later earlier, e.answers = later ++ .started id :: earlier ∧ earlier.length = count ∧
    (e.sessions.get? id).bind Session.outcome = some o ∧
    ∀ st, .standing st ∈ later → st.runId = id → st.outcome = none ∨ st.outcome = some o

theorem Reported.outcome_eq {count : ℕ} {o : Run.Outcome} {e : Desk} (h : Reported count id o e) :
    (e.sessions.get? id).bind Session.outcome = some o := by
  obtain ⟨-, -, -, -, ho, -⟩ := h
  exact ho

/-- When the service has come to its end, the outcome of a run that was begun is reported. -/
theorem Begun.reported {c e : House} {count : ℕ} (hc : Housed c) (hnew : c.shared.answers = [])
    (hreach : Reaches c e) (hover : e.IsOver) (h : Begun count id e.shared) :
    ∃ o, Reported count id o e.shared := by
  obtain ⟨later, earlier, hanswers, hlength⟩ := h
  obtain ⟨running, settled, gone, s, htold, hfollows⟩ :=
    follows_reached hc hnew hreach later id earlier hanswers
  obtain ⟨o, ho⟩ := (hc.reaches hreach).ended_of_isOver hover hfollows.session
  have houtcome : (e.shared.sessions.get? id).bind Session.outcome = some o :=
    Option.bind_eq_some_iff.mpr ⟨s, hfollows.session, ho⟩
  exact ⟨o, later, earlier, hanswers, hlength, houtcome, fun st hst hid =>
    hfollows.toCourse.outcome_eq htold houtcome hst hid⟩

/-- A background run comes to what it comes to on its own, whatever else clients ask for, unless it
is interrupted. -/
theorem reported_among (hd : d.Idle) (hg : Graph.ofDocument r.flow = .ok g)
    (hsecluded : Run.Secluded (d.setupFor g)) {report : Run.Report}
    (hended : (onItsOwn d g r n).tasks = [.ended report]) (before after : List Command) :
    ∃ fuel e, (∀ more, run (fuel + more) d (before ++ .start r :: after) = (e, true)) ∧
      ∃ id o, Reported before.length id o e ∧
        (o = .of id g (onItsOwn d g r n).shared.journal report ∨
          ∃ moment, Interrupted (run moment d (before ++ .start r :: after)).1 id) := by
  obtain ⟨fuel, hover, hrun⟩ := exists_run hd.toFresh (before ++ .start r :: after)
  have hstart := hd.toFresh.housed (before ++ .start r :: after)
  have hreach := reaches_serving d (before ++ .start r :: after) fuel
  refine ⟨fuel, _, hrun, ?_⟩
  cases fares_serving hd hg hsecluded before after fuel with
  | ahead h => exact absurd hover h.not_isOver
  | hosted hbegun h =>
    obtain ⟨o, hreported⟩ := hbegun.reported hstart hd.answers hreach hover
    have ho := hreported.outcome_eq
    rw [h.outcome_eq] at ho
    cases ho
  | @settled id hbegun h =>
    obtain ⟨o, hreported⟩ := hbegun.reported hstart hd.answers hreach hover
    have ho := hreported.outcome_eq
    obtain ⟨n', report', hended', ho'⟩ := h
    obtain ⟨rfl, hsame⟩ := onItsOwn_unique hended hended'
    refine ⟨_, o, hreported, .inl ?_⟩
    rw [← hsame]
    exact Option.some.inj (ho.symm.trans ho')
  | interrupted hbegun h =>
    obtain ⟨o, hreported⟩ := hbegun.reported hstart hd.answers hreach hover
    exact ⟨_, o, hreported, .inr h⟩

end

/-- The run of a flow whose actions keep to themselves is not affected by what else the service
does, in whatever way runs overlap.  There is one outcome `o`, which a client is told that asks
for nothing but the run and waits for it.  And whatever clients ask for before and after that,
the background run of the same request comes to its end, and what is reported of it is
`o`, under its own id, unless it was cancelled before its end. -/
theorem runs_isolated (settings : Settings) (now : Moment) (surroundings : Fields Value)
    (secretStore : SecretStore) (r : RunRequest) (g : Graph)
    (hg : Graph.ofDocument r.flow = .ok g)
    (hkinds : ∀ n ∈ g.nodes, n.kind ≠ "http-request" ∧ n.kind ≠ "publish-event") :
    ∃ o, (∀ world, ∃ fuel e, (∀ more, run (fuel + more)
        (.new settings (.standard settings) now surroundings secretStore world) [.run r] = (e, true)) ∧
        e.answers = [.ran o]) ∧
      ∀ world before after, ∃ fuel e, (∀ more, run (fuel + more)
          (.new settings (.standard settings) now surroundings secretStore world)
          (before ++ .start r :: after) = (e, true)) ∧
        ∃ id o', Reported before.length id o' e ∧
          (o' = { o with runId := id } ∨ ∃ moment, Interrupted
            (run moment (.new settings (.standard settings) now surroundings secretStore world)
              (before ++ .start r :: after)).1 id) := by
  let d := Desk.new settings (.standard settings) now surroundings secretStore
  have hidle : ∀ world, (d world).Idle := fun world => Desk.idle_new ..
  have hsecluded : Run.Secluded ((d Run.nowhere).setupFor g) := fun n hn behaviour hfind =>
    Action.secluded_of_standard hfind (hkinds n hn).1 (hkinds n hn).2
  obtain ⟨n, report, hended⟩ := exists_end (d Run.nowhere) g r
  refine ⟨.of (Desk.idOf 1) g (onItsOwn (d Run.nowhere) g r n).shared.journal report,
    fun world => ?_, fun world before after => ?_⟩
  · exact served_alone (hidle world) hg hsecluded hended
  · exact reported_among (hidle world) hg hsecluded hended before after

namespace Sample

/-- A flow with two branches that set the same variable. -/
def forked : RunRequest where
  flow :=
    { authoredNodes := some [Run.Sample.node "a" "start" [],
        Run.Sample.node "b" "set-variable" [("name", .text "v"), ("value", .text "1")],
        Run.Sample.node "c" "set-variable" [("name", .text "v"), ("value", .text "2")]]
      authoredEdges := some [Run.Sample.edge "1" "a" "b" none, Run.Sample.edge "2" "a" "c" none]
      authoredTrigger := none
      authoredComponent := none
      others := [] }
  payload := []
  declared := []
  environment := []

/-- A service as it comes. -/
def standard : Desk :=
  .new .standard (.standard .standard) ⟨"", 0⟩ [] ⟨"store", []⟩ Run.Sample.world

/-- Whether those who wait for a run were told that it has succeeded. -/
def successes (d : Desk) : List Bool :=
  d.answers.map fun
    | .ran o => o.status = .succeeded
    | _ => false

theorem ended_forked : (run 30 standard [.run forked]).2 = true := by decide +kernel

theorem successes_forked : successes (run 30 standard [.run forked]).1 = [true] := by
  decide +kernel

end Sample

/-- Among other runs of the same flow, one comes to the success that it comes to on its own. -/
theorem runs_isolated_forked : ∃ g, Graph.ofDocument Sample.forked.flow = .ok g ∧
    (∀ n ∈ g.nodes, n.kind ≠ "http-request" ∧ n.kind ≠ "publish-event") ∧
    ∃ o, o.status = .succeeded ∧ (∃ fuel e,
      run fuel Sample.standard [.run Sample.forked] = (e, true) ∧ e.answers = [.ran o]) ∧
      ∃ fuel e id o', run fuel Sample.standard ([.start Sample.forked] ++ .start Sample.forked ::
          [.run Sample.forked, .get "run-2"]) = (e, true) ∧ Reported 1 id o' e ∧
        (o' = { o with runId := id } ∨ ∃ moment, Interrupted
          (run moment Sample.standard ([.start Sample.forked] ++ .start Sample.forked ::
            [.run Sample.forked, .get "run-2"])).1 id) := by
  obtain ⟨g, hg, hkinds⟩ : ∃ g, Graph.ofDocument Sample.forked.flow = .ok g ∧
      ∀ n ∈ g.nodes, n.kind ≠ "http-request" ∧ n.kind ≠ "publish-event" :=
    ⟨_, rfl, by decide⟩
  obtain ⟨o, halone, hamong⟩ := runs_isolated _ _ _ _ _ g hg hkinds
  obtain ⟨fuel, e, hrun, hanswers⟩ := halone Run.Sample.world
  obtain ⟨fuel', e', hrun', id, o', hreported, hsame⟩ := hamong Run.Sample.world
    [.start Sample.forked] [.run Sample.forked, .get "run-2"]
  have hsucceeds : o.status = .succeeded := by
    have hend := run_add Sample.ended_forked fuel
    rw [Nat.add_comm] at hend
    have he : e = (run 30 Sample.standard [.run Sample.forked]).1 :=
      congrArg Prod.fst ((hrun 30).symm.trans hend)
    have hsuccess := Sample.successes_forked
    rw [← he] at hsuccess
    simpa [Sample.successes, hanswers] using hsuccess
  exact ⟨g, hg, hkinds, o, hsucceeds, ⟨fuel, e, hrun 0, hanswers⟩,
    fuel', e', id, o', hrun' 0, hreported, hsame⟩

end Automation.Service
