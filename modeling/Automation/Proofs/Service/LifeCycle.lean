/-
Automation/Proofs/Service/LifeCycle.lean

The life of a run as its clients see it.

A client that asks for a run again and again is told that it is running, then one outcome, then
that there is no such run (`Course`), and the nodes that are said to have failed only become
more.  To cancel a run that has ended changes nothing but what is never looked at again: the
service goes on step by step as if the client had not asked for it (`Desk.Alike`).  When the
client has asked for everything, whoever has not ended is cancelled and begins nothing any
more, and the service waits for all of them.
-/
import Automation.Proofs.Run.Cancellation
import Automation.Proofs.Schedule.Lockstep
import Automation.Proofs.Service.Retention
import Automation.Proofs.Service.Termination

namespace Automation.Service

open Automation.Schedule (Directive Lockstep Machine Pool Task)

/-! ### What becomes of a session -/

section

variable {d d' : Desk} {w : Work} {directive : Directive Work Run.Report} {id : String}
  {s s' : Session}

theorem keys_errors_prefix (j : Journal) (events : List Event) :
    j.failedNodes <+: (j.adding events).failedNodes := by
  have hgrow : ∀ later : Journal, j.failedNodes <+: Journal.failedNodes (later ++ j) := by
    intro later
    induction later with
    | nil => exact List.prefix_rfl
    | cons e later ih =>
      cases e with
      | erred scope node message => exact ih.trans (Fields.keys_prefix_set _ node message)
      | _ => exact ih
  exact hgrow events.reverse

/-- The journal of a run only grows in a turn, and nothing starts in it once the run was
cancelled. -/
theorem Fate.journal (h : Fate d w id (some s) (some s')) :
    ∃ events, s'.journal = s.journal.adding events ∧
      (.cancelled ∈ s.journal → ∀ e ∈ events, ¬ Run.Starts e) := by
  cases h with
  | left => exact ⟨[], rfl, by simp⟩
  | cancelled => exact ⟨[.cancelled], rfl, by simp [Run.Starts]⟩
  | worked hid hstep | closed hid _ hstep =>
    obtain ⟨events, hdeed, hj, -⟩ := Run.exists_deed s.setup (d.stateOf s) w.strand
    rw [hstep] at hj
    exact ⟨events, hj, hdeed.not_starts⟩

/-- An outcome stays, and a new one is no running one. -/
theorem Fate.outcome (h : Fate d w id (some s) (some s'))
    (hw : w.run? = some id → s.outcome = none) :
    s'.outcome = s.outcome ∨ s.outcome = none ∧
      ∃ report, s'.outcome = some (.of id s'.setup.graph s'.journal report) := by
  cases h with
  | left | cancelled | worked => exact .inl rfl
  | closed hid => exact .inr ⟨hw hid, _, rfl⟩

/-- The outcome of a run stays. -/
theorem Turn.outcome (h : Turn d w d' directive) (hd : d.Sound)
    (hw : ∀ i, w.run? = some i → d.Unfinished i) {o : Run.Outcome}
    (ho : (d.sessions.get? id).bind Session.outcome = some o) :
    (d'.sessions.get? id).bind Session.outcome = some o := by
  obtain ⟨s, hs, ho⟩ := Option.bind_eq_some_iff.mp ho
  obtain ⟨s', hs', hfate⟩ := h.session hd hs
  rcases hfate.outcome fun hid => (hw id hid).outcome_eq hs with hsame | ⟨hnone, -⟩
  · exact Option.bind_eq_some_iff.mpr ⟨s', hs', hsame.trans ho⟩
  · rw [hnone] at ho
    cases ho

theorem statusOf_ne_running (j : Journal) (report : Run.Report) :
    Run.statusOf j report ≠ .running := by
  unfold Run.statusOf
  split
  · simp
  · split <;> simp

/-- The nodes that a run is said to have failed at only become more. -/
theorem Fate.failedNodes (h : Fate d w id (some s) (some s'))
    (hw : w.run? = some id → s.outcome = none) :
    (s.standing id).failedNodes <+: (s'.standing id).failedNodes := by
  obtain ⟨events, hj, -⟩ := h.journal
  have hgrows := keys_errors_prefix s.journal events
  rw [← hj] at hgrows
  rcases h.outcome hw with hsame | ⟨hnone, report, hsome⟩
  · unfold Session.standing
    rw [hsame]
    split
    · exact List.prefix_rfl
    · exact hgrows
  · simp only [Session.standing, hnone, hsome]
    exact hgrows

/-- A run is put on record when it is opened, and is taken off the record only when it has
ended. -/
theorem Turn.mem_records (h : Turn d w d' directive) (hd : d.Sound)
    (hs : d.sessions.get? id = some s) :
    (id ∈ d'.records → id ∈ d.records) ∧
      (id ∈ d.records → s.outcome = none → id ∈ d'.records) := by
  cases h with
  | @starts r rest g =>
    have hne : id ≠ Desk.idOf (d.issued + 1) := by
      rintro rfl
      rw [hd.fresh] at hs
      cases hs
    have hrecords : ∀ a, ((d.enlist g r).answer a).records = Desk.dropFirst d.hasFinished
        (((d.records.filter d.hasFinished).length : Int) - d.settings.keptRuns).toNat d.records
        ++ [Desk.idOf (d.issued + 1)] := fun _ => rfl
    rw [hrecords]
    refine ⟨fun hmem => ?_, fun hmem hnone => ?_⟩
    · rcases List.mem_append.mp hmem with hmem | hmem
      · exact (Desk.dropFirst_sublist ..).subset hmem
      · exact absurd (List.mem_singleton.mp hmem) hne
    · refine List.mem_append_left _ (Desk.mem_dropFirst_of_not _ hmem ?_)
      simp [Desk.hasFinished, hs, Session.isFinished, hnone]
  | runs => exact ⟨fun hmem => hmem, fun hmem _ => hmem⟩
  | _ => exact ⟨by simp, by simp +contextual⟩

end

/-! ### What a client is told about a run -/

/-- What an answer says about a run: how it stands, or that no such run is on record. -/
def Answer.about? (id : String) : Answer → Option (Option Standing)
  | .standing s => if s.runId = id then some (some s) else none
  | .unknownRun i => if i = id then some none else none
  | _ => none

@[simp] theorem Session.runId_standing (s : Session) (id : String) :
    (s.standing id).runId = id := by
  unfold Session.standing
  split <;> rfl

/-- What a client was told about a run, from first to last. -/
def told (id : String) (answers : List Answer) : List (Option Standing) :=
  answers.reverse.filterMap (Answer.about? id)

/-- The same, put together from its parts. -/
def account (running settled : List Standing) (gone : ℕ) : List (Option Standing) :=
  (running ++ settled).map some ++ List.replicate gone none

/-- What was told about a run: it was running, then it had ended with one outcome, then it was
not on record any more.  The nodes that are said to have failed become more. -/
structure Course (d : Desk) (id : String) (running settled : List Standing) (gone : ℕ) : Prop where
  atWork : ∀ st ∈ running, st.status = .running ∧ st.outcome = none
  ended : settled ≠ [] ∨ 0 < gone → ∃ s o, d.sessions.get? id = some s ∧ s.outcome = some o ∧
    o.status ≠ .running ∧ ∀ st ∈ settled, st = ⟨id, o.status, o.failedNodes, some o⟩
  dropped : 0 < gone → id ∉ d.records
  grows : (running ++ settled).Pairwise fun st later => st.failedNodes <+: later.failedNodes

/-- What was told about a run, and what it has come to meanwhile. -/
structure Follows (d : Desk) (id : String) (running settled : List Standing) (gone : ℕ)
    (s : Session) : Prop extends Course d id running settled gone where
  session : d.sessions.get? id = some s
  terminal : ∀ o, s.outcome = some o → o.status ≠ .running
  soFar : ∀ st ∈ running, st.failedNodes <+: (s.standing id).failedNodes
  kept : s.outcome = none → id ∈ d.records

section

variable {d d' : Desk} {w : Work} {directive : Directive Work Run.Report} {id : String}
  {running settled : List Standing} {gone : ℕ} {s : Session}

/-- What was told about a run stays true in a turn. -/
theorem Follows.turn (h : Follows d id running settled gone s) (hd : d.Sound)
    (hw : ∀ i, w.run? = some i → d.Unfinished i) (hturn : Turn d w d' directive) :
    ∃ s', Follows d' id running settled gone s' := by
  have hrecords := hturn.mem_records hd h.session
  obtain ⟨s', hs', hfate⟩ := hturn.session hd h.session
  have hidle : w.run? = some id → s.outcome = none := fun hid => (hw id hid).outcome_eq h.session
  have houtcome := hfate.outcome hidle
  have hgrows := hfate.failedNodes hidle
  refine ⟨s', ⟨⟨h.atWork, fun hsome => ?_, fun hgone hmem => h.dropped hgone (hrecords.1 hmem),
    h.grows⟩, hs', fun o ho => ?_, fun st hst => (h.soFar st hst).trans hgrows, fun hnone => ?_⟩⟩
  · obtain ⟨r, o, hr, ho, hterminal, hall⟩ := h.ended hsome
    obtain rfl := Option.some.inj (h.session.symm.trans hr)
    rcases houtcome with hsame | ⟨hnone, -⟩
    · exact ⟨s', o, hs', hsame.trans ho, hterminal, hall⟩
    · rw [hnone] at ho
      cases ho
  · rcases houtcome with hsame | ⟨-, report, hsome⟩
    · exact h.terminal o (hsame.symm.trans ho)
    · obtain rfl := Option.some.inj (hsome.symm.trans ho)
      exact statusOf_ne_running s'.journal report
  · rcases houtcome with hsame | ⟨-, report, hsome⟩
    · exact hrecords.2 (h.kept (hsame.symm.trans hnone)) (hsame.symm.trans hnone)
    · rw [hsome] at hnone
      cases hnone

/-- The client is told how a run stands. -/
theorem Follows.standing (h : Follows d id running settled gone s) (hmem : id ∈ d.records) :
    ∃ running' settled', account running' settled' 0
        = account running settled gone ++ [some (s.standing id)] ∧
      Follows d id running' settled' 0 s := by
  obtain rfl : gone = 0 := Nat.eq_zero_of_not_pos fun hgone => h.dropped hgone hmem
  have hgrows : ∀ st ∈ running ++ settled, st.failedNodes <+: (s.standing id).failedNodes := by
    intro st hst
    rcases List.mem_append.mp hst with hst | hst
    · exact h.soFar st hst
    · obtain ⟨r, o, hr, ho, -, hall⟩ := h.ended (.inl (List.ne_nil_of_mem hst))
      obtain rfl := Option.some.inj (h.session.symm.trans hr)
      rw [hall st hst, Session.standing, ho]
  have hpairs : (running ++ settled ++ [s.standing id]).Pairwise
      fun st later => st.failedNodes <+: later.failedNodes :=
    List.pairwise_append.mpr ⟨h.grows, List.pairwise_singleton .., by simpa using hgrows⟩
  rcases houtcome : s.outcome with - | o
  · -- the run has not ended, so nothing was told but that it is running
    obtain rfl : settled = [] := by
      by_contra hne
      obtain ⟨r, o, hr, ho, -⟩ := h.ended (.inl hne)
      obtain rfl := Option.some.inj (h.session.symm.trans hr)
      rw [houtcome] at ho
      cases ho
    refine ⟨running ++ [s.standing id], [], by simp [account], ⟨⟨?_, by simp, by simp, ?_⟩,
      h.session, h.terminal, ?_, h.kept⟩⟩
    · intro st hst
      rcases List.mem_append.mp hst with hst | hst
      · exact h.atWork st hst
      · obtain rfl := List.mem_singleton.mp hst
        simp [Session.standing, houtcome]
    · simpa using hpairs
    · intro st hst
      rcases List.mem_append.mp hst with hst | hst
      · exact h.soFar st hst
      · obtain rfl := List.mem_singleton.mp hst
        exact List.prefix_rfl
  · refine ⟨running, settled ++ [s.standing id], by simp [account], ⟨⟨h.atWork, fun _ => ?_,
      by simp, by simpa using hpairs⟩, h.session, h.terminal, h.soFar, h.kept⟩⟩
    refine ⟨s, o, h.session, houtcome, h.terminal o houtcome, fun st hst => ?_⟩
    rcases List.mem_append.mp hst with hst | hst
    · obtain ⟨r, o', hr, ho, -, hall⟩ := h.ended (.inl (List.ne_nil_of_mem hst))
      obtain rfl := Option.some.inj (h.session.symm.trans hr)
      obtain rfl := Option.some.inj (houtcome.symm.trans ho)
      exact hall st hst
    · obtain rfl := List.mem_singleton.mp hst
      simp [Session.standing, houtcome]

/-- The client is told that there is no such run. -/
theorem Follows.unknown (h : Follows d id running settled gone s) (hnot : id ∉ d.records) :
    account running settled (gone + 1) = account running settled gone ++ [none] ∧
      Follows d id running settled (gone + 1) s := by
  have hended : ∃ o, s.outcome = some o := by
    rcases houtcome : s.outcome with - | o
    · exact absurd (h.kept houtcome) hnot
    · exact ⟨o, rfl⟩
  obtain ⟨o, ho⟩ := hended
  refine ⟨by simp [account, List.replicate_succ'], ⟨⟨h.atWork, fun _ => ?_, fun _ => hnot, h.grows⟩,
    h.session, h.terminal, h.soFar, h.kept⟩⟩
  by_cases hsettled : settled ≠ [] ∨ 0 < gone
  · exact h.ended hsettled
  · obtain rfl : settled = [] := by simpa using (not_or.mp hsettled).1
    exact ⟨s, o, h.session, ho, h.terminal o ho, by simp⟩

/-- A run that was just started. -/
theorem follows_started (hs : d.sessions.get? id = some s) (houtcome : s.outcome = none)
    (hmem : id ∈ d.records) : Follows d id [] [] 0 s :=
  ⟨⟨by simp, by simp, by simp, .nil⟩, hs, by simp [houtcome], by simp, fun _ => hmem⟩

/-- What is answered in a turn: nothing, that a run was started, something about a run that
leaves everything as it is, or something else. -/
inductive Voices (d d' : Desk) : List Answer → Prop
  | silent : Voices d d' []
  | started {i r} : d'.sessions.get? i = some r → r.outcome = none → i ∈ d'.records →
    Voices d d' [.started i]
  | standing {i r} : i ∈ d.records → d.sessions.get? i = some r →
    d' = d.answer (.standing (r.standing i)) → Voices d d' [.standing (r.standing i)]
  | unknown {i} : i ∉ d.records → d' = d.answer (.unknownRun i) → Voices d d' [.unknownRun i]
  | other {a} : (∀ i, a.about? i = none ∧ a ≠ .started i) → Voices d d' [a]

theorem Turn.voices (h : Turn d w d' directive) (hd : d.Sound) :
    ∃ new, d'.answers = new ++ d.answers ∧ Voices d d' new := by
  cases h with
  | answers hanswers =>
    refine ⟨[_], rfl, ?_⟩
    cases hanswers with
    | get hget =>
      obtain ⟨hmem, hs⟩ := Desk.onRecord?_eq_some hget
      exact .standing hmem hs rfl
    | unknown hnone | cancelUnknown hnone =>
      refine .unknown (fun hmem => ?_) rfl
      obtain ⟨s, hs⟩ := hd.exists_session hmem
      simp [Desk.onRecord?, hmem, hs] at hnone
    | _ => exact .other fun id => ⟨rfl, by simp⟩
  | @cancels i => exact ⟨[.cancelling i], by simp, .other fun id => ⟨rfl, by simp⟩⟩
  | runs => exact ⟨[], rfl, .silent⟩
  | @starts r rest g =>
    refine ⟨[_], rfl, .started (Fields.get?_set_self ..) rfl ?_⟩
    exact List.mem_append_right _ (List.mem_singleton_self _)
  | shutsDown => exact ⟨[], by simp, .silent⟩
  | works | reports | ends => exact ⟨[], by simp, .silent⟩
  | returns => exact ⟨[.ran _], by simp; rfl, .other fun id => ⟨rfl, by simp⟩⟩

theorem told_cons (id : String) (a : Answer) (later : List Answer) :
    told id (a :: later) = told id later ++ (a.about? id).toList := by
  rw [told, List.reverse_cons, List.filterMap_append]
  rcases h : a.about? id with - | st <;> simp [told, h]

/-- The last of some answers is the one after which they are split, or comes later. -/
theorem split_cons {a b : Answer} {old later earlier : List Answer}
    (h : [a] ++ old = later ++ b :: earlier) :
    later = [] ∧ a = b ∨ ∃ rest, later = a :: rest ∧ old = rest ++ b :: earlier := by
  cases later with
  | nil => exact .inl ⟨rfl, (List.cons.inj h).1⟩
  | cons c rest =>
    obtain ⟨rfl, hrest⟩ := List.cons.inj h
    exact .inr ⟨rest, rfl, hrest⟩

/-- Whatever was told about a run since it was started, it is the course of a run. -/
theorem follows_reached {c e : House} (hc : Housed c) (hfresh : c.shared.answers = [])
    (h : Reaches c e) : ∀ later id earlier, e.shared.answers = later ++ .started id :: earlier →
      ∃ running settled gone s, told id later = account running settled gone ∧
        Follows e.shared id running settled gone s := by
  refine hc.kept (J := fun e => ∀ later id earlier, e.answers = later ++ .started id :: earlier →
    ∃ running settled gone s, told id later = account running settled gone ∧
      Follows e id running settled gone s) ?_ ?_ h
  · intro d w d' directive hd hw hturn ih later id earlier hsplit
    obtain ⟨new, hnew, hvoices⟩ := hturn.voices hd
    rw [hnew] at hsplit
    -- what was said before this turn stays true in it
    have hold : ∀ later, d.answers = later ++ .started id :: earlier →
        ∃ running settled gone s, told id later = account running settled gone ∧
          Follows d' id running settled gone s := by
      intro later hlater
      obtain ⟨running, settled, gone, s, htold, hfollows⟩ := ih later id earlier hlater
      obtain ⟨s', hfollows'⟩ := hfollows.turn hd hw hturn
      exact ⟨running, settled, gone, s', htold, hfollows'⟩
    have haside : ∀ {a rest}, a.about? id = none → d.answers = rest ++ .started id :: earlier →
        ∃ running settled gone s, told id (a :: rest) = account running settled gone ∧
          Follows d' id running settled gone s := by
      intro a rest hnone hrest
      rw [told_cons, hnone, Option.toList_none, List.append_nil]
      exact hold rest hrest
    cases hvoices with
    | silent => exact hold later hsplit
    | @started i r hs hnone hmem =>
      rcases split_cons hsplit with ⟨rfl, heq⟩ | ⟨rest, rfl, hrest⟩
      · obtain rfl := Answer.started.inj heq
        exact ⟨[], [], 0, r, rfl, follows_started hs hnone hmem⟩
      · exact haside rfl hrest
    | @standing i r hmem hs =>
      rcases split_cons hsplit with ⟨-, heq⟩ | ⟨rest, rfl, hrest⟩
      · cases heq
      · by_cases hi : i = id
        · subst hi
          obtain ⟨running, settled, gone, s, htold, hfollows⟩ := ih rest i earlier hrest
          obtain rfl := Option.some.inj (hs.symm.trans hfollows.session)
          obtain ⟨running', settled', haccount, hfollows⟩ := hfollows.standing hmem
          obtain ⟨s', hfollows⟩ := hfollows.turn hd hw hturn
          refine ⟨running', settled', 0, s', ?_, hfollows⟩
          rw [told_cons, htold, haccount]
          simp [Answer.about?]
        · exact haside (by simp [Answer.about?, hi]) hrest
    | @unknown i hnot =>
      rcases split_cons hsplit with ⟨-, heq⟩ | ⟨rest, rfl, hrest⟩
      · cases heq
      · by_cases hi : i = id
        · subst hi
          obtain ⟨running, settled, gone, s, htold, hfollows⟩ := ih rest i earlier hrest
          obtain ⟨haccount, hfollows⟩ := hfollows.unknown hnot
          obtain ⟨s', hfollows⟩ := hfollows.turn hd hw hturn
          refine ⟨running, settled, gone + 1, s', ?_, hfollows⟩
          rw [told_cons, htold, haccount]
          simp [Answer.about?]
        · exact haside (by simp [Answer.about?, hi]) hrest
    | @other a hother =>
      rcases split_cons hsplit with ⟨-, rfl⟩ | ⟨rest, rfl, hrest⟩
      · exact absurd rfl (hother id).2
      · exact haside (hother id).1 hrest
  · intro later id earlier hsplit
    rw [hfresh] at hsplit
    simp at hsplit

end

/-! ### The shutdown -/

/-- The outcome of a run that has ended is no running one. -/
theorem terminal_reached {c e : House} (hc : Housed c) (hfresh : c.shared.Fresh)
    (h : Reaches c e) : ∀ id s o, e.shared.sessions.get? id = some s → s.outcome = some o →
      o.status ≠ .running := by
  refine hc.kept (J := fun e => ∀ id s o, e.sessions.get? id = some s → s.outcome = some o →
    o.status ≠ .running) ?_ ?_ h
  · intro d w d' directive hd hw hturn ih id s' o hs' ho
    rcases hs : d.sessions.get? id with - | s
    · obtain ⟨g, r, -, -, rfl⟩ := hturn.fresh hd hs hs'
      cases ho
    · have hfate := hturn.fate hd id
      rw [hs, hs'] at hfate
      rcases hfate.outcome fun hid => (hw id hid).outcome_eq hs with hsame | ⟨-, report, hsome⟩
      · exact ih id s o hs (hsame.symm.trans ho)
      · obtain rfl := Option.some.inj (hsome.symm.trans ho)
        exact statusOf_ne_running s'.journal report
  · intro id s o hs
    rw [hfresh.empty] at hs
    cases hs

/-- When all tasks have ended, so have all runs. -/
theorem Housed.ended_of_isOver {c : House} (hc : Housed c) (hover : c.IsOver) {id : String}
    {s : Session} (hs : c.shared.sessions.get? id = some s) : ∃ o, s.outcome = some o := by
  rcases houtcome : s.outcome with - | o
  · have hmem := (hc.atWork id).mpr (Desk.unfinished_iff.mpr ⟨s, hs, houtcome⟩)
    obtain ⟨t, ht, howner⟩ := List.mem_filterMap.mp hmem
    obtain ⟨w, hw⟩ : ∃ w, w ∈ t.states := by
      cases t with
      | live w => exact ⟨w, List.mem_singleton_self w⟩
      | waiting w children => exact ⟨w, List.mem_cons_self⟩
      | ended report => cases howner
    have hstates : w ∈ c.states := Task.mem_statesAll.mpr ⟨t, ht, hw⟩
    rw [hover.states_eq_nil] at hstates
    cases hstates
  · exact ⟨o, rfl⟩

/-- Since a moment at which it was cancelled, nothing has started in a run. -/
def Silent (d : Desk) (id : String) (before : Journal) : Prop :=
  ∃ s later, d.sessions.get? id = some s ∧ s.journal = later ++ .cancelled :: before ∧
    ∀ e ∈ later, ¬ Run.Starts e

theorem silent_reached {c e : House} (hc : Housed c) (h : Reaches c e) {id : String}
    {before : Journal} (hsilent : Silent c.shared id before) : Silent e.shared id before := by
  refine hc.kept (J := fun e => Silent e id before) ?_ hsilent h
  intro d w d' directive hd hw hturn ih
  obtain ⟨s, later, hs, hj, hlater⟩ := ih
  obtain ⟨s', hs', hfate⟩ := hturn.session hd hs
  obtain ⟨events, hj', hevents⟩ := hfate.journal
  refine ⟨s', events.reverse ++ later, hs', ?_, fun e he => ?_⟩
  · rw [hj', hj, Journal.adding, List.append_assoc]
  · rcases List.mem_append.mp he with hnew | hold
    · exact hevents (by simp [hj]) e (List.mem_reverse.mp hnew)
    · exact hlater e hold

/-- Whoever is on record and has not ended is silenced when the service shuts down. -/
theorem Housed.silent_shutdown {c : House} (hc : Housed c) (path : List ℕ) {id : String}
    {s : Session} (hmem : id ∈ c.shared.records) (hs : c.shared.sessions.get? id = some s)
    (hnone : s.outcome = none) :
    Silent (c.advance program path (.client [])).shared id s.journal := by
  rw [Pool.advance_shared]
  refine ⟨s.cancel, [], ?_, rfl, by simp⟩
  show c.shared.cancelPending.sessions.get? id = _
  have hpending : id ∈ c.shared.records ∧ c.shared.hasFinished id = false :=
    ⟨hmem, by simp [Desk.hasFinished, hs, Session.isFinished, hnone]⟩
  rw [Desk.get?_cancelPending _ hc.sound.nodup, if_pos hpending, hs]
  rfl

/-! ### A cancellation that comes too late -/

theorem Desk.hasFinished_eq_any (d : Desk) (id : String) :
    d.hasFinished id = ((d.sessions.get? id).map Session.outcome).any Option.isSome := by
  unfold Desk.hasFinished
  rcases d.sessions.get? id with - | s <;> rfl

/-- The service with and without a cancellation of a run that had ended, and with the answer to
it in its place among the others. -/
structure Desk.Alike (id : String) (a : Answer) (old : List Answer) (d e : Desk) : Prop where
  finished : d.hasFinished id = true
  terms : e.terms = d.terms
  world : e.world = d.world
  records : e.records = d.records
  issued : e.issued = d.issued
  others : ∀ i ≠ id, e.sessions.get? i = d.sessions.get? i
  outcome : (e.sessions.get? id).map Session.outcome = (d.sessions.get? id).map Session.outcome
  answers : ∃ new, d.answers = new ++ old ∧ e.answers = new ++ a :: old

namespace Desk.Alike

variable {d e : Desk} {id i : String} {a : Answer} {old : List Answer}

theorem outcome_eq (h : Alike id a old d e) (i : String) :
    (e.sessions.get? i).map Session.outcome = (d.sessions.get? i).map Session.outcome := by
  by_cases hi : i = id
  · rw [hi]
    exact h.outcome
  · rw [h.others i hi]

theorem hasFinished_eq (h : Alike id a old d e) (i : String) :
    e.hasFinished i = d.hasFinished i := by
  rw [Desk.hasFinished_eq_any, Desk.hasFinished_eq_any, h.outcome_eq i]

/-- How a run stands is the same. -/
theorem standing_eq (h : Alike id a old d e) (i : String) :
    (e.sessions.get? i).map (Session.standing · i)
      = (d.sessions.get? i).map (Session.standing · i) := by
  by_cases hi : i = id
  · obtain ⟨s, o, hs, ho⟩ := Desk.hasFinished_iff.mp h.finished
    have houtcome := h.outcome
    rw [hs, Option.map_some, ho] at houtcome
    obtain ⟨r, hr, ho'⟩ := Option.map_eq_some_iff.mp houtcome
    rw [hi, hs, hr]
    simp [Session.standing, ho, ho']
  · rw [h.others i hi]

theorem onRecord_eq (h : Alike id a old d e) (i : String) :
    (e.onRecord? i).map (Session.standing · i) = (d.onRecord? i).map (Session.standing · i) := by
  unfold Desk.onRecord?
  rw [h.records]
  split
  · exact h.standing_eq i
  · rfl

theorem standings_eq (h : Alike id a old d e) : e.standings = d.standings := by
  unfold Desk.standings
  rw [h.records]
  refine List.filterMap_congr fun i _ => ?_
  have hstanding := congrArg (Option.map (Prod.mk i)) (h.standing_eq i)
  rwa [Option.map_map, Option.map_map] at hstanding

theorem answer (h : Alike id a old d e) (b : Answer) :
    Alike id a old (d.answer b) (e.answer b) := by
  obtain ⟨new, hd, he⟩ := h.answers
  exact { h with answers := ⟨b :: new, by simp [hd], by simp [he]⟩ }

/-- A session is changed in the same way; that of the run keeps its outcome. -/
theorem update (h : Alike id a old d e) {i : String} {f : Session → Session}
    (hf : i = id → ∀ s, (f s).outcome = s.outcome) :
    Alike id a old (d.update i f) (e.update i f) := by
  have hkept : ∀ b : Desk, ((b.update i f).sessions.get? id).map Session.outcome
      = (b.sessions.get? id).map Session.outcome := by
    intro b
    rw [Desk.get?_update]
    split
    · next hi =>
      rw [Option.map_map]
      exact congrArg (Option.map · _) (funext (hf hi.symm))
    · rfl
  refine ⟨?_, ?_, ?_, ?_, ?_, fun j hj => ?_, ?_, ?_⟩
  · rw [Desk.hasFinished_eq_any, hkept, ← Desk.hasFinished_eq_any]
    exact h.finished
  · rw [Desk.terms_update, Desk.terms_update, h.terms]
  · rw [Desk.world_update, Desk.world_update, h.world]
  · rw [Desk.records_update, Desk.records_update, h.records]
  · rw [Desk.issued_update, Desk.issued_update, h.issued]
  · rw [Desk.get?_update, Desk.get?_update, h.others j hj]
  · rw [hkept, hkept, h.outcome]
  · rw [Desk.answers_update, Desk.answers_update]
    exact h.answers

theorem withWorld (h : Alike id a old d e) (world : World) :
    Alike id a old { d with world } { e with world } :=
  { h with world := rfl }

theorem prune (h : Alike id a old d e) : Alike id a old d.prune e.prune := by
  have hfinished : e.hasFinished = d.hasFinished := funext h.hasFinished_eq
  have hsettings : e.settings = d.settings := congrArg Prod.fst h.terms
  refine { h with records := ?_ }
  unfold Desk.prune
  simp only [hfinished, h.records, hsettings]

theorem enlist (h : Alike id a old d e) (i : String) :
    Alike id a old { d with records := d.records ++ [i] } { e with records := e.records ++ [i] } :=
  { h with records := by rw [h.records] }

theorem cancelPending (h : Alike id a old d e) :
    Alike id a old d.cancelPending e.cancelPending := by
  have hfinished : e.hasFinished = d.hasFinished := funext h.hasFinished_eq
  unfold Desk.cancelPending
  rw [hfinished, h.records]
  clear hfinished
  generalize d.records.filter (fun id => !d.hasFinished id) = ids
  induction ids generalizing d e with
  | nil => exact h
  | cons j ids ih => exact ih (h.update fun _ _ => rfl)

/-- A run is opened with the same id and the same first strand. -/
theorem openSession (h : Alike id a old d e) (g : Graph) (r : RunRequest)
    (hnew : id ≠ Desk.idOf (d.issued + 1)) :
    (e.openSession g r).1 = (d.openSession g r).1 ∧
      (e.openSession g r).2.1 = (d.openSession g r).2.1 ∧
      Alike id a old (d.openSession g r).2.2 (e.openSession g r).2.2 := by
  unfold Desk.openSession
  simp only [givenFor_of_terms h.terms, setupFor_of_terms h.terms, h.issued]
  have hsame : ∀ (b : Desk) (s : Session),
      (b.sessions.set (Desk.idOf (d.issued + 1)) s).get? id = b.sessions.get? id :=
    fun b s => Fields.get?_set_of_ne _ hnew _
  refine ⟨trivial, trivial,
    { h with issued := rfl, finished := ?_, others := fun i hi => ?_, outcome := ?_ }⟩
  · have hfinished := h.finished
    unfold Desk.hasFinished at hfinished ⊢
    rwa [hsame]
  · simp only [Fields.get?_set, h.others i hi]
  · simp only [hsame, h.outcome]

/-- A step of another run is the same. -/
theorem stepRun (h : Alike id a old d e) (hi : i ≠ id) (strand : Run.Strand) :
    Alike id a old (stepRun d i strand).1 (stepRun e i strand).1 ∧
      (Service.stepRun d i strand).2 = (Service.stepRun e i strand).2 := by
  unfold Service.stepRun
  rw [h.others i hi]
  rcases d.sessions.get? i with - | s
  · exact ⟨h, rfl⟩
  · simp only [h.world]
    exact ⟨(h.update fun heq => absurd heq hi).withWorld _, trivial⟩

theorem carried (h : Alike id a old d e) {wrap : Run.Strand → Work}
    {atEnd atEnd' : Run.Report → Desk × Directive Work Run.Report}
    (hend : ∀ report, Alike id a old (atEnd report).1 (atEnd' report).1 ∧
      (atEnd report).2 = (atEnd' report).2) (directive : Directive Run.Strand Run.Report) :
    Alike id a old (carried wrap i d atEnd directive).1 (carried wrap i e atEnd' directive).1 ∧
      (Service.carried wrap i d atEnd directive).2
        = (Service.carried wrap i e atEnd' directive).2 := by
  cases directive with
  | finish report => exact hend report
  | _ => exact ⟨h, rfl⟩

theorem close (h : Alike id a old d e) (hi : i ≠ id) (report : Run.Report) :
    Alike id a old (d.close i report) (e.close i report) :=
  h.update fun heq => absurd heq hi

theorem closeForeground (h : Alike id a old d e) (hi : i ≠ id) (rest : List Command)
    (report : Run.Report) :
    Alike id a old (closeForeground d i rest report).1 (closeForeground e i rest report).1 ∧
      (Service.closeForeground d i rest report).2 = (Service.closeForeground e i rest report).2 := by
  have hclose := h.close hi report
  unfold Service.closeForeground
  simp only [hclose.others i hi]
  rcases ((d.close i report).sessions.get? i).bind Session.outcome with - | outcome
  · exact ⟨hclose, rfl⟩
  · exact ⟨hclose.answer _, rfl⟩

theorem withRecord (h : Alike id a old d e) (i : String) {next next' : Session → Desk}
    (hnext : ∀ s r, r.standing i = s.standing i → Alike id a old (next s) (next' r)) :
    Alike id a old (withRecord d i next) (withRecord e i next') := by
  have hrecord := h.onRecord_eq i
  unfold Service.withRecord
  rcases hd : d.onRecord? i with - | s <;> rcases he : e.onRecord? i with - | r <;>
    rw [hd, he] at hrecord
  · exact h.answer _
  · cases hrecord
  · cases hrecord
  · exact hnext s r (Option.some.inj hrecord)

/-- Whatever the client asks for is answered in the same way. -/
theorem serve (h : Alike id a old d e) (hnew : id ≠ Desk.idOf (d.issued + 1)) (command : Command)
    (rest : List Command) :
    Alike id a old (serve d command rest).1 (serve e command rest).1 ∧
      (Service.serve d command rest).2 = (Service.serve e command rest).2 := by
  cases command with
  | health | validate | malformed => exact ⟨h.answer _, rfl⟩
  | get i =>
    refine ⟨h.withRecord i fun s r hstanding => ?_, rfl⟩
    rw [hstanding]
    exact h.answer _
  | cancel i =>
    exact ⟨h.withRecord i fun _ _ _ => (h.update (f := Session.cancel) fun _ _ => rfl).answer _, rfl⟩
  | wait seconds =>
    simp only [Service.serve]
    split
    · exact ⟨h.answer _, rfl⟩
    · split
      · exact ⟨h.answer _, rfl⟩
      · exact ⟨h.answer _, rfl⟩
  | run r =>
    simp only [Service.serve, withGraph]
    split
    · exact ⟨h.answer _, rfl⟩
    · next g hg =>
      obtain ⟨hid, hstrand, hopen⟩ := h.openSession g r hnew
      simp only [hid, hstrand]
      exact ⟨hopen, trivial⟩
  | start r =>
    simp only [Service.serve, withGraph]
    split
    · exact ⟨h.answer _, rfl⟩
    · next g hg =>
      obtain ⟨hid, hstrand, hopen⟩ := h.prune.openSession g r hnew
      simp only [hid, hstrand]
      exact ⟨(hopen.enlist _).answer _, trivial⟩

theorem step (h : Alike id a old d e) (hnew : id ≠ Desk.idOf (d.issued + 1)) {w : Work}
    (hw : w.run? ≠ some id) : Alike id a old (step d w).1 (step e w).1 ∧
      (Service.step d w).2 = (Service.step e w).2 := by
  have hother : ∀ {i}, w.run? = some i → i ≠ id := fun hi heq => hw (heq ▸ hi)
  cases w with
  | client commands =>
    cases commands with
    | nil => exact ⟨h.cancelPending, rfl⟩
    | cons command rest => exact h.serve hnew command rest
  | foreground i strand rest =>
    obtain ⟨hd, hdirective⟩ := h.stepRun (hother rfl) strand
    simp only [Service.step, ← hdirective]
    exact hd.carried (hd.closeForeground (hother rfl) rest) _
  | background i strand =>
    obtain ⟨hd, hdirective⟩ := h.stepRun (hother rfl) strand
    simp only [Service.step, ← hdirective]
    refine hd.carried (fun report => ?_) _
    exact ⟨hd.close (hother rfl) report, rfl⟩
  | branch i strand =>
    obtain ⟨hd, hdirective⟩ := h.stepRun (hother rfl) strand
    simp only [Service.step, ← hdirective]
    refine hd.carried (fun report => ?_) _
    exact ⟨hd, rfl⟩

end Desk.Alike

/-- The first pool with what the answer `a` adds to the answers. -/
structure Matches (a : Answer) (old : List Answer) (c d : House) : Prop where
  tasks : d.tasks = c.tasks
  standings : d.shared.standings = c.shared.standings
  answers : ∃ new, c.shared.answers = new ++ old ∧ d.shared.answers = new ++ a :: old

section

variable {c d : House} {id : String} {a : Answer} {old : List Answer} {path : List ℕ}
  {rest : List Command}

theorem Desk.Alike.matches {e : Desk} (h : Desk.Alike id a old c.shared e) :
    Matches a old c (c.under e) :=
  ⟨rfl, h.standings_eq, h.answers⟩

theorem Desk.ne_of_hasFinished {d : Desk} (hfinished : d.hasFinished id = true) {i : String}
    (hi : d.Unfinished i) : i ≠ id := by
  rintro rfl
  rw [Desk.hasFinished_eq_any, hi] at hfinished
  cases hfinished

theorem Desk.Sound.ne_of_hasFinished {d : Desk} (hd : d.Sound)
    (hfinished : d.hasFinished id = true) : id ≠ Desk.idOf (d.issued + 1) := by
  rintro rfl
  simp [Desk.hasFinished, hd.fresh] at hfinished

/-- Steps keep the service alike, seen from where nothing was cancelled. -/
theorem lockstep_alike : Lockstep program (Desk.Alike id a old)
    fun d w => d.Sound ∧ ∀ i, w.run? = some i → d.Unfinished i := by
  intro d e w h hK
  have hfinished := h.finished
  exact h.step (hK.1.ne_of_hasFinished hfinished) fun hid =>
    Desk.ne_of_hasFinished hfinished (hK.2 id hid) rfl

/-- Steps keep the service alike, seen from where the run was cancelled. -/
theorem lockstep_alike_symm : Lockstep program (fun e d => Desk.Alike id a old d e)
    fun e w => e.Sound ∧ ∀ i, w.run? = some i → e.Unfinished i := by
  intro e d w h hK
  have hfinished : e.hasFinished id = true := (h.hasFinished_eq id).trans h.finished
  have hnew := hK.1.ne_of_hasFinished hfinished
  rw [h.issued] at hnew
  obtain ⟨halike, hdirective⟩ := h.step hnew fun hid =>
    Desk.ne_of_hasFinished hfinished (hK.2 id hid) rfl
  exact ⟨halike, hdirective.symm⟩

theorem Housed.works (hc : Housed c) : ∀ w ∈ c.states,
    c.shared.Sound ∧ ∀ i, w.run? = some i → c.shared.Unfinished i :=
  fun _ hw => ⟨hc.sound, fun _ hid => hc.unfinished hw hid⟩

theorem Housed.under (hc : Housed c) {e : Desk} (hsound : e.Sound)
    (h : ∀ i, e.Unfinished i ↔ c.shared.Unfinished i) : Housed (c.under e) :=
  ⟨hsound, hc.households, hc.apart, fun i => (hc.atWork i).trans (h i).symm⟩

/-- A cancellation leaves the client with the rest of what it wants. -/
theorem advance_cancel (c : House) (path : List ℕ) (id : String) (rest : List Command) :
    c.advance program path (.client (.cancel id :: rest))
      = (c.replace path (.live (.client rest))).under
          (step c.shared (.client (.cancel id :: rest))).1 := by
  cases path with
  | nil => simp [Pool.advance, Pool.carryOut, Pool.replace, Pool.under, program, step, serve,
      Directive.roots]
  | cons i path => simp [Pool.advance, Pool.carryOut, Pool.replace, Pool.under, program, step,
      serve, Directive.roots, Directive.task]

/-- To cancel a run that has ended leaves the service as it was, but for the answer. -/
theorem exists_alike (d : Desk) (hfinished : d.hasFinished id = true) (rest : List Command) :
    ∃ a, Desk.Alike id a d.answers d (step d (.client (.cancel id :: rest))).1 := by
  show ∃ a, Desk.Alike id a d.answers d (withRecord d id fun _ => _)
  unfold withRecord
  rcases d.onRecord? id with - | s
  · exact ⟨.unknownRun id, hfinished, rfl, rfl, rfl, rfl, fun _ _ => rfl, rfl, [], rfl, rfl⟩
  · refine ⟨.cancelling id, hfinished, by simp, by simp [Desk.answer], by simp, by simp,
      fun i hi => ?_, ?_, [], rfl, by simp⟩
    · rw [Desk.sessions_answer, Desk.get?_update, if_neg hi]
    · rw [Desk.sessions_answer, Desk.get?_update, if_pos rfl, Option.map_map]
      rfl

/-- Two services differ in the answer `a`, and in nothing else that is ever answered: whatever can
happen in the one can happen in the other, and in the order of any queue the same happens. -/
structure Indistinct (a : Answer) (old : List Answer) (c d : House) : Prop where
  matched : ∀ c', Reaches c c' → ∃ d', Reaches d d' ∧ Matches a old c' d'
  matching : ∀ d', Reaches d d' → ∃ c', Reaches c c' ∧ Matches a old c' d'
  queued : ∀ (ready : List Schedule.Notice) (sleepers : List Schedule.Sleeper) (now fuel : ℕ),
    Matches a old (Machine.run program fuel ⟨c, ready, sleepers, now⟩).1.toPool
      (Machine.run program fuel ⟨d, ready, sleepers, now⟩).1.toPool ∧
    (Machine.run program fuel ⟨d, ready, sleepers, now⟩).2
      = (Machine.run program fuel ⟨c, ready, sleepers, now⟩).2

theorem Desk.Alike.indistinct {e : Desk} (h : Desk.Alike id a old c.shared e) (hc : Housed c)
    (he : Housed (c.under e)) : Indistinct a old c (c.under e) := by
  have hmove : ∀ {c d : House}, Housed c → Pool.Move program c d → Housed d := fun h => h.move
  refine ⟨fun d hd => ?_, fun d hd => ?_, fun ready sleepers now fuel => ?_⟩
  · obtain ⟨t, hreach, hrelated, -⟩ := lockstep_alike.reaches hmove Housed.works hc h hd
    exact ⟨d.under t, hreach, hrelated.matches⟩
  · obtain ⟨t, hreach, hrelated, -⟩ := lockstep_alike_symm.reaches hmove Housed.works he h hd
    exact ⟨d.under t, hreach, rfl, hrelated.standings_eq, hrelated.answers⟩
  · obtain ⟨t, hrun, hrelated⟩ := lockstep_alike.run (m := ⟨c, ready, sleepers, now⟩)
      hmove Housed.works hc h fuel
    have hunder : (⟨c.under e, ready, sleepers, now⟩ : Machine Desk Work Run.Report)
      = Machine.under ⟨c, ready, sleepers, now⟩ e := rfl
    rw [hunder, hrun]
    exact ⟨hrelated.matches, rfl⟩

/-- To cancel a run that has ended is as good as not to ask for it. -/
theorem Housed.indistinct_cancel (hc : Housed c)
    (hat : c.at? path = some (.live (.client (.cancel id :: rest))))
    (hfinished : c.shared.hasFinished id = true) :
    ∃ a, Indistinct a c.shared.answers (c.replace path (.live (.client rest)))
      (c.advance program path (.client (.cancel id :: rest))) := by
  obtain ⟨a, halike⟩ := exists_alike c.shared hfinished rest
  have hafter : Housed (c.advance program path (.client (.cancel id :: rest))) := hc.advance hat
  rw [advance_cancel] at hafter ⊢
  have hbefore : Housed (c.replace path (.live (.client rest))) := by
    have hback := hafter.under (e := c.shared) hc.sound fun i =>
      Desk.unfinished_of_get? (halike.outcome_eq i).symm
    rwa [Pool.under_under, ← Pool.replace_shared c path (.live (.client rest)),
      Pool.under_self] at hback
  generalize (step c.shared (.client (.cancel id :: rest))).1 = e at halike hafter ⊢
  have hunder : Desk.Alike id a c.shared.answers (c.replace path (.live (.client rest))).shared e := by
    rwa [Pool.replace_shared]
  exact ⟨a, hunder.indistinct hbefore hafter⟩

end

namespace Sample

/-- A run is asked for before and after its end. -/
def watched : House :=
  worked (opening forgetful [.start idle, .get "run-1", .get "run-1"]) [0, 0, 1, 1, 1, 0]

theorem reaches_watched :
    Reaches (opening forgetful [.start idle, .get "run-1", .get "run-1"]) watched :=
  reaches_worked ..

end Sample

end Automation.Service
