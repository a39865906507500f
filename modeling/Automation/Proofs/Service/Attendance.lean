/-
Automation/Proofs/Service/Attendance.lean

Every command is answered, one after another.

There is one client.  What it has left to ask is in one task (`asking`): its own, or that of the
run which it waits for.  Each command is answered once, and the next one is looked at only then
(`Turn.asks`), so what was answered, what is waited for and what is left make up all that the
client wants (`Ahead`).
-/
import Automation.Proofs.Schedule.Regular
import Automation.Proofs.Service.LifeCycle

namespace Automation.Service

open Automation.Schedule (Directive Machine Pool Task)

/-! ### What is left to ask -/

/-- How many commands are waited for in a task, and what is asked after that. -/
def Work.asking? : Work → Option (ℕ × List Command)
  | .client commands => some (0, commands)
  | .foreground _ _ commands => some (1, commands)
  | _ => none

/-- What all tasks have left to ask. -/
def asking (c : House) : List (ℕ × List Command) := c.states.filterMap Work.asking?

@[simp] theorem Work.asking?_withStrand (w : Work) (next : Run.Strand) :
    (w.withStrand next).asking? = w.asking? := by
  cases w <;> rfl

theorem Work.eq_client {w : Work} {commands : List Command}
    (h : w.asking? = some (0, commands)) : w = .client commands := by
  cases w with
  | client cs => exact congrArg Work.client (Prod.mk.inj (Option.some.inj h)).2
  | foreground run strand cs => simp [Work.asking?] at h
  | background | branch => cases h

/-- What is asked and answered in a turn. -/
inductive Asks (d d' : Desk) : Option (ℕ × List Command) → List (ℕ × List Command) → Prop
  | others : d'.answers = d.answers → Asks d d' none []
  | answered {command rest a} : d'.answers = a :: d.answers →
    Asks d d' (some (0, command :: rest)) [(0, rest)]
  | awaits {r rest} : d'.answers = d.answers → Asks d d' (some (0, .run r :: rest)) [(1, rest)]
  | waits {rest} : d'.answers = d.answers → Asks d d' (some (1, rest)) [(1, rest)]
  | returns {rest o} : d'.answers = .ran o :: d.answers →
    (d'.sessions.get? o.runId).bind Session.outcome = some o →
    Asks d d' (some (1, rest)) [(0, rest)]
  | leaves : d'.answers = d.answers → Asks d d' (some (0, [])) []

section

variable {d d' : Desk} {w : Work} {directive : Directive Work Run.Report} {id : String}

/-- Nothing is asked by those who have nothing left to ask. -/
theorem Asks.nothing {asked : Option (ℕ × List Command)} {births : List (ℕ × List Command)}
    (h : Asks d d' asked births) (hnone : ∀ x, asked = some x → x = (0, [])) :
    d'.answers = d.answers ∧ births = [] := by
  cases h with
  | others hsame | leaves hsame => exact ⟨hsame, rfl⟩
  | answered | awaits | waits | returns => cases hnone _ rfl

/-- A task of a run that goes on has as much left to ask. -/
theorem Carried.asking {t : Task Run.Strand Run.Report} {u : Task Work Run.Report}
    (h : Carried w id t u) (hended : ∀ report, u ≠ .ended report) :
    u.states.filterMap Work.asking? = w.asking?.toList := by
  cases h with
  | live => rcases hw : w.asking? with - | x <;> simp [hw]
  | @waiting next children =>
    have hbranches : (children.map (Work.branch id)).filterMap Work.asking? = [] := by
      rw [List.filterMap_map]
      exact List.filterMap_eq_nil_iff.mpr fun _ _ => rfl
    rw [Task.states_waiting, Task.statesAll_map_live, List.filterMap_cons, hbranches]
    rcases hw : w.asking? with - | x <;> simp [hw]
  | @ended report => exact absurd rfl (hended report)

theorem Turn.asks (h : Turn d w d' directive) :
    Asks d d' w.asking? ((directive.births program).filterMap Work.asking?) := by
  cases h with
  | answers _ hgoes =>
    obtain ⟨htask, hroots⟩ := goesOn_task hgoes
    rw [Directive.births, htask, hroots]
    exact .answered rfl
  | cancels => exact .answered (by simp; rfl)
  | runs => exact .awaits rfl
  | starts => exact .answered rfl
  | shutsDown => exact .leaves (by simp)
  | @works _ id s shared directive hid hs hstep hgoes =>
    have hroots := Run.roots_of_step hstep
    have hcarried := carried_task (w := w) hid s.setup directive
    rw [Directive.births, roots_carry hroots, Task.statesAll_nil, List.append_nil,
      hcarried.asking fun report hended => ?_]
    · cases w with
      | client => cases hid
      | foreground => exact .waits (by simp)
      | background | branch => exact .others (by simp)
    · generalize htask : directive.task (Run.program s.setup) = t at hcarried
      rw [hended] at hcarried
      cases hcarried
      exact hgoes report (eq_finish htask)
  | reports | ends => exact .others (by simp)
  | @returns id strand rest s shared report hs hstep =>
    refine .returns (by simp; rfl) ?_
    show ((((d.sharing id shared).close id report).answer _).sessions.get? id).bind _ = _
    rw [Desk.sessions_answer, Desk.get?_close_sharing, if_pos rfl, hs]
    rfl

end

/-! ### One client -/

section

variable {c : House} {w : Work} {path : List ℕ} {x : ℕ × List Command}

/-- A task takes a step: it is the one that asks, or the one that asks stays as it is. -/
theorem asking_advance (hone : asking c = [x]) (hat : c.at? path = some (.live w)) :
    (w.asking? = none ∧ (((step c.shared w).2.births program).filterMap Work.asking? = [] →
      asking (c.advance program path w) = [x])) ∨
    (w.asking? = some x ∧ asking (c.advance program path w)
      = ((step c.shared w).2.births program).filterMap Work.asking?) := by
  -- what comes of the task stands in its place, and new roots behind all others
  obtain ⟨before, after, hs, hnew⟩ := Pool.states_advance (p := program) hat
  have hnew' : asking (c.advance program path w) = before.filterMap Work.asking?
      ++ ((step c.shared w).2.task program).states.filterMap Work.asking?
      ++ after.filterMap Work.asking?
      ++ (Task.statesAll (step c.shared w).2.roots).filterMap Work.asking? := by
    rw [asking, hnew]
    simp only [List.filterMap_append]
    rfl
  rw [asking, hs, List.filterMap_append] at hone
  rw [hnew', Directive.births, List.filterMap_append]
  rcases hw : w.asking? with - | y
  · refine .inl ⟨rfl, fun hnone => ?_⟩
    obtain ⟨htask, hroots⟩ := List.append_eq_nil_iff.mp hnone
    rw [List.filterMap_cons_none hw] at hone
    simpa [htask, hroots] using hone
  · rw [List.filterMap_cons_some hw] at hone
    obtain ⟨hbefore, hrest⟩ : before.filterMap Work.asking? = [] ∧
        y :: after.filterMap Work.asking? = [x] := by
      rcases List.append_eq_singleton_iff.mp hone with h | h
      · exact h
      · cases h.2
    obtain ⟨rfl, hafter⟩ := List.cons.inj hrest
    exact .inr ⟨rfl, by simp [hbefore, hafter]⟩

theorem asking_rejoin {children : List (Task Work Run.Report)} {results : List Run.Report}
    (hat : c.at? path = some (.waiting w children))
    (hresults : Task.results? children = some results) :
    asking (c.replace path (.live (rejoin w results))) = asking c := by
  obtain ⟨before, after, hs, hnew⟩ := Pool.states_rejoin (p := program) hat hresults
  have hsame : (rejoin w results).asking? = w.asking? := by
    rw [Work.rejoin_eq, Work.asking?_withStrand]
  have hback : program.rejoin w results = rejoin w results := rfl
  rw [hback] at hnew
  simp only [asking, hs, hnew, List.filterMap_append, List.filterMap_cons, hsame]

/-- The client has not come to `rest` yet, before which it asks as much as in `before`. -/
def Ahead (before rest : List Command) (c : House) : Prop :=
  ∃ waiting ahead, asking c = [(waiting, ahead ++ rest)] ∧
    c.shared.answers.length + waiting + ahead.length = before.length

theorem ahead_opening (d : Desk) (hd : d.answers = []) (before rest : List Command) :
    Ahead before rest (opening d (before ++ rest)) :=
  ⟨0, before, rfl, by simp [Pool.start, hd]⟩

/-- The client comes to what is next: it stands there, or it does not yet. -/
theorem Ahead.advance {before rest : List Command} (h : Ahead before rest c) (hc : Housed c)
    (hat : c.at? path = some (.live w)) :
    w = .client rest ∧ c.shared.answers.length = before.length ∨
      Ahead before rest (c.advance program path w) := by
  obtain ⟨waiting, ahead, hone, hcount⟩ := h
  have hasks := (hc.turn (Pool.mem_states_of_live hat)).asks
  have hshared : (c.advance program path w).shared = (step c.shared w).1 := Pool.advance_shared ..
  unfold Ahead
  rw [hshared]
  rcases asking_advance hone hat with ⟨hnone, hsame⟩ | ⟨hsome, hnew⟩
  · rw [hnone] at hasks
    generalize hbirths : ((step c.shared w).2.births program).filterMap Work.asking? = births
      at hasks hsame
    cases hasks with
    | others hanswers => exact .inr ⟨waiting, ahead, hsame rfl, by rwa [hanswers]⟩
  · rw [hnew]
    rw [hsome] at hasks
    generalize ((step c.shared w).2.births program).filterMap Work.asking? = births at hasks
    generalize hall : ahead ++ rest = all at hasks
    by_cases hhere : waiting = 0 ∧ ahead = []
    · obtain ⟨rfl, rfl⟩ := hhere
      exact .inl ⟨Work.eq_client hsome, by simpa using hcount⟩
    · right
      cases hasks with
      | answered hanswers | awaits hanswers =>
        -- the first of what is left was looked at
        cases ahead with
        | nil => exact absurd ⟨rfl, rfl⟩ hhere
        | cons command ahead =>
          obtain ⟨-, rfl⟩ := List.cons.inj hall
          refine ⟨_, ahead, rfl, ?_⟩
          simp only [hanswers, List.length_cons] at hcount ⊢
          omega
      | waits hanswers => exact ⟨1, ahead, by rw [hall], by rwa [hanswers]⟩
      | returns hanswers =>
        refine ⟨0, ahead, by rw [hall], ?_⟩
        rw [hanswers, List.length_cons]
        omega
      | leaves =>
        obtain ⟨rfl, -⟩ := List.append_eq_nil_iff.mp hall
        exact absurd ⟨rfl, rfl⟩ hhere

theorem Ahead.rejoin {before rest : List Command} (h : Ahead before rest c)
    {children : List (Task Work Run.Report)} {results : List Run.Report}
    (hat : c.at? path = some (.waiting w children))
    (hresults : Task.results? children = some results) :
    Ahead before rest (c.replace path (.live (Service.rejoin w results))) := by
  obtain ⟨waiting, ahead, hone, hcount⟩ := h
  exact ⟨waiting, ahead, (asking_rejoin hat hresults).trans hone, by
    rwa [Pool.replace_shared]⟩

/-- When all tasks have ended, the client has nothing left to ask. -/
theorem Ahead.not_isOver {before rest : List Command} (h : Ahead before rest c) : ¬ c.IsOver := by
  obtain ⟨waiting, ahead, hone, -⟩ := h
  intro hover
  rw [asking, hover.states_eq_nil] at hone
  cases hone

/-! ### One command -/

/-- A client that wants nothing but one run: it waits for the run, or it was told what the run
has come to. -/
structure Attended (c : House) : Prop where
  issued : c.shared.issued = 1
  served : asking c = [(1, [])] ∧ c.shared.answers = [] ∨
    (∀ y ∈ asking c, y = (0, [])) ∧ ∃ o, c.shared.answers = [.ran o] ∧
      (c.shared.sessions.get? o.runId).bind Session.outcome = some o

theorem Attended.asking_eq (h : Attended c) (hx : x ∈ asking c) : x = (1, []) ∨ x = (0, []) := by
  rcases h.served with ⟨hone, -⟩ | ⟨hall, -⟩
  · rw [hone] at hx
    exact .inl (List.mem_singleton.mp hx)
  · exact .inr (hall x hx)

theorem Attended.advance (h : Attended c) (hc : Housed c) (hat : c.at? path = some (.live w)) :
    Attended (c.advance program path w) := by
  have hw := Pool.mem_states_of_live hat
  have hturn := hc.turn hw
  have hasks := hturn.asks
  have hmem : ∀ y, w.asking? = some y → y ∈ asking c := fun y hy =>
    List.mem_filterMap.mpr ⟨w, hw, hy⟩
  have hidle : ∀ command rest, w ≠ .client (command :: rest) := by
    rintro command rest rfl
    rcases h.asking_eq (hmem _ rfl) with heq | heq <;> cases heq
  have hshared : (c.advance program path w).shared = (step c.shared w).1 := Pool.advance_shared ..
  refine ⟨?_, ?_⟩
  · rw [hshared, hturn.issued_eq fun r rest => ⟨hidle _ rest, hidle _ rest⟩]
    exact h.issued
  rw [hshared]
  rcases h.served with ⟨hone, hanswers⟩ | ⟨hall, o, hanswers, ho⟩
  · rcases asking_advance hone hat with ⟨hnone, hsame⟩ | ⟨hsome, hnew⟩
    · rw [hnone] at hasks
      generalize hbirths : ((step c.shared w).2.births program).filterMap Work.asking? = births
        at hasks hsame
      cases hasks with
      | others hanswers' => exact .inl ⟨hsame rfl, hanswers'.trans hanswers⟩
    · rw [hsome] at hasks
      rw [hnew]
      generalize ((step c.shared w).2.births program).filterMap Work.asking? = births at hasks
      cases hasks with
      | waits hanswers' => exact .inl ⟨rfl, hanswers'.trans hanswers⟩
      | returns hanswers' ho =>
        rw [hanswers] at hanswers'
        exact .inr ⟨by simp, _, hanswers', ho⟩
  · -- the client has nothing left to ask, so nobody asks for anything
    obtain ⟨hsame, hnothing⟩ := hasks.nothing fun y hy => hall y (hmem y hy)
    refine .inr ⟨fun y hy => ?_, o, hsame.trans hanswers,
      hturn.outcome hc.sound (fun i hi => hc.unfinished hw hi) ho⟩
    obtain ⟨b, hb, hy⟩ := List.mem_filterMap.mp hy
    rcases Pool.mem_of_mem_advance hat hb with hborn | hold
    · have hasked := List.mem_filterMap.mpr ⟨b, hborn, hy⟩
      rw [show program.step c.shared w = step c.shared w from rfl, hnothing] at hasked
      cases hasked
    · exact hall y (List.mem_filterMap.mpr ⟨b, hold, hy⟩)

theorem Attended.reaches {e : House} (h : Attended c) (hc : Housed c) (hreach : Reaches c e) :
    Attended e := by
  induction hreach with
  | refl => exact h
  | tail hreach hstep ih =>
    have hb := hc.reaches hreach
    cases hstep with
    | outside h => exact h.elim
    | move hmove =>
      cases hmove with
      | advance hat => exact ih.advance hb hat
      | rejoin hat hresults =>
        obtain ⟨hissued, hserved⟩ := ih
        rw [← asking_rejoin hat hresults] at hserved
        exact ⟨by rwa [Pool.replace_shared], by rwa [Pool.replace_shared]⟩

/-- Only one run was ever there. -/
theorem Attended.eq_idOf (h : Attended c) (hc : Housed c) {id : String} {s : Session}
    (hs : c.shared.sessions.get? id = some s) : id = Desk.idOf 1 := by
  have hmem : id ∈ c.shared.sessions.keys := Fields.mem_keys_iff.mpr ⟨s, hs⟩
  rw [hc.sound.keys, h.issued] at hmem
  simpa using hmem

end

end Automation.Service
