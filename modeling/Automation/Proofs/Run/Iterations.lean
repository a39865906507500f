/-
Automation/Proofs/Run/Iterations.lean

The iterations that loops begin.

A loop begins its iterations when it takes a turn.  The journal does not tell of that:
an iteration whose body has no nodes leaves nothing there.  So a run tells the scopes of
the iterations that its steps begin (`enters`), and facts about runs may speak of what
was told beside the journal (`keptAt_of_deeds_noted`, `honouredAt_of_deeds_noted`).

Where there is something in the scope of an iteration, the loop waits for a batch
(`exists_waiting_of_placed`); so an iteration is over when its loop has ended or takes a
turn.

A loop goes on by the plan that its settings make in the view of its branch, or fails
because they make none (`Prepared`).
-/
import Automation.Proofs.Run.Failure
import Automation.Proofs.Schedule.History

namespace Automation.Run

open Automation.Schedule (Noting Occupant Pool Task)

variable {setup : Setup}

/-! ### What is in the scope of an iteration -/

mutual

/-- What is in a scope of its own below a branch is in the iteration of a loop that waits for
its batch. -/
theorem exists_gather_of_placed : (t : Task Strand Report) → ∀ {here : Scope}
    {x : Scope × Occupant Strand Report}, x ∈ t.placed within here → x.1 = here ∨
      ∃ outer n course b i, (outer, .waiting (.gather n course b)) ∈ t.placed within here ∧
        x.1 = outer ++ [(n.id, i)]
  | .live a, here, x, h => by
    obtain rfl := List.mem_singleton.mp h
    exact .inl rfl
  | .ended r, here, x, h => by
    obtain rfl := List.mem_singleton.mp h
    exact .inl rfl
  | .waiting a children, here, x, h => by
    rw [Task.placed_waiting, List.mem_cons] at h
    rcases h with rfl | h
    · exact .inl rfl
    rcases exists_gather_of_placedAll children h with ⟨k, hk⟩ | ⟨outer, n, course, b, i, hin, hx⟩
    · -- a child of the branch: in an iteration if the branch is a loop, else in its scope
      cases a with
      | gather n course b => exact .inr ⟨here, n, course, b, _, List.mem_cons_self, hk⟩
      | _ => exact .inl hk
    · exact .inr ⟨outer, n, course, b, i, List.mem_cons_of_mem _ hin, hx⟩

/-- The same, for several branches in places of their own. -/
theorem exists_gather_of_placedAll : (ts : List (Task Strand Report)) → ∀ {place : ℕ → Scope}
    {first : ℕ} {x : Scope × Occupant Strand Report}, x ∈ Task.placedAll within ts place first →
      (∃ k, x.1 = place k) ∨
      ∃ outer n course b i,
        (outer, .waiting (.gather n course b)) ∈ Task.placedAll within ts place first ∧
        x.1 = outer ++ [(n.id, i)]
  | [], _, _, _, h => by cases h
  | t :: ts, place, first, x, h => by
    rw [Task.placedAll_cons, List.mem_append] at h
    rcases h with h | h
    · rcases exists_gather_of_placed t h with heq | ⟨outer, n, course, b, i, hin, hx⟩
      · exact .inl ⟨first, heq⟩
      · exact .inr ⟨outer, n, course, b, i, List.mem_append_left _ hin, hx⟩
    · rcases exists_gather_of_placedAll ts h with hk | ⟨outer, n, course, b, i, hin, hx⟩
      · exact .inl hk
      · exact .inr ⟨outer, n, course, b, i, List.mem_append_right _ hin, hx⟩

end

/-- A branch in a run that has not ended is in the scope that it sees. -/
theorem executing_of_located {j : Journal} {scope : Scope} {x : Occupant Strand Report}
    (h : Located setup j scope x) {a : Strand} (ha : stateAt x = some a) {here : Scope}
    {node : String} (hwork : executing a = some (here, node)) : here = scope := by
  have hview : ∀ view, a.view? = some view → view.scope = scope := by
    cases x with
    | live b =>
      obtain rfl := Option.some.inj ha
      exact h.2
    | waiting b =>
      obtain rfl := Option.some.inj ha
      exact h.2.2
    | ended report => cases ha
  cases a with
  | act n activity b => exact (Prod.mk.inj (Option.some.inj hwork)).1 ▸ hview _ rfl
  | turn n course b => exact (Prod.mk.inj (Option.some.inj hwork)).1 ▸ hview _ rfl
  | gather n course b => exact (Prod.mk.inj (Option.some.inj hwork)).1 ▸ hview _ rfl
  | settle n course batch b => exact (Prod.mk.inj (Option.some.inj hwork)).1 ▸ hview _ rfl
  | _ => cases hwork

/-- Where there is something in an iteration of a loop, the loop waits for its batch. -/
theorem exists_waiting_of_placed {given : Given} {world : World} {c : Pool State Strand Report}
    (h : Reaches setup (opening setup given world) c) {x : Scope × Occupant Strand Report}
    (hx : x ∈ c.placed within []) {outer : Scope} {loop : String} {i : Int}
    (hscope : x.1 = outer ++ [(loop, i)]) :
    ∃ n course b, .gather n course b ∈ c.states ∧
      executing (.gather n course b) = some (outer, loop) := by
  have hne : ∀ k : ℕ, x.1 ≠ (fun _ => ([] : Scope)) k := by
    intro k
    rw [hscope]
    exact List.append_ne_nil_of_right_ne_nil _ (by simp)
  rcases exists_gather_of_placedAll c.tasks hx with ⟨k, hk⟩ | ⟨around, n, course, b, k, hin, heq⟩
  · exact absurd hk (hne k)
  obtain ⟨rfl, hlast⟩ := List.append_inj' (hscope.symm.trans heq) rfl
  obtain ⟨rfl, -⟩ : loop = n.id ∧ i = k := by simpa using hlast
  refine ⟨n, course, b, Task.mem_statesAll_of_placed c.tasks (.inr hin), ?_⟩
  have hlocated := ((sound_of_reaches h).2 _ hin).located
  have hwork : executing (.gather n course b) = some (b.view.scope, n.id) := rfl
  rw [hwork, executing_of_located hlocated rfl hwork]

/-! ### The scopes of the iterations that are begun -/

/-- The scopes of the iterations that come of a step. -/
def entered : Strand → Task Strand Report → List Scope
  | .turn .., .waiting _ children => (Task.statesAll children).filterMap Strand.scope?
  | _, _ => []

/-- What a step tells: the scopes of the iterations that it begins. -/
def enters (setup : Setup) (s : State) (a : Strand) : List Scope :=
  entered a ((step setup s a).2.task (program setup))

/-- A batch begins its iterations, each in a scope of its own. -/
theorem entered_batch {j : Journal} {n : Node} {course : Loop.Course} {b : Branch}
    (h : Looping setup j b.view.scope n course) (waiting : Strand) (count : ℕ) :
    entered (.turn n course b) (.waiting waiting (((List.range' course.next count).map
        (iteration setup n course.plan b.view)).map .live))
      = (List.range' course.next count).map fun (i : ℕ) => b.view.scope ++ [(n.id, (i : Int))] := by
  show (Task.statesAll _).filterMap Strand.scope? = _
  rw [Task.statesAll_map_live, List.filterMap_map, ← List.filterMap_eq_map]
  refine List.filterMap_congr fun i _ => ?_
  exact congrArg some (h.scope_enter b.view i)

/-- Only a batch of a loop begins iterations. -/
theorem Deed.entered_cases {j : Journal} {a : Strand} {events : List Event}
    {task : Task Strand Report} (h : Deed setup j a events task) (ha : Grounded setup j a) :
    entered a task = [] ∨ ∃ n course b count, a = .turn n course b ∧
      entered a task
        = (List.range' course.next count).map fun (i : ℕ) => b.view.scope ++ [(n.id, (i : Int))] := by
  cases h with
  | @batch n course b count _ _ _ => exact .inr ⟨n, course, b, count, rfl, entered_batch ha _ count⟩
  | _ => exact .inl rfl

/-! ### Loops by their plans -/

/-- What a branch that looks at a loop goes on with: the loop by its plan, or the failure of the
loop because it has none. -/
def Prepared (setup : Setup) : Strand → Task Strand Report → Prop
  | .visit _ b, .live (.turn n course _) => planFor setup n b.view = .ok course.plan
  | .visit _ b, .live (.act n activity _) => n.isLoop = true →
    ∃ fault, activity = .fail fault ∧ planFor setup n b.view = .error fault
  | _, _ => True

theorem planFor_of_resolved {n : Node} {view : View} {config : Fields Value}
    (h : view.resolveFields n.config = .ok config) :
    planFor setup n view = planOf setup n config view := by
  rw [planFor, h]
  rfl

theorem prepared_beginLoop (setup : Setup) (s : State) (id : String) (n : Node) (b : Branch) :
    Prepared setup (.visit id b) ((beginLoop setup s n b).2.task (program setup)) := by
  unfold beginLoop
  rcases hconfig : b.view.resolveFields n.config with fault | config
  · intro _
    refine ⟨fault, rfl, ?_⟩
    rw [planFor, hconfig]
    rfl
  · have hplan : planFor setup n b.view = planOf setup n config b.view := planFor_of_resolved hconfig
    rcases hmade : planOf setup n config b.view with fault | plan
    · simp only [hmade]
      exact fun _ => ⟨fault, rfl, hplan.trans hmade⟩
    · simp only [hmade]
      exact hplan.trans hmade

theorem prepared_beginAction (setup : Setup) (s : State) (id : String) {n : Node} (b : Branch)
    (hn : n.isLoop = false) :
    Prepared setup (.visit id b) ((beginAction setup s n b).2.task (program setup)) := by
  obtain ⟨opening, next, hopening, hnext, -⟩ := opening_beginAction setup s b hn
  rw [hnext]
  cases hopening with
  | loop hloop => rw [hn] at hloop; cases hloop
  | _ => intro hloop; rw [hn] at hloop; cases hloop

/-- A loop that is looked at goes on by its plan. -/
theorem prepared_step (setup : Setup) (s : State) (a : Strand) :
    Prepared setup a ((step setup s a).2.task (program setup)) := by
  cases a with
  | visit id b =>
    show Prepared setup (.visit id b) ((visit setup s id b).2.task (program setup))
    -- but for a node that is begun the branch ends or follows edges
    unfold visit
    split
    · trivial
    split
    · trivial
    · next n _ =>
      split
      · trivial
      split
      · trivial
      · next journal _ =>
        dsimp only
        split
        · trivial
        · unfold begin
          rcases hn : n.isLoop with - | -
          · exact prepared_beginAction setup _ id b hn
          · exact prepared_beginLoop setup _ id n b
  | _ => trivial

/-! ### What runs keep about what they tell -/

variable {ε : Type*} {ι : Type*}

/-- What a step tells by what comes of the branch. -/
def notes (setup : Setup) (note : Strand → Task Strand Report → List ε) (s : State) (a : Strand) :
    List ε :=
  note a ((step setup s a).2.task (program setup))

/-- A step of a branch is a deed, which adds its events to the journal and what it tells to what
was told. -/
theorem exists_deed_noted (setup : Setup) (note : Strand → Task Strand Report → List ε)
    (inside : ι → Strand → ℕ → ι) (origin : ι) (s : State × List ε) (a : Strand) (here : ι) :
    ∃ events task, Deed setup s.1.journal a events task ∧ Prepared setup a task ∧
      (((program setup).noted (notes setup note)).step s a).1.1.journal
        = s.1.journal.adding events ∧
      (((program setup).noted (notes setup note)).step s a).1.2 = s.2 ++ note a task ∧
      (((program setup).noted (notes setup note)).step s a).2.placed
          ((program setup).noted (notes setup note)) inside origin here
        = task.placed inside here := by
  obtain ⟨events, hdeed, hj, hroots⟩ := exists_deed setup s.1 a
  refine ⟨events, _, hdeed, prepared_step setup s.1 a, hj, rfl, ?_⟩
  show ((step setup s.1 a).2.task ((program setup).noted (notes setup note))).placed inside here
    ++ Task.placedAll inside (step setup s.1 a).2.roots _ 0 = _
  rw [hroots, Pool.task_noted]
  simp

/-- What all deeds keep, about the journal and what was told and about all that is in a place
beside them, is kept by all steps. -/
theorem keptAt_of_deeds_noted {note : Strand → Task Strand Report → List ε}
    {inside : ι → Strand → ℕ → ι} {origin : ι} {J : Journal → List ε → Prop}
    {K : Journal → List ε → ι → Occupant Strand Report → Prop}
    (hJ : ∀ {j told here a events task}, J j told → K j told here (.live a) →
      Deed setup j a events task → Prepared setup a task →
      J (j.adding events) (told ++ note a task))
    (hbirths : ∀ {j told here a events task}, J j told → K j told here (.live a) →
      Deed setup j a events task → Prepared setup a task →
      ∀ x ∈ task.placed inside here, K (j.adding events) (told ++ note a task) x.1 x.2)
    (hrejoin : ∀ {j told here a reports}, J j told → K j told here (.waiting a) →
      (∀ (k : ℕ) r, reports[k]? = some r → K j told (inside here a k) (.ended r)) →
      K j told here (.live (rejoin a reports)))
    (hcancel : ∀ {j told}, J j told → J (j.adding [.cancelled]) told)
    (hmono : ∀ {j told here x} events more, K j told here x →
      K (j.adding events) (told ++ more) here x) :
    Pool.KeptAt ((program setup).noted (notes setup note)) (Noting Disturbs) inside origin
      (fun s => J s.1.journal s.2) (fun s => K s.1.journal s.2) where
  shared {s here a} h ha := by
    obtain ⟨events, task, hdeed, hprepared, hj, htold, -⟩ :=
      exists_deed_noted setup note inside origin s a here
    rw [hj, htold]
    exact hJ h ha hdeed hprepared
  births {s here a} h ha x hx := by
    obtain ⟨events, task, hdeed, hprepared, hj, htold, hplaced⟩ :=
      exists_deed_noted setup note inside origin s a here
    rw [hplaced] at hx
    rw [hj, htold]
    exact hbirths h ha hdeed hprepared x hx
  others {s here a r x} h ha hx := by
    obtain ⟨events, task, -, -, hj, htold, -⟩ :=
      exists_deed_noted setup note inside origin s a here
    rw [hj, htold]
    exact hmono events _ hx
  rejoin h ha hreports := hrejoin h ha hreports
  outside {s s'} hout h := by
    obtain ⟨hdisturbs, htold⟩ := hout
    rw [htold]
    rcases hdisturbs with hj | hj
    · rw [hj]
      exact ⟨h, fun _ _ hx => hx⟩
    · rw [hj]
      refine ⟨hcancel h, fun _ _ hx => ?_⟩
      have hlater := hmono [.cancelled] [] hx
      rwa [List.append_nil] at hlater

section Debts

variable {J : Journal → List Scope → Prop}
  {K : Journal → List Scope → Scope → Occupant Strand Report → Prop}

/-- Debts that all deeds honour, about the journal and what was told, are honoured by all
steps. -/
theorem honouredAt_of_deeds_noted {δ : Type*} (due : Journal → List Scope → δ → Prop)
    (settled : Journal → δ → Prop) (owes : Scope → Occupant Strand Report → δ → Prop)
    (hkeeps : ∀ {j i} events, settled j i → settled (j.adding events) i)
    (hhanded : ∀ {j told scope a events task i}, J j told → K j told scope (.live a) →
      Deed setup j a events task → owes scope (.live a) i →
      settled (j.adding events) i ∨ ∃ x ∈ task.placed within scope, owes x.1 x.2 i)
    (hfresh : ∀ {j told scope a events task i}, J j told → K j told scope (.live a) →
      Deed setup j a events task → due (j.adding events) (told ++ entered a task) i →
      due j told i ∨ settled (j.adding events) i ∨ ∃ x ∈ task.placed within scope, owes x.1 x.2 i)
    (hrejoin : ∀ {j told scope a reports i}, J j told → K j told scope (.waiting a) →
      (∀ (k : ℕ) r, reports[k]? = some r → K j told (within scope a k) (.ended r)) →
      (owes scope (.waiting a) i ∨
        ∃ (k : ℕ) (r : Report), reports[k]? = some r ∧ owes (within scope a k) (.ended r) i) →
      settled j i ∨ owes scope (.live (rejoin a reports)) i)
    (hcancel : ∀ {j told i}, due (j.adding [.cancelled]) told i → due j told i) :
    Pool.HonouredAt ((program setup).noted (notes setup entered)) (Noting Disturbs) within []
      (fun s => J s.1.journal s.2) (fun s => K s.1.journal s.2) (fun s => due s.1.journal s.2)
      (fun s => settled s.1.journal) owes where
  keeps {s scope a i} _ _ hi := by
    obtain ⟨events, task, -, -, hj, -, -⟩ := exists_deed_noted setup entered within [] s a scope
    rw [hj]
    exact hkeeps events hi
  handed {s scope a i} h ha hi := by
    obtain ⟨events, task, hdeed, -, hj, -, hplaced⟩ := exists_deed_noted setup entered within [] s a scope
    rw [hj, hplaced]
    exact hhanded h ha hdeed hi
  fresh {s scope a i} h ha hi := by
    obtain ⟨events, task, hdeed, -, hj, htold, hplaced⟩ := exists_deed_noted setup entered within [] s a scope
    rw [hj, htold] at hi
    rw [hj, hplaced]
    exact hfresh h ha hdeed hi
  rejoin h ha hreports hi := hrejoin h ha hreports hi
  outside {s s' i} hout := by
    obtain ⟨hdisturbs, htold⟩ := hout
    rw [htold]
    rcases hdisturbs with hj | hj
    · rw [hj]
      exact ⟨id, id⟩
    · rw [hj]
      exact ⟨hkeeps _, hcancel⟩

end Debts

end Automation.Run
