/-
Automation/Proofs/Run/Location.lean

Branches and reports by the scope they are in.

A branch that waits for its forks or is at its end sees nothing any more, and a report
has no scope of its own.  Their scope is told by where they are: the first branch is
in the empty scope, the branches that another one forked into are in its scope, and an
iteration has one more number around it than its loop (`within`).  A branch that sees
something sees it in that scope (`located_kept`).

What all deeds keep about that is kept by all steps (`keptAt_of_deeds`), and debts that
all deeds honour are honoured by all steps (`honouredAt_of_deeds`).
-/
import Automation.Proofs.Run.Coverage
import Automation.Proofs.Schedule.Place

namespace Automation.Run

open Automation.Schedule (Directive Occupant Pool Task)

variable {setup : Setup}

/-- The scope of a branch that another one waits for: the scope of that one or, where a loop
waits for a batch, the scope of an iteration. -/
def within (scope : Scope) : Strand → ℕ → Scope
  | .gather n course _, k => scope ++ [(n.id, ((course.next + k : ℕ) : Int))]
  | _, _ => scope

/-! ### What comes of a deed, and where -/

section Places

variable {ι : Type*} {inside : ι → Strand → ℕ → ι} {here : ι} {x : ι × Occupant Strand Report}
  {b : Branch}

/-- A batch: the loop waits in its place, and each iteration is in one of the places inside. -/
theorem exists_of_mem_placed_batch {n : Node} {course : Loop.Course} {count : ℕ}
    (h : x ∈ (Task.waiting (.gather n course b) (((List.range' course.next count).map
      (iteration setup n course.plan b.view)).map .live) : Task Strand Report).placed inside here) :
    x = (here, .waiting (.gather n course b)) ∨ ∃ k < count,
      x = (inside here (.gather n course b) k,
        .live (iteration setup n course.plan b.view (course.next + k))) := by
  rcases List.mem_cons.mp h with rfl | h
  · exact .inl rfl
  · obtain ⟨k, a, hk, rfl⟩ := Task.mem_placedAll_live h
    obtain ⟨hlt, rfl⟩ := List.getElem?_eq_some_iff.mp hk
    simp only [List.length_map, List.length_range'] at hlt
    exact .inr ⟨k, hlt, by simp⟩

/-- A fork: each branch is in one of the places inside. -/
theorem exists_of_mem_placed_fan {targets : List String}
    (h : x ∈ (Task.waiting (.merge b.report)
      ((targets.map fun target => Strand.visit target ⟨b.view, .empty⟩).map .live)
      : Task Strand Report).placed inside here) :
    x = (here, .waiting (.merge b.report)) ∨ ∃ k, ∃ target ∈ targets,
      x = (inside here (.merge b.report) k, .live (.visit target ⟨b.view, .empty⟩)) := by
  rcases List.mem_cons.mp h with rfl | h
  · exact .inl rfl
  · obtain ⟨k, a, hk, rfl⟩ := Task.mem_placedAll_live h
    obtain ⟨target, htarget, rfl⟩ := List.mem_map.mp (List.mem_of_getElem? hk)
    exact .inr ⟨_, target, htarget, rfl⟩

end Places

/-- A batch: the loop waits in its scope, and each iteration is in a scope of its own. -/
theorem mem_placed_batch {n : Node} {course : Loop.Course} {b : Branch} {count : ℕ} {scope : Scope}
    {x : Scope × Occupant Strand Report}
    (h : x ∈ (Task.waiting (.gather n course b) (((List.range' course.next count).map
      (iteration setup n course.plan b.view)).map .live) : Task Strand Report).placed within scope) :
    x = (scope, .waiting (.gather n course b)) ∨
      ∃ i ∈ List.range' course.next count,
        x = (scope ++ [(n.id, (i : Int))], .live (iteration setup n course.plan b.view i)) := by
  rcases exists_of_mem_placed_batch h with rfl | ⟨k, hk, rfl⟩
  · exact .inl rfl
  · exact .inr ⟨course.next + k, List.mem_range'_1.mpr (by omega), rfl⟩

/-- A fork: all branches are in one scope. -/
theorem mem_placed_fan {targets : List String} {b : Branch} {scope : Scope}
    {x : Scope × Occupant Strand Report}
    (h : x ∈ (Task.waiting (.merge b.report)
      ((targets.map fun target => Strand.visit target ⟨b.view, .empty⟩).map .live)
      : Task Strand Report).placed within scope) :
    x = (scope, .waiting (.merge b.report)) ∨
      ∃ target ∈ targets, x = (scope, .live (.visit target ⟨b.view, .empty⟩)) := by
  rcases exists_of_mem_placed_fan h with rfl | ⟨-, target, htarget, rfl⟩
  · exact .inl rfl
  · exact .inr ⟨target, htarget, rfl⟩

/-- A step of a branch is a deed, and what comes of the one comes of the other, in the same
places. -/
theorem exists_deed_placed (setup : Setup) (s : State) (a : Strand) (scope : Scope) :
    ∃ events task, Deed setup s.journal a events task ∧
      ((program setup).step s a).1.journal = s.journal.adding events ∧
      ((program setup).step s a).2.placed (program setup) within [] scope
        = task.placed within scope := by
  obtain ⟨events, hdeed, hj, hroots⟩ := exists_deed setup s a
  refine ⟨events, _, hdeed, hj, ?_⟩
  show ((step setup s a).2.task (program setup)).placed within scope
    ++ Task.placedAll within (step setup s a).2.roots _ 0 = _
  rw [hroots]
  simp

section OfDeeds

variable {J : Journal → Prop} {K : Journal → Scope → Occupant Strand Report → Prop}

/-- What all deeds keep, about the journal and about all that is in a scope beside it, is
kept by all steps. -/
theorem keptAt_of_deeds
    (hJ : ∀ {j scope a events task}, J j → K j scope (.live a) → Deed setup j a events task →
      J (j.adding events))
    (hbirths : ∀ {j scope a events task}, J j → K j scope (.live a) →
      Deed setup j a events task → ∀ x ∈ task.placed within scope, K (j.adding events) x.1 x.2)
    (hrejoin : ∀ {j scope a reports}, J j → K j scope (.waiting a) →
      (∀ (k : ℕ) r, reports[k]? = some r → K j (within scope a k) (.ended r)) →
      K j scope (.live (rejoin a reports)))
    (hcancel : ∀ {j}, J j → J (j.adding [.cancelled]))
    (hmono : ∀ {j scope x} events, K j scope x → K (j.adding events) scope x) :
    Pool.KeptAt (program setup) Disturbs within [] (fun s => J s.journal)
      (fun s => K s.journal) where
  shared {s scope a} h ha := by
    obtain ⟨events, task, hdeed, hj, -⟩ := exists_deed_placed setup s a scope
    rw [hj]
    exact hJ h ha hdeed
  births {s scope a} h ha x hx := by
    obtain ⟨events, task, hdeed, hj, hplaced⟩ := exists_deed_placed setup s a scope
    rw [hplaced] at hx
    rw [hj]
    exact hbirths h ha hdeed x hx
  others {s scope a r x} h ha hx := by
    obtain ⟨events, task, -, hj, -⟩ := exists_deed_placed setup s a scope
    rw [hj]
    exact hmono events hx
  rejoin h ha hreports := hrejoin h ha hreports
  outside {s s'} hout h := by
    rcases hout with hj | hj
    · rw [hj]
      exact ⟨h, fun _ _ hx => hx⟩
    · rw [hj]
      exact ⟨hcancel h, fun _ _ hx => hmono _ hx⟩

/-- Debts that all deeds honour are honoured by all steps. -/
theorem honouredAt_of_deeds {δ : Type*} (due settled : Journal → δ → Prop)
    (owes : Scope → Occupant Strand Report → δ → Prop)
    (hkeeps : ∀ {j i} events, settled j i → settled (j.adding events) i)
    (hhanded : ∀ {j scope a events task i}, J j → K j scope (.live a) →
      Deed setup j a events task → owes scope (.live a) i →
      settled (j.adding events) i ∨ ∃ x ∈ task.placed within scope, owes x.1 x.2 i)
    (hfresh : ∀ {j scope a events task i}, J j → K j scope (.live a) →
      Deed setup j a events task → due (j.adding events) i →
      due j i ∨ settled (j.adding events) i ∨ ∃ x ∈ task.placed within scope, owes x.1 x.2 i)
    (hrejoin : ∀ {j scope a reports i}, J j → K j scope (.waiting a) →
      (∀ (k : ℕ) r, reports[k]? = some r → K j (within scope a k) (.ended r)) →
      (owes scope (.waiting a) i ∨
        ∃ (k : ℕ) (r : Report), reports[k]? = some r ∧ owes (within scope a k) (.ended r) i) →
      settled j i ∨ owes scope (.live (rejoin a reports)) i)
    (hcancel : ∀ {j i}, due (j.adding [.cancelled]) i → due j i) :
    Pool.HonouredAt (program setup) Disturbs within [] (fun s => J s.journal)
      (fun s => K s.journal) (fun s => due s.journal) (fun s => settled s.journal) owes where
  keeps {s scope a i} _ _ hi := by
    obtain ⟨events, task, -, hj, -⟩ := exists_deed_placed setup s a scope
    rw [hj]
    exact hkeeps events hi
  handed {s scope a i} h ha hi := by
    obtain ⟨events, task, hdeed, hj, hplaced⟩ := exists_deed_placed setup s a scope
    rw [hj, hplaced]
    exact hhanded h ha hdeed hi
  fresh {s scope a i} h ha hi := by
    obtain ⟨events, task, hdeed, hj, hplaced⟩ := exists_deed_placed setup s a scope
    rw [hj] at hi ⊢
    rw [hplaced]
    exact hfresh h ha hdeed hi
  rejoin h ha hreports hi := hrejoin h ha hreports hi
  outside {s s' i} hout := by
    rcases hout with hj | hj
    · rw [hj]
      exact ⟨id, id⟩
    · rw [hj]
      exact ⟨hkeeps _, hcancel⟩

end OfDeeds

/-! ### Branches in their scopes -/

/-- What is in a scope is a branch on its grounds that sees what it sees there, or has
reported. -/
def Located (setup : Setup) (j : Journal) (scope : Scope) : Occupant Strand Report → Prop
  | .live a => Grounded setup j a ∧ ∀ view, a.view? = some view → view.scope = scope
  | .waiting a =>
    Waits a ∧ Grounded setup j a ∧ ∀ view, a.view? = some view → view.scope = scope
  | .ended _ => True

theorem Located.adding {j : Journal} {scope : Scope} {x : Occupant Strand Report}
    (h : Located setup j scope x) (events : List Event) :
    Located setup (j.adding events) scope x := by
  cases x with
  | live a => exact ⟨h.1.mono events, h.2⟩
  | waiting a => exact ⟨h.1, h.2.1.mono events, h.2.2⟩
  | ended report => trivial

/-- What comes of a deed is in its scope. -/
theorem Deed.located {j : Journal} {a : Strand} {events : List Event} {task : Task Strand Report}
    (h : Deed setup j a events task) {scope : Scope} (ha : Located setup j scope (.live a)) :
    ∀ x ∈ task.placed within scope, Located setup (j.adding events) x.1 x.2 := by
  obtain ⟨hgrounds, hscope⟩ := ha
  have hlater := h.grounded hgrounds
  intro x hx
  cases h with
  | turnBack | repeated | abort | stop | merge | close =>
    obtain rfl := List.mem_singleton.mp hx
    trivial
  | start _ _ hopening =>
    obtain rfl := List.mem_singleton.mp hx
    refine ⟨hlater _ (List.mem_singleton_self _), fun view hview => ?_⟩
    cases hopening <;> exact hscope view hview
  | @leave n outcome b _ =>
    obtain rfl := List.mem_singleton.mp hx
    refine ⟨hlater _ (List.mem_singleton_self _), ?_⟩
    rintro view ⟨⟩
    exact hscope b.view rfl
  | @batch n course b count _ _ _ =>
    rcases mem_placed_batch hx with rfl | ⟨i, hi, rfl⟩
    · exact ⟨trivial, hlater _ List.mem_cons_self, hscope⟩
    refine ⟨hlater _ (Task.mem_states_forked.mpr (.inr ⟨i, hi, rfl⟩)), ?_⟩
    rintro view ⟨⟩
    rw [← hscope b.view rfl]
    exact hgrounds.scope_enter b.view i
  | @fan targets b _ =>
    rcases mem_placed_fan hx with rfl | ⟨target, htarget, rfl⟩
    · exact ⟨trivial, trivial, fun view hview => by cases hview⟩
    · exact ⟨hlater _ (Task.mem_states_forked.mpr (.inr ⟨target, htarget, rfl⟩)), hscope⟩
  | _ =>
    obtain rfl := List.mem_singleton.mp hx
    exact ⟨hlater _ (List.mem_singleton_self _), hscope⟩

theorem Located.rejoin {j : Journal} {scope : Scope} {a : Strand}
    (h : Located setup j scope (.waiting a)) (reports : List Report) :
    Located setup j scope (.live (rejoin a reports)) := by
  obtain ⟨-, hgrounds, hscope⟩ := h
  refine ⟨hgrounds.rejoin reports, fun view hview => hscope view ?_⟩
  cases a <;> exact hview

/-- Runs keep what they have in its scope. -/
theorem located_kept : Pool.KeptAt (program setup) Disturbs within []
    (fun s => s.journal.Always (Fits setup)) (fun s => Located setup s.journal) :=
  keptAt_of_deeds (J := Journal.Always (Fits setup)) (K := Located setup)
    (fun hj ha h => h.fits hj ha.1) (fun _ ha h => h.located ha)
    (fun _ ha _ => ha.rejoin _) (fun hj => ⟨trivial, hj⟩)
    (fun events hx => hx.adding events)

end Automation.Run
