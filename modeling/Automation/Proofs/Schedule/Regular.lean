/-
Automation/Proofs/Schedule/Regular.lean

What a machine keeps in order.

Sleepers stand in the order in which they wake, and whatever is to be noticed is about a root
that is there (`Regular`).  Machines begin so and stay so.
-/
import Automation.Proofs.Schedule.Queue

namespace Automation.Schedule

variable {σ : Type*} {α : Type*} {ρ : Type*} {p : Program σ α ρ}

/-- What a notice is about. -/
def Notice.path : Notice → List ℕ
  | .resume path => path
  | .childEnded parent => parent

namespace Machine

/-! ### Sleepers in order -/

/-- Sleepers in the order in which they wake. -/
def InOrder (sleepers : List Sleeper) : Prop := sleepers.Pairwise fun s t => s.wakesAt ≤ t.wakesAt

theorem InOrder.insertSleeper {sleepers : List Sleeper} (h : InOrder sleepers) (s : Sleeper) :
    InOrder (insertSleeper s sleepers) := by
  induction sleepers with
  | nil => exact List.pairwise_singleton ..
  | cons t rest ih =>
    obtain ⟨ht, hrest⟩ := List.pairwise_cons.mp h
    unfold Machine.insertSleeper
    split
    · next hlt =>
      refine List.pairwise_cons.mpr ⟨fun u hu => ?_, h⟩
      rcases List.mem_cons.mp hu with rfl | hu
      · exact Nat.le_of_lt hlt
      · exact Nat.le_trans (Nat.le_of_lt hlt) (ht u hu)
    · next hge =>
      refine List.pairwise_cons.mpr ⟨fun u hu => ?_, ih hrest⟩
      rcases mem_insertSleeper.mp hu with rfl | hu
      · exact Nat.le_of_not_lt hge
      · exact ht u hu

/-! ### The steps of a machine -/

/-- What a step of a machine does: a task in front takes a step, a task goes back to work, or
nothing is done to any task. -/
inductive Acts (p : Program σ α ρ) (m m' : Machine σ α ρ) : Prop
  | resumes {path : List ℕ} {rest : List Notice} {a : α} : m.ready = .resume path :: rest →
    m.at? path = some (.live a) →
    m' = { m with ready := rest, toPool := m.advance p path a }.arrange path m.tasks.length
      (p.step m.shared a).2 → Acts p m m'
  | rejoins {parent : List ℕ} {a : α} {children : List (Task α ρ)} {results : List ρ} :
    m.at? parent = some (.waiting a children) → Task.results? children = some results →
    m'.toPool = m.replace parent (.live (p.rejoin a results)) → Acts p m m'
  | rests : m'.toPool = m.toPool → Acts p m m'

theorem acts_of_step? {m m' : Machine σ α ρ} (h : m.step? p = some m') : m.Acts p m' := by
  unfold Machine.step? at h
  rcases hready : m.ready with - | ⟨path | parent, rest⟩
  · rcases hs : m.sleepers with - | ⟨s, rest⟩
    · simp [hready, hs] at h
    · obtain rfl : _ = m' := by simpa [hready, hs] using h
      exact .rests rfl
  · obtain rfl : { m with ready := rest }.resume p path = m' := by simpa [hready] using h
    by_cases hlive : ∃ a, m.at? path = some (.live a)
    · obtain ⟨a, ha⟩ := hlive
      exact .resumes hready ha (resume_eq (m := { m with ready := rest }) ha)
    · rw [resume_of_not_live (m := { m with ready := rest }) hlive]
      exact .rests rfl
  · obtain rfl : { m with ready := rest }.childEnded p parent = m' := by
      simpa [hready] using h
    unfold childEnded
    split
    · next a children hat =>
      split
      · next results hresults =>
        split
        · exact .rests rfl
        · exact .rejoins hat hresults rfl
      · exact .rests rfl
    · exact .rests rfl

/-! ### Regular machines -/

/-- The path leads into one of the first `n` roots. -/
def LeadsInto (n : ℕ) (path : List ℕ) : Prop := ∃ i rest, path = i :: rest ∧ i < n

/-- Sleepers are in order, and everything that is to be noticed is about a root that is there. -/
structure Regular (m : Machine σ α ρ) : Prop where
  order : InOrder m.sleepers
  ready : ∀ n ∈ m.ready, LeadsInto m.tasks.length n.path
  asleep : ∀ s ∈ m.sleepers, LeadsInto m.tasks.length s.path

theorem LeadsInto.mono {m n : ℕ} {path : List ℕ} (h : LeadsInto m path) (hle : m ≤ n) :
    LeadsInto n path := by
  obtain ⟨i, rest, rfl, hi⟩ := h
  exact ⟨i, rest, rfl, Nat.lt_of_lt_of_le hi hle⟩

theorem regular_start (s : σ) (a : α) : (Machine.start s a : Machine σ α ρ).Regular where
  order := .nil
  ready n hn := by
    obtain rfl := List.mem_singleton.mp hn
    exact ⟨0, [], rfl, Nat.one_pos⟩
  asleep s hs := by cases hs

/-- What is to be noticed once a task has given a directive is about its root, or about the new
one, or was to be noticed before. -/
theorem leadsInto_of_mem_arrange {m : Machine σ α ρ} {path : List ℕ} {roots n : ℕ}
    {d : Directive α ρ} (hpath : LeadsInto n path) (hroots : d.roots ≠ [] → roots < n)
    (hready : ∀ x ∈ m.ready, LeadsInto n x.path) :
    ∀ x ∈ (m.arrange path roots d).ready, LeadsInto n x.path := by
  obtain ⟨i, rest, rfl, hi⟩ := hpath
  intro x hx
  have hfront : x = .resume (i :: rest) → LeadsInto n x.path := by
    rintro rfl
    exact ⟨i, rest, rfl, hi⟩
  cases d with
  | proceed next => exact (List.mem_cons.mp hx).elim hfront (hready x)
  | pause next =>
    rcases List.mem_append.mp hx with hx | hx
    · exact hready x hx
    · exact hfront (List.mem_singleton.mp hx)
  | sleep microseconds next => exact hready x hx
  | spawn child next =>
    rcases List.mem_cons.mp hx with hx | hx
    · exact hfront hx
    rcases List.mem_append.mp hx with hx | hx
    · exact hready x hx
    · obtain rfl := List.mem_singleton.mp hx
      exact ⟨roots, [], rfl, hroots (by simp [Directive.roots])⟩
  | fork children waiting =>
    cases children with
    | nil => exact (List.mem_cons.mp hx).elim hfront (hready x)
    | cons child children =>
      rcases List.mem_append.mp hx with hx | hx
      · exact hready x hx
      · obtain ⟨r, hr, rfl⟩ := List.mem_map.mp hx
        obtain ⟨j, -, rfl⟩ := List.mem_map.mp hr
        exact ⟨i, rest ++ [j], rfl, hi⟩
  | finish report =>
    rcases List.mem_append.mp hx with hx | hx
    · exact hready x hx
    · unfold parentNotice at hx
      split at hx
      · cases hx
      · next hlong =>
        obtain rfl := List.mem_singleton.mp hx
        cases rest with
        | nil => simp at hlong
        | cons j rest => exact ⟨i, (j :: rest).dropLast, rfl, hi⟩

theorem leadsInto_of_at? {m : Machine σ α ρ} {path : List ℕ} {t : Task α ρ}
    (h : m.at? path = some t) : LeadsInto m.tasks.length path := by
  obtain ⟨i, rest, root, rfl, hi, -⟩ := Pool.at?_eq_some h
  exact ⟨i, rest, rfl, (List.getElem?_eq_some_iff.mp hi).1⟩

theorem length_tasks_replace (c : Pool σ α ρ) (path : List ℕ) (new : Task α ρ) :
    (c.replace path new).tasks.length = c.tasks.length := by
  cases path with
  | nil => rfl
  | cons i path => exact List.length_modify ..

theorem length_tasks_advance (c : Pool σ α ρ) (path : List ℕ) (a : α) :
    (c.advance p path a).tasks.length
      = c.tasks.length + (p.step c.shared a).2.roots.length := by
  show (Pool.tasks (Pool.replace _ path _) ++ _).length = _
  rw [List.length_append, length_tasks_replace]

theorem sleepers_arrange_order {m : Machine σ α ρ} (h : InOrder m.sleepers) (path : List ℕ)
    (roots : ℕ) (d : Directive α ρ) : InOrder (m.arrange path roots d).sleepers := by
  cases d with
  | sleep microseconds next => exact h.insertSleeper _
  | fork children waiting => cases children <;> exact h
  | _ => exact h

theorem mem_sleepers_of_mem_arrange {m : Machine σ α ρ} {path : List ℕ} {roots : ℕ}
    {d : Directive α ρ} {s : Sleeper} (h : s ∈ (m.arrange path roots d).sleepers) :
    s.path = path ∨ s ∈ m.sleepers := by
  cases d with
  | sleep microseconds next =>
    rcases mem_insertSleeper.mp h with rfl | h
    · exact .inl rfl
    · exact .inr h
  | fork children waiting => cases children <;> exact .inr h
  | _ => exact .inr h

/-- A machine stays regular. -/
theorem Regular.step? {m m' : Machine σ α ρ} (hm : m.Regular) (h : m.step? p = some m') :
    m'.Regular := by
  unfold Machine.step? at h
  rcases hready : m.ready with - | ⟨path | parent, rest⟩
  · rcases hs : m.sleepers with - | ⟨s, rest⟩
    · simp [hready, hs] at h
    · obtain rfl : _ = m' := by simpa [hready, hs] using h
      have horder := hm.order
      have hasleep := hm.asleep
      rw [hs] at horder hasleep
      refine ⟨(List.pairwise_cons.mp horder).2, fun n hn => ?_, fun t ht =>
        hasleep t (List.mem_cons_of_mem _ ht)⟩
      obtain rfl := List.mem_singleton.mp hn
      exact hasleep s List.mem_cons_self
  · have hrest : ∀ n ∈ rest, LeadsInto m.tasks.length n.path := fun n hn =>
      hm.ready n (hready ▸ List.mem_cons_of_mem _ hn)
    obtain rfl : { m with ready := rest }.resume p path = m' := by simpa [hready] using h
    by_cases hlive : ∃ a, m.at? path = some (.live a)
    · obtain ⟨a, ha⟩ := hlive
      rw [resume_eq (m := { m with ready := rest }) ha]
      have hpath := leadsInto_of_at? ha
      have hlength := length_tasks_advance (p := p) m.toPool path a
      have hle : m.tasks.length ≤ (m.advance p path a).tasks.length := by omega
      refine ⟨sleepers_arrange_order (by exact hm.order) .., ?_, fun s hs => ?_⟩
      · rw [toPool_arrange]
        refine leadsInto_of_mem_arrange (hpath.mono hle) (fun hne => ?_) fun n hn =>
          (hrest n hn).mono hle
        have hpos : 0 < (p.step m.shared a).2.roots.length := List.length_pos_of_ne_nil hne
        show m.tasks.length < (m.advance p path a).tasks.length
        omega
      · rw [toPool_arrange]
        rcases mem_sleepers_of_mem_arrange hs with heq | hs
        · rw [heq]
          exact hpath.mono hle
        · exact (hm.asleep s hs).mono hle
    · rw [resume_of_not_live (m := { m with ready := rest }) hlive]
      exact ⟨hm.order, hrest, hm.asleep⟩
  · have hrest : ∀ n ∈ rest, LeadsInto m.tasks.length n.path := fun n hn =>
      hm.ready n (hready ▸ List.mem_cons_of_mem _ hn)
    obtain rfl : { m with ready := rest }.childEnded p parent = m' := by
      simpa [hready] using h
    have hidle : ({ m with ready := rest } : Machine σ α ρ).Regular := ⟨hm.order, hrest, hm.asleep⟩
    unfold childEnded
    split
    · next a children hat =>
      split
      · next results hresults =>
        split
        · exact hidle
        · have hlength := length_tasks_replace m.toPool parent (.live (p.rejoin a results))
          refine ⟨hm.order, fun n hn => ?_, fun s hs => ?_⟩
          · rw [append, hlength]
            rcases List.mem_append.mp hn with hn | hn
            · exact hrest n hn
            · obtain rfl := List.mem_singleton.mp hn
              exact leadsInto_of_at? hat
          · rw [append, hlength]
            exact hm.asleep s hs
      · exact hidle
    · exact hidle

end Machine

end Automation.Schedule
