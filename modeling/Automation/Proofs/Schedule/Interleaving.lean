/-
Automation/Proofs/Schedule/Interleaving.lean

Tasks at work in any order.

A *move* of a pool is a step of a live task, or the return to work of a task
whose children all have ended.  Which of the possible moves comes next is left
open, so what holds after any sequence of moves holds for every order of work.
Between two moves the shared state may change from outside, as far as a relation
`outside` allows; a run is a sequence of moves and such changes (`Reaches`).

What every run keeps is proved from what one step of one task keeps
(`Kept.reaches`): a fact about the shared state, and a fact about each state of a
task beside it.  No run is ever stuck before all its tasks have ended
(`exists_move`).
-/
import Mathlib.Logic.Relation
import Automation.Proofs.Schedule.Tree

namespace Automation.Schedule

variable {σ : Type*} {α : Type*} {ρ : Type*}
variable {p : Program σ α ρ} {outside : σ → σ → Prop}

namespace Directive

/-- The states that come of a directive: those in the place of the task that gave
it, then those of new roots. -/
def births (p : Program σ α ρ) (d : Directive α ρ) : List α :=
  (d.task p).states ++ Task.statesAll d.roots

/-- In the place of a task that gave a directive there is the task that comes of it,
and if that waits, its live children. -/
theorem at?_task {d : Directive α ρ} {path : List Nat} {t : Task α ρ}
    (h : (d.task p).at? path = some t) :
    path = [] ∧ t = d.task p ∨
      ∃ children waiting i b, d = .fork children waiting ∧ path = [i] ∧ i < children.length ∧
        t = .live b := by
  cases path with
  | nil => exact .inl ⟨rfl, (Option.some.inj h).symm⟩
  | cons i path =>
    cases d with
    | fork children w =>
      cases children with
      | nil => simp [task, Task.at?] at h
      | cons child children =>
        obtain ⟨found, hi, hfound⟩ := Option.bind_eq_some_iff.mp h
        obtain ⟨b, -, rfl⟩ := List.mem_map.mp (List.mem_of_getElem? hi)
        have hlt := (List.getElem?_eq_some_iff.mp hi).1
        cases path with
        | nil =>
          exact .inr ⟨_, w, i, b, rfl, rfl, by simpa using hlt, (Option.some.inj hfound).symm⟩
        | cons j path => simp [Task.at?] at hfound
    | _ => simp [task, Task.at?] at h

/-- A task that comes of a directive waits in its place, for children none of which has
ended. -/
theorem children_of_task {d : Directive α ρ} {path : List Nat} {a : α}
    {children : List (Task α ρ)} (h : (d.task p).at? path = some (.waiting a children)) :
    children ≠ [] ∧ Task.results? children = none ∧ d.task p = .waiting a children := by
  rcases at?_task h with ⟨-, ht⟩ | ⟨_, _, _, _, -, -, -, ht⟩
  · refine ⟨?_, ?_, ht.symm⟩ <;> cases d with
    | fork cs w =>
      cases cs with
      | nil => simp [task] at ht
      | cons child cs =>
        obtain ⟨-, rfl⟩ := Task.waiting.inj ht
        simp [Task.results?, Task.result?]
    | _ => simp [task] at ht
  · cases ht

end Directive

namespace Pool

/-! ### Moves -/

/-- One thing that can happen next in a pool. -/
inductive Move (p : Program σ α ρ) : Pool σ α ρ → Pool σ α ρ → Prop
  /-- A live task takes a step. -/
  | advance {c path a} : c.at? path = some (.live a) → Move p c (c.advance p path a)
  /-- A task whose children all have ended goes on with their results. -/
  | rejoin {c path a children results} : c.at? path = some (.waiting a children) →
      Task.results? children = some results →
      Move p c (c.replace path (.live (p.rejoin a results)))

/-- A move, or a change of the shared state from outside. -/
inductive Step (p : Program σ α ρ) (outside : σ → σ → Prop) : Pool σ α ρ → Pool σ α ρ → Prop
  | move {c d} : Move p c d → Step p outside c d
  | outside {c s} : outside c.shared s → Step p outside c { c with shared := s }

/-- A run from one pool to another, in any order of work. -/
abbrev Reaches (p : Program σ α ρ) (outside : σ → σ → Prop) :
    Pool σ α ρ → Pool σ α ρ → Prop :=
  Relation.ReflTransGen (Step p outside)

/-- All tasks of a pool have ended. -/
def IsOver (c : Pool σ α ρ) : Prop := ∃ rs, Task.results? c.tasks = some rs

theorem IsOver.states_eq_nil {c : Pool σ α ρ} (h : c.IsOver) : c.states = [] := by
  obtain ⟨rs, hrs⟩ := h
  exact Task.statesAll_eq_nil hrs

/-- Work never gets stuck: all tasks have ended, or there is a move. -/
theorem exists_move (p : Program σ α ρ) (c : Pool σ α ρ) : c.IsOver ∨ ∃ d, Move p c d := by
  rcases Task.exists_ready_all c.tasks with hover | ⟨i, t, hi, path, hready⟩
  · exact .inl hover
  · have hat : c.at? (i :: path) = t.at? path := by simp [at?, hi]
    rcases hready with ⟨a, ha⟩ | ⟨a, children, rs, ha, hrs⟩
    · exact .inr ⟨_, .advance (hat.trans ha)⟩
    · exact .inr ⟨_, .rejoin (hat.trans ha) hrs⟩

/-! ### What a move does to the states -/

theorem advance_shared (c : Pool σ α ρ) (path : List Nat) (a : α) :
    (c.advance p path a).shared = (p.step c.shared a).1 := by
  cases path <;> rfl

theorem replace_shared (c : Pool σ α ρ) (path : List Nat) (new : Task α ρ) :
    (c.replace path new).shared = c.shared := by
  cases path <;> rfl

/-- What is found after a step of a live task: something in its place or around it,
or the root that it has started. -/
theorem at?_advance {c : Pool σ α ρ} {path q : List Nat} {a : α} {v : Task α ρ}
    (h : c.at? path = some (.live a)) (hq : (c.advance p path a).at? q = some v) :
    Task.FoundAfter path ((p.step c.shared a).2.task p) q (c.at? q) v ∨
      ∃ child next, (p.step c.shared a).2 = .spawn child next ∧ q = [c.tasks.length] ∧
        v = .live child := by
  obtain ⟨i, rest, root, rfl, hi, hroot⟩ := at?_eq_some h
  cases q with
  | nil => simp [at?] at hq
  | cons k q =>
    have hq' : ((c.tasks.modify i (·.replace rest ((p.step c.shared a).2.task p))
        ++ (p.step c.shared a).2.roots)[k]?).bind (·.at? q) = some v := hq
    rcases Nat.lt_or_ge k c.tasks.length with hk | hk
    · rw [List.getElem?_append_left (by simpa using hk)] at hq'
      exact .inl (Task.foundAfter_cons hi (fun q v => Task.at?_replace hroot) hq')
    · rw [List.getElem?_append_right (by simpa using hk)] at hq'
      obtain ⟨found, hfound, hv⟩ := Option.bind_eq_some_iff.mp hq'
      rcases hd : (p.step c.shared a).2 with next | next | ⟨m, next⟩ | ⟨cs, w⟩ | ⟨child, next⟩ | r
        <;> simp only [hd, Directive.roots, List.getElem?_nil, reduceCtorEq] at hfound
      obtain ⟨hlen, rfl⟩ : k = c.tasks.length ∧ Task.live child = found := by
        rw [List.getElem?_singleton] at hfound
        split at hfound
        · next hz => exact ⟨by simp at hz; omega, Option.some.inj hfound⟩
        · cases hfound
      cases q with
      | nil => exact .inr ⟨child, next, rfl, by rw [hlen], (Option.some.inj hv).symm⟩
      | cons j q => simp [Task.at?] at hv

/-- The states after a step of a live task: its own gives way to those that come of
its directive. -/
theorem states_advance {c : Pool σ α ρ} {path : List Nat} {a : α}
    (h : c.at? path = some (.live a)) :
    ∃ before after, c.states = before ++ a :: after ∧
      (c.advance p path a).states
        = before ++ ((p.step c.shared a).2.task p).states ++ after
          ++ Task.statesAll (p.step c.shared a).2.roots := by
  obtain ⟨before, after, hs, hnew⟩ := exists_split h
  refine ⟨before, after, by simpa using hs, ?_⟩
  rw [← hnew ((p.step c.shared a).2.task p)]
  cases path with
  | nil => simp [at?] at h
  | cons i path => exact Task.statesAll_append _ _

/-- The states after a task has returned to work. -/
theorem states_rejoin {c : Pool σ α ρ} {path : List Nat} {a : α} {children : List (Task α ρ)}
    {results : List ρ} (h : c.at? path = some (.waiting a children))
    (hr : Task.results? children = some results) :
    ∃ before after, c.states = before ++ a :: after ∧
      (c.replace path (.live (p.rejoin a results))).states
        = before ++ p.rejoin a results :: after := by
  obtain ⟨before, after, hs, hnew⟩ := exists_split h
  refine ⟨before, after, ?_, by simpa using hnew (.live (p.rejoin a results))⟩
  simpa [Task.statesAll_eq_nil hr] using hs

theorem mem_states_of_live {c : Pool σ α ρ} {path : List Nat} {a : α}
    (h : c.at? path = some (.live a)) : a ∈ c.states := by
  obtain ⟨before, after, hs, -⟩ := exists_split h
  rw [hs]
  simp

theorem mem_states_of_waiting {c : Pool σ α ρ} {path : List Nat} {a : α}
    {children : List (Task α ρ)} (h : c.at? path = some (.waiting a children)) :
    a ∈ c.states := by
  obtain ⟨before, after, hs, -⟩ := exists_split h
  rw [hs]
  simp

/-- What comes of a step is there after it. -/
theorem births_subset {c : Pool σ α ρ} {path : List Nat} {a : α}
    (h : c.at? path = some (.live a)) {b : α} (hb : b ∈ (p.step c.shared a).2.births p) :
    b ∈ (c.advance p path a).states := by
  obtain ⟨before, after, -, hnew⟩ := states_advance (p := p) h
  rw [hnew]
  simp only [Directive.births, List.mem_append] at hb ⊢
  tauto

/-- What is there after a step came of it or was there before. -/
theorem mem_of_mem_advance {c : Pool σ α ρ} {path : List Nat} {a : α}
    (h : c.at? path = some (.live a)) {b : α} (hb : b ∈ (c.advance p path a).states) :
    b ∈ (p.step c.shared a).2.births p ∨ b ∈ c.states := by
  obtain ⟨before, after, hs, hnew⟩ := states_advance (p := p) h
  rw [hnew] at hb
  rw [hs]
  simp only [Directive.births, List.mem_append, List.mem_cons] at hb ⊢
  tauto

/-- What is there before a step took it or is there afterwards. -/
theorem mem_advance_of_mem {c : Pool σ α ρ} {path : List Nat} {a : α}
    (h : c.at? path = some (.live a)) {b : α} (hb : b ∈ c.states) :
    b = a ∨ b ∈ (c.advance p path a).states := by
  obtain ⟨before, after, hs, hnew⟩ := states_advance (p := p) h
  rw [hs] at hb
  rw [hnew]
  simp only [List.mem_append, List.mem_cons] at hb ⊢
  tauto

/-- What is there after a return to work has returned or was there before. -/
theorem mem_rejoin {c : Pool σ α ρ} {path : List Nat} {a : α} {children : List (Task α ρ)}
    {results : List ρ} (h : c.at? path = some (.waiting a children))
    (hr : Task.results? children = some results) {b : α} :
    (b ∈ (c.replace path (.live (p.rejoin a results))).states →
        b = p.rejoin a results ∨ b ∈ c.states) ∧
      (b ∈ c.states → b = a ∨ b ∈ (c.replace path (.live (p.rejoin a results))).states) ∧
      p.rejoin a results ∈ (c.replace path (.live (p.rejoin a results))).states := by
  obtain ⟨before, after, hs, hnew⟩ := states_rejoin (p := p) h hr
  rw [hs, hnew]
  simp only [List.mem_append, List.mem_cons]
  tauto

/-! ### What runs keep -/

/-- Every task that waits is in a state to wait in, and has somebody to wait for. -/
def Forked (waits : α → Prop) (c : Pool σ α ρ) : Prop :=
  ∀ path a children, c.at? path = some (.waiting a children) → waits a ∧ children ≠ []

variable {waits : α → Prop}

theorem forked_start (s : σ) (a : α) : (Pool.start s a : Pool σ α ρ).Forked waits := by
  intro path b children h
  obtain ⟨i, rest, root, rfl, hi, hroot⟩ := at?_eq_some h
  obtain rfl : Task.live a = root := by
    have hmem := List.mem_of_getElem? hi
    simpa [start, eq_comm] using hmem
  cases rest <;> simp [Task.at?] at hroot

/-- Exchanging a task for one in which nobody waits in vain. -/
theorem forked_of_foundAfter {c : Pool σ α ρ} (hc : c.Forked waits) {path q : List Nat}
    {new : Task α ρ}
    (hnew : ∀ r a children, new.at? r = some (.waiting a children) → waits a ∧ children ≠ [])
    {a : α} {children : List (Task α ρ)}
    (hq : Task.FoundAfter path new q (c.at? q) (.waiting a children)) :
    waits a ∧ children ≠ [] := by
  rcases hq with ⟨r, rfl, hr⟩ | ⟨i, r, b, below, rfl, hb, hv⟩ | ⟨-, hold⟩
  · exact hnew r a children hr
  · -- a task around the exchanged one has as many children as before
    obtain ⟨rfl, rfl⟩ := Task.waiting.inj hv
    obtain ⟨hwaits, hne⟩ := hc q _ below hb
    refine ⟨hwaits, fun hnil => hne (List.eq_nil_of_length_eq_zero ?_)⟩
    simpa using congrArg List.length hnil
  · exact hc q a children hold

theorem Forked.move
    (hforks : ∀ s a b children, (p.step s a).2.task p = .waiting b children → waits b)
    {c d : Pool σ α ρ} (hc : c.Forked waits) (h : Move p c d) : d.Forked waits := by
  cases h with
  | advance hlive =>
    intro q a children hq
    rcases at?_advance hlive hq with hq | ⟨child, next, -, -, hv⟩
    · refine forked_of_foundAfter hc (fun r a children hr => ?_) hq
      obtain ⟨hne, -, htask⟩ := Directive.children_of_task hr
      exact ⟨hforks _ _ _ _ htask, hne⟩
    · cases hv
  | rejoin hwait hr =>
    intro q a children hq
    refine forked_of_foundAfter hc (fun r a children hr => ?_) (at?_replace hwait hq)
    cases r <;> simp [Task.at?] at hr

theorem Forked.step
    (hforks : ∀ s a b children, (p.step s a).2.task p = .waiting b children → waits b)
    {c d : Pool σ α ρ} (hc : c.Forked waits) (h : Step p outside c d) : d.Forked waits := by
  cases h with
  | move hmove => exact hc.move hforks hmove
  | outside _ =>
    intro path a children hwait
    refine hc path a children ?_
    cases path <;> exact hwait

/-- A fact about the shared state, and one about each state of a task beside it,
that every step keeps. -/
structure Kept (p : Program σ α ρ) (outside : σ → σ → Prop) (J : σ → Prop)
    (K : σ → α → Prop) : Prop where
  shared : ∀ {s a}, J s → K s a → J (p.step s a).1
  births : ∀ {s a}, J s → K s a → ∀ b ∈ (p.step s a).2.births p, K (p.step s a).1 b
  others : ∀ {s a b}, J s → K s a → K s b → K (p.step s a).1 b
  rejoin : ∀ {s a} results, J s → K s a → K s (p.rejoin a results)
  outside : ∀ {s s'}, outside s s' → J s → J s' ∧ ∀ a, K s a → K s' a

/-- The fact about a pool: that about the shared state, and that about each state. -/
def Holds (J : σ → Prop) (K : σ → α → Prop) (c : Pool σ α ρ) : Prop :=
  J c.shared ∧ ∀ a ∈ c.states, K c.shared a

theorem Kept.move {J : σ → Prop} {K : σ → α → Prop} (hk : Kept p outside J K)
    {c d : Pool σ α ρ} (hc : Holds J K c) (h : Move p c d) : Holds J K d := by
  obtain ⟨hJ, hK⟩ := hc
  cases h with
  | @advance path a hlive =>
    have ha := hK a (mem_states_of_live hlive)
    refine ⟨by rw [advance_shared]; exact hk.shared hJ ha, fun b hb => ?_⟩
    rw [advance_shared]
    rcases mem_of_mem_advance hlive hb with hbirth | hold
    · exact hk.births hJ ha b hbirth
    · exact hk.others hJ ha (hK b hold)
  | @rejoin path a children results hwait hr =>
    refine ⟨by rw [replace_shared]; exact hJ, fun b hb => ?_⟩
    rw [replace_shared]
    rcases (mem_rejoin hwait hr).1 hb with rfl | hold
    · exact hk.rejoin results hJ (hK a (mem_states_of_waiting hwait))
    · exact hK b hold

theorem Kept.step {J : σ → Prop} {K : σ → α → Prop} (hk : Kept p outside J K)
    {c d : Pool σ α ρ} (hc : Holds J K c) (h : Step p outside c d) : Holds J K d := by
  cases h with
  | move hmove => exact hk.move hc hmove
  | outside hout =>
    obtain ⟨hJ, hK⟩ := hk.outside hout hc.1
    exact ⟨hJ, fun a ha => hK a (hc.2 a ha)⟩

/-- What each step keeps, a run keeps. -/
theorem Kept.reaches {J : σ → Prop} {K : σ → α → Prop} (hk : Kept p outside J K)
    {c d : Pool σ α ρ} (hc : Holds J K c) (h : Reaches p outside c d) : Holds J K d := by
  induction h with
  | refl => exact hc
  | tail _ hstep ih => exact hk.step ih hstep

theorem holds_start {J : σ → Prop} {K : σ → α → Prop} {s : σ} {a : α} (hJ : J s) (hK : K s a) :
    Holds J K (Pool.start s a : Pool σ α ρ) :=
  ⟨hJ, fun b hb => by
    obtain rfl : b = a := by simpa [start, states] using hb
    exact hK⟩

end Pool

end Automation.Schedule
