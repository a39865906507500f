/-
Automation/Proofs/Schedule/Trail.lean

Tasks that keep a trail.

What a task has come through is not in its state.  To speak of it each state is
paired with a trail that no step reads: a task adds to it by what it is about
(`mark`), and the tasks that come of a step take its trail over (`tracked`).
Leaving the trails out of such a run gives a run, and each run is given by one
(`reaches_iff_tracked`), so what is true of a task and its trail in all tracked runs
is true in all runs.
-/
import Automation.Proofs.Schedule.Interleaving

namespace Automation.Schedule

variable {σ : Type*} {α : Type*} {β : Type*} {γ : Type*} {ρ : Type*}

/-! ### Tasks with other states -/

/-- Changing an element before or after the elements are mapped. -/
theorem modify_map {f : α → β} {g : β → β} {h : α → α} (hcomm : ∀ a, g (f a) = f (h a))
    (as : List α) (i : ℕ) : (as.map f).modify i g = (as.modify i h).map f := by
  apply List.ext_getElem?
  intro k
  rw [List.getElem?_modify, List.getElem?_map, List.getElem?_map, List.getElem?_modify]
  cases as[k]? with
  | none => simp
  | some a => by_cases hik : i = k <;> simp [hik, hcomm]

namespace Task

mutual

/-- A task with other states. -/
def map (f : α → β) : Task α ρ → Task β ρ
  | .live a => .live (f a)
  | .waiting a children => .waiting (f a) (mapAll f children)
  | .ended r => .ended r

/-- Several tasks with other states. -/
def mapAll (f : α → β) : List (Task α ρ) → List (Task β ρ)
  | [] => []
  | t :: ts => t.map f :: mapAll f ts

end

@[simp] theorem mapAll_eq_map (f : α → β) (ts : List (Task α ρ)) :
    mapAll f ts = ts.map fun t => t.map f := by
  induction ts with
  | nil => rfl
  | cons t ts ih => rw [mapAll, ih, List.map_cons]

@[simp] theorem map_live (f : α → β) (a : α) : (Task.live a : Task α ρ).map f = .live (f a) := by
  rw [map]

@[simp] theorem map_waiting (f : α → β) (a : α) (children : List (Task α ρ)) :
    (Task.waiting a children).map f = .waiting (f a) (children.map fun t => t.map f) := by
  rw [map, mapAll_eq_map]

@[simp] theorem map_ended (f : α → β) (r : ρ) : (Task.ended r : Task α ρ).map f = .ended r := by
  rw [map]

@[simp] theorem result?_map (f : α → β) (t : Task α ρ) : (t.map f).result? = t.result? := by
  cases t <;> simp [result?]

@[simp] theorem results?_map (f : α → β) (ts : List (Task α ρ)) :
    results? (ts.map fun t => t.map f) = results? ts := by
  induction ts with
  | nil => rfl
  | cons t ts ih => simp [results?, ih]

theorem at?_map (f : α → β) (t : Task α ρ) (path : List Nat) :
    (t.map f).at? path = (t.at? path).map fun u => u.map f := by
  induction path generalizing t with
  | nil => simp [at?]
  | cons i path ih =>
    cases t with
    | live a => simp [at?]
    | ended r => simp [at?]
    | waiting a children =>
      rw [map_waiting, at?, at?, List.getElem?_map]
      cases children[i]? with
      | none => rfl
      | some child => exact ih child

theorem replace_map (f : α → β) (t new : Task α ρ) (path : List Nat) :
    (t.map f).replace path (new.map f) = (t.replace path new).map f := by
  induction path generalizing t with
  | nil => simp [replace]
  | cons i path ih =>
    cases t with
    | live a => simp [replace]
    | ended r => simp [replace]
    | waiting a children =>
      rw [map_waiting, replace, replace, map_waiting, modify_map ih]

mutual

/-- Mapping back and forth. -/
theorem map_map_cancel {f : α → β} {g : β → α} (hcancel : ∀ a, g (f a) = a) :
    (t : Task α ρ) → (t.map f).map g = t
  | .live a => by simp [hcancel]
  | .ended r => by simp
  | .waiting a children => by
    rw [map_waiting, map_waiting, hcancel, mapAll_cancel hcancel children]

theorem mapAll_cancel {f : α → β} {g : β → α} (hcancel : ∀ a, g (f a) = a) :
    (ts : List (Task α ρ)) → (ts.map fun t => t.map f).map (fun t => t.map g) = ts
  | [] => rfl
  | t :: ts => by
    rw [List.map_cons, List.map_cons, map_map_cancel hcancel t, mapAll_cancel hcancel ts]

end

mutual

/-- The states of a task with other states. -/
theorem states_map (f : α → β) : (t : Task α ρ) → (t.map f).states = t.states.map f
  | .live a => by simp
  | .ended r => by simp
  | .waiting a children => by
    rw [map_waiting, states_waiting, states_waiting, statesAll_map f children, List.map_cons]

theorem statesAll_map (f : α → β) :
    (ts : List (Task α ρ)) → statesAll (ts.map fun t => t.map f) = (statesAll ts).map f
  | [] => rfl
  | t :: ts => by
    rw [List.map_cons, statesAll_cons, statesAll_cons, states_map f t, statesAll_map f ts,
      List.map_append]

end

end Task

namespace Directive

/-- A directive with other states. -/
def map (f : α → β) : Directive α ρ → Directive β ρ
  | .proceed next => .proceed (f next)
  | .pause next => .pause (f next)
  | .sleep microseconds next => .sleep microseconds (f next)
  | .fork children waiting => .fork (children.map f) (f waiting)
  | .spawn child next => .spawn (f child) (f next)
  | .finish result => .finish result

end Directive

namespace Pool

/-- A pool with other states. -/
def map (f : α → β) (c : Pool σ α ρ) : Pool σ β ρ := ⟨c.shared, c.tasks.map fun t => t.map f⟩

theorem at?_map (f : α → β) (c : Pool σ α ρ) (path : List Nat) :
    (c.map f).at? path = (c.at? path).map fun t => t.map f := by
  cases path with
  | nil => rfl
  | cons i path =>
    rw [at?, at?, map, List.getElem?_map]
    cases c.tasks[i]? with
    | none => rfl
    | some t => exact Task.at?_map f t path

theorem replace_map (f : α → β) (c : Pool σ α ρ) (path : List Nat) (new : Task α ρ) :
    (c.map f).replace path (new.map f) = (c.replace path new).map f := by
  cases path with
  | nil => rfl
  | cons i path =>
    have htasks := modify_map (f := fun t : Task α ρ => t.map f)
      (g := fun t => t.replace path (new.map f)) (h := fun t => t.replace path new)
      (fun t => Task.replace_map f t new path) c.tasks i
    exact congrArg (Pool.mk c.shared) htasks

theorem carryOut_map {q : Program σ β ρ} {p : Program σ α ρ} (f : α → β) (c : Pool σ α ρ)
    (path : List Nat) {d : Directive α ρ} (hd : (d.map f).task q = (d.task p).map f) :
    (c.map f).carryOut q path (d.map f) = (c.carryOut p path d).map f := by
  have hroots : (d.map f).roots = d.roots.map fun t => t.map f := by
    cases d <;> simp [Directive.map, Directive.roots]
  unfold carryOut
  rw [hd, hroots, replace_map]
  simp [map]

end Pool

/-! ### Trails -/

variable {p : Program σ α ρ} {mark : α → γ → γ} {outside : σ → σ → Prop}

/-- A program with trails: whatever comes of a task has its trail, with what the task
itself has added. -/
def Program.tracked (p : Program σ α ρ) (mark : α → γ → γ) : Program σ (α × γ) ρ where
  step s a := ((p.step s a.1).1, (p.step s a.1).2.map fun b => (b, mark a.1 a.2))
  rejoin a results := (p.rejoin a.1 results, a.2)

namespace Pool

/-- A pool without the trails. -/
def untracked (t : Pool σ (α × γ) ρ) : Pool σ α ρ := t.map Prod.fst

theorem task_tracked (d : Directive α ρ) (g : γ) :
    ((d.map fun b => (b, g)).task (p.tracked mark)) = (d.task p).map fun b => (b, g) := by
  cases d with
  | fork children waiting =>
    cases children with
    | nil => simp [Directive.map, Directive.task, Program.tracked]
    | cons child children => simp [Directive.map, Directive.task, Function.comp_def]
  | _ => simp [Directive.map, Directive.task]

/-- What comes of a tracked step is what comes of the step, with the new trail. -/
theorem births_tracked (s : σ) (a : α) (g : γ) :
    ((p.tracked mark).step s (a, g)).2.births (p.tracked mark)
      = ((p.step s a).2.births p).map fun b => (b, mark a g) := by
  have hroots : ∀ d : Directive α ρ, Task.statesAll (d.map fun b => (b, mark a g)).roots
      = (Task.statesAll d.roots).map fun b => (b, mark a g) := by
    intro d
    cases d <;> simp [Directive.map, Directive.roots]
  show (((p.step s a).2.map fun b => (b, mark a g)).task (p.tracked mark)).states
    ++ Task.statesAll ((p.step s a).2.map fun b => (b, mark a g)).roots = _
  rw [task_tracked, hroots, Task.states_map, ← List.map_append]
  rfl

theorem untracked_advance (t : Pool σ (α × γ) ρ) (path : List ℕ) (a : α) (g : γ) :
    (t.advance (p.tracked mark) path (a, g)).untracked = t.untracked.advance p path a := by
  -- the new trails are put on and taken off again
  have hback : ∀ d : Directive α ρ, (d.map fun b => (b, mark a g)).map Prod.fst = d := by
    intro d
    cases d <;> simp [Directive.map, Function.comp_def]
  have hcarry := carryOut_map (q := p) (p := p.tracked mark) Prod.fst
    { t with shared := (p.step t.shared a).1 } path
    (d := (p.step t.shared a).2.map fun b => (b, mark a g)) (by
      rw [hback, task_tracked, Task.map_map_cancel fun _ => rfl])
  rw [hback] at hcarry
  exact hcarry.symm

theorem untracked_move {t u : Pool σ (α × γ) ρ} (h : Move (p.tracked mark) t u) :
    Move p t.untracked u.untracked := by
  cases h with
  | @advance path a hlive =>
    rw [untracked_advance]
    refine .advance ?_
    rw [untracked, at?_map, hlive]
    simp
  | @rejoin path a children results hwait hr =>
    have hreplace := replace_map Prod.fst t path (.live ((p.tracked mark).rejoin a results))
    show Move p (t.map Prod.fst) (map Prod.fst (t.replace path _))
    rw [← hreplace, Task.map_live]
    have hwait' : (t.map Prod.fst).at? path
        = some (.waiting a.1 (children.map fun u => u.map Prod.fst)) := by
      rw [at?_map, hwait]
      simp
    exact .rejoin hwait' (by rw [Task.results?_map, hr])

/-- A move can be made with trails. -/
theorem exists_tracked_move (mark : α → γ → γ) {t : Pool σ (α × γ) ρ} {d : Pool σ α ρ}
    (h : Move p t.untracked d) : ∃ u, Move (p.tracked mark) t u ∧ u.untracked = d := by
  generalize hc : t.untracked = c at h
  cases h with
  | @advance path a hlive =>
    rw [← hc, untracked, at?_map] at hlive
    obtain ⟨v, hv, hmap⟩ := Option.map_eq_some_iff.mp hlive
    cases v with
    | live x =>
      obtain rfl : x.1 = a := by simpa using hmap
      exact ⟨_, .advance hv, by rw [← hc]; exact untracked_advance t path x.1 x.2⟩
    | waiting x children => simp at hmap
    | ended r => simp at hmap
  | @rejoin path a children results hwait hr =>
    rw [← hc, untracked, at?_map] at hwait
    obtain ⟨v, hv, hmap⟩ := Option.map_eq_some_iff.mp hwait
    cases v with
    | live x => simp at hmap
    | ended r => simp at hmap
    | waiting x below =>
      obtain ⟨rfl, rfl⟩ : x.1 = a ∧ below.map (fun u => u.map Prod.fst) = children := by
        simpa using hmap
      rw [Task.results?_map] at hr
      refine ⟨_, .rejoin hv hr, ?_⟩
      rw [← hc]
      have hreplace := replace_map Prod.fst t path (.live ((p.tracked mark).rejoin x results))
      rw [untracked, ← hreplace, Task.map_live]
      rfl

/-- The runs with trails are the runs. -/
theorem reaches_iff_tracked (mark : α → γ → γ) {t : Pool σ (α × γ) ρ} {c : Pool σ α ρ} :
    Reaches p outside t.untracked c ↔
      ∃ u, Reaches (p.tracked mark) outside t u ∧ u.untracked = c := by
  constructor
  · intro h
    induction h with
    | refl => exact ⟨t, .refl, rfl⟩
    | tail _ hstep ih =>
      obtain ⟨u, hu, rfl⟩ := ih
      cases hstep with
      | move hmove =>
        obtain ⟨v, hv, rfl⟩ := exists_tracked_move mark hmove
        exact ⟨v, hu.tail (.move hv), rfl⟩
      | @outside s hout => exact ⟨{ u with shared := s }, hu.tail (.outside hout), rfl⟩
  · rintro ⟨u, hu, rfl⟩
    induction hu with
    | refl => exact .refl
    | tail _ hstep ih =>
      cases hstep with
      | move hmove => exact ih.tail (.move (untracked_move hmove))
      | outside hout => exact ih.tail (.outside hout)

@[simp] theorem untracked_start (s : σ) (a : α) (g : γ) :
    (Pool.start s (a, g) : Pool σ (α × γ) ρ).untracked = Pool.start s a := by
  simp [untracked, map, start]

/-- What each step keeps, together with what it keeps between a task and its trail. -/
theorem Kept.tracked {J : σ → Prop} {K : σ → α → Prop} (hk : Kept p outside J K)
    {T : σ → α → γ → Prop}
    (hbirths : ∀ {s a g}, J s → K s a → T s a g → ∀ b ∈ (p.step s a).2.births p,
      T (p.step s a).1 b (mark a g))
    (hothers : ∀ {s a b g}, J s → K s a → T s b g → T (p.step s a).1 b g)
    (hrejoin : ∀ {s a g} results, T s a g → T s (p.rejoin a results) g)
    (houtside : ∀ {s s' a g}, outside s s' → T s a g → T s' a g) :
    Kept (p.tracked mark) outside J (fun s a => K s a.1 ∧ T s a.1 a.2) where
  shared h ha := hk.shared h ha.1
  births {s a} h ha b hb := by
    rw [births_tracked s a.1 a.2] at hb
    obtain ⟨x, hx, rfl⟩ := List.mem_map.mp hb
    exact ⟨hk.births h ha.1 x hx, hbirths h ha.1 ha.2 x hx⟩
  others h ha hb := ⟨hk.others h ha.1 hb.1, hothers h ha.1 hb.2⟩
  rejoin results h ha := ⟨hk.rejoin results h ha.1, hrejoin results ha.2⟩
  outside hout h :=
    ⟨(hk.outside hout h).1, fun a ha => ⟨(hk.outside hout h).2 a.1 ha.1, houtside hout ha.2⟩⟩

end Pool

end Automation.Schedule
