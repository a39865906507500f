/-
Automation/Proofs/Schedule/Mask.lean

Runs that differ in what is hidden.

A mask blots out a part of the shared state and of the state of each task.  A program is
sealed by it if what comes of a step is the same, under the mask, whether or not the part
was blotted out before (`Sealed`).  Two pools that look the same under the mask
then go on doing so: every run of the one is matched by a run of the other, move by
move and with what is the same from outside (`Sealed.exists_alike_reaches`), and machines that
look the same take the same steps (`Sealed.alike_run`).
-/
import Automation.Proofs.Schedule.Queue
import Automation.Proofs.Schedule.Trail

namespace Automation.Schedule

variable {σ : Type*} {α : Type*} {ρ : Type*}
variable {p : Program σ α ρ} {outside : σ → σ → Prop} {K : α → Prop}

/-- A way to blot out a part of the shared state and of the state of each task. -/
structure Mask (σ : Type*) (α : Type*) where
  shared : σ → σ
  state : α → α

variable {k : Mask σ α}

/-- Steps keep a property of the states of tasks; what comes of a step by a task with that
property looks the same under the mask if the task and what it shares are masked before. -/
structure Sealed (p : Program σ α ρ) (K : α → Prop) (k : Mask σ α) : Prop where
  births : ∀ {s a}, K a → ∀ b ∈ (p.step s a).2.births p, K b
  returns : ∀ {a} results, K a → K (p.rejoin a results)
  shared : ∀ {s a}, K a →
    k.shared (p.step (k.shared s) (k.state a)).1 = k.shared (p.step s a).1
  directive : ∀ {s a}, K a →
    (p.step (k.shared s) (k.state a)).2.map k.state = (p.step s a).2.map k.state
  rejoin : ∀ a results, k.state (p.rejoin a results) = p.rejoin (k.state a) results

namespace Pool

/-- A pool under a mask. -/
def masked (k : Mask σ α) (c : Pool σ α ρ) : Pool σ α ρ :=
  ⟨k.shared c.shared, c.tasks.map fun t => t.map k.state⟩

theorem masked_eq (k : Mask σ α) (c : Pool σ α ρ) :
    c.masked k = { c.map k.state with shared := k.shared c.shared } := rfl

theorem at?_masked (c : Pool σ α ρ) (path : List ℕ) :
    (c.masked k).at? path = (c.at? path).map fun t => t.map k.state := by
  rw [← at?_map]
  cases path <;> rfl

theorem replace_masked (c : Pool σ α ρ) (path : List ℕ) (new : Task α ρ) :
    (c.masked k).replace path (new.map k.state) = (c.replace path new).masked k := by
  rw [masked_eq k (c.replace path new), ← replace_map, replace_shared]
  cases path <;> rfl

theorem results?_masked (c : Pool σ α ρ) :
    Task.results? (c.masked k).tasks = Task.results? c.tasks :=
  Task.results?_map k.state c.tasks

/-- Pools that look the same have tasks at work in the same places. -/
theorem exists_live_of_masked_eq {c d : Pool σ α ρ} (h : c.masked k = d.masked k) {path : List ℕ}
    {a : α} (ha : c.at? path = some (.live a)) :
    ∃ b, d.at? path = some (.live b) ∧ k.state b = k.state a := by
  have hat := at?_masked (k := k) c path
  rw [h, at?_masked, ha, Option.map_some, Task.map_live] at hat
  obtain ⟨t, ht, hmap⟩ := Option.map_eq_some_iff.mp hat
  cases t with
  | live b => exact ⟨b, ht, by simpa using hmap⟩
  | waiting b children => simp at hmap
  | ended r => simp at hmap

/-- Pools that look the same have waiting tasks in the same places, for the same results. -/
theorem exists_waiting_of_masked_eq {c d : Pool σ α ρ} (h : c.masked k = d.masked k)
    {path : List ℕ} {a : α} {children : List (Task α ρ)}
    (ha : c.at? path = some (.waiting a children)) :
    ∃ b below, d.at? path = some (.waiting b below) ∧ k.state b = k.state a ∧
      Task.results? below = Task.results? children := by
  have hat := at?_masked (k := k) c path
  rw [h, at?_masked, ha, Option.map_some, Task.map_waiting] at hat
  obtain ⟨t, ht, hmap⟩ := Option.map_eq_some_iff.mp hat
  cases t with
  | live b => simp at hmap
  | waiting b below =>
    rw [Task.map_waiting] at hmap
    obtain ⟨hb, hbelow⟩ := Task.waiting.inj hmap
    refine ⟨b, below, ht, hb, ?_⟩
    rw [← Task.results?_map k.state below, hbelow, Task.results?_map]
  | ended r => simp at hmap

end Pool

namespace Machine

/-- A machine under a mask. -/
def masked (k : Mask σ α) (m : Machine σ α ρ) : Machine σ α ρ :=
  { m with toPool := m.toPool.masked k }

/-- Machines look the same if their pools do and all else is equal. -/
theorem masked_eq_iff {m n : Machine σ α ρ} :
    m.masked k = n.masked k ↔ m.toPool.masked k = n.toPool.masked k ∧ m.ready = n.ready ∧
      m.sleepers = n.sleepers ∧ m.now = n.now := by
  simp only [masked, mk.injEq]

theorem masked_arrange (m : Machine σ α ρ) (path : List ℕ) (roots : ℕ) (d : Directive α ρ) :
    (m.arrange path roots d).masked k = (m.masked k).arrange path roots (d.map k.state) := by
  cases d with
  | fork children waiting =>
    cases children with
    | nil => rfl
    | cons child children => simp [arrange, append, masked, Directive.map]
  | _ => rfl

end Machine

namespace Sealed

variable (hs : Sealed p K k)

include hs

/-- The task that comes of a directive under the mask. -/
theorem task_map (d : Directive α ρ) : (d.map k.state).task p = (d.task p).map k.state := by
  cases d with
  | fork children waiting =>
    cases children with
    | nil => simp [Directive.map, Directive.task, hs.rejoin]
    | cons child children => simp [Directive.map, Directive.task, Function.comp_def]
  | _ => simp [Directive.map, Directive.task]

theorem kept : Pool.Kept p outside (fun _ => True) (fun _ a => K a) where
  shared _ _ := trivial
  births _ ha b hb := hs.births ha b hb
  others _ _ hb := hb
  rejoin results _ ha := hs.returns results ha
  outside _ _ := ⟨trivial, fun _ ha => ha⟩

/-- Steps of tasks that look the same look the same. -/
theorem step_congr {s t : σ} {a b : α} (ha : K a) (hb : K b) (hst : k.shared s = k.shared t)
    (hab : k.state a = k.state b) :
    k.shared (p.step s a).1 = k.shared (p.step t b).1 ∧
      (p.step s a).2.map k.state = (p.step t b).2.map k.state := by
  rw [← hs.shared ha, ← hs.directive ha, hst, hab]
  exact ⟨hs.shared hb, hs.directive hb⟩

/-! ### Pools -/

theorem masked_carryOut (c : Pool σ α ρ) (path : List ℕ) (d : Directive α ρ) :
    (c.carryOut p path d).masked k = (c.masked k).carryOut p path (d.map k.state) := by
  have hroots : (d.map k.state).roots = d.roots.map fun t => t.map k.state := by
    cases d <;> simp [Directive.map, Directive.roots]
  unfold Pool.carryOut
  rw [hs.task_map, Pool.replace_masked, hroots]
  simp [Pool.masked]

/-- Pools that look the same do so after a step in the same place. -/
theorem masked_advance {c d : Pool σ α ρ} (h : c.masked k = d.masked k) (path : List ℕ) {a b : α}
    (ha : K a) (hb : K b) (hab : k.state a = k.state b) :
    (c.advance p path a).masked k = (d.advance p path b).masked k := by
  obtain ⟨hshared, htasks⟩ := Pool.mk.inj h
  obtain ⟨hnew, hdirective⟩ := hs.step_congr ha hb hshared hab
  -- the tasks are exchanged after the shared state has changed, and do not look at it
  have hbefore : ({ c with shared := (p.step c.shared a).1 } : Pool σ α ρ).masked k
      = ({ d with shared := (p.step d.shared b).1 } : Pool σ α ρ).masked k := by
    simp only [Pool.masked, hnew, htasks]
  show (Pool.carryOut p { c with shared := (p.step c.shared a).1 } path _).masked k
    = (Pool.carryOut p { d with shared := (p.step d.shared b).1 } path _).masked k
  rw [hs.masked_carryOut, hs.masked_carryOut, hbefore, hdirective]

/-- Pools that look the same do so after a return to work in the same place. -/
theorem masked_rejoin {c d : Pool σ α ρ} (h : c.masked k = d.masked k) (path : List ℕ) {a b : α}
    (hab : k.state a = k.state b) (results : List ρ) :
    (c.replace path (.live (p.rejoin a results))).masked k
      = (d.replace path (.live (p.rejoin b results))).masked k := by
  rw [← Pool.replace_masked, ← Pool.replace_masked, h, Task.map_live, Task.map_live, hs.rejoin,
    hs.rejoin, hab]

/-- A move is matched by one that looks the same. -/
theorem exists_alike_move {c c' d : Pool σ α ρ} (h : c.masked k = d.masked k)
    (hc : ∀ a ∈ c.states, K a) (hd : ∀ a ∈ d.states, K a) (hmove : Pool.Move p c c') :
    ∃ d', Pool.Move p d d' ∧ c'.masked k = d'.masked k := by
  cases hmove with
  | @advance path a ha =>
    obtain ⟨b, hb, hab⟩ := Pool.exists_live_of_masked_eq h ha
    exact ⟨_, .advance hb, hs.masked_advance h path (hc a (Pool.mem_states_of_live ha))
      (hd b (Pool.mem_states_of_live hb)) hab.symm⟩
  | @rejoin path a children results ha hresults =>
    obtain ⟨b, below, hb, hab, hbelow⟩ := Pool.exists_waiting_of_masked_eq h ha
    exact ⟨_, .rejoin hb (hbelow.trans hresults), hs.masked_rejoin h path hab.symm results⟩

/-- A run is matched by one that looks the same, if what happens outside can be matched. -/
theorem exists_alike_reaches
    (hout : ∀ {s s' t}, outside s s' → k.shared s = k.shared t →
      ∃ t', outside t t' ∧ k.shared s' = k.shared t')
    {c c' d : Pool σ α ρ} (h : c.masked k = d.masked k)
    (hc : ∀ a ∈ c.states, K a) (hd : ∀ a ∈ d.states, K a) (hreach : Pool.Reaches p outside c c') :
    ∃ d', Pool.Reaches p outside d d' ∧ c'.masked k = d'.masked k := by
  -- by induction on the run; each of the two runs keeps the property of its own states
  induction hreach with
  | refl => exact ⟨d, .refl, h⟩
  | @tail x y hx hstep ih =>
    obtain ⟨z, hz, hxz⟩ := ih
    have hxs := (hs.kept.reaches ⟨trivial, hc⟩ hx).2
    have hzs := (hs.kept.reaches ⟨trivial, hd⟩ hz).2
    cases hstep with
    | move hmove =>
      obtain ⟨d', hd', halike⟩ := hs.exists_alike_move hxz hxs hzs hmove
      exact ⟨d', hz.tail (.move hd'), halike⟩
    | outside hchange =>
      obtain ⟨hshared, htasks⟩ := Pool.mk.inj hxz
      obtain ⟨t, ht, hst⟩ := hout hchange hshared
      refine ⟨_, hz.tail (.outside ht), ?_⟩
      simp only [Pool.masked, hst, htasks]

/-! ### Machines -/

theorem masked_resume {m n : Machine σ α ρ} (h : m.masked k = n.masked k)
    (hm : ∀ a ∈ m.states, K a) (hn : ∀ a ∈ n.states, K a) (path : List ℕ) :
    (m.resume p path).masked k = (n.resume p path).masked k := by
  obtain ⟨hpool, hrest⟩ := Machine.masked_eq_iff.mp h
  by_cases hlive : ∃ a, m.at? path = some (.live a)
  · obtain ⟨a, ha⟩ := hlive
    obtain ⟨b, hb, hab⟩ := Pool.exists_live_of_masked_eq hpool ha
    have hKa := hm a (Pool.mem_states_of_live ha)
    have hKb := hn b (Pool.mem_states_of_live hb)
    obtain ⟨hshared, htasks⟩ := Pool.mk.inj hpool
    obtain ⟨-, hdirective⟩ := hs.step_congr hKa hKb hshared hab.symm
    -- whoever is ready depends on the kind of directive and the number of roots
    have hroots : m.tasks.length = n.tasks.length := by simpa using congrArg List.length htasks
    have hadvance : Machine.masked k { m with toPool := m.advance p path a }
        = Machine.masked k { n with toPool := n.advance p path b } :=
      Machine.masked_eq_iff.mpr ⟨hs.masked_advance hpool path hKa hKb hab.symm, hrest⟩
    rw [Machine.resume_eq ha, Machine.resume_eq hb, Machine.masked_arrange, Machine.masked_arrange,
      hdirective, hroots, hadvance]
  · have hnone : ¬ ∃ b, n.at? path = some (.live b) := fun ⟨b, hb⟩ =>
      hlive ((Pool.exists_live_of_masked_eq hpool.symm hb).imp fun _ ha => ha.1)
    rw [Machine.resume_of_not_live hlive, Machine.resume_of_not_live hnone, h]

theorem masked_childEnded {m n : Machine σ α ρ} (h : m.masked k = n.masked k) (parent : List ℕ) :
    (m.childEnded p parent).masked k = (n.childEnded p parent).masked k := by
  obtain ⟨hpool, hready, hrest⟩ := Machine.masked_eq_iff.mp h
  by_cases hwait : ∃ a children, m.at? parent = some (.waiting a children)
  · obtain ⟨a, children, ha⟩ := hwait
    obtain ⟨b, below, hb, hab, hbelow⟩ := Pool.exists_waiting_of_masked_eq hpool ha
    simp only [Machine.childEnded, ha, hb, hbelow, hready]
    rcases Task.results? children with - | results
    · exact h
    · dsimp only
      split
      · exact h
      · exact Machine.masked_eq_iff.mpr ⟨hs.masked_rejoin hpool parent hab.symm results, rfl,
          hrest⟩
  · have hnone : ¬ ∃ b below, n.at? parent = some (.waiting b below) := fun ⟨b, below, hb⟩ => by
      obtain ⟨a, children, ha, -⟩ := Pool.exists_waiting_of_masked_eq hpool.symm hb
      exact hwait ⟨a, children, ha⟩
    rw [Machine.childEnded_of_not_waiting hwait, Machine.childEnded_of_not_waiting hnone, h]

/-- A step of a machine keeps what steps of tasks keep. -/
theorem states_step? {m m' : Machine σ α ρ} (hm : ∀ a ∈ m.states, K a) (h : m.step? p = some m') :
    ∀ a ∈ m'.states, K a := by
  rcases Machine.step?_move h with hmove | ⟨hsame, -⟩
  · have hkept : Pool.Kept p (fun _ _ => False) (fun _ => True) (fun _ a => K a) := hs.kept
    exact (hkept.move ⟨trivial, hm⟩ hmove).2
  · rw [hsame]
    exact hm

/-- Machines that look the same take steps that look the same. -/
theorem masked_step? {m n : Machine σ α ρ} (h : m.masked k = n.masked k)
    (hm : ∀ a ∈ m.states, K a) (hn : ∀ a ∈ n.states, K a) :
    (m.step? p).map (Machine.masked k) = (n.step? p).map (Machine.masked k) := by
  obtain ⟨hpool, hready, hsleepers, hnow⟩ := Machine.masked_eq_iff.mp h
  have hbut : ∀ rest : List Notice,
      Machine.masked k { m with ready := rest } = Machine.masked k { n with ready := rest } :=
    fun rest => Machine.masked_eq_iff.mpr ⟨hpool, rfl, hsleepers, hnow⟩
  unfold Machine.step?
  rw [hready]
  split
  · next path rest _ => exact congrArg some (hs.masked_resume (hbut rest) hm hn path)
  · next parent rest _ => exact congrArg some (hs.masked_childEnded (hbut rest) parent)
  · rw [hsleepers]
    split
    · exact congrArg some (Machine.masked_eq_iff.mpr ⟨hpool, rfl, rfl, rfl⟩)
    · rfl

/-- Machines that look the same do so after as many steps, and come to an end with the same
step. -/
theorem alike_run {m n : Machine σ α ρ} (h : m.masked k = n.masked k)
    (hm : ∀ a ∈ m.states, K a) (hn : ∀ a ∈ n.states, K a) (fuel : ℕ) :
    (m.run p fuel).1.masked k = (n.run p fuel).1.masked k ∧
      (m.run p fuel).2 = (n.run p fuel).2 := by
  induction fuel generalizing m n with
  | zero => exact ⟨h, rfl⟩
  | succ fuel ih =>
    have hsteps := hs.masked_step? h hm hn
    rcases hm' : m.step? p with - | m'
    · rcases hn' : n.step? p with - | n'
      · simpa [Machine.run, hm', hn'] using h
      · simp [hm', hn'] at hsteps
    · rcases hn' : n.step? p with - | n'
      · simp [hm', hn'] at hsteps
      · have halike : m'.masked k = n'.masked k := by simpa [hm', hn'] using hsteps
        simpa only [Machine.run, hm', hn'] using
          ih halike (hs.states_step? hm hm') (hs.states_step? hn hn')

end Sealed

end Automation.Schedule
