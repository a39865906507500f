/-
Automation/Proofs/Schedule/Queue.lean

The machine is one order of work, and it leaves nothing undone.

Every step of the machine is a move of its pool, or takes a notice or a sleeper
off and changes no task (`step?_move`).  So a run of the machine is one of the
runs in any order (`reaches_run`), and it comes to an end if the moves of its
pool do (`exists_run`).

A machine is attentive if every live task is ready or asleep and every task that
could go on with the results of its children has a notice (`Attentive`).  Machines
start attentive and stay so, therefore one with nothing left to do has no tasks
that have not ended (`isOver_of_run`).
-/
import Automation.Proofs.Schedule.Interleaving
import Automation.Schedule.Machine

namespace Automation.Schedule

variable {σ : Type*} {α : Type*} {ρ : Type*}
variable {p : Program σ α ρ}

namespace Task

/-- Several tasks with results have ended with them. -/
theorem eq_ended_of_results? {ts : List (Task α ρ)} {rs : List ρ} (h : results? ts = some rs) :
    ts = rs.map Task.ended := by
  induction ts generalizing rs with
  | nil =>
    obtain rfl := Option.some.inj h
    rfl
  | cons u us ih =>
    cases u with
    | live a => simp [results?, result?] at h
    | waiting a children => simp [results?, result?] at h
    | ended r =>
      rcases hs : results? us with - | rs'
      · simp [results?, result?, hs] at h
      · obtain rfl : r :: rs' = rs := by simpa [results?, result?, hs] using h
        rw [ih hs, List.map_cons]

/-- Each of several tasks with results has ended. -/
theorem ended_of_results? {ts : List (Task α ρ)} {rs : List ρ} (h : results? ts = some rs)
    {i : Nat} {t : Task α ρ} (hi : ts[i]? = some t) : ∃ r, t = .ended r := by
  rw [eq_ended_of_results? h] at hi
  obtain ⟨r, -, rfl⟩ := List.mem_map.mp (List.mem_of_getElem? hi)
  exact ⟨r, rfl⟩

/-- A task whose parts are exchanged has ended only if all of it is exchanged, for
a task that has ended. -/
theorem ended_of_replace {t u new : Task α ρ} {path : List Nat} (h : t.at? path = some u) {r : ρ}
    (hr : t.replace path new = .ended r) : path = [] ∧ new = .ended r := by
  cases path with
  | nil => exact ⟨rfl, hr⟩
  | cons i path =>
    cases t with
    | live a => simp [at?] at h
    | ended s => simp [at?] at h
    | waiting a children => simp [replace] at hr

end Task

/-- A task waits for children that all have results once a task below it was exchanged:
that task is one of the children, and was exchanged for one that has ended. -/
theorem Pool.ended_of_results? {c : Pool σ α ρ} {q r : List Nat} {i : Nat} {a : α}
    {below : List (Task α ρ)} {u new : Task α ρ} {rs : List ρ}
    (hq : c.at? q = some (.waiting a below)) (hu : c.at? (q ++ i :: r) = some u)
    (hrs : Task.results? (below.modify i fun child => child.replace r new) = some rs) :
    r = [] ∧ ∃ x, new = .ended x := by
  rw [Pool.at?_append hq] at hu
  obtain ⟨child, hi, hchild⟩ := Option.bind_eq_some_iff.mp hu
  have hmod : (below.modify i fun child => child.replace r new)[i]?
      = some (child.replace r new) := by simp [hi]
  obtain ⟨x, hx⟩ := Task.ended_of_results? hrs hmod
  obtain ⟨hr, hnew⟩ := Task.ended_of_replace hchild hx
  exact ⟨hr, x, hnew⟩

namespace Machine

/-! ### The machine and its pool -/

@[simp] theorem toPool_arrange (m : Machine σ α ρ) (path : List Nat) (roots : Nat)
    (d : Directive α ρ) : (m.arrange path roots d).toPool = m.toPool := by
  cases d with
  | fork children w => cases children <;> rfl
  | _ => rfl

theorem resume_eq {m : Machine σ α ρ} {path : List Nat} {a : α}
    (h : m.at? path = some (.live a)) :
    m.resume p path = { m with toPool := m.advance p path a }.arrange path m.tasks.length
      (p.step m.shared a).2 := by
  simp only [resume, h, Pool.advance]

/-- A task that is not there, or has no work, does not go on. -/
theorem resume_of_not_live {m : Machine σ α ρ} {path : List Nat}
    (h : ¬ ∃ a, m.at? path = some (.live a)) : m.resume p path = m := by
  unfold resume
  split
  · next a ha => exact absurd ⟨a, ha⟩ h
  · rfl

/-- A task that does not wait for children takes no notice of them. -/
theorem childEnded_of_not_waiting {m : Machine σ α ρ} {parent : List Nat}
    (h : ¬ ∃ a children, m.at? parent = some (.waiting a children)) :
    m.childEnded p parent = m := by
  unfold childEnded
  split
  · next a children ha => exact absurd ⟨a, children, ha⟩ h
  · rfl

/-- The machine lets the task go on that is in front of the queue. -/
theorem exists_step?_of_resume {m : Machine σ α ρ} {path : List Nat} {rest : List Notice} {a : α}
    (hready : m.ready = .resume path :: rest) (h : m.at? path = some (.live a)) :
    ∃ m', m.step? p = some m' ∧ m'.toPool = m.toPool.advance p path a := by
  refine ⟨{ m with ready := rest }.resume p path, by simp [step?, hready], ?_⟩
  rw [resume_eq (m := { m with ready := rest }) h]
  simp

/-- What is left to be noticed: a sleeper counts twice, because it is made ready
before it goes on. -/
def weight (m : Machine σ α ρ) : Nat := m.ready.length + 2 * m.sleepers.length

/-- A step of the machine is a move of its pool, or changes no task and leaves less
to be noticed. -/
theorem step?_move {m m' : Machine σ α ρ} (h : m.step? p = some m') :
    Pool.Move p m.toPool m'.toPool ∨ m'.toPool = m.toPool ∧ m'.weight < m.weight := by
  unfold step? at h
  rcases hready : m.ready with - | ⟨path | parent, rest⟩
  · -- nobody is ready: a sleeper wakes
    rcases hs : m.sleepers with - | ⟨s, rest⟩
    · simp [hready, hs] at h
    · obtain rfl : _ = m' := by simpa [hready, hs] using h
      exact .inr ⟨rfl, by simp [weight, hready, hs]; omega⟩
  · -- a task goes on, or is not there to do so
    obtain rfl : { m with ready := rest }.resume p path = m' := by simpa [hready] using h
    by_cases hlive : ∃ a, m.at? path = some (.live a)
    · obtain ⟨a, ha⟩ := hlive
      rw [resume_eq (m := { m with ready := rest }) ha]
      exact .inl (by simpa using Pool.Move.advance ha)
    · rw [resume_of_not_live (m := { m with ready := rest }) hlive]
      exact .inr ⟨rfl, by simp [weight, hready]⟩
  · -- the notice of an ended child
    obtain rfl : { m with ready := rest }.childEnded p parent = m' := by simpa [hready] using h
    unfold childEnded
    split
    · next a children hwait =>
      split
      · next results hr =>
        split
        · exact .inr ⟨rfl, by simp [weight, hready]⟩
        · exact .inl (Pool.Move.rejoin hwait hr)
      · exact .inr ⟨rfl, by simp [weight, hready]⟩
    · exact .inr ⟨rfl, by simp [weight, hready]⟩

/-- A step of the machine is one of the steps in any order, or none. -/
theorem reaches_step? {m m' : Machine σ α ρ} (outside : σ → σ → Prop)
    (h : m.step? p = some m') : Pool.Reaches p outside m.toPool m'.toPool := by
  rcases step?_move h with hmove | ⟨hsame, -⟩
  · exact .single (.move hmove)
  · rw [hsame]

/-- A run of the machine is one of the runs in any order. -/
theorem reaches_run (p : Program σ α ρ) (outside : σ → σ → Prop) (fuel : Nat)
    (m : Machine σ α ρ) : Pool.Reaches p outside m.toPool (m.run p fuel).1.toPool := by
  induction fuel generalizing m with
  | zero => exact .refl
  | succ fuel ih =>
    unfold run
    split
    · next m' hm => exact (reaches_step? outside hm).trans (ih m')
    · exact .refl

/-- Once all tasks have ended, nothing moves any more. -/
theorem eq_of_isOver {c d : Pool σ α ρ} (hover : c.IsOver)
    (h : Pool.Reaches p (fun _ _ => False) c d) : d = c := by
  induction h with
  | refl => rfl
  | tail _ hstep ih =>
    subst ih
    have hnone := hover.states_eq_nil
    cases hstep with
    | outside hout => exact hout.elim
    | move hmove =>
      cases hmove with
      | advance hat => simpa [hnone] using Pool.mem_states_of_live hat
      | rejoin hat => simpa [hnone] using Pool.mem_states_of_waiting hat

/-- If the moves of its pool come to an end, so does a machine: by induction on the
moves, and between two moves on what is left to be noticed. -/
theorem exists_run {m : Machine σ α ρ}
    (hacc : Acc (fun d c => Pool.Move p c d) m.toPool) : ∃ fuel, (m.run p fuel).2 = true := by
  generalize hc : m.toPool = c at hacc
  induction hacc generalizing m with
  | intro c _ ih =>
    generalize hw : m.weight = w
    induction w using Nat.strongRecOn generalizing m with
    | ind w ihw =>
      rcases hstep : m.step? p with - | m'
      · exact ⟨1, by simp [run, hstep]⟩
      · have hfuel : ∃ fuel, (m'.run p fuel).2 = true := by
          rcases step?_move hstep with hmove | ⟨hsame, hlt⟩
          · exact ih m'.toPool (hc ▸ hmove) rfl
          · exact ihw m'.weight (hw ▸ hlt) (hsame.trans hc) rfl
        obtain ⟨fuel, hfuel⟩ := hfuel
        exact ⟨fuel + 1, by simpa [run, hstep] using hfuel⟩

/-- Running on from where a run has stopped. -/
theorem run_append (m : Machine σ α ρ) (first second : Nat) :
    (m.run p (first + second)).1 = ((m.run p first).1.run p second).1 := by
  induction first generalizing m with
  | zero => simp [run]
  | succ first ih =>
    rw [Nat.succ_add]
    rcases hstep : m.step? p with - | m'
    · have hstays : (m.run p second).1 = m := by cases second <;> simp [run, hstep]
      simp [run, hstep, hstays]
    · simp only [run, hstep]
      exact ih m'

/-- One step more. -/
theorem run_succ (m : Machine σ α ρ) (fuel : Nat) :
    (m.run p (fuel + 1)).1 = ((m.run p fuel).1.step? p).getD (m.run p fuel).1 := by
  rw [run_append]
  rcases hstep : (m.run p fuel).1.step? p with - | m' <;> simp [run, hstep]

/-- Once a machine has come to its end, more steps change nothing. -/
theorem run_add {m : Machine σ α ρ} {fuel : Nat} (h : (m.run p fuel).2 = true) (more : Nat) :
    m.run p (fuel + more) = m.run p fuel := by
  induction fuel generalizing m with
  | zero => simp [run] at h
  | succ fuel ih =>
    rw [Nat.succ_add]
    rcases hstep : m.step? p with - | m'
    · simp [run, hstep]
    · simp only [run, hstep] at h ⊢
      exact ih h

/-! ### Nothing is forgotten -/

/-- Every live task is ready or asleep, and every task that could go on with the
results of its children has a notice. -/
structure Attentive (m : Machine σ α ρ) : Prop where
  live : ∀ path a, m.at? path = some (.live a) →
    .resume path ∈ m.ready ∨ ∃ s ∈ m.sleepers, s.path = path
  waiting : ∀ path a children rs, m.at? path = some (.waiting a children) →
    Task.results? children = some rs → .childEnded path ∈ m.ready

theorem attentive_start (s : σ) (a : α) : (Machine.start s a : Machine σ α ρ).Attentive := by
  have hroot : ∀ path t, (Machine.start s a : Machine σ α ρ).at? path = some t →
      path = [0] ∧ t = .live a := by
    intro path t h
    obtain ⟨i, rest, root, rfl, hi, hroot⟩ := Pool.at?_eq_some h
    have hi' : [Task.live a][i]? = some root := hi
    obtain ⟨rfl, rfl⟩ : i = 0 ∧ root = .live a := by
      rw [List.getElem?_singleton] at hi'
      split at hi'
      · next hz => exact ⟨hz, (Option.some.inj hi').symm⟩
      · cases hi'
    cases rest with
    | nil => exact ⟨rfl, (Option.some.inj hroot).symm⟩
    | cons j rest => simp [Task.at?] at hroot
  constructor
  · intro path b h
    obtain ⟨rfl, -⟩ := hroot path _ h
    exact .inl (by simp [start])
  · intro path b children rs h
    obtain ⟨-, h⟩ := hroot path _ h
    cases h

theorem mem_insertSleeper {s t : Sleeper} {sleepers : List Sleeper} :
    t ∈ insertSleeper s sleepers ↔ t = s ∨ t ∈ sleepers := by
  induction sleepers with
  | nil => simp [insertSleeper]
  | cons u rest ih =>
    unfold insertSleeper
    split
    · simp
    · simp only [List.mem_cons, ih]
      tauto

/-- What was ready stays so when a directive is taken in. -/
theorem mem_ready_arrange {m : Machine σ α ρ} {n : Notice} (h : n ∈ m.ready) (path : List Nat)
    (roots : Nat) (d : Directive α ρ) : n ∈ (m.arrange path roots d).ready := by
  cases d with
  | fork children w => cases children <;> simp [arrange, push, append, h]
  | _ => simp [arrange, push, append, h]

/-- Who sleeps goes on sleeping when a directive is taken in. -/
theorem mem_sleepers_arrange {m : Machine σ α ρ} {s : Sleeper} (h : s ∈ m.sleepers)
    (path : List Nat) (roots : Nat) (d : Directive α ρ) :
    s ∈ (m.arrange path roots d).sleepers := by
  cases d with
  | fork children w => cases children <;> simpa [arrange, push, append] using h
  | sleep microseconds next => exact mem_insertSleeper.mpr (.inr h)
  | _ => simpa [arrange, push, append] using h

/-- Every live task that comes of a directive is ready or asleep. -/
theorem arrange_live (m : Machine σ α ρ) (path : List Nat) (roots : Nat) (d : Directive α ρ)
    {r : List Nat} {a : α} (h : (d.task p).at? r = some (.live a)) :
    .resume (path ++ r) ∈ (m.arrange path roots d).ready ∨
      ∃ s ∈ (m.arrange path roots d).sleepers, s.path = path ++ r := by
  rcases Directive.at?_task h with ⟨rfl, hlive⟩ | ⟨children, w, i, b, rfl, rfl, hi, -⟩
  · rw [List.append_nil]
    cases d with
    | fork children w =>
      cases children with
      | nil => exact .inl (by simp [arrange, push])
      | cons child children => simp [Directive.task] at hlive
    | finish result => simp [Directive.task] at hlive
    | sleep microseconds next => exact .inr ⟨_, mem_insertSleeper.mpr (.inl rfl), rfl⟩
    | _ => exact .inl (by simp [arrange, push, append])
  · cases children with
    | nil => simp at hi
    | cons child children =>
      refine .inl (List.mem_append_right _ (List.mem_map.mpr ⟨path ++ [i], ?_, rfl⟩))
      exact List.mem_map.mpr ⟨i, List.mem_range.mpr hi, rfl⟩

/-- A task that waits for one that has just ended is told so; for any other step
there is nobody to tell. -/
theorem arrange_waiting {m : Machine σ α ρ} (m' : Machine σ α ρ) {q r : List Nat} {i : Nat}
    {a c : α} {below : List (Task α ρ)} {d : Directive α ρ} {rs : List ρ}
    (ha : m.at? (q ++ i :: r) = some (.live a)) (hq : m.at? q = some (.waiting c below))
    (hrs : Task.results? (below.modify i fun child => child.replace r (d.task p)) = some rs)
    (roots : Nat) : .childEnded q ∈ (m'.arrange (q ++ i :: r) roots d).ready := by
  obtain ⟨rfl, x, hended⟩ := Pool.ended_of_results? hq ha hrs
  have hne : q ≠ [] := by
    rintro rfl
    simp [Pool.at?] at hq
  cases d with
  | finish result =>
    have hlen : ¬ (q ++ [i]).length ≤ 1 := by
      have := List.length_pos_of_ne_nil hne
      simp only [List.length_append, List.length_singleton]
      omega
    refine List.mem_append_right _ ?_
    rw [parentNotice, if_neg hlen, List.dropLast_concat]
    exact List.mem_singleton_self _
  | fork children w => cases children <;> simp [Directive.task] at hended
  | _ => simp [Directive.task] at hended

/-- A task has taken a step: it and the tasks that came of it are looked after, and
so is the one that waits for it. -/
theorem Attentive.advance {m : Machine σ α ρ} (hm : m.Attentive) {path : List Nat}
    {rest : List Notice} (hready : m.ready = .resume path :: rest) {a : α}
    (ha : m.at? path = some (.live a)) :
    ({ m with ready := rest, toPool := m.advance p path a }.arrange path m.tasks.length
      (p.step m.shared a).2).Attentive := by
  generalize hd : (p.step m.shared a).2 = d
  constructor
  · intro q b hq
    rw [toPool_arrange] at hq
    rcases Pool.at?_advance ha hq with hfound | ⟨child, next, hspawn, rfl, -⟩
    · rcases hfound with ⟨r, rfl, hr⟩ | ⟨i, r, c, below, -, -, hv⟩ | ⟨hpre, hold⟩
      · rw [hd] at hr
        exact arrange_live _ path _ d hr
      · cases hv
      · rcases hm.live q b hold with hmem | ⟨s, hs, rfl⟩
        · rw [hready] at hmem
          rcases List.mem_cons.mp hmem with heq | hmem
          · obtain rfl := Notice.resume.inj heq
            exact absurd (List.prefix_refl q) hpre
          · exact .inl (mem_ready_arrange (by exact hmem) path _ d)
        · exact .inr ⟨s, mem_sleepers_arrange (by exact hs) path _ d, rfl⟩
    · obtain rfl : Directive.spawn child next = d := hspawn.symm.trans hd
      exact .inl (by simp [arrange, push, append])
  · intro q b children rs hq hrs
    rw [toPool_arrange] at hq
    rcases Pool.at?_advance ha hq with hfound | ⟨child, next, -, -, hv⟩
    · rcases hfound with ⟨r, rfl, hr⟩ | ⟨i, r, c, below, rfl, hbelow, hv⟩ | ⟨-, hold⟩
      · rw [(Directive.children_of_task hr).2.1] at hrs
        cases hrs
      · obtain ⟨rfl, rfl⟩ := Task.waiting.inj hv
        rw [hd] at hrs
        exact arrange_waiting _ ha hbelow hrs _
      · have hmem := hm.waiting q b children rs hold hrs
        rw [hready] at hmem
        exact mem_ready_arrange ((List.mem_cons.mp hmem).resolve_left (by simp)) path _ d
    · cases hv

/-- A notice that no task needs can be taken off. -/
theorem Attentive.drop {m : Machine σ α ρ} (hm : m.Attentive) {n : Notice} {rest : List Notice}
    (hready : m.ready = n :: rest)
    (hlive : ∀ path a, m.at? path = some (.live a) → n ≠ .resume path)
    (hwait : ∀ path a children rs, m.at? path = some (.waiting a children) →
      Task.results? children = some rs → n ≠ .childEnded path ∨ .childEnded path ∈ rest) :
    { m with ready := rest }.Attentive := by
  constructor
  · intro path a h
    rcases hm.live path a h with hmem | hsleep
    · rw [hready] at hmem
      exact .inl ((List.mem_cons.mp hmem).resolve_left fun heq => hlive path a h heq.symm)
    · exact .inr hsleep
  · intro path a children rs h hrs
    have hmem := hm.waiting path a children rs h hrs
    rw [hready] at hmem
    rcases hwait path a children rs h hrs with hne | hrest
    · exact (List.mem_cons.mp hmem).resolve_left fun heq => hne heq.symm
    · exact hrest

/-- A task has returned to work once the last notice of its children was taken. -/
theorem Attentive.rejoin {m : Machine σ α ρ} (hm : m.Attentive) {path : List Nat}
    {rest : List Notice} (hready : m.ready = .childEnded path :: rest) {a : α}
    {children : List (Task α ρ)} (ha : m.at? path = some (.waiting a children)) (b : α) :
    ({ m with ready := rest, toPool := m.replace path (.live b) }.append
      [.resume path]).Attentive := by
  constructor
  · intro q c hq
    rcases Pool.at?_replace ha hq with ⟨r, rfl, hr⟩ | ⟨i, r, c, below, -, -, hv⟩ | ⟨-, hold⟩
    · cases r with
      | nil => exact .inl (by simp [append])
      | cons i r => simp [Task.at?] at hr
    · cases hv
    · rcases hm.live q c hold with hmem | hsleep
      · rw [hready] at hmem
        exact .inl (List.mem_append_left _ ((List.mem_cons.mp hmem).resolve_left (by simp)))
      · exact .inr hsleep
  · intro q c below rs hq hrs
    rcases Pool.at?_replace ha hq with ⟨r, rfl, hr⟩ | ⟨i, r, x, inner, rfl, hinner, hv⟩ | ⟨hpre, hold⟩
    · cases r <;> simp [Task.at?] at hr
    · -- a task around the one that goes on still waits for it
      obtain ⟨rfl, rfl⟩ := Task.waiting.inj hv
      obtain ⟨-, x, hx⟩ := Pool.ended_of_results? hinner ha hrs
      cases hx
    · have hmem := hm.waiting q c below rs hold hrs
      rw [hready] at hmem
      rcases List.mem_cons.mp hmem with heq | hmem
      · obtain rfl := Notice.childEnded.inj heq
        exact absurd (List.prefix_refl q) hpre
      · exact List.mem_append_left _ hmem

/-- A machine stays attentive. -/
theorem Attentive.step? {m m' : Machine σ α ρ} (hm : m.Attentive) (h : m.step? p = some m') :
    m'.Attentive := by
  unfold Machine.step? at h
  rcases hready : m.ready with - | ⟨path | parent, rest⟩
  · rcases hs : m.sleepers with - | ⟨s, rest⟩
    · simp [hready, hs] at h
    · obtain rfl : _ = m' := by simpa [hready, hs] using h
      constructor
      · intro path a hlive
        rcases hm.live path a hlive with hmem | ⟨t, ht, rfl⟩
        · simp [hready] at hmem
        · rw [hs] at ht
          rcases List.mem_cons.mp ht with rfl | ht
          · exact .inl (List.mem_singleton_self _)
          · exact .inr ⟨t, ht, rfl⟩
      · intro path a children rs hwait hrs
        have hmem := hm.waiting path a children rs hwait hrs
        simp [hready] at hmem
  · obtain rfl : { m with ready := rest }.resume p path = m' := by simpa [hready] using h
    by_cases hlive : ∃ a, m.at? path = some (.live a)
    · obtain ⟨a, ha⟩ := hlive
      rw [resume_eq (m := { m with ready := rest }) ha]
      exact hm.advance hready ha
    · have hdrop : { m with ready := rest }.Attentive := by
        refine hm.drop hready (fun q a hq heq => hlive ⟨a, ?_⟩) fun _ _ _ _ _ _ => .inl (by simp)
        rw [Notice.resume.inj heq]
        exact hq
      rw [resume_of_not_live (m := { m with ready := rest }) hlive]
      exact hdrop
  · obtain rfl : { m with ready := rest }.childEnded p parent = m' := by simpa [hready] using h
    unfold childEnded
    split
    · next a children hwait =>
      split
      · next results hr =>
        split
        · next hcontains =>
          refine hm.drop hready (fun _ _ _ => by simp) fun q b below rs hq hrs => ?_
          by_cases heq : parent = q
          · exact .inr (by simpa [heq] using hcontains)
          · exact .inl (by simpa using heq)
        · exact hm.rejoin hready hwait _
      · next hnone =>
        refine hm.drop hready (fun _ _ _ => by simp) fun q b below rs hq hrs => .inl ?_
        rintro heq
        obtain rfl := Notice.childEnded.inj heq
        obtain ⟨-, rfl⟩ := Task.waiting.inj (Option.some.inj (hwait.symm.trans hq))
        simp [hnone] at hrs
    · next hno =>
      refine hm.drop hready (fun _ _ _ => by simp) fun q b below rs hq hrs => .inl ?_
      rintro heq
      obtain rfl := Notice.childEnded.inj heq
      exact hno b below hq

/-- A machine that has come to its end has no task left that has not ended. -/
theorem isOver_of_run {m : Machine σ α ρ} (hm : m.Attentive) {fuel : Nat}
    (h : (m.run p fuel).2 = true) : (m.run p fuel).1.IsOver := by
  induction fuel generalizing m with
  | zero => simp [run] at h
  | succ fuel ih =>
    rcases hstep : m.step? p with - | m'
    · have hidle : m.ready = [] ∧ m.sleepers = [] := by
        unfold Machine.step? at hstep
        rcases hready : m.ready with - | ⟨path | parent, rest⟩
        · rcases hs : m.sleepers with - | ⟨s, rest⟩
          · exact ⟨rfl, rfl⟩
          · simp [hready, hs] at hstep
        · simp [hready] at hstep
        · simp [hready] at hstep
      have hrun : (m.run p (fuel + 1)).1 = m := by simp [run, hstep]
      rw [hrun]
      -- whoever could go on is ready, asleep or has a notice, but there is none of these
      rcases Task.exists_ready_all m.tasks with hover | ⟨i, t, hi, path, hready⟩
      · exact hover
      · have hat : m.at? (i :: path) = t.at? path := by simp [Pool.at?, hi]
        exfalso
        rcases hready with ⟨a, ha⟩ | ⟨a, children, rs, ha, hrs⟩
        · simpa [hidle] using hm.live _ _ (hat.trans ha)
        · simpa [hidle] using hm.waiting _ _ _ _ (hat.trans ha) hrs
    · simp only [run, hstep] at h ⊢
      exact ih (hm.step? hstep) h

end Machine

end Automation.Schedule
