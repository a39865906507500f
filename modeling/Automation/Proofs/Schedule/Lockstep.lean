/-
Automation/Proofs/Schedule/Lockstep.lean

Runs that go on side by side.

The same tasks work on two shared states.  As long as the states are related in a way
that every step keeps, and each step gives the same directive in both (`Lockstep`), the
tasks stay the same: every move of the one pool is one of the other (`Lockstep.reaches`),
and a machine takes the same steps, however long it runs (`Lockstep.run`).
-/
import Automation.Proofs.Schedule.Queue

namespace Automation.Schedule

variable {σ : Type*} {α : Type*} {ρ : Type*} {p : Program σ α ρ}

/-- A step of a task gives the same directive in related states, and leaves related states. -/
def Lockstep (p : Program σ α ρ) (R : σ → σ → Prop) (K : σ → α → Prop) : Prop :=
  ∀ {s t a}, R s t → K s a → R (p.step s a).1 (p.step t a).1 ∧ (p.step s a).2 = (p.step t a).2

namespace Pool

/-- The same tasks with another shared state. -/
def under (c : Pool σ α ρ) (t : σ) : Pool σ α ρ := { c with shared := t }

theorem under_under (c : Pool σ α ρ) (s t : σ) : (c.under s).under t = c.under t := rfl

theorem under_self (c : Pool σ α ρ) : c.under c.shared = c := rfl

@[simp] theorem at?_under (c : Pool σ α ρ) (t : σ) (path : List ℕ) :
    (c.under t).at? path = c.at? path := by
  cases path <;> rfl

theorem replace_under (c : Pool σ α ρ) (t : σ) (path : List ℕ) (new : Task α ρ) :
    (c.under t).replace path new = (c.replace path new).under t := by
  cases path <;> rfl

theorem advance_under {c : Pool σ α ρ} {t : σ} {a : α}
    (h : (p.step c.shared a).2 = (p.step t a).2) (path : List ℕ) :
    (c.under t).advance p path a = (c.advance p path a).under (p.step t a).1 := by
  unfold advance
  show carryOut p { c.under t with shared := (p.step t a).1 } path (p.step t a).2 = _
  rw [← h]
  cases path <;> rfl

end Pool

namespace Machine

/-- The same machine with another shared state. -/
def under (m : Machine σ α ρ) (t : σ) : Machine σ α ρ := { m with shared := t }

theorem arrange_under (m : Machine σ α ρ) (t : σ) (path : List ℕ) (roots : ℕ)
    (d : Directive α ρ) : (m.under t).arrange path roots d = (m.arrange path roots d).under t := by
  cases d with
  | fork children waiting => cases children <;> rfl
  | _ => rfl

theorem resume_under {m : Machine σ α ρ} {t : σ} {path : List ℕ} {a : α}
    (hat : m.at? path = some (.live a)) (h : (p.step m.shared a).2 = (p.step t a).2) :
    (m.under t).resume p path = (m.resume p path).under (p.step t a).1 := by
  have hunder : (m.under t).at? path = some (.live a) := (Pool.at?_under ..).trans hat
  have hpool := Pool.advance_under (c := m.toPool) h path
  rw [resume_eq hunder, resume_eq hat, ← arrange_under]
  show arrange { m with toPool := (m.toPool.under t).advance p path a } path _ (p.step t a).2 = _
  rw [hpool, ← h]
  rfl

theorem childEnded_under (m : Machine σ α ρ) (t : σ) (parent : List ℕ) :
    (m.under t).childEnded p parent = (m.childEnded p parent).under t := by
  have hat : (m.under t).at? parent = m.at? parent := Pool.at?_under ..
  unfold childEnded
  rw [hat]
  split
  · split
    · rw [apply_ite (under · t)]
      refine if_congr Iff.rfl rfl ?_
      exact congrArg (fun c => append { m with toPool := c } _) (Pool.replace_under ..)
    · rfl
  · rfl

theorem childEnded_shared (m : Machine σ α ρ) (parent : List ℕ) :
    (m.childEnded p parent).shared = m.shared := by
  unfold childEnded
  split
  · split
    · split
      · rfl
      · exact Pool.replace_shared ..
    · rfl
  · rfl

theorem step?_under_eq_none {m : Machine σ α ρ} {t : σ} (h : m.step? p = none) :
    (m.under t).step? p = none := by
  rcases hready : m.ready with - | ⟨path | parent, rest⟩
  · rcases hs : m.sleepers with - | ⟨s, rest⟩
    · simp [step?, under, hready, hs]
    · simp [step?, hready, hs] at h
  · simp [step?, hready] at h
  · simp [step?, hready] at h

end Machine

namespace Lockstep

variable {R : σ → σ → Prop} {K : σ → α → Prop}

section

variable (hp : Lockstep p R K) {I : Pool σ α ρ → Prop}
  (hI : ∀ {c d}, I c → Pool.Move p c d → I d) (hK : ∀ {c}, I c → ∀ a ∈ c.states, K c.shared a)

include hp hK

/-- A move is matched by one that leaves the same tasks. -/
theorem move {c d : Pool σ α ρ} {t : σ} (hc : I c) (h : R c.shared t) (hmove : Pool.Move p c d) :
    ∃ t', Pool.Move p (c.under t) (d.under t') ∧ R d.shared t' := by
  cases hmove with
  | @advance path a hat =>
    obtain ⟨hshared, hdirective⟩ := hp h (hK hc a (Pool.mem_states_of_live hat))
    have hmove : Pool.Move p (c.under t) ((c.under t).advance p path a) :=
      .advance ((Pool.at?_under ..).trans hat)
    rw [Pool.advance_under hdirective] at hmove
    exact ⟨_, hmove, by rwa [Pool.advance_shared]⟩
  | @rejoin path a children results hat hresults =>
    have hmove : Pool.Move p (c.under t)
        ((c.under t).replace path (.live (p.rejoin a results))) :=
      .rejoin ((Pool.at?_under ..).trans hat) hresults
    rw [Pool.replace_under] at hmove
    exact ⟨_, hmove, by rwa [Pool.replace_shared]⟩

include hI

/-- A run is matched by one that leaves the same tasks. -/
theorem reaches {c d : Pool σ α ρ} {t : σ} (hc : I c) (h : R c.shared t)
    (hreach : Pool.Reaches p (fun _ _ => False) c d) :
    ∃ t', Pool.Reaches p (fun _ _ => False) (c.under t) (d.under t') ∧ R d.shared t' ∧ I d := by
  induction hreach with
  | refl => exact ⟨t, .refl, h, hc⟩
  | tail _ hstep ih =>
    obtain ⟨t', hreach, hrelated, hd⟩ := ih
    cases hstep with
    | outside hout => exact hout.elim
    | move hmove =>
      obtain ⟨t'', hmove', hrelated'⟩ := hp.move hK hd hrelated hmove
      exact ⟨t'', hreach.tail (.move hmove'), hrelated', hI hd hmove⟩

/-- A step of a machine is matched. -/
theorem step? {m m' : Machine σ α ρ} {t : σ} (hm : I m.toPool) (h : R m.shared t)
    (hstep : m.step? p = some m') :
    ∃ t', (m.under t).step? p = some (m'.under t') ∧ R m'.shared t' ∧ I m'.toPool := by
  have hkept : I m'.toPool := by
    rcases Machine.step?_move hstep with hmove | ⟨hsame, -⟩
    · exact hI hm hmove
    · rwa [hsame]
  suffices hmatch : ∃ t', (m.under t).step? p = some (m'.under t') ∧ R m'.shared t' from
    hmatch.imp fun t' ht' => ⟨ht'.1, ht'.2, hkept⟩
  unfold Machine.step? at hstep
  rcases hready : m.ready with - | ⟨path | parent, rest⟩
  · -- nobody is ready: a sleeper wakes
    rcases hs : m.sleepers with - | ⟨s, rest⟩
    · simp [hready, hs] at hstep
    · obtain rfl : _ = m' := by simpa [hready, hs] using hstep
      exact ⟨t, by simp [Machine.step?, Machine.under, hready, hs], h⟩
  · obtain rfl : { m with ready := rest }.resume p path = m' := by simpa [hready] using hstep
    have hfront : (m.under t).step? p
        = some (({ m with ready := rest } : Machine σ α ρ).under t |>.resume p path) := by
      simp [Machine.step?, Machine.under, hready]
    rw [hfront]
    by_cases hlive : ∃ a, m.at? path = some (.live a)
    · obtain ⟨a, ha⟩ := hlive
      obtain ⟨hshared, hdirective⟩ := hp h (hK hm a (Pool.mem_states_of_live ha))
      rw [Machine.resume_under (m := { m with ready := rest }) ha hdirective]
      refine ⟨_, rfl, ?_⟩
      rw [Machine.resume_eq (m := { m with ready := rest }) ha, Machine.toPool_arrange]
      exact Pool.advance_shared (p := p) m.toPool path a ▸ hshared
    · rw [Machine.resume_of_not_live (m := { m with ready := rest }) hlive,
        Machine.resume_of_not_live]
      · exact ⟨t, rfl, h⟩
      · rintro ⟨a, ha⟩
        exact hlive ⟨a, (Pool.at?_under m.toPool t path).symm.trans ha⟩
  · obtain rfl : { m with ready := rest }.childEnded p parent = m' := by
      simpa [hready] using hstep
    refine ⟨t, ?_, ?_⟩
    · rw [← Machine.childEnded_under]
      simp [Machine.step?, Machine.under, hready]
    · rwa [Machine.childEnded_shared]

/-- However long a machine runs, it does the same and comes to an end with the same step. -/
theorem run {m : Machine σ α ρ} {t : σ} (hm : I m.toPool) (h : R m.shared t) (fuel : ℕ) :
    ∃ t', (m.under t).run p fuel = ((m.run p fuel).1.under t', (m.run p fuel).2) ∧
      R (m.run p fuel).1.shared t' := by
  induction fuel generalizing m t with
  | zero => exact ⟨t, rfl, h⟩
  | succ fuel ih =>
    rcases hstep : m.step? p with - | m'
    · have hidle : (m.under t).step? p = none := Machine.step?_under_eq_none hstep
      exact ⟨t, by simp [Machine.run, hstep, hidle], by simpa [Machine.run, hstep] using h⟩
    · obtain ⟨t', hmatch, hrelated, hkept⟩ := hp.step? hI hK hm h hstep
      obtain ⟨t'', hrun, hrelated'⟩ := ih hkept hrelated
      exact ⟨t'', by simpa [Machine.run, hstep, hmatch] using hrun,
        by simpa [Machine.run, hstep] using hrelated'⟩

end

end Lockstep

end Automation.Schedule
