/-
Automation/Proofs/Schedule/Account.lean

What the tasks of a pool owe.

That nothing is forgotten is a fact about all tasks together: whatever falls due
is settled in the shared state, or some task still owes it (`Covered`).  It is
proved from single steps.  A task that owes something settles it or hands it on to
the tasks that come of it, what falls due anew is owed at once, and what is no longer
settled is owed again (`Honoured`).
Once all tasks have ended nobody owes anything, so all that was due is settled
(`Covered.of_isOver`).

That nothing is done twice is a fact of the same kind with numbers for debts: what
a step takes off the tasks it puts in the books (`Balanced`).
-/
import Mathlib.Algebra.BigOperators.Group.List.Basic
import Mathlib.Algebra.GroupWithZero.Nat
import Automation.Proofs.Schedule.Interleaving

namespace Automation.Schedule

variable {σ : Type*} {α : Type*} {ρ : Type*} {ι : Type*}
variable {p : Program σ α ρ} {outside : σ → σ → Prop}
variable {J : σ → Prop} {K : σ → α → Prop}

namespace Pool

/-! ### Debts -/

section Debts

variable {settled due : σ → ι → Prop} {owes vouches : α → ι → Prop}

/-- Something is settled, or a task owes it. -/
def Covered (settled : σ → ι → Prop) (owes : α → ι → Prop) (c : Pool σ α ρ) (i : ι) : Prop :=
  settled c.shared i ∨ ∃ a ∈ c.states, owes a i

/-- All that is due by the shared state, or that a task vouches for, is settled or
owed. -/
def Solvent (due settled : σ → ι → Prop) (vouches owes : α → ι → Prop) (c : Pool σ α ρ) : Prop :=
  ∀ i, (due c.shared i ∨ ∃ a ∈ c.states, vouches a i) → Covered settled owes c i

/-- What each step keeps about debts. -/
structure Honoured (p : Program σ α ρ) (outside : σ → σ → Prop) (J : σ → Prop)
    (K : σ → α → Prop) (due settled : σ → ι → Prop) (vouches owes : α → ι → Prop) : Prop where
  keeps : ∀ {s a i}, J s → K s a → settled s i →
    settled (p.step s a).1 i ∨ ∃ b ∈ (p.step s a).2.births p, owes b i
  handed : ∀ {s a i}, J s → K s a → owes a i →
    settled (p.step s a).1 i ∨ ∃ b ∈ (p.step s a).2.births p, owes b i
  fresh : ∀ {s a i}, J s → K s a → due (p.step s a).1 i →
    due s i ∨ settled (p.step s a).1 i ∨ ∃ b ∈ (p.step s a).2.births p, owes b i
  vouched : ∀ {s a i}, J s → K s a → ∀ b ∈ (p.step s a).2.births p, vouches b i →
    vouches a i ∨ settled (p.step s a).1 i ∨ ∃ b ∈ (p.step s a).2.births p, owes b i
  rejoinOwes : ∀ {a i} results, owes a i → owes (p.rejoin a results) i
  rejoinVouches : ∀ {a i} results, vouches (p.rejoin a results) i → vouches a i
  outside : ∀ {s s' i}, outside s s' → (settled s i → settled s' i) ∧ (due s' i → due s i)

/-- What is settled or owed stays so. -/
theorem Honoured.covered_step (hh : Honoured p outside J K due settled vouches owes)
    {c d : Pool σ α ρ} (hc : Holds J K c) (hstep : Step p outside c d) {i : ι}
    (h : Covered settled owes c i) : Covered settled owes d i := by
  cases hstep with
  | outside hout =>
    rcases h with h | howes
    · exact .inl ((hh.outside hout).1 h)
    · exact .inr howes
  | move hmove =>
    unfold Covered
    cases hmove with
    | @advance path a hlive =>
      have ha := hc.2 a (mem_states_of_live hlive)
      rw [advance_shared]
      have hcovered : (settled (p.step c.shared a).1 i ∨
          ∃ b ∈ (p.step c.shared a).2.births p, owes b i) →
          settled (p.step c.shared a).1 i ∨ ∃ b ∈ (c.advance p path a).states, owes b i := by
        rintro (h | ⟨b, hb, howes⟩)
        · exact .inl h
        · exact .inr ⟨b, births_subset hlive hb, howes⟩
      rcases h with h | ⟨b, hb, howes⟩
      · exact hcovered (hh.keeps hc.1 ha h)
      rcases mem_advance_of_mem (p := p) hlive hb with rfl | hstays
      · -- the task that takes the step is the one that owes
        exact hcovered (hh.handed hc.1 ha howes)
      · exact .inr ⟨b, hstays, howes⟩
    | @rejoin path a children results hwait hr =>
      rw [replace_shared]
      obtain ⟨-, -, hback⟩ := mem_rejoin (p := p) (b := a) hwait hr
      rcases h with h | ⟨b, hb, howes⟩
      · exact .inl h
      rcases (mem_rejoin (p := p) hwait hr).2.1 hb with rfl | hstays
      · exact .inr ⟨_, hback, hh.rejoinOwes results howes⟩
      · exact .inr ⟨b, hstays, howes⟩

/-- What falls due in a step was due before, or is settled or owed at once. -/
theorem Honoured.due_step (hh : Honoured p outside J K due settled vouches owes)
    {c d : Pool σ α ρ} (hc : Holds J K c) (hstep : Step p outside c d) {i : ι}
    (hdue : due d.shared i ∨ ∃ a ∈ d.states, vouches a i) :
    (due c.shared i ∨ ∃ a ∈ c.states, vouches a i) ∨ Covered settled owes d i := by
  cases hstep with
  | outside hout =>
    rcases hdue with hdue | hvouched
    · exact .inl (.inl ((hh.outside hout).2 hdue))
    · exact .inl (.inr hvouched)
  | move hmove =>
    cases hmove with
    | @advance path a hlive =>
      have ha := hc.2 a (mem_states_of_live hlive)
      have hcovered : (settled (p.step c.shared a).1 i ∨
          ∃ b ∈ (p.step c.shared a).2.births p, owes b i) →
          Covered settled owes (c.advance p path a) i := by
        intro h
        unfold Covered
        rw [advance_shared]
        rcases h with h | ⟨b, hb, howes⟩
        · exact .inl h
        · exact .inr ⟨b, births_subset hlive hb, howes⟩
      rw [advance_shared] at hdue
      rcases hdue with hdue | ⟨b, hb, hvouches⟩
      · rcases hh.fresh hc.1 ha hdue with hold | hpaid
        · exact .inl (.inl hold)
        · exact .inr (hcovered hpaid)
      rcases mem_of_mem_advance hlive hb with hbirth | hold
      · rcases hh.vouched hc.1 ha b hbirth hvouches with hold | hpaid
        · exact .inl (.inr ⟨a, mem_states_of_live hlive, hold⟩)
        · exact .inr (hcovered hpaid)
      · exact .inl (.inr ⟨b, hold, hvouches⟩)
    | @rejoin path a children results hwait hr =>
      rw [replace_shared] at hdue
      rcases hdue with hdue | ⟨b, hb, hvouches⟩
      · exact .inl (.inl hdue)
      rcases (mem_rejoin hwait hr).1 hb with rfl | hold
      · exact .inl (.inr ⟨a, mem_states_of_waiting hwait, hh.rejoinVouches results hvouches⟩)
      · exact .inl (.inr ⟨b, hold, hvouches⟩)

/-- A run keeps what is settled or owed. -/
theorem Honoured.covered_reaches (hh : Honoured p outside J K due settled vouches owes)
    (hk : Kept p outside J K) {c d : Pool σ α ρ} (hc : Holds J K c) (h : Reaches p outside c d)
    {i : ι} (hi : Covered settled owes c i) : Covered settled owes d i := by
  induction h with
  | refl => exact hi
  | tail hreach hstep ih => exact hh.covered_step (hk.reaches hc hreach) hstep ih

/-- A run keeps a pool solvent. -/
theorem Honoured.solvent_reaches (hh : Honoured p outside J K due settled vouches owes)
    (hk : Kept p outside J K) {c d : Pool σ α ρ} (hc : Holds J K c) (h : Reaches p outside c d)
    (hi : Solvent due settled vouches owes c) : Solvent due settled vouches owes d := by
  induction h with
  | refl => exact hi
  | tail hreach hstep ih =>
    intro i hdue
    have hmid := hk.reaches hc hreach
    rcases hh.due_step hmid hstep hdue with hold | hcovered
    · exact hh.covered_step hmid hstep (ih i hold)
    · exact hcovered

/-- Once all tasks have ended, what was settled or owed is settled. -/
theorem Covered.of_isOver {c : Pool σ α ρ} (hover : c.IsOver) {i : ι}
    (h : Covered settled owes c i) : settled c.shared i := by
  rcases h with h | ⟨a, ha, -⟩
  · exact h
  · rw [hover.states_eq_nil] at ha
    cases ha

end Debts

/-! ### Books -/

section Books

variable {entered : σ → ℕ} {raised : σ → ℕ} {weight : α → ℕ}

/-- What each step keeps about numbers: what it takes off the tasks or raises, it
enters in the books or leaves to the tasks that come of it. -/
structure Balanced (p : Program σ α ρ) (outside : σ → σ → Prop) (J : σ → Prop)
    (K : σ → α → Prop) (entered raised : σ → ℕ) (weight : α → ℕ) : Prop where
  step : ∀ {s a}, J s → K s a →
    entered (p.step s a).1 + (((p.step s a).2.births p).map weight).sum + raised s
      = entered s + weight a + raised (p.step s a).1
  rejoin : ∀ {a} results, weight (p.rejoin a results) = weight a
  outside : ∀ {s s'}, outside s s' → entered s' = entered s ∧ raised s' = raised s

/-- The books are balanced: what was raised is entered or lies with the tasks. -/
def InBalance (entered raised : σ → ℕ) (weight : α → ℕ) (c : Pool σ α ρ) : Prop :=
  entered c.shared + (c.states.map weight).sum = raised c.shared

theorem Balanced.step_inBalance (hb : Balanced p outside J K entered raised weight)
    {c d : Pool σ α ρ} (hc : Holds J K c) (hstep : Step p outside c d)
    (h : InBalance entered raised weight c) : InBalance entered raised weight d := by
  unfold InBalance at h ⊢
  cases hstep with
  | outside hout =>
    obtain ⟨hentered, hraised⟩ := hb.outside hout
    show entered _ + _ = raised _
    rw [hentered, hraised]
    exact h
  | move hmove =>
    cases hmove with
    | @advance path a hlive =>
      obtain ⟨before, after, hs, hnew⟩ := states_advance (p := p) hlive
      have hstep := hb.step hc.1 (hc.2 a (by simp [hs]))
      rw [advance_shared, hnew]
      rw [hs] at h
      simp only [Directive.births, List.map_append, List.map_cons, List.sum_append,
        List.sum_cons] at h hstep ⊢
      omega
    | @rejoin path a children results hwait hr =>
      obtain ⟨before, after, hs, hnew⟩ := states_rejoin (p := p) hwait hr
      rw [replace_shared, hnew]
      rw [hs] at h
      simp only [List.map_append, List.map_cons, List.sum_append, List.sum_cons,
        hb.rejoin results] at h ⊢
      exact h

/-- A run keeps the books balanced. -/
theorem Balanced.reaches (hb : Balanced p outside J K entered raised weight)
    (hk : Kept p outside J K) {c d : Pool σ α ρ} (hc : Holds J K c) (h : Reaches p outside c d)
    (hi : InBalance entered raised weight c) : InBalance entered raised weight d := by
  induction h with
  | refl => exact hi
  | tail hreach hstep ih => exact hb.step_inBalance (hk.reaches hc hreach) hstep ih

end Books

end Pool

end Automation.Schedule
