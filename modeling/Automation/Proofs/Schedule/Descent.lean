/-
Automation/Proofs/Schedule/Descent.lean

Work that comes to an end.

Each task has a rank by its state and the shared state.  If a step puts tasks of
lower rank in the place of the one that took it, and raises the rank of no other
task, then the ranks of all tasks make a hydra that loses a head in every move and
grows only lower ones (`Descends.move`): there are no endless moves, in whatever
order the work is done and whatever happens outside in between
(`Descends.finitely_many`).
-/
import Mathlib.Data.Multiset.Basic
import Mathlib.Logic.Hydra
import Mathlib.Tactic.Abel
import Automation.Proofs.Schedule.Interleaving

namespace Automation.Schedule

open Relation (CutExpand TransGen ReflTransGen)

variable {σ : Type*} {α : Type*} {ρ : Type*} {β : Type*}
variable {p : Program σ α ρ} {outside : σ → σ → Prop}
variable {J : σ → Prop} {K : σ → α → Prop} {waits : α → Prop}
variable {lower : β → β → Prop} {rank : σ → α → β}

namespace Pool

/-- What each step does to ranks. -/
structure Descends (p : Program σ α ρ) (outside : σ → σ → Prop) (J : σ → Prop)
    (K : σ → α → Prop) (waits : α → Prop) (lower : β → β → Prop) (rank : σ → α → β) :
    Prop where
  wellFounded : WellFounded lower
  forks : ∀ s a b children, (p.step s a).2.task p = .waiting b children → waits b
  births : ∀ {s a}, J s → K s a → ∀ b ∈ (p.step s a).2.births p,
    lower (rank (p.step s a).1 b) (rank s a)
  others : ∀ {s a b}, J s → K s a → K s b →
    rank (p.step s a).1 b = rank s b ∨ lower (rank (p.step s a).1 b) (rank s b)
  rejoin : ∀ {s a results}, J s → K s a → waits a → results ≠ [] →
    lower (rank s (p.rejoin a results)) (rank s a)
  outside : ∀ {s s' a}, outside s s' → rank s' a = rank s a

/-- The ranks of all tasks. -/
def ranks (rank : σ → α → β) (c : Pool σ α ρ) : Multiset β := c.states.map (rank c.shared)

/-- Ranks that go down or stay go down together. -/
theorem reflTransGen_map {f g : α → β} {as : List α}
    (h : ∀ a ∈ as, f a = g a ∨ lower (f a) (g a)) :
    ReflTransGen (CutExpand lower) (as.map f : Multiset β) (as.map g) := by
  induction as with
  | nil => exact .refl
  | cons a as ih =>
    have htail := ih fun b hb => h b (List.mem_cons_of_mem _ hb)
    have hcons : ∀ (b : β) (bs : List β), ((b :: bs : List β) : Multiset β) = {b} + bs :=
      fun b bs => rfl
    rw [List.map_cons, List.map_cons, hcons, hcons]
    have hlift : ReflTransGen (CutExpand lower) ({f a} + (as.map f : Multiset β))
        ({f a} + as.map g) :=
      htail.lift _ fun s t hst => (Relation.cutExpand_add_left {f a}).mpr hst
    rcases h a List.mem_cons_self with heq | hlower
    · rw [← heq]
      exact hlift
    · refine hlift.tail ?_
      rw [add_comm, add_comm {g a}]
      exact (Relation.cutExpand_add_left _).mpr (Relation.cutExpand_singleton_singleton hlower)

/-- One of the ranks, apart from the others. -/
theorem coe_map_split (f : α → β) (before after : List α) (a : α) :
    ((before ++ a :: after).map f : Multiset β)
      = ((before ++ after).map f : Multiset β) + {f a} := by
  simp only [List.map_append, List.map_cons, ← Multiset.coe_add, ← Multiset.cons_coe,
    ← Multiset.singleton_add]
  abel

/-- A move lowers the ranks. -/
theorem Descends.move (hd : Descends p outside J K waits lower rank) {c d : Pool σ α ρ}
    (hc : Holds J K c) (hforked : c.Forked waits) (h : Move p c d) :
    TransGen (CutExpand lower) (ranks rank d) (ranks rank c) := by
  cases h with
  | @advance path a hlive =>
    obtain ⟨before, after, hs, hnew⟩ := states_advance (p := p) hlive
    have ha := hc.2 a (mem_states_of_live hlive)
    have hold : ∀ b ∈ before ++ after, rank (p.step c.shared a).1 b = rank c.shared b ∨
        lower (rank (p.step c.shared a).1 b) (rank c.shared b) := fun b hb =>
      hd.others hc.1 ha (hc.2 b (by rw [hs]; simp at hb ⊢; tauto))
    -- the other heads go down or stay, then the head of the task is cut off
    have hothers := reflTransGen_map hold
    have hcut : CutExpand lower
        (((before ++ after).map (rank c.shared) : Multiset β)
          + ((p.step c.shared a).2.births p).map (rank (p.step c.shared a).1))
        (((before ++ after).map (rank c.shared) : Multiset β) + {rank c.shared a}) := by
      refine (Relation.cutExpand_add_left _).mpr (Relation.cutExpand_singleton fun b hb => ?_)
      obtain ⟨x, hx, rfl⟩ := List.mem_map.mp (Multiset.mem_coe.mp hb)
      exact hd.births hc.1 ha x hx
    have hranks' : ranks rank (c.advance p path a)
        = ((before ++ after).map (rank (p.step c.shared a).1) : Multiset β)
          + ((p.step c.shared a).2.births p).map (rank (p.step c.shared a).1) := by
      rw [ranks, hnew, advance_shared, Directive.births]
      simp only [List.map_append, ← Multiset.coe_add]
      abel
    rw [hranks', ranks, hs, coe_map_split]
    refine TransGen.tail' ?_ hcut
    exact hothers.lift (· + _) fun s t hst => (Relation.cutExpand_add_right _).mpr hst
  | @rejoin path a children results hwait hr =>
    obtain ⟨before, after, hs, hnew⟩ := states_rejoin (p := p) hwait hr
    obtain ⟨hwaits, hchildren⟩ := hforked path a children hwait
    -- no head grows here, for the children have ended
    have hne : results ≠ [] := by
      intro hnil
      have hlength := Task.length_of_results? hr
      rw [hnil] at hlength
      exact hchildren (List.eq_nil_of_length_eq_zero hlength.symm)
    have hlower := hd.rejoin hc.1 (hc.2 a (mem_states_of_waiting hwait)) hwaits hne
    refine .single ?_
    rw [ranks, ranks, hs, hnew, replace_shared, coe_map_split, coe_map_split]
    exact (Relation.cutExpand_add_left _).mpr (Relation.cutExpand_singleton_singleton hlower)

/-- What happens outside leaves the ranks as they are. -/
theorem Descends.move_or_eq (hd : Descends p outside J K waits lower rank) {c d : Pool σ α ρ}
    (hc : Holds J K c) (hforked : c.Forked waits) (h : Step p outside c d) :
    TransGen (CutExpand lower) (ranks rank d) (ranks rank c) ∨ ranks rank d = ranks rank c := by
  cases h with
  | move hmove => exact .inl (hd.move hc hforked hmove)
  | @outside s hout =>
    have hsame : rank s = rank c.shared := funext fun a => hd.outside hout
    right
    show (c.states.map (rank s) : Multiset β) = c.states.map (rank c.shared)
    rw [hsame]

theorem Descends.wellFounded_ranks (hd : Descends p outside J K waits lower rank) :
    WellFounded (TransGen (CutExpand lower)) :=
  haveI : Std.Irrefl lower := hd.wellFounded.irrefl
  hd.wellFounded.cutExpand.transGen

/-- There are no endless moves from a pool. -/
theorem Descends.acc (hd : Descends p outside J K waits lower rank) (hk : Kept p outside J K)
    {c : Pool σ α ρ} (hc : Holds J K c) (hforked : c.Forked waits) :
    Acc (fun d c => Move p c d) c := by
  generalize hr : ranks rank c = r
  induction r using hd.wellFounded_ranks.induction generalizing c with
  | h r ih =>
    refine .intro _ fun d hmove => ?_
    exact ih (ranks rank d) (hr ▸ hd.move hc hforked hmove) (hk.move hc hmove)
      (hforked.move hd.forks hmove) rfl

/-- No run makes moves without end, whatever happens outside in between. -/
theorem Descends.finitely_many (hd : Descends p outside J K waits lower rank)
    (hk : Kept p outside J K) {run : ℕ → Pool σ α ρ} (hc : Holds J K (run 0))
    (hforked : (run 0).Forked waits) (hsteps : ∀ i, Step p outside (run i) (run (i + 1))) :
    ∃ last, ∀ i ≥ last, ¬ Move p (run i) (run (i + 1)) := by
  have hall : ∀ i, Holds J K (run i) ∧ (run i).Forked waits := by
    intro i
    induction i with
    | zero => exact ⟨hc, hforked⟩
    | succ i ih => exact ⟨hk.step ih.1 (hsteps i), ih.2.step hd.forks (hsteps i)⟩
  have hstays : ∀ first n,
      ReflTransGen (CutExpand lower) (ranks rank (run (first + n))) (ranks rank (run first)) := by
    intro first n
    induction n with
    | zero => exact .refl
    | succ n ih =>
      rcases hd.move_or_eq (hall _).1 (hall _).2 (hsteps (first + n)) with hlower | heq
      · exact hlower.to_reflTransGen.trans ih
      · rw [Nat.add_succ, heq]
        exact ih
  -- by induction on the ranks: after one more move they are lower
  suffices h : ∀ r, ∀ first, ranks rank (run first) = r →
      ∃ last, ∀ i ≥ last, ¬ Move p (run i) (run (i + 1)) from h _ 0 rfl
  intro r
  induction r using hd.wellFounded_ranks.induction with
  | h r ih =>
    intro first hfirst
    by_cases hmore : ∃ n, Move p (run (first + n)) (run (first + n + 1))
    · obtain ⟨n, hmove⟩ := hmore
      have hlower := hd.move (hall _).1 (hall _).2 hmove
      exact ih _ (hfirst ▸ hlower.trans_left (hstays first n)) (first + n + 1) rfl
    · refine ⟨first, fun i hi hmove => hmore ⟨i - first, ?_⟩⟩
      rw [Nat.add_sub_cancel' hi]
      exact hmove

end Pool

end Automation.Schedule
