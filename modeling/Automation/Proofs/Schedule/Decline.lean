/-
Automation/Proofs/Schedule/Decline.lean

Work that comes to an end, by what is in a pool.

A task that has waited may go on in the state that it has waited in; then nothing that is
read off its state can tell that it has come further.  Here not only states have ranks but
all that is in a pool has, by its place: live tasks, tasks that wait, and results.  If a
step puts what is lower in the place of the task that took it, and a task that returns to
work is lower than when it waited, then all ranks decline together (`Declines.move`), and
there are no endless moves (`Declines.acc`).
-/
import Automation.Proofs.Schedule.Descent
import Automation.Proofs.Schedule.Place

namespace Automation.Schedule.Pool

open Relation (CutExpand TransGen ReflTransGen)

variable {σ : Type*} {α : Type*} {ρ : Type*} {ι : Type*} {β : Type*}
variable {p : Program σ α ρ} {outside : σ → σ → Prop} {inside : ι → α → ℕ → ι} {origin : ι}
variable {J : σ → Prop} {K : σ → ι → Occupant α ρ → Prop}
variable {lower : β → β → Prop} {rank : ι → Occupant α ρ → β}

/-- What each step does to the ranks of all that is in a pool. -/
structure Declines (p : Program σ α ρ) (inside : ι → α → ℕ → ι) (origin : ι) (J : σ → Prop)
    (K : σ → ι → Occupant α ρ → Prop) (lower : β → β → Prop) (rank : ι → Occupant α ρ → β) :
    Prop where
  wellFounded : WellFounded lower
  births : ∀ {s q a}, J s → K s q (.live a) →
    ∀ x ∈ (p.step s a).2.placed p inside origin q, lower (rank x.1 x.2) (rank q (.live a))
  rejoin : ∀ {s q a results}, J s → K s q (.waiting a) → results ≠ [] →
    (∀ (k : ℕ) r, results[k]? = some r → K s (inside q a k) (.ended r)) →
    lower (rank q (.live (p.rejoin a results))) (rank q (.waiting a))

/-- The ranks of all that is in a pool. -/
def ranksAt (inside : ι → α → ℕ → ι) (origin : ι) (rank : ι → Occupant α ρ → β)
    (c : Pool σ α ρ) : Multiset β :=
  (c.placed inside origin).map fun x => rank x.1 x.2

/-- Leaving ranks out lowers the rest, or leaves it as it is. -/
theorem reflTransGen_add (lower : β → β → Prop) (kept left : Multiset β) :
    ReflTransGen (CutExpand lower) kept (kept + left) := by
  induction left using Multiset.induction with
  | empty => rw [add_zero]
  | cons b left ih =>
    refine ih.tail ⟨0, b, fun _ h => absurd h (Multiset.notMem_zero _), ?_⟩
    rw [add_zero, ← Multiset.singleton_add]
    abel

/-- A move lowers the ranks. -/
theorem Declines.move (hd : Declines p inside origin J K lower rank) {c d : Pool σ α ρ}
    (hc : HoldsAt inside origin J K c) (hforked : c.Forked fun _ => True) (h : Move p c d) :
    TransGen (CutExpand lower) (ranksAt inside origin rank d) (ranksAt inside origin rank c) := by
  obtain ⟨hJ, hK⟩ := hc
  cases h with
  | @advance path a hlive =>
    obtain ⟨q, before, after, hs, hnew⟩ := exists_placed_advance p inside origin hlive
    have ha : K c.shared q (.live a) := hK (q, .live a) (by simp [hs])
    have hcut : CutExpand lower
        (((before ++ after).map fun x => rank x.1 x.2 : Multiset β)
          + ((p.step c.shared a).2.placed p inside origin q).map fun x => rank x.1 x.2)
        (((before ++ after).map fun x => rank x.1 x.2 : Multiset β) + {rank q (.live a)}) := by
      refine (Relation.cutExpand_add_left _).mpr (Relation.cutExpand_singleton fun b hb => ?_)
      obtain ⟨x, hx, rfl⟩ := List.mem_map.mp (Multiset.mem_coe.mp hb)
      exact hd.births hJ ha x hx
    have hranks : ranksAt inside origin rank (c.advance p path a)
        = ((before ++ after).map fun x => rank x.1 x.2 : Multiset β)
          + ((p.step c.shared a).2.placed p inside origin q).map fun x => rank x.1 x.2 := by
      rw [ranksAt, hnew, Directive.placed]
      simp only [List.map_append, ← Multiset.coe_add]
      abel
    rw [hranks, ranksAt, hs, coe_map_split]
    exact .single hcut
  | @rejoin path a children results hwait hr =>
    obtain ⟨q, before, after, hs, hnew⟩ := exists_place inside origin hwait
    have hresults := fun x => Task.placedAll_of_results? inside hr (inside q a) 0 (x := x)
    rw [Task.placed_waiting] at hs
    have hne : results ≠ [] := by
      intro hnil
      have hlength := Task.length_of_results? hr
      rw [hnil] at hlength
      exact (hforked path a children hwait).2 (List.eq_nil_of_length_eq_zero hlength.symm)
    have hlower := hd.rejoin hJ (hK (q, .waiting a) (by simp [hs])) hne fun k r hk =>
      hK (inside q a k, .ended r) (by
        rw [hs]
        have hmem := (hresults (inside q a k, .ended r)).mpr ⟨k, r, hk, by rw [Nat.zero_add]⟩
        simp [hmem])
    -- the results of the children are left out
    have hold : ranksAt inside origin rank c
        = ((before ++ after).map fun x => rank x.1 x.2 : Multiset β) + {rank q (.waiting a)}
          + (Task.placedAll inside children (inside q a) 0).map fun x => rank x.1 x.2 := by
      rw [ranksAt, hs]
      simp only [List.map_append, List.map_cons, ← Multiset.coe_add, ← Multiset.cons_coe,
        ← Multiset.singleton_add]
      abel
    have hranks : ranksAt inside origin rank (c.replace path (.live (p.rejoin a results)))
        = ((before ++ after).map fun x => rank x.1 x.2 : Multiset β)
          + {rank q (.live (p.rejoin a results))} := by
      rw [ranksAt, hnew, Task.placed_live, List.append_assoc, List.singleton_append, coe_map_split]
    rw [hold, hranks]
    refine TransGen.trans_left (.single ?_) (reflTransGen_add lower _ _)
    exact (Relation.cutExpand_add_left _).mpr (Relation.cutExpand_singleton_singleton hlower)

/-- There are no endless moves from a pool. -/
theorem Declines.acc (hd : Declines p inside origin J K lower rank)
    (hk : KeptAt p outside inside origin J K) {c : Pool σ α ρ}
    (hc : HoldsAt inside origin J K c) (hforked : c.Forked fun _ => True) :
    Acc (fun d c => Move p c d) c := by
  have : Std.Irrefl lower := hd.wellFounded.irrefl
  generalize hr : ranksAt inside origin rank c = r
  induction r using hd.wellFounded.cutExpand.transGen.induction generalizing c with
  | h r ih =>
    refine .intro _ fun d hmove => ?_
    exact ih (ranksAt inside origin rank d) (hr ▸ hd.move hc hforked hmove)
      (hk.step hc (.move hmove)) (hforked.move (fun _ _ _ _ _ => trivial) hmove) rfl

end Automation.Schedule.Pool
