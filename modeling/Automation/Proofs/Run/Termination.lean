/-
Automation/Proofs/Run/Termination.lean

Every run comes to an end.

Nothing looks for cycles in a flow.  A branch that goes on in its scope takes a node
there, and there are finitely many; an iteration has a fresh scope, but one loop of
the flow more around it; a loop has finitely many iterations; and between two
of these a branch only goes through an action, which is a tree of finite depth.
So a branch has a rank (`rank`), lexicographic in the loops that are not around
it, the nodes not yet taken in its scope, and what it is about (`Phase`), and each
deed puts branches of lower rank in its place (`Deed.lower`).  Forks make many
branches of one, all of lower rank, so the ranks of all branches descend together
(`ranks_descend`).
-/
import Mathlib.Data.Finset.Card
import Mathlib.Data.List.Perm.Subperm
import Mathlib.Data.Sum.Order
import Automation.Proofs.Run.Coverage
import Automation.Proofs.Schedule.Descent

namespace Automation.Run

open Automation.Schedule (Pool Task)

variable {setup : Setup}

/-! ### What a branch is about -/

/-- One activity comes out of another in one step. -/
inductive Shrinks : Activity → Activity → Prop
  | goesOn {a next} : Continues a next → Shrinks next a
  | cancels {next} : Shrinks next (.cancelRun next)
  | oversleeps {seconds next} (fault) : Shrinks (.fail fault) (.sleep seconds next)

theorem acc_finish (outcome : Except Fault Value) : Acc Shrinks (.finish outcome) := by
  refine .intro _ fun b h => ?_
  cases h with
  | goesOn h => cases h

/-- Activities are trees of finite depth. -/
theorem wellFounded_shrinks : WellFounded Shrinks := by
  refine ⟨fun a => ?_⟩
  induction a with
  | finish outcome => exact acc_finish outcome
  | sleep seconds next ih =>
    refine .intro _ fun b h => ?_
    cases h with
    | goesOn h => cases h; exact ih
    | oversleeps fault => exact acc_finish _
  | cancelRun next ih =>
    refine .intro _ fun b h => ?_
    cases h with
    | goesOn h => cases h
    | cancels => exact ih
  | pause next ih | askSecrets _ next ih | note _ next ih =>
    refine .intro _ fun b h => ?_
    cases h with
    | goesOn h => cases h; exact ih
  | send _ next ih | publish _ next ih =>
    -- whatever the answer is, the activity goes on with the subtree for it
    refine .intro _ fun b h => ?_
    cases h with
    | goesOn h => cases h; exact ih _

/-- What a branch is about: on its way, at an action, or in a loop with some
iterations left and a stage between them. -/
abbrev Phase := ℕ ⊕ Activity ⊕ ℕ × ℕ

/-- A phase that comes after another one. -/
def Phase.Later : Phase → Phase → Prop :=
  Sum.Lex (· < ·) (Sum.Lex Shrinks (Prod.Lex (· < ·) (· < ·)))

/-- The loops of the flow that are not around a scope. -/
def loopsOutside (setup : Setup) (scope : Scope) : Finset String :=
  ((setup.graph.nodes.filter Node.isLoop).map Node.id).toFinset.filter
    fun id => id ∉ scope.map (·.1)

/-- The nodes of the flow that were not taken in a scope. -/
def unclaimed (setup : Setup) (j : Journal) (scope : Scope) : Finset String :=
  (setup.graph.nodes.map Node.id).toFinset.filter fun id => j.hasClaimed scope id = false

/-- What descends in a run. -/
abbrev Rank := ℕ × ℕ × Phase

def Lower : Rank → Rank → Prop := Prod.Lex (· < ·) (Prod.Lex (· < ·) Phase.Later)

theorem wellFounded_lower : WellFounded Lower := by
  have hlt : WellFounded (fun m n : ℕ => m < n) := wellFounded_lt
  exact hlt.prod_lex (hlt.prod_lex (Sum.lex_wf hlt (Sum.lex_wf wellFounded_shrinks
    (hlt.prod_lex hlt))))

/-- The rank of a branch in a scope. -/
def level (setup : Setup) (j : Journal) (scope : Scope) (phase : Phase) : Rank :=
  ((loopsOutside setup scope).card, (unclaimed setup j scope).card, phase)

/-- The iterations of a loop that are left. -/
def iterationsLeft (course : Loop.Course) : ℕ := course.plan.count - course.next

/-- The rank of a branch. -/
def rank (setup : Setup) (j : Journal) : Strand → Rank
  | .close _ => (0, 0, .inl 0)
  | .merge _ => (0, 0, .inl 1)
  | .visit _ b => level setup j b.view.scope (.inl 2)
  | .follow _ b => level setup j b.view.scope (.inl 3)
  | .act _ a b => level setup j b.view.scope (.inr (.inl a))
  | .gather _ course b => level setup j b.view.scope (.inr (.inr (iterationsLeft course, 0)))
  | .turn _ course b => level setup j b.view.scope (.inr (.inr (iterationsLeft course, 1)))
  | .settle _ course _ b => level setup j b.view.scope (.inr (.inr (iterationsLeft course, 2)))

/-! ### What lowers a rank -/

theorem unclaimed_subset (setup : Setup) (j : Journal) (events : List Event) (scope : Scope) :
    unclaimed setup (j.adding events) scope ⊆ unclaimed setup j scope := by
  intro id hid
  simp only [unclaimed, Finset.mem_filter] at hid ⊢
  refine ⟨hid.1, ?_⟩
  by_contra hclaimed
  have hlater : (j.adding events).hasClaimed scope id = true := by
    rw [Journal.hasClaimed_iff, Journal.mem_adding]
    exact .inr (Journal.hasClaimed_iff.mp (by simpa using hclaimed))
  rw [hlater] at hid
  cases hid.2

/-- A later phase in the same scope, whatever was taken meanwhile. -/
theorem lower_of_later {j : Journal} {scope : Scope} {phase phase' : Phase}
    (h : Phase.Later phase' phase) (events : List Event) :
    Lower (level setup (j.adding events) scope phase') (level setup j scope phase) := by
  -- if a node was taken meanwhile the second place is lower, else the third decides
  have hle := Finset.card_le_card (unclaimed_subset setup j events scope)
  refine Prod.Lex.right _ ?_
  rcases hle.lt_or_eq with hlt | heq
  · exact Prod.Lex.left _ _ hlt
  · rw [heq]
    exact Prod.Lex.right _ h

/-- The same phase in the same scope, whatever was taken meanwhile. -/
theorem eq_or_lower (j : Journal) (events : List Event) (scope : Scope) (phase : Phase) :
    level setup (j.adding events) scope phase = level setup j scope phase ∨
      Lower (level setup (j.adding events) scope phase) (level setup j scope phase) := by
  have hle := Finset.card_le_card (unclaimed_subset setup j events scope)
  rcases hle.lt_or_eq with hlt | heq
  · exact .inr (Prod.Lex.right _ (Prod.Lex.left _ _ hlt))
  · exact .inl (by rw [level, level, heq])

/-- Taking a node lowers the rank, whatever the branch is about then. -/
theorem Takes.lower {j : Journal} {id : String} {b : Branch} {n : Node}
    (h : Takes setup j id b n) {events : List Event}
    (hmem : .claimed b.view.scope id ∈ events) (phase phase' : Phase) :
    Lower (level setup (j.adding events) b.view.scope phase') (level setup j b.view.scope phase) := by
  obtain rfl := Graph.id_of_node? h.node
  refine Prod.Lex.right _ (Prod.Lex.left _ _ (Finset.card_lt_card ?_))
  refine Finset.ssubset_iff_of_subset (unclaimed_subset setup j events b.view.scope) |>.mpr
    ⟨n.id, ?_, ?_⟩
  · have hnode : n ∈ setup.graph.nodes := List.mem_of_find?_eq_some h.node
    simp only [unclaimed, Finset.mem_filter, List.mem_toFinset]
    exact ⟨List.mem_map_of_mem hnode, h.claimed⟩
  · have hclaimed : (j.adding events).hasClaimed b.view.scope n.id = true :=
      Journal.hasClaimed_iff.mpr (by simp [hmem])
    simp [unclaimed, hclaimed]

/-- Entering an iteration lowers the rank: one loop more is around. -/
theorem Looping.lower {j : Journal} {scope : Scope} {n : Node} {course : Loop.Course}
    (h : Looping setup j scope n course) (index : Int) (k : Journal) (phase phase' : Phase) :
    Lower (level setup k (scope ++ [(n.id, index)]) phase') (level setup j scope phase) := by
  -- the scope is fresh, but in the first place of the rank one loop less is outside
  refine Prod.Lex.left _ _ (Finset.card_lt_card ?_)
  have hsub : loopsOutside setup (scope ++ [(n.id, index)]) ⊆ loopsOutside setup scope := by
    intro id hid
    simp only [loopsOutside, Finset.mem_filter, List.map_append, List.mem_append, not_or] at hid ⊢
    exact ⟨hid.1, hid.2.1⟩
  refine Finset.ssubset_iff_of_subset hsub |>.mpr ⟨n.id, ?_, ?_⟩
  · have hnode : n ∈ setup.graph.nodes := List.mem_of_find?_eq_some h.node
    simp only [loopsOutside, Finset.mem_filter, List.mem_toFinset]
    exact ⟨List.mem_map_of_mem (List.mem_filter.mpr ⟨hnode, h.loop⟩), h.outside⟩
  · simp [loopsOutside]

/-- A branch without a scope is lower than one on its way. -/
theorem lower_of_small {j : Journal} {scope : Scope} {small large : ℕ} (h : small < large) :
    Lower (0, 0, .inl small) (level setup j scope (.inl large)) := by
  have hphase : Phase.Later (.inl small) (.inl large) := Sum.Lex.inl h
  rcases (loopsOutside setup scope).card.eq_zero_or_pos with hloops | hloops
  · rcases (unclaimed setup j scope).card.eq_zero_or_pos with hnodes | hnodes
    · rw [level, hloops, hnodes]
      exact Prod.Lex.right _ (Prod.Lex.right _ hphase)
    · rw [level, hloops]
      exact Prod.Lex.right _ (Prod.Lex.left _ _ hnodes)
  · exact Prod.Lex.left _ _ hloops

/-! ### What the deeds do to ranks -/

theorem Opening.lower {j : Journal} {id : String} {n : Node} {b : Branch} {opening : List Event}
    {next : Strand} (h : Opening setup n b opening next) (htakes : Takes setup j id b n)
    {events : List Event} (hmem : .claimed b.view.scope id ∈ events) :
    Lower (rank setup (j.adding events) next) (rank setup j (.visit id b)) := by
  cases h <;> exact htakes.lower hmem _ _

/-- A deed puts branches of lower rank in the place of one. -/
theorem Deed.lower {j : Journal} {a : Strand} {events : List Event} {task : Task Strand Report}
    (h : Deed setup j a events task) (ha : Grounded setup j a) :
    ∀ b ∈ task.states, Lower (rank setup (j.adding events) b) (rank setup j a) := by
  intro b hb
  cases h with
  | turnBack | repeated | abort | stop | merge | close => cases hb
  | pass htakes =>
    obtain rfl := List.mem_singleton.mp hb
    exact htakes.lower (by simp) _ _
  | start htakes _ hopening =>
    obtain rfl := List.mem_singleton.mp hb
    exact hopening.lower htakes (by simp)
  | work hnext =>
    obtain rfl := List.mem_singleton.mp hb
    exact lower_of_later (.inr (.inl (.goesOn hnext))) _
  | cancel =>
    obtain rfl := List.mem_singleton.mp hb
    exact lower_of_later (.inr (.inl .cancels)) _
  | oversleep fault =>
    obtain rfl := List.mem_singleton.mp hb
    exact lower_of_later (.inr (.inl (.oversleeps fault))) _
  | leave =>
    obtain rfl := List.mem_singleton.mp hb
    exact lower_of_later (.sep _ _) _
  | wind | idle | conclude | overrest =>
    obtain rfl := List.mem_singleton.mp hb
    exact lower_of_later (.inr (.sep _ _)) _
  | again =>
    obtain rfl := List.mem_singleton.mp hb
    exact lower_of_later (.inr (.inr (.right _ (by decide)))) _
  | @batch n course branch count hmove hpos hle =>
    rcases Task.mem_states_forked.mp hb with rfl | ⟨i, -, rfl⟩
    · exact lower_of_later (.inr (.inr (.right _ (by decide)))) _
    · show Lower (level setup _ (course.plan.enter branch.view i).scope _) _
      rw [ha.scope_enter]
      exact Looping.lower ha i _ _ _
  | go =>
    obtain rfl := List.mem_singleton.mp hb
    exact lower_of_later (.inl (by decide)) _
  | fan =>
    rcases Task.mem_states_forked.mp hb with rfl | ⟨target, -, rfl⟩
    · exact lower_of_small (by decide)
    · exact lower_of_later (.inl (by decide)) _

/-- What other branches do leaves the rank of a branch as it is or lowers it. -/
theorem rank_adding (j : Journal) (events : List Event) (a : Strand) :
    rank setup (j.adding events) a = rank setup j a ∨
      Lower (rank setup (j.adding events) a) (rank setup j a) := by
  cases a with
  | merge report => exact .inl rfl
  | close report => exact .inl rfl
  | _ => exact eq_or_lower j events _ _

/-- A branch that has waited goes on with a lower rank: a batch has at least one
iteration. -/
theorem rank_rejoin {j : Journal} {a : Strand} (ha : Grounded setup j a) (hwaits : Waits a)
    {reports : List Report} (hne : reports ≠ []) :
    Lower (rank setup j (rejoin a reports)) (rank setup j a) := by
  cases a with
  | merge report => exact Prod.Lex.right _ (Prod.Lex.right _ (.inl (by decide)))
  | gather n course b =>
    -- every iteration of the batch has reported, so the loop stands further on
    have hpos := List.length_pos_of_ne_nil hne
    have hleft : iterationsLeft (course.absorb (reports.map Report.toLap))
        < iterationsLeft course := by
      have hnext : course.next < course.plan.count := ha.2
      simp only [iterationsLeft, Loop.Course.absorb, List.length_map]
      omega
    exact lower_of_later (.inr (.inr (.left _ _ hleft))) []
  | _ => exact hwaits.elim

/-- Branches are left waiting only so. -/
theorem waits_of_task {s : State} {a b : Strand} {children : List (Task Strand Report)}
    (h : (step setup s a).2.task (program setup) = .waiting b children) : Waits b := by
  obtain ⟨events, hdeed, -, -⟩ := exists_deed setup s a
  rw [h] at hdeed
  cases hdeed <;> trivial

/-- The ranks of all branches of a run descend. -/
theorem ranks_descend (setup : Setup) : Pool.Descends (program setup) Disturbs
    (fun s => s.journal.Always (Fits setup)) (fun s a => Grounded setup s.journal a)
    Waits Lower (fun s => rank setup s.journal) where
  wellFounded := wellFounded_lower
  forks s a b children h := waits_of_task h
  births {s a} _ ha b hb := by
    obtain ⟨events, task, hdeed, hj, hbirths⟩ := exists_deed_births setup s a
    rw [hbirths] at hb
    rw [hj]
    exact hdeed.lower ha b hb
  others {s a b} _ _ _ := by
    obtain ⟨events, task, -, hj, -⟩ := exists_deed_births setup s a
    rw [hj]
    exact rank_adding s.journal events b
  rejoin _ ha hwaits hne := rank_rejoin ha hwaits hne
  outside {s s' a} hout := by
    rcases hout with hj | hj
    · rw [hj]
    · -- cancelling a run takes no node
      have hsame : ∀ scope, unclaimed setup (s.journal.adding [.cancelled]) scope
          = unclaimed setup s.journal scope := fun scope => rfl
      rw [hj]
      cases a <;> simp only [rank, level, hsame]

/-! ### The end of every run -/

/-- A run has one root. -/
theorem exists_root {given : Given} {world : World} {c : Pool State Strand Report}
    (h : Reaches setup (opening setup given world) c) : ∃ root, c.tasks = [root] := by
  induction h with
  | refl => exact ⟨_, rfl⟩
  | @tail c d _ hstep ih =>
    rw [← List.length_eq_one_iff] at ih ⊢
    cases hstep with
    | outside => exact ih
    | move hmove =>
      cases hmove with
      | @advance path a hlive =>
        obtain ⟨events, -, -, hroots⟩ := exists_deed setup c.shared a
        obtain ⟨i, rest, t, rfl, -, -⟩ := Pool.at?_eq_some hlive
        have htasks : (c.advance (program setup) (i :: rest) a).tasks
            = c.tasks.modify i (fun t => t.replace rest
                ((step setup c.shared a).2.task (program setup)))
              ++ (step setup c.shared a).2.roots := rfl
        rw [htasks, hroots, List.append_nil, List.length_modify, ih]
      | @rejoin path a children results hwait _ =>
        obtain ⟨i, rest, t, rfl, -, -⟩ := Pool.at?_eq_some hwait
        have htasks : (c.replace (i :: rest) (.live ((program setup).rejoin a results))).tasks
            = c.tasks.modify i (fun t => t.replace rest
                (.live ((program setup).rejoin a results))) := rfl
        rw [htasks, List.length_modify, ih]

/-- A run that is over has the report of its one root. -/
theorem exists_report {given : Given} {world : World} {c : Pool State Strand Report}
    (h : Reaches setup (opening setup given world) c) (hover : c.IsOver) :
    ∃ report, c.tasks = [.ended report] := by
  obtain ⟨root, hroot⟩ := exists_root h
  obtain ⟨results, hresults⟩ := hover
  rw [hroot] at hresults
  obtain ⟨report, rfl⟩ := Task.ended_of_results? hresults (i := 0) rfl
  exact ⟨report, hroot⟩

/-- The loops around a scope are no more than the flow has. -/
theorem Nested.length_le {scope : Scope} (h : Nested setup scope) :
    scope.length ≤ (setup.graph.nodes.filter Node.isLoop).length := by
  have hsub : scope.map (·.1) ⊆ (setup.graph.nodes.filter Node.isLoop).map Node.id := by
    intro id hid
    obtain ⟨n, hn, hloop⟩ := h.loops id hid
    obtain rfl := Graph.id_of_node? hn
    exact List.mem_map_of_mem (List.mem_filter.mpr ⟨List.mem_of_find?_eq_some hn, hloop⟩)
  simpa using (h.nodup.subperm hsub).length_le

theorem Grounded.nested {j : Journal} {a : Strand} (h : Grounded setup j a) {scope : Scope}
    (hscope : a.scope? = some scope) : Nested setup scope := by
  cases a with
  | merge report => cases hscope
  | close report => cases hscope
  | visit id b => exact Option.some.inj hscope ▸ h.1
  | follow targets b => exact Option.some.inj hscope ▸ h.1
  | act n activity b => exact Option.some.inj hscope ▸ AtWork.nested h
  | turn n course b => exact Option.some.inj hscope ▸ Looping.toAtWork h |>.nested
  | gather n course b => exact Option.some.inj hscope ▸ Looping.toAtWork h.1 |>.nested
  | settle n course batch b => exact Option.some.inj hscope ▸ Looping.toAtWork h |>.nested

/-- A run of the machine that begins as a run can be has an end, and an outcome there. -/
theorem exists_outcome_of_run (setup : Setup) (given : Given) (journal : Journal) (world : World)
    (h : Reaches setup (opening setup given world) (beginning setup given journal world).toPool) :
    ∃ fuel outcome w, ∀ more, run (fuel + more) setup given journal world = (some outcome, w) := by
  have hacc : Acc (fun d c => Pool.Move (program setup) c d)
      (beginning setup given journal world).toPool :=
    (ranks_descend setup).acc grounds_kept (grounds_of_reaches h) (Pool.forked_start _ _)
  obtain ⟨fuel, hfuel⟩ := Schedule.Machine.exists_run hacc
  have hover := Schedule.Machine.isOver_of_run (Schedule.Machine.attentive_start _ _) hfuel
  have hreach := h.trans (Schedule.Machine.reaches_run (program setup) Disturbs fuel
    (beginning setup given journal world))
  obtain ⟨report, hreport⟩ := exists_report hreach hover
  have hsame : ∀ more, run (fuel + more) setup given journal world
      = run fuel setup given journal world := by
    intro more
    unfold run
    rw [Schedule.Machine.run_add hfuel]
  have houtcome : ∃ outcome, (run fuel setup given journal world).1 = some outcome := by
    simp only [run, reportOf, hreport]
    exact ⟨_, rfl⟩
  obtain ⟨outcome, houtcome⟩ := houtcome
  refine ⟨fuel, outcome, (run fuel setup given journal world).2, fun more => ?_⟩
  rw [hsame, ← houtcome]

end Automation.Run
