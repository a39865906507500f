/-
Automation/Proofs/Run/Conclusion.lean

What runs come to.

A run has come to an outcome once its first branch has reported, in whatever order its
branches worked and whatever happened outside (`ComesTo`).  What the machine answers
is one of these outcomes (`comesTo_of_run`), and every run comes to one (`run_ends`),
so a property of outcomes is stated for `ComesTo`.
-/
import Automation.Proofs.Run.Chronicle
import Automation.Proofs.Run.Termination

namespace Automation.Run

open Automation.Schedule (Pool Task)

variable {setup : Setup} {given : Given} {world : World}

/-- A run can come to an outcome, with a journal. -/
inductive ComesTo (setup : Setup) (given : Given) (world : World) : Journal → Outcome → Prop
  | intro {c report} : Reaches setup (opening setup given world) c → c.tasks = [.ended report] →
    ComesTo setup given world c.shared.journal
      (.of given.occasion.runId setup.graph c.shared.journal report)

theorem ComesTo.chronicle {j : Journal} {outcome : Outcome}
    (h : ComesTo setup given world j outcome) : Chronicle setup j := by
  obtain ⟨hreach, -⟩ := h
  exact chronicle_of_reaches hreach

/-- A run that has come to an outcome has no branch left at work. -/
theorem isOver_of_ended {c : Pool State Strand Report} {report : Report}
    (h : c.tasks = [.ended report]) : c.IsOver :=
  ⟨[report], by rw [h]; rfl⟩

/-- What the machine answers is what a run can come to, also if the run was cancelled
beforehand. -/
theorem comesTo_of_run {fuel : ℕ} {cancelled : Bool} {outcome : Outcome} {w : World}
    (h : run fuel setup given (if cancelled then [.cancelled] else []) world
      = (some outcome, w)) : ∃ j, ComesTo setup given world j outcome := by
  have hbegin : Reaches setup (opening setup given world)
      (beginning setup given (if cancelled then [.cancelled] else []) world).toPool := by
    cases cancelled with
    | false => exact .refl
    | true => exact .single (.outside (.inr rfl))
  have hreach := hbegin.trans (Schedule.Machine.reaches_run (program setup) Disturbs fuel _)
  obtain ⟨root, hroot⟩ := exists_root hreach
  have houtcome := congrArg Prod.fst h
  simp only [run, reportOf] at houtcome
  -- the first branch is the one root of the run
  rw [hroot] at houtcome
  cases root with
  | live a => simp [Task.result?] at houtcome
  | waiting a children => simp [Task.result?] at houtcome
  | ended report =>
    obtain rfl := Option.some.inj houtcome
    exact ⟨_, .intro hreach hroot⟩

end Automation.Run
