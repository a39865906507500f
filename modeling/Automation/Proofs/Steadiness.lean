/-
Automation/Proofs/Steadiness.lean

Actions that always come to the same.

An activity comes to an outcome if it does so whatever it is told on the way
(`Activity.Comes`): it may let others go first, sleep and send as often as it likes, but
no reply changes what it ends with.  An action is steady if every activity of it comes to
some outcome, so that its outcome depends on its settings and its view alone, and it is
followed along no edge twice (`Behaviour.Steady`).  All actions that come with the engine
are steady, but for those that send requests or publish messages (`steady_of_standard`).
-/
import Automation.Action.Standard
import Automation.Proofs.Fields

namespace Automation

namespace Activity

/-- The activity ends with an outcome, whatever the replies are that it gets. -/
def Comes (outcome : Except Fault Value) : Activity → Prop
  | .finish result => result = outcome
  | .pause next => next.Comes outcome
  | .sleep seconds next => match microsecondsOf seconds with
    | .ok _ => next.Comes outcome
    | .error fault => outcome = .error fault
  | .cancelRun next => next.Comes outcome
  | .askSecrets _ next => next.Comes outcome
  | .note _ next => next.Comes outcome
  | .send _ next => ∀ reply, (next reply).Comes outcome
  | .publish _ next => ∀ failure, (next failure).Comes outcome

/-- An activity that comes to an outcome ends with it when it is carried out on its own. -/
theorem Comes.perform {outcome : Except Fault Value} {a : Activity} (h : a.Comes outcome)
    (w : World) : (a.perform w).1 = outcome := by
  induction a generalizing w with
  | finish result => exact h
  | pause next ih => exact ih h w
  | sleep seconds next ih =>
    unfold Comes at h
    unfold Activity.perform
    rcases hm : microsecondsOf seconds with fault | n
    · rw [hm] at h
      simpa [hm] using h.symm
    · rw [hm] at h
      simpa [hm] using ih h _
  | cancelRun next ih => exact ih h w
  | askSecrets names next ih => exact ih h w
  | note effect next ih => exact ih h _
  | send request next ih => exact ih _ (h _) _
  | publish message next ih => exact ih _ (h _) _

variable {next : Activity}

theorem exists_comes_done (fields : Fields Value) : ∃ outcome, (done fields).Comes outcome :=
  ⟨_, rfl⟩

theorem exists_comes_fail (fault : Fault) : ∃ outcome, (fail fault).Comes outcome :=
  ⟨_, rfl⟩

theorem exists_comes_attempt {α : Type} (r : Except Fault α) {next : α → Activity}
    (h : ∀ a, ∃ outcome, (next a).Comes outcome) : ∃ outcome, (attempt r next).Comes outcome := by
  cases r with
  | error fault => exact exists_comes_fail fault
  | ok a => exact h a

theorem exists_comes_sleep (seconds : Binary64) (h : ∃ outcome, next.Comes outcome) :
    ∃ outcome, (sleep seconds next).Comes outcome := by
  unfold Comes
  rcases microsecondsOf seconds with fault | n
  · exact ⟨.error fault, rfl⟩
  · exact h

end Activity

namespace Behaviour

/-- What the action ends with depends on its settings and its view alone, and of edges that are
different it is followed along different ones. -/
structure Steady (b : Behaviour) : Prop where
  comes : ∀ config view, ∃ outcome, (b.invoke config view).Comes outcome
  once : ∀ g n result, (g.outgoing n.id).Nodup → (b.successors g n result).Nodup

theorem Steady.exists_comes {b : Behaviour} (h : b.Steady) (config : Fields Value) (view : View) :
    ∃ outcome, (b.start config view).Comes outcome :=
  Activity.exists_comes_attempt _ fun prepared => h.comes prepared view

theorem nodup_allUntagged (g : Graph) (n : Node) (result : Value) (h : (g.outgoing n.id).Nodup) :
    (allUntagged g n result).Nodup :=
  h.filter _

end Behaviour

namespace Action

open Activity Behaviour

theorem steady_entrance : entrance.Steady where
  comes _ _ := exists_comes_attempt _ fun _ => ⟨_, rfl⟩
  once := nodup_allUntagged

theorem steady_assign : assign.Steady where
  comes _ _ := exists_comes_attempt _ fun _ => ⟨_, rfl⟩
  once := nodup_allUntagged

theorem steady_delay : delay.Steady where
  comes config view := by
    refine exists_comes_attempt _ fun ms => ?_
    dsimp only
    split
    · exact exists_comes_fail _
    · split
      · exact exists_comes_done _
      · exact exists_comes_attempt _ fun seconds => exists_comes_sleep seconds (exists_comes_done _)
  once := nodup_allUntagged

theorem steady_respond : respond.Steady where
  comes _ _ := exists_comes_attempt _ exists_comes_done
  once := nodup_allUntagged

theorem steady_filter : filter.Steady where
  comes config view := by
    refine exists_comes_attempt _ fun source => ?_
    cases source with
    | list records => exact exists_comes_attempt _ fun _ => exists_comes_done _
    | _ => exact exists_comes_done _
  once := nodup_allUntagged

theorem steady_report : report.Steady where
  comes config view := by
    show ∃ outcome, (ite _ _ _ : Activity).Comes outcome
    split
    · exact exists_comes_done _
    · exact exists_comes_attempt _ fun _ => exists_comes_done _
  once := nodup_allUntagged

/-- One edge at most is followed after a condition. -/
theorem nodup_chosenEdge (g : Graph) (n : Node) (tags : List String) :
    (chosenEdge g n tags).Nodup := by
  induction tags with
  | nil => exact .nil
  | cons tag tags ih =>
    unfold chosenEdge
    split
    · exact List.nodup_singleton _
    · exact ih

theorem steady_decide : decide.Steady where
  comes config view := by
    obtain ⟨outcome, h⟩ := exists_comes_attempt (Condition.Selection.ofConfig view config)
      fun s => exists_comes_done (Fields.set (s.toFields view.occasion.now) branchTagsKey
        (.list (s.branchTags.map .text)))
    exact ⟨outcome, h⟩
  once g n result _ := nodup_chosenEdge g n (wantedTags result)

/-- The actions that come with the engine are steady, but for those that send requests or
publish messages. -/
theorem steady_of_standard {settings : Settings} {kind : String} {b : Behaviour}
    (h : (Registry.standard settings).find? kind = some b) :
    kind = "http-request" ∨ kind = "publish-event" ∨ b.Steady := by
  have hmem : (kind, b) ∈ Registry.standard settings := Fields.mem_of_get? h
  simp only [Registry.standard, List.mem_cons, Prod.mk.injEq, List.not_mem_nil, or_false] at hmem
  rcases hmem with ⟨-, rfl⟩ | ⟨-, rfl⟩ | ⟨-, rfl⟩ | ⟨hkind, -⟩ | ⟨-, rfl⟩ | ⟨-, rfl⟩ | ⟨-, rfl⟩ |
    ⟨-, rfl⟩ | ⟨-, rfl⟩ | ⟨hkind, -⟩
  · exact .inr (.inr steady_entrance)
  · exact .inr (.inr steady_entrance)
  · exact .inr (.inr steady_decide)
  · exact .inl hkind
  · exact .inr (.inr steady_assign)
  · exact .inr (.inr steady_delay)
  · exact .inr (.inr steady_report)
  · exact .inr (.inr steady_respond)
  · exact .inr (.inr steady_filter)
  · exact .inr (.inl hkind)

end Action

end Automation
