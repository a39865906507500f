/-
Automation/Schedule/Task.lean

Cooperative tasks that fork and join.

A program says what a task in some state does next: go on, let others go first,
sleep, fork children and wait for all of them, start a task that nobody waits
for, or end with a result.  The tasks of one root form a tree: a live task is a
leaf, a task that waits carries its children, and an ended task its result.
All tasks work on one shared state.
-/
namespace Automation.Schedule

/-- What a task does after one step. -/
inductive Directive (α : Type u) (ρ : Type v)
  /-- Goes on at once. -/
  | proceed (next : α)
  /-- Goes on after all that is ready now. -/
  | pause (next : α)
  /-- Goes on when the time has passed. -/
  | sleep (microseconds : Nat) (next : α)
  /-- Waits until all children have ended. -/
  | fork (children : List α) (waiting : α)
  /-- Starts a task of its own, and goes on at once. -/
  | spawn (child : α) (next : α)
  | finish (result : ρ)

/-- What tasks do. -/
structure Program (σ : Type u) (α : Type v) (ρ : Type w) where
  /-- One step of a task, on the shared state. -/
  step : σ → α → σ × Directive α ρ
  /-- The state of a task that has waited for its children, by their results. -/
  rejoin : α → List ρ → α

/-- A task and the tasks that it waits for. -/
inductive Task (α : Type u) (ρ : Type v)
  | live (state : α)
  | waiting (state : α) (children : List (Task α ρ))
  | ended (result : ρ)

namespace Task

/-- The result of a task that has ended. -/
def result? : Task α ρ → Option ρ
  | .ended r => some r
  | _ => none

/-- The results of tasks, if all have ended. -/
def results? : List (Task α ρ) → Option (List ρ)
  | [] => some []
  | t :: ts => match t.result?, results? ts with
    | some r, some rs => some (r :: rs)
    | _, _ => none

/-- The task that the steps of a path lead to. -/
def at? : Task α ρ → List Nat → Option (Task α ρ)
  | t, [] => some t
  | .waiting _ children, i :: path => (children[i]?).bind fun child => child.at? path
  | _, _ :: _ => none

/-- Puts a task in the place that a path leads to. -/
def replace : Task α ρ → List Nat → Task α ρ → Task α ρ
  | _, [], new => new
  | .waiting a children, i :: path, new =>
    .waiting a (children.modify i fun child => child.replace path new)
  | t, _ :: _, _ => t

end Task

end Automation.Schedule
