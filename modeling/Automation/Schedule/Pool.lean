/-
Automation/Schedule/Pool.lean

Tasks at work, whatever order they work in.

A pool holds the roots of all tasks and the state that they share.  It says what
comes of a step of a task and of the end of the children of a task, and leaves
open which of all that is possible happens next: that is for a machine to say.
-/
import Automation.Schedule.Task

namespace Automation.Schedule

namespace Directive

/-- The task that takes the place of one that gave the directive. -/
def task (p : Program σ α ρ) : Directive α ρ → Task α ρ
  | .proceed next => .live next
  | .pause next => .live next
  | .sleep _ next => .live next
  | .fork [] waiting => .live (p.rejoin waiting [])
  | .fork (child :: children) waiting => .waiting waiting ((child :: children).map Task.live)
  | .spawn _ next => .live next
  | .finish result => .ended result

/-- The roots that come with the directive. -/
def roots : Directive α ρ → List (Task α ρ)
  | .spawn child _ => [.live child]
  | _ => []

end Directive

/-- Tasks with what they share. -/
structure Pool (σ : Type u) (α : Type v) (ρ : Type w) where
  shared : σ
  /-- The roots.  The first step of a path is the number of a root. -/
  tasks : List (Task α ρ)

namespace Pool

/-- One task that is ready to begin. -/
def start (shared : σ) (task : α) : Pool σ α ρ := ⟨shared, [.live task]⟩

/-- The task at a path. -/
def at? (c : Pool σ α ρ) : List Nat → Option (Task α ρ)
  | [] => none
  | i :: path => (c.tasks[i]?).bind fun t => t.at? path

/-- Puts a task in the place that a path leads to. -/
def replace (c : Pool σ α ρ) (path : List Nat) (new : Task α ρ) : Pool σ α ρ :=
  match path with
  | [] => c
  | i :: path => { c with tasks := c.tasks.modify i fun t => t.replace path new }

/-- What comes of the directive of the task at a path. -/
def carryOut (p : Program σ α ρ) (c : Pool σ α ρ) (path : List Nat) (d : Directive α ρ) :
    Pool σ α ρ :=
  let c := c.replace path (d.task p)
  { c with tasks := c.tasks ++ d.roots }

/-- What comes of a step of the task at a path, which is in a given state. -/
def advance (p : Program σ α ρ) (c : Pool σ α ρ) (path : List Nat) (a : α) : Pool σ α ρ :=
  let (shared, directive) := p.step c.shared a
  { c with shared }.carryOut p path directive

end Pool

end Automation.Schedule
