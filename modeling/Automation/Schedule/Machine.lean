/-
Automation/Schedule/Machine.lean

Running tasks in turn.

There is one queue.  What is ready is taken from its front: a task that is to go
on, or the notice that a child of a waiting task has ended.  A task that pauses,
a forked child, and the notice of an ending go to the back; so does the parent
once the notice of its last child was taken.  A task that goes on stays in
front.  Time passes only when the queue is empty: then the sleeper that wakes
first is made ready, of two that wake together the one that fell asleep first.
-/
import Automation.Schedule.Pool

namespace Automation.Schedule

/-- Something that is ready. -/
inductive Notice
  /-- The task at a path goes on. -/
  | resume (path : List Nat)
  /-- A child of the task at a path has ended. -/
  | childEnded (parent : List Nat)
  deriving DecidableEq, Repr

/-- A task that sleeps. -/
structure Sleeper where
  wakesAt : Nat
  path : List Nat

/-- Tasks with what is ready and who sleeps. -/
structure Machine (σ : Type u) (α : Type v) (ρ : Type w) extends Pool σ α ρ where
  ready : List Notice
  /-- The sleepers, in the order in which they wake. -/
  sleepers : List Sleeper
  now : Nat

namespace Machine

/-- One task that is ready to begin. -/
def start (shared : σ) (task : α) : Machine σ α ρ :=
  ⟨.start shared task, [.resume [0]], [], 0⟩

/-- Puts notices at the back of the queue. -/
def append (m : Machine σ α ρ) (notices : List Notice) : Machine σ α ρ :=
  { m with ready := m.ready ++ notices }

/-- Puts a notice in front of the queue. -/
def push (m : Machine σ α ρ) (notice : Notice) : Machine σ α ρ :=
  { m with ready := notice :: m.ready }

/-- The place of a sleeper among others: behind those that wake no later. -/
def insertSleeper (s : Sleeper) : List Sleeper → List Sleeper
  | [] => [s]
  | t :: rest => if s.wakesAt < t.wakesAt then s :: t :: rest else t :: insertSleeper s rest

/-- The notice of the end of the task at a path; a root tells nobody. -/
def parentNotice (path : List Nat) : List Notice :=
  if path.length ≤ 1 then [] else [.childEnded path.dropLast]

/-- The paths of the children of a task. -/
def childPaths (path : List Nat) (count : Nat) : List (List Nat) :=
  (List.range count).map fun i => path ++ [i]

/-- Who is ready and who sleeps once the task at a path has given a directive;
`roots` is the number of roots before. -/
def arrange (m : Machine σ α ρ) (path : List Nat) (roots : Nat) :
    Directive α ρ → Machine σ α ρ
  | .proceed _ => m.push (.resume path)
  | .pause _ => m.append [.resume path]
  | .sleep microseconds _ =>
    { m with sleepers := insertSleeper ⟨m.now + microseconds, path⟩ m.sleepers }
  | .fork [] _ => m.push (.resume path)
  | .fork children _ => m.append ((childPaths path children.length).map Notice.resume)
  | .spawn .. => (m.append [.resume [roots]]).push (.resume path)
  | .finish _ => m.append (parentNotice path)

/-- The task at a path goes on. -/
def resume (p : Program σ α ρ) (m : Machine σ α ρ) (path : List Nat) : Machine σ α ρ :=
  match m.at? path with
  | some (.live a) =>
    let (shared, directive) := p.step m.shared a
    { m with toPool := { m.toPool with shared }.carryOut p path directive }.arrange path
      m.tasks.length directive
  | _ => m

/-- The notice of an ended child was taken.  The parent is ready once all its
children have ended and none of their notices is left. -/
def childEnded (p : Program σ α ρ) (m : Machine σ α ρ) (parent : List Nat) : Machine σ α ρ :=
  match m.at? parent with
  | some (.waiting a children) =>
    match Task.results? children with
    | some results =>
      if m.ready.contains (.childEnded parent) then m
      else
        { m with toPool := m.replace parent (.live (p.rejoin a results)) }.append
          [.resume parent]
    | none => m
  | _ => m

/-- One step; nothing if no task is ready and none sleeps. -/
def step? (p : Program σ α ρ) (m : Machine σ α ρ) : Option (Machine σ α ρ) :=
  match m.ready with
  | .resume path :: rest => some (resume p { m with ready := rest } path)
  | .childEnded parent :: rest => some (childEnded p { m with ready := rest } parent)
  | [] => match m.sleepers with
    | s :: rest =>
      some { m with ready := [.resume s.path], sleepers := rest, now := s.wakesAt }
    | [] => none

/-- Runs until nothing is left to do, for at most `fuel` steps.  The answer tells
whether nothing is left. -/
def run (p : Program σ α ρ) : Nat → Machine σ α ρ → Machine σ α ρ × Bool
  | 0, m => (m, false)
  | fuel + 1, m => match m.step? p with
    | some m => run p fuel m
    | none => (m, true)

end Machine

end Automation.Schedule
