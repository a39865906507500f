/-
Automation/Loop/Drive.lean

A loop on its own, around any body.

The body of an iteration is a task of some program; the loop forks a batch of
bodies, waits for them, and rests between batches as its course says.
-/
import Automation.Action.Activity
import Automation.Loop.Course
import Automation.Schedule.Task

namespace Automation.Loop

open Automation.Schedule (Directive Program)

/-- What is left to do in a task of a loop around bodies of some type. -/
inductive Driven (β : Type u)
  /-- Is between two batches. -/
  | turn (course : Course)
  /-- Waits for a batch. -/
  | gather (course : Course)
  /-- Has the outcome of a batch. -/
  | settle (course : Course) (batch : List Lap)
  | body (b : β)

/-- What a task of a loop ends with: the outcome of an iteration, or of the loop. -/
inductive Ending
  | lap (l : Lap)
  | report (r : Report)
  | fault (f : Fault)

/-- The outcome of an iteration, if it is one. -/
def Ending.lap? : Ending → Option Lap
  | .lap l => some l
  | _ => none

/-- How the bodies of a loop work. -/
structure Bodies (σ : Type u) (β : Type v) where
  step : σ → β → σ × Directive β Lap
  /-- The body of an iteration, in the view of that iteration. -/
  enter : View → Nat → β
  isCancelled : σ → Bool
  /-- The state after the loop has gone to rest. -/
  rested : σ → Binary64 → σ

namespace Bodies

/-- A directive of a body as one of its task. -/
def carried : Directive β Lap → Directive (Driven β) Ending
  | .proceed next => .proceed (.body next)
  | .pause next => .pause (.body next)
  | .sleep microseconds next => .sleep microseconds (.body next)
  | .fork children waiting => .fork (children.map .body) (.body waiting)
  | .spawn child next => .spawn (.body child) (.body next)
  | .finish l => .finish (.lap l)

/-- One step of a task of a loop in a view. -/
def stepIn (bodies : Bodies σ β) (view : View) (s : σ) :
    Driven β → σ × Directive (Driven β) Ending
  | .turn course => match course.move (bodies.isCancelled s) with
    | .finish report => (s, .finish (.report report))
    | .batch first count =>
      (s, .fork ((List.range' first count).map fun i =>
          .body (bodies.enter (course.plan.enter view i) i)) (.gather course))
  | .gather course => (s, .proceed (.turn course))
  | .settle course batch => match course.turn batch with
    | .finish report => (s, .finish (.report report))
    | .again => (s, .proceed (.turn course))
    | .rest ms => match secondsOf ms with
      | .error fault => (s, .finish (.fault fault))
      | .ok seconds =>
        let s := bodies.rested s seconds
        match microsecondsOf seconds with
        | .error fault => (s, .finish (.fault fault))
        | .ok microseconds => (s, .sleep microseconds (.turn course))
  | .body b =>
    let (s, directive) := bodies.step s b
    (s, carried directive)

/-- What a task of a loop goes on with once its batch has ended. -/
def rejoin : Driven β → List Ending → Driven β
  | .gather course, endings =>
    let batch := endings.filterMap Ending.lap?
    .settle (course.absorb batch) batch
  | driven, _ => driven

/-- A loop in a view as tasks. -/
def program (bodies : Bodies σ β) (view : View) : Program σ (Driven β) Ending :=
  ⟨bodies.stepIn view, rejoin⟩

end Bodies

end Automation.Loop
