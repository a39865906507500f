/-
Automation/Loop/Course.lean

How a loop proceeds.

A loop starts its iterations in batches.  Before each batch it looks whether it
is cancelled; after each batch it ends if it stops on failures and the batch has
one, rests if it has a delay and iterations are left, and goes on otherwise.  It
fails only if it stopped at an iteration whose branch was aborted.  The course
says what to do next and takes what came of it; it runs nothing itself.
-/
import Automation.Loop.Plan
import Automation.Text.Search

namespace Automation.Loop

/-- What came of one iteration. -/
structure Lap where
  success : Bool
  aborted : Bool
  /-- The results of the nodes of the iteration. -/
  output : Fields Value
  /-- The messages of the nodes that failed. -/
  errors : Fields String

namespace Lap

/-- The messages of an iteration in one text. -/
def reason (l : Lap) : String :=
  let text := Text.join "; " (l.errors.map (·.2))
  if text.isEmpty then "unknown error" else text

/-- The report of an iteration. -/
def toValue (index : Nat) (l : Lap) : Value :=
  .object <| [("index", .int index), ("success", .bool l.success), ("output", .object l.output)]
    ++ if l.errors.isEmpty then [] else
      [("errors", .object (l.errors.map fun (node, message) => (node, .text message))),
        ("failedNodeIds", .list (l.errors.map fun (node, _) => .text node))]

end Lap

/-- What came of a loop. -/
structure Report where
  iterationCount : Nat
  laps : List Lap
  success : Bool
  stoppedEarly : Bool
  cancelled : Bool
  error : Option String

namespace Report

/-- A report as the result of the loop node. -/
def toFields (r : Report) : Fields Value :=
  [("success", .bool r.success),
    ("results", .list (r.laps.zipIdx.map fun (l, i) => l.toValue i)),
    ("totalProcessed", .int r.laps.length), ("iterationCount", .int r.iterationCount),
    ("failedIterations", .int (r.laps.filter fun l => !l.success).length),
    ("stoppedEarly", .bool r.stoppedEarly)]
    ++ (r.error.map fun e => ("error", Value.text e)).toList

end Report

/-- A loop between two batches: the iterations so far, in order. -/
structure Course where
  plan : Plan
  laps : List Lap
  /-- The index of the next iteration. -/
  next : Nat
  next_eq : next = laps.length

/-- What a loop does next. -/
inductive Move
  /-- Starts `count` iterations from the index `first` on. -/
  | batch (first count : Nat)
  | finish (report : Report)

/-- What a loop does after a batch. -/
inductive Turn
  | again
  | rest (milliseconds : Nat)
  | finish (report : Report)

namespace Course

/-- A loop that has not started. -/
def new (plan : Plan) : Course := ⟨plan, [], 0, rfl⟩

/-- All iterations have run. -/
def isComplete (c : Course) : Bool := decide (c.plan.count ≤ c.next)

/-- What is said at the end of the loop. -/
def report (c : Course) (success stoppedEarly cancelled : Bool) (error : Option String) : Report :=
  ⟨c.plan.count, c.laps, success, stoppedEarly, cancelled, error⟩

/-- What is done before a batch. -/
def move (c : Course) (cancelled : Bool) : Move :=
  if c.isComplete then .finish (c.report true false false none)
  else if cancelled then .finish (c.report true true true none)
  else .batch c.next (min c.plan.settings.batchSize (c.plan.count - c.next))

/-- The course after a batch. -/
def absorb (c : Course) (batch : List Lap) : Course :=
  ⟨c.plan, c.laps ++ batch, c.next + batch.length, by simp [c.next_eq]⟩

/-- The message of a loop that failed in an iteration. -/
def failure (index : Nat) (l : Lap) : String :=
  "Iteration " ++ Nat.repr (index + 1) ++ " failed: " ++ l.reason

/-- The first aborted failure of a batch whose first index is `start`. -/
def abortedFrom (start : Nat) : List Lap → Option (Nat × Lap)
  | [] => none
  | l :: rest => if !l.success && l.aborted then some (start, l) else abortedFrom (start + 1) rest

/-- What is done after a batch; the course holds the batch already. -/
def turn (c : Course) (batch : List Lap) : Turn :=
  let settings := c.plan.settings
  if settings.stopsOnFailure && batch.any (fun l => !l.success) then
    match abortedFrom (c.next - batch.length) batch with
    | some (i, l) => .finish (c.report false (!c.isComplete) false (some (failure i l)))
    | none => .finish (c.report true (!c.isComplete) false none)
  else if 0 < settings.delayMs ∧ !c.isComplete then .rest settings.delayMs
  else .again

end Course

end Automation.Loop
