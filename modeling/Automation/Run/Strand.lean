/-
Automation/Run/Strand.lean

The branches of a run.

A strand is what is left to do in one branch: look at a node, carry out its
action, take a turn in a loop, follow edges, or report.  With it goes what the
branch sees and what it has to report.  Strands fork at two or more successors
and at every batch of a loop, and join when all forked strands have reported.

The rules of a step: a cancelled run starts no node; a node whose loop is around
ends the branch; a node runs once in each scope; a disabled node is passed over;
a failing node ends its branch or, if its policy says so, is recorded and passed.
Every node that was started ends at one place, with the outcome of its action;
a node that cannot be carried out and a loop that is over count as such actions.
-/
import Automation.Action.Behaviour
import Automation.Loop.Course
import Automation.Run.Journal
import Automation.Schedule.Task

namespace Automation.Run

open Automation.Schedule (Directive)

/-- What a branch reports to whoever waits for it. -/
structure Report where
  aborted : Bool
  /-- The errors of the nodes that failed. -/
  errors : Fields String
  /-- The results of the nodes, as the branch saw them, in order. -/
  outputs : Fields Value

namespace Report

/-- A branch that did nothing. -/
def empty : Report := ⟨false, [], []⟩

/-- A report with that of another branch after it. -/
def merge (r s : Report) : Report :=
  ⟨r.aborted || s.aborted, r.errors.overlay s.errors, r.outputs.overlay s.outputs⟩

/-- A report as what came of an iteration. -/
def toLap (r : Report) : Loop.Lap := ⟨r.errors.isEmpty, r.aborted, r.outputs, r.errors⟩

end Report

/-- What a branch sees and has to report. -/
structure Branch where
  view : View
  report : Report

/-- What is left to do in a branch. -/
inductive Strand
  /-- Is about to look at a node. -/
  | visit (node : String) (b : Branch)
  /-- Carries out the action of a node. -/
  | act (node : Node) (activity : Activity) (b : Branch)
  /-- Is between two batches of a loop. -/
  | turn (node : Node) (course : Loop.Course) (b : Branch)
  /-- Waits for a batch of a loop. -/
  | gather (node : Node) (course : Loop.Course) (b : Branch)
  /-- Has the outcome of a batch. -/
  | settle (node : Node) (course : Loop.Course) (batch : List Loop.Lap) (b : Branch)
  /-- Goes on at each of some nodes. -/
  | follow (targets : List String) (b : Branch)
  /-- Waits for the branches it forked into. -/
  | merge (report : Report)
  /-- Has nothing left to do. -/
  | close (report : Report)

/-- What does not change in a run. -/
structure Setup where
  graph : Graph
  registry : Registry
  defaultMaxIterations : Int

/-- What all branches of a run share. -/
structure State where
  journal : Journal
  /-- The secret store, if the run reads secrets from one. -/
  vault : Option Vault
  world : World

namespace State

/-- The state after more events. -/
def adding (s : State) (events : List Event) : State :=
  { s with journal := s.journal.adding events }

/-- The state after something was noticed outside. -/
def notice (s : State) (e : Effect) : State := { s with world := s.world.notice e }

/-- The state after secrets were looked up. -/
def askSecrets (s : State) (names : List String) : State :=
  match s.vault with
  | none => s
  | some vault =>
    let (asked, vault) := vault.visit names
    let world := asked.foldl (fun w name => w.notice (.askedSecret vault.store.name name)) s.world
    { s with vault := some vault, world }

end State

/-! ### The end of a node -/

/-- What came of the action of a node. -/
structure Verdict where
  /-- The result, as the action gave it; without fields if it was no object. -/
  result : Value
  /-- Why the node failed, if it did. -/
  error : Option String
  /-- What it tells beside; null if that is nothing. -/
  details : Value

namespace Verdict

/-- The error that a result states by itself. -/
def statedError (result : Value) : Option String :=
  if result.field "success" = .bool false then
    some ((result.field "error").orElse (.text "Action reported failure")).shown
  else none

/-- What came of an action that ended with a value or a fault. -/
def of : Except Fault Value → Verdict
  | .ok v =>
    if v.entries?.isSome then ⟨v, statedError v, .null⟩
    else ⟨.object [], some ("Action returned " ++ v.kindName ++ ", expected an object"), .null⟩
  | .error fault => ⟨.object [], some fault.report, fault.details⟩

/-- What is kept of the result. -/
def kept (v : Verdict) : Value := v.result.drop "_branchTags"

/-- The result of a node that completed. -/
def completed (v : Verdict) : Value := v.kept.put "success" (.bool true)

/-- The result of a node that failed. -/
def failed (v : Verdict) (policy : FailurePolicy) (error : String) : Value :=
  let base := (v.kept.put "success" (.bool false)).put "error" (.text error)
  let detailed := if v.details.isTruthy then base.put "errorDetails" v.details else base
  match policy with
  | .stop => detailed
  | .continue => detailed.put "_failedNode" (.bool true)

/-- The result that a node leaves. -/
def left (v : Verdict) (policy : FailurePolicy) : Value :=
  match v.error with
  | none => v.completed
  | some error => v.failed policy error

/-- The branch ends with the node. -/
def aborts (v : Verdict) (policy : FailurePolicy) : Bool :=
  v.error.isSome && decide (policy = .stop)

end Verdict

/-- The edges to follow after a node. -/
def successors (setup : Setup) (n : Node) (result : Value) : List Edge :=
  if n.isLoop then
    (setup.graph.outgoing n.id).filter fun e => e.isUntagged || e.branch == some "after"
  else match setup.registry.find? n.kind with
    | some b => b.successors setup.graph n result
    | none => setup.graph.untagged n.id

/-- The nodes that follow after a node, by its result. -/
def nextTargets (setup : Setup) (n : Node) (result : Value) : List String :=
  (successors setup n result).map Edge.target

/-- The branch after a node has left its result, and why it failed if it did. -/
def Branch.leave (b : Branch) (node : String) (result : Value) (error : Option String) : Branch :=
  ⟨b.view.write node result,
    { b.report with
      outputs := b.report.outputs.set node result
      errors := match error with
        | none => b.report.errors
        | some message => b.report.errors.set node message }⟩

/-- A line of the log about a node. -/
def lineOf (n : Node) (remark : Remark) : Event := .logged ⟨n.id, n.displayName, remark⟩

/-- What is recorded about a node that left its result. -/
def recorded (n : Node) (scope : Scope) (v : Verdict) : List Event :=
  let result := v.left n.failurePolicy
  match v.error with
  | none =>
    [.wrote scope n.id result, .reached scope n.id .completed, lineOf n .completed]
      ++ if n.isResponse then [.replied result] else []
  | some error =>
    [.reached scope n.id .failed, .erred scope n.id error, lineOf n (.failed error),
      .wrote scope n.id result]

/-- What is done once the action of a node has ended. -/
def complete (setup : Setup) (s : State) (n : Node) (outcome : Except Fault Value) (b : Branch) :
    State × Directive Strand Report :=
  let verdict := Verdict.of outcome
  let scope := b.view.scope
  let s := s.adding (.ended scope n.id outcome :: recorded n scope verdict)
  let b := b.leave n.id (verdict.left n.failurePolicy) verdict.error
  if verdict.aborts n.failurePolicy then (s, .finish { b.report with aborted := true })
  else (s, .proceed (.follow (nextTargets setup n verdict.result) b))

/-! ### The steps of a branch -/

/-- The plan of a loop with resolved settings. -/
def planOf (setup : Setup) (n : Node) (config : Fields Value) (view : View) :
    Except Fault Loop.Plan := do
  let settings ← Loop.Settings.ofConfig config setup.defaultMaxIterations
  let plan ← Loop.Plan.make n.id settings view
  if plan.lacksData then .error .noLoopData else .ok plan

/-- The settings with which a behaviour is invoked: resolved, if it asks for that. -/
def settingsFor (behaviour : Behaviour) (n : Node) (view : View) : Except Fault (Fields Value) :=
  if behaviour.resolves then view.resolveFields n.config else .ok n.config

/-- Starts a loop. -/
def beginLoop (setup : Setup) (s : State) (n : Node) (b : Branch) :
    State × Directive Strand Report :=
  let s := s.askSecrets (b.view.secretsAsked (Binding.references (.object n.config)))
  match b.view.resolveFields n.config with
  | .error fault => (s, .proceed (.act n (.fail fault) b))
  | .ok config =>
    let s := s.adding [.reached b.view.scope n.id .invoking]
    match planOf setup n config b.view with
    | .error fault => (s, .proceed (.act n (.fail fault) b))
    | .ok plan => (s, .proceed (.turn n (.new plan) b))

/-- Starts the action of a node. -/
def beginAction (setup : Setup) (s : State) (n : Node) (b : Branch) :
    State × Directive Strand Report :=
  match setup.registry.find? n.kind with
  | none => (s, .proceed (.act n (.fail (.unknownKind n.kind)) b))
  | some behaviour =>
    let s :=
      if behaviour.resolves then
        s.askSecrets (b.view.secretsAsked (Binding.references (.object n.config)))
      else s
    match settingsFor behaviour n b.view with
    | .error fault => (s, .proceed (.act n (.fail fault) b))
    | .ok config =>
      (s.adding [.reached b.view.scope n.id .invoking],
        .proceed (.act n (behaviour.start config b.view) b))

/-- Starts a node that was taken. -/
def begin (setup : Setup) (s : State) (n : Node) (b : Branch) :
    State × Directive Strand Report :=
  let s := s.adding [lineOf n (.executing n.kind), .reached b.view.scope n.id .resolving]
  if n.isLoop then beginLoop setup s n b else beginAction setup s n b

/-- Looks at a node. -/
def visit (setup : Setup) (s : State) (id : String) (b : Branch) :
    State × Directive Strand Report :=
  if s.journal.isCancelled then (s, .finish b.report)
  else match setup.graph.node? id with
    | none => (s, .finish b.report)
    | some n =>
      if b.view.isInside id then (s, .finish b.report)
      else match s.journal.claim b.view.scope id with
        | (false, _) => (s.adding [lineOf n .repeated], .finish b.report)
        | (true, journal) =>
          let s := { s with journal }
          if n.isDisabled then
            (s.adding [lineOf n .disabled],
              .proceed (.follow ((setup.graph.untagged id).map Edge.target) b))
          else begin setup s n b

/-- Carries on with an action. -/
def act (setup : Setup) (s : State) (n : Node) (activity : Activity) (b : Branch) :
    State × Directive Strand Report :=
  match activity with
  | .finish outcome => complete setup s n outcome b
  | .pause next => (s, .pause (.act n next b))
  | .sleep seconds next =>
    let s := s.notice (.slept seconds)
    match microsecondsOf seconds with
    | .error fault => (s, .proceed (.act n (.fail fault) b))
    | .ok microseconds => (s, .sleep microseconds (.act n next b))
  | .cancelRun next => (s.adding [.cancelled], .proceed (.act n next b))
  | .askSecrets names next => (s.askSecrets names, .proceed (.act n next b))
  | .note effect next => (s.notice effect, .proceed (.act n next b))
  | .send request next =>
    let (reply, world) := s.world.send request
    ({ s with world }, .proceed (.act n (next reply) b))
  | .publish message next =>
    let (failure, world) := s.world.publish message
    ({ s with world }, .proceed (.act n (next failure) b))

/-- The nodes at which the body of a loop begins. -/
def bodyTargets (setup : Setup) (n : Node) : List String :=
  (setup.graph.tagged n.id "each").map Edge.target

/-- An iteration of a loop that is about to begin. -/
def iteration (setup : Setup) (n : Node) (plan : Loop.Plan) (view : View) (i : Nat) : Strand :=
  .follow (bodyTargets setup n) ⟨plan.enter view i, .empty⟩

/-- Takes a turn in a loop. -/
def turn (setup : Setup) (s : State) (n : Node) (course : Loop.Course) (b : Branch) :
    State × Directive Strand Report :=
  match course.move s.journal.isCancelled with
  | .finish report => (s, .proceed (.act n (.done report.toFields) b))
  | .batch first count =>
    (s, .fork ((List.range' first count).map (iteration setup n course.plan b.view))
      (.gather n course b))

/-- Takes in a batch of a loop. -/
def settle (s : State) (n : Node) (course : Loop.Course) (batch : List Loop.Lap) (b : Branch) :
    State × Directive Strand Report :=
  match course.turn batch with
  | .finish report => (s, .proceed (.act n (.done report.toFields) b))
  | .again => (s, .proceed (.turn n course b))
  | .rest ms => match secondsOf ms with
    | .error fault => (s, .proceed (.act n (.fail fault) b))
    | .ok seconds =>
      let s := s.notice (.slept seconds)
      match microsecondsOf seconds with
      | .error fault => (s, .proceed (.act n (.fail fault) b))
      | .ok microseconds => (s, .sleep microseconds (.turn n course b))

/-- Goes on at each of some nodes. -/
def follow (s : State) (targets : List String) (b : Branch) :
    State × Directive Strand Report :=
  match targets with
  | [] => (s, .finish b.report)
  | [target] => (s, .proceed (.visit target b))
  | targets =>
    (s, .fork (targets.map fun target => .visit target ⟨b.view, .empty⟩) (.merge b.report))

/-- One step of a branch. -/
def step (setup : Setup) (s : State) : Strand → State × Directive Strand Report
  | .visit id b => visit setup s id b
  | .act n activity b => act setup s n activity b
  | .turn n course b => turn setup s n course b
  | .gather n course b =>
    (s, .proceed (.act n (.done (course.report true true false none).toFields) b))
  | .settle n course batch b => settle s n course batch b
  | .follow targets b => follow s targets b
  | .merge report => (s, .finish report)
  | .close report => (s, .finish report)

/-- What a branch goes on with once the strands it waited for have reported. -/
def rejoin : Strand → List Report → Strand
  | .merge report, reports => .close (reports.foldl Report.merge report)
  | .gather n course b, reports =>
    let batch := reports.map Report.toLap
    .settle n (course.absorb batch) batch b
  | strand, _ => strand

/-- The strands of a run as tasks. -/
def program (setup : Setup) : Schedule.Program State Strand Report := ⟨step setup, rejoin⟩

end Automation.Run
