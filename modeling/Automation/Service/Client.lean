/-
Automation/Service/Client.lean

The service at work: a client that asks for one thing after another, and the
runs beside it, all as tasks in one queue.

A run that the client waits for is carried out in the task of the client; a
background run is a task of its own.  When the client has asked for everything,
the service shuts down: the runs on record are cancelled and come to their end.
-/
import Automation.Service.Desk

namespace Automation.Service

open Automation.Schedule (Directive Machine)

/-- What is left to do in a task of the service. -/
inductive Work
  /-- Asks for the rest of what the client wants. -/
  | client (commands : List Command)
  /-- Carries out a run that the client waits for. -/
  | foreground (run : String) (strand : Run.Strand) (commands : List Command)
  /-- Carries out a run that nobody waits for. -/
  | background (run : String) (strand : Run.Strand)
  /-- A branch of a run. -/
  | branch (run : String) (strand : Run.Strand)

/-- One step of a strand of a run, with what the run shares. -/
def stepRun (d : Desk) (id : String) (strand : Run.Strand) :
    Desk × Directive Run.Strand Run.Report :=
  match d.sessions.get? id with
  | none => (d, .finish .empty)
  | some s =>
    let (state, directive) := Run.step s.setup ⟨s.journal, s.vault, d.world⟩ strand
    ({ d.update id fun s => { s with journal := state.journal, vault := state.vault } with
        world := state.world }, directive)

/-- A directive of a strand as one of the task that carries it out. -/
def carried (wrap : Run.Strand → Work) (id : String) (d : Desk)
    (atEnd : Run.Report → Desk × Directive Work Run.Report) :
    Directive Run.Strand Run.Report → Desk × Directive Work Run.Report
  | .proceed next => (d, .proceed (wrap next))
  | .pause next => (d, .pause (wrap next))
  | .sleep microseconds next => (d, .sleep microseconds (wrap next))
  | .fork children waiting => (d, .fork (children.map (.branch id)) (wrap waiting))
  | .spawn child next => (d, .spawn (.branch id child) (wrap next))
  | .finish report => atEnd report

/-- Answers a request for a run, given what to do with the graph of its flow. -/
def withGraph (d : Desk) (flow : Document) (rest : List Command)
    (next : Graph → Desk × Directive Work Run.Report) : Desk × Directive Work Run.Report :=
  match Graph.ofDocument flow with
  | .error problems => (d.answer (.invalidFlow problems), .proceed (.client rest))
  | .ok g => next g

/-- Answers a request about a run on record. -/
def withRecord (d : Desk) (id : String) (next : Session → Desk) : Desk :=
  match d.onRecord? id with
  | some s => next s
  | none => d.answer (.unknownRun id)

/-- Does what a client asks for next. -/
def serve (d : Desk) (command : Command) (rest : List Command) :
    Desk × Directive Work Run.Report :=
  let go (d : Desk) : Desk × Directive Work Run.Report := (d, .proceed (.client rest))
  match command with
  | .health => go (d.answer .healthy)
  | .validate flow => go (d.answer (.validated flow.problems))
  | .malformed errors => go (d.answer (.malformed errors))
  | .get id => go (withRecord d id fun s => d.answer (.standing (s.standing id)))
  | .cancel id => go (withRecord d id fun _ =>
      (d.update id Session.cancel).answer (.cancelling id))
  | .wait seconds => match microsecondsOf seconds with
    | .error fault => go (d.answer (.failed fault))
    | .ok microseconds =>
      let d := d.answer .waited
      if (Binary64.zero false).lt seconds then (d, .sleep microseconds (.client rest))
      else (d, .pause (.client rest))
  | .run request => withGraph d request.flow rest fun g =>
      let (id, strand, d) := d.openSession g request
      (d, .proceed (.foreground id strand rest))
  | .start request => withGraph d request.flow rest fun g =>
      let (id, strand, d) := d.prune.openSession g request
      (({ d with records := d.records ++ [id] }).answer (.started id),
        .spawn (.background id strand) (.client rest))

/-- The end of a run that the client waits for. -/
def closeForeground (d : Desk) (id : String) (rest : List Command) (report : Run.Report) :
    Desk × Directive Work Run.Report :=
  let d := d.close id report
  match (d.sessions.get? id).bind Session.outcome with
  | some outcome => (d.answer (.ran outcome), .proceed (.client rest))
  | none => (d, .proceed (.client rest))

/-- One step of a task of the service. -/
def step (d : Desk) : Work → Desk × Directive Work Run.Report
  | .client [] => (d.cancelPending, .finish .empty)
  | .client (command :: rest) => serve d command rest
  | .foreground id strand rest =>
    let (d, directive) := stepRun d id strand
    carried (.foreground id · rest) id d (closeForeground d id rest) directive
  | .background id strand =>
    let (d, directive) := stepRun d id strand
    carried (.background id) id d (fun report => (d.close id report, .finish report)) directive
  | .branch id strand =>
    let (d, directive) := stepRun d id strand
    carried (.branch id) id d (fun report => (d, .finish report)) directive

/-- What a task goes on with once those that it waited for have ended. -/
def rejoin (work : Work) (reports : List Run.Report) : Work :=
  match work with
  | .foreground id strand rest => .foreground id (Run.rejoin strand reports) rest
  | .background id strand => .background id (Run.rejoin strand reports)
  | .branch id strand => .branch id (Run.rejoin strand reports)
  | .client commands => .client commands

/-- The tasks of the service. -/
def program : Schedule.Program Desk Work Run.Report := ⟨step, rejoin⟩

/-- Serves a client and shuts down, in at most `fuel` steps.  The answer tells
whether everything came to its end. -/
def run (fuel : Nat) (d : Desk) (commands : List Command) : Desk × Bool :=
  let (m, ended) := (Machine.start d (Work.client commands)).run program fuel
  (m.shared, ended)

end Automation.Service
