/-
Automation/Service/Desk.lean

The state of the service: its runs, and which of them it keeps on record.

A run is a session: what it does, its journal, and its outcome once it has ended,
which is made then and does not change any more.  Background runs are on record,
in the order in which they were started.  Before a new one is put on record, the
oldest finished ones are dropped until no more than the allowed number is left; a
run that has not finished is never dropped.
-/
import Automation.Run.Outcome
import Automation.Service.Request

namespace Automation.Service

/-- A run of the service. -/
structure Session where
  setup : Run.Setup
  journal : Journal
  vault : Option Vault
  /-- What the run has come to, once it has ended. -/
  outcome : Option Run.Outcome

namespace Session

/-- The run has ended. -/
def isFinished (s : Session) : Bool := s.outcome.isSome

/-- Raises the cancellation signal. -/
def cancel (s : Session) : Session := { s with journal := s.journal.adding [.cancelled] }

/-- The run has ended with the report of its first branch. -/
def close (s : Session) (id : String) (report : Run.Report) : Session :=
  { s with outcome := some (.of id s.setup.graph s.journal report) }

end Session

/-- How a run stands, for a client. -/
structure Standing where
  runId : String
  status : Run.Status
  failedNodes : List String
  outcome : Option Run.Outcome

/-- The standing of a run. -/
def Session.standing (s : Session) (id : String) : Standing :=
  match s.outcome with
  | some outcome => ⟨id, outcome.status, outcome.failedNodes, some outcome⟩
  | none => ⟨id, .running, s.journal.failedNodes, none⟩

/-- What the service answers. -/
inductive Answer
  | healthy
  | validated (problems : List Problem)
  | ran (outcome : Run.Outcome)
  | started (runId : String)
  | standing (s : Standing)
  | cancelling (runId : String)
  | waited
  | failed (fault : Fault)
  | invalidFlow (problems : List Problem)
  | unknownRun (runId : String)
  | malformed (errors : List ShapeError)

/-- An answer that refuses: its status, and what it says. -/
def Answer.refusal? : Answer → Option (Nat × Value)
  | .invalidFlow problems => some (422, .object
      [("message", .text (Problem.summary problems)),
        ("errors", .list (problems.map fun p => .text p.text))])
  | .unknownRun runId => some (404, .text ("Run " ++ runId ++ " not found"))
  | _ => none

/-- The state of the service. -/
structure Desk where
  settings : Settings
  registry : Registry
  now : Moment
  /-- The environment of the process. -/
  surroundings : Fields Value
  secretStore : SecretStore
  world : World
  /-- All runs, by their ids. -/
  sessions : Fields Session
  /-- The background runs that are on record, in start order. -/
  records : List String
  /-- How many ids were given out. -/
  issued : Nat
  /-- The answers so far, latest first. -/
  answers : List Answer

namespace Desk

/-- A service that was not asked for anything. -/
def new (settings : Settings) (registry : Registry) (now : Moment)
    (surroundings : Fields Value) (secretStore : SecretStore) (world : World) : Desk :=
  ⟨settings, registry, now, surroundings, secretStore, world, [], [], 0, []⟩

/-- The id of a number. -/
def idOf (n : Nat) : String := "run-" ++ Nat.repr n

/-- The service after an answer. -/
def answer (d : Desk) (a : Answer) : Desk := { d with answers := a :: d.answers }

/-- The session of a run on record. -/
def onRecord? (d : Desk) (id : String) : Option Session :=
  if d.records.contains id then d.sessions.get? id else none

/-- The run of an id has ended. -/
def hasFinished (d : Desk) (id : String) : Bool := (d.sessions.get? id).any Session.isFinished

/-- Leaves out the first `count` members that satisfy a test. -/
def dropFirst (p : String → Bool) : Nat → List String → List String
  | 0, ids => ids
  | _ + 1, [] => []
  | count + 1, id :: ids =>
    if p id then dropFirst p count ids else id :: dropFirst p (count + 1) ids

/-- Drops the oldest finished runs beyond the allowed number from the record. -/
def prune (d : Desk) : Desk :=
  let finished := (d.records.filter d.hasFinished).length
  let excess := ((finished : Int) - d.settings.keptRuns).toNat
  { d with records := dropFirst d.hasFinished excess d.records }

/-- What a run of a request is given. -/
def givenFor (d : Desk) (id : String) (r : RunRequest) : Run.Given :=
  .of d.settings d.surroundings d.secretStore id d.now (.object r.payload) r.declared
    r.environment none

/-- What a run of a graph does. -/
def setupFor (d : Desk) (g : Graph) : Run.Setup := ⟨g, d.registry, d.settings.maxIterations⟩

/-- Opens a session with the next id; the answer has its id and first strand. -/
def openSession (d : Desk) (g : Graph) (r : RunRequest) : String × Run.Strand × Desk :=
  let id := idOf (d.issued + 1)
  let given := d.givenFor id r
  let session : Session := ⟨d.setupFor g, [], given.vault, none⟩
  (id, Run.firstStrand g given,
    { d with sessions := d.sessions.set id session, issued := d.issued + 1 })

/-- Changes the session of a run. -/
def update (d : Desk) (id : String) (f : Session → Session) : Desk :=
  match d.sessions.get? id with
  | some s => { d with sessions := d.sessions.set id (f s) }
  | none => d

/-- The end of a run. -/
def close (d : Desk) (id : String) (report : Run.Report) : Desk :=
  d.update id fun s => s.close id report

/-- Raises the cancellation signal of every run on record that has not ended. -/
def cancelPending (d : Desk) : Desk :=
  (d.records.filter fun id => !d.hasFinished id).foldl (fun d id => d.update id Session.cancel) d

/-- How every run on record stands. -/
def standings (d : Desk) : Fields Standing :=
  d.records.filterMap fun id => (d.sessions.get? id).map fun s => (id, s.standing id)

end Desk

end Automation.Service
