/-
Automation/Run/Outcome.lean

Runs from beginning to end.
-/
import Automation.Run.Strand
import Automation.Schedule.Machine
import Automation.Settings

namespace Automation.Run

open Automation.Schedule (Machine)

/-- How a run stands. -/
inductive Status
  | running
  | succeeded
  | failed
  | cancelled
  deriving DecidableEq, Repr

/-- The word for a status. -/
def Status.word : Status → String
  | .running => "running"
  | .succeeded => "succeeded"
  | .failed => "failed"
  | .cancelled => "cancelled"

/-- What a run comes to. -/
structure Outcome where
  runId : String
  status : Status
  /-- The last result of each node. -/
  results : Fields Value
  failedNodes : List String
  errors : Fields String
  reply : Value
  log : List Line
  states : Fields NodeState

/-- The status of a run that has ended. -/
def statusOf (j : Journal) (report : Report) : Status :=
  if report.aborted then .failed else if j.isCancelled then .cancelled else .succeeded

/-- What a run comes to, by its journal and the report of its first branch. -/
def Outcome.of (runId : String) (g : Graph) (j : Journal) (report : Report) : Outcome :=
  { runId
    status := statusOf j report
    results := j.results
    failedNodes := j.failedNodes
    errors := j.errors
    reply := j.reply
    log := j.log
    states := Fields.ofPairs (g.nodes.map fun n => (n.id, j.state n.id)) }

/-- What a caller gives to a run. -/
structure Given where
  occasion : Occasion
  declared : Source
  environment : Source
  secrets : Source

/-- What a run is given, by the settings and what its caller hands over: a payload
that is not there is an object without fields, and secrets that are not handed
over come from the secret store if the settings say so. -/
def Given.of (settings : Settings) (surroundings : Fields Value) (store : SecretStore)
    (runId : String) (now : Moment) (payload : Value) (declared environment : Fields Value)
    (secrets : Option (Fields Value)) : Given where
  occasion := ⟨runId, payload.orElse (.object []), now⟩
  declared := .table declared false
  environment :=
    .environment (if settings.exposesEnvironment then surroundings else []) environment
  secrets := match secrets with
    | some values => .table values true
    | none => if settings.secretsEnabled then .secrets store else .empty

/-- What the first branch of a run sees. -/
def Given.view (given : Given) : View :=
  { View.bare given.occasion with
    declared := given.declared
    environment := given.environment
    secrets := given.secrets }

/-- The vault of a run whose secrets come from a secret store. -/
def Given.vault (given : Given) : Option Vault :=
  match given.secrets with
  | .secrets store => some (.new store)
  | .table .. => none

/-- The first branch of a run. -/
def firstStrand (g : Graph) (given : Given) : Strand := .visit g.start.id ⟨given.view, .empty⟩

/-- A run that has not begun. -/
def beginning (setup : Setup) (given : Given) (journal : Journal) (world : World) :
    Machine State Strand Report :=
  .start ⟨journal, given.vault, world⟩ (firstStrand setup.graph given)

/-- The report of the first branch, once it has ended. -/
def reportOf (m : Machine State Strand Report) : Option Report :=
  m.tasks.head?.bind Schedule.Task.result?

/-- Runs a flow for at most `fuel` steps.  There is an outcome if it ended. -/
def run (fuel : Nat) (setup : Setup) (given : Given) (journal : Journal) (world : World) :
    Option Outcome × World :=
  let (m, _) := (beginning setup given journal world).run (program setup) fuel
  let outcome := (reportOf m).map fun report =>
    Outcome.of given.occasion.runId setup.graph m.shared.journal report
  (outcome, m.shared.world)

end Automation.Run
