/-
Automation/Binding/View.lean

What one branch of a run sees, and how bindings are resolved against it.

A view holds the results that its branch has, the bindings and frames of the
loops around it, the sources of variables, environment and secrets, and the
scope.  Views are values: a branch that forks hands its view on, and what one
branch writes no other sees.  A reference is looked up in a fixed order: the
environment and secrets by their heads, loop bindings by full name, loop
frames, loop bindings and results by path, and at last the variables.  Only a
path can fail; then nothing after it is looked up.
-/
import Automation.Binding.Source
import Automation.Binding.Template
import Automation.Value.Path
import Automation.Value.Text

namespace Automation

/-- The iterations around a place, outermost first: loop and index. -/
abbrev Scope := List (String × Int)

/-- A point in time, in both ways in which it is told. -/
structure Moment where
  text : String
  milliseconds : Int

/-- What is the same everywhere in a run. -/
structure Occasion where
  runId : String
  /-- What set the run off. -/
  payload : Value
  now : Moment

/-- What one branch of a run sees. -/
structure View where
  occasion : Occasion
  results : Fields Value
  /-- The variables that the flow declares. -/
  declared : Source
  environment : Source
  secrets : Source
  /-- Bindings of the iterations around, inner ones over outer ones. -/
  loopScope : Fields Value
  /-- What each enclosing loop tells about its current iteration. -/
  loopFrames : Fields Value
  scope : Scope

namespace View

/-- A view in which nothing is bound. -/
def bare (occasion : Occasion) : View :=
  ⟨occasion, [], .empty, .empty, .empty, [], [], []⟩

/-- The view after a node's result was written. -/
def write (v : View) (node : String) (result : Value) : View :=
  { v with results := v.results.set node result }

/-- The view inside one iteration of a loop. -/
def enter (v : View) (loop : String) (index : Int) (bindings : Fields Value) (frame : Value) :
    View :=
  { v with
    loopScope := v.loopScope.overlay bindings
    loopFrames := v.loopFrames.set loop frame
    scope := v.scope ++ [(loop, index)] }

/-- The view lies inside an iteration of the loop. -/
def isInside (v : View) (loop : String) : Bool := v.scope.any fun s => s.1 == loop

end View

namespace Binding

/-- The field under which the frame of a loop is found. -/
def frameMarker : String := "_loop"

/-- A reference cut at its first dot. -/
def headAndRest (ref : String) : String × String :=
  let (head, rest) := Text.cutOnce '.' ref.toList
  (String.ofList head, String.ofList rest)

/-- A segment without its indices. -/
def segmentName (segment : String) : String :=
  String.ofList (segment.toList.takeWhile (· != '['))

/-- The name that a trimmed reference asks of the secrets. -/
def secretName? (ref : String) : Option String :=
  let (head, rest) := headAndRest ref
  if (head = "env" ∨ head = "secrets") ∧ rest ≠ "" then some rest else none

/-- What the frame of a loop holds at a path. -/
def frameValue (frame : Value) (path : String) : Except Fault Value :=
  if path.isEmpty then .ok frame else frame.at path

end Binding

open Binding

/-- The value of a trimmed reference; null if nothing has that name. -/
def View.lookup (v : View) (ref : String) : Except Fault Value :=
  if ref.isEmpty then .ok .null else
  let (head, rest) := headAndRest ref
  if head = "env" ∧ rest ≠ "" then
    let secret := v.secrets.get rest
    .ok (if secret.isNull then v.environment.get rest else secret)
  else if head = "secrets" ∧ rest ≠ "" then .ok (v.secrets.get rest)
  else match v.loopScope.get? ref with
    | some bound => .ok bound
    | none =>
      let name := segmentName head
      let (marker, framePath) := headAndRest rest
      match (if marker = frameMarker then v.loopFrames.get? head else none) with
      | some frame => frameValue frame framePath
      | none =>
        if v.loopScope.has name then (Value.object v.loopScope).at ref
        else if v.results.has name then (Value.object v.results).at ref
        else
          let value := v.declared.get name
          if value.isNull then .ok .null else (Value.object [(name, value)]).at ref

namespace View

/-- The plain text of the value of a reference. -/
def lookupText (v : View) (ref : String) : Except Fault String := (v.lookup ref).map Value.plain

mutual

/-- A value with its bindings resolved.  A text that is one binding becomes the
value it refers to; in any other text each binding becomes the plain text of its
value. -/
def resolve (v : View) : Value → Except Fault Value
  | .text s => match soleReference? s with
    | some ref => v.lookup ref
    | none => (fillWith v.lookupText s).map .text
  | .list items => (v.resolveItems items).map .list
  | .object fields => (v.resolveFields fields).map .object
  | .table entries => (v.resolveEntries entries).map .table
  | other => .ok other

def resolveItems (v : View) : List Value → Except Fault (List Value)
  | [] => .ok []
  | x :: xs => match v.resolve x with
    | .ok y => (v.resolveItems xs).map (y :: ·)
    | .error fault => .error fault

def resolveFields (v : View) : List (String × Value) → Except Fault (List (String × Value))
  | [] => .ok []
  | (k, x) :: fs => match v.resolve x with
    | .ok y => (v.resolveFields fs).map ((k, y) :: ·)
    | .error fault => .error fault

def resolveEntries (v : View) : List (Key × Value) → Except Fault (List (Key × Value))
  | [] => .ok []
  | (k, x) :: es => match v.resolve x with
    | .ok y => (v.resolveEntries es).map ((k, y) :: ·)
    | .error fault => .error fault

end

/-- The names that looking up references asks of the secrets, in order: those up
to the first reference that fails. -/
def secretsAsked (v : View) (refs : List String) : List String :=
  (refs.takeWhile fun ref => (v.lookup ref).isOk).filterMap secretName?

end View

end Automation
