/-
Automation/Loop/Plan.lean

What a loop is going to do: its sources, how often it runs, and what each
iteration binds.

A source is an array, or a text that is cut at commas.  Without variables a loop
counts up to its cap; with variables it runs as often as the linked source has
elements, else the longest one, and never more often than its cap.
-/
import Automation.Binding.View
import Automation.Loop.Settings

namespace Automation.Loop

/-- The plan of one execution of a loop. -/
structure Plan where
  /-- The id of the loop node. -/
  loop : String
  settings : Settings
  /-- The variables whose sources are usable, with their elements. -/
  sources : List (Variable × List Value)

namespace Plan

/-- The elements of a source, if it is usable. -/
def elements? (trims : Bool) : Value → Option (List Value)
  | .text s =>
    let parts := Text.cut ',' s.toList
    some ((if trims then parts.map Text.stripChars else parts).map fun p =>
      .text (String.ofList p))
  | .list items => some items
  | _ => none

/-- What a view holds at the source of a variable. -/
def sourceValue (view : View) (v : Variable) : Except Fault Value :=
  (view.results.at v.sourceNode).at v.sourceField

/-- The elements of the source of a variable, if it has a usable one. -/
def source? (trims : Bool) (view : View) (v : Variable) : Except Fault (Option (List Value)) :=
  if v.hasSource then (sourceValue view v).map (elements? trims) else .ok none

/-- The usable sources in the order of the variables. -/
def collect (trims : Bool) (view : View) :
    List Variable → Except Fault (List (Variable × List Value))
  | [] => .ok []
  | v :: rest => do
    let found ← source? trims view v
    let more ← collect trims view rest
    .ok ((found.map fun xs => (v, xs)).toList ++ more)

/-- The plan of a loop in a view. -/
def make (loop : String) (settings : Settings) (view : View) : Except Fault Plan :=
  (collect settings.trims view settings.vars).map fun sources => ⟨loop, settings, sources⟩

/-- The loop has variables, and none of them has a usable source. -/
def lacksData (p : Plan) : Bool := !p.settings.vars.isEmpty && p.sources.isEmpty

/-- The length of the longest source. -/
def longest (p : Plan) : Nat := (p.sources.map fun s => s.2.length).foldl max 0

/-- The elements of the first source whose variable has the linked id. -/
def linked? (p : Plan) : Option (List Value) :=
  match p.settings.linkedVariable with
  | .null => none
  | linked => (p.sources.find? fun s => linked == .text s.1.id).map (·.2)

/-- How many iterations there are. -/
def count (p : Plan) : Nat :=
  if p.settings.vars.isEmpty then p.settings.maxIterations
  else
    let available := match p.linked? with
      | some xs => xs.length
      | none => p.longest
    min available p.settings.maxIterations

/-- The number that an iteration is counted by. -/
def counter (p : Plan) (i : Int) : Int := p.settings.counterStart + i

/-- The element of a source in an iteration; null where the source is too short. -/
def element (xs : List Value) (i : Int) : Value := (Value.list xs).element i

/-- An iteration is the first one, or the last one. -/
def isFirst (i : Int) : Bool := i == 0

def isLast (p : Plan) (i : Int) : Bool := i == (p.count : Int) - 1

/-- What is bound in an iteration beside the variables. -/
def reserved (p : Plan) (i : Int) : Fields Value :=
  [("loop_iteration", .int (p.counter i)), ("loop.index", .int i),
    ("loop.isFirst", .bool (isFirst i)), ("loop.isLast", .bool (p.isLast i)),
    ("loop.total", .int p.count)]

/-- What the sources bind in an iteration: each variable to its element, and its
name with `Index` behind it to the index. -/
def bound (p : Plan) (i : Int) : Fields Value :=
  p.sources.flatMap fun (v, xs) => [(v.name, element xs i), (v.name ++ "Index", .int i)]

/-- All bindings of an iteration. -/
def bindings (p : Plan) (i : Int) : Fields Value :=
  Fields.overlay (p.reserved i) (p.bound i)

/-- The part of the frame that does not depend on the sources. -/
def frameStart (p : Plan) (i : Int) : Fields Value :=
  [("index", .int i), ("iteration", .int (p.counter i)), ("total", .int p.count),
    ("isFirst", .bool (isFirst i)), ("isLast", .bool (p.isLast i))]

/-- What the frame tells about the first source. -/
def frameEnd (p : Plan) (i : Int) : Fields Value :=
  match p.sources with
  | (_, xs) :: _ => [("current", element xs i), ("arrayLength", .int xs.length)]
  | [] => [("current", .int i)]

/-- What a loop tells about one of its iterations. -/
def frame (p : Plan) (i : Int) : Fields Value :=
  Fields.overlay (p.frameStart i)
    (p.sources.map (fun (v, xs) => (v.name, element xs i)) ++ p.frameEnd i)

/-- A place lies in no source before its beginning; a negative one is counted from
the end. -/
def reaches (p : Plan) (i : Int) : Bool :=
  p.sources.all fun s => decide (-(s.2.length : Int) ≤ i)

/-- What an iteration at any place binds, and what the loop tells about it. -/
def iteration (p : Plan) (i : Int) : Except Fault (Fields Value × Value) :=
  if p.reaches i then .ok (p.bindings i, .object (p.frame i)) else .error .outOfRange

/-- The view inside an iteration. -/
def enter (p : Plan) (view : View) (i : Nat) : View :=
  view.enter p.loop i (p.bindings i) (.object (p.frame i))

end Plan

end Automation.Loop
