/-
Automation/Action/Activity.lean

What an action does once it is invoked.

An activity is a tree of requests to the surroundings: let others go first,
sleep, cancel the run, look up secrets, leave a note, send a request and go on
with the reply, publish a message and go on with what came of it.  It ends with
a value or a fault.  The tree says nothing about who carries the requests out,
so an action is a value that can be reasoned about.
-/
import Automation.Fault

namespace Automation

/-- What a request carries along. -/
inductive Body
  | none
  | structured (v : Value)
  | raw (s : String)

/-- A request to another service. -/
structure Request where
  method : String
  url : String
  headers : Fields String
  timeout : Binary64
  body : Body

/-- What becomes of a request. -/
inductive Reply
  | response (status : Int) (reason : Option String) (body : String) (headers : Fields Value)
      (elapsedMs : Int)
  | timedOut
  | failed (reason : String)

/-- A message to be published. -/
structure Message where
  channel : Value
  topic : String
  text : String

/-- Something that can be noticed from outside. -/
inductive Effect
  | called (kind : String) (config : Value)
  | slept (seconds : Binary64)
  | requested (request : Request)
  | published (message : Message)
  | askedSecret (store name : String)
  | wroteLog (level text : String)

/-- What an action does. -/
inductive Activity
  | finish (result : Except Fault Value)
  | pause (next : Activity)
  | sleep (seconds : Binary64) (next : Activity)
  | cancelRun (next : Activity)
  | askSecrets (names : List String) (next : Activity)
  | note (effect : Effect) (next : Activity)
  | send (request : Request) (next : Reply → Activity)
  | publish (message : Message) (next : Option String → Activity)

namespace Activity

/-- Ends with the fields of a result. -/
def done (fields : Fields Value) : Activity := .finish (.ok (.object fields))

/-- Ends with a fault. -/
def fail (fault : Fault) : Activity := .finish (.error fault)

/-- Goes on with what was worked out, or ends with the fault. -/
def attempt (r : Except Fault α) (next : α → Activity) : Activity :=
  match r with
  | .ok a => next a
  | .error fault => fail fault

end Activity

/-- A duration in seconds; too long a one is no number of seconds. -/
def secondsOf (milliseconds : Int) : Except Fault Binary64 :=
  let x := Binary64.ofRat false (mkRat milliseconds 1000)
  if x.isInfinite then .error .quotientTooLarge else .ok x

/-- A duration in whole microseconds; too long a one has no number of them. -/
def microsecondsOf (seconds : Binary64) : Except Fault Nat :=
  match (seconds.mul (.ofInt 1000000)).round? with
  | some n => .ok n.toNat
  | none => .error .infiniteInteger

/-- What the outside world will say, and what was noticed there so far. -/
structure World where
  /-- The replies to the next requests. -/
  replies : List Reply
  /-- Why nothing can be published, if so. -/
  publishFault : Option String
  /-- What was noticed, latest first. -/
  noticed : List Effect

namespace World

/-- A world in which something was noticed. -/
def notice (w : World) (e : Effect) : World := { w with noticed := e :: w.noticed }

/-- What was noticed, in order. -/
def trace (w : World) : List Effect := w.noticed.reverse

/-- The reply once all that was foreseen is used up. -/
def emptyReply : Reply := .response 200 (some "OK") "" [] 0

/-- Sends a request. -/
def send (w : World) (r : Request) : Reply × World :=
  let w := w.notice (.requested r)
  match w.replies with
  | reply :: rest => (reply, { w with replies := rest })
  | [] => (emptyReply, w)

/-- Publishes a message; the answer tells why that failed. -/
def publish (w : World) (m : Message) : Option String × World :=
  match w.publishFault with
  | some reason => (some reason, w)
  | none => (none, w.notice (.published m))

end World

/-- Carries out an activity on its own: it neither waits nor is it part of a run,
and its secrets are at hand. -/
def Activity.perform (w : World) : Activity → Except Fault Value × World
  | .finish result => (result, w)
  | .pause next => next.perform w
  | .sleep seconds next =>
    let w := w.notice (.slept seconds)
    match microsecondsOf seconds with
    | .ok _ => next.perform w
    | .error fault => (.error fault, w)
  | .cancelRun next => next.perform w
  | .askSecrets _ next => next.perform w
  | .note effect next => next.perform (w.notice effect)
  | .send request next => let (reply, w) := w.send request; (next reply).perform w
  | .publish message next => let (failure, w) := w.publish message; (next failure).perform w

end Automation
