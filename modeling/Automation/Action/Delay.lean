/-
Automation/Action/Delay.lean

The action that waits.

The first of the three durations that is given counts: milliseconds, seconds or
minutes.  Fractions of a millisecond are cut off.
-/
import Automation.Action.Behaviour
import Automation.Value.Number

namespace Automation.Action

/-- A duration that is no number is refused; a number that is too large for what
is done with it is a defect. -/
def asDelayFault : Fault → Fault
  | .integerTooLarge => .integerTooLarge
  | .infiniteInteger => .infiniteInteger
  | _ => .delayNotANumber

/-- A duration in milliseconds, from a value and the milliseconds of its unit. -/
def scaled (v : Value) (unit : Int) : Except Fault Int :=
  match v.toFloat with
  | .error f => .error (asDelayFault f)
  | .ok x =>
    let ms := if unit = 1 then x else x.mul (.ofInt unit)
    match Value.intOfFloat ms with
    | .ok n => .ok n
    | .error f => .error (asDelayFault f)

/-- The duration in settings, in milliseconds. -/
def durationOf (config : Fields Value) : Except Fault Int :=
  if !(config.at "durationMs").isMissing then scaled (config.at "durationMs") 1
  else if !(config.at "durationSeconds").isMissing then
    scaled (config.at "durationSeconds") 1000
  else if !(config.at "durationMinutes").isMissing then
    scaled (config.at "durationMinutes") 60000
  else .ok 0

/-- The action that waits. -/
def delay : Behaviour := .plain fun config _ =>
  Activity.attempt (durationOf config) fun ms =>
    let result := Activity.done [("success", .bool true), ("delayedMs", .int ms)]
    if ms < 0 then .fail .delayNegative
    else if ms = 0 then result
    else Activity.attempt (secondsOf ms) fun seconds => .sleep seconds result

end Automation.Action
