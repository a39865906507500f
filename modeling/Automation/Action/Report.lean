/-
Automation/Action/Report.lean

The action that writes a line to the log of the service.
-/
import Automation.Action.Behaviour
import Automation.Json.Reader

namespace Automation.Action

/-- A setting that switches off: false, a zero, or the word. -/
def switchesOff : Value → Bool
  | .bool b => !b
  | .int n => n == 0
  | .float x => x.isZero
  | .text s => s == "false"
  | _ => false

/-- The level that a line is written at. -/
def levelOf : String → String
  | "debug" => "DEBUG"
  | "warn" => "WARNING"
  | "warning" => "WARNING"
  | "error" => "ERROR"
  | _ => "INFO"

/-- Data of the author: structured if its text reads as such. -/
def authoredData (raw : Value) : Except Fault Value :=
  if raw.isMissing then .ok .null
  else match raw with
    | .text s => (Json.data? s).map fun read => read.getD (.object [("raw", .text s)])
    | v => .ok v

/-- What is told beside the line. -/
def metadata (now : Moment) (data custom : Value) : Fields Value :=
  [("timestamp", .text now.text)]
    ++ (if data.isNull then [] else [("data", data)])
    ++ (if custom.isNull then [] else [("customData", custom)])

/-- The action that writes a line to the log. -/
def report : Behaviour where
  required := []
  defaults := [("logLevel", .text "info"), ("message", .text "Logger node executed")]
  resolves := true
  invoke config view :=
    if switchesOff (config.at "enabled") then
      .done [("success", .bool true), ("logged", .bool false),
        ("message", .text "Logging disabled")]
    else
      let level := Text.lower (config.at "logLevel").shown
      let message := (config.at "message").shown
      let data := config.at "dataSource"
      Activity.attempt (authoredData (config.at "customData")) fun custom =>
        .note (.wroteLog (levelOf level) ("[Flow Logger] " ++ message)) <|
          .done
            [("success", .bool true), ("logged", .bool true), ("level", .text level),
              ("message", .text message), ("data", data),
              ("metadata", .object (metadata view.occasion.now data custom))]
  successors := Behaviour.allUntagged
  successors_mem := Behaviour.mem_outgoing_of_mem_allUntagged

end Automation.Action
