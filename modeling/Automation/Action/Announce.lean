/-
Automation/Action/Announce.lean

The action that publishes an event.
-/
import Automation.Action.Behaviour
import Automation.Settings

namespace Automation.Action

/-- What is told about an event beside its own data. -/
def eventMetadata (v : Value) : Except Fault (Entries Value) :=
  if v.isTruthy then match v.entries? with
    | some entries => .ok entries
    | none => .error (.noFields v.kindName)
  else .ok []

/-- The text of an event. -/
def eventFields (type : String) (data : Value) (occasion : Occasion) : Fields Value :=
  [("type", .text type), ("source", .text "flow-executor"),
    ("data", data.orElse (.object [])), ("time", .text occasion.now.text),
    ("specversion", .text "1.0"), ("datacontenttype", .text "application/json"),
    ("runid", .text occasion.runId)]

/-- The result of publishing. -/
def announceResult (topic type : String) (failure : Option String) : Fields Value :=
  [("success", .bool failure.isNone), ("topic", .text topic), ("eventType", .text type)]
    ++ (failure.map fun reason =>
      ("error", Value.text ("Failed to publish event: " ++ reason))).toList

/-- The action that publishes an event. -/
def announce (settings : Settings) : Behaviour where
  required := []
  defaults := [("topic", .text "flow.events"), ("eventType", .text "custom")]
  resolves := true
  invoke config view :=
    let topic := (config.at "topic").shown
    let type := (config.at "eventType").shown
    Activity.attempt (eventMetadata (config.at "metadata")) fun extra =>
      let event := Entries.ofFields (eventFields type (config.at "data") view.occasion)
      let message : Message :=
        ⟨(config.at "pubsubName").orElse (.text settings.channel), topic,
          Json.print .spaced (.ofEntries (event.overlay extra))⟩
      .publish message fun failure => .done (announceResult topic type failure)
  successors := Behaviour.allUntagged
  successors_mem := Behaviour.mem_outgoing_of_mem_allUntagged

end Automation.Action
