/-
Automation/Action/Standard.lean

The actions that come with the engine.
-/
import Automation.Action.Announce
import Automation.Action.Assign
import Automation.Action.Decide
import Automation.Action.Delay
import Automation.Action.Entry
import Automation.Action.Fetch
import Automation.Action.Filter
import Automation.Action.Report
import Automation.Action.Respond

namespace Automation

/-- The registry of the actions that come with the engine. -/
def Registry.standard (settings : Settings) : Registry :=
  [("start", Action.entrance), ("trigger", Action.entrance), ("condition", Action.decide),
    ("http-request", Action.fetch settings), ("set-variable", Action.assign),
    ("delay", Action.delay), ("logger", Action.report), ("response", Action.respond),
    ("data-filter", Action.filter), ("publish-event", Action.announce settings)]

end Automation
