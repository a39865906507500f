/-
Automation/Action/Fetch.lean

The action that sends a request to a web service.

Only addresses with the scheme `http` or `https` and a host are tried.  A status
from 200 to 299 is a success; any other fails the node by its reason.  The body
of the reply is structured data if it reads as such, else text.  The case of
letters in the name of a header does not tell headers apart.
-/
import Automation.Action.Address
import Automation.Action.Behaviour
import Automation.Json.Reader
import Automation.Settings
import Automation.Value.Number

namespace Automation.Action

/-- The entries of an object for people; what is no object has none. -/
def shownEntries (v : Value) : Fields String :=
  .ofPairs ((v.entries?.getD []).map fun (k, v) => ((Value.ofKey k).shown, v.shown))

/-- The headers in the settings: an object, or the text of one. -/
def headersOf : Value → Except Fault (Fields String)
  | .text s => (Json.data? s).map fun read => (read.map shownEntries).getD []
  | v => .ok (shownEntries v)

/-- The headers with the key of an account, if there is one. -/
def withKey (headers : Fields String) (key : Value) : Fields String :=
  if key.isTruthy then headers.set "Authorization" ("Bearer " ++ key.shown) else headers

/-- What a request carries along. -/
def bodyOf (method : String) (body : Value) : Body :=
  if method = "GET" ∨ body.isMissing then .none
  else match body with
    | .list items => .structured (.list items)
    | .object fields => .structured (.object fields)
    | .table entries => .structured (.table entries)
    | v => .raw v.shown

/-- The request that settings stand for. -/
def requestOf (defaultTimeout : Int) (config : Fields Value) : Except Fault Request := do
  let url := Text.strip (config.at "url").shown
  Address.check url
  let method := Text.upper ((config.at "method").orElse (.text "GET")).shown
  let headers ← headersOf (config.at "headers")
  let timeout ← ((config.at "timeoutSeconds").orElse (.int defaultTimeout)).toFloat
  .ok
    { method, url, timeout
      headers := withKey headers (config.at "apiKey")
      body := bodyOf method (config.at "body") }

/-- A reason that is there and not empty. -/
def wordedReason (reason : Option String) : Option String := reason.filter (· ≠ "")

/-- A header after others: one of the same name, its case aside, gives way to it. -/
def addHeader (headers : Fields Value) (name : String) (value : Value) : Fields Value :=
  match headers with
  | [] => [(name, value)]
  | (n, v) :: rest =>
    if Text.lower n = Text.lower name then (name, value) :: rest
    else (n, v) :: addHeader rest name value

/-- The headers of a reply, each name once. -/
def mergedHeaders (headers : Fields Value) : Fields Value :=
  headers.foldl (fun acc (name, value) => addHeader acc name value) []

/-- The data that the body of a reply is; a text if it does not read as any.  One
that is nested too deeply is a fault. -/
def replyData (body : String) : Except Fault Value :=
  match Json.read .data body with
  | .ok v => .ok v
  | .error (.tooNested inObject) => .error (.tooNested inObject)
  | .error _ => .ok (.text body)

/-- The result of a request. -/
def replyResult (timeout : Binary64) : Reply → Activity
  | .timedOut => .fail (.requestTimedOut timeout)
  | .failed reason => .fail (.requestFailed reason)
  | .response status reason body headers elapsedMs =>
    let success := 200 ≤ status && status < 300
    let fallback := "HTTP " ++ (Value.int status).plain
    Activity.attempt (replyData body) fun data =>
      .done
        [("success", .bool success), ("status", .int status),
          ("statusText", .text ((wordedReason reason).getD "")),
          ("data", data), ("headers", .object (mergedHeaders headers)),
          ("error", if success then .null else .text ((wordedReason reason).getD fallback)),
          ("durationMs", .int elapsedMs)]

/-- The action that sends a request. -/
def fetch (settings : Settings) : Behaviour where
  required := ["url"]
  defaults := [("method", .text "GET")]
  resolves := true
  invoke config _ :=
    Activity.attempt (requestOf settings.requestTimeout config) fun r =>
      .send r (replyResult r.timeout)
  successors := Behaviour.allUntagged
  successors_mem := Behaviour.mem_outgoing_of_mem_allUntagged

end Automation.Action
