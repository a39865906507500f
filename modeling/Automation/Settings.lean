/-
Automation/Settings.lean

The settings of the engine.

Each setting has a name in the environment and a default.  A configuration store
may be asked first; what it gives goes before the environment, but an empty
answer does not count.  A number that cannot be read is replaced by its default.
-/
import Automation.Fields
import Automation.Number.Numeral

namespace Automation

/-- The settings of the engine. -/
structure Settings where
  port : Int
  host : String
  logLevel : String
  sidecarHost : String
  sidecarPort : String
  /-- Where events are published unless a node says otherwise. -/
  channel : String
  secretStore : String
  /-- Secrets are read from the secret store. -/
  secretsEnabled : Bool
  /-- Runs see the environment of the process. -/
  exposesEnvironment : Bool
  maxIterations : Int
  requestTimeout : Int
  /-- How many finished runs are kept. -/
  keptRuns : Int
  /-- Some setting came from the configuration store. -/
  fromStore : Bool

namespace Settings

/-- Words that switch something on. -/
def onWords : List String := ["1", "true", "yes", "on"]

/-- A written setting as a number, or the default. -/
def number (written : String) (fallback : Int) : Int := (Numeral.int? written).getD fallback

/-- A written setting as a switch. -/
def switch (written : String) : Bool :=
  onWords.contains (Text.lower (Text.strip written))

/-- The environment says that the configuration store is to be asked. -/
def asksStore (environment : Fields String) : Bool :=
  onWords.contains (Text.lower ((environment.get? "DAPR_CONFIG_ENABLED").getD ""))

/-- What counts of the answer of the configuration store. -/
def storeValues (environment : Fields String) (store : Option (Fields String)) : Fields String :=
  if asksStore environment then
    (store.getD []).filter fun (_, v) => v != ""
  else []

/-- Reads the settings.  `store` is the answer of the configuration store, if it
gives one. -/
def load (environment : Fields String) (store : Option (Fields String)) : Settings :=
  let stored := storeValues environment store
  let written (key variableName fallback : String) : String :=
    match stored.get? key with
    | some v => v
    | none => (environment.get? variableName).getD fallback
  { port := number (written "PORT" "PORT" "8080") 8080
    host := written "HOST" "HOST" "0.0.0.0"
    logLevel := written "LOG_LEVEL" "LOG_LEVEL" "INFO"
    sidecarHost := written "DAPR_HOST" "DAPR_HOST" "localhost"
    sidecarPort := written "DAPR_HTTP_PORT" "DAPR_HTTP_PORT" "3500"
    channel := written "PUBSUB_NAME" "PUBSUB_NAME" "pubsub"
    secretStore := written "DAPR_SECRETS_STORE" "DAPR_SECRETS_STORE" "local-secret-store"
    secretsEnabled := switch (written "SECRETS_ENABLED" "FLOW_SECRETS_ENABLED" "false")
    exposesEnvironment :=
      switch (written "EXPOSE_PROCESS_ENV" "FLOW_EXPOSE_PROCESS_ENV" "false")
    maxIterations :=
      number (written "DEFAULT_MAX_ITERATIONS" "FLOW_DEFAULT_MAX_ITERATIONS" "500") 500
    requestTimeout :=
      number (written "HTTP_TIMEOUT_SECONDS" "FLOW_HTTP_TIMEOUT_SECONDS" "300") 300
    keptRuns := number (written "MAX_FINISHED_RUNS" "FLOW_MAX_FINISHED_RUNS" "1000") 1000
    fromStore := !stored.isEmpty }

/-- The settings in an empty environment. -/
def standard : Settings := load [] none

end Settings

end Automation
