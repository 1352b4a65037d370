import QueryLayer.Command.Basic

/-! # The program

Collects what a command finds around it, and reports how it ended.
-/
namespace QueryLayer

/-- The environment variables that settings know. -/
def Settings.variableNames : List String :=
  ["CONDUIT_HOST", "CONDUIT_PORT", "CONDUIT_MAX_BODY_SIZE", "CONDUIT_LOG_LEVEL",
    "CONDUIT_LOG_FORMAT", "CONDUIT_RPC_URL", "CONDUIT_CACHE_SYNC_ON_READ",
    "CONDUIT_CACHE_SYNC_INTERVAL"]

/-- The files that a command reads. -/
def Command.paths : Command → List String
  | serve file _ _ definition => file :: definition.toList
  | config file _ _ => [file]
  | inspect file _ definition => [file, definition]

def contentOf (file : IO.FS.Handle) : IO FileView := do
  try pure (.content (← file.readToEnd)) catch _ => pure .unreadable

/-- A path that cannot be opened leads nowhere, unless it is the permission that is missing. -/
def look (path : String) : IO FileView := do
  try contentOf (← IO.FS.Handle.mk path .read)
  catch
    | .permissionDenied .. => pure .unreadable
    | _ => pure .absent

def collect (args : List String) : IO Surroundings := do
  let paths := match Command.ofArguments args with
    | .ok command => command.paths
    | .error _ => []
  let views ← paths.mapM fun path => do pure (path, ← look path)
  let environment ← Settings.variableNames.filterMapM fun name => do
    pure ((← IO.getEnv name).map fun v => (name, v))
  pure
    { file := fun path => ((views.find? fun v => v.1 = path).map Prod.snd).getD .absent
      environment := .ofList environment
      network := .none }

end QueryLayer

def main (args : List String) : IO UInt32 := do
  let report := QueryLayer.Command.run (← QueryLayer.collect args) args
  IO.print report.output
  IO.eprint report.complaint
  pure report.code.toUInt32
