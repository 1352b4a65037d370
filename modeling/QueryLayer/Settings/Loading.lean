import QueryLayer.Files
import QueryLayer.Settings.Written

/-! # Loading settings

Settings come from a file, if there is one, and then from the environment. A variable that does not
read as what it stands for is passed over.
-/
namespace QueryLayer

/-- The environment variables. -/
abbrev Variables := Dict String

namespace Variables

/-- The value of a variable, if it is set and reads well. -/
def read {α : Type} (vars : Variables) (name : String) (reader : String → Option α) (otherwise : α) : α :=
  ((vars.get? name).bind reader).getD otherwise

/-- Decimal digits after an optional plus, below `limit`. -/
def natural? (limit : Nat) (s : String) : Option Nat :=
  let digits := match s.toList with
    | '+' :: rest => rest
    | all => all
  if digits.isEmpty || !digits.all Char.isDigit then none
  else
    let n := Value.digitsValue digits
    if n < limit then some n else none

def flag? (s : String) : Option Bool :=
  if s = "true" then some true
  else if s = "false" then some false
  else none

end Variables

namespace Settings

/-- What the variables say takes the place of what was there. -/
def override (vars : Variables) (s : Settings) : Settings where
  server :=
    { host := vars.read "CONDUIT_HOST" some s.server.host
      port := vars.read "CONDUIT_PORT" (Variables.natural? (Nat.pow 2 16)) s.server.port
      maxBodySize :=
        vars.read "CONDUIT_MAX_BODY_SIZE" (Variables.natural? (Nat.pow 2 64)) s.server.maxBodySize }
  logging :=
    { level := vars.read "CONDUIT_LOG_LEVEL" LogLevel.read? s.logging.level
      format := vars.read "CONDUIT_LOG_FORMAT" LogFormat.read? s.logging.format }
  endpoint := vars.read "CONDUIT_RPC_URL" some s.endpoint
  cache :=
    { syncOnRead := vars.read "CONDUIT_CACHE_SYNC_ON_READ" Variables.flag? s.cache.syncOnRead
      syncInterval :=
        vars.read "CONDUIT_CACHE_SYNC_INTERVAL" (fun v => (Variables.natural? (Nat.pow 2 64) v).map some)
          s.cache.syncInterval }

/-- The settings in a file, or the defaults when there is none. -/
def ofFile (file : FileView) : Except SettingsError Settings :=
  match file with
  | .absent => .ok default
  | .unreadable => .error .badFile
  | .content text =>
    match ofToml? text with
    | some s => .ok (default.merge s)
    | none => .error .badFile

def load (file : FileView) (vars : Variables) : Except SettingsError Settings := do
  let s ← ofFile file
  (s.override vars).check

end Settings

end QueryLayer
