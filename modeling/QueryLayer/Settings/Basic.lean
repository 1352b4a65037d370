import QueryLayer.Logging.Entry
import QueryLayer.Wire.Changes

/-! # Settings

Where a server listens and how much it accepts, how it logs, which server is inspected, and how
caches behave. Settings that were read have passed `Settings.check`.
-/
namespace QueryLayer

structure ServerSettings where
  host : String
  port : Nat
  /-- The most bytes that a request may have. -/
  maxBodySize : Nat
deriving DecidableEq

structure LoggingSettings where
  level : LogLevel
  format : LogFormat
deriving DecidableEq

structure Settings where
  server : ServerSettings
  logging : LoggingSettings
  /-- The server that is called. -/
  endpoint : String
  cache : CacheOptions
deriving DecidableEq

/-- What is wrong with settings. -/
inductive SettingsFlaw where
  | port
  | host
  | maxBodySize
  | endpoint (url : String)
  | syncInterval
deriving DecidableEq

/-- Why there are no settings. -/
inductive SettingsError where
  | flawed (flaw : SettingsFlaw)
  /-- The file cannot be read, or does not say what settings are. -/
  | badFile
deriving DecidableEq

def SettingsFlaw.message : SettingsFlaw → String
  | port => "Invalid port: port must be between 1 and 65535"
  | host => "Invalid host: host cannot be empty"
  | maxBodySize => "Invalid max_body_size: must be greater than 0"
  | endpoint url => s!"Invalid rpc.url '{url}': expected an http:// or https:// URL"
  | syncInterval => "Invalid cache.sync_interval_secs: must be greater than 0"

def ServerSettings.default : ServerSettings := ⟨"127.0.0.1", 1234, 50 * 1024 * 1024⟩

def LoggingSettings.default : LoggingSettings := ⟨.info, .human⟩

namespace Settings

def default : Settings := ⟨.default, .default, "http://localhost:1234", .default⟩

/-- Host and port. -/
def address (s : Settings) : String := s!"{s.server.host}:{s.server.port}"

def isHttp (url : String) : Bool := url.startsWith "http://" || url.startsWith "https://"

/-- The first flaw, if there is one. -/
def flaw? (s : Settings) : Option SettingsFlaw :=
  if s.server.port = 0 then some .port
  else if s.server.host.isEmpty then some .host
  else if s.server.maxBodySize = 0 then some .maxBodySize
  else if !isHttp s.endpoint then some (.endpoint s.endpoint)
  else if s.cache.syncInterval = some 0 then some .syncInterval
  else none

def check (s : Settings) : Except SettingsError Settings :=
  match s.flaw? with
  | some flaw => .error (.flawed flaw)
  | none => .ok s

/-- Later settings replace earlier ones, section by section; each section is whole. -/
def merge (s later : Settings) : Settings :=
  { s with
    server := later.server
    logging := later.logging
    endpoint := later.endpoint
    cache := later.cache }

end Settings

end QueryLayer
