import QueryLayer.Settings.Basic
import QueryLayer.Toml.Document
import QueryLayer.Toml.Text

/-! # Written settings

Settings as a value and as TOML. What is not given has its default.
-/
namespace QueryLayer

open Wire

def ServerSettings.encode (s : ServerSettings) : Value :=
  .object [("host", .text s.host), ("max_body_size", .nat s.maxBodySize), ("port", .nat s.port)]

def ServerSettings.decode : Decoder ServerSettings := fields do
  let host ← optional "host" text ServerSettings.default.host
  let port ← optional "port" (natural (Nat.pow 2 16)) ServerSettings.default.port
  let maxBodySize ← optional "max_body_size" size ServerSettings.default.maxBodySize
  pure ⟨host, port, maxBodySize⟩

def LoggingSettings.encode (s : LoggingSettings) : Value :=
  .object [("format", s.format.encode), ("level", s.level.encode)]

def LoggingSettings.decodeIn (manner : Manner) : Decoder LoggingSettings := fields do
  let level ← optional "level" (LogLevel.decodeIn manner) LoggingSettings.default.level
  let format ← optional "format" (LogFormat.decodeIn manner) LoggingSettings.default.format
  pure ⟨level, format⟩

namespace Settings

def encode (s : Settings) : Value := .object [
  ("cache", s.cache.encode),
  ("logging", s.logging.encode),
  ("rpc", .object [("url", .text s.endpoint)]),
  ("server", s.server.encode)]

def decodeIn (manner : Manner) : Decoder Settings := fields do
  let server ← optional "server" ServerSettings.decode default.server
  let logging ← optional "logging" (LoggingSettings.decodeIn manner) default.logging
  let endpoint ← optional "rpc" (fields (optional "url" text default.endpoint)) default.endpoint
  let cache ← optional "cache" CacheOptions.decode default.cache
  pure ⟨server, logging, endpoint, cache⟩

def decode : Decoder Settings := decodeIn .strict

/-- Reads a TOML document, which has no null: there an empty table says that a choice has no content. -/
def ofToml? (text : String) : Option Settings := do
  let root ← Toml.read? text
  (decodeIn .lenient (.object root)).toOption

/-- The least number that TOML cannot hold. -/
def tomlLimit : Nat := Nat.pow 2 63

/-- The settings as TOML, unless a number is too large for it. -/
def toml? (s : Settings) : Option String :=
  if s.server.maxBodySize < tomlLimit ∧ s.cache.syncInterval.all (· < tomlLimit) then
    some <| String.join [
      "[server]\n",
      s!"host = {Toml.quote s.server.host}\n",
      s!"port = {s.server.port}\n",
      s!"max_body_size = {s.server.maxBodySize}\n",
      "\n[logging]\n",
      s!"level = {Toml.quote s.logging.level.name}\n",
      s!"format = {Toml.quote s.logging.format.name}\n",
      "\n[rpc]\n",
      s!"url = {Toml.quote s.endpoint}\n",
      "\n[cache]\n",
      s!"sync_on_read = {s.cache.syncOnRead}\n",
      (s.cache.syncInterval.map fun n => s!"sync_interval_secs = {n}\n").getD ""]
  else none

end Settings

end QueryLayer
