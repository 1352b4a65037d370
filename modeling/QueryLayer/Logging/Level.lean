import QueryLayer.Wire.Decode

/-! # Levels of log entries -/
namespace QueryLayer

inductive LogLevel where
  | error
  | warn
  | info
  | debug
  | trace
deriving DecidableEq

namespace LogLevel

def all : List LogLevel := [error, warn, info, debug, trace]

def name : LogLevel → String
  | error => "error"
  | warn => "warn"
  | info => "info"
  | debug => "debug"
  | trace => "trace"

/-- The name in capitals, as log lines show it. -/
def capitals : LogLevel → String
  | error => "ERROR"
  | warn => "WARN"
  | info => "INFO"
  | debug => "DEBUG"
  | trace => "TRACE"

def ofName? (s : String) : Option LogLevel := all.find? fun l => l.name = s

@[simp] theorem ofName?_name (l : LogLevel) : ofName? l.name = some l := by cases l <;> decide

/-- Reads a level that a person wrote: in any case, and `warning` too. -/
def read? (s : String) : Option LogLevel :=
  let s := s.toLower
  if s = "warning" then some warn else ofName? s

def encode (l : LogLevel) : Value := .text l.name

def decodeIn (manner : Wire.Manner) : Wire.Decoder LogLevel :=
  Wire.choice manner (all.map fun l => (l.name, l))

def decode : Wire.Decoder LogLevel := decodeIn .strict

end LogLevel

end QueryLayer
