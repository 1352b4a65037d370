import QueryLayer.Logging.Level
import QueryLayer.Text.Fill
import QueryLayer.Time.Moment

/-! # Log entries and their lines -/
namespace QueryLayer

inductive LogFormat where
  | json
  | human
deriving DecidableEq

namespace LogFormat

def all : List LogFormat := [json, human]

def name : LogFormat → String
  | json => "json"
  | human => "human"

def ofName? (s : String) : Option LogFormat := all.find? fun f => f.name = s

@[simp] theorem ofName?_name (f : LogFormat) : ofName? f.name = some f := by cases f <;> decide

/-- Reads a format that a person wrote, in any case. -/
def read? (s : String) : Option LogFormat := ofName? s.toLower

def encode (f : LogFormat) : Value := .text f.name

def decodeIn (manner : Wire.Manner) : Wire.Decoder LogFormat :=
  Wire.choice manner (all.map fun f => (f.name, f))

def decode : Wire.Decoder LogFormat := decodeIn .strict

end LogFormat

/-- A place in a source text. -/
structure SourceLine where
  file : String
  line : Nat
deriving DecidableEq

structure LogEntry where
  moment : Moment
  level : LogLevel
  message : String
  target : String
  location : Option SourceLine
deriving DecidableEq

namespace LogEntry

/-- The entry as an object. -/
def encode (e : LogEntry) : Value := Wire.object [
  ("file", e.location.map fun l => .text l.file),
  ("level", some (.text e.level.capitals)),
  ("line", e.location.map fun l => .nat l.line),
  ("message", some (.text e.message)),
  ("target", some (.text e.target)),
  ("timestamp", some (.text e.moment.internet))]

def line (e : LogEntry) : LogFormat → String
  | .json => e.encode.compact
  | .human =>
    e.moment.plain ++ " " ++ Text.fill 5 e.level.capitals ++ " [" ++ e.target ++ "] " ++ e.message

end LogEntry

end QueryLayer
