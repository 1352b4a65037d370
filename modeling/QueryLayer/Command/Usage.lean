import QueryLayer.Text.Fill
import QueryLayer.Value.Parser

/-! # The command line

A command line names a subcommand and its options. An option is given once, with its value in the
next argument or behind an equals sign. Arguments are read from left to right, and the first that
asks for help or cannot be read ends the reading.
-/
namespace QueryLayer

/-- What can be given to a subcommand. -/
inductive Flag where
  | config
  | host
  | port
  | definition
  | url
deriving DecidableEq

inductive Subcommand where
  | serve
  | config
  | inspect
deriving DecidableEq

/-- What the program is asked to do. -/
inductive Command where
  | serve (file : String) (host : Option String) (port : Option Nat) (definition : Option String)
  | config (file : String) (host : Option String) (port : Option Nat)
  | inspect (file : String) (url : Option String) (definition : String)
deriving DecidableEq

/-- What help can be asked for. -/
inductive HelpTopic where
  | program
  | subcommand (which : Subcommand)
  | help
deriving DecidableEq

/-- Why a command line does not come to a command. -/
inductive Digression where
  | help (topic : HelpTopic)
  | version
  | misuse
deriving DecidableEq

namespace Flag

def all : List Flag := [config, host, port, definition, url]

def name : Flag → String
  | config => "config"
  | host => "host"
  | port => "port"
  | definition => "definition"
  | url => "url"

/-- The word for the value in usage texts. -/
def placeholder (f : Flag) : String := "<" ++ f.name.toUpper ++ ">"

def isPath : Flag → Bool
  | config | definition => true
  | _ => false

end Flag

/-- The file that settings come from unless another one is named. -/
def Settings.defaultPath : String := "conduit.toml"

namespace Subcommand

def all : List Subcommand := [serve, config, inspect]

def name : Subcommand → String
  | serve => "serve"
  | config => "config"
  | inspect => "inspect"

def ofName? (s : String) : Option Subcommand := all.find? fun c => c.name = s

def flags : Subcommand → List Flag
  | serve => [.config, .host, .port, .definition]
  | config => [.config, .host, .port]
  | inspect => [.config, .url, .definition]

def flag? (c : Subcommand) (name : String) : Option Flag := c.flags.find? fun f => f.name = name

def requires (c : Subcommand) (f : Flag) : Bool := c = inspect && f = .definition

def about : Subcommand → String
  | serve => "Start the RPC server"
  | config => "Print the resolved configuration"
  | inspect => "List the collections a running server advertises"

def aboutFlag (c : Subcommand) (f : Flag) : String :=
  match c, f with
  | serve, .config => "Configuration file"
  | serve, .host => "Listening address, overrides the configuration"
  | serve, .port => "Listening port, overrides the configuration"
  | serve, .definition => "Serve this data source definition for every request"
  | inspect, .config => "Configuration file providing `rpc.url`"
  | inspect, .url => "Server endpoint, overrides the configuration"
  | inspect, .definition => "Data source definition sent with the handshake"
  | _, _ => ""

end Subcommand

namespace Command

/-- A port number: decimal digits after an optional sign. -/
def port? (s : String) : Option Nat :=
  let (negative, digits) := match s.toList with
    | '-' :: rest => (true, rest)
    | '+' :: rest => (false, rest)
    | all => (false, all)
  if digits.isEmpty || !digits.all Char.isDigit then none
  else
    let n := Value.digitsValue digits
    if n < Nat.pow 2 16 ∧ (negative → n = 0) then some n else none

/-- Whether a value can stand for an option. -/
def admits (f : Flag) (value : String) : Bool :=
  if f.isPath then !value.isEmpty
  else if f = .port then (port? value).isSome
  else true

/-- The options read so far. -/
abbrev Given := List (Flag × String)

def add (given : Given) (f : Flag) (value : String) : Except Digression Given :=
  if admits f value && !given.any (·.1 = f) then .ok (given ++ [(f, value)]) else .error .misuse

/-- Whether an argument stands for an option and not for a value. -/
def isDashed (arg : String) : Bool := arg.startsWith "-" && arg ≠ "-"

/-- A long option, with what follows its first equals sign. -/
def long? (arg : String) : Option (String × Option String) :=
  match arg.toList with
  | '-' :: '-' :: rest =>
    some (String.ofList (rest.takeWhile (· ≠ '=')),
      match rest.dropWhile (· ≠ '=') with
      | [] => none
      | _ :: value => some (String.ofList value))
  | _ => none

/-- Reads the arguments of a subcommand. -/
def readGiven (c : Subcommand) : List String → Given → Except Digression Given
  | [], given => .ok given
  | arg :: rest, given =>
    if arg = "--" then
      if rest.isEmpty then .ok given else .error .misuse
    else match long? arg with
      | some ("help", none) => .error (.help (.subcommand c))
      | some (name, some value) =>
        match c.flag? name with
        | some f => do readGiven c rest (← add given f value)
        | none => .error .misuse
      | some (name, none) =>
        match c.flag? name, rest with
        | some f, value :: rest =>
          if isDashed value then .error .misuse
          else do readGiven c rest (← add given f value)
        | _, _ => .error .misuse
      | none =>
        if arg.startsWith "-h" then .error (.help (.subcommand c)) else .error .misuse

def valueOf? (given : Given) (f : Flag) : Option String :=
  (given.find? fun e => e.1 = f).map Prod.snd

def ofGiven (c : Subcommand) (given : Given) : Except Digression Command :=
  let file := (valueOf? given .config).getD Settings.defaultPath
  let host := valueOf? given .host
  let port := (valueOf? given .port).bind port?
  match c, valueOf? given .definition with
  | .serve, definition => .ok (.serve file host port definition)
  | .config, _ => .ok (.config file host port)
  | .inspect, some definition => .ok (.inspect file (valueOf? given .url) definition)
  | .inspect, none => .error .misuse

/-- What the arguments of `help` ask for. -/
def helpOn (names : List String) : Digression :=
  match names with
  | [] => .help .program
  | ["help"] => .help .help
  | [name] =>
    match Subcommand.ofName? name with
    | some c => .help (.subcommand c)
    | none => .misuse
  | _ => .misuse

/-- The command of a command line. -/
def ofArguments (args : List String) : Except Digression Command :=
  match args with
  | [] => .error .misuse
  | arg :: rest =>
    match Subcommand.ofName? arg with
    | some c => do ofGiven c (← readGiven c rest [])
    | none =>
      if arg = "help" then .error (helpOn rest)
      else if arg = "--help" ∨ arg.startsWith "-h" then .error (.help .program)
      else if arg = "--version" ∨ arg.startsWith "-V" then .error .version
      else .error .misuse

/-! ## Usage texts -/

/-- Two columns, the second one aligned. -/
def columns (entries : List (String × String)) : String :=
  let width := (entries.map fun e => e.1.length).foldl max 0
  String.join (entries.map fun e => Text.fill (width + 2) e.1 ++ e.2 ++ "\n")

def helpLine : String × String := ("  -h, --help", "Print help")

def flagLine (c : Subcommand) (f : Flag) : String × String :=
  let default := if f = .config then ["[default: " ++ Settings.defaultPath ++ "]"] else []
  let about := c.aboutFlag f
  ("      --" ++ f.name ++ " " ++ f.placeholder,
    String.intercalate " " ((if about.isEmpty then [] else [about]) ++ default))

def subcommandHelp (c : Subcommand) : String :=
  let required := c.flags.filter c.requires
  c.about ++ "\n\nUsage: conduit " ++ c.name ++ " [OPTIONS]" ++
    String.join (required.map fun f => " --" ++ f.name ++ " " ++ f.placeholder) ++
    "\n\nOptions:\n" ++ columns (c.flags.map (flagLine c) ++ [helpLine])

def aboutHelp : String := "Print this message or the help of the given subcommand(s)"

def helpHelp : String :=
  aboutHelp ++ "\n\nUsage: conduit help [COMMAND]...\n\nArguments:\n" ++
    columns [("  [COMMAND]...", "Print help for the subcommand(s)")]

def programHelp : String :=
  "Conduit RPC data source server\n\nUsage: conduit <COMMAND>\n\nCommands:\n" ++
    columns ((Subcommand.all.map fun c => ("  " ++ c.name, c.about)) ++ [("  help", aboutHelp)]) ++
    "\nOptions:\n" ++ columns [helpLine, ("  -V, --version", "Print version")]

end Command

/-- The text that a digression shows. -/
def Digression.text : Digression → String
  | help .program => Command.programHelp
  | help (.subcommand c) => Command.subcommandHelp c
  | help .help => Command.helpHelp
  | version => "conduit 0.1.0\n"
  | misuse => ""

end QueryLayer
