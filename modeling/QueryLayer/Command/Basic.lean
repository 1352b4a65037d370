import QueryLayer.Command.Inspection
import QueryLayer.Command.Usage
import QueryLayer.Settings.Loading

/-! # Commands

What each command does with the files, the environment and the network that it finds.
-/
namespace QueryLayer

/-- The way to servers and to clients. -/
structure Network where
  /-- Asks the server at a URL about the source with a definition. -/
  handshake : String → Value → Except Error Handshake
  /-- Serves at an address until that ends. -/
  listen : String → Except Error Unit

/-- No server and no client is in reach. -/
def Network.none : Network where
  handshake _ _ := .error (.transport (.request "no network"))
  listen _ := .error (.transport (.request "no network"))

/-- What a command finds around it. -/
structure Surroundings where
  file : String → FileView
  environment : Variables
  network : Network

/-- Why a command fails. -/
inductive CommandFailure where
  | settings (e : SettingsError)
  /-- The settings hold a number that cannot be written. -/
  | unwritable
  | definition (path : String)
  | source (e : Error)
  | network (e : Error)

def CommandFailure.message : CommandFailure → String
  | settings (.flawed flaw) => flaw.message
  | settings .badFile => "Failed to load the configuration file"
  | unwritable => "Failed to render configuration as TOML"
  | definition path => s!"Failed to read data source definition: {path}"
  | source e => s!"Failed to build data source: {e.message}"
  | network e => e.message

/-- How a command ended. -/
structure Report where
  code : Nat
  output : String
  complaint : String
deriving DecidableEq

namespace Command

variable (s : Surroundings)

def loadSettings (path : String) : Except CommandFailure Settings :=
  (Settings.load (s.file path) s.environment).mapError .settings

/-- Settings with host and port from the command line in the place of their own. -/
def settings (path : String) (host : Option String) (port : Option Nat) :
    Except CommandFailure Settings := do
  let loaded ← loadSettings s path
  let server := { loaded.server with
    host := host.getD loaded.server.host
    port := port.getD loaded.server.port }
  Settings.check { loaded with server } |>.mapError .settings

def readDefinition (path : String) : Except CommandFailure Value :=
  match s.file path with
  | .content text =>
    match Value.read? text with
    | some v => .ok v
    | none => .error (.definition path)
  | _ => .error (.definition path)

/-- The output of a command. -/
def perform : Command → Except CommandFailure String
  | serve file host port definition => do
    let settings ← settings s file host port
    match definition with
    | some path => do
      let v ← readDefinition s path
      let _ ← (Factories.builtIn.create v).mapError .source
    | none => pure ()
    (s.network.listen settings.address).mapError .network
    pure ""
  | config file host port => do
    match (← settings s file host port).toml? with
    | some text => pure text
    | none => throw .unwritable
  | inspect file url definition => do
    let url ← match url with
      | some url => pure url
      | none => do pure (← loadSettings s file).endpoint
    let v ← readDefinition s definition
    let h ← (s.network.handshake url v).mapError .network
    pure h.listing

/-- Runs a command line. Misuse ends with code 2 and failure with code 1. -/
def run (args : List String) : Report :=
  match ofArguments args with
  | .ok command =>
    match command.perform s with
    | .ok output => ⟨0, output, ""⟩
    | .error e => ⟨1, "", "Error: " ++ e.message ++ "\n"⟩
  | .error .misuse => ⟨2, "", programHelp⟩
  | .error d => ⟨0, d.text, ""⟩

end Command

end QueryLayer
