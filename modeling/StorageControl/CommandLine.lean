/-
# The command line

The program is told on its command line where its configuration is. Some settings of the
configuration can be overridden there, or by variables of the environment.
-/
import StorageControl.Config.Document
import StorageControl.Release
import StorageControl.Rest.Request

namespace StorageControl.CommandLine

/-! ## Settings -/

/-- What can be set on the command line. -/
inductive Setting where
  /-- The file of the configuration. -/
  | config
  /-- The address of the engine. -/
  | engineAddress
  /-- The address to serve at. -/
  | apiAddress
  /-- The directory of the sockets of emulated controllers. -/
  | socketBase
deriving DecidableEq, Repr

namespace Setting

/-- Every setting. -/
def all : List Setting := [.config, .engineAddress, .apiAddress, .socketBase]

/-- The option of a setting. -/
def option : Setting → String
  | .config => "--config"
  | .engineAddress => "--engine-addr"
  | .apiAddress => "--api-addr"
  | .socketBase => "--vfio-user-dir"

/-- The variable of the environment that stands in for the option. -/
def variableName : Setting → String
  | .config => "BRIDGE_CONFIG"
  | .engineAddress => "ENGINE_ADDR"
  | .apiAddress => "API_ADDR"
  | .socketBase => "VFIO_USER_DIR"

/-- What a setting is for. -/
def purpose : Setting → String
  | .config => "YAML configuration file"
  | .engineAddress => "Engine socket (unix:<path>, tcp:<host:port>, or a bare path)"
  | .apiAddress => "REST API bind address"
  | .socketBase => "Directory holding vfio-user controller sockets"

/-- The setting whose option is given by name. -/
def ofOption? (s : String) : Option Setting :=
  if s = "-c" then some .config else all.find? (·.option == s)

end Setting

/-- The settings that are given. -/
abbrev Settings := Setting → Option String

/-- Gives a setting. -/
def Settings.give (settings : Settings) (setting : Setting) (value : String) : Settings :=
  fun other => if other = setting then some value else settings other

/-! ## Arguments -/

/-- What the program is called for. -/
inductive Invocation where
  | help
  | version
  | serve (settings : Settings)

/-- Why arguments are not understood. -/
inductive UsageFault where
  | unknown (argument : String)
  | valueMissing (setting : Setting)
deriving DecidableEq, Repr

/-- The fault in words. -/
def UsageFault.message : UsageFault → String
  | .unknown argument => "unexpected argument '" ++ argument ++ "' found"
  | .valueMissing setting => "a value is required for '" ++ setting.option ++ "'"

/-- An argument of an option and its value. -/
def joined? (argument : String) : Option (Setting × String) := do
  let (option, value) := Text.splitFirst '=' argument.toList
  let setting ← Setting.ofOption? (String.ofList option)
  return (setting, String.ofList (← value))

/-- Reads arguments. -/
def read (settings : Settings) : List String → Except UsageFault Invocation
  | [] => .ok (.serve settings)
  | "--help" :: _ | "-h" :: _ => .ok .help
  | "--version" :: _ | "-V" :: _ => .ok .version
  | argument :: rest =>
    match Setting.ofOption? argument, joined? argument, rest with
    | some setting, _, value :: rest => read (settings.give setting value) rest
    | some setting, _, [] => .error (.valueMissing setting)
    | none, some (setting, value), rest => read (settings.give setting value) rest
    | none, none, _ => .error (.unknown argument)

/-- How the program is called. -/
def usage : String :=
  "Usage: " ++ Release.name ++ " [OPTIONS]\n\nOptions:\n" ++
    String.join (Setting.all.map fun s => "  " ++ s.option ++ " <VALUE>  " ++ s.purpose ++
      " [env: " ++ s.variableName ++ "]\n")

/-! ## The configuration -/

/-- A configuration with the given settings in place of its own. -/
def overridden (settings : Settings) (c : Config) : Config :=
  { c with
    engine.address := (settings .engineAddress).getD c.engine.address
    api.restAddr := (settings .apiAddress).getD c.api.restAddr
    transport.vfioUser.ctrlrDir := (settings .socketBase).getD c.transport.vfioUser.ctrlrDir }

/-- The configuration in force, given what can be read of files. -/
def configuration (settings : Settings) (content : Option (Except String String)) :
    Except ConfigFault Config := do
  let base ←
    match settings .config, content with
    | some path, some content => Config.ofFile path content
    | _, _ => Except.ok {}
  let c := overridden settings base
  c.check
  return c

/-! ## Requests -/

/-- The request on a line: a method, a target, and the rest as a JSON body. -/
def request (line : String) : Except Fault Rest.Request :=
  let (method, rest) := Text.splitFirst ' ' line.toList
  let (target, body) := Text.splitFirst ' ' (rest.getD [])
  Rest.Request.make (String.ofList method) (String.ofList target) (some "application/json")
    (Text.bytes (String.ofList (body.getD [])))

end StorageControl.CommandLine
