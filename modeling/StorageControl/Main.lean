/-
# The program

Works out its configuration and then takes requests from standard input, one to a line, each a
method, a target and a body with blanks between them. They are served over a simulated engine.
-/
import StorageControl.CommandLine
import StorageControl.Engine.Bench
import StorageControl.Rest.Server
import StorageControl.Uuid

open StorageControl

namespace StorageControl.Main

/-- What a running program holds. -/
structure Session where
  registry : Attach.Registry
  inventory : Inventory := .empty
  bench : Engine.Bench := .start

/-- The line that answers a request. -/
def responseLine (r : Rest.Response) : String :=
  match r.content with
  | none => toString r.status
  | some (.json value) => toString r.status ++ " " ++ value.print
  | some (.text text) => toString r.status ++ " " ++ text

/-- Answers the request on a line. -/
def Session.answer (s : Session) (fresh line : String) : String × Session :=
  match CommandLine.request line with
  | .error fault => (fault.message, s)
  | .ok request =>
    let course := (Rest.serve s.registry .zero fresh s.inventory request).run
      Engine.Bench.answer s.bench
    let s :=
      { s with inventory := s.inventory.after course.events, bench := course.engine }
    match course.result with
    | .error fault => (fault.message, s)
    | .ok response => (responseLine response, s)

/-- Takes requests until there are no more. -/
partial def takeRequests (input : IO.FS.Stream) (s : Session) : IO Unit := do
  let line ← input.getLine
  if line.isEmpty then return ()
  let bits ← IO.rand 0 (Nat.pow 2 Uuid.freeBits - 1)
  let (answer, s) := s.answer (Uuid.text bits) line.trimAsciiEnd.toString
  IO.println answer
  takeRequests input s

/-- The content of the file of the configuration, if one is named. -/
def readFile (settings : CommandLine.Settings) : IO (Option (Except String String)) := do
  match settings .config with
  | none => return none
  | some path =>
    try
      return some (.ok (← IO.FS.readFile path))
    catch e => return some (.error (toString e))

/-- Serves with the given settings. -/
def serve (settings : CommandLine.Settings) : IO UInt32 := do
  match CommandLine.configuration settings (← readFile settings) with
  | .error fault =>
    IO.eprintln ("Error: " ++ (Fault.misconfigured fault).message)
    return 1
  | .ok config =>
    IO.eprintln (Release.name ++ " " ++ Release.version)
    IO.eprintln (Config.codec.encode config).print
    takeRequests (← IO.getStdin) { registry := { config := config.transport } }
    return 0

/-- The settings in the environment. -/
def environment : IO CommandLine.Settings := do
  let mut settings : CommandLine.Settings := fun _ => none
  for setting in CommandLine.Setting.all do
    if let some value ← IO.getEnv setting.variableName then
      settings := settings.give setting value
  return settings

end StorageControl.Main

/-- Does what the arguments say. -/
def main (arguments : List String) : IO UInt32 := do
  match CommandLine.read (← Main.environment) arguments with
  | .error fault =>
    IO.eprintln ("error: " ++ fault.message ++ "\n\n" ++ CommandLine.usage)
    return 2
  | .ok .help =>
    IO.print CommandLine.usage
    return 0
  | .ok .version =>
    IO.println (Release.name ++ " " ++ Release.version)
    return 0
  | .ok (.serve settings) => Main.serve settings
