import CameraPipeline.CommandLine
import CameraPipeline.Host
import CameraPipeline.Params.Ini.Load
import CameraPipeline.Params.Ini.Writer
import CameraPipeline.Tuning.Load

/-!
The command line. Every line of the input is one round of the program, which then prints its
status; at the end of the input everything is torn down, and files are written.
-/

namespace CameraPipeline.Main

def orFail {α : Type} (message : String) : Option α → IO α
  | some v => return v
  | none => throw (IO.userError message)

def orReport {α : Type} : Except PipelineError α → IO α
  | .ok v => return v
  | .error e => throw (IO.userError e.message)

/-- The variables that name a setting of the tuning. -/
def environment : IO (List (String × String)) :=
  Config.variableNames.filterMapM fun name => do
    return (← IO.getEnv name).map fun value => (name, value)

def loadConfig (file : Option String) : IO Config := do
  let text ← file.mapM fun path => IO.FS.readFile path
  orFail "the tuning cannot be loaded" (Config.load? text (← environment))

def loadParams (file : Option String) : IO Params :=
  match file with
  | none => return .empty
  | some path => do orFail "the parameters cannot be loaded" (Params.ofIni? (← IO.FS.readFile path))

partial def rounds (input output : IO.FS.Stream) (h : Host) : IO Host := do
  if (← input.getLine).isEmpty then return h
  let h := h.round
  output.putStrLn h.statusLine
  output.flush
  rounds input output h

def writeFiles (c : CommandLine) (h : Host) : IO Unit := do
  if let some directory := c.recordDir then
    IO.FS.createDirAll directory
    for (name, bytes) in h.recordedFiles do
      IO.FS.writeBinFile (directory ++ "/" ++ name) ⟨bytes.toArray⟩
  if let some path := c.params then
    let temporary := path ++ ".tmp"
    IO.FS.writeFile temporary h.service.orchestrator.params.iniText
    IO.FS.rename temporary path

def run (c : CommandLine) : IO Unit := do
  let config ← loadConfig c.config
  let params ← loadParams c.params
  let host ← orReport (Host.start config params c.recordDir.isSome c.play)
  let host ← rounds (← IO.getStdin) (← IO.getStdout) host
  let (answer, host) := host.finish
  writeFiles c host
  let _ ← orReport answer

end CameraPipeline.Main

def main (args : List String) : IO UInt32 := do
  match CameraPipeline.CommandLine.parse args with
  | .error argument =>
    IO.eprintln ("unexpected argument " ++ argument)
    IO.eprintln CameraPipeline.CommandLine.usage
    return 2
  | .ok c =>
    if c.help then IO.println CameraPipeline.CommandLine.usage
    else CameraPipeline.Main.run c
    return 0
