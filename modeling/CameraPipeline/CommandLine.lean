/-!
The options of the program.
-/

namespace CameraPipeline

structure CommandLine where
  /-- The parameter file; it is written back at the end. -/
  params : Option String := none
  config : Option String := none
  recordDir : Option String := none
  /-- The name under which a synthetic clip is played. -/
  play : Option String := none
  help : Bool := false
  deriving DecidableEq, Repr

namespace CommandLine

def usage : String :=
  "Usage: camera-pipeline [--params FILE] [--config FILE] [--record-dir DIRECTORY] [--play PATH]"

/-- Reads the arguments; the error names the first one that is no option. -/
def parse : List String → Except String CommandLine
  | [] => .ok {}
  | "--help" :: rest => do return { ← parse rest with help := true }
  | "--params" :: value :: rest => do return { ← parse rest with params := some value }
  | "--config" :: value :: rest => do return { ← parse rest with config := some value }
  | "--record-dir" :: value :: rest => do return { ← parse rest with recordDir := some value }
  | "--play" :: value :: rest => do return { ← parse rest with play := some value }
  | other :: _ => .error other

end CommandLine
end CameraPipeline
