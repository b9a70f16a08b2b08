import CameraPipeline.Params.Value

/-!
The camera's modes and the words for them. A word is read trimmed and in any ASCII case.
-/

namespace CameraPipeline

/-- A text that is no word of an enumeration; `word` is the form that was looked up. -/
structure UnknownWord where
  what : String
  word : String
  deriving DecidableEq, Repr

def UnknownWord.message (u : UnknownWord) : String := s!"unknown {u.what} '{u.word}'"

/-- Looks up the trimmed lower-case form of `text` among the names of `all`. -/
def findWord {α : Type} (what : String) (all : List α) (name : α → String) (text : String) :
    Except UnknownWord α :=
  let word := Text.lowerAscii (Text.trim text)
  match all.find? (name · == word) with
  | some v => .ok v
  | none => .error ⟨what, word⟩

/-- The operating mode decides which channels exist at all. -/
inductive Mode where
  | video | photo | slowMotion | timeLapse
  deriving DecidableEq, Repr

/-- Electronic image stabilization. -/
inductive EisMode where
  | off | normalSteady | horizonSteady | distortionCorrection
  deriving DecidableEq, Repr

/-- High dynamic range: none, dual gain in the sensor, or two merged exposures. -/
inductive HdrMode where
  | linear | dag | staggered
  deriving DecidableEq, Repr

/-- Working mode of the image processor's automatic algorithms. -/
inductive AiqMode where
  | normal | hdr2
  deriving DecidableEq, Repr

namespace Mode

def name : Mode → String
  | video => "video"
  | photo => "photo"
  | slowMotion => "slow_motion"
  | timeLapse => "time_lapse"

def all : List Mode := [video, photo, slowMotion, timeLapse]

def parse : String → Except UnknownWord Mode := findWord "mode" all name

instance : FromText Mode := ⟨fun s => (parse s).toOption⟩
instance : ToText Mode := ⟨name⟩

end Mode

namespace EisMode

def name : EisMode → String
  | off => "off"
  | normalSteady => "normal_steady"
  | horizonSteady => "horizon_steady"
  | distortionCorrection => "distortion_correction"

def all : List EisMode := [off, normalSteady, horizonSteady, distortionCorrection]

def parse : String → Except UnknownWord EisMode := findWord "eis mode" all name

/-- The warp stage handles only these two. -/
def isSupported : EisMode → Bool
  | off | normalSteady => true
  | horizonSteady | distortionCorrection => false

instance : FromText EisMode := ⟨fun s => (parse s).toOption⟩
instance : ToText EisMode := ⟨name⟩

end EisMode

namespace HdrMode

def name : HdrMode → String
  | linear => "linear"
  | dag => "dag"
  | staggered => "staggered"

def all : List HdrMode := [linear, dag, staggered]

def parse : String → Except UnknownWord HdrMode := findWord "hdr mode" all name

instance : FromText HdrMode := ⟨fun s => (parse s).toOption⟩
instance : ToText HdrMode := ⟨name⟩

end HdrMode

namespace AiqMode

def name : AiqMode → String
  | normal => "normal"
  | hdr2 => "hdr2"

def all : List AiqMode := [normal, hdr2]

def parse : String → Except UnknownWord AiqMode := findWord "aiq mode" all name

instance : ToText AiqMode := ⟨name⟩

end AiqMode
end CameraPipeline
