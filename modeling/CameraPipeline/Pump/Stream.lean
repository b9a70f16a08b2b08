import CameraPipeline.Table

/-!
The streams that leave the pipeline.
-/

namespace CameraPipeline

/-- The record encoder, the network encoder, the still encoder, and the raw frames of the input. -/
inductive Stream where
  | main | sub | photo | rawTap
  deriving DecidableEq, Repr

namespace Stream

def name : Stream → String
  | main => "main"
  | sub => "sub"
  | photo => "photo"
  | rawTap => "raw_tap"

def all : List Stream := [main, sub, photo, rawTap]

end Stream
end CameraPipeline
