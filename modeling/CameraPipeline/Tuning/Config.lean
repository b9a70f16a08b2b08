import CameraPipeline.Media.PipelineAttr

/-!
Tuning that is not part of the device's parameters, with its defaults.
-/

namespace CameraPipeline

structure PumpTuning where
  fetchTimeoutMs : Nat := 1000
  /-- A still of a full sensor frame takes longer. -/
  photoFetchTimeoutMs : Nat := 2500
  drainTimeoutMs : Nat := 3000
  /-- Units between two measurements of the rate. -/
  diagInterval : Nat := 300
  /-- The share by which the measured rate may be off. -/
  fpsTolerance : Float := 0.1
  errorBackoffMs : Nat := 100
  sinkQueueDepth : Nat := 64

structure PlaybackTuning where
  idleWaitMs : Nat := 20
  eventQueueDepth : Nat := 16
  /-- Video frames that the sound may wait for the picture. -/
  syncCapFrames : Nat := 4
  drainTimeoutMs : Nat := 3000

structure Config where
  pump : PumpTuning := {}
  playback : PlaybackTuning := {}
  buffers : Buffers := {}

end CameraPipeline
