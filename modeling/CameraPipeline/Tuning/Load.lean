import CameraPipeline.Settings.Environment
import CameraPipeline.Settings.Toml.Document
import CameraPipeline.Tuning.Config

/-!
Loading the tuning. It is put together from the defaults, a TOML text and environment variables,
the later in place of the former, and read from the result. Settings that nobody asks for are
passed over.
-/

namespace CameraPipeline

namespace Scalar

/-- The switch that a word in any case stands for. -/
def switchWord? (s : String) : Option Bool :=
  match Text.lowerAscii s with
  | "true" | "on" | "yes" => some true
  | "false" | "off" | "no" => some false
  | _ => none

/-- The scalar as a natural number below `2 ^ 64`. A number with a fraction is rounded to the
nearest one, and a switch counts as one or zero. -/
def natural? : Scalar → Option Nat
  | switch on => some on.toNat
  | integer n => if 0 ≤ n then some n.toNat else none
  | decimal x => some x.round.toUInt64.toNat
  | text s =>
    match switchWord? s with
    | some on => some on.toNat
    | none => Text.natural? UInt64.size s

/-- The scalar as a floating-point number. -/
def float? : Scalar → Option Float
  | switch on => some (FloatText.ofInt on.toNat)
  | integer n => some (FloatText.ofInt n)
  | decimal x => some x
  | text s =>
    match switchWord? s with
    | some on => some (FloatText.ofInt on.toNat)
    | none => FloatText.read? s

end Scalar

/-- A setting by its name, or by its place where the settings are given as a list. -/
structure Field where
  place : Nat
  name : String

namespace Tree

def field? (t : Tree) (f : Field) : Option Tree :=
  match t with
  | list items => items[f.place]?
  | t => t.child? f.name

/-- The scalar of a field. -/
def scalar? (t : Tree) (f : Field) : Option Scalar :=
  match t.field? f with
  | some (leaf s) => some s
  | _ => none

def natural? (t : Tree) (f : Field) : Option Nat := (t.scalar? f).bind (·.natural?)

def natural32? (t : Tree) (f : Field) : Option Nat := (t.natural? f).filter (· < UInt32.size)

def float? (t : Tree) (f : Field) : Option Float := (t.scalar? f).bind (·.float?)

/-- The settings that are given as natural numbers. -/
def ofNaturals (settings : List (String × Nat)) : Tree :=
  table (settings.map fun s => (s.1, leaf (.integer s.2)))

end Tree

namespace PumpTuning

def tree (t : PumpTuning) : Tree :=
  (Tree.ofNaturals [
    ("fetch_timeout_ms", t.fetchTimeoutMs), ("photo_fetch_timeout_ms", t.photoFetchTimeoutMs),
    ("drain_timeout_ms", t.drainTimeoutMs), ("diag_interval", t.diagInterval),
    ("error_backoff_ms", t.errorBackoffMs), ("sink_queue_depth", t.sinkQueueDepth)]).put
    "fps_tolerance" (.leaf (.decimal t.fpsTolerance))

def ofTree? (t : Tree) : Option PumpTuning := do
  return {
    fetchTimeoutMs := ← t.natural? ⟨0, "fetch_timeout_ms"⟩
    photoFetchTimeoutMs := ← t.natural? ⟨1, "photo_fetch_timeout_ms"⟩
    drainTimeoutMs := ← t.natural? ⟨2, "drain_timeout_ms"⟩
    diagInterval := ← t.natural? ⟨3, "diag_interval"⟩
    fpsTolerance := ← t.float? ⟨4, "fps_tolerance"⟩
    errorBackoffMs := ← t.natural? ⟨5, "error_backoff_ms"⟩
    sinkQueueDepth := ← t.natural? ⟨6, "sink_queue_depth"⟩ }

end PumpTuning

namespace PlaybackTuning

def tree (t : PlaybackTuning) : Tree :=
  .ofNaturals [
    ("idle_wait_ms", t.idleWaitMs), ("event_queue_depth", t.eventQueueDepth),
    ("sync_cap_frames", t.syncCapFrames), ("drain_timeout_ms", t.drainTimeoutMs)]

def ofTree? (t : Tree) : Option PlaybackTuning := do
  return {
    idleWaitMs := ← t.natural? ⟨0, "idle_wait_ms"⟩
    eventQueueDepth := ← t.natural? ⟨1, "event_queue_depth"⟩
    syncCapFrames := ← t.natural32? ⟨2, "sync_cap_frames"⟩
    drainTimeoutMs := ← t.natural? ⟨3, "drain_timeout_ms"⟩ }

end PlaybackTuning

namespace Buffers

def tree (b : Buffers) : Tree :=
  .ofNaturals [("vi", b.vi.toNat), ("gdc", b.gdc.toNat), ("venc", b.venc.toNat)]

def ofTree? (t : Tree) : Option Buffers := do
  let count (f : Field) : Option UInt32 := (t.natural32? f).map UInt32.ofNat
  return ⟨← count ⟨0, "vi"⟩, ← count ⟨1, "gdc"⟩, ← count ⟨2, "venc"⟩⟩

end Buffers

namespace Config

def tree (c : Config) : Tree :=
  Tree.empty.putAll [
    ("pump", c.pump.tree), ("playback", c.playback.tree), ("buffers", c.buffers.tree)]

/-- Reads the tuning from a tree; every field has to be there. -/
def ofTree? (t : Tree) : Option Config := do
  return {
    pump := ← PumpTuning.ofTree? (← t.child? "pump")
    playback := ← PlaybackTuning.ofTree? (← t.child? "playback")
    buffers := ← Buffers.ofTree? (← t.child? "buffers") }

/-- What the names of environment variables begin with, in lower case. -/
def environmentStart : String := "rkcam__"

/-- The environment variables that name a setting or a table of settings. -/
def variableNames : List String :=
  ({} : Config).tree.entries.flatMap fun (name, t) =>
    let first := Text.upperAscii (environmentStart ++ name)
    first :: t.entries.map fun e => first ++ "__" ++ Text.upperAscii e.1

/-- Loads the tuning from a TOML text, if there is one, and environment variables. The names at the
top of the text may be paths. -/
def load? (text : Option String) (bindings : List (String × String)) : Option Config := do
  let base := ({} : Config).tree
  let withText ← match text with
    | none => some base
    | some text => (Toml.read? text).map fun t => base.putPaths t.entries
  ofTree? (Environment.apply environmentStart bindings withText)

end Config
end CameraPipeline
