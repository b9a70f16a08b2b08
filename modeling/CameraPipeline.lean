import CameraPipeline.Main
import CameraPipeline.Proofs.Ini.Loaded
import CameraPipeline.Proofs.Ini.Plain
import CameraPipeline.Proofs.Media.Precedence
import CameraPipeline.Proofs.Media.Rates
import CameraPipeline.Proofs.Media.Readout
import CameraPipeline.Proofs.Orchestrator.Attended
import CameraPipeline.Proofs.Orchestrator.Captures
import CameraPipeline.Proofs.Orchestrator.Coherence
import CameraPipeline.Proofs.Orchestrator.FirstFailure
import CameraPipeline.Proofs.Orchestrator.Leakage
import CameraPipeline.Proofs.Orchestrator.Linearization
import CameraPipeline.Proofs.Orchestrator.PhotoCount
import CameraPipeline.Proofs.Orchestrator.RecordStop
import CameraPipeline.Proofs.Orchestrator.Recording
import CameraPipeline.Proofs.Orchestrator.Repetition
import CameraPipeline.Proofs.Orchestrator.TeardownOrder
import CameraPipeline.Proofs.Orchestrator.Validation
import CameraPipeline.Proofs.Params.Typed
import CameraPipeline.Proofs.Plant.Failure
import CameraPipeline.Proofs.Plant.LateStop
import CameraPipeline.Proofs.Plant.Restore
import CameraPipeline.Proofs.Plant.Teardown
import CameraPipeline.Proofs.Playback.Cursor
import CameraPipeline.Proofs.Playback.Eof
import CameraPipeline.Proofs.Playback.Pass
import CameraPipeline.Proofs.Playback.Possession
import CameraPipeline.Proofs.Playback.Round
import CameraPipeline.Proofs.Playback.Stop
import CameraPipeline.Proofs.Playback.Unison
import CameraPipeline.Proofs.Pump.Loop
import CameraPipeline.Proofs.Server.Account
import CameraPipeline.Proofs.Server.Emptying
import CameraPipeline.Proofs.Server.Injection
import CameraPipeline.Proofs.Server.Lending
import CameraPipeline.Proofs.Server.Numbering
import CameraPipeline.Proofs.Sink.Footage
import CameraPipeline.Proofs.Worker.Lifetime
