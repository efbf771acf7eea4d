import Onda.Mir.ProcessFrames
import Onda.Project.ImageCodec
import Onda.Project.UniquePaths
import Onda.Payload.HostInverse
import Onda.Runtime.Lifecycle
import Onda.Loops.ForLoops
import Onda.Frontend.Faithful
import Onda.Tasks.Availability
import Onda.Graph.Dataflow
import Onda.Graph.Topology
import Onda.Cpal.Lossless
import Onda.Playback.BufferOrder
import Onda.WebAudio.OutputDelivery
import Onda.WebAudio.Continuity
import Onda.Playback.OutputConservation
import Onda.Snapshot.Exact
import Onda.Mir.AffineOrder
import Onda.Mir.RangeNormalization
import Onda.Mir.TypeEquivalence
import Onda.Mir.Passes.CanonicalizeRefines
import Onda.Mir.Passes.DeadValuesRefines
import Onda.Mir.StackBound
import Onda.Smoothing.Settling
import Onda.Smoothing.Splitting
import Onda.Rendering.Accurate
import Onda.Aggregates.Table
import Onda.Playback.ScopeRing
import Onda.Symbols.Generated
import Onda.WebAudio.Marshalling
import Onda.TaskLocals.Persistence
import Onda.Rendering.Decoding
