import Onda.Rendering.Batches
import Onda.Runtime.Session

/-!
# Rendering with collected output

The rendering functions of a session, with the storage of its delegates and prints.  What a
generated call publishes is a parameter, read off the instance before and after the call.  Each
call is logged; the code does not read the log.
-/

namespace Onda.Rendering

open Effects
open Onda.Project (Platform)
open Onda.Runtime

variable {W S V X : Type}

/-- A call into generated code that a block makes. -/
inductive Issue (X : Type) where
  | segment (startFrame frames : Nat) (flags : UInt32)
  | event (name : String) (values : List X)

/-- A call that was made, what it published, and how it failed. -/
structure Issued (X : Type) where
  issue : Issue X
  published : List Publication
  failure : Option Stop

/-- `RunSession`, with its output. -/
structure Collecting (W S V X : Type) where
  session : RunSession W S V
  areas : Channel → Area
  delegateCollectionEnabled : Bool
  issued : List (Issued X)

namespace Collecting

/-- A function that takes `&mut RunSession`. -/
abbrev RenderCall (W S V X α : Type) := Call (Collecting W S V X) Stop α

/-- A call on the session without its output. -/
def onSession {α : Type} (call : SessionCall W S V α) : RenderCall W S V X α :=
  Call.within (·.session) (fun session state => { state with session }) call

/-- Prints are always collected. -/
def collectionEnabled (state : Collecting W S V X) : Channel → Bool
  | .delegate => state.delegateCollectionEnabled
  | .print => true

def beginBatch (channel : Channel) (areas : Channel → Area) : Channel → Area :=
  Function.update areas channel (areas channel).beginBatch

variable (order : NativeU32) (publishes : Active W → Active W → List Publication)

/-- The batches of the next call. -/
def executionOutput (state : Collecting W S V X) : ExecutionOutput :=
  ⟨fun channel => (state.areas channel).nextBatch (state.collectionEnabled channel), 0⟩

/-- `output_sequence_count`. -/
def outputSequenceCount (delegate print : Option Batch) : Nat :=
  saturatingAdd
    (saturatingAdd
      (saturatingAdd ((delegate.map Batch.recordCount).getD 0)
        ((delegate.map Batch.overflowCount).getD 0))
      ((print.map Batch.recordCount).getD 0))
    ((print.map Batch.overflowCount).getD 0)

/-- A generated call with the batches that are next: the common part of `process_segment_in_batch`
and `trigger_event_in_batch`.  A failed call keeps its prints. -/
def inBatch (issue : Issue X) (entry : SessionCall W S V Unit) (sequenceBase : Nat) :
    RenderCall W S V X Nat := fun state =>
  let (result, session) := entry state.session
  let published := publishes state.session.active session.active
  let output := state.executionOutput.publishAll order published
  let areas := fun channel => (state.areas channel).finish order sequenceBase
    (output.batches channel)
  match result with
  | .ok () =>
    (.ok (outputSequenceCount (output.batches .delegate) (output.batches .print)),
      { state with session, areas, issued := state.issued ++ [⟨issue, published, none⟩] })
  | .error stop =>
    (.error stop,
      { state with
        session
        areas := beginBatch .delegate areas
        issued := state.issued ++ [⟨issue, published, some stop⟩] })

variable (platform : Platform) (code : GeneratedCode W) (program : JitProgram)
  (host : HostValues W S V X)

/-- `process_segment_in_batch`. -/
def processSegmentInBatch (startFrame frames : Nat) (flags : UInt32) (sequenceBase : Nat) :
    RenderCall W S V X Nat :=
  inBatch order publishes (.segment startFrame frames flags)
    (RunSession.processSegmentInBatch platform code (startFrame, frames, flags)) sequenceBase

/-- `trigger_event_in_batch`. -/
def triggerEventInBatch (name : String) (values : List X) (sequenceBase : Nat) :
    RenderCall W S V X Nat :=
  match RunSession.encodeRunEvent program host name values with
  | .error message => Call.fail (.diagnostic message)
  | .ok (index, payload) =>
    inBatch order publishes (.event name values)
      (RunSession.entered (triggerEventByIndexUnchecked code program index payload)) sequenceBase

/-- `begin_block_render`.  The batches are emptied once the length is checked. -/
def beginBlockRender (rendered frames : Nat) : RenderCall W S V X Unit := do
  let expected ← Call.read fun state =>
    platform.saturatingMul state.session.options.blockSize (program.requiredOutChannels platform)
  Call.refuseIf (rendered ≠ expected)
    (.diagnostic ("run render buffer expects " ++ toString expected ++ " samples, got " ++
      toString rendered))
  Call.update fun state =>
    { state with areas := beginBatch .print (beginBatch .delegate state.areas) }
  onSession (RunSession.beginBlockRender platform program host rendered frames)

/-- The loop of `render_block_segments_interleaved`. -/
def processSegments : List (Nat × Nat × UInt32) → Nat → RenderCall W S V X Unit
  | [], _ => pure ()
  | segment :: segments, sequenceBase => do
    let count ← processSegmentInBatch order publishes platform code segment.1 segment.2.1
      segment.2.2 sequenceBase
    processSegments segments (saturatingAdd sequenceBase count)

/-- `render_block_segments_interleaved`. -/
def renderBlockSegmentsInterleaved (rendered : Nat) (segments : List (Nat × Nat × UInt32)) :
    RenderCall W S V X Unit := do
  let frames ← onSession (RunSession.validateSegments platform segments 0)
  beginBlockRender platform program host rendered frames
  processSegments order publishes platform code segments 0

/-- `render_block_interleaved`. -/
def renderBlockInterleaved (rendered : Nat) : RenderCall W S V X Unit := do
  let blockSize ← Call.read (·.session.options.blockSize)
  renderBlockSegmentsInterleaved order publishes platform code program host rendered
    [(0, blockSize, PROCESSOR_FULL_BLOCK)]

/-- The rendering loop of `render_block_event_iter_interleaved`. -/
def renderEvents (blockSize : Nat) : List (RunSession.ScheduledEvent X) → Nat → Bool → Nat →
    RenderCall W S V X Unit
  | [], cursor, beganBlock, sequenceBase => do
    let _ ← processSegmentInBatch order publishes platform code cursor (blockSize - cursor)
      (if beganBlock then PROCESSOR_END_BLOCK else PROCESSOR_FULL_BLOCK) sequenceBase
    pure ()
  | event :: events, cursor, beganBlock, sequenceBase =>
    if cursor < event.frame then do
      let segmentCount ← processSegmentInBatch order publishes platform code cursor
        (event.frame - cursor) (if beganBlock then 0 else PROCESSOR_BEGIN_BLOCK) sequenceBase
      let sequenceBase := saturatingAdd sequenceBase segmentCount
      let eventCount ← triggerEventInBatch order publishes code program host event.name
        event.values sequenceBase
      renderEvents blockSize events event.frame true (saturatingAdd sequenceBase eventCount)
    else do
      let eventCount ← triggerEventInBatch order publishes code program host event.name
        event.values sequenceBase
      renderEvents blockSize events cursor beganBlock (saturatingAdd sequenceBase eventCount)

/-- `render_block_event_iter_interleaved`. -/
def renderBlockEventIterInterleaved (rendered : Nat)
    (events : List (RunSession.ScheduledEvent X)) : RenderCall W S V X Unit :=
  if events = [] then
    renderBlockInterleaved order publishes platform code program host rendered
  else do
    let blockSize ← Call.read (·.session.options.blockSize)
    Call.lift ((RunSession.validateEvents program host blockSize none events).mapError .diagnostic)
    beginBlockRender platform program host rendered blockSize
    renderEvents order publishes platform code program host blockSize events 0 false 0

end Collecting

end Onda.Rendering
