import Onda.Runtime.Operations

/-!
# The run session

A session owns one instance and the host storage that is bound to it.  Its operations prepare
parameters, render blocks through the unchecked entries, dispatch events, and replace the
instance by a freshly bound one.

The parameter ramps, the conversions of parameter values and the event encoder are parameters:
they decide what is written, never how an instance is entered.
-/

namespace Onda.Runtime

open Effects
open Onda.Project (Platform)

variable {W S V X : Type}

/-- One element written by a parameter ramp. -/
structure ParamWrite where
  index : Nat
  element : Nat
  bytes : Bytes

/-- The parts of the host that compute values: ramps of state `S`, parameter values `V` and event
values `X`. -/
structure HostValues (W S V X : Type) where
  /-- `ParamSmoothing::new` and its `set_duration`, from a duration's bits. -/
  newSmoothing : UInt64 → Except String S
  setDuration : UInt64 → S → Except String (List ParamWrite × S)
  /-- `ParamSmoothing::set_target`: whether a ramp handles the write. -/
  setTarget : Nat → Nat → V → S → Bool × S
  /-- `ParamSmoothing::begin_block`. -/
  beginBlock : Nat → S → List ParamWrite × S
  /-- `ParamSmoothing::settle`. -/
  settleSmoothing : Bool → S → S
  /-- The value that `set_param` stores for a parameter. -/
  constrainParam : DeclaredIo → V → Except String V
  /-- `scalar_param_bytes`. -/
  scalarParamBytes : PrimitiveType → V → Except String Bytes
  /-- `PayloadEncoderWorkspace::encode` with the event's plan. -/
  encodePayload : Nat → List X → Except String Bytes
  /-- The host's memory after samples were copied into the input buffers. -/
  writeInputs : List UInt32 → Nat → W → W
  /-- The host's memory after the output buffers were cleared. -/
  clearOutputs : W → W

/-- `RunOptions`. -/
structure RunOptions where
  sampleRate : UInt32
  blockSize : Nat
  paramSmoothingSeconds : UInt64

/-- `RunBufferBinding`: owned samples at an address. -/
structure RunBufferBinding where
  ptr : Nat
  element : PrimitiveType
  frames : Nat
  channels : Nat
  sampleRateHz : UInt32

/-- `BufferBindingReplacement`. -/
structure BufferBindingReplacement where
  index : Nat
  binding : Option RunBufferBinding

/-- `RunSession`. -/
structure RunSession (W S V : Type) where
  options : RunOptions
  active : Active W
  paramValues : List (String × V)
  paramSmoothing : S
  bufferBindings : List (Option RunBufferBinding)
  inputBuffers : List BoundRegion
  outputBuffers : List BoundRegion

/-- A function that takes `&mut RunSession`. -/
abbrev SessionCall (W S V α : Type) := Call (RunSession W S V) Stop α

/-- A call on the session's instance. -/
def onInstance {α : Type} (call : InstanceCall W α) : SessionCall W S V α :=
  Call.within (·.active) (fun active session => { session with active }) call

variable (platform : Platform) (code : GeneratedCode W) (program : JitProgram)
  (host : HostValues W S V X)

/-! ### Parameter addresses -/

/-- `digits.parse::<usize>()`, on decimal digits without a leading zero. -/
def parseElement (digits : List Char) : Option Nat :=
  if digits = [] ∨ ¬digits.all Char.isDigit ∨ (1 < digits.length ∧ digits.head? = some '0') then
    none
  else
    let value := digits.foldl (fun value digit => 10 * value + (digit.toNat - 48)) 0
    if value ≤ platform.usizeMax then some value else none

/-- `name.rsplit_once('[')` and `suffix.strip_suffix(']')`. -/
def splitElement (name : List Char) : Option (List Char × List Char) :=
  match name.reverse with
  | ']' :: rest =>
    if '[' ∈ rest then
      some ((rest.dropWhile (· ≠ '[')).tail.reverse, (rest.takeWhile (· ≠ '[')).reverse)
    else none
  | _ => none

/-- `param_element_address`. -/
def paramElementAddress (name : String) : Option (Nat × Nat) :=
  match program.paramIndex name with
  | some index => do
    let desc ← program.params[index]?
    if desc.isArray then none else some (index, 0)
  | none => do
    let (root, digits) ← splitElement name.toList
    let element ← parseElement platform digits
    let index ← program.paramIndex (String.ofList root)
    let desc ← program.params[index]?
    if desc.isArray ∧ element < desc.arrayLen then some (index, element) else none

/-! ### Building an instance -/

/-- The writes of the session's parameter values into a new instance. -/
def writeParamValue (entry : String × V) : InstanceCall W Unit :=
  match paramElementAddress platform program entry.1 with
  | none => pure ()
  | some (index, element) =>
    match program.params[index]? with
    | none => pure ()
    | some desc => do
      let bytes ← checked (host.scalarParamBytes desc.elemTy entry.2)
      setParamElementByIndex platform program index element bytes

/-- The binding that a slot of the new instance gets. -/
def chosenBinding (replacement : Option BufferBindingReplacement) (index : Nat)
    (current : Option RunBufferBinding) : Option RunBufferBinding :=
  match replacement with
  | some replacement => if replacement.index = index then replacement.binding else current
  | none => current

/-- `create_bound_instance`, from the new instance on. -/
def bindAndInitialize (inputBuffers outputBuffers : List BoundRegion)
    (bufferBindings : List (Option RunBufferBinding))
    (replacement : Option BufferBindingReplacement) (paramValues : List (String × V)) :
    InstanceCall W Unit := do
  Call.each (fun (region, index) => bindInput platform program index region.ptr region.bytes)
    inputBuffers.zipIdx
  Call.each (fun (region, index) => bindOutput platform program index region.ptr region.bytes)
    outputBuffers.zipIdx
  Call.each (fun (current, index) =>
    match chosenBinding replacement index current with
    | none => pure ()
    | some binding =>
      bindBuffer program index binding.ptr binding.frames binding.channels binding.sampleRateHz
        binding.element)
    bufferBindings.zipIdx
  Call.each (writeParamValue platform program host) paramValues
  initCheckedWithOutput code program .full
  prepareUncheckedProcess platform program

/-- A new instance, and what its calls did to it and to the host. -/
def withNew (created : Except String Instance) (call : InstanceCall W Unit) :
    Call (Env W) Stop Instance := fun env =>
  match created with
  | .error message => (.error (.diagnostic message), env)
  | .ok inst =>
    match call ⟨inst, env⟩ with
    | (.ok (), active) => (.ok active.inst, active.env)
    | (.error stop, active) => (.error stop, active.env)

/-- `create_bound_instance`. -/
def createBoundInstance (options : RunOptions) (inputBuffers outputBuffers : List BoundRegion)
    (bufferBindings : List (Option RunBufferBinding))
    (replacement : Option BufferBindingReplacement) (paramValues : List (String × V)) :
    Call (Env W) Stop Instance :=
  withNew
    (createInstance platform program
      { sampleRate := options.sampleRate
        framesPerBlock := options.blockSize
        inChannels := program.requiredInChannels platform
        outChannels := program.requiredOutChannels platform })
    (bindAndInitialize platform code program host inputBuffers outputBuffers bufferBindings
      replacement paramValues)

/-- The tail of `build_with_inputs_and_initial_buffers`, on validated initial buffers and
allocated input and output storage. -/
def RunSession.build (options : RunOptions) (bufferBindings : List (Option RunBufferBinding))
    (inputBuffers outputBuffers : List BoundRegion) (world : W) :
    Except Stop (RunSession W S V) := do
  let paramSmoothing ← (host.newSmoothing options.paramSmoothingSeconds).mapError .diagnostic
  match createBoundInstance platform code program host options inputBuffers outputBuffers
      bufferBindings none [] ⟨world, []⟩ with
  | (.error stop, _) => .error stop
  | (.ok inst, env) =>
    .ok {
      options, paramSmoothing, bufferBindings, inputBuffers, outputBuffers
      active := ⟨inst, env⟩
      paramValues := [] }

namespace RunSession

/-! ### Parameters -/

/-- The writes of a ramp. -/
def writeRamps (writes : List ParamWrite) : SessionCall W S V Unit :=
  Call.each (fun write =>
    onInstance (setParamElementByIndex platform program write.index write.element write.bytes))
    writes

/-- `set_param_smoothing_seconds`. -/
def setParamSmoothingSeconds (seconds : UInt64) : SessionCall W S V Unit := do
  let smoothing ← Call.read (·.paramSmoothing)
  let (writes, smoothing) ←
    (Call.lift ((host.setDuration seconds smoothing).mapError .diagnostic) :
      SessionCall W S V (List ParamWrite × S))
  writeRamps platform program writes
  Call.update fun session =>
    { session with
      paramSmoothing := smoothing
      options := { session.options with paramSmoothingSeconds := seconds } }

/-- `self.param_values.insert(name, value)`. -/
def insertValue (name : String) (value : V) (values : List (String × V)) : List (String × V) :=
  (name, value) :: values.filter (·.1 ≠ name)

/-- `set_param`. -/
def setParam (name : String) (value : V) : SessionCall W S V Unit :=
  match paramElementAddress platform program name with
  | none => Call.fail (.diagnostic ("unknown parameter '" ++ name ++ "'"))
  | some (index, element) =>
    match program.params[index]? with
    | none => Call.fail (.diagnostic ("unknown parameter '" ++ name ++ "'"))
    | some desc => do
      let value ← Call.lift ((host.constrainParam desc value).mapError .diagnostic)
      Call.update fun session =>
        { session with paramValues := insertValue name value session.paramValues }
      let (handled, smoothing) ← Call.read fun session =>
        host.setTarget index element value session.paramSmoothing
      Call.update fun session => { session with paramSmoothing := smoothing }
      if handled then pure ()
      else do
        let bytes ← Call.lift ((host.scalarParamBytes desc.elemTy value).mapError .diagnostic)
        onInstance (setParamElementByIndex platform program index element bytes)

/-- `reset_params`. -/
def resetParams : SessionCall W S V Unit := do
  Call.each (fun (desc, index) =>
    onInstance (setParamByIndex platform program index (desc.defaultBytes.getD [])))
    program.params.zipIdx
  Call.update fun session =>
    { session with
      paramValues := []
      paramSmoothing := host.settleSmoothing true session.paramSmoothing }

/-! ### Entering generated code -/

/-- `check_execution_status` on the status of an entry. -/
def entered (call : InstanceCall W UInt32) : SessionCall W S V Unit :=
  onInstance do
    let status ← call
    checkExecutionStatus status

/-- `process_segment_in_batch`. -/
def processSegmentInBatch (segment : Nat × Nat × UInt32) : SessionCall W S V Unit :=
  entered (processUncheckedSegment platform code segment.1 segment.2.1 segment.2.2)

/-- `encode_run_event`. -/
def encodeRunEvent (name : String) (values : List X) : Except String (Nat × Bytes) :=
  match program.eventIndex name with
  | none => .error ("unknown event '" ++ name ++ "'")
  | some index =>
    match host.encodePayload index values with
    | .ok payload => .ok (index, payload)
    | .error message => .error ("event '" ++ name ++ "': " ++ message)

/-- `trigger_event_in_batch`. -/
def triggerEventInBatch (name : String) (values : List X) : SessionCall W S V Unit :=
  match encodeRunEvent program host name values with
  | .error message => Call.fail (.diagnostic message)
  | .ok (index, payload) => entered (triggerEventByIndexUnchecked code program index payload)

/-- `trigger_event`. -/
def triggerEvent (name : String) (values : List X) : SessionCall W S V Unit :=
  triggerEventInBatch code program host name values

/-- `begin_block_render`, for an output slice of `rendered` samples. -/
def beginBlockRender (rendered frames : Nat) : SessionCall W S V Unit := do
  let expected ← Call.read fun session =>
    platform.saturatingMul session.options.blockSize (program.requiredOutChannels platform)
  Call.refuseIf (rendered ≠ expected)
    (.diagnostic ("run render buffer expects " ++ toString expected ++ " samples, got " ++
      toString rendered))
  Call.update fun session =>
    { session with
      active :=
        { session.active with
          env := { session.active.env with world := host.clearOutputs session.active.env.world } } }
  if frames = 0 then pure ()
  else do
    let (writes, smoothing) ← Call.read fun session => host.beginBlock frames session.paramSmoothing
    writeRamps platform program writes
    Call.update fun session => { session with paramSmoothing := smoothing }

/-- The validation loop of `render_block_segments_interleaved`, and the frames it counts. -/
def validateSegments : List (Nat × Nat × UInt32) → Nat → SessionCall W S V Nat
  | [], renderedFrames => pure renderedFrames
  | segment :: segments, renderedFrames => do
    onInstance (validateProcessSegment platform segment.1 segment.2.1 segment.2.2)
    Call.refuseIf (platform.usizeMax < renderedFrames + segment.2.1)
      (.diagnostic "run segment frame count overflows usize")
    validateSegments segments (renderedFrames + segment.2.1)

/-- What `render_block_segments_interleaved` does before it enters generated code. -/
def beginSegments (rendered : Nat) (segments : List (Nat × Nat × UInt32)) :
    SessionCall W S V Unit := do
  let frames ← validateSegments platform segments 0
  beginBlockRender platform program host rendered frames

/-- `render_block_segments_interleaved`. -/
def renderBlockSegmentsInterleaved (rendered : Nat) (segments : List (Nat × Nat × UInt32)) :
    SessionCall W S V Unit := do
  beginSegments platform program host rendered segments
  Call.each (processSegmentInBatch platform code) segments

/-- `render_block_interleaved`. -/
def renderBlockInterleaved (rendered : Nat) : SessionCall W S V Unit := do
  let blockSize ← Call.read (·.options.blockSize)
  renderBlockSegmentsInterleaved platform code program host rendered
    [(0, blockSize, PROCESSOR_FULL_BLOCK)]

/-- `RunScheduledEvent`. -/
structure ScheduledEvent (X : Type) where
  frame : Nat
  name : String
  values : List X

/-- The validation loop of `render_block_event_iter_interleaved`, after the event at
`previous`. -/
def validateEvents (blockSize : Nat) : Option Nat → List (ScheduledEvent X) → Except String Unit
  | _, [] => .ok ()
  | previous, event :: events =>
    if blockSize ≤ event.frame then
      .error ("run event '" ++ event.name ++ "' targets frame " ++ toString event.frame ++
        ", outside block size " ++ toString blockSize)
    else if (previous.getD 0) > event.frame then
      .error "run block events must be ordered by frame"
    else
      match encodeRunEvent program host event.name event.values with
      | .error message => .error message
      | .ok _ => validateEvents blockSize (some event.frame) events

/-- What `render_block_event_iter_interleaved` does before it enters generated code. -/
def beginEvents (rendered : Nat) (events : List (ScheduledEvent X)) : SessionCall W S V Unit := do
  let blockSize ← Call.read (·.options.blockSize)
  Call.lift ((validateEvents program host blockSize none events).mapError .diagnostic)
  beginBlockRender platform program host rendered blockSize

/-- The rendering loop of `render_block_event_iter_interleaved`. -/
def renderEvents (blockSize : Nat) : List (ScheduledEvent X) → Nat → Bool → SessionCall W S V Unit
  | [], cursor, beganBlock =>
    processSegmentInBatch platform code
      (cursor, blockSize - cursor,
        if beganBlock then PROCESSOR_END_BLOCK else PROCESSOR_FULL_BLOCK)
  | event :: events, cursor, beganBlock =>
    if cursor < event.frame then do
      processSegmentInBatch platform code
        (cursor, event.frame - cursor, if beganBlock then 0 else PROCESSOR_BEGIN_BLOCK)
      triggerEventInBatch code program host event.name event.values
      renderEvents blockSize events event.frame true
    else do
      triggerEventInBatch code program host event.name event.values
      renderEvents blockSize events cursor beganBlock

/-- `render_block_event_iter_interleaved`. -/
def renderBlockEventIterInterleaved (rendered : Nat) (events : List (ScheduledEvent X)) :
    SessionCall W S V Unit :=
  if events = [] then renderBlockInterleaved platform code program host rendered
  else do
    beginEvents platform program host rendered events
    let blockSize ← Call.read (·.options.blockSize)
    renderEvents platform code program host blockSize events 0 false

/-! ### State and buffers -/

/-- `snapshot_state_bytes`, up to the packing of the image. -/
def snapshotStateBytes : SessionCall W S V Unit :=
  onInstance do
    let _ ← initializedState
    pure ()

/-- `restore_state_bytes`. -/
def restoreStateBytes (bytes : Bytes) : SessionCall W S V Unit :=
  onInstance do
    Instance.restoreStateBytes code program bytes
    prepareUncheckedProcess platform program

/-- `set_input_block`. -/
def setInputBlock (interleaved : List UInt32) (sourceChannels : Nat) : SessionCall W S V Unit :=
  Call.update fun session =>
    { session with
      active :=
        { session.active with
          env :=
            { session.active.env with
              world := host.writeInputs interleaved sourceChannels session.active.env.world } } }

/-- `build_instance`, and the assignment of its result to the session's instance.  A failed build
keeps the instance. -/
def rebuildWith (replacement : Option BufferBindingReplacement) : SessionCall W S V Unit :=
  fun session =>
    match createBoundInstance platform code program host session.options session.inputBuffers
        session.outputBuffers session.bufferBindings replacement session.paramValues
        session.active.env with
    | (.error stop, env) => (.error stop, { session with active := { session.active with env } })
    | (.ok inst, env) =>
      (.ok (),
        { session with
          active := ⟨inst, env⟩
          paramSmoothing := host.settleSmoothing false session.paramSmoothing })

/-- `restart`, by `rebuild_instance`. -/
def restart : SessionCall W S V Unit := rebuildWith platform code program host none

/-- `validate_buffer_element`. -/
def validateBufferElement (index : Nat) (name : String) (element : PrimitiveType) :
    SessionCall W S V Unit :=
  match program.buffers[index]? with
  | none => pure ()
  | some desc =>
    Call.refuseIf (desc.elemTy ≠ element)
      (.diagnostic ("buffer '" ++ name ++ "' expects " ++ desc.elemTy.debug ++
        ", but its asset contains " ++ element.debug))

/-- The check of a prepared binding in `replace_prepared_buffer`. -/
def checkPrepared (index : Nat) (name : String) :
    Option RunBufferBinding → SessionCall W S V Unit
  | some binding => validateBufferElement program index name binding.element
  | none => pure ()

/-- `replace_prepared_buffer`: the `bind_buffer_*` operations prepare a binding and end here, and
`clear_buffer` ends here with none. -/
def replacePreparedBuffer (name : String) (prepared : Option RunBufferBinding) :
    SessionCall W S V Unit :=
  match program.bufferIndex name with
  | none => Call.fail (.diagnostic ("unknown buffer '" ++ name ++ "'"))
  | some index => do
    checkPrepared program index name prepared
    rebuildWith platform code program host (some ⟨index, prepared⟩)
    Call.update fun session =>
      { session with bufferBindings := session.bufferBindings.set index prepared }

end RunSession

end Onda.Runtime
