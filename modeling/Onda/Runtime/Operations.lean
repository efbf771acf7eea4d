import Onda.Runtime.Instance

/-!
# Operations on an instance

Creating an instance, binding host memory to it, checking the bindings, initialization, restore,
parameter writes, and the two unchecked entries.
-/

namespace Onda.Runtime

open Effects
open Onda.Project (Platform f32IsFinite f32LeZero)

variable {W : Type} (platform : Platform) (code : GeneratedCode W) (program : JitProgram)

/-! ### Bindings -/

namespace Surface

/-- The bindings of the surface are no longer the ones that were checked. -/
def invalidate (surface : Surface) (inst : Instance) : Instance :=
  match surface with
  | .inputs => { inst with inputsValidated := false }.record (.bound .inputs)
  | .outputs => { inst with outputsValidated := false }.record (.bound .outputs)
  | .buffers => { inst with buffersValidated := false }.record (.bound .buffers)

/-- The tables of the surface were built from its bindings. -/
def markValidated (surface : Surface) (inst : Instance) : Instance :=
  match surface with
  | .inputs => { inst with inputsValidated := true }.record (.prepared .inputs)
  | .outputs => { inst with outputsValidated := true }.record (.prepared .outputs)
  | .buffers => { inst with buffersValidated := true }.record (.prepared .buffers)

end Surface

/-- `validate_pointer_alignment`. -/
def validatePointerAlignment (ptr : Nat) (ty : PrimitiveType) (surface : Surface)
    (name : String) : InstanceCall W Unit :=
  Call.refuseIf (¬primitiveTypeAlignment ty ∣ ptr)
    (.diagnostic (surface.label ++ " '" ++ name ++ "' binding pointer requires " ++
      toString (primitiveTypeAlignment ty) ++ "-byte alignment for " ++ ty.debug))

/-- The body that `bind_input` and `bind_output` share. -/
def bindEndpoint (surface : Surface) (endpoints : List DeclaredIo)
    (assign : Option BoundRegion → Instance → Instance) (index ptr bytes : Nat) :
    InstanceCall W Unit :=
  match endpoints[index]? with
  | none => refuse ("unknown " ++ surface.label ++ " index " ++ toString index)
  | some desc =>
    if ptr = 0 then
      if bytes = 0 then
        modify fun inst => surface.invalidate (assign none inst)
      else
        refuse (surface.label ++ " '" ++ desc.name ++ "' binding pointer is null")
    else do
      validatePointerAlignment ptr desc.elemTy surface desc.name
      let expected ← Call.read fun active =>
        platform.saturatingMul (desc.byteSize platform) active.inst.config.framesPerBlock
      Call.refuseIf (bytes ≠ expected)
        (.diagnostic (surface.label ++ " '" ++ desc.name ++ "' expects " ++ toString expected ++
          " bytes for one block, got " ++ toString bytes))
      modify fun inst => surface.invalidate (assign (some ⟨ptr, bytes⟩) inst)

/-- `bind_input`. -/
def bindInput (index ptr bytes : Nat) : InstanceCall W Unit :=
  bindEndpoint platform .inputs program.inputs
    (fun region inst => { inst with inputBindings := inst.inputBindings.set index region })
    index ptr bytes

/-- `bind_output`. -/
def bindOutput (index ptr bytes : Nat) : InstanceCall W Unit :=
  bindEndpoint platform .outputs program.outputs
    (fun region inst => { inst with outputBindings := inst.outputBindings.set index region })
    index ptr bytes

/-- `i32::MAX`. -/
def I32_MAX : Nat := 2 ^ 31 - 1

/-- `validate_buffer_byte_extent`, on positive extents. -/
def validateBufferByteExtent (frames channels : Nat) (element : PrimitiveType) (name : String) :
    InstanceCall W Unit :=
  Call.refuseIf
    (I32_MAX < frames * channels ∨ I32_MAX < frames * channels * primitiveTypeBytes element)
    (.diagnostic ("buffer '" ++ name ++ "' byte extent " ++ toString frames ++ " * " ++
      toString channels ++ " * " ++ toString (primitiveTypeBytes element) ++
      " exceeds i32 runtime limit"))

/-- The `match desc.channels()` of `bind_buffer`. -/
def checkBufferChannels (desc : DeclaredBuffer) (channels : Nat) : InstanceCall W Unit :=
  match desc.channels with
  | .mono =>
    Call.refuseIf (channels ≠ 1)
      (.diagnostic ("buffer '" ++ desc.name ++ "' expects mono (1 channel), got " ++
        toString channels))
  | .static expected =>
    Call.refuseIf (channels ≠ expected)
      (.diagnostic ("buffer '" ++ desc.name ++ "' expects " ++ toString expected ++
        " channels, got " ++ toString channels))
  | .dynamic => pure ()

/-- `sample_rate_hz == 0.0`: both zeros are equal to it. -/
def f32IsZero (bits : UInt32) : Bool := bits == 0 || bits == 0x80000000

/-- `bind_buffer`. -/
def bindBuffer (index ptr frames channels : Nat) (sampleRateHz : UInt32)
    (elemTy : PrimitiveType) : InstanceCall W Unit :=
  match program.buffers[index]? with
  | none => refuse ("unknown buffer index " ++ toString index)
  | some desc =>
    if f32IsZero sampleRateHz ∨ ptr = 0 ∧ frames = 0 ∧ channels = 0 then
      modify fun inst =>
        Surface.buffers.invalidate
          { inst with bufferBindings := inst.bufferBindings.set index none }
    else do
      Call.refuseIf (¬f32IsFinite sampleRateHz ∨ f32LeZero sampleRateHz)
        (.diagnostic ("buffer '" ++ desc.name ++ "' requires finite sample_rate > 0"))
      Call.refuseIf (elemTy ≠ desc.elemTy)
        (.diagnostic ("buffer '" ++ desc.name ++ "' element type mismatch: expected " ++
          desc.elemTy.debug ++ ", got " ++ elemTy.debug))
      Call.refuseIf (frames = 0 ∨ channels = 0 ∨ ptr = 0)
        (.diagnostic ("buffer '" ++ desc.name ++
          "' must be unbound with null + zero frames/channels or bound with a non-null " ++
          "pointer and positive frames/channels"))
      validatePointerAlignment ptr elemTy .buffers desc.name
      checkBufferChannels desc channels
      Call.refuseIf (I32_MAX < frames)
        (.diagnostic ("buffer '" ++ desc.name ++ "' frames " ++ toString frames ++
          " exceed i32 runtime limit"))
      Call.refuseIf (I32_MAX < channels)
        (.diagnostic ("buffer '" ++ desc.name ++ "' channels " ++ toString channels ++
          " exceed i32 runtime limit"))
      validateBufferByteExtent frames channels elemTy desc.name
      modify fun inst =>
        Surface.buffers.invalidate
          { inst with
            bufferBindings :=
              inst.bufferBindings.set index (some ⟨ptr, frames, channels, sampleRateHz⟩) }

/-! ### Checking the bindings -/

/-- `fallback_channels`. -/
def fallbackChannels (buffer : DeclaredBuffer) : Except String Nat :=
  match buffer.channels with
  | .static channels =>
    if channels ≤ I32_MAX then .ok channels
    else .error ("buffer '" ++ buffer.name ++ "' channel count does not fit i32")
  | .mono | .dynamic => .ok 1

/-- The result of a check that names its failure by a text. -/
def checked {α : Type} (result : Except String α) : InstanceCall W α :=
  Call.lift (result.mapError .diagnostic)

/-- `prepare_buffer_ptrs_from_bindings`. -/
def prepareBufferPtrsFromBindings : InstanceCall W Unit :=
  Call.each (fun (desc, idx) => do
    let bound ← Call.read fun active => (active.inst.bufferBindings[idx]?).join
    match bound with
    | some bound =>
      modify fun inst => { inst with bufferTables := inst.bufferTables.set idx bound }
    | none => do
      let channels ← checked (fallbackChannels desc)
      modify fun inst =>
        { inst with
          bufferTables := inst.bufferTables.set idx ⟨0, 1, channels, inst.config.sampleRate⟩ })
    program.buffers.zipIdx

/-- The check that a declared endpoint is bound to a region of one block. -/
def boundRegion (surface : Surface) (desc : DeclaredIo) (bindings : Instance →
    List (Option BoundRegion)) (idx frames : Nat) : InstanceCall W BoundRegion := do
  let bound ← Call.read fun active => ((bindings active.inst)[idx]?).join
  match bound with
  | none => refuse ("required " ++ surface.label ++ " '" ++ desc.name ++ "' is not bound")
  | some region => do
    let expected := platform.saturatingMul (desc.byteSize platform) frames
    Call.refuseIf (region.bytes ≠ expected)
      (.diagnostic (surface.label ++ " '" ++ desc.name ++ "' bound buffer size " ++
        toString region.bytes ++ " does not match expected " ++ toString expected))
    return region

/-- The channel pointers of an endpoint within its region. -/
def channelPtrs (desc : DeclaredIo) (region : BoundRegion) (frames : Nat) (ptrs : List Nat) :
    List Nat :=
  (List.range desc.arrayLen).foldl (fun ptrs ch =>
    ptrs.set (saturatingAdd platform desc.slotOffset ch)
      (region.ptr + platform.saturatingMul (platform.saturatingMul ch frames)
        (primitiveTypeBytes desc.elemTy))) ptrs

/-- `prepare_input_ptrs_from_bindings`. -/
def prepareInputPtrsFromBindings (frames : Nat) : InstanceCall W Unit := do
  let slots ← Call.read fun active => active.inst.inputPtrs.length
  Call.refuseIf (slots ≠ program.requiredInChannels platform)
    (.diagnostic
      "runtime input channel pointer storage does not match compiled program")
  Call.each (fun (desc, idx) => do
    let region ← boundRegion platform .inputs desc (·.inputBindings) idx frames
    modify fun inst =>
      { inst with inputPtrs := channelPtrs platform desc region frames inst.inputPtrs })
    program.inputs.zipIdx

/-- `prepare_output_ptrs_for_process`. -/
def prepareOutputPtrsForProcess (frames : Nat) : InstanceCall W Unit := do
  let slots ← Call.read fun active => active.inst.outputPtrs.length
  Call.refuseIf (slots ≠ program.requiredOutChannels platform)
    (.diagnostic
      "runtime output channel pointer storage does not match compiled program")
  modify fun inst => { inst with outputPtrs := inst.outputPtrs.map fun _ => 0 }
  Call.each (fun (desc, idx) => do
    let region ← boundRegion platform .outputs desc (·.outputBindings) idx frames
    modify fun inst =>
      { inst with outputPtrs := channelPtrs platform desc region frames inst.outputPtrs })
    program.outputs.zipIdx
  Call.each (fun desc =>
    Call.each (fun ch => do
      let ptr ← Call.read fun active =>
        active.inst.outputPtrs[saturatingAdd platform desc.slotOffset ch]?
      Call.refuseIf (ptr = some 0)
        (.diagnostic ("output '" ++ desc.name ++ "' channel pointer is null")))
      (List.range desc.arrayLen))
    program.outputs

/-- `validate_inputs`. -/
def validateInputs : InstanceCall W Unit := do
  let frames ← Call.read fun active => active.inst.config.framesPerBlock
  prepareInputPtrsFromBindings platform program frames
  modify Surface.inputs.markValidated

/-- `validate_outputs`. -/
def validateOutputs : InstanceCall W Unit := do
  let frames ← Call.read fun active => active.inst.config.framesPerBlock
  Call.each (fun (desc, idx) => do
    let _ ← boundRegion platform .outputs desc (·.outputBindings) idx frames)
    program.outputs.zipIdx
  prepareOutputPtrsForProcess platform program frames
  modify Surface.outputs.markValidated

/-- `validate_buffers`. -/
def validateBuffers : InstanceCall W Unit := do
  prepareBufferPtrsFromBindings program
  modify Surface.buffers.markValidated

/-- `if !validated { validate(instance)? }`. -/
def unlessValidated (flag : Instance → Bool) (validate : InstanceCall W Unit) :
    InstanceCall W Unit := do
  let done ← Call.read fun active => flag active.inst
  if done then pure () else validate

/-- `validate_bindings_for_process`. -/
def validateBindingsForProcess : InstanceCall W Unit := do
  unlessValidated (·.buffersValidated) (validateBuffers program)
  unlessValidated (·.inputsValidated) (validateInputs platform program)
  unlessValidated (·.outputsValidated) (validateOutputs platform program)

/-- `initialized_state`. -/
def initializedState : InstanceCall W Bytes := do
  let state ← Call.read fun active => active.inst.state
  match state with
  | .allocated storage true => pure storage
  | .allocated _ false => refuse INVALID_INSTANCE
  | .pending _ => refuse UNINITIALIZED_INSTANCE

/-- `prepare_unchecked_process`. -/
def prepareUncheckedProcess : InstanceCall W Unit := do
  let _ ← initializedState
  validateBindingsForProcess platform program

/-! ### Generated calls -/

/-- What a generated call leaves: the image, the host's memory and an event of the history. -/
def settle (state : InstanceState) (world : W) (call : GeneratedCall) (failed : Bool)
    (active : Active W) : Active W :=
  { inst := { active.inst with state := state }.record (.ran call failed)
    env := { active.env with world := world } }

/-- `attempt_status`: the image is initialized exactly when the operation's status is the
success status. -/
def attemptStatus (call : GeneratedCall)
    (operation : Active W → Except String UInt32 × Bytes × W) : InstanceCall W UInt32 :=
  fun active =>
    match operation active with
    | (.ok status, storage, world) =>
      (.ok status,
        settle (.allocated storage (status = PROCESSOR_EXECUTION_OK)) world call
          (status ≠ PROCESSOR_EXECUTION_OK) active)
    | (.error message, storage, world) =>
      (.error (.diagnostic message), settle (.allocated storage false) world call true active)

/-- The first initialization, of a pending image: `initialize_allocated_state_with_status` leaves
the storage pending unless the status is the success status. -/
def initializePending (storage : Bytes) : InstanceCall W UInt32 := fun active =>
  match code.initializeAllocatedState active.inst.params storage active.inst.bufferTables
      active.env.world with
  | (.ok status, storage', world) =>
    (.ok status,
      settle
        (if status = PROCESSOR_EXECUTION_OK then .allocated storage' true else .pending storage')
        world .init (status ≠ PROCESSOR_EXECUTION_OK) active)
  | (.error message, storage', world) =>
    (.error (.diagnostic message), settle (.pending storage') world .init true active)

/-- `init_checked_with_status`. -/
def initCheckedWithStatus (mode : InitMode) : InstanceCall W UInt32 := do
  unlessValidated (·.buffersValidated) (validateBuffers program)
  let state ← Call.read fun active => active.inst.state
  match state with
  | .pending storage =>
    if mode = .full then initializePending code storage else refuse UNINITIALIZED_INSTANCE
  | .allocated storage initialized =>
    if mode = .preservePinned ∧ initialized = false then refuse INVALID_INSTANCE
    else
      attemptStatus .init fun active =>
        code.initializeStateInPlace mode active.inst.params storage active.inst.bufferTables
          active.env.world

/-- `init_checked_with_output`. -/
def initCheckedWithOutput (mode : InitMode) : InstanceCall W Unit := do
  let status ← initCheckedWithStatus code program mode
  checkExecutionStatus status

/-- `restore_state_snapshot_with_status`, after its length check. -/
def restoreStateSnapshotWithStatus (storage bytes : Bytes) (active : Active W) :
    Except String UInt32 × Bytes × W :=
  match code.initializeStateInPlace .full active.inst.params storage active.inst.bufferTables
      active.env.world with
  | (.error message, storage', world) => (.error message, storage', world)
  | (.ok status, storage', world) =>
    if status = PROCESSOR_EXECUTION_OK then
      match code.overlayStateSnapshot bytes storage' with
      | (.ok (), storage'') => (.ok status, storage'', world)
      | (.error message, storage'') => (.error message, storage'', world)
    else (.ok status, storage', world)

/-- The overlay of a snapshot on an image that was just initialized. -/
def overlayFresh (storage bytes : Bytes) (active : Active W) : Except String UInt32 × Bytes × W :=
  match code.overlayStateSnapshot bytes storage with
  | (.ok (), storage') => (.ok PROCESSOR_EXECUTION_OK, storage', active.env.world)
  | (.error message, storage') => (.error message, storage', active.env.world)

/-- `restore_state_bytes_with_status`. -/
def restoreStateBytesWithStatus (bytes : Bytes) : InstanceCall W UInt32 := do
  Call.refuseIf (bytes.length ≠ program.snapshotSizeBytes)
    (.diagnostic ("state snapshot byte size mismatch: expected " ++
      toString program.snapshotSizeBytes ++ ", got " ++ toString bytes.length))
  unlessValidated (·.buffersValidated) (validateBuffers program)
  let state ← Call.read fun active => active.inst.state
  match state with
  | .pending _ => do
    let status ← initCheckedWithStatus code program .full
    if status ≠ PROCESSOR_EXECUTION_OK then pure status
    else do
      let state ← Call.read fun active => active.inst.state
      match state with
      | .allocated storage _ => attemptStatus .restore (overlayFresh code storage bytes)
      | .pending _ => Call.fail .undefined  -- the code's `unreachable!`
  | .allocated storage _ =>
    attemptStatus .restore (restoreStateSnapshotWithStatus code storage bytes)

/-- `restore_state_bytes` of an instance. -/
def Instance.restoreStateBytes (bytes : Bytes) : InstanceCall W Unit := do
  let status ← restoreStateBytesWithStatus code program bytes
  checkExecutionStatus status

/-! ### The unchecked entries -/

/-- `validate_process_segment`. -/
def validateProcessSegment (startFrame frames : Nat) (flags : UInt32) : InstanceCall W Unit := do
  let framesPerBlock ← Call.read fun active => active.inst.config.framesPerBlock
  Call.refuseIf (platform.usizeMax < startFrame + frames)
    (.diagnostic "segment frame range overflows usize")
  Call.refuseIf (framesPerBlock < startFrame + frames)
    (.diagnostic ("segment start frame + frame count must be less than or equal to fixed " ++
      "instance block size"))
  Call.refuseIf (flags &&& ~~~PROCESSOR_FULL_BLOCK ≠ 0)
    (.diagnostic ("unknown process flags " ++ toString (flags &&& ~~~PROCESSOR_FULL_BLOCK)))

/-- `u32::try_from`. -/
def u32TryFrom (value : Nat) (message : String) : InstanceCall W UInt32 := do
  Call.refuseIf (2 ^ 32 ≤ value) (.diagnostic message)
  return UInt32.ofNat value

/-- `process_unchecked_segment`. -/
def processUncheckedSegment (startFrame frames : Nat) (flags : UInt32) :
    InstanceCall W UInt32 := do
  logEntry .processUncheckedSegment
  validateProcessSegment platform startFrame frames flags
  let start ← u32TryFrom startFrame "start frame does not fit u32 runtime/JIT process entrypoint"
  let count ← u32TryFrom frames "frame count does not fit u32 runtime/JIT process entrypoint"
  let state ← Call.read fun active => active.inst.state
  match state with
  | .allocated storage true => fun active =>
    let (status, storage', world) :=
      code.process active.inst.params storage start count flags active.inst.inputPtrs
        active.inst.outputPtrs active.inst.bufferTables active.env.world
    (.ok status,
      settle (.allocated storage' (status = PROCESSOR_EXECUTION_OK)) world .process
        (status ≠ PROCESSOR_EXECUTION_OK) active)
  | .allocated _ false | .pending _ => Call.fail .undefined

/-- `event_status_invalidates_state`. -/
def eventStatusInvalidatesState (status : UInt32) : Bool :=
  status ≠ PROCESSOR_EXECUTION_OK && status ≠ PROCESSOR_EXECUTION_INPUT_REJECTED

/-- `trigger_event_by_index_unchecked`.  An event that is not declared is ignored. -/
def triggerEventByIndexUnchecked (eventIndex : Nat) (payload : Bytes) :
    InstanceCall W UInt32 := do
  logEntry .triggerEventByIndexUnchecked
  let state ← Call.read fun active => active.inst.state
  match state with
  | .allocated storage true =>
    if eventIndex < program.events.length then fun active =>
      let (status, storage', world) :=
        code.event active.inst.params storage eventIndex payload active.inst.bufferTables
          active.env.world
      (.ok status,
        settle (.allocated storage' (!eventStatusInvalidatesState status)) world .event
          (eventStatusInvalidatesState status) active)
    else pure PROCESSOR_EXECUTION_OK
  | .allocated _ false | .pending _ => Call.fail .undefined

/-! ### Parameters -/

/-- The write of a range of the parameter block. -/
def writeParamBytes (start : Nat) (bytes : Bytes) : InstanceCall W Unit :=
  modify fun inst =>
    { inst with
      params := inst.params.take start ++ bytes ++ inst.params.drop (start + bytes.length) }

/-- `set_param_by_index`. -/
def setParamByIndex (index : Nat) (valueBytes : Bytes) : InstanceCall W Unit :=
  match program.params[index]? with
  | none => refuse ("unknown parameter index " ++ toString index)
  | some desc => do
    let expected := desc.byteSize platform
    Call.refuseIf (valueBytes.length ≠ expected)
      (.diagnostic ("parameter '" ++ desc.name ++ "' expects " ++ toString expected ++
        " bytes, got " ++ toString valueBytes.length))
    let size ← Call.read fun active => active.inst.params.length
    let stop := saturatingAdd platform desc.byteOffset expected
    Call.refuseIf (size < stop)
      (.diagnostic ("parameter '" ++ desc.name ++ "' byte range [" ++ toString desc.byteOffset ++
        ", " ++ toString stop ++ ") is out of bounds for runtime storage (" ++ toString size ++
        ")"))
    writeParamBytes desc.byteOffset valueBytes

/-- `set_param_element_by_index`. -/
def setParamElementByIndex (index element : Nat) (valueBytes : Bytes) : InstanceCall W Unit :=
  match program.params[index]? with
  | none => refuse ("unknown parameter index " ++ toString index)
  | some desc => do
    let width := desc.byteSize platform / desc.arrayLen
    Call.refuseIf (desc.arrayLen ≤ element ∨ valueBytes.length ≠ width)
      (.diagnostic ("invalid element " ++ toString element ++ " or value size for parameter '" ++
        desc.name ++ "'"))
    let size ← Call.read fun active => active.inst.params.length
    Call.refuseIf (size < desc.byteOffset + element * width + width)
      (.diagnostic "parameter element storage is out of bounds")
    writeParamBytes (desc.byteOffset + element * width) valueBytes

/-! ### Creation -/

/-- `write_default_param_bytes`. -/
def writeDefaultParamBytes (params : Bytes) : Except String Bytes :=
  program.params.foldlM (fun out param =>
    match param.defaultBytes with
    | none => .error ("parameter '" ++ param.name ++ "' has no compiled default bytes")
    | some default =>
      if param.byteOffset + default.length ≤ out.length then
        .ok (out.take param.byteOffset ++ default ++ out.drop (param.byteOffset + default.length))
      else .error "runtime parameter default byte range exceeds compiled storage") params

/-- A check of `create_instance_inner`. -/
def configCheck (refused : Prop) [Decidable refused] (message : String) : Except String Unit :=
  if refused then .error message else .ok ()

/-- The instance that `create_instance_inner` builds: surfaces without bindings are prepared. -/
def newInstance (config : InstanceConfig) (params : Bytes) (tables : List BoundBuffer) :
    Instance :=
  let inputSlots := program.requiredInChannels platform
  let outputSlots := program.requiredOutChannels platform
  { config, params
    state := .pending (List.replicate program.stateSizeBytes 0)
    inputBindings := List.replicate program.inputs.length none
    outputBindings := List.replicate program.outputs.length none
    bufferBindings := List.replicate program.buffers.length none
    inputPtrs := List.replicate inputSlots 0
    outputPtrs := List.replicate outputSlots 0
    bufferTables := tables
    inputsValidated := inputSlots = 0
    outputsValidated := outputSlots = 0
    buffersValidated := true
    history :=
      .prepared .buffers :: ((if inputSlots = 0 then [.prepared .inputs] else []) ++
        (if outputSlots = 0 then [.prepared .outputs] else [])) }

/-- `create_instance_inner`, where every allocation succeeds. -/
def createInstance (config : InstanceConfig) : Except String Instance := do
  configCheck (¬f32IsFinite config.sampleRate ∨ f32LeZero config.sampleRate)
    "instance sample_rate must be finite and greater than zero"
  configCheck (config.sampleRate ≠ program.sampleRate)
    "instance sample_rate must match program compile-time sample rate"
  configCheck (config.framesPerBlock = 0) "frames_per_block must be greater than zero"
  configCheck (config.outChannels = 0 ∧ 0 < program.requiredOutChannels platform)
    "out_channels must be greater than zero when the program has audio outputs"
  configCheck (config.inChannels < program.requiredInChannels platform)
    "configured input channels are fewer than program inputs"
  configCheck (config.outChannels < program.requiredOutChannels platform)
    "configured output channels are fewer than program outputs"
  configCheck (config.framesPerBlock ≠ program.blockSize)
    ("instance frames_per_block (" ++ toString config.framesPerBlock ++
      ") must match program compile-time block size (" ++ toString program.blockSize ++ ")")
  configCheck (2 ^ 32 ≤ config.framesPerBlock)
    "frames_per_block does not fit u32 runtime/JIT process entrypoint"
  let params ← writeDefaultParamBytes program (List.replicate (program.paramByteSize platform) 0)
  let tables ← program.buffers.mapM fun buffer => do
    let channels ← fallbackChannels buffer
    return (⟨0, 1, channels, config.sampleRate⟩ : BoundBuffer)
  return newInstance platform program config params tables

end Onda.Runtime
