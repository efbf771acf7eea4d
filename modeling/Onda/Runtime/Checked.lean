import Onda.Runtime.Operations

/-!
# Checked operations on an instance

The native program with the checks around its initialization, the checked process and event calls,
and the reads of the state image.  Every operation that a host can make without an unsafe entry is
one `CheckedCall`.

Generated code may return any status and leave any image.  An entry into it is written down with
the tables that it was given; no operation reads what is written down.
-/

namespace Onda.Runtime

open Effects
open Onda.Project (Platform f32IsFinite f32LeZero)

/-! ### The native program -/

/-- An entry into generated code. -/
structure Entered where
  call : GeneratedCall
  buffers : List BoundBuffer
  /-- The channel pointers, of a process call. -/
  channels : Option (List Nat × List Nat)

/-- The host's memory, and the entries of the operation that is running. -/
structure Host (W : Type) where
  world : W
  entered : List Entered

/-- `CompiledMirProcessor`: the layouts and the generated functions, on the memory `W` that they
share with the host.  `V` stands for the tensor views of an event. -/
structure NativeCode (W V : Type) where
  /-- `layouts.params.size`. -/
  paramsSize : Nat
  /-- `layouts.state.size`. -/
  stateSize : Nat
  /-- The allocation of the state is aligned.  Its address does not change. -/
  stateAligned : Bool
  init : InitMode → Bytes → Bytes → List BoundBuffer → W → UInt32 × Bytes × W
  process : Bytes → Bytes → UInt32 → UInt32 → UInt32 → List Nat → List Nat → List BoundBuffer →
    W → UInt32 × Bytes × W
  event : Bytes → Bytes → Nat → Bytes → List BoundBuffer → W → UInt32 × Bytes × W
  eventViews : Bytes → Bytes → Nat → V → List BoundBuffer → W → UInt32 × Bytes × W
  /-- `plan.validate_tensor_views(views).is_ok()`. -/
  validateTensorViews : Nat → V → W → Bool
  /-- The segments of `write_state_snapshot`. -/
  writeStateSnapshot : Bytes → Except String Bytes
  overlayStateSnapshot : Bytes → Bytes → Except String Unit × Bytes
  controlOutputs : List DeclaredIo
  controlOutputStorageByteOffset : Nat → Option Nat

/-- The `expected_channels` of `validate_buffer_abi`. -/
def expectedChannels (desc : DeclaredBuffer) : Option Nat :=
  match desc.channels with
  | .mono => some 1
  | .static expected => some expected
  | .dynamic => none

/-- The check of a row against them. -/
def checkRowChannels (index : Nat) (desc : DeclaredBuffer) (channels : Nat) :
    Except String Unit :=
  match expectedChannels desc with
  | some expected =>
    configCheck (channels ≠ expected)
      ("runtime buffer " ++ toString index ++ " requires " ++ toString expected ++
        " channels, got " ++ toString channels)
  | none => .ok ()

/-- One row of `validate_buffer_abi`. -/
def checkBufferRow (index : Nat) (desc : DeclaredBuffer) (row : BoundBuffer) :
    Except String Unit := do
  configCheck (¬f32IsFinite row.sampleRateHz ∨ f32LeZero row.sampleRateHz)
    ("runtime buffer " ++ toString index ++ " requires finite positive sample rate")
  configCheck (row.framesI32 = 0 ∨ row.channelsI32 = 0)
    ("runtime buffer " ++ toString index ++ " requires positive dimensions; got " ++
      toString row.framesI32 ++ " * " ++ toString row.channelsI32)
  configCheck (row.ptr ≠ 0 ∧ ¬primitiveTypeAlignment desc.elemTy ∣ row.ptr)
    ("runtime buffer " ++ toString index ++ " pointer requires " ++
      toString (primitiveTypeAlignment desc.elemTy) ++ "-byte alignment")
  checkRowChannels index desc row.channelsI32
  configCheck (I32_MAX < row.framesI32 * row.channelsI32)
    ("runtime buffer " ++ toString index ++ " element count " ++ toString row.framesI32 ++ " * " ++
      toString row.channelsI32 ++ " exceeds i32")
  configCheck (I32_MAX < row.framesI32 * row.channelsI32 * primitiveTypeBytes desc.elemTy)
    ("runtime buffer " ++ toString index ++ " byte extent " ++ toString row.framesI32 ++ " * " ++
      toString row.channelsI32 ++ " * " ++ toString (primitiveTypeBytes desc.elemTy) ++
      " exceeds i32")

/-- `validate_buffer_abi`.  The four tables of a model instance have one length. -/
def validateBufferAbi (buffers : List DeclaredBuffer) (tables : List BoundBuffer) :
    Except String Unit := do
  configCheck (tables.length ≠ buffers.length)
    ("runtime buffer metadata count mismatch: ptrs=" ++ toString tables.length ++ ", frames=" ++
      toString tables.length ++ ", chans=" ++ toString tables.length ++ ", samplerates=" ++
      toString tables.length ++ ", expected=" ++ toString buffers.length)
  (buffers.zip tables).zipIdx.forM fun ((desc, row), index) => checkBufferRow index desc row

namespace NativeCode

variable {W V : Type} (native : NativeCode W V) (program : JitProgram)

/-- The checks of `initialize_state_in_place_checked_with_status`, and of the initialization of a
pending image.  The size of the state is the one that its allocation has written down. -/
def checkInit (params : Bytes) (tables : List BoundBuffer) : Except String Unit := do
  configCheck (params.length ≠ native.paramsSize)
    ("MIR runtime parameter storage has " ++ toString params.length ++ " bytes; expected " ++
      toString native.paramsSize)
  configCheck (program.stateSizeBytes ≠ native.stateSize)
    ("MIR runtime state storage has " ++ toString program.stateSizeBytes ++ " bytes; expected " ++
      toString native.stateSize)
  validateBufferAbi program.buffers tables
  configCheck (native.stateAligned = false)
    "runtime state alignment does not match native MIR layout"

/-- The result of a generated function, with its entry. -/
def enter (entry : Entered) (host : Host W) (result : UInt32 × Bytes × W) :
    UInt32 × Bytes × Host W :=
  (result.1, result.2.1, ⟨result.2.2, entry :: host.entered⟩)

/-- The checks, and the generated initialization if they pass. -/
def runInit (mode : InitMode) (params storage : Bytes) (tables : List BoundBuffer)
    (host : Host W) : Except String UInt32 × Bytes × Host W :=
  match native.checkInit program params tables with
  | .error message => (.error message, storage, host)
  | .ok () =>
    let (status, storage', host') := enter ⟨.init, tables, none⟩ host
      (native.init mode params storage tables host.world)
    (.ok status, storage', host')

/-- The program as an instance calls it. -/
def entries : GeneratedCode (Host W) where
  initializeAllocatedState := native.runInit program .full
  initializeStateInPlace := native.runInit program
  overlayStateSnapshot := native.overlayStateSnapshot
  process params storage start frames flags inputs outputs tables host :=
    enter ⟨.process, tables, some (inputs, outputs)⟩ host
      (native.process params storage start frames flags inputs outputs tables host.world)
  event params storage index payload tables host :=
    enter ⟨.event, tables, none⟩ host
      (native.event params storage index payload tables host.world)

/-- `trigger_event_views_by_index_unchecked` of the program. -/
def enterEventViews (params storage : Bytes) (index : Nat) (views : V)
    (tables : List BoundBuffer) (host : Host W) : UInt32 × Bytes × Host W :=
  enter ⟨.event, tables, none⟩ host
    (native.eventViews params storage index views tables host.world)

/-- `validate_event_tensor_views`: unknown event indices are neutral. -/
def validateEventTensorViews (index : Nat) (views : V) (world : W) : Bool :=
  !decide (index < program.events.length) || native.validateTensorViews index views world

end NativeCode

/-! ### Checked calls -/

section Calls

variable {W V : Type} (platform : Platform) (native : NativeCode W V) (program : JitProgram)

/-- `process_checked_segment_with_status`. -/
def processCheckedSegmentWithStatus (startFrame frames : Nat) (flags : UInt32) :
    InstanceCall (Host W) UInt32 := do
  validateProcessSegment platform startFrame frames flags
  validateBindingsForProcess platform program
  let start ← u32TryFrom startFrame "process start frame does not fit u32"
  let count ← u32TryFrom frames "process frame count does not fit u32"
  let storage ← initializedState
  attemptStatus .process fun active =>
    let (status, storage', host) :=
      (native.entries program).process active.inst.params storage start count flags
        active.inst.inputPtrs active.inst.outputPtrs active.inst.bufferTables active.env.world
    (.ok status, storage', host)

/-- The end of an event call: an event that is not declared is ignored, and only a handler that
fails invalidates the image. -/
def dispatchEvent (eventIndex : Nat)
    (event : Active (Host W) → UInt32 × Bytes × Host W) : InstanceCall (Host W) UInt32 :=
  if eventIndex < program.events.length then fun active =>
    let (status, storage, host) := event active
    (.ok status,
      settle (.allocated storage (!eventStatusInvalidatesState status)) host .event
        (eventStatusInvalidatesState status) active)
  else pure PROCESSOR_EXECUTION_OK

/-- `trigger_event_by_index_impl`. -/
def triggerEventByIndexImpl (eventIndex : Nat) (payload : Bytes) :
    InstanceCall (Host W) UInt32 := do
  unlessValidated (·.buffersValidated) (validateBuffers program)
  let storage ← initializedState
  dispatchEvent program eventIndex fun active =>
    (native.entries program).event active.inst.params storage eventIndex payload
      active.inst.bufferTables active.env.world

/-- `trigger_event_views_by_index_checked_with_status`. -/
def triggerEventViewsByIndexCheckedWithStatus (eventIndex : Nat) (views : V) :
    InstanceCall (Host W) UInt32 := do
  unlessValidated (·.buffersValidated) (validateBuffers program)
  let storage ← initializedState
  let valid ← Call.read fun active =>
    native.validateEventTensorViews program eventIndex views active.env.world.world
  if valid then
    dispatchEvent program eventIndex fun active =>
      native.enterEventViews active.inst.params storage eventIndex views
        active.inst.bufferTables active.env.world
  else pure PROCESSOR_EXECUTION_INPUT_REJECTED

/-- `validate_bindings`. -/
def validateBindings : InstanceCall (Host W) Unit := do
  validateBuffers program
  validateInputs platform program
  validateOutputs platform program

/-! ### Reads of the state -/

/-- `write_snapshot_state_bytes`, into a destination of a size. -/
def writeSnapshotStateBytes (size : Nat) : InstanceCall (Host W) Bytes := do
  let storage ← initializedState
  Call.refuseIf (size ≠ program.snapshotSizeBytes)
    (.diagnostic ("state snapshot byte size mismatch: expected " ++
      toString program.snapshotSizeBytes ++ ", got " ++ toString size))
  checked (native.writeStateSnapshot storage)

/-- `read_control_output_bytes`, into a destination of a size. -/
def readControlOutputBytes (index size : Nat) : InstanceCall (Host W) Bytes :=
  match native.controlOutputs[index]? with
  | none => refuse ("unknown control output index " ++ toString index)
  | some desc => do
    let expected := desc.byteSize platform
    Call.refuseIf (size ≠ expected)
      (.diagnostic ("control output '" ++ desc.name ++ "' expects " ++ toString expected ++
        " destination bytes, got " ++ toString size))
    match native.controlOutputStorageByteOffset index with
    | none => refuse ("control output '" ++ desc.name ++ "' has no runtime storage")
    | some start => do
      let stop := saturatingAdd platform start expected
      let storage ← initializedState
      Call.refuseIf (storage.length < stop)
        (.diagnostic ("control output '" ++ desc.name ++ "' byte range [" ++ toString start ++
          ", " ++ toString stop ++ ") is out of bounds for runtime storage (" ++
          toString storage.length ++ ")"))
      return (storage.drop start).take (stop - start)

end Calls

/-! ### Operations -/

/-- The calls that may enter generated code, with their status. -/
inductive StatusCall (V : Type) where
  | init (mode : InitMode)
  | restore (bytes : Bytes)
  | process (startFrame frames : Nat) (flags : UInt32)
  | event (eventIndex : Nat) (payload : Bytes)
  | eventViews (eventIndex : Nat) (views : V)

inductive ReadCall where
  /-- `snapshot_state_bytes` reads into a destination of the right size. -/
  | snapshot (size : Nat)
  | controlOutput (index size : Nat)

/-- Bindings, their checks, and parameter writes. -/
inductive HostCall where
  | bindInput (index ptr bytes : Nat)
  | bindOutput (index ptr bytes : Nat)
  | bindBuffer (index ptr frames channels : Nat) (sampleRateHz : UInt32) (elemTy : PrimitiveType)
  | validateInputs
  | validateOutputs
  | validateBuffers
  | validateBindings
  | prepareUncheckedProcess
  | setParam (index : Nat) (value : Bytes)
  | setParamElement (index element : Nat) (value : Bytes)

inductive CheckedCall (V : Type) where
  | host (call : HostCall)
  | read (call : ReadCall)
  | status (call : StatusCall V)
  /-- The call, with a status that is not the success status as an error. -/
  | strict (call : StatusCall V)

section Performing

variable {W V : Type} (platform : Platform) (native : NativeCode W V) (program : JitProgram)

def HostCall.perform : HostCall → InstanceCall (Host W) Unit
  | .bindInput index ptr bytes => Runtime.bindInput platform program index ptr bytes
  | .bindOutput index ptr bytes => Runtime.bindOutput platform program index ptr bytes
  | .bindBuffer index ptr frames channels sampleRateHz elemTy =>
    Runtime.bindBuffer program index ptr frames channels sampleRateHz elemTy
  | .validateInputs => Runtime.validateInputs platform program
  | .validateOutputs => Runtime.validateOutputs platform program
  | .validateBuffers => Runtime.validateBuffers program
  | .validateBindings => Runtime.validateBindings platform program
  | .prepareUncheckedProcess => Runtime.prepareUncheckedProcess platform program
  | .setParam index value => setParamByIndex platform program index value
  | .setParamElement index element value =>
    setParamElementByIndex platform program index element value

def ReadCall.perform : ReadCall → InstanceCall (Host W) Bytes
  | .snapshot size => writeSnapshotStateBytes native program size
  | .controlOutput index size => readControlOutputBytes platform native index size

def StatusCall.perform : StatusCall V → InstanceCall (Host W) UInt32
  | .init mode => initCheckedWithStatus (native.entries program) program mode
  | .restore bytes => restoreStateBytesWithStatus (native.entries program) program bytes
  | .process startFrame frames flags =>
    processCheckedSegmentWithStatus platform native program startFrame frames flags
  | .event eventIndex payload => triggerEventByIndexImpl native program eventIndex payload
  | .eventViews eventIndex views =>
    triggerEventViewsByIndexCheckedWithStatus native program eventIndex views

/-- What an operation gives back. -/
inductive Answer where
  | done
  | bytes (bytes : Bytes)
  | status (status : UInt32)

def CheckedCall.perform : CheckedCall V → InstanceCall (Host W) Answer
  | .host call => do
    call.perform platform program
    return .done
  | .read call => do
    let bytes ← call.perform platform native program
    return .bytes bytes
  | .status call => do
    let status ← call.perform platform native program
    return .status status
  | .strict call => do
    let status ← call.perform platform native program
    checkExecutionStatus status
    return .done

end Performing

end Onda.Runtime
