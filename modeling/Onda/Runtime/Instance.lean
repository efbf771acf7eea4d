import Onda.Lib.Effects
import Onda.Project.Buffer

/-!
# Runtime instances

An instance owns the state image of one running program and the host's bindings to it.  The
checked operations guard every entry into generated code; the unchecked ones trust their caller,
and a violated contract is undefined behaviour.

Generated code is a parameter: it may return any status and leave any state image.  Each
instance keeps the history of what was done to it, and every unchecked entry is logged with the
history it met.  The code reads neither.
-/

namespace Onda.Runtime

open Effects
open Onda.Project (Platform f32IsFinite f32LeZero)

abbrev Bytes := List UInt8

/-! ### Program metadata -/

/-- `PrimitiveType`. -/
inductive PrimitiveType where
  | f32 | f64 | i32 | i64 | bool
deriving DecidableEq, Repr

namespace PrimitiveType

/-- The `Debug` text of a type. -/
def debug : PrimitiveType → String
  | f32 => "F32"
  | f64 => "F64"
  | i32 => "I32"
  | i64 => "I64"
  | bool => "Bool"

end PrimitiveType

/-- `primitive_type_bytes`. -/
def primitiveTypeBytes : PrimitiveType → Nat
  | .f32 | .i32 => 4
  | .f64 | .i64 => 8
  | .bool => 1

/-- `primitive_type_alignment`: the sizes are the alignments. -/
def primitiveTypeAlignment : PrimitiveType → Nat := primitiveTypeBytes

/-- `DeclaredIo`: an input, an output or a parameter. -/
structure DeclaredIo where
  name : String
  elemTy : PrimitiveType
  arrayLen : Nat
  isArray : Bool
  slotOffset : Nat
  byteOffset : Nat
  defaultBytes : Option Bytes

def DeclaredIo.byteSize (platform : Platform) (desc : DeclaredIo) : Nat :=
  platform.saturatingMul (primitiveTypeBytes desc.elemTy) desc.arrayLen

inductive DeclaredBufferChannels where
  | mono
  | static (channels : Nat)
  | dynamic

structure DeclaredBuffer where
  name : String
  elemTy : PrimitiveType
  channels : DeclaredBufferChannels

/-- `JitProgram`, less its generated code. -/
structure JitProgram where
  sampleRate : UInt32
  blockSize : Nat
  inputs : List DeclaredIo
  outputs : List DeclaredIo
  params : List DeclaredIo
  buffers : List DeclaredBuffer
  /-- The names of the declared events. -/
  events : List String
  /-- `RuntimeState`'s size in bytes. -/
  stateSizeBytes : Nat
  snapshotSizeBytes : Nat

/-- `left.saturating_add(right)` on `usize`. -/
def saturatingAdd (platform : Platform) (left right : Nat) : Nat :=
  min (left + right) platform.usizeMax

/-- The channels that a row of endpoints spans. -/
def requiredChannels (platform : Platform) (endpoints : List DeclaredIo) : Nat :=
  (endpoints.map fun desc => saturatingAdd platform desc.slotOffset desc.arrayLen).foldl max 0

namespace JitProgram

variable (platform : Platform) (program : JitProgram)

def requiredInChannels : Nat := requiredChannels platform program.inputs

def requiredOutChannels : Nat := requiredChannels platform program.outputs

def paramByteSize : Nat := (program.params.map (·.byteSize platform)).sum

def paramIndex (name : String) : Option Nat := program.params.findIdx? (·.name == name)

def bufferIndex (name : String) : Option Nat := program.buffers.findIdx? (·.name == name)

def eventIndex (name : String) : Option Nat := program.events.findIdx? (· == name)

end JitProgram

/-! ### Status codes and flags -/

/-- `PROCESSOR_EXECUTION_OK`. -/
def PROCESSOR_EXECUTION_OK : UInt32 := 0

/-- `PROCESSOR_EXECUTION_INPUT_REJECTED`. -/
def PROCESSOR_EXECUTION_INPUT_REJECTED : UInt32 := 2

/-- `PROCESSOR_BEGIN_BLOCK`. -/
def PROCESSOR_BEGIN_BLOCK : UInt32 := 1

/-- `PROCESSOR_END_BLOCK`. -/
def PROCESSOR_END_BLOCK : UInt32 := 2

/-- `PROCESSOR_FULL_BLOCK`. -/
def PROCESSOR_FULL_BLOCK : UInt32 := PROCESSOR_BEGIN_BLOCK ||| PROCESSOR_END_BLOCK

/-- How a call ends without a result. -/
inductive Stop where
  | diagnostic (message : String)
  /-- `unreachable_unchecked` was reached. -/
  | undefined
deriving DecidableEq

/-! ### Histories -/

/-- The binding tables of an instance. -/
inductive Surface where
  | inputs | outputs | buffers
deriving DecidableEq

def Surface.label : Surface → String
  | inputs => "input"
  | outputs => "output"
  | buffers => "buffer"

inductive GeneratedCall where
  | init | restore | process | event
deriving DecidableEq

/-- Full initialization and restore rebuild the whole state image. -/
def GeneratedCall.rebuilds : GeneratedCall → Bool
  | init | restore => true
  | process | event => false

/-- What can be done to an instance. -/
inductive Event where
  /-- A binding of the surface was changed. -/
  | bound (surface : Surface)
  /-- The surface's pointer tables were rebuilt from its checked bindings. -/
  | prepared (surface : Surface)
  | ran (call : GeneratedCall) (failed : Bool)
deriving DecidableEq

/-- The bindings of a surface were prepared and not changed since.  The newest event is first. -/
def validated (surface : Surface) : List Event → Bool
  | [] => false
  | .bound changed :: earlier => changed ≠ surface && validated surface earlier
  | .prepared done :: earlier => done = surface || validated surface earlier
  | .ran _ _ :: earlier => validated surface earlier

/-- The state image was rebuilt, and no generated call has failed since. -/
def live : List Event → Bool
  | [] => false
  | .ran call failed :: earlier => !failed && (call.rebuilds || live earlier)
  | .bound _ :: earlier => live earlier
  | .prepared _ :: earlier => live earlier

/-- The functions that skip the checks. -/
inductive EntryPoint where
  | processUncheckedSegment
  | triggerEventByIndexUnchecked
deriving DecidableEq

/-- An unchecked entry, with the history of the instance it was made on. -/
structure Entry where
  point : EntryPoint
  history : List Event

/-- What the unchecked entries ask of their caller. -/
structure Entry.Valid (entry : Entry) : Prop where
  live : live entry.history = true
  validated : ∀ surface, validated surface entry.history = true

/-! ### Instances -/

structure InstanceConfig where
  sampleRate : UInt32
  framesPerBlock : Nat
  inChannels : Nat
  outChannels : Nat

inductive InstanceState where
  | pending (storage : Bytes)
  | allocated (storage : Bytes) (initialized : Bool)

/-- `BoundInput` and `BoundOutput`: an address and a size. -/
structure BoundRegion where
  ptr : Nat
  bytes : Nat

/-- `BoundBuffer`, and a row of the buffer descriptor tables. -/
structure BoundBuffer where
  ptr : Nat
  framesI32 : Nat
  channelsI32 : Nat
  sampleRateHz : UInt32

structure Instance where
  config : InstanceConfig
  params : Bytes
  state : InstanceState
  inputBindings : List (Option BoundRegion)
  outputBindings : List (Option BoundRegion)
  bufferBindings : List (Option BoundBuffer)
  inputPtrs : List Nat
  outputPtrs : List Nat
  /-- The four tables `buffer_ptrs`, `buffer_frames`, `buffer_channels`, `buffer_sample_rates`. -/
  bufferTables : List BoundBuffer
  inputsValidated : Bool
  outputsValidated : Bool
  buffersValidated : Bool
  history : List Event

namespace Instance

/-- `is_initialized`. -/
def isInitialized (inst : Instance) : Bool :=
  match inst.state with
  | .allocated _ initialized => initialized
  | .pending _ => false

def record (event : Event) (inst : Instance) : Instance :=
  { inst with history := event :: inst.history }

end Instance

/-- `InitMode`. -/
inductive InitMode where
  | full | preservePinned
deriving DecidableEq

/-- The code of a compiled program, on the memory `W` that it shares with its host.  An image
is passed in and comes back changed, also from a call that fails. -/
structure GeneratedCode (W : Type) where
  /-- The checks and the generated call of `initialize_allocated_state_with_status`. -/
  initializeAllocatedState : Bytes → Bytes → List BoundBuffer → W →
    Except String UInt32 × Bytes × W
  /-- `initialize_state_in_place_checked_with_status`. -/
  initializeStateInPlace : InitMode → Bytes → Bytes → List BoundBuffer → W →
    Except String UInt32 × Bytes × W
  /-- `overlay_state_snapshot`. -/
  overlayStateSnapshot : Bytes → Bytes → Except String Unit × Bytes
  /-- `process_unchecked`: parameters, image, start, frames, flags and the pointer tables. -/
  process : Bytes → Bytes → UInt32 → UInt32 → UInt32 → List Nat → List Nat → List BoundBuffer →
    W → UInt32 × Bytes × W
  /-- `trigger_event_by_index_unchecked`: parameters, image, event and payload. -/
  event : Bytes → Bytes → Nat → Bytes → List BoundBuffer → W → UInt32 × Bytes × W

/-- Host memory, and the log of unchecked entries, newest first. -/
structure Env (W : Type) where
  world : W
  entries : List Entry

/-- An instance in its host. -/
structure Active (W : Type) where
  inst : Instance
  env : Env W

/-- A function that takes `&mut Instance`. -/
abbrev InstanceCall (W α : Type) := Call (Active W) Stop α

variable {W α : Type}

/-- Ends with a runtime diagnostic. -/
def refuse (message : String) : InstanceCall W α := Call.fail (.diagnostic message)

def modify (change : Instance → Instance) : InstanceCall W Unit :=
  Call.update fun active => { active with inst := change active.inst }

def logEntry (point : EntryPoint) : InstanceCall W Unit :=
  Call.update fun active =>
    { active with
      env := { active.env with entries := ⟨point, active.inst.history⟩ :: active.env.entries } }

/-- `uninitialized_instance_error`. -/
def UNINITIALIZED_INSTANCE : String :=
  "instance requires full initialization before this operation"

/-- `invalid_instance_error`. -/
def INVALID_INSTANCE : String :=
  "instance state is invalid after failed execution; run full initialization or restore state " ++
    "before this operation"

/-- `check_execution_status`. -/
def checkExecutionStatus (status : UInt32) : InstanceCall W Unit :=
  if status = PROCESSOR_EXECUTION_OK then pure ()
  else if status = PROCESSOR_EXECUTION_INPUT_REJECTED then
    refuse ("event input rejected: invalid payload or tensor views, or insufficient workspace")
  else
    refuse ("generated Onda code failed a runtime safety check (" ++ toString status ++ ")")

end Onda.Runtime
