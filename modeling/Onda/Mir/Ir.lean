import Onda.Lib.Structured
import Onda.Mir.Types

/-!
# The MIR program representation

The data model of a MIR program: interface, state, constant data and functions
whose bodies are structured blocks.  A statement of the source is either one of
the control forms (`If`, `Loop`, `Break`, `Continue`, `Return`), which are the
forms of `Structured.Stm`, or one of the remaining kinds, collected in
`Operation`.

Source spans and the host's display metadata of parameters are not represented:
no operation reads them.  Of a delegate's payload schema, execution reads the
dynamic groups of the prepared plan.
-/

namespace Onda.Mir

open Structured

/-! ### Operands and places -/

inductive BoundsMode where
  /-- Clamp to the nearest valid index; fail on an empty collection. -/
  | clamp
  /-- Fail when an index or range is out of bounds. -/
  | checked
  /-- The producer guarantees that the index or range is valid. -/
  | unchecked
deriving DecidableEq, Repr

inductive Value where
  | localVar (localId : LocalId)
  | constant (value : ScalarValue)
deriving DecidableEq, Repr

inductive PlaceBase where
  | localVar (localId : LocalId)
  | parameter (parameter : ParameterId)
  | state (state : StateId)
  | param (param : ParamId)
  | eventParam (param : EventParamId)
deriving DecidableEq, Repr

inductive Projection where
  | field (field : FieldId)
  | index (index : Value) (bounds : BoundsMode)
deriving DecidableEq, Repr

structure Place where
  base : PlaceBase
  projections : List Projection
deriving DecidableEq, Repr

/-- The whole of a local. -/
def Place.localVar (localId : LocalId) : Place := ⟨.localVar localId, []⟩

inductive BufferRef where
  | direct (buffer : BufferId)
  | arrayElement (first : BufferId) (len : Nat) (selector : Value) (bounds : BoundsMode)
deriving DecidableEq, Repr

/-- A buffer descriptor received through a function parameter. -/
inductive BufferParamRef where
  | direct (parameter : ParameterId)
  | arrayElement (span : ParameterId) (selector : Value) (bounds : BoundsMode)
deriving DecidableEq, Repr

/-- A fixed buffer collection passed as a table view. -/
inductive BufferSpanRef where
  | interface (first : BufferId) (len : Nat)
  | parameter (span : ParameterId) (start len : Nat)
deriving DecidableEq, Repr

namespace BufferRef

def first : BufferRef → BufferId
  | .direct buffer => buffer
  | .arrayElement first .. => first

/-- The buffers a reference may select. -/
def possibleIndices : BufferRef → List BufferId
  | .direct buffer => [buffer]
  | .arrayElement first len .. => List.range' first len

end BufferRef

def BufferParamRef.first : BufferParamRef → ParameterId
  | .direct parameter => parameter
  | .arrayElement span .. => span

/-! ### Rvalues -/

inductive UnaryOp where
  | negate | logicalNot | bitNot
deriving DecidableEq, Repr

inductive BinaryOp where
  | add | subtract | multiply | divide | remainder
  | bitAnd | bitOr | bitXor | shiftLeft | shiftRight
deriving DecidableEq, Repr

inductive CompareOp where
  | equal | notEqual | less | lessEqual | greater | greaterEqual
deriving DecidableEq, Repr

inductive Intrinsic where
  | sin | cos | tan | tanh | atan | atan2 | exp | log | sqrt | pow
  | abs | floor | ceil | round | trunc | min | max | fma
  | rangeClamp | rangeWrap
deriving DecidableEq, Repr

inductive SliceSource where
  | place (place : Place)
  | buffer (buffer : BufferRef) (channel : Option Value)
  | bufferParam (parameter : BufferParamRef) (channel : Option Value)
  | constData (data : ConstDataId)
deriving DecidableEq, Repr

inductive Rvalue where
  | use (value : Value)
  | load (place : Place)
  | initAll
  | unary (op : UnaryOp) (operand : Value)
  | binary (op : BinaryOp) (lhs rhs : Value)
  | compare (op : CompareOp) (lhs rhs : Value)
  | cast (value : Value) (target : ScalarType)
  | intrinsic (intrinsic : Intrinsic) (args : List Value)
  | processFrame (offset : Value)
  | normalizeIndex (index length : Value) (bounds : BoundsMode)
  | inputLoad (input : InputId) (element : Option Value) (bounds : BoundsMode)
      (frame : Value)
  | outputLoad (output : OutputId) (element : Option Value) (bounds : BoundsMode)
      (frame : Value)
  | bufferLoad (buffer : BufferRef) (channel : Option Value) (index : Value)
      (bounds : BoundsMode)
  | bufferParamLoad (parameter : BufferParamRef) (channel : Option Value)
      (index : Value) (bounds : BoundsMode)
  | bufferLen (buffer : BufferRef)
  | bufferChannels (buffer : BufferRef)
  | bufferSampleRate (buffer : BufferRef)
  | bufferIsBound (buffer : BufferRef)
  | bufferParamLen (parameter : BufferParamRef)
  | bufferParamChannels (parameter : BufferParamRef)
  | bufferParamSampleRate (parameter : BufferParamRef)
  | bufferParamIsBound (parameter : BufferParamRef)
  | constDataLoad (data : ConstDataId) (index : Value) (bounds : BoundsMode)
  | makeSlice (source : SliceSource) (start len : Value) (bounds : BoundsMode)
      (access : AccessMode)
  | sliceLoad (slice index : Value) (bounds : BoundsMode)
  | sliceLen (slice : Value)
deriving DecidableEq, Repr

/-- The only source of frame operands. -/
def Rvalue.isProcessFrame : Rvalue → Bool
  | .processFrame _ => true
  | _ => false

/-! ### Statements -/

inductive CallArgument where
  | value (value : Value)
  | place (place : Place)
  | sliceElement (slice index : Value) (bounds : BoundsMode)
  | arrayWindow (array : Place) (start : Value) (bounds : BoundsMode)
  | sliceWindow (slice start : Value) (bounds : BoundsMode)
  | buffer (buffer : BufferRef)
  | bufferParam (parameter : BufferParamRef)
  | bufferSpan (span : BufferSpanRef)
deriving DecidableEq, Repr

/-- One independently stored leaf of an aggregate copy. -/
structure SliceCopy where
  destination : Value
  source : Value
deriving DecidableEq, Repr

inductive SliceCopyPreflight where
  | required
  /-- The producer proved that no pair overlaps with unequal strides. -/
  | provenUnnecessary
deriving DecidableEq, Repr

/-- The statement kinds that are not control flow. -/
inductive Operation where
  | assign (destination : Place) (value : Rvalue)
  | call (results : List LocalId) (function : FunctionId) (args : List CallArgument)
  | publishDelegate (delegate : DelegateId) (args : List CallArgument)
  | publishLog (site : LogSiteId) (arguments : List Value)
  | outputStore (output : OutputId) (element : Option Value) (bounds : BoundsMode)
      (frame value : Value)
  | controlOutputStore (output : ControlOutputId) (element : Option Value)
      (bounds : BoundsMode) (value : Value)
  | bufferStore (buffer : BufferRef) (channel : Option Value) (index value : Value)
      (bounds : BoundsMode)
  | bufferParamStore (parameter : BufferParamRef) (channel : Option Value)
      (index value : Value) (bounds : BoundsMode)
  | sliceStore (slice index value : Value) (bounds : BoundsMode)
  | sliceFill (destination value : Value)
  | sliceCopy (copies : List SliceCopy) (preflight : SliceCopyPreflight)
deriving DecidableEq, Repr

abbrev Statement := Stm Operation Value (List Value)

abbrev Block := List Statement

/-! ### Functions -/

inductive PassingMode where
  | value
  | readOnlyReference
  | readWriteReference
  /-- Caller-owned result storage; requires a trusted producer. -/
  | resultReference
deriving DecidableEq, Repr

def PassingMode.isWritableReference : PassingMode → Bool
  | .readWriteReference | .resultReference => true
  | _ => false

inductive FunctionKind where
  | init
  | process
  | event (event : EventId)
  | user
deriving DecidableEq, Repr

inductive FunctionOrigin where
  | source | compilerGenerated
deriving DecidableEq, Repr

inductive InlineHint where
  | auto | always | never
deriving DecidableEq, Repr

structure FunctionAttributes where
  origin : FunctionOrigin := .source
  inline : InlineHint := .auto
  /-- Publication is valid only from functions with the runtime context. -/
  runtimeContext : Bool := false
deriving DecidableEq, Repr

structure FunctionParam where
  name : String
  ty : TypeId
  mode : PassingMode
  integerRange : Option IntegerRangeInvariant := none
deriving DecidableEq, Repr

structure Local where
  name : Option String := none
  ty : TypeId
  integerRange : Option IntegerRangeInvariant := none
deriving DecidableEq, Repr

structure Function where
  name : String
  kind : FunctionKind
  attributes : FunctionAttributes := {}
  params : List FunctionParam := []
  results : List TypeId := []
  locals : List Local := []
  body : Block := []

/-- Maximum positional ABI slots exposed by one function. -/
def MAX_FUNCTION_PARAMETER_COUNT : Nat := 1024

/-- Maximum local-storage descriptors declared by one function. -/
def MAX_FUNCTION_LOCAL_COUNT : Nat := 32 * 1024

/-! ### Programs -/

structure CompileConfig where
  /-- The `f32` encoding of the sample rate. -/
  sampleRate : BitVec 32
  blockSize : Nat
deriving DecidableEq, Repr

structure StructField where
  name : String
  ty : TypeId
deriving DecidableEq, Repr

structure StructType where
  name : String
  fields : List StructField
deriving DecidableEq, Repr

structure Input where
  name : String
  ty : TypeId
  default : Option ConstantValue := none
  range : Option ValueRange := none

structure Output where
  name : String
  ty : TypeId

structure ControlOutput where
  name : String
  ty : TypeId
  /-- The state slot that holds the host-visible value. -/
  mirror : StateId

structure Param where
  name : String
  ty : TypeId
  default : ConstantValue
  range : Option ValueRange := none

structure Buffer where
  name : String
  element : ScalarType
  channels : BufferChannels
  access : AccessMode

structure BufferArray where
  name : String
  first : BufferId
  len : Nat

structure EventParam where
  name : String
  ty : TypeId
  default : Option ConstantValue := none

structure Event where
  name : String
  params : List EventParam := []
  handler : FunctionId

structure DelegateParam where
  name : String
  ty : TypeId

/-- A sequence of records in a payload: one length and, for each field, the
parameter that carries it with the number of scalars per record. -/
structure PayloadGroup where
  lengthParameter : Nat
  tensors : List (Nat × Nat)

structure Delegate where
  name : String
  params : List DelegateParam := []
  /-- The dynamic groups of the prepared payload schema. -/
  groups : List PayloadGroup := []

structure Interface where
  inputs : List Input := []
  outputs : List Output := []
  controlOutputs : List ControlOutput := []
  params : List Param := []
  buffers : List Buffer := []
  bufferArrays : List BufferArray := []
  events : List Event := []
  delegates : List Delegate := []

inductive StatePersistence where
  | snapshot | instanceScratch | controlMirror
deriving DecidableEq, Repr

structure StateSlot where
  name : String
  ty : TypeId
  persistence : StatePersistence
  pinned : Bool := false
  integerRange : Option IntegerRangeInvariant := none

structure ConstData where
  name : String
  element : ScalarType
  values : List ScalarValue

structure LogSite where
  argumentTypes : List ScalarType
  payloadSize : Nat

structure EntryPoints where
  init : FunctionId
  process : FunctionId

structure Program where
  schemaVersion : Nat
  config : CompileConfig
  logSites : List LogSite := []
  types : List MirType := []
  structs : List StructType := []
  interface : Interface := {}
  state : List StateSlot := []
  constData : List ConstData := []
  functions : List Function := []
  entryPoints : EntryPoints

namespace Program

/-- The type one projection leads to: a field of a struct or an element of a
fixed array. -/
def projectType (program : Program) (ty : TypeId) (projection : Projection) :
    Option TypeId := do
  match ← program.types[ty]?, projection with
  | .struct definition, .field field =>
    let structure_ ← program.structs[definition]?
    let field ← structure_.fields[field]?
    pure field.ty
  | .array element _, .index .. => pure element
  | _, _ => none

/-- The declared type of a storage base inside `function`. -/
def baseType (program : Program) (function : Function) : PlaceBase → Option TypeId
  | .localVar localId => do pure (← function.locals[localId]?).ty
  | .parameter parameter => do pure (← function.params[parameter]?).ty
  | .state state => do pure (← program.state[state]?).ty
  | .param param => do pure (← program.interface.params[param]?).ty
  | .eventParam param =>
    match function.kind with
    | .event event => do
      let event ← program.interface.events[event]?
      pure (← event.params[param]?).ty
    | _ => none

/-- The type of the storage a place denotes. -/
def placeType (program : Program) (function : Function) (place : Place) :
    Option TypeId := do
  let ty ← program.baseType function place.base
  place.projections.foldlM program.projectType ty

/-- Two ids denote the same logical type.  An active pair is equivalent
coinductively, so the recursion is at most as deep as there are pairs. -/
def typesEquivalentInner (program : Program) :
    Nat → List (TypeId × TypeId) → TypeId → TypeId → Bool
  | 0, _, _, _ => true
  | fuel + 1, visiting, lhs, rhs =>
    if lhs = rhs then true
    else
      match program.types[lhs]?, program.types[rhs]? with
      | some lhsType, some rhsType =>
        if (lhs, rhs) ∈ visiting then true
        else
          let inner := typesEquivalentInner program fuel ((lhs, rhs) :: visiting)
          match lhsType, rhsType with
          | .scalar lhs, .scalar rhs => lhs == rhs
          | .tuple lhs, .tuple rhs =>
            lhs.length == rhs.length && (lhs.zip rhs).all fun pair => inner pair.1 pair.2
          | .array lhsElement lhsLen, .array rhsElement rhsLen =>
            lhsLen == rhsLen && inner lhsElement rhsElement
          | .struct lhs, .struct rhs => lhs == rhs
          | .slice lhsElement lhsAccess, .slice rhsElement rhsAccess =>
            lhsElement == rhsElement && lhsAccess == rhsAccess
          | .buffer lhsElement lhsChannels lhsAccess,
            .buffer rhsElement rhsChannels rhsAccess =>
            lhsElement == rhsElement && lhsChannels == rhsChannels
              && lhsAccess == rhsAccess
          | .bufferSpan lhsElement lhsChannels lhsAccess lhsLen,
            .bufferSpan rhsElement rhsChannels rhsAccess rhsLen =>
            lhsElement == rhsElement && lhsChannels == rhsChannels
              && lhsAccess == rhsAccess && lhsLen == rhsLen
          | _, _ => false
      | _, _ => false

def typesEquivalent (program : Program) (lhs rhs : TypeId) : Bool :=
  program.typesEquivalentInner (program.types.length ^ 2 + 1) [] lhs rhs

end Program

end Onda.Mir
