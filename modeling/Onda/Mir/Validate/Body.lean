import Onda.Mir.ConstantEval
import Onda.Mir.Validate.Types

/-!
# Validation of function bodies

The types of operands, places, rvalues and call arguments, the capabilities a
function kind has, and the statements of a body.

Without producer proofs no access may be unchecked; the check that rejects them
is `rejectUncheckedBounds`.
-/

namespace Onda.Mir.Validate

open Structured

section Operands

variable (program : Program) (function : Function)

/-! ### Operands -/

def requireLocal (localId : LocalId) : List String :=
  errorUnless (localId < function.locals.length) s!"references missing local {localId}"

def validateValue : Value → List String
  | .localVar localId => requireLocal function localId
  | .constant _ => []

def validateOptionalValue (value : Option Value) : List String :=
  value.toList.flatMap (validateValue function)

def localType (localId : LocalId) : Option MirType := do
  program.types[(← function.locals[localId]?).ty]?

/-- The type of an operand; a constant has the first equal type of the table. -/
def valueType : Value → Option TypeId
  | .localVar localId => (function.locals[localId]?).map (·.ty)
  | .constant value => program.types.findIdx? (· == .scalar value.ty)

def valueSliceType (value : Value) : Option (ScalarType × AccessMode) := do
  match ← program.types[← valueType program function value]? with
  | .slice element access => some (element, access)
  | _ => none

def valueScalarType : Value → Option ScalarType
  | .localVar localId => do
    match ← localType program function localId with
    | .scalar scalar => some scalar
    | _ => none
  | .constant value => some value.ty

def valueMatchesType (value : Value) (expected : TypeId) : Bool :=
  match value with
  | .localVar localId =>
    match function.locals[localId]? with
    | some declared => program.typesEquivalent declared.ty expected
    | none => false
  | .constant value => program.types[expected]? == some (.scalar value.ty)

def valueMatchesScalar (value : Value) (expected : ScalarType) : Bool :=
  match value with
  | .localVar localId => localType program function localId == some (.scalar expected)
  | .constant value => value.ty == expected

def valuesHaveSameType (lhs rhs : Value) : Bool :=
  match lhs with
  | .localVar localId =>
    match function.locals[localId]? with
    | some declared => valueMatchesType program function rhs declared.ty
    | none => false
  | .constant value => valueMatchesScalar program function rhs value.ty

def requireI32Value (value : Value) (label : String) : List String :=
  errorUnless (valueMatchesScalar program function value .i32)
    s!"{label} must have type i32"

def validateOptionalIndex (value : Option Value) (label : String) : List String :=
  value.toList.flatMap fun value => requireI32Value program function value label

def typeIsScalar (ty : TypeId) (expected : ScalarType) : Bool :=
  program.types[ty]? == some (.scalar expected)

def typeIsNumericScalar (ty : TypeId) : Bool :=
  match program.types[ty]? with
  | some (.scalar scalar) => scalar.isNumeric
  | _ => false

def typeIsIntegerScalar (ty : TypeId) : Bool :=
  match program.types[ty]? with
  | some (.scalar scalar) => scalar.isInteger
  | _ => false

def indexedType (ty : TypeId) (indexed : Bool) : Option TypeId :=
  if indexed then
    match program.types[ty]? with
    | some (.array element _) => some element
    | _ => none
  else some ty

/-! ### Capabilities -/

def requireAudioIoCapability (operation : String) : List String :=
  errorUnless (function.kind = .process)
    s!"{operation} is only valid in the process entry point"

def requireControlOutputCapability : List String :=
  errorUnless (function.kind = .process)
    "control output stores are only valid in the process entry point"

def hasRuntimeBufferCapability : Bool :=
  match function.kind with
  | .init | .process | .event _ => true
  | .user =>
    function.attributes.origin == .compilerGenerated && function.attributes.runtimeContext

def requireDirectBufferCapability (operation : String) : List String :=
  errorUnless (hasRuntimeBufferCapability function)
    (s!"{operation} requires init, process, or event host-buffer capability; "
      ++ "user functions must receive buffers as parameters")

/-! ### Places -/

/-- The errors of a storage base, and its type when there is one.  A misplaced
event parameter ends the check of its place. -/
def validatePlaceBase : PlaceBase → List String × Except Unit (Option TypeId)
  | .localVar localId =>
    (requireLocal function localId, .ok ((function.locals[localId]?).map (·.ty)))
  | .parameter parameter =>
    (errorUnless (parameter < function.params.length)
      s!"place references missing function parameter {parameter}",
      .ok ((function.params[parameter]?).map (·.ty)))
  | .state state =>
    (errorUnless (state < program.state.length)
      s!"place references missing state slot {state}",
      .ok ((program.state[state]?).map (·.ty)))
  | .param param =>
    (errorUnless (param < program.interface.params.length)
      s!"place references missing parameter {param}",
      .ok ((program.interface.params[param]?).map (·.ty)))
  | .eventParam param =>
    match function.kind with
    | .event event =>
      match program.interface.events[event]? with
      | some declared =>
        (errorUnless (param < declared.params.length)
          s!"place references missing event parameter {param}",
          .ok ((declared.params[param]?).map (·.ty)))
      | none => ([s!"event handler references missing event {event}"], .error ())
    | _ => (["event parameter place used outside an event handler"], .error ())

def validateProjection (ty : Option TypeId) :
    Projection → List String × Option TypeId
  | .field field =>
    match ty with
    | none => ([], none)
    | some current =>
      match program.types[current]? with
      | some (.struct definition) =>
        match program.structs[definition]? with
        | some declared =>
          match declared.fields[field]? with
          | some member => ([], some member.ty)
          | none =>
            ([s!"field projection references missing field {field} of struct '{declared.name}'"],
              none)
        | none => (["field projection references a missing struct definition"], none)
      | some _ =>
        ([s!"field projection requires a struct place, got {typeName program current}"], none)
      | none => ([s!"field projection base references missing type {current}"], none)
  | .index index _ =>
    let errors := validateValue function index
      ++ requireI32Value program function index "place index"
    match ty with
    | none => (errors, none)
    | some current =>
      match program.types[current]? with
      | some (.array element _) => (errors, some element)
      | some _ =>
        (errors
            ++ [s!"index projection requires an array place, got {typeName program current}"],
          none)
      | none =>
        (errors ++ [s!"index projection base references missing type {current}"], none)

def validateProjections (ty : Option TypeId) : List Projection → List String
  | [] => []
  | projection :: rest =>
    let (errors, next) := validateProjection program function ty projection
    errors ++ validateProjections next rest

def validatePlace (place : Place) : List String :=
  match validatePlaceBase program function place.base with
  | (errors, .ok ty) => errors ++ validateProjections program function ty place.projections
  | (errors, .error ()) => errors

def placeIsWritable (place : Place) : Bool :=
  match place.base with
  | .localVar _ => true
  | .state state =>
    match program.state[state]? with
    | some slot => slot.persistence != .controlMirror
    | none => false
  | .parameter parameter =>
    match function.params[parameter]? with
    | some declared => declared.mode.isWritableReference
    | none => false
  | .param _ | .eventParam _ => false

/-- The access a place grants to the storage it denotes. -/
def placeAccess (place : Place) : AccessMode :=
  if placeIsWritable program function place then .readWrite else .readOnly

/-! ### Buffers -/

/-- Two buffers share their element type, channel layout and access. -/
def sameDescriptor (lhs rhs : Buffer) : Bool :=
  lhs.element == rhs.element && lhs.channels == rhs.channels && lhs.access == rhs.access

/-- All buffers of a range exist and share the descriptor of `first`. -/
def buffersShareDescriptor (indices : List BufferId) (first : Buffer) : Bool :=
  indices.all fun index =>
    match program.interface.buffers[index]? with
    | some candidate => sameDescriptor candidate first
    | none => false

def requireBuffer (buffer : BufferRef) : List String :=
  let selector := match buffer with
    | .arrayElement _ len selector _ =>
      errorUnless (len ≠ 0) "buffer array reference has zero length"
        ++ requireI32Value program function selector "buffer-array selector"
    | .direct _ => []
  let range :=
    if buffer.possibleIndices.any fun index =>
        decide (program.interface.buffers.length ≤ index) then
      [s!"references invalid buffer range beginning at {buffer.first}"]
    else
      match program.interface.buffers[buffer.first]? with
      | some first =>
        errorUnless (buffersShareDescriptor program buffer.possibleIndices first)
          "buffer array reference spans incompatible descriptors"
      | none => []
  selector ++ range

def functionBufferParamRef (ref : BufferParamRef) : Option (ScalarType × AccessMode) := do
  match ref, ← program.types[(← function.params[ref.first]?).ty]? with
  | .direct _, .buffer element _ access => some (element, access)
  | .arrayElement .., .bufferSpan element _ access _ => some (element, access)
  | _, _ => none

def validateBufferParamRef : BufferParamRef → List String
  | .arrayElement _ selector _ =>
    validateValue function selector
      ++ requireI32Value program function selector "buffer-parameter collection selector"
  | .direct _ => []

/-! ### Slice sources -/

def sliceSourceType : SliceSource → Option (ScalarType × AccessMode)
  | .place place => do
    match ← program.types[← program.placeType function place]? with
    | .scalar element => some (element, placeAccess program function place)
    | .array item _ =>
      match ← program.types[item]? with
      | .scalar element => some (element, placeAccess program function place)
      | _ => none
    | .slice element access => some (element, access)
    | _ => none
  | .buffer buffer _ => do
    let declared ← program.interface.buffers[buffer.first]?
    some (declared.element, declared.access)
  | .bufferParam parameter _ => functionBufferParamRef program function parameter
  | .constData data => do
    let declared ← program.constData[data]?
    some (declared.element, .readOnly)

def sliceSourceStaticLen : SliceSource → Option Nat
  | .place place => do
    match ← program.types[← program.placeType function place]? with
    | .scalar _ => some 1
    | .array _ len => some len
    | _ => none
  | .constData data => do some (← program.constData[data]?).values.length
  | _ => none

def uncheckedMakeSliceConstantsAreValid (source : SliceSource) (start len : Value) :
    Bool :=
  match sliceSourceStaticLen program function source, start, len with
  | some sourceLen, .constant (.i32 start), .constant (.i32 len) =>
    0 ≤ start.toInt && 0 ≤ len.toInt && start.toInt ≤ sourceLen
      && len.toInt ≤ sourceLen - start.toInt
  | _, _, _ => true

def windowStartIsStaticallyValid (start : Value) (bounds : BoundsMode)
    (sourceLen requiredLen : Nat) : Bool :=
  match bounds, start with
  | .unchecked, .constant (.i32 start) =>
    0 ≤ start.toInt && start.toInt + requiredLen ≤ sourceLen
  | _, _ => true

end Operands

/-! ### Rvalues -/

def intrinsicName : Intrinsic → String
  | .sin => "sin"
  | .cos => "cos"
  | .tan => "tan"
  | .tanh => "tanh"
  | .atan => "atan"
  | .atan2 => "atan2"
  | .exp => "exp"
  | .log => "log"
  | .sqrt => "sqrt"
  | .pow => "pow"
  | .abs => "abs"
  | .floor => "floor"
  | .ceil => "ceil"
  | .round => "round"
  | .trunc => "trunc"
  | .min => "min"
  | .max => "max"
  | .fma => "fma"
  | .rangeClamp => "range_clamp"
  | .rangeWrap => "range_wrap"

/-- The scalar types an intrinsic is defined on. -/
def intrinsicDomain (intrinsic : Intrinsic) (scalar : ScalarType) : Bool :=
  match intrinsic with
  | .rangeWrap => scalar.isInteger
  | .abs | .min | .max | .rangeClamp => scalar.isNumeric
  | _ => scalar == .f32 || scalar == .f64

section Rvalues

variable (program : Program) (function : Function)

def validateCompare (op : CompareOp) (lhs rhs : Value) : List String :=
  match valueScalarType program function lhs, valueScalarType program function rhs with
  | some lhs, some rhs =>
    if lhs = rhs then
      errorUnless (lhs != .bool || op == .equal || op == .notEqual)
        "boolean comparisons only support equality and inequality"
    else
      ["comparison operands must have the same scalar type, got "
        ++ s!"{lhs.name} and {rhs.name}"]
  | _, _ => ["comparison operands must be scalar values"]

def validateCast (value : Value) (target : ScalarType) : List String :=
  match valueScalarType program function value with
  | some source =>
    errorUnless (source.isNumeric && target.isNumeric)
      s!"cast requires numeric scalar types, got {source.name} to {target.name}"
  | none => ["cast source must be a numeric scalar value"]

/-- The arguments of an intrinsic; the first scalar argument fixes the type of
the others. -/
def validateIntrinsicArguments (intrinsic : Intrinsic) :
    Option ScalarType → List (Value × Nat) → List String
  | _, [] => []
  | argumentType, (arg, index) :: rest =>
    validateValue function arg ++
      match valueScalarType program function arg with
      | none =>
        s!"intrinsic '{intrinsicName intrinsic}' argument {index} must be a scalar value"
          :: validateIntrinsicArguments intrinsic argumentType rest
      | some scalar =>
        errorUnless (intrinsicDomain intrinsic scalar)
            (s!"intrinsic '{intrinsicName intrinsic}' argument {index} has unsupported "
              ++ s!"type {scalar.name}")
          ++ errorUnless (argumentType.all (· == scalar))
            s!"intrinsic '{intrinsicName intrinsic}' arguments must have the same scalar type"
          ++ validateIntrinsicArguments intrinsic (argumentType.or (some scalar)) rest

/-- The bounds of a wrap have to be ordered constants.  The source also prints
the offending arguments. -/
def validateRangeWrapBounds : List Value → List String
  | [_, .constant (.i32 lower), .constant (.i32 upper)] =>
    errorUnless (lower.sle upper) "range_wrap lower bound exceeds its upper bound"
  | [_, .constant (.i64 lower), .constant (.i64 upper)] =>
    errorUnless (lower.sle upper) "range_wrap lower bound exceeds its upper bound"
  | [_, _, _] => ["range_wrap requires constant integer bounds"]
  | _ => []

def validateIntrinsic (intrinsic : Intrinsic) (args : List Value) : List String :=
  errorUnless (args.length = intrinsicArity intrinsic)
      (s!"intrinsic '{intrinsicName intrinsic}' expects {intrinsicArity intrinsic} "
        ++ s!"arguments, got {args.length}")
    ++ validateIntrinsicArguments program function intrinsic none args.zipIdx
    ++ if intrinsic = .rangeWrap then validateRangeWrapBounds args else []

/-- The frame and element operands of an audio access. -/
def validateAudioOperands (element : Option Value) (frame : Value) (label : String) :
    List String :=
  validateOptionalValue function element ++ validateValue function frame
    ++ validateOptionalIndex program function element label
    ++ requireI32Value program function frame "audio frame"

/-- The channel and index operands of a buffer access. -/
def validateBufferOperands (channel : Option Value) (index : Value) : List String :=
  validateOptionalValue function channel ++ validateValue function index
    ++ validateOptionalIndex program function channel "buffer channel"
    ++ requireI32Value program function index "buffer index"

/-- A reference has to name a buffer parameter; `context` is what names it. -/
def requireBufferParam (context : String) (parameter : BufferParamRef) : List String :=
  errorUnless (functionBufferParamRef program function parameter).isSome
    s!"{context} references non-buffer parameter {parameter.first}"

def validateSliceSource : SliceSource → List String
  | .place place => validatePlace program function place
  | .buffer buffer channel =>
    requireDirectBufferCapability function "buffer slice"
      ++ requireBuffer program function buffer
      ++ validateOptionalValue function channel
      ++ validateOptionalIndex program function channel "buffer slice channel"
  | .bufferParam parameter channel =>
    validateBufferParamRef program function parameter
      ++ requireBufferParam program function "slice" parameter
      ++ validateOptionalValue function channel
      ++ validateOptionalIndex program function channel "buffer slice channel"
  | .constData data =>
    errorUnless (data < program.constData.length)
      s!"slice references missing const data {data}"

def validateRvalue : Rvalue → List String
  | .initAll =>
    errorUnless (function.kind = .init) "init_all is only valid in the init entry point"
  | .use value => validateValue function value
  | .load place => validatePlace program function place
  | .unary _ operand => validateValue function operand
  | .binary _ lhs rhs => validateValue function lhs ++ validateValue function rhs
  | .compare op lhs rhs =>
    validateValue function lhs ++ validateValue function rhs
      ++ validateCompare program function op lhs rhs
  | .cast value target =>
    validateValue function value ++ validateCast program function value target
  | .intrinsic intrinsic args => validateIntrinsic program function intrinsic args
  | .processFrame offset =>
    requireAudioIoCapability function "process_frame"
      ++ validateValue function offset
      ++ requireI32Value program function offset "process-frame offset"
  | .normalizeIndex index length _ =>
    validateValue function index ++ validateValue function length
      ++ requireI32Value program function index "normalized index"
      ++ requireI32Value program function length "normalized index length"
  | .inputLoad input element _ frame =>
    requireAudioIoCapability function "audio input load"
      ++ errorUnless (input < program.interface.inputs.length)
        s!"load references missing input {input}"
      ++ validateAudioOperands program function element frame "input element"
  | .outputLoad output element _ frame =>
    requireAudioIoCapability function "audio output load"
      ++ errorUnless (output < program.interface.outputs.length)
        s!"load references missing output {output}"
      ++ validateAudioOperands program function element frame "output element"
  | .bufferLoad buffer channel index _ =>
    requireDirectBufferCapability function "buffer load"
      ++ requireBuffer program function buffer
      ++ validateBufferOperands program function channel index
  | .bufferParamLoad parameter channel index _ =>
    validateBufferParamRef program function parameter
      ++ requireBufferParam program function "buffer operation" parameter
      ++ validateBufferOperands program function channel index
  | .bufferLen buffer | .bufferChannels buffer | .bufferSampleRate buffer
  | .bufferIsBound buffer =>
    requireDirectBufferCapability function "buffer metadata query"
      ++ requireBuffer program function buffer
  | .bufferParamLen parameter | .bufferParamChannels parameter
  | .bufferParamSampleRate parameter | .bufferParamIsBound parameter =>
    validateBufferParamRef program function parameter
      ++ requireBufferParam program function "buffer metadata" parameter
  | .constDataLoad data index _ =>
    errorUnless (data < program.constData.length)
        s!"load references missing const data {data}"
      ++ validateValue function index
      ++ requireI32Value program function index "constant-data index"
  | .makeSlice source start len bounds _ =>
    validateSliceSource program function source
      ++ validateValue function start ++ validateValue function len
      ++ requireI32Value program function start "slice start"
      ++ requireI32Value program function len "slice length"
      ++ errorUnless (bounds != .unchecked
          || uncheckedMakeSliceConstantsAreValid program function source start len)
        "unchecked make_slice has a statically out-of-bounds range"
  | .sliceLoad slice index _ =>
    validateValue function slice ++ validateValue function index
      ++ requireI32Value program function index "slice index"
      ++ errorUnless (valueSliceType program function slice).isSome
        "slice load source is not a slice"
  | .sliceLen value =>
    validateValue function value
      ++ errorUnless (valueSliceType program function value).isSome
        "slice length source is not a slice"

/-- The type of one sample of an audio port. -/
def portMatchesType (port : Option TypeId) (element : Option Value)
    (expected : TypeId) : Bool :=
  match port.bind fun ty => indexedType program ty element.isSome with
  | some actual => program.typesEquivalent actual expected
  | none => false

def rvalueMatchesType (value : Rvalue) (expected : TypeId) : Bool :=
  match value with
  | .use value => valueMatchesType program function value expected
  | .load place =>
    match program.placeType function place with
    | some actual => program.typesEquivalent actual expected
    | none => false
  | .unary .logicalNot operand =>
    typeIsScalar program expected .bool && valueMatchesScalar program function operand .bool
  | .unary .negate operand =>
    typeIsNumericScalar program expected
      && valueMatchesType program function operand expected
  | .unary .bitNot operand =>
    typeIsIntegerScalar program expected
      && valueMatchesType program function operand expected
  | .binary op lhs rhs =>
    (match op with
      | .bitAnd | .bitOr | .bitXor | .shiftLeft | .shiftRight =>
        typeIsIntegerScalar program expected
      | _ => typeIsNumericScalar program expected)
      && valueMatchesType program function lhs expected
      && valueMatchesType program function rhs expected
  | .compare _ lhs rhs =>
    typeIsScalar program expected .bool && valuesHaveSameType program function lhs rhs
  | .cast _ target => typeIsScalar program expected target
  | .intrinsic _ args =>
    typeIsNumericScalar program expected
      && args.all fun arg => valueMatchesType program function arg expected
  | .initAll => typeIsScalar program expected .bool
  | .processFrame _ | .normalizeIndex .. => typeIsScalar program expected .i32
  | .inputLoad input element _ _ =>
    portMatchesType program ((program.interface.inputs[input]?).map (·.ty)) element expected
  | .outputLoad output element _ _ =>
    portMatchesType program ((program.interface.outputs[output]?).map (·.ty)) element
      expected
  | .bufferLoad buffer _ _ _ =>
    match program.interface.buffers[buffer.first]? with
    | some declared => typeIsScalar program expected declared.element
    | none => false
  | .bufferParamLoad parameter _ _ _ =>
    match functionBufferParamRef program function parameter with
    | some (element, _) => typeIsScalar program expected element
    | none => false
  | .bufferLen _ | .bufferChannels _ | .bufferParamLen _ | .bufferParamChannels _ =>
    typeIsScalar program expected .i32
  | .bufferSampleRate _ | .bufferParamSampleRate _ => typeIsScalar program expected .f32
  | .bufferIsBound _ | .bufferParamIsBound _ => typeIsScalar program expected .bool
  | .constDataLoad data _ _ =>
    match program.constData[data]? with
    | some declared => typeIsScalar program expected declared.element
    | none => false
  | .makeSlice source _ _ _ access =>
    match program.types[expected]?, sliceSourceType program function source with
    | some (.slice element expectedAccess), some (sourceElement, sourceAccess) =>
      expectedAccess == access && sourceElement == element
        && accessPermits sourceAccess access
    | _, _ => false
  | .sliceLoad slice _ _ =>
    match valueSliceType program function slice with
    | some (element, _) => typeIsScalar program expected element
    | none => false
  | .sliceLen _ => typeIsScalar program expected .i32

end Rvalues

/-! ### Call arguments -/

/-- The access a reference parameter asks for. -/
def referenceAccess : PassingMode → AccessMode
  | .readWriteReference => .readWrite
  | _ => .readOnly

section Arguments

variable (program : Program) (function : Function)

def bufferMatchesType (buffer : BufferRef) (expected : TypeId) : Bool :=
  match program.interface.buffers[buffer.first]?, program.types[expected]? with
  | some first, some (.buffer element channels access) =>
    element == first.element && bufferChannelsAccept channels first.channels
      && accessPermits first.access access
      && buffersShareDescriptor program buffer.possibleIndices first
  | _, _ => false

def bufferSpanMatchesType (span : BufferSpanRef) (expected : TypeId) : Bool :=
  match program.types[expected]? with
  | some (.bufferSpan element channels access expectedLen) =>
    match span with
    | .interface first len =>
      match program.interface.buffers[first]? with
      | some source =>
        len == expectedLen && source.element == element
          && bufferChannelsAccept channels source.channels
          && accessPermits source.access access
          && buffersShareDescriptor program (List.range' first len) source
      | none => false
    | .parameter span start len =>
      match (function.params[span]?).bind fun param => program.types[param.ty]? with
      | some (.bufferSpan sourceElement sourceChannels sourceAccess sourceLen) =>
        len == expectedLen && start + len ≤ sourceLen && sourceElement == element
          && bufferChannelsAccept channels sourceChannels
          && accessPermits sourceAccess access
      | _ => false
  | _ => false

def referenceTypeMatches (actual expected : TypeId) : Bool :=
  match program.types[actual]?, program.types[expected]? with
  | some (.buffer actualElement actualChannels actualAccess),
    some (.buffer element channels access) =>
    actualElement == element && bufferChannelsAccept channels actualChannels
      && accessPermits actualAccess access
  | _, _ => program.typesEquivalent actual expected

/-- A buffer descriptor serves a buffer parameter of type `expected`. -/
def bufferServes (expected : TypeId) (actualElement : ScalarType)
    (actualChannels : BufferChannels) (actualAccess : AccessMode) : Bool :=
  match program.types[expected]? with
  | some (.buffer element channels access) =>
    element == actualElement && bufferChannelsAccept channels actualChannels
      && accessPermits actualAccess access
  | _ => false

def bufferParamRefMatchesType (ref : BufferParamRef) (expected : TypeId) : Bool :=
  match ref, (function.params[ref.first]?).bind fun param => program.types[param.ty]? with
  | .direct _, some (.buffer element channels access) =>
    bufferServes program expected element channels access
  | .arrayElement .., some (.bufferSpan element channels access _) =>
    bufferServes program expected element channels access
  | _, _ => false

/-- A window of an array place for an array parameter. -/
def arrayWindowMatches (array : Place) (start : Value) (bounds : BoundsMode)
    (parameter : FunctionParam) : Bool :=
  match program.types[parameter.ty]?,
    (program.placeType function array).bind (program.types[·]?) with
  | some (.array expectedElement requiredLen), some (.array actualElement actualLen) =>
    program.typesEquivalent actualElement expectedElement && requiredLen ≤ actualLen
      && accessPermits (placeAccess program function array) (referenceAccess parameter.mode)
      && windowStartIsStaticallyValid start bounds actualLen requiredLen
  | _, _ => false

/-- A slice whose element type and access serve a reference parameter. -/
def sliceServes (slice : Value) (element : Option MirType) (mode : PassingMode) : Bool :=
  match valueSliceType program function slice, element with
  | some (sliceElement, sliceAccess), some (.scalar expected) =>
    expected == sliceElement && accessPermits sliceAccess (referenceAccess mode)
  | _, _ => false

def callArgumentMatches (argument : CallArgument) (parameter : FunctionParam) : Bool :=
  match parameter.mode, argument with
  | .resultReference, .place place =>
    place.projections.isEmpty && placeIsWritable program function place
      && (match program.placeType function place with
        | some actual => program.typesEquivalent actual parameter.ty
        | none => false)
  | .resultReference, _ => false
  | .value, .value value => valueMatchesType program function value parameter.ty
  | .value, .bufferSpan span => bufferSpanMatchesType program function span parameter.ty
  | _, .buffer buffer => bufferMatchesType program buffer parameter.ty
  | .value, _ => false
  | mode, .place place =>
    match program.placeType function place with
    | some actual =>
      referenceTypeMatches program actual parameter.ty
        && (!mode.isWritableReference || placeIsWritable program function place)
    | none => false
  | mode, .sliceElement slice _ _ =>
    sliceServes program function slice program.types[parameter.ty]? mode
  | _, .arrayWindow array start bounds =>
    arrayWindowMatches program function array start bounds parameter
  | mode, .sliceWindow slice _ _ =>
    match program.types[parameter.ty]? with
    | some (.array element _) =>
      sliceServes program function slice program.types[element]? mode
    | _ => false
  | _, .bufferParam ref => bufferParamRefMatchesType program function ref parameter.ty
  | _, _ => false

def validateCallArgument : CallArgument → List String
  | .value value => validateValue function value
  | .place place => validatePlace program function place
  | .sliceElement slice index _ =>
    validateValue function slice
      ++ requireI32Value program function index "slice call argument index"
      ++ errorUnless (valueSliceType program function slice).isSome
        "slice call argument base is not slice-typed"
  | .arrayWindow array start _ =>
    validatePlace program function array ++ validateValue function start
      ++ requireI32Value program function start "array-window start"
  | .sliceWindow slice start _ =>
    validateValue function slice ++ validateValue function start
      ++ requireI32Value program function start "slice-window start"
      ++ errorUnless (valueSliceType program function slice).isSome
        "slice-window call argument base is not slice-typed"
  | .buffer buffer =>
    requireDirectBufferCapability function "buffer call argument"
      ++ requireBuffer program function buffer
  | .bufferParam parameter =>
    errorUnless (functionBufferParamRef program function parameter).isSome
        "buffer-parameter call argument references a non-buffer parameter"
      ++ (match parameter with
        | .arrayElement _ selector _ =>
          requireI32Value program function selector "buffer-parameter collection selector"
        | .direct _ => [])
  | .bufferSpan _ => []

end Arguments

/-! ### Statements -/

section Statements

variable (program : Program) (function : Function)

def validateAssign (destination : Place) (value : Rvalue) : List String :=
  let isProcessFrame := value.isProcessFrame
  let isLocal := destination matches ⟨.localVar _, []⟩
  validatePlace program function destination ++ validateRvalue program function value
    ++ errorUnless (!isProcessFrame || isLocal)
      "process_frame must be the unique definition of an unprojected local"
    ++ errorUnless (placeIsWritable program function destination)
      "assignment destination is not writable"
    ++ match program.placeType function destination with
      | some ty =>
        errorUnless (rvalueMatchesType program function value ty)
          s!"assignment value does not match destination type {typeName program ty}"
      | none => []

def validateCall (results : List LocalId) (callee : FunctionId)
    (args : List CallArgument) : List String :=
  match program.functions[callee]? with
  | none => [s!"call references missing function {callee}"]
  | some target =>
    errorUnless (target.kind = .user)
        s!"calls may only target user functions, not '{target.name}'"
      ++ errorUnless (results.length = target.results.length)
        (s!"call to '{target.name}' has {results.length} result destinations but "
          ++ s!"function returns {target.results.length} values")
      ++ errorUnless (args.length = target.params.length)
        (s!"call to '{target.name}' has {args.length} arguments but function takes "
          ++ s!"{target.params.length}")
      ++ results.flatMap (requireLocal function)
      ++ ((results.zip target.results).zipIdx.flatMap fun result =>
        match function.locals[result.1.1]? with
        | some declared =>
          errorUnless (program.typesEquivalent declared.ty result.1.2)
            (s!"call to '{target.name}' result {result.2} has destination type "
              ++ s!"{typeName program declared.ty}, expected {typeName program result.1.2}")
        | none => [])
      ++ args.flatMap (validateCallArgument program function)
      ++ (args.zip target.params).zipIdx.flatMap fun argument =>
        errorUnless (callArgumentMatches program function argument.1.1 argument.1.2)
          (s!"call to '{target.name}' argument {argument.2} does not match "
            ++ s!"{passingModeName argument.1.2.mode} parameter type "
            ++ typeName program argument.1.2.ty)

/-- An evaluated argument carries a payload parameter. -/
def payloadMatches (value : Value) (ty : TypeId) : Bool :=
  let sliceOf (expected : ScalarType) : Bool :=
    match valueSliceType program function value with
    | some (actual, _) => actual == expected
    | none => false
  match program.types[ty]? with
  | some (.scalar _) => valueMatchesType program function value ty
  | some (.array element _) =>
    match program.types[element]? with
    | some (.scalar expected) => sliceOf expected
    | _ => false
  | some (.slice element _) => sliceOf element
  | _ => false

/-- Publication needs the runtime context. -/
def requireRuntimeContext (publication : String) : List String :=
  errorUnless (function.kind != .user || function.attributes.runtimeContext)
    s!"{publication} publication requires a runtime-context user function"

def validatePublishDelegate (delegate : DelegateId) (args : List CallArgument) :
    List String :=
  match program.interface.delegates[delegate]? with
  | none => [s!"publication references missing delegate {delegate}"]
  | some descriptor =>
    errorUnless (function.kind ≠ .init) "init entry point cannot publish delegates"
      ++ requireRuntimeContext function "delegate"
      ++ errorUnless (args.length = descriptor.params.length)
        (s!"publication of delegate '{descriptor.name}' has {args.length} arguments but "
          ++ s!"the descriptor declares {descriptor.params.length}")
      ++ args.zipIdx.flatMap fun argument =>
        match argument.1 with
        | .value value =>
          validateValue function value ++
            match descriptor.params[argument.2]? with
            | some param =>
              errorUnless (payloadMatches program function value param.ty)
                (s!"publication of delegate '{descriptor.name}' argument {argument.2} does "
                  ++ s!"not match payload parameter '{param.name}' type "
                  ++ typeName program param.ty)
            | none => []
        | _ =>
          [s!"publication of delegate '{descriptor.name}' argument {argument.2} must be an "
            ++ "evaluated value"]

def validatePublishLog (site : LogSiteId) (arguments : List Value) : List String :=
  match program.logSites[site]? with
  | none => [s!"print publication references missing log site {site}"]
  | some descriptor =>
    requireRuntimeContext function "print"
      ++ errorUnless (arguments.length = descriptor.argumentTypes.length)
        (s!"print publication at site {site} has {arguments.length} arguments but the "
          ++ s!"descriptor declares {descriptor.argumentTypes.length}")
      ++ arguments.zipIdx.flatMap fun argument =>
        validateValue function argument.1 ++
          match descriptor.argumentTypes[argument.2]? with
          | some expected =>
            errorUnless (valueScalarType program function argument.1 == some expected)
              (s!"print publication at site {site} argument {argument.2} does not match "
                ++ debugScalar expected)
          | none => []

/-- A stored value against the type of the port, where the port has one. -/
def validatePortValue (port : Option TypeId) (element : Option Value) (value : Value)
    (label : String) : List String :=
  match port.bind fun ty => indexedType program ty element.isSome with
  | some expected =>
    errorUnless (valueMatchesType program function value expected)
      s!"{label} store value does not match output type {typeName program expected}"
  | none => []

/-- A value stored through a writable slice; `label` names the store. -/
def validateSliceDestination (slice value : Value) (label : String) : List String :=
  match valueSliceType program function slice with
  | some (element, .readWrite) =>
    errorUnless (valueMatchesScalar program function value element)
      s!"{label} value does not match element type {element.name}"
  | some (_, .readOnly) => [s!"{label} destination is read-only"]
  | none => [s!"{label} destination is not a slice"]

def validateSliceCopy (copy : SliceCopy) : List String :=
  validateValue function copy.destination ++ validateValue function copy.source
    ++ match valueSliceType program function copy.destination,
        valueSliceType program function copy.source with
      | some (destination, .readWrite), some (source, _) =>
        errorUnless (source = destination)
          (s!"slice copy requires identical element types, got {source.name} and "
            ++ destination.name)
      | some (_, .readOnly), some _ => ["slice copy destination is read-only"]
      | none, _ => ["slice copy destination is not a slice"]
      | some _, none => ["slice copy source is not a slice"]

def validateOperation : Operation → List String
  | .assign destination value => validateAssign program function destination value
  | .call results callee args => validateCall program function results callee args
  | .publishDelegate delegate args => validatePublishDelegate program function delegate args
  | .publishLog site arguments => validatePublishLog program function site arguments
  | .outputStore output element _ frame value =>
    requireAudioIoCapability function "audio output store"
      ++ errorUnless (output < program.interface.outputs.length)
        s!"store references missing output {output}"
      ++ validateOptionalValue function element ++ validateValue function frame
      ++ validateValue function value
      ++ requireI32Value program function frame "audio frame"
      ++ validateOptionalIndex program function element "output element"
      ++ validatePortValue program function
        ((program.interface.outputs[output]?).map (·.ty)) element value "output"
  | .controlOutputStore output element _ value =>
    requireControlOutputCapability function
      ++ errorUnless (output < program.interface.controlOutputs.length)
        s!"store references missing control output {output}"
      ++ validateOptionalValue function element ++ validateValue function value
      ++ validateOptionalIndex program function element "control output element"
      ++ validatePortValue program function
        ((program.interface.controlOutputs[output]?).map (·.ty)) element value
        "control output"
  | .bufferStore buffer channel index value _ =>
    requireDirectBufferCapability function "buffer store"
      ++ requireBuffer program function buffer
      ++ validateOptionalValue function channel ++ validateValue function index
      ++ validateValue function value
      ++ validateOptionalIndex program function channel "buffer channel"
      ++ requireI32Value program function index "buffer index"
      ++ match program.interface.buffers[buffer.first]? with
        | some declared =>
          errorUnless (declared.access = .readWrite)
              "cannot store to a read-only interface buffer"
            ++ errorUnless (valueMatchesScalar program function value declared.element)
              s!"buffer store value does not match element type {declared.element.name}"
        | none => []
  | .bufferParamStore parameter channel index value _ =>
    validateBufferParamRef program function parameter
      ++ validateOptionalValue function channel ++ validateValue function index
      ++ validateValue function value
      ++ validateOptionalIndex program function channel "buffer channel"
      ++ requireI32Value program function index "buffer index"
      ++ match functionBufferParamRef program function parameter with
        | some (element, .readWrite) =>
          errorUnless (valueMatchesScalar program function value element)
            s!"buffer parameter store value does not match element type {element.name}"
        | some (_, .readOnly) => ["cannot store through a read-only buffer parameter"]
        | none => [s!"buffer operation references non-buffer parameter {parameter.first}"]
  | .sliceStore slice index value _ =>
    validateValue function slice ++ validateValue function index
      ++ validateValue function value
      ++ requireI32Value program function index "slice index"
      ++ validateSliceDestination program function slice value "slice store"
  | .sliceFill destination value =>
    validateValue function destination ++ validateValue function value
      ++ validateSliceDestination program function destination value "slice fill"
  | .sliceCopy copies preflight =>
    errorUnless (preflight = .required)
        "omitting slice-copy overlap preflight requires a trusted MIR producer proof"
      ++ copies.flatMap (validateSliceCopy program function)

def validateReturn (values : List Value) : List String :=
  errorUnless (values.length = function.results.length)
      (s!"return has {values.length} values but function declares "
        ++ s!"{function.results.length} results")
    ++ values.zipIdx.flatMap fun result =>
      validateValue function result.1 ++
        match function.results[result.2]? with
        | some expected =>
          errorUnless (valueMatchesType program function result.1 expected)
            (s!"return value {result.2} has a different type than declared result "
              ++ typeName program expected)
        | none => []

mutual

def validateStatement (loopDepth : Nat) : Statement → List String
  | .op operation => validateOperation program function operation
  | .ite condition thenBlock elseBlock =>
    validateValue function condition
      ++ errorUnless (valueMatchesScalar program function condition .bool)
        "if condition must have type bool"
      ++ validateBlock loopDepth thenBlock ++ validateBlock loopDepth elseBlock
  | .loop body => validateBlock (loopDepth + 1) body
  | .brk | .cont => errorUnless (loopDepth ≠ 0) "loop control appears outside a loop"
  | .ret values => validateReturn program function values

def validateBlock (loopDepth : Nat) : List Statement → List String
  | [] => []
  | statement :: rest =>
    validateStatement loopDepth statement ++ validateBlock loopDepth rest

end

end Statements

/-! ### Unchecked accesses -/

def projectionUsesUncheckedBounds : Projection → Bool
  | .index _ .unchecked => true
  | _ => false

def placeUsesUncheckedBounds (place : Place) : Bool :=
  place.projections.any projectionUsesUncheckedBounds

def bufferRefUsesUncheckedBounds : BufferRef → Bool
  | .arrayElement _ _ _ .unchecked => true
  | _ => false

def bufferParamRefUsesUncheckedBounds : BufferParamRef → Bool
  | .arrayElement _ _ .unchecked => true
  | _ => false

def sliceSourceUsesUncheckedBounds : SliceSource → Bool
  | .place place => placeUsesUncheckedBounds place
  | .buffer buffer _ => bufferRefUsesUncheckedBounds buffer
  | .bufferParam parameter _ => bufferParamRefUsesUncheckedBounds parameter
  | .constData _ => false

def rvalueUsesUncheckedBounds : Rvalue → Bool
  | .load place => placeUsesUncheckedBounds place
  | .bufferLoad buffer _ _ bounds =>
    bounds == .unchecked || bufferRefUsesUncheckedBounds buffer
  | .bufferParamLoad parameter _ _ bounds =>
    bounds == .unchecked || bufferParamRefUsesUncheckedBounds parameter
  | .inputLoad _ _ bounds _ | .outputLoad _ _ bounds _ | .constDataLoad _ _ bounds
  | .sliceLoad _ _ bounds | .normalizeIndex _ _ bounds => bounds == .unchecked
  | .makeSlice source _ _ bounds _ =>
    bounds == .unchecked || sliceSourceUsesUncheckedBounds source
  | .bufferLen buffer | .bufferChannels buffer | .bufferSampleRate buffer
  | .bufferIsBound buffer => bufferRefUsesUncheckedBounds buffer
  | .bufferParamLen parameter | .bufferParamChannels parameter
  | .bufferParamSampleRate parameter | .bufferParamIsBound parameter =>
    bufferParamRefUsesUncheckedBounds parameter
  | .initAll | .use _ | .unary .. | .binary .. | .compare .. | .cast .. | .intrinsic ..
  | .processFrame _ | .sliceLen _ => false

def callArgUsesUncheckedBounds : CallArgument → Bool
  | .place place => placeUsesUncheckedBounds place
  | .sliceElement _ _ bounds | .sliceWindow _ _ bounds => bounds == .unchecked
  | .arrayWindow array _ bounds => bounds == .unchecked || placeUsesUncheckedBounds array
  | .buffer buffer => bufferRefUsesUncheckedBounds buffer
  | .bufferParam parameter => bufferParamRefUsesUncheckedBounds parameter
  | .value _ | .bufferSpan _ => false

def operationUsesUncheckedBounds : Operation → Bool
  | .assign destination value =>
    placeUsesUncheckedBounds destination || rvalueUsesUncheckedBounds value
  | .call _ _ args | .publishDelegate _ args => args.any callArgUsesUncheckedBounds
  | .bufferStore buffer _ _ _ bounds =>
    bounds == .unchecked || bufferRefUsesUncheckedBounds buffer
  | .bufferParamStore parameter _ _ _ bounds =>
    bounds == .unchecked || bufferParamRefUsesUncheckedBounds parameter
  | .outputStore _ _ bounds _ _ | .controlOutputStore _ _ bounds _
  | .sliceStore _ _ _ bounds => bounds == .unchecked
  | .publishLog .. | .sliceFill .. | .sliceCopy .. => false

mutual

def rejectUncheckedStatement : Statement → List String
  | .op operation =>
    errorUnless (!operationUsesUncheckedBounds operation)
      "unchecked bounds require a trusted MIR producer proof"
  | .ite _ thenBlock elseBlock =>
    rejectUncheckedBounds thenBlock ++ rejectUncheckedBounds elseBlock
  | .loop body => rejectUncheckedBounds body
  | .brk | .cont | .ret _ => []

def rejectUncheckedBounds : List Statement → List String
  | [] => []
  | statement :: rest => rejectUncheckedStatement statement ++ rejectUncheckedBounds rest

end

end Onda.Mir.Validate
