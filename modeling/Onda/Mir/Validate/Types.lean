import Onda.Mir.Ir

/-!
# Validation of types, constants and storage

The part of validation that looks at the type table and at the values and types
of interface items.  Every check returns the messages it reports, in order; a
program is accepted when there are none.

The checks of an interface parameter's host control grid and of the recursive
payload schemas of messages are not represented.
-/

namespace Onda.Mir.Validate

/-- The largest `i32`: the bound of indices and byte extents. -/
def i32Max : Nat := 2 ^ 31 - 1

/-- Reports `message` unless the condition holds. -/
def errorUnless (condition : Bool) (message : String) : List String :=
  if condition then [] else [message]

/-- Reports the reason a check gives, if it gives one. -/
def errorOf (reason : Option String) (message : String → String) : List String :=
  match reason with
  | some reason => [message reason]
  | none => []

/-! ### Debug texts

Messages print types and kinds in the debug format of the source. -/

def debugScalar : ScalarType → String
  | .f32 => "F32"
  | .f64 => "F64"
  | .i32 => "I32"
  | .i64 => "I64"
  | .bool => "Bool"

def debugAccess : AccessMode → String
  | .readOnly => "ReadOnly"
  | .readWrite => "ReadWrite"

def debugChannels : BufferChannels → String
  | .mono => "Mono"
  | .static channels => s!"Static({channels})"
  | .dynamic => "Dynamic"

def debugTypeId (ty : TypeId) : String := s!"TypeId({ty})"

def debugType : MirType → String
  | .scalar scalar => s!"Scalar({debugScalar scalar})"
  | .tuple elements => "Tuple([" ++ ", ".intercalate (elements.map debugTypeId) ++ "])"
  | .array element len => s!"Array \x7b element: {debugTypeId element}, len: {len} \x7d"
  | .struct definition => s!"Struct(StructId({definition}))"
  | .slice element access =>
    s!"Slice \x7b element: {debugScalar element}, access: {debugAccess access} \x7d"
  | .buffer element channels access =>
    s!"Buffer \x7b element: {debugScalar element}, channels: {debugChannels channels}, "
      ++ s!"access: {debugAccess access} \x7d"
  | .bufferSpan element channels access len =>
    s!"BufferSpan \x7b element: {debugScalar element}, "
      ++ s!"channels: {debugChannels channels}, access: {debugAccess access}, len: {len} \x7d"

def debugKind : FunctionKind → String
  | .init => "Init"
  | .process => "Process"
  | .event event => s!"Event(EventId({event}))"
  | .user => "User"

def passingModeName : PassingMode → String
  | .value => "value"
  | .readOnlyReference => "read-only reference"
  | .readWriteReference => "read-write reference"
  | .resultReference => "result reference"

/-! ### Access and channels -/

def accessPermits (source requested : AccessMode) : Bool :=
  source == .readWrite || requested == .readOnly

/-- A descriptor with `actual` channels can stand for one with `expected`. -/
def bufferChannelsAccept (expected actual : BufferChannels) : Bool :=
  match expected with
  | .dynamic => true
  | .mono | .static 1 => actual == .mono || actual == .static 1
  | .static expected => actual == .static expected

def bufferStaticChannelValidationError (channels : Nat) (element : ScalarType) :
    Option String :=
  let maximum := i32Max / element.logicalByteWidth
  if channels = 0 then some "has a zero-channel static buffer layout"
  else if maximum < channels then
    some ("static channel count exceeds the signed i32 buffer byte-extent limit; "
      ++ s!"maximum is {maximum}")
  else none

/-- The error of a declared channel layout. -/
def channelsValidationError (channels : BufferChannels) (element : ScalarType) :
    Option String :=
  match channels with
  | .static channels => bufferStaticChannelValidationError channels element
  | _ => none

def scalarSequenceFitsI32Bytes (len : Nat) (scalar : ScalarType) : Bool :=
  len * scalar.logicalByteWidth ≤ i32Max

section Table

variable (program : Program)

def typeName (ty : TypeId) : String :=
  match program.types[ty]? with
  | some (.scalar scalar) => scalar.name
  | some other => debugType other
  | none => s!"missing type {ty}"

def requireType (ty : TypeId) : List String :=
  errorUnless (ty < program.types.length) s!"references missing type {ty}"

/-- The types a type is directly made of. -/
def componentTypes : MirType → List TypeId
  | .tuple elements => elements
  | .array element _ => [element]
  | .struct definition =>
    match program.structs[definition]? with
    | some declared => declared.fields.map (·.ty)
    | none => []
  | _ => []

def validateType (index : Nat) : MirType → List String
  | .tuple elements => elements.flatMap (requireType program)
  | .array element len =>
    requireType program element
      ++ errorUnless (len ≠ 0) s!"type {index} is a zero-length array"
      ++ errorUnless (len ≤ i32Max)
        s!"type {index} array length exceeds the signed i32 MIR boundary"
  | .struct definition =>
    errorUnless (definition < program.structs.length)
      s!"type {index} references missing struct {definition}"
  | .buffer element channels _ =>
    errorOf (channelsValidationError channels element) fun reason =>
      s!"type {index} {reason}"
  | .bufferSpan element channels _ len =>
    errorUnless (0 < len ∧ len ≤ i32Max)
        s!"type {index} buffer span length must be in 1..={i32Max}"
      ++ errorOf (channelsValidationError channels element) fun reason =>
        s!"type {index} {reason}"
  | .scalar _ | .slice .. => []

def validateStruct (declared : StructType) : List String :=
  errorUnless (!declared.fields.isEmpty)
      s!"struct '{declared.name}' must declare at least one field"
    ++ declared.fields.flatMap fun field => requireType program field.ty

/-! ### Sizes of fixed aggregates -/

inductive LogicalSize where
  | pending
  | invalid
  | unsized
  | fixed (bytes : Nat)
deriving DecidableEq, Repr

def initialSize : MirType → LogicalSize
  | .scalar scalar => .fixed scalar.logicalByteWidth
  | .slice .. | .buffer .. | .bufferSpan .. => .unsized
  | .tuple _ | .array .. | .struct _ => .pending

def LogicalSize.bytes : LogicalSize → Nat
  | .fixed bytes => bytes
  | _ => 0

/-- `u64::checked_add` -/
def checkedAddU64 (lhs rhs : Nat) : Option Nat :=
  if lhs + rhs < 2 ^ 64 then some (lhs + rhs) else none

/-- `u64::checked_mul` -/
def checkedMulU64 (lhs rhs : Nat) : Option Nat :=
  if lhs * rhs < 2 ^ 64 then some (lhs * rhs) else none

/-- The size of an aggregate whose components are all fixed; `none` where it is
not a `u64`, or for a struct that is not declared. -/
def aggregateBytes (sizes : List LogicalSize) : MirType → Option Nat
  | .tuple elements =>
    elements.foldlM (fun total element =>
      checkedAddU64 total (sizes.getD element .invalid).bytes) 0
  | .array element len => checkedMulU64 (sizes.getD element .invalid).bytes len
  | .struct definition => do
    let declared ← program.structs[definition]?
    (declared.fields.map (·.ty)).foldlM (fun total element =>
      checkedAddU64 total (sizes.getD element .invalid).bytes) 0
  | _ => none

/-- What a pass finds out about one type: nothing, or its size and the errors
this reports. -/
def resolveSize (sizes : List LogicalSize) (index : Nat) (ty : MirType) :
    Option (LogicalSize × List String) :=
  let components := componentTypes program ty
  let someComponent (size : LogicalSize) :=
    components.any fun component => sizes[component]? == some size
  if sizes[index]? ≠ some .pending then none
  else if components.any fun component => decide (sizes.length ≤ component) then
    some (.invalid, [])
  else if someComponent .pending then none
  else if someComponent .invalid then some (.invalid, [])
  else if someComponent .unsized then some (.unsized, [])
  else
    let exceeds := (LogicalSize.invalid,
      [s!"type {index} fixed aggregate logical size exceeds the signed i32 MIR boundary"])
    match aggregateBytes program sizes ty with
    | some bytes => if bytes ≤ i32Max then some (.fixed bytes, []) else some exceeds
    | none => some exceeds

structure SizePass where
  sizes : List LogicalSize
  errors : List String := []
  changed : Bool := false
deriving DecidableEq

/-- One type of a pass. -/
def SizePass.visit (pass : SizePass) (entry : MirType × Nat) : SizePass :=
  match resolveSize program pass.sizes entry.2 entry.1 with
  | none => pass
  | some (size, errors) =>
    { sizes := pass.sizes.set entry.2 size, errors := pass.errors ++ errors, changed := true }

/-- One pass over the table. -/
def resolveSizes (pass : SizePass) : SizePass :=
  program.types.zipIdx.foldl (SizePass.visit program) { pass with changed := false }

/-- Passes over the table until one changes nothing, at most `fuel` of them. -/
def resolveAll : Nat → SizePass → SizePass
  | 0, pass => pass
  | fuel + 1, pass =>
    let next := resolveSizes program pass
    if next.changed then resolveAll fuel next else next

/-- The sizes at the fixed point.  Every pass but the last one resolves a type,
so the passes end before the fuel does. -/
def fixedAggregateSizes : SizePass :=
  resolveAll program (program.types.length + 1) { sizes := program.types.map initialSize }

/-- What is still pending at the fixed point is recursive. -/
def validateFixedAggregateTypes : List String :=
  let pass := fixedAggregateSizes program
  pass.errors ++ pass.sizes.zipIdx.flatMap fun entry =>
    errorUnless (entry.1 ≠ .pending)
      s!"type {entry.2} participates in a recursive fixed aggregate definition"

/-! ### Runtime handles -/

/-- Depth-first search for a slice or buffer descriptor below the pending
types. -/
def findRuntimeHandle : Nat → List TypeId → List TypeId → Bool
  | _, _, [] => false
  | 0, _, _ => false
  | fuel + 1, visited, ty :: pending =>
    match program.types[ty]? with
    | none => findRuntimeHandle fuel visited pending
    | some declared =>
      if ty ∈ visited then findRuntimeHandle fuel visited pending
      else
        match declared with
        | .slice .. | .buffer .. | .bufferSpan .. => true
        | declared =>
          findRuntimeHandle fuel (ty :: visited)
            ((componentTypes program declared).reverse ++ pending)

/-- A type contains a slice or buffer descriptor.  Every type is expanded at
most once, which bounds the search. -/
def typeContainsRuntimeHandle (root : TypeId) : Bool :=
  findRuntimeHandle program
    (1 + (program.types.map fun ty => (componentTypes program ty).length).sum) [] [root]

def rejectRuntimeHandleStorage (ty : TypeId) (context : String) : List String :=
  errorUnless (!typeContainsRuntimeHandle program ty)
    s!"{context} type must not contain runtime-only slice or buffer handles"

/-! ### Constants and ranges -/

mutual

def constantMatchesType : ConstantValue → TypeId → Bool
  | .scalar value, ty =>
    match program.types[ty]? with
    | some (.scalar expected) => value.ty == expected
    | _ => false
  | .aggregate values, ty =>
    match program.types[ty]? with
    | some (.tuple elements) => constantsMatchTypes values elements
    | some (.array element len) =>
      values.length == len
        && constantsMatchTypes values (List.replicate values.length element)
    | some (.struct definition) =>
      match program.structs[definition]? with
      | some declared => constantsMatchTypes values (declared.fields.map (·.ty))
      | none => false
    | _ => false

def constantsMatchTypes : List ConstantValue → List TypeId → Bool
  | [], [] => true
  | value :: values, ty :: types =>
    constantMatchesType value ty && constantsMatchTypes values types
  | _, _ => false

end

def valueRangeValidationError (range : ValueRange) (ty : TypeId) : Option String :=
  let order (ordered : Bool) :=
    if ordered then none else some "minimum is greater than its maximum"
  let floatOrder (format : FloatFormat) (min max : Nat) :=
    if !format.isFinite min || !format.isFinite max then some "endpoints must be finite"
    else order (!format.less max min)
  match program.types[ty]? with
  | some (.scalar expected) =>
    if range.min.ty ≠ expected ∨ range.max.ty ≠ expected then
      some s!"does not match scalar type {typeName program ty}"
    else
      match range.min, range.max with
      | .f32 min, .f32 max => floatOrder binary32 min.toNat max.toNat
      | .f64 min, .f64 max => floatOrder binary64 min.toNat max.toNat
      | .i32 min, .i32 max => order (min.sle max)
      | .i64 min, .i64 max => order (min.sle max)
      | .bool _, .bool _ => some "is not supported for bool"
      | _, _ => some s!"does not match scalar type {typeName program ty}"
  | _ => some s!"does not apply to non-scalar type {typeName program ty}"

def integerRangeValidationError (range : IntegerRangeInvariant) (ty : TypeId) :
    Option String :=
  match valueRangeValidationError program { min := range.min, max := range.max } ty with
  | some reason => some reason
  | none =>
    if range.min.ty.isInteger then none else some "requires an i32 or i64 scalar type"

end Table

/-- A finite float between two endpoints. -/
def floatIsWithin (format : FloatFormat) (value min max : Nat) : Bool :=
  format.isFinite value
    && (format.less min value || format.equal min value)
    && (format.less value max || format.equal value max)

mutual

def constantIsWithinRange (range : ValueRange) : ConstantValue → Bool
  | .aggregate values => constantsAreWithinRange range values
  | .scalar value =>
    match value, range.min, range.max with
    | .f32 value, .f32 min, .f32 max =>
      floatIsWithin binary32 value.toNat min.toNat max.toNat
    | .f64 value, .f64 min, .f64 max =>
      floatIsWithin binary64 value.toNat min.toNat max.toNat
    | .i32 value, .i32 min, .i32 max => min.sle value && value.sle max
    | .i64 value, .i64 min, .i64 max => min.sle value && value.sle max
    | _, _, _ => false

def constantsAreWithinRange (range : ValueRange) : List ConstantValue → Bool
  | [] => true
  | value :: values =>
    constantIsWithinRange range value && constantsAreWithinRange range values

end

end Onda.Mir.Validate
