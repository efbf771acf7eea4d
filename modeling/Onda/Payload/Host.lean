import Onda.Payload.Transfer

/-!
# Host values

Encoding values the host owns and building host values from a payload.  The host's types are
behind two interfaces, `PayloadSource` and `PayloadSink`.

### Encoding
-/

namespace Onda.Payload

section Encode

variable {V : Type} (source : PayloadSource V) (plan : PayloadPlan)

/-- `i32::try_from(value.sequence_len()?)`. -/
def lengthOfValue (value : V) : Checked Int := do
  let len ← okOr .invalidValue (source.sequenceLen value)
  if len < 2 ^ 31 then .ok len else reject .overflow

/-- The loop of `value_lengths`, from the `dynamic`-th length on. -/
def writeLengths : List (ParameterPlan × V) → Nat → List Int → Checked (List Int)
  | [], _, lengths => .ok lengths
  | (param, value) :: rest, dynamic, lengths =>
    if param.dynamic then do
      let len ← lengthOfValue source value
      let _ ← expect lengths[dynamic]?
      writeLengths rest (dynamic + 1) (lengths.set dynamic len)
    else writeLengths rest dynamic lengths

/-- `PayloadPlan::value_lengths`. -/
def valueLengths (values : List V) (lengths : List Int) : Checked (List Int) := do
  refuseIf (values.length ≠ plan.params.length) .invalidValue
  writeLengths source (plan.params.zip values) 0 lengths

/-- `PayloadEncoderWorkspace`. -/
structure PayloadEncoderWorkspace where
  lengths : List Int
  offsets : List Nat
  output : Bytes

/-- What the encoder changes while it goes: how many lengths it has written, where the next
scalar of every tensor goes, and the output. -/
structure Encoding where
  dynamic : Nat
  offsets : List Nat
  output : Bytes

/-- The length closure of the encoder's walk. -/
def encodeLength (lengths : List Int) (offset : Nat) (encoding : Encoding) :
    Checked (Nat × Encoding) := do
  let len ← expect lengths[encoding.dynamic]?
  let output ← copyInto encoding.output ⟨offset, offset + 4⟩
    (Wire.wordBytes 4 (BitVec.ofInt 32 len))
  .ok (len.toNat, { encoding with dynamic := encoding.dynamic + 1, output })

/-- The region closure of the encoder's walk. -/
def encodeStart : Region → Encoding → Checked Encoding
  | .length _ _, encoding => .ok encoding
  | .tensor region, encoding => do
    let _ ← expect encoding.offsets[region.tensor]?
    .ok { encoding with offsets := encoding.offsets.set region.tensor region.wire.start }

/-- Where the next scalar of a tensor goes. -/
def scalarPlace (start leaf : Nat) (encoding : ScalarEncoding) (state : Encoding) :
    Checked Nat := do
  let tensor ← okOr .invalidSchema plan.tensors[start + leaf]?
  refuseIf (tensor.encoding ≠ encoding) .invalidSchema
  let offset ← expect state.offsets[start + leaf]?
  let _ ← okOr .invalidValue (getRange state.output offset (offset + encoding.byteSize))
  .ok offset

/-- The scalar at its place.  `write_scalar` fills the slice it is given. -/
def storeScalar (start leaf : Nat) (encoding : ScalarEncoding) (offset : Nat) (scalar : Bytes)
    (state : Encoding) : Checked Encoding := do
  let output ← copyInto state.output ⟨offset, offset + encoding.byteSize⟩ scalar
  .ok { state with
    offsets := state.offsets.set (start + leaf) (offset + encoding.byteSize), output }

/-- The visitor of the encoder. -/
def encodeScalar (start leaf : Nat) (encoding : ScalarEncoding) (value : V)
    (state : Encoding) : Checked Encoding := do
  let offset ← scalarPlace plan start leaf encoding state
  let scalar ← source.writeScalar value encoding
  storeScalar start leaf encoding offset scalar state

/-- The loop of `encode` over fields, parameters and values. -/
def encodeFields : List (PayloadField × ParameterPlan × V) → Encoding → Checked Encoding
  | [], state => .ok state
  | (field, param, value) :: rest, state => do
    let visited ← visitValues source (encodeScalar source plan param.tensors.start) field.ty
      value 0 state
    encodeFields rest visited.2

/-- `PayloadEncoderWorkspace::encode`: the payload, and the workspace afterwards. -/
def PayloadEncoderWorkspace.encode (workspace : PayloadEncoderWorkspace) (values : List V) :
    Checked (Bytes × PayloadEncoderWorkspace) := do
  refuseIf (workspace.lengths.length < plan.dynamicParameters) .insufficientCapacity
  refuseIf (workspace.offsets.length < plan.tensors.length) .insufficientCapacity
  let lengths ← valueLengths source plan values (workspace.lengths.take plan.dynamicParameters)
  let sizes ← plan.sizes lengths
  refuseIf (sizes.1 > workspace.output.length) .insufficientCapacity
  let begun ← plan.walk (fun offset _ => encodeLength lengths offset) encodeStart
    ⟨0, workspace.offsets.take plan.tensors.length, workspace.output⟩
  let done ← encodeFields source plan (plan.schema.params.zip (plan.params.zip values)) begun.state
  .ok (done.output.take sizes.1, {
    lengths := lengths ++ workspace.lengths.drop plan.dynamicParameters
    offsets := done.offsets ++ workspace.offsets.drop plan.tensors.length
    output := done.output })

/-- `PayloadEncoderWorkspace::new` for one plan. -/
def PayloadEncoderWorkspace.new (capacity : Nat) : Checked PayloadEncoderWorkspace := do
  refuseIf (capacity > i32Max) .overflow
  .ok {
    lengths := List.replicate plan.dynamicParameters 0
    offsets := List.replicate plan.tensors.length 0
    output := List.replicate capacity 0 }

/-- `PayloadPlan::encode_values`. -/
def encodeValues (values : List V) : Checked Bytes := do
  let lengths ← valueLengths source plan values (List.replicate plan.dynamicParameters 0)
  let sizes ← plan.sizes lengths
  let workspace ← PayloadEncoderWorkspace.new plan sizes.1
  let encoded ← workspace.encode source plan values
  .ok encoded.2.output

end Encode

/-! ### Decoding -/

/-- `PayloadSink`. -/
structure PayloadSink (V : Type) where
  scalar : ScalarEncoding → Bytes → V
  aggregate : PayloadType → List V → V

/-- Where `decode` has got to: the next scalar of every tensor, and the leaf. -/
structure Cursor where
  offsets : List Nat
  leaf : Nat

section Decode

variable {V : Type} (sink : PayloadSink V) (input : Bytes)

/-- The elements of an array or a slice: the leaf goes back to `start` before each. -/
def decodeRun (decode : Cursor → Checked (V × Cursor)) (start : Nat) :
    Nat → Cursor → Checked (List V × Cursor)
  | 0, cursor => .ok ([], cursor)
  | count + 1, cursor => do
    let one ← decode { cursor with leaf := start }
    let rest ← decodeRun decode start count one.2
    .ok (one.1 :: rest.1, rest.2)

/-- The leaf behind an array or a slice, which decoding its elements reaches unless there are
none. -/
def skipEmpty (element : PayloadType) (len : Nat) (cursor : Cursor) : Checked Cursor :=
  if len = 0 then do
    let leaves ← expect element.leaves.toOption
    .ok { cursor with leaf := cursor.leaf + leaves.length }
  else .ok cursor

mutual

/-- `decode`. -/
def decode : PayloadType → Nat → Cursor → Checked (V × Cursor)
  | .scalar encoding _, _, cursor => do
    let start ← expect cursor.offsets[cursor.leaf]?
    let bytes ← sliceAt input ⟨start, start + encoding.byteSize⟩
    .ok (sink.scalar encoding bytes,
      ⟨cursor.offsets.set cursor.leaf (start + encoding.byteSize), cursor.leaf + 1⟩)
  | .struct name fields, _, cursor => do
    let members ← decodeFields fields cursor
    .ok (sink.aggregate (.struct name fields) members.1, members.2)
  | .tuple elements, _, cursor => do
    let members ← decodeElements elements cursor
    .ok (sink.aggregate (.tuple elements) members.1, members.2)
  | .array element len, _, cursor => do
    let members ← decodeRun (fun cursor => decode element 0 cursor) cursor.leaf len cursor
    let cursor ← skipEmpty element len members.2
    .ok (sink.aggregate (.array element len) members.1, cursor)
  | .slice element, dynamic, cursor => do
    let members ← decodeRun (fun cursor => decode element 0 cursor) cursor.leaf dynamic cursor
    let cursor ← skipEmpty element dynamic members.2
    .ok (sink.aggregate (.slice element) members.1, cursor)

def decodeFields : List PayloadField → Cursor → Checked (List V × Cursor)
  | [], cursor => .ok ([], cursor)
  | .mk _ ty _ :: fields, cursor => do
    let one ← decode ty 0 cursor
    let rest ← decodeFields fields one.2
    .ok (one.1 :: rest.1, rest.2)

def decodeElements : List PayloadType → Cursor → Checked (List V × Cursor)
  | [], cursor => .ok ([], cursor)
  | ty :: elements, cursor => do
    let one ← decode ty 0 cursor
    let rest ← decodeElements elements one.2
    .ok (one.1 :: rest.1, rest.2)

end

/-- The length `decode_values` passes for a parameter, and the lengths left. -/
def takeLength (param : ParameterPlan) (lengths : List Nat) : Checked (Nat × List Nat) :=
  if param.dynamic then do
    let len ← expect lengths.head?
    .ok (len, lengths.tail)
  else .ok (0, lengths)

/-- The loop of `decode_values` over parameters and fields. -/
def decodeParams : List (ParameterPlan × PayloadField) → List Nat → List Nat →
    Checked (List V)
  | [], _, _ => .ok []
  | (param, field) :: rest, lengths, offsets => do
    let taken ← takeLength param lengths
    let one ← decode sink input field.ty taken.1 ⟨offsets, param.tensors.start⟩
    let others ← decodeParams rest taken.2 one.2.offsets
    .ok (one.1 :: others)

/-- The start of a tensor, for `decode_values`. -/
def decodeStart : Region → List Nat × List Nat → Checked (List Nat × List Nat)
  | .length _ _, state => .ok state
  | .tensor region, state => do
    let _ ← expect state.2[region.tensor]?
    .ok (state.1, state.2.set region.tensor region.wire.start)

/-- The length closure of `decode_values`. -/
def decodeLength (input : Bytes) (offset _ : Nat) (state : List Nat × List Nat) :
    Checked (Nat × List Nat × List Nat) := do
  let len ← readLength input offset
  .ok (len, state.1 ++ [len], state.2)

/-- `PayloadPlan::decode_values`. -/
def PayloadPlan.decodeValues (plan : PayloadPlan) : Checked (List V) := do
  let _ ← plan.requiredWorkspace input
  let ends ← plan.walk (decodeLength input) decodeStart
    (([] : List Nat), List.replicate plan.tensors.length 0)
  decodeParams sink input (plan.params.zip plan.schema.params) ends.state.1 ends.state.2

end Decode

end Onda.Payload
