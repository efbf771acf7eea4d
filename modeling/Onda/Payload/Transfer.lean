import Onda.Payload.Plan

/-!
# Preparing and encoding payloads

`prepare` copies a wire payload into native storage, normalizing it on the way,
and `encode` writes native storage back in wire form.  Both return what the
caller's buffer holds afterwards beside their result.

### Normalization
-/

namespace Onda.Payload

/-- `i64::from_le_bytes`. -/
def i64OfWire (bytes : Bytes) : Int := (Wire.bytesWord 8 bytes).toInt

/-- `normalize_integer`.  `rem_euclid` by a positive width is Lean's `%`; the domain of a
plan is not empty, so `clamp` does not panic. -/
def normalizeInteger (value : Int) : Option IntegerDomain → Int
  | none => value
  | some domain =>
    if domain.wrap then
      domain.min + (value - domain.min) % (domain.max - domain.min + 1)
    else if value < domain.min then domain.min
    else if value > domain.max then domain.max
    else value

/-- The bytes of a scalar in the byte order of the host, from its little-endian bytes. -/
def native (bigEndian : Bool) (bytes : Bytes) : Bytes :=
  if bigEndian then bytes.reverse else bytes

/-- `normalize_scalar`: the bytes it leaves in its target. -/
def normalizeScalar (bigEndian : Bool) (encoding : ScalarEncoding)
    (domain : Option IntegerDomain) (source : Bytes) : Bytes :=
  match encoding with
  | .i32 => native bigEndian
      (Wire.wordBytes 4 (BitVec.ofInt 32 (normalizeInteger (i32OfWire source) domain)))
  | .i64 => native bigEndian
      (Wire.wordBytes 8 (BitVec.ofInt 64 (normalizeInteger (i64OfWire source) domain)))
  | .bool => source.take 1 |>.map fun byte => if byte ≠ 0 then 1 else 0
  | .f32 | .f64 => native bigEndian source

/-! ### Slices -/

/-- `&bytes[span]`. -/
def sliceAt (bytes : Bytes) (span : Span) : Checked Bytes :=
  expect (getRange bytes span.start span.stop)

/-- `bytes[span].copy_from_slice(data)`. -/
def copyInto (bytes : Bytes) (span : Span) (data : Bytes) : Checked Bytes :=
  if span.start ≤ span.stop ∧ span.stop ≤ bytes.length ∧
      data.length = span.stop - span.start then
    .ok (bytes.take span.start ++ (data ++ bytes.drop span.stop))
  else .error .panicked

/-- The first `count` pieces of `size` bytes. -/
def chunks (size : Nat) : Nat → Bytes → List Bytes
  | 0, _ => []
  | count + 1, bytes => bytes.take size :: chunks size count (bytes.drop size)

/-- `bytes.chunks_exact(size)`. -/
def chunksExact (size : Nat) (bytes : Bytes) : List Bytes :=
  chunks size (bytes.length / size) bytes

/-- `target` after every chunk of `source` has been converted into the chunk of `target`
opposite to it. -/
def convertChunks (size : Nat) (convert : Bytes → Bytes) (source target : Bytes) : Bytes :=
  let converted := List.zipWith (fun chunk _ => convert chunk) (chunksExact size source)
    (chunksExact size target)
  converted.flatten ++ target.drop (converted.length * size)

/-! ### Preparing -/

structure PreparedPayload where
  plan : PayloadPlan
  storage : Bytes
  wireSize : Nat

/-- What `prepare` does at a region. -/
def prepareRegion (plan : PayloadPlan) (bigEndian : Bool) (input : Bytes) :
    Region → Bytes → Checked Bytes
  | .length wire workspace, storage => do
    let source ← sliceAt input wire
    copyInto storage workspace (native bigEndian source)
  | .tensor region, storage => do
    let leaf ← expect plan.tensors[region.tensor]?
    let source ← sliceAt input region.wire
    let target ← sliceAt storage region.workspace
    copyInto storage region.workspace (convertChunks leaf.encoding.byteSize
      (normalizeScalar bigEndian leaf.encoding leaf.domain) source target)

/-- `PayloadPlan::prepare`, with the address of the workspace. -/
def PayloadPlan.prepare (plan : PayloadPlan) (bigEndian : Bool) (input workspace : Bytes)
    (address : Nat) : Checked PreparedPayload × Bytes :=
  match plan.requiredWorkspace input with
  | .error failure => (.error failure, workspace)
  | .ok required =>
    if workspace.length < required then (reject .insufficientCapacity, workspace)
    else if required ≠ 0 ∧ address % 8 ≠ 0 then (reject .misalignedWorkspace, workspace)
    else
      match plan.walk (fun offset _ storage => do
          let len ← readLength input offset
          .ok (len, storage)) (prepareRegion plan bigEndian input)
          (workspace.take required) with
      | .ok walked => (.ok ⟨plan, walked.state, input.length⟩,
          walked.state ++ workspace.drop required)
      -- `expect`: nobody sees the workspace after the panic.
      | .error _ => (.error .panicked, workspace)

/-! ### Encoding -/

/-- `read_prepared_length`. -/
def readPreparedLength (bigEndian : Bool) (bytes : Bytes) (offset : Nat) : Checked Nat := do
  let field ← okOr .truncated (getRange bytes offset (offset + 4))
  usizeOfI32 (i32OfWire (native bigEndian field))

/-- What `encode` does at a region. -/
def encodeRegion (plan : PayloadPlan) (bigEndian : Bool) (storage : Bytes) :
    Region → Bytes → Checked Bytes
  | .length wire workspace, output => do
    let source ← sliceAt storage workspace
    copyInto output wire (native bigEndian source)
  | .tensor region, output => do
    let leaf ← expect plan.tensors[region.tensor]?
    let source ← sliceAt storage region.workspace
    let target ← sliceAt output region.wire
    copyInto output region.wire
      (convertChunks leaf.encoding.byteSize (native bigEndian) source target)

/-- `PreparedPayload::encode`. -/
def PreparedPayload.encode (prepared : PreparedPayload) (bigEndian : Bool) (output : Bytes) :
    Checked Nat × Bytes :=
  if output.length < prepared.wireSize then (reject .insufficientCapacity, output)
  else
    match prepared.plan.walk (fun _ offset output => do
        let len ← readPreparedLength bigEndian prepared.storage offset
        .ok (len, output)) (encodeRegion prepared.plan bigEndian prepared.storage) output with
    | .ok walked => (.ok prepared.wireSize, walked.state)
    | .error _ => (.error .panicked, output)

end Onda.Payload
