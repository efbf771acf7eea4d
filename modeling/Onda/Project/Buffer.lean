import Onda.Project.Types

/-!
# Buffer assets and the `.ondabuffer` container

The typed sample buffers of a project, and the file format that stores one of
them: a fixed header, the digest of the content, and the samples in
little-endian order.  Floats are their bit patterns.

### Elements
-/

namespace Onda.Project

open Wire (littleEndian ofLittleEndian wordBytes bytesWord)

/-- `ONDA_BUFFER_MAGIC`. -/
def ONDA_BUFFER_MAGIC : Bytes := ascii "ONDABUF" ++ [0]

/-- `ONDA_BUFFER_FORMAT_VERSION`. -/
def ONDA_BUFFER_FORMAT_VERSION : UInt32 := 1

/-- `ONDA_BUFFER_HEADER_BYTES`. -/
def ONDA_BUFFER_HEADER_BYTES : Nat := 8 + 4 + 4 + 4 + 4 + 4 + 8 + 32

/-- `i32::MAX as u32`. -/
def I32_MAX : UInt32 := 2147483647

/-- `BufferElement`. -/
inductive BufferElement where
  | bool
  | i32
  | i64
  | f32
  | f64
deriving DecidableEq

namespace BufferElement

def byteSize : BufferElement → Nat
  | bool => 1
  | i32 | f32 => 4
  | i64 | f64 => 8

def tag : BufferElement → UInt8
  | bool => 0
  | i32 => 1
  | i64 => 2
  | f32 => 3
  | f64 => 4

def fromTag (tag : UInt8) : Checked BufferElement :=
  match tag with
  | 0 => .ok bool
  | 1 => .ok i32
  | 2 => .ok i64
  | 3 => .ok f32
  | 4 => .ok f64
  | tag => reject (ascii "unknown Onda buffer element tag " ++ decimal tag.toNat)

theorem byteSize_pos (element : BufferElement) : 0 < element.byteSize := by
  cases element <;> decide

theorem fromTag_tag (element : BufferElement) : fromTag element.tag = .ok element := by
  cases element <;> rfl

theorem tag_of_fromTag {tag : UInt8} {element : BufferElement}
    (known : fromTag tag = .ok element) : element.tag = tag := by
  unfold fromTag at known
  split at known <;> first | (cases known; rfl) | simp [reject] at known

end BufferElement

/-! ### Samples -/

/-- `BufferSamples`: bools are bytes, integers are two's complement words, floats
are bit patterns. -/
inductive BufferSamples where
  | bool (values : List UInt8)
  | i32 (values : List (BitVec 32))
  | i64 (values : List (BitVec 64))
  | f32 (values : List (BitVec 32))
  | f64 (values : List (BitVec 64))
deriving DecidableEq

/-- `CHUNK_BYTES`. -/
def CHUNK_BYTES : Nat := 16 * 1024

/-- `values.chunks(size)`; `fuel` bounds the number of chunks. -/
def chunks {α : Type} (size : Nat) : Nat → List α → List (List α)
  | 0, _ => []
  | _ + 1, [] => []
  | fuel + 1, value :: values =>
    (value :: values).take size :: chunks size fuel ((value :: values).drop size)

/-- Copies one chunk's elements over the start of the scratch bytes, one
`chunks_exact_mut` window after another. -/
def copyElements (elementBytes : Nat) :
    List (BitVec (8 * elementBytes)) → Bytes → Bytes
  | [], scratch => scratch
  | value :: values, scratch =>
    if scratch.length < elementBytes then scratch
    else wordBytes elementBytes value ++
      copyElements elementBytes values (scratch.drop elementBytes)

/-- The loop of `visit_numeric!`: one scratch array serves every chunk, and the
visitor sees its filled prefix. -/
def visitChunks (elementBytes : Nat) :
    List (List (BitVec (8 * elementBytes))) → Bytes → Checked (List Bytes)
  | [], _ => .ok []
  | values :: later, scratch => do
    let filled := copyElements elementBytes values scratch
    let visited ← slice filled 0 (values.length * elementBytes)
    let rest ← visitChunks elementBytes later filled
    return visited :: rest

/-- `visit_numeric!`. -/
def visitNumeric (elementBytes : Nat) (values : List (BitVec (8 * elementBytes))) :
    Checked (List Bytes) :=
  visitChunks elementBytes (chunks (CHUNK_BYTES / elementBytes) values.length values)
    (List.replicate CHUNK_BYTES 0)

/-- `chunks_exact(size)`, `count` of them. -/
def exactChunks (size : Nat) : Nat → Bytes → List Bytes
  | 0, _ => []
  | count + 1, bytes => bytes.take size :: exactChunks size count (bytes.drop size)

/-- The little-endian words of `bytes`. -/
def wordsOf (elementBytes : Nat) (bytes : Bytes) : List (BitVec (8 * elementBytes)) :=
  (exactChunks elementBytes (bytes.length / elementBytes) bytes).map (bytesWord elementBytes)

namespace BufferSamples

def element : BufferSamples → BufferElement
  | bool _ => .bool
  | i32 _ => .i32
  | i64 _ => .i64
  | f32 _ => .f32
  | f64 _ => .f64

def len : BufferSamples → Nat
  | bool values => values.length
  | i32 values | f32 values => values.length
  | i64 values | f64 values => values.length

/-- `visit_canonical_le_bytes`: the byte slices the visitor is called with. -/
def visitCanonicalLeBytes : BufferSamples → Checked (List Bytes)
  | bool values => .ok [values]
  | i32 values | f32 values => visitNumeric 4 values
  | i64 values | f64 values => visitNumeric 8 values

/-- `append_canonical_le_bytes` onto an empty output. -/
def canonicalLeBytes (samples : BufferSamples) : Checked Bytes := do
  let visited ← samples.visitCanonicalLeBytes
  return visited.flatten

def fromCanonicalLeBytes (element : BufferElement) (bytes : Bytes) :
    Checked BufferSamples := do
  refuseIf (bytes.length % element.byteSize ≠ 0)
    (ascii "Onda buffer payload is not aligned to its element type")
  match element with
  | .bool => do
    refuseIf (bytes.any (· > 1))
      (ascii "Onda bool buffer payload contains a value other than 0 or 1")
    return bool bytes
  | .i32 => return i32 (wordsOf 4 bytes)
  | .i64 => return i64 (wordsOf 8 bytes)
  | .f32 => return f32 (wordsOf 4 bytes)
  | .f64 => return f64 (wordsOf 8 bytes)

end BufferSamples

/-! ### Assets -/

/-- `sample_rate.is_finite()`. -/
def f32IsFinite (bits : UInt32) : Bool := (bits >>> 23) &&& 0xFF != 0xFF

/-- `sample_rate <= 0.0`, for a finite number: a zero, or a set sign bit. -/
def f32LeZero (bits : UInt32) : Bool := bits == 0 || bits >= 0x80000000

/-- `BufferAsset`. -/
structure BufferAsset where
  frames : UInt32
  channels : UInt32
  sampleRate : UInt32
  samples : BufferSamples
deriving DecidableEq

variable (platform : Platform)

/-- `validate_buffer_shape`. -/
def validateBufferShape (element : BufferElement) (frames channels sampleRate : UInt32)
    (elementCount : Nat) (limits : ProjectLimits) : Checked Unit := do
  refuseIf (frames = 0 ∨ frames > I32_MAX)
    (ascii "Onda buffer frames must be between 1 and i32::MAX")
  refuseIf (channels = 0 ∨ channels > I32_MAX)
    (ascii "Onda buffer channels must be between 1 and i32::MAX")
  refuseIf (¬f32IsFinite sampleRate ∨ f32LeZero sampleRate)
    (ascii "Onda buffer sample rate must be finite and greater than zero")
  let expected ← platform.checkedProduct [frames.toNat, channels.toNat]
    (ascii "Onda buffer element")
  refuseIf (elementCount ≠ expected)
    (ascii "Onda buffer shape requires " ++ decimal expected ++ ascii " elements, got " ++
      decimal elementCount)
  let payloadBytes ← platform.checkedProduct [expected, element.byteSize]
    (ascii "Onda buffer payload")
  refuseIf (payloadBytes > limits.maxAssetBytes)
    (ascii "Onda buffer payload has " ++ decimal payloadBytes ++ ascii " bytes, exceeding the " ++
      decimal limits.maxAssetBytes ++ ascii " byte limit")

/-- The bytes `buffer_content_hasher` feeds before the samples. -/
def bufferContentHasher (element : BufferElement) (frames channels sampleRate : UInt32) :
    Bytes :=
  ascii "onda-buffer-asset-v1" ++ [0] ++ [element.tag] ++ littleEndian 4 frames.toNat ++
    littleEndian 4 channels.toNat ++ littleEndian 4 sampleRate.toNat

namespace BufferAsset

def element (asset : BufferAsset) : BufferElement := asset.samples.element

def payloadBytes (asset : BufferAsset) : Nat :=
  platform.saturatingMul asset.samples.len asset.element.byteSize

def validate (asset : BufferAsset) (limits : ProjectLimits) : Checked Unit := do
  validateBufferShape platform asset.element asset.frames asset.channels asset.sampleRate
    asset.samples.len limits
  match asset.samples with
  | .bool values =>
    refuseIf (values.any (· > 1)) (ascii "Onda bool buffer values must be exactly 0 or 1")
  | _ => return ()

/-- `content_digest`: the hasher is updated with one visited slice after another. -/
def contentDigest (asset : BufferAsset) : Checked Digest := do
  let visited ← asset.samples.visitCanonicalLeBytes
  return platform.sha256 (visited.foldl (· ++ ·)
    (bufferContentHasher asset.element asset.frames asset.channels asset.sampleRate))

end BufferAsset

/-! ### The container -/

/-- `encode_ondabuffer`. -/
def encodeOndabuffer (asset : BufferAsset) : Checked Bytes := do
  asset.validate platform .default
  let payloadLen := asset.payloadBytes platform
  let digest ← asset.contentDigest platform
  let payload ← asset.samples.canonicalLeBytes
  return ONDA_BUFFER_MAGIC ++ littleEndian 4 ONDA_BUFFER_FORMAT_VERSION.toNat ++
    [asset.element.tag] ++ [0, 0, 0] ++ littleEndian 4 asset.frames.toNat ++
    littleEndian 4 asset.channels.toNat ++ littleEndian 4 asset.sampleRate.toNat ++
    littleEndian 8 payloadLen ++ digest.val ++ payload

/-- A little-endian field of `width` bytes: the shared body of `read_u32` and `read_u64`. -/
def readWord (width : Nat) (bytes : Bytes) (offset : Nat) : Checked Nat := do
  let stop ← okOr (ascii "Onda buffer header offset overflows")
    (platform.checkedAdd offset width)
  let field ← okOr (ascii "Onda buffer header is truncated") (getRange bytes offset stop)
  return ofLittleEndian field

/-- `read_u32`. -/
def readU32 (bytes : Bytes) (offset : Nat) : Checked UInt32 := do
  let value ← readWord platform 4 bytes offset
  return UInt32.ofNat value

/-- `read_u64`. -/
def readU64 (bytes : Bytes) (offset : Nat) : Checked Nat := readWord platform 8 bytes offset

/-- `OndabufferHeader` with the `BufferAssetMetadata` in it. -/
structure OndabufferHeader where
  element : BufferElement
  frames : UInt32
  channels : UInt32
  sampleRate : UInt32
  payloadBytes : Nat
  expectedDigest : Bytes
deriving DecidableEq

/-- `parse_ondabuffer_header`. -/
def parseOndabufferHeader (bytes : Bytes) (fileLen : Nat) (limits : ProjectLimits) :
    Checked OndabufferHeader := do
  refuseIf (bytes.length < ONDA_BUFFER_HEADER_BYTES)
    (ascii "file is not an Onda buffer asset")
  let magic ← slice bytes 0 8
  refuseIf (magic ≠ ONDA_BUFFER_MAGIC) (ascii "file is not an Onda buffer asset")
  let version ← readU32 platform bytes 8
  refuseIf (version ≠ ONDA_BUFFER_FORMAT_VERSION)
    (ascii "unsupported Onda buffer format version " ++ decimal version.toNat)
  let reserved ← slice bytes 13 16
  refuseIf (reserved ≠ [0, 0, 0]) (ascii "Onda buffer header contains nonzero reserved bytes")
  let tag ← index bytes 12
  let element ← BufferElement.fromTag tag
  let frames ← readU32 platform bytes 16
  let channels ← readU32 platform bytes 20
  let sampleRate ← readU32 platform bytes 24
  let payloadLenU64 ← readU64 platform bytes 28
  let payloadLen ← okOr (ascii "Onda buffer payload length does not fit this host")
    (platform.usizeTryFrom payloadLenU64)
  refuseIf (payloadLen > limits.maxAssetBytes)
    (ascii "Onda buffer payload exceeds the " ++ decimal limits.maxAssetBytes ++
      ascii " byte limit")
  let expectedTotal ← okOr (ascii "Onda buffer file length overflows")
    (platform.checkedAdd ONDA_BUFFER_HEADER_BYTES payloadLen)
  refuseIf (fileLen ≠ expectedTotal)
    (ascii "Onda buffer file declares " ++ decimal payloadLen ++
      ascii " payload bytes but has " ++ decimal (fileLen - ONDA_BUFFER_HEADER_BYTES))
  refuseIf (payloadLen % element.byteSize ≠ 0)
    (ascii "Onda buffer payload is not aligned to its element type")
  let elementCount := payloadLen / element.byteSize
  validateBufferShape platform element frames channels sampleRate elementCount limits
  let expectedDigest ← slice bytes 36 68
  return { element, frames, channels, sampleRate, payloadBytes := payloadLen, expectedDigest }

/-- `ValidatedOndabuffer`. -/
structure ValidatedOndabuffer where
  element : BufferElement
  frames : UInt32
  channels : UInt32
  sampleRate : UInt32
  payload : Bytes
  contentDigest : Digest
deriving DecidableEq

/-- `validate_ondabuffer`. -/
def validateOndabuffer (bytes : Bytes) (limits : ProjectLimits) :
    Checked ValidatedOndabuffer := do
  let header ← parseOndabufferHeader platform bytes bytes.length limits
  let payload ← slice bytes ONDA_BUFFER_HEADER_BYTES bytes.length
  refuseIf (header.element = .bool ∧ payload.any (· > 1))
    (ascii "Onda bool buffer payload contains a value other than 0 or 1")
  let contentDigest := platform.sha256
    (bufferContentHasher header.element header.frames header.channels header.sampleRate ++
      payload)
  refuseIf (header.expectedDigest ≠ contentDigest.val)
    (ascii "Onda buffer content digest mismatch")
  return {
    element := header.element, frames := header.frames, channels := header.channels,
    sampleRate := header.sampleRate, payload, contentDigest }

/-- `ValidatedOndabuffer::decode`. -/
def ValidatedOndabuffer.decode (buffer : ValidatedOndabuffer) : Checked BufferAsset := do
  let samples ← BufferSamples.fromCanonicalLeBytes buffer.element buffer.payload
  return {
    frames := buffer.frames, channels := buffer.channels, sampleRate := buffer.sampleRate
    samples }

/-- `decode_ondabuffer`. -/
def decodeOndabuffer (bytes : Bytes) (limits : ProjectLimits) : Checked BufferAsset := do
  let validated ← validateOndabuffer platform bytes limits
  validated.decode

end Onda.Project
