import Onda.Lib.Eval
import Onda.Project.Image

/-!
# The project image container

A binary header, a JSON manifest, and the sample payloads of all assets one
after another.  The reader records when it hands bytes to a decoder, so that
the limits can be compared with what was decoded.

### The manifest
-/

namespace Onda.Project

open Structured (Eval)
open Wire (littleEndian ofLittleEndian)

/-- `ONDA_PROJECT_IMAGE_FORMAT_VERSION`. -/
def ONDA_PROJECT_IMAGE_FORMAT_VERSION : UInt32 := 2

/-- `ONDA_PROJECT_IMAGE_MAGIC`. -/
def ONDA_PROJECT_IMAGE_MAGIC : Bytes := ascii "ONDAPRJ" ++ [0]

/-- `ONDA_PROJECT_IMAGE_HEADER_BYTES`. -/
def ONDA_PROJECT_IMAGE_HEADER_BYTES : Nat := 8 + 4 + 8

/-- `WireAsset`. -/
structure WireAsset where
  id : AssetId
  element : BufferElement
  frames : UInt32
  channels : UInt32
  sampleRateBits : UInt32
  payloadBytes : Nat

/-- `WireProjectImage`. -/
structure WireProjectImage where
  format : Bytes
  formatVersion : UInt32
  contentDigest : Text
  sources : SourceImage
  constants : OrderedMap Text ProjectConstValue
  bufferBindings : OrderedMap Text AssetId
  assets : List WireAsset

/-- What `serde_json` is used for on the manifest. -/
structure ManifestJson where
  /-- The pieces `serde_json::to_writer` writes. -/
  toWriter : WireProjectImage → List Bytes
  /-- `serde_json::from_slice`, with the message of its error. -/
  fromSlice : Bytes → Except Bytes WireProjectImage

/-- `BoundedBytes::write_all`, piece by piece: nothing when the limit is exceeded. -/
def writeBounded (limit : Nat) : List Bytes → Bytes → Option Bytes
  | [], written => some written
  | piece :: pieces, written =>
    if piece.length > limit - written.length then none
    else writeBounded limit pieces (written ++ piece)

variable (platform : Platform) (json : Json) (manifestJson : ManifestJson)

/-- The descriptor `serialize_with_limits` makes of an asset. -/
def describeAsset (entry : AssetId × BufferAsset) : WireAsset where
  id := entry.1
  element := entry.2.element
  frames := entry.2.frames
  channels := entry.2.channels
  sampleRateBits := entry.2.sampleRate
  payloadBytes := entry.2.payloadBytes platform

/-- The record `serialize_with_limits` writes. -/
def ProjectImage.wire (image : ProjectImage) : WireProjectImage where
  format := ascii "onda-project-image"
  formatVersion := ONDA_PROJECT_IMAGE_FORMAT_VERSION
  contentDigest := digestText (image.calculateContentDigest platform json)
  sources := image.sources
  constants := image.constants
  bufferBindings := image.bufferBindings
  assets := image.assets.entries.map (describeAsset platform)

/-! ### Writing -/

/-- `try_fold` with `checked_add` over the payload sizes. -/
def sumPayloads : List (AssetId × BufferAsset) → Nat → Option Nat
  | [], total => some total
  | entry :: entries, total => do
    let total ← platform.checkedAdd total (entry.2.payloadBytes platform)
    sumPayloads entries total

/-- A vector of `size` bytes: `Vec` panics beyond `isize::MAX`. -/
def allocate (size : Nat) : Checked Unit :=
  if size ≤ platform.usizeMax / 2 then .ok () else .error .panicked

/-- The payload loop of `serialize_with_limits`. -/
def appendPayloads : List (AssetId × BufferAsset) → Checked Bytes
  | [] => .ok []
  | entry :: entries => do
    let payload ← entry.2.samples.canonicalLeBytes
    let rest ← appendPayloads entries
    return payload ++ rest

/-- `ProjectImage::serialize_with_limits`. -/
def ProjectImage.serializeWithLimits (image : ProjectImage) (limits : ProjectLimits) :
    Checked Bytes := do
  image.validate platform limits
  let manifest ← okOr (ascii "project image manifest exceeds the " ++
      decimal limits.maxManifestBytes ++ ascii " byte limit")
    (writeBounded limits.maxManifestBytes (manifestJson.toWriter (image.wire platform json)) [])
  let assetBytes ← okOr (ascii "project image length overflows")
    (sumPayloads platform image.assets.entries 0)
  allocate platform (ONDA_PROJECT_IMAGE_HEADER_BYTES + manifest.length + assetBytes)
  let payloads ← appendPayloads image.assets.entries
  return ONDA_PROJECT_IMAGE_MAGIC ++ littleEndian 4 ONDA_PROJECT_IMAGE_FORMAT_VERSION.toNat ++
    littleEndian 8 manifest.length ++ manifest ++ payloads

/-! ### Reading -/

/-- A call to a decoder, with the number of bytes it is given. -/
inductive DecodeEvent where
  | manifest (bytes : Nat)
  | payload (bytes : Nat)
deriving DecidableEq

/-- A reader that records its decoder calls. -/
abbrev Reading (α : Type) := Eval Unit DecodeEvent Failure α

/-- A step that decodes nothing. -/
def quietly {α : Type} (step : Checked α) : Reading α := fun _ => ([], step)

/-- `read_u32` and `read_u64` of the image header. -/
def readImageWord (width : Nat) (bytes : Bytes) (offset : Nat) : Checked Nat := do
  let field ← okOr (ascii "project image header is truncated")
    (getRange bytes offset (min (offset + width) platform.usizeMax))
  return ofLittleEndian field

/-- The asset loop of `deserialize`: the assets read and the end of the last payload. -/
def readAssets (bytes : Bytes) (limits : ProjectLimits) :
    List WireAsset → Nat → Nat → OrderedMap AssetId BufferAsset →
      Reading (OrderedMap AssetId BufferAsset × Nat)
  | [], cursor, _, assets => pure (assets, cursor)
  | descriptor :: descriptors, cursor, totalAssetBytes, assets => do
    let payloadLen ← quietly (okOr (ascii "asset payload length does not fit host")
      (platform.usizeTryFrom descriptor.payloadBytes))
    quietly (refuseIf (payloadLen > limits.maxAssetBytes)
      (ascii "project image asset exceeds its byte limit"))
    let totalAssetBytes ← quietly (okOr (ascii "project asset total overflows")
      (platform.checkedAdd totalAssetBytes payloadLen))
    quietly (refuseIf (totalAssetBytes > limits.maxTotalAssetBytes)
      (ascii "project image assets exceed their total byte limit"))
    let stop ← quietly (okOr (ascii "project asset extent overflows")
      (platform.checkedAdd cursor payloadLen))
    let payload ← quietly (okOr (ascii "project image asset payload is truncated")
      (getRange bytes cursor stop))
    Eval.emit (.payload payload.length)
    let samples ← quietly (BufferSamples.fromCanonicalLeBytes descriptor.element payload)
    let asset : BufferAsset := {
      frames := descriptor.frames, channels := descriptor.channels
      sampleRate := descriptor.sampleRateBits, samples }
    quietly (asset.validate platform limits)
    let expected ← quietly (AssetId.forBuffer platform asset)
    quietly (refuseIf (descriptor.id ≠ expected) (ascii "project image asset digest mismatch"))
    quietly (refuseIf ((assets.get? descriptor.id).isSome)
      (ascii "project image contains duplicate asset IDs"))
    readAssets bytes limits descriptors stop totalAssetBytes
      (assets.insert descriptor.id asset)

/-- `left.path.cmp(&right.path)`. -/
def pathLe (left right : SourceDocument) : Prop := left.path ≤ right.path

instance : DecidableRel pathLe := fun left right =>
  inferInstanceAs (Decidable (left.path ≤ right.path))

instance : Std.Total pathLe := ⟨fun left right => le_total left.path right.path⟩

instance : IsTrans SourceDocument pathLe :=
  ⟨fun _ _ _ less less' => le_trans (α := Text) less less'⟩

/-- The image `deserialize` builds: documents and resolutions are sorted. -/
def ProjectImage.ofSorted (sources : SourceImage)
    (constants : OrderedMap Text ProjectConstValue)
    (bufferBindings : OrderedMap Text AssetId) (assets : OrderedMap AssetId BufferAsset) :
    ProjectImage where
  sources := { sources with
    documents := sources.documents.insertionSort pathLe
    resolutions := sources.resolutions.insertionSort (· ≤ ·) }
  constants
  bufferBindings
  assets
  documents_sorted := List.pairwise_insertionSort pathLe _
  resolutions_sorted := List.pairwise_insertionSort (· ≤ ·) _

/-- `ProjectImage::deserialize`. -/
def ProjectImage.deserialize (bytes : Bytes) (limits : ProjectLimits) :
    Reading ProjectImage := do
  quietly (refuseIf (bytes.length < ONDA_PROJECT_IMAGE_HEADER_BYTES)
    (ascii "data is not an Onda project image"))
  let magic ← quietly (slice bytes 0 8)
  quietly (refuseIf (magic ≠ ONDA_PROJECT_IMAGE_MAGIC)
    (ascii "data is not an Onda project image"))
  let version ← quietly (readImageWord platform 4 bytes 8)
  quietly (refuseIf (version ≠ ONDA_PROJECT_IMAGE_FORMAT_VERSION.toNat)
    (ascii "unsupported Onda project image version " ++ decimal version))
  let manifestLenU64 ← quietly (readImageWord platform 8 bytes 12)
  let manifestLen ← quietly (okOr
    (ascii "project image manifest length does not fit host")
    (platform.usizeTryFrom manifestLenU64))
  quietly (refuseIf (manifestLen > limits.maxManifestBytes)
    (ascii "project image manifest exceeds the " ++ decimal limits.maxManifestBytes ++
      ascii " byte limit"))
  let manifestEnd ← quietly (okOr (ascii "project image manifest length overflows")
    (platform.checkedAdd ONDA_PROJECT_IMAGE_HEADER_BYTES manifestLen))
  let manifestBytes ← quietly (okOr (ascii "project image manifest is truncated")
    (getRange bytes ONDA_PROJECT_IMAGE_HEADER_BYTES manifestEnd))
  Eval.emit (.manifest manifestBytes.length)
  let wire ← quietly (match manifestJson.fromSlice manifestBytes with
    | .ok wire => .ok wire
    | .error message => reject message)
  quietly (refuseIf (wire.format ≠ ascii "onda-project-image" ∨
      wire.formatVersion ≠ ONDA_PROJECT_IMAGE_FORMAT_VERSION)
    (ascii "project image manifest has an unsupported format"))
  quietly (refuseIf (wire.assets.length > limits.maxAssets)
    (ascii "project image contains too many assets"))
  let (assets, cursor) ← readAssets platform bytes limits wire.assets manifestEnd 0 .empty
  quietly (refuseIf (cursor ≠ bytes.length)
    (ascii "project image contains trailing unreferenced bytes"))
  let image := ProjectImage.ofSorted wire.sources wire.constants wire.bufferBindings assets
  quietly (image.validate platform limits)
  quietly (refuseIf (wire.contentDigest ≠ digestText (image.calculateContentDigest platform json))
    (ascii "project image content digest mismatch"))
  return image

end Onda.Project
