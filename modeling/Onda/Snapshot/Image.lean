import Onda.Lib.Places
import Onda.Mir.Validate
import Onda.Snapshot.Normalize

/-!
# Snapshots of state

The state of a program lies in one image, slot by slot, with padding.  A snapshot holds the slots
that persist, packed and least significant byte first; the other slots are scratch storage and
mirrors of control outputs.  Restoring lays a snapshot over an image that is freshly initialized.
-/

namespace Onda.Snapshot

open Mir Regions

/-- `primitive_type_bytes`. -/
def primitiveTypeBytes : ScalarType → Nat
  | .f32 | .i32 => 4
  | .f64 | .i64 => 8
  | .bool => 1

/-- `scalar_array_shape`. -/
def scalarArrayShape (program : Program) (ty : TypeId) : Option (ScalarType × Nat) :=
  match program.types[ty]? with
  | some (.scalar element) => some (element, 1)
  | some (.array element len) =>
    match program.types[element]? with
    | some (.scalar element) => some (element, len)
    | _ => none
  | _ => none

/-- `DeclaredState`. -/
structure DeclaredState where
  name : String
  elemTy : ScalarType
  arrayLen : Nat
  byteOffset : Nat
  storageByteOffset : Nat
  integerRange : Option IntegerRangeInvariant

def DeclaredState.byteSize (entry : DeclaredState) : Nat :=
  primitiveTypeBytes entry.elemTy * entry.arrayLen

/-- Sizes are `usize`. -/
def usize (size : Nat) : Option Nat := if size < 2 ^ 64 then some size else none

/-- The loop of `build_state_entries`: the slots with their storage offsets, from a snapshot offset
on. -/
def buildStateEntries (program : Program) (controlOffsets : List Nat) :
    List (StateSlot × Nat) → Nat → Option (List DeclaredState)
  | [], _ => some []
  | (slot, offset) :: slots, snapshotOffset =>
    if slot.persistence = .instanceScratch || controlOffsets.contains offset then
      buildStateEntries program controlOffsets slots snapshotOffset
    else
      (scalarArrayShape program slot.ty).bind fun shape =>
        (usize (primitiveTypeBytes shape.1 * shape.2)).bind fun byteSize =>
          (usize (snapshotOffset + byteSize)).bind fun next =>
            (buildStateEntries program controlOffsets slots next).map fun entries =>
              ⟨slot.name, shape.1, shape.2, snapshotOffset, offset, slot.integerRange⟩ :: entries

/-- `StateSnapshotSegment`. -/
structure StateSnapshotSegment where
  snapshotOffset : Nat
  stateOffset : Nat
  byteSize : Nat
  elementSize : Nat
  integerRange : Option IntegerRangeInvariant

def buildSnapshotSegments (entries : List DeclaredState) : List StateSnapshotSegment :=
  entries.map fun entry =>
    ⟨entry.byteOffset, entry.storageByteOffset, entry.byteSize, primitiveTypeBytes entry.elemTy,
      entry.integerRange⟩

def snapshotSizeBytes (segments : List StateSnapshotSegment) : Nat :=
  match segments.getLast? with
  | some segment => segment.snapshotOffset + segment.byteSize
  | none => 0

/-! ### The native host -/

/-- Elements with their bytes in the other order. -/
def swapElements (size : Nat) : Nat → List UInt8 → List UInt8
  | 0, _ => []
  | count + 1, bytes => (bytes.take size).reverse ++ swapElements size count (bytes.drop size)

/-- `copy_snapshot_segment`, on a host of either byte order. -/
def copySnapshotSegment (bigEndian : Bool) (source : List UInt8) (elementSize : Nat) :
    List UInt8 :=
  if bigEndian = false ∨ elementSize = 1 then source
  else swapElements elementSize (source.length / elementSize) source

/-- A native integer. -/
def fromNative (bigEndian : Bool) (width : Nat) (bytes : List UInt8) : Int :=
  (Wire.bytesWord width (if bigEndian then bytes.reverse else bytes)).toInt

def toNative (bigEndian : Bool) (width : Nat) (value : Int) : List UInt8 :=
  let bytes := Wire.wordBytes width (BitVec.ofInt (8 * width) value)
  if bigEndian then bytes.reverse else bytes

/-- `normalize_integer_snapshot_value`; bytes of another size panic. -/
def normalizeIntegerSnapshotValue (bigEndian : Bool) (bytes : List UInt8)
    (range : IntegerRangeInvariant) : Option (List UInt8) :=
  match range.min, range.max with
  | .i32 min, .i32 max =>
    if bytes.length = 4 then
      (normalize (fromNative bigEndian 4 bytes) min.toInt max.toInt range.mode).map
        (toNative bigEndian 4)
    else none
  | .i64 min, .i64 max =>
    if bytes.length = 8 then
      (normalize (fromNative bigEndian 8 bytes) min.toInt max.toInt range.mode).map
        (toNative bigEndian 8)
    else none
  | _, _ => none

/-- A segment lies in the image and in the snapshot. -/
def StateSnapshotSegment.inside (segment : StateSnapshotSegment) (image snapshot : List UInt8) :
    Bool :=
  segment.stateOffset + segment.byteSize ≤ image.length &&
    segment.snapshotOffset + segment.byteSize ≤ snapshot.length

/-- The loop of `write_state_snapshot`. -/
def writeSegments (bigEndian : Bool) (image : List UInt8) :
    List StateSnapshotSegment → List UInt8 → Option (List UInt8)
  | [], destination => some destination
  | segment :: segments, destination =>
    if segment.inside image destination then
      writeSegments bigEndian image segments
        (write destination segment.snapshotOffset
          (copySnapshotSegment bigEndian (read image segment.stateOffset segment.byteSize)
            segment.elementSize))
    else none

def writeStateSnapshot (bigEndian : Bool) (segments : List StateSnapshotSegment)
    (image destination : List UInt8) : Option (List UInt8) :=
  if destination.length = snapshotSizeBytes segments then
    writeSegments bigEndian image segments destination
  else none

/-- One round of the loop of `overlay_state_snapshot`. -/
def overlaySegment (bigEndian : Bool) (snapshot image : List UInt8)
    (segment : StateSnapshotSegment) : Option (List UInt8) :=
  if segment.inside image snapshot then
    let copied := write image segment.stateOffset
      (copySnapshotSegment bigEndian (read snapshot segment.snapshotOffset segment.byteSize)
        segment.elementSize)
    match segment.integerRange with
    | none => some copied
    | some range =>
      (normalizeIntegerSnapshotValue bigEndian (read copied segment.stateOffset segment.byteSize)
        range).map (write copied segment.stateOffset)
  else none

def overlaySegments (bigEndian : Bool) (snapshot : List UInt8) :
    List StateSnapshotSegment → List UInt8 → Option (List UInt8)
  | [], image => some image
  | segment :: segments, image =>
    (overlaySegment bigEndian snapshot image segment).bind
      (overlaySegments bigEndian snapshot segments)

/-- `overlay_state_snapshot`. -/
def overlayStateSnapshot (bigEndian : Bool) (segments : List StateSnapshotSegment)
    (image snapshot : List UInt8) : Option (List UInt8) :=
  if snapshot.length = snapshotSizeBytes segments then
    overlaySegments bigEndian snapshot segments image
  else none

/-- `restore_state_snapshot`: `init` is the full initialization, which may fail. -/
def restoreStateSnapshot (bigEndian : Bool) (segments : List StateSnapshotSegment)
    (init : List UInt8 → Option (List UInt8)) (image snapshot : List UInt8) :
    Option (List UInt8) :=
  if snapshot.length = snapshotSizeBytes segments then
    (init image).bind fun fresh => overlayStateSnapshot bigEndian segments fresh snapshot
  else none

/-! ### The worklet -/

/-- `IntegerRangeMetadata`; an endpoint is the decimal text of an integer. -/
structure IntegerRangeMetadata where
  min : Int
  max : Int
  mode : IntegerRangeMode

/-- `AotStateMetadata`. -/
structure StateMetadata where
  name : String
  scalar : ScalarType
  arrayLen : Nat
  packedSnapshotByteOffset : Nat
  physicalStateByteOffset : Nat
  byteSize : Nat
  integerRange : Option IntegerRangeMetadata

/-- The endpoint of a range. -/
def endpoint : ScalarValue → Option Int
  | .i32 value => some value.toInt
  | .i64 value => some value.toInt
  | _ => none

/-- `map_state_metadata`; an endpoint that is not an integer panics. -/
def mapStateMetadata (state : DeclaredState) : Option StateMetadata :=
  let mapped (range : Option IntegerRangeMetadata) : StateMetadata :=
    ⟨state.name, state.elemTy, state.arrayLen, state.byteOffset, state.storageByteOffset,
      state.byteSize, range⟩
  match state.integerRange with
  | none => some (mapped none)
  | some range =>
    (endpoint range.min).bind fun min =>
      (endpoint range.max).map fun max => mapped (some ⟨min, max, range.mode⟩)

/-- `normalizeSnapshotIntegerRange`, on the bytes of a segment. -/
def normalizeSnapshotIntegerRange (entry : StateMetadata) (bytes : List UInt8) :
    Option (List UInt8) :=
  match entry.integerRange with
  | none => some bytes
  | some range =>
    if entry.arrayLen = 1 then
      match entry.scalar with
      | .i32 =>
        if entry.byteSize = 4 then
          (normalizeNumber (fromNative false 4 bytes) range.min range.max range.mode).map
            (toNative false 4)
        else none
      | .i64 =>
        if entry.byteSize = 8 then
          (normalizeBigInt (fromNative false 8 bytes) range.min range.max range.mode).map
            (toNative false 8)
        else none
      | _ => none
    else none

/-- The largest integer up to which numbers are exact. -/
def maxSafeInteger : Nat := 2 ^ 53 - 1

/-- `validateSnapshotEntry`. -/
def validateSnapshotEntry (entry : StateMetadata) (image snapshot : List UInt8) : Bool :=
  entry.packedSnapshotByteOffset ≤ maxSafeInteger &&
    entry.physicalStateByteOffset ≤ maxSafeInteger && entry.byteSize ≤ maxSafeInteger &&
    entry.packedSnapshotByteOffset + entry.byteSize ≤ snapshot.length &&
    entry.physicalStateByteOffset + entry.byteSize ≤ image.length

/-- The loop of `restoreSnapshot`. -/
def restoreEntries (snapshot : List UInt8) : List StateMetadata → List UInt8 → Option (List UInt8)
  | [], image => some image
  | entry :: entries, image =>
    if validateSnapshotEntry entry image snapshot then
      let copied := write image entry.physicalStateByteOffset
        (read snapshot entry.packedSnapshotByteOffset entry.byteSize)
      (normalizeSnapshotIntegerRange entry
        (read copied entry.physicalStateByteOffset entry.byteSize)).bind fun bytes =>
          restoreEntries snapshot entries (write copied entry.physicalStateByteOffset bytes)
    else none

/-- `restoreSnapshot`. -/
def restoreSnapshot (entries : List StateMetadata) (snapshotSize : Nat)
    (init : List UInt8 → Option (List UInt8)) (image snapshot : List UInt8) :
    Option (List UInt8) :=
  if snapshot.length = snapshotSize then (init image).bind (restoreEntries snapshot entries)
  else none

/-! ### What snapshots should do -/

/-- What is validated of the state slots of a program, and of its mirrors. -/
structure ValidState (program : Program) : Prop where
  arrays : ∀ element len, MirType.array element len ∈ program.types → len ≠ 0
  ranges : ∀ slot ∈ program.state, ∀ range, slot.integerRange = some range →
    Validate.integerRangeValidationError program range slot.ty = none
  mirrors : Validate.validateControlOutputMirrors program = []
  /-- Other slots have no descriptor. -/
  shapes : ∀ slot ∈ program.state, slot.persistence ≠ .instanceScratch →
    (scalarArrayShape program slot.ty).isSome

/-- The physical layout of the state: an offset and a size for every slot. -/
structure StateLayout (program : Program) where
  places : List (Nat × Nat)
  size : Nat
  complete : places.length = program.state.length
  sized : ∀ entry ∈ program.state.zip places, ∀ shape,
    scalarArrayShape program entry.1.ty = some shape →
      entry.2.2 = primitiveTypeBytes shape.1 * shape.2
  inside : ∀ entry ∈ program.state.zip places, entry.2.1 + entry.2.2 ≤ size
  disjoint : (program.state.zip places).Pairwise fun first second => Apart first.2 second.2

variable {program : Program} (layout : StateLayout program)

/-- The slots with their places. -/
def StateLayout.slots : List (StateSlot × (Nat × Nat)) := program.state.zip layout.places

/-- `control_offsets`. -/
def StateLayout.controlOffsets : List Nat :=
  program.interface.controlOutputs.filterMap fun output =>
    layout.places[output.mirror]?.map (·.1)

/-- The entries of a program that has a layout. -/
def StateLayout.entries : Option (List DeclaredState) :=
  buildStateEntries program layout.controlOffsets (layout.slots.map fun slot => (slot.1, slot.2.1))
    0

/-- The segments tile the snapshot between two offsets. -/
def Tiles : Nat → Nat → List StateSnapshotSegment → Prop
  | first, last, [] => first = last
  | first, last, segment :: segments =>
    segment.snapshotOffset = first ∧ 0 < segment.byteSize ∧
      Tiles (first + segment.byteSize) last segments

/-- The place of a segment in the image. -/
def StateSnapshotSegment.place (segment : StateSnapshotSegment) : Nat × Nat :=
  (segment.stateOffset, segment.byteSize)

/-- The width of the integers of a range. -/
def rangeWidth (range : IntegerRangeInvariant) : Nat := primitiveTypeBytes range.min.ty

/-- The integers of an initialized image are in their ranges. -/
def Initialized (bigEndian : Bool) (image : List UInt8) : Prop :=
  image.length = layout.size ∧
    ∀ slot ∈ layout.slots, slot.1.persistence = .snapshot → ∀ range min max,
      slot.1.integerRange = some range → endpoint range.min = some min →
        endpoint range.max = some max →
          min ≤ fromNative bigEndian (rangeWidth range) (read image slot.2.1 slot.2.2) ∧
            fromNative bigEndian (rangeWidth range) (read image slot.2.1 slot.2.2) ≤ max

/-- Snapshots of a program hold the state that persists, and both hosts restore it. -/
structure Exact (entries : List DeclaredState) : Prop where
  tiles : Tiles 0 (snapshotSizeBytes (buildSnapshotSegments entries))
    (buildSnapshotSegments entries)
  apart : (buildSnapshotSegments entries).Pairwise fun first second =>
    Apart first.place second.place
  /-- The segments are the slots that persist. -/
  persistent : (buildSnapshotSegments entries).map (·.place) =
    (layout.slots.filter fun slot => slot.1.persistence = .snapshot).map (·.2)
  /-- A snapshot of an initialized image, restored over whatever another instance held. -/
  roundTrip : ∀ bigEndian image destination init other fresh,
    Initialized layout bigEndian image →
      destination.length = snapshotSizeBytes (buildSnapshotSegments entries) →
        init other = some fresh → fresh.length = layout.size →
          ∃ snapshot restored,
            writeStateSnapshot bigEndian (buildSnapshotSegments entries) image destination =
                some snapshot ∧
              restoreStateSnapshot bigEndian (buildSnapshotSegments entries) init other snapshot =
                some restored ∧
              ∀ slot ∈ layout.slots, read restored slot.2.1 slot.2.2 =
                read (if slot.1.persistence = .snapshot then image else fresh) slot.2.1 slot.2.2
  /-- Any bytes are restored, and integers end in their ranges. -/
  normalized : ∀ bigEndian init other fresh snapshot,
    snapshot.length = snapshotSizeBytes (buildSnapshotSegments entries) →
      init other = some fresh → fresh.length = layout.size →
        ∃ restored,
          restoreStateSnapshot bigEndian (buildSnapshotSegments entries) init other snapshot =
              some restored ∧
            ∀ segment ∈ buildSnapshotSegments entries, ∀ range,
              segment.integerRange = some range → ∃ min max,
                endpoint range.min = some min ∧ endpoint range.max = some max ∧
                  Normalizes
                    (fromNative false (rangeWidth range)
                      (read snapshot segment.snapshotOffset segment.byteSize))
                    min max range.mode
                    (fromNative bigEndian (rangeWidth range)
                      (read restored segment.stateOffset segment.byteSize))
  /-- The worklet restores the same image.  Its arrays are no longer than numbers are exact. -/
  worklet : ∃ metadata, entries.mapM mapStateMetadata = some metadata ∧
    ∀ init other fresh snapshot, init other = some fresh → fresh.length = layout.size →
      layout.size ≤ maxSafeInteger → snapshot.length ≤ maxSafeInteger →
        restoreSnapshot metadata (snapshotSizeBytes (buildSnapshotSegments entries)) init other
            snapshot =
          restoreStateSnapshot false (buildSnapshotSegments entries) init other snapshot

end Onda.Snapshot
