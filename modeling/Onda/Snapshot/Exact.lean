import Onda.Mir.Minimal
import Onda.Snapshot.Image

/-!
# Snapshots are exact

A restored image is a row of writes to the places of the segments, and each piece is a function of
the snapshot.
-/

namespace Onda.Snapshot

open Mir Regions

/-! ### Bytes of elements and integers -/

variable {bigEndian : Bool} {entry : DeclaredState} {range : IntegerRangeInvariant}
  {slots : List (StateSlot × (Nat × Nat))} {entries : List DeclaredState}
  {segments : List StateSnapshotSegment} {bytes destination image snapshot : List UInt8}
  {first last width : Nat} {metadata : StateMetadata} {slot : StateSlot × (Nat × Nat)}
  {segment : StateSnapshotSegment}

theorem length_swapElements {size count : Nat} (whole : bytes.length = size * count) :
    (swapElements size count bytes).length = bytes.length := by
  induction count generalizing bytes with
  | zero =>
    rw [whole]
    rfl
  | succ count ih =>
    rw [Nat.mul_succ] at whole
    have rest : (bytes.drop size).length = size * count := by
      rw [List.length_drop]
      omega
    rw [swapElements, List.length_append, List.length_reverse, ih rest, List.length_take,
      List.length_drop]
    omega

/-- Elements that are swapped twice are as before. -/
theorem swapElements_swapElements {size count : Nat} (whole : bytes.length = size * count) :
    swapElements size count (swapElements size count bytes) = bytes := by
  induction count generalizing bytes with
  | zero =>
    rw [Nat.mul_zero] at whole
    rw [List.length_eq_zero_iff.mp whole]
    rfl
  | succ count ih =>
    rw [Nat.mul_succ] at whole
    have front : ((bytes.take size).reverse).length = size := by
      rw [List.length_reverse, List.length_take]
      omega
    have rest : (bytes.drop size).length = size * count := by
      rw [List.length_drop]
      omega
    rw [swapElements, swapElements, List.take_left' front, List.drop_left' front, ih rest,
      List.reverse_reverse, List.take_append_drop]

theorem length_copy {bigEndian : Bool} {source : List UInt8} {elementSize : Nat}
    (whole : elementSize ∣ source.length) :
    (copySnapshotSegment bigEndian source elementSize).length = source.length := by
  unfold copySnapshotSegment
  split
  · rfl
  · exact length_swapElements (Nat.mul_div_cancel' whole).symm

/-- A copy to a snapshot and back. -/
theorem copy_copy {bigEndian : Bool} {source : List UInt8} {elementSize : Nat}
    (whole : elementSize ∣ source.length) :
    copySnapshotSegment bigEndian (copySnapshotSegment bigEndian source elementSize)
      elementSize = source := by
  have length := @length_copy bigEndian _ _ whole
  unfold copySnapshotSegment at length ⊢
  split
  · rfl
  · rename_i swaps
    rw [if_neg swaps] at length
    rw [length]
    exact swapElements_swapElements (Nat.mul_div_cancel' whole).symm

/-- One element is turned around. -/
theorem copy_one {source : List UInt8} (one : source.length = width) (wide : 0 < width) :
    copySnapshotSegment bigEndian source width =
      if bigEndian then source.reverse else source := by
  unfold copySnapshotSegment
  cases bigEndian with
  | false => simp
  | true =>
    simp only [Bool.true_eq_false, false_or, if_true]
    split
    · rename_i single
      obtain ⟨byte, rfl⟩ := List.length_eq_one_iff.mp (one.trans single)
      rfl
    · rw [one, Nat.div_self wide, swapElements, swapElements, List.append_nil, ← one,
        List.take_length]

theorem length_toNative (bigEndian : Bool) (width : Nat) (value : Int) :
    (toNative bigEndian width value).length = width := by
  unfold toNative
  split <;> simp

theorem toNative_fromNative (length : bytes.length = width) :
    toNative bigEndian width (fromNative bigEndian width bytes) = bytes := by
  unfold toNative fromNative
  rw [BitVec.ofInt_toInt]
  cases bigEndian with
  | false => exact Wire.wordBytes_bytesWord length
  | true =>
    simp only [if_true]
    rw [Wire.wordBytes_bytesWord (by rw [List.length_reverse, length]), List.reverse_reverse]

theorem fromNative_toNative {value : Int} (wide : 0 < width) (inBits : InBits (8 * width) value) :
    fromNative bigEndian width (toNative bigEndian width value) = value := by
  have read : ∀ bytes, bytes = Wire.wordBytes width (BitVec.ofInt (8 * width) value) →
      (Wire.bytesWord width bytes).toInt = value := by
    rintro _ rfl
    rw [Wire.bytesWord_wordBytes]
    exact BitVec.toInt_ofInt_eq_self (by omega) inBits.1 inBits.2
  unfold toNative fromNative
  cases bigEndian with
  | false => exact read _ rfl
  | true =>
    simp only [if_true]
    exact read _ (List.reverse_reverse _)

theorem fromNative_inBits (bigEndian : Bool) (width : Nat) (bytes : List UInt8) :
    InBits (8 * width) (fromNative bigEndian width bytes) := by
  unfold fromNative
  refine ⟨BitVec.le_toInt _, ?_⟩
  exact BitVec.toInt_lt

/-! ### Entries -/

variable {program : Program} {layout : StateLayout program}

/-- An entry describes a slot. -/
structure Describes (program : Program) (entry : DeclaredState) (slot : StateSlot × (Nat × Nat)) :
    Prop where
  shape : scalarArrayShape program slot.1.ty = some (entry.elemTy, entry.arrayLen)
  offset : entry.storageByteOffset = slot.2.1
  range : entry.integerRange = slot.1.integerRange

theorem primitiveTypeBytes_pos (scalar : ScalarType) : 0 < primitiveTypeBytes scalar := by
  cases scalar <;> decide

/-- Shapes are not empty. -/
theorem shape_pos (valid : ValidState program) {ty : TypeId} {shape : ScalarType × Nat}
    (shaped : scalarArrayShape program ty = some shape) :
    0 < primitiveTypeBytes shape.1 * shape.2 := by
  refine Nat.mul_pos (primitiveTypeBytes_pos _) (Nat.pos_of_ne_zero ?_)
  unfold scalarArrayShape at shaped
  split at shaped
  · obtain rfl := Option.some.inj shaped
    exact Nat.one_ne_zero
  · rename_i element len found
    split at shaped
    · obtain rfl := Option.some.inj shaped
      exact valid.arrays element len (List.mem_of_getElem? found)
    · cases shaped
  · cases shaped

/-- The slots that are left out are the ones that do not persist. -/
def Selects (controlOffsets : List Nat) (slots : List (StateSlot × (Nat × Nat))) : Prop :=
  ∀ slot ∈ slots, (slot.1.persistence = .instanceScratch || controlOffsets.contains slot.2.1) =
    !decide (slot.1.persistence = .snapshot)

theorem usize_eq {size checked : Nat} (fits : usize size = some checked) : checked = size := by
  unfold usize at fits
  split at fits
  · exact (Option.some.inj fits).symm
  · cases fits

/-- The entries describe the slots that persist, and their segments tile the snapshot. -/
theorem entries_describe (valid : ValidState program) {controlOffsets : List Nat}
    (selects : Selects controlOffsets slots) (built : buildStateEntries program controlOffsets
      (slots.map fun slot => (slot.1, slot.2.1)) first = some entries) :
    List.Forall₂ (Describes program) entries
        (slots.filter fun slot => slot.1.persistence = .snapshot) ∧
      ∃ last, Tiles first last (buildSnapshotSegments entries) := by
  induction slots generalizing first entries with
  | nil =>
    obtain rfl := Option.some.inj built
    exact ⟨.nil, first, rfl⟩
  | cons slot slots ih =>
    have here := selects slot List.mem_cons_self
    have later : Selects controlOffsets slots :=
      fun other mem => selects other (List.mem_cons_of_mem _ mem)
    rw [List.map_cons, buildStateEntries, here] at built
    split at built
    · rename_i skipped
      rw [List.filter_cons_of_neg (by simpa using skipped)]
      exact ih later built
    · rename_i kept
      obtain ⟨shape, shaped, built⟩ := Option.bind_eq_some_iff.mp built
      obtain ⟨byteSize, fits, built⟩ := Option.bind_eq_some_iff.mp built
      obtain ⟨next, follows, built⟩ := Option.bind_eq_some_iff.mp built
      obtain ⟨rest, tail, rfl⟩ := Option.map_eq_some_iff.mp built
      obtain ⟨described, last, tiles⟩ := ih later tail
      rw [List.filter_cons_of_pos (by simpa using kept)]
      refine ⟨.cons ⟨shaped, rfl, rfl⟩ described, last, rfl, shape_pos valid shaped, ?_⟩
      rw [usize_eq follows, usize_eq fits] at tiles
      exact tiles

/-- Both slots of a pair with one offset are one slot. -/
theorem same_offset {left right : Nat} {first second : StateSlot × (Nat × Nat)}
    (one : layout.slots[left]? = some first) (other : layout.slots[right]? = some second)
    (same : first.2.1 = second.2.1) (wide : 0 < first.2.2) (wide' : 0 < second.2.2) :
    left = right := by
  have disjoint := List.pairwise_iff_getElem.mp layout.disjoint
  obtain ⟨bound, rfl⟩ := List.getElem?_eq_some_iff.mp one
  obtain ⟨bound', rfl⟩ := List.getElem?_eq_some_iff.mp other
  rcases Nat.lt_trichotomy left right with less | eq | greater
  · have apart := disjoint left right bound bound' less
    unfold Apart at apart
    unfold StateLayout.slots at same wide wide'
    omega
  · exact eq
  · have apart := disjoint right left bound' bound greater
    unfold Apart at apart
    unfold StateLayout.slots at same wide wide'
    omega

/-- A slot, and its number. -/
theorem slot_at {index : Nat} (found : layout.slots[index]? = some slot) :
    program.state[index]? = some slot.1 ∧ layout.places[index]? = some slot.2 := by
  unfold StateLayout.slots at found
  rw [List.getElem?_zip_eq_some] at found
  exact found

theorem slot_of {index : Nat} {slot : StateSlot} (found : program.state[index]? = some slot) :
    ∃ place, layout.slots[index]? = some (slot, place) := by
  have bound : index < layout.places.length := by
    rw [layout.complete]
    exact (List.getElem?_eq_some_iff.mp found).1
  refine ⟨layout.places[index], ?_⟩
  unfold StateLayout.slots
  rw [List.getElem?_zip_eq_some]
  exact ⟨found, List.getElem?_eq_getElem bound⟩

theorem place_wide (valid : ValidState program) (mem : slot ∈ layout.slots)
    (kept : slot.1.persistence ≠ .instanceScratch) :
    0 < slot.2.2 := by
  have state : slot.1 ∈ program.state := (List.of_mem_zip mem).1
  obtain ⟨shape, shaped⟩ := Option.isSome_iff_exists.mp (valid.shapes slot.1 state kept)
  rw [layout.sized slot mem shape shaped]
  exact shape_pos valid shaped

/-- A mirror is one of a control output. -/
theorem mirror_contains (valid : ValidState program) (mem : slot ∈ layout.slots)
    (mirror : slot.1.persistence = .controlMirror) :
    slot.2.1 ∈ layout.controlOffsets := by
  obtain ⟨index, found⟩ := List.mem_iff_getElem?.mp mem
  obtain ⟨state, place⟩ := slot_at found
  have counts := (List.append_eq_nil_iff.mp valid.mirrors).2
  have count := List.flatMap_eq_nil_iff.mp counts (slot.1, index)
    (List.mem_zipIdx_iff_getElem?.mpr state)
  unfold Validate.validateMirrorCount at count
  rw [if_neg (not_not.mpr mirror)] at count
  split at count
  · cases count
  · rename_i one
    have positive : 0 < program.interface.controlOutputs.countP fun output =>
        output.mirror == index := by
      rw [one]
      exact Nat.one_pos
    obtain ⟨output, listed, same⟩ := List.countP_pos_iff.mp positive
    refine List.mem_filterMap.mpr ⟨output, listed, ?_⟩
    rw [beq_iff_eq.mp same, place]
    rfl
  · cases count

/-- A slot at the offset of a control output is a mirror. -/
theorem contains_mirror (valid : ValidState program) (mem : slot ∈ layout.slots)
    (kept : slot.1.persistence ≠ .instanceScratch) (contains : slot.2.1 ∈ layout.controlOffsets)
    : slot.1.persistence = .controlMirror := by
  obtain ⟨output, listed, offset⟩ := List.mem_filterMap.mp contains
  obtain ⟨place, placed, same⟩ := Option.map_eq_some_iff.mp offset
  have checked := List.flatMap_eq_nil_iff.mp (List.append_eq_nil_iff.mp valid.mirrors).1 output
    listed
  unfold Validate.validateControlOutputMirror at checked
  split at checked
  · cases checked
  · rename_i declared found
    have persistence : declared.persistence = .controlMirror := by
      have first := (List.append_eq_nil_iff.mp checked).1
      by_contra other
      simp [Validate.errorUnless, other] at first
    obtain ⟨place', here⟩ := @slot_of program layout _ _ found
    obtain ⟨-, placed'⟩ := slot_at here
    obtain rfl := Option.some.inj (placed.symm.trans placed')
    obtain ⟨index, there⟩ := List.mem_iff_getElem?.mp mem
    have wide := place_wide valid mem kept
    have wide' := place_wide valid (List.mem_of_getElem? here) (by
      rw [persistence]
      decide)
    have eq := same_offset there here same.symm wide wide'
    rw [eq, here] at there
    obtain rfl := Option.some.inj there
    exact persistence

theorem layout_selects (valid : ValidState program) :
    Selects layout.controlOffsets layout.slots := by
  intro slot mem
  cases persistence : slot.1.persistence with
  | instanceScratch => rfl
  | snapshot =>
    have absent : slot.2.1 ∉ layout.controlOffsets := by
      intro contains
      have mirror := contains_mirror valid mem (by rw [persistence]; decide) contains
      rw [persistence] at mirror
      cases mirror
    simpa using absent
  | controlMirror =>
    have contains := mirror_contains valid mem persistence
    simpa using contains

/-! ### Ranges -/

/-- A range that is validated for a segment. -/
inductive RangeFits : IntegerRangeInvariant → Nat → Nat → Prop where
  | i32 (min max : BitVec 32) (mode : IntegerRangeMode) (ordered : min.toInt ≤ max.toInt) :
    RangeFits ⟨.i32 min, .i32 max, mode⟩ 4 4
  | i64 (min max : BitVec 64) (mode : IntegerRangeMode) (ordered : min.toInt ≤ max.toInt) :
    RangeFits ⟨.i64 min, .i64 max, mode⟩ 8 8

theorem RangeFits.elim {byteSize elementSize : Nat} (fits : RangeFits range byteSize elementSize) :
    (∃ min max mode, range = ⟨.i32 min, .i32 max, mode⟩ ∧ min.toInt ≤ max.toInt ∧ byteSize = 4) ∨
      ∃ min max mode, range = ⟨.i64 min, .i64 max, mode⟩ ∧ min.toInt ≤ max.toInt ∧
        byteSize = 8 := by
  cases fits with
  | i32 min max mode ordered => exact .inl ⟨min, max, mode, rfl, ordered, rfl⟩
  | i64 min max mode ordered => exact .inr ⟨min, max, mode, rfl, ordered, rfl⟩

/-- A segment of whole elements, with a range that is validated. -/
structure StateSnapshotSegment.Fits (segment : StateSnapshotSegment) : Prop where
  whole : segment.elementSize ∣ segment.byteSize
  range : ∀ range, segment.integerRange = some range →
    RangeFits range segment.byteSize segment.elementSize

theorem range_fits {ty : TypeId} {shape : ScalarType × Nat}
    (shaped : scalarArrayShape program ty = some shape)
    (accepted : Validate.integerRangeValidationError program range ty = none) :
    RangeFits range (primitiveTypeBytes shape.1 * shape.2) (primitiveTypeBytes shape.1) ∧
      shape.2 = 1 ∧ range.min.ty = shape.1 := by
  obtain ⟨min, max, mode⟩ := range
  unfold Validate.integerRangeValidationError at accepted
  split at accepted
  · cases accepted
  · rename_i checked
    unfold Validate.valueRangeValidationError at checked
    dsimp only at checked accepted
    split at checked
    · rename_i expected found
      obtain rfl : shape = (expected, 1) := by
        unfold scalarArrayShape at shaped
        rw [found] at shaped
        exact (Option.some.inj shaped).symm
      split at checked
      · cases checked
      · rename_i typed
        obtain ⟨typed, -⟩ := not_or.mp typed
        obtain rfl := not_not.mp typed
        refine ⟨?_, rfl, rfl⟩
        cases min <;> cases max <;> dsimp only at checked <;>
          first
          | cases checked
          | cases accepted
        · rename_i min _ max
          refine .i32 min max mode ?_
          by_contra less
          simp [BitVec.sle, less] at checked
        · rename_i min _ max
          refine .i64 min max mode ?_
          by_contra less
          simp [BitVec.sle, less] at checked
    · cases checked

theorem describes_fits (valid : ValidState program) (described : Describes program entry slot)
    (state : slot.1 ∈ program.state) :
    StateSnapshotSegment.Fits ⟨entry.byteOffset, entry.storageByteOffset, entry.byteSize,
      primitiveTypeBytes entry.elemTy, entry.integerRange⟩ where
  whole := Nat.dvd_mul_right _ _
  range := by
    intro range ranged
    have accepted := valid.ranges slot.1 state range (described.range.symm.trans ranged)
    exact (range_fits described.shape accepted).1

/-- The native host normalizes the bytes of a segment. -/
theorem normalize_bytes (bigEndian : Bool) {byteSize elementSize : Nat}
    (fits : RangeFits range byteSize elementSize) (length : bytes.length = byteSize) :
    elementSize = byteSize ∧ rangeWidth range = byteSize ∧ 0 < byteSize ∧
      ∃ min max result, endpoint range.min = some min ∧ endpoint range.max = some max ∧
        InBits (8 * byteSize) result ∧
        Normalizes (fromNative bigEndian byteSize bytes) min max range.mode result ∧
        normalizeIntegerSnapshotValue bigEndian bytes range =
          some (toNative bigEndian byteSize result) := by
  have bounds : ∀ {bits : Nat} {value : Int} (min max : BitVec bits), min.toInt ≤ value →
      value ≤ max.toInt → InBits bits value := by
    intro bits value min max low high
    have lower := min.le_toInt
    have upper : max.toInt < 2 ^ (bits - 1) := BitVec.toInt_lt
    exact ⟨lower.trans low, high.trans_lt upper⟩
  have wider : ∀ {bits : Nat} {value : Int}, bits ≤ 64 → InBits bits value → InBits 64 value := by
    intro bits value le inBits
    have powers : (2 : Int) ^ (bits - 1) ≤ 2 ^ (64 - 1) :=
      pow_le_pow_right₀ (by decide) (by omega)
    exact ⟨(Int.neg_le_neg powers).trans inBits.1, inBits.2.trans_le powers⟩
  cases fits with
  | i32 min max mode ordered =>
    obtain ⟨result, native, meets⟩ := normalize_normalizes
      (wider (by decide) (fromNative_inBits bigEndian 4 bytes))
      (wider (by decide) (bounds min max le_rfl ordered))
      (wider (by decide) (bounds min max ordered le_rfl)) ordered mode
    refine ⟨rfl, rfl, by decide, _, _, result, rfl, rfl, bounds min max meets.1 meets.2.1,
      meets, ?_⟩
    unfold normalizeIntegerSnapshotValue
    dsimp only
    rw [if_pos length, native]
    rfl
  | i64 min max mode ordered =>
    obtain ⟨result, native, meets⟩ := normalize_normalizes
      (fromNative_inBits bigEndian 8 bytes)
      (bounds min max le_rfl ordered) (bounds min max ordered le_rfl) ordered mode
    refine ⟨rfl, rfl, by decide, _, _, result, rfl, rfl, bounds min max meets.1 meets.2.1,
      meets, ?_⟩
    unfold normalizeIntegerSnapshotValue
    dsimp only
    rw [if_pos length, native]
    rfl

/-! ### Segments -/

/-- The bytes that a segment leaves in an image. -/
def restoredBytes (bigEndian : Bool) (snapshot : List UInt8) (segment : StateSnapshotSegment) :
    Option (List UInt8) :=
  let copied := copySnapshotSegment bigEndian
    (read snapshot segment.snapshotOffset segment.byteSize) segment.elementSize
  match segment.integerRange with
  | none => some copied
  | some range => normalizeIntegerSnapshotValue bigEndian copied range

theorem restoredBytes_some (bigEndian : Bool) (fits : segment.Fits)
    (room : segment.snapshotOffset + segment.byteSize ≤ snapshot.length) :
    ∃ bytes, restoredBytes bigEndian snapshot segment = some bytes ∧
      bytes.length = segment.byteSize := by
  have size := length_read room
  have copied := @length_copy bigEndian (read snapshot segment.snapshotOffset segment.byteSize)
    segment.elementSize (by rw [size]; exact fits.whole)
  rw [size] at copied
  unfold restoredBytes
  dsimp only
  split
  · exact ⟨_, rfl, copied⟩
  · rename_i range ranged
    obtain ⟨-, -, -, _, _, result, -, -, -, -, normalized⟩ :=
      normalize_bytes bigEndian (fits.range range ranged) copied
    exact ⟨_, normalized, length_toNative _ _ _⟩

/-- A round of the loop is one write. -/
theorem overlaySegment_eq (bigEndian : Bool) (fits : segment.Fits)
    (room : segment.snapshotOffset + segment.byteSize ≤ snapshot.length)
    (place : segment.stateOffset + segment.byteSize ≤ image.length) :
    overlaySegment bigEndian snapshot image segment =
      (restoredBytes bigEndian snapshot segment).map (write image segment.stateOffset) := by
  have size := length_read room
  have copied := @length_copy bigEndian (read snapshot segment.snapshotOffset segment.byteSize)
    segment.elementSize (by rw [size]; exact fits.whole)
  rw [size] at copied
  unfold overlaySegment restoredBytes
  rw [if_pos (by simp [StateSnapshotSegment.inside, place, room])]
  cases ranged : segment.integerRange with
  | none => rfl
  | some range =>
    obtain ⟨-, -, -, _, _, result, -, -, -, -, normalized⟩ :=
      normalize_bytes bigEndian (fits.range range ranged) copied
    have back : read (write image segment.stateOffset (copySnapshotSegment bigEndian
        (read snapshot segment.snapshotOffset segment.byteSize) segment.elementSize))
        segment.stateOffset segment.byteSize =
          copySnapshotSegment bigEndian
            (read snapshot segment.snapshotOffset segment.byteSize) segment.elementSize := by
      have written := @read_write_self _ image (copySnapshotSegment bigEndian
        (read snapshot segment.snapshotOffset segment.byteSize) segment.elementSize)
        segment.stateOffset (by rw [copied]; exact place)
      rwa [copied] at written
    dsimp only
    rw [back, normalized, Option.map_some, Option.map_some]
    rw [write_write (by rw [copied]; exact place) (by rw [length_toNative, copied])]

/-- The pieces of a restored image. -/
def pieces (bigEndian : Bool) (snapshot : List UInt8) (segments : List StateSnapshotSegment) :
    List (Nat × List UInt8) :=
  segments.map fun segment =>
    (segment.stateOffset, (restoredBytes bigEndian snapshot segment).getD [])

theorem overlaySegments_eq (bigEndian : Bool) (fits : ∀ segment ∈ segments, segment.Fits)
    (room : ∀ segment ∈ segments,
      segment.snapshotOffset + segment.byteSize ≤ snapshot.length)
    (place : ∀ segment ∈ segments, segment.stateOffset + segment.byteSize ≤ image.length) :
    overlaySegments bigEndian snapshot segments image =
      some (writeAll image (pieces bigEndian snapshot segments)) := by
  induction segments generalizing image with
  | nil => rfl
  | cons segment segments ih =>
    obtain ⟨bytes, restored, length⟩ := restoredBytes_some bigEndian
      (fits segment List.mem_cons_self) (room segment List.mem_cons_self)
    have here := place segment List.mem_cons_self
    have kept : (write image segment.stateOffset bytes).length = image.length :=
      length_write (by rw [length]; exact here)
    rw [overlaySegments, overlaySegment_eq bigEndian (fits segment List.mem_cons_self)
      (room segment List.mem_cons_self) here, restored, Option.map_some, Option.bind_some,
      ih (fun other mem => fits other (List.mem_cons_of_mem _ mem))
        (fun other mem => room other (List.mem_cons_of_mem _ mem)) (by
          rw [kept]
          exact fun other mem => place other (List.mem_cons_of_mem _ mem))]
    simp only [pieces, List.map_cons, writeAll_cons, restored, Option.getD_some]

/-! ### Snapshots -/

/-- A place in a tiling. -/
theorem Tiles.bounds (tiles : Tiles first last segments) :
    first ≤ last ∧ ∀ segment ∈ segments, first ≤ segment.snapshotOffset ∧
      segment.snapshotOffset + segment.byteSize ≤ last := by
  induction segments generalizing first with
  | nil =>
    obtain rfl : first = last := tiles
    exact ⟨le_rfl, fun _ mem => by cases mem⟩
  | cons segment segments ih =>
    obtain ⟨start, positive, rest⟩ := tiles
    obtain ⟨later, rest⟩ := ih rest
    refine ⟨by omega, fun other mem => ?_⟩
    rcases List.mem_cons.mp mem with rfl | mem
    · omega
    · have bounds := rest other mem
      omega

/-- The size of a snapshot is where its tiling ends. -/
theorem Tiles.size (tiles : Tiles 0 last segments) : snapshotSizeBytes segments = last := by
  have ends : ∀ {first : Nat} (segments : List StateSnapshotSegment)
      (segment : StateSnapshotSegment), Tiles first last (segments ++ [segment]) →
        segment.snapshotOffset + segment.byteSize = last := by
    intro first segments segment tiles
    induction segments generalizing first with
    | nil =>
      obtain ⟨start, -, stop⟩ := tiles
      rw [start]
      exact stop
    | cons other segments ih => exact ih tiles.2.2
  unfold snapshotSizeBytes
  split
  · rename_i segment found
    obtain ⟨front, rfl⟩ := List.getLast?_eq_some_iff.mp found
    exact ends front segment tiles
  · rename_i none
    obtain rfl := List.getLast?_eq_none_iff.mp none
    exact tiles

/-- The pieces of a snapshot. -/
def packed (bigEndian : Bool) (image : List UInt8) (segments : List StateSnapshotSegment) :
    List (Nat × List UInt8) :=
  segments.map fun segment => (segment.snapshotOffset,
    copySnapshotSegment bigEndian (read image segment.stateOffset segment.byteSize)
      segment.elementSize)

theorem packed_length (bigEndian : Bool) (fits : segment.Fits)
    (place : segment.stateOffset + segment.byteSize ≤ image.length) :
    (copySnapshotSegment bigEndian (read image segment.stateOffset segment.byteSize)
      segment.elementSize).length = segment.byteSize := by
  have size := length_read place
  rw [length_copy (by rw [size]; exact fits.whole), size]

theorem writeSegments_eq (bigEndian : Bool) (fits : ∀ segment ∈ segments, segment.Fits)
    (room : ∀ segment ∈ segments,
      segment.snapshotOffset + segment.byteSize ≤ destination.length)
    (place : ∀ segment ∈ segments, segment.stateOffset + segment.byteSize ≤ image.length) :
    writeSegments bigEndian image segments destination =
      some (writeAll destination (packed bigEndian image segments)) := by
  induction segments generalizing destination with
  | nil => rfl
  | cons segment segments ih =>
    have here := place segment List.mem_cons_self
    have length := packed_length bigEndian (fits segment List.mem_cons_self) here
    have kept := @length_write _ destination _ segment.snapshotOffset (by
      rw [length]
      exact room segment List.mem_cons_self)
    rw [writeSegments, if_pos (by
        simp [StateSnapshotSegment.inside, here, room segment List.mem_cons_self]),
      ih (fun other mem => fits other (List.mem_cons_of_mem _ mem)) (by
          rw [kept]
          exact fun other mem => room other (List.mem_cons_of_mem _ mem))
        (fun other mem => place other (List.mem_cons_of_mem _ mem))]
    simp only [packed, List.map_cons, writeAll_cons]

/-- The pieces follow one another. -/
theorem packed_ascending (bigEndian : Bool) (tiles : Tiles first last segments)
    (fits : ∀ segment ∈ segments, segment.Fits)
    (place : ∀ segment ∈ segments, segment.stateOffset + segment.byteSize ≤ image.length) :
    Ascending last first (packed bigEndian image segments) := by
  induction segments generalizing first with
  | nil => exact le_of_eq tiles
  | cons segment segments ih =>
    obtain ⟨start, -, rest⟩ := tiles
    have length := packed_length bigEndian (fits segment List.mem_cons_self)
      (place segment List.mem_cons_self)
    refine ⟨start.ge, ?_⟩
    dsimp only
    rw [length, start]
    exact ih rest (fun other mem => fits other (List.mem_cons_of_mem _ mem))
      (fun other mem => place other (List.mem_cons_of_mem _ mem))

/-- What a snapshot of an initialized image leaves in the place of a segment. -/
theorem restored_same (bigEndian : Bool) (fits : segment.Fits)
    (place : segment.stateOffset + segment.byteSize ≤ image.length)
    (holds : read snapshot segment.snapshotOffset segment.byteSize =
      copySnapshotSegment bigEndian (read image segment.stateOffset segment.byteSize)
        segment.elementSize) (inRange : ∀ range min max, segment.integerRange = some range →
      endpoint range.min = some min → endpoint range.max = some max →
        min ≤ fromNative bigEndian (rangeWidth range)
            (read image segment.stateOffset segment.byteSize) ∧
          fromNative bigEndian (rangeWidth range)
            (read image segment.stateOffset segment.byteSize) ≤ max) :
    restoredBytes bigEndian snapshot segment =
      some (read image segment.stateOffset segment.byteSize) := by
  have size := length_read place
  have back := @copy_copy bigEndian (read image segment.stateOffset segment.byteSize)
    segment.elementSize (by rw [size]; exact fits.whole)
  unfold restoredBytes
  dsimp only
  rw [holds, back]
  split
  · rfl
  · rename_i range ranged
    obtain ⟨-, width, -, min, max, result, low, high, -, meets, normalized⟩ :=
      normalize_bytes bigEndian (fits.range range ranged) size
    obtain ⟨above, below⟩ := inRange range min max ranged low high
    rw [width] at above below
    rw [normalized, meets.unique (.of_mem above below range.mode), toNative_fromNative size]

/-! ### The segments of a program -/

/-- The segment of an entry. -/
def segmentOf (entry : DeclaredState) : StateSnapshotSegment :=
  ⟨entry.byteOffset, entry.storageByteOffset, entry.byteSize, primitiveTypeBytes entry.elemTy,
    entry.integerRange⟩

theorem segments_eq (entries : List DeclaredState) :
    buildSnapshotSegments entries = entries.map segmentOf := rfl

/-- An entry whose segment fits, and whose range is that of an integer. -/
structure DeclaredState.Fits (entry : DeclaredState) : Prop where
  segment : (segmentOf entry).Fits
  typed : ∀ range, entry.integerRange = some range →
    entry.arrayLen = 1 ∧ range.min.ty = entry.elemTy

/-- What holds of every entry, with its slot. -/
structure Placed (layout : StateLayout program) (entry : DeclaredState)
    (slot : StateSlot × (Nat × Nat)) : Prop where
  listed : slot ∈ layout.slots
  persists : slot.1.persistence = .snapshot
  place : (segmentOf entry).place = slot.2
  range : entry.integerRange = slot.1.integerRange
  fits : entry.Fits

theorem describes_placed (valid : ValidState program) (mem : slot ∈ layout.slots)
    (persists : slot.1.persistence = .snapshot) (described : Describes program entry slot) :
    Placed layout entry slot where
  listed := mem
  persists := persists
  place := by
    have size := layout.sized slot mem _ described.shape
    exact Prod.ext described.offset size.symm
  range := described.range
  fits :=
    { segment := describes_fits valid described (List.of_mem_zip mem).1
      typed := by
        intro range ranged
        have accepted := valid.ranges slot.1 (List.of_mem_zip mem).1 range
          (described.range.symm.trans ranged)
        exact (range_fits described.shape accepted).2 }

theorem forall₂_placed (valid : ValidState program)
    (described : List.Forall₂ (Describes program) entries slots)
    (mem : ∀ slot ∈ slots, slot ∈ layout.slots ∧ slot.1.persistence = .snapshot) :
    List.Forall₂ (Placed layout) entries slots := by
  induction described with
  | nil => exact .nil
  | cons here _ ih =>
    obtain ⟨listed, persists⟩ := mem _ List.mem_cons_self
    exact .cons (describes_placed valid listed persists here)
      (ih fun slot other => mem slot (List.mem_cons_of_mem _ other))

theorem Placed.places (placed : List.Forall₂ (Placed layout) entries slots) :
    (buildSnapshotSegments entries).map (·.place) = slots.map (·.2) := by
  induction placed with
  | nil => rfl
  | cons here _ ih =>
    rw [segments_eq, List.map_cons, List.map_cons, List.map_cons, here.place, ← segments_eq, ih]

theorem Placed.of_entry (placed : List.Forall₂ (Placed layout) entries slots)
    (mem : entry ∈ entries) : ∃ slot, Placed layout entry slot := by
  induction placed with
  | nil => cases mem
  | cons here _ ih =>
    rcases List.mem_cons.mp mem with rfl | mem
    · exact ⟨_, here⟩
    · exact ih mem

theorem Placed.of_segment (placed : List.Forall₂ (Placed layout) entries slots)
    (mem : segment ∈ buildSnapshotSegments entries) :
    ∃ entry slot, segment = segmentOf entry ∧ Placed layout entry slot := by
  obtain ⟨entry, listed, rfl⟩ := List.mem_map.mp mem
  obtain ⟨slot, here⟩ := Placed.of_entry placed listed
  exact ⟨entry, slot, rfl, here⟩

/-! ### The worklet -/

/-- A range is normalized by the worklet as by the native host. -/
theorem worklet_normalizes (fits : entry.Fits) (mapped : mapStateMetadata entry = some metadata)
    (length : bytes.length = entry.byteSize) :
    normalizeSnapshotIntegerRange metadata bytes =
      match entry.integerRange with
      | none => some bytes
      | some range => normalizeIntegerSnapshotValue false bytes range := by
  cases ranged : entry.integerRange with
  | none =>
    unfold mapStateMetadata at mapped
    rw [ranged] at mapped
    obtain rfl := Option.some.inj mapped
    rfl
  | some range =>
    obtain ⟨single, typed⟩ := fits.typed range ranged
    unfold mapStateMetadata at mapped
    rw [ranged] at mapped
    rcases (fits.segment.range range ranged).elim with
      ⟨min, max, mode, rfl, ordered, size⟩ | ⟨min, max, mode, rfl, ordered, size⟩
    · obtain rfl := Option.some.inj mapped
      have size : entry.byteSize = 4 := size
      unfold normalizeSnapshotIntegerRange normalizeIntegerSnapshotValue
      dsimp only
      rw [if_pos single, ← typed]
      dsimp only [ScalarValue.ty]
      rw [if_pos size, if_pos (length.trans size)]
      rw [normalizeNumber_eq (fromNative_inBits false 4 bytes)
        ⟨min.le_toInt, BitVec.toInt_lt⟩ ⟨max.le_toInt, BitVec.toInt_lt⟩ ordered mode]
    · obtain rfl := Option.some.inj mapped
      have size : entry.byteSize = 8 := size
      unfold normalizeSnapshotIntegerRange normalizeIntegerSnapshotValue
      dsimp only
      rw [if_pos single, ← typed]
      dsimp only [ScalarValue.ty]
      rw [if_pos size, if_pos (length.trans size)]
      rw [normalizeBigInt_eq (fromNative_inBits false 8 bytes)
        ⟨min.le_toInt, BitVec.toInt_lt⟩ ⟨max.le_toInt, BitVec.toInt_lt⟩ ordered mode]

theorem mapped_some (fits : entry.Fits) :
    ∃ metadata, mapStateMetadata entry = some metadata := by
  unfold mapStateMetadata
  dsimp only
  split
  · exact ⟨_, rfl⟩
  · rename_i range ranged
    rcases (fits.segment.range range ranged).elim with
      ⟨min, max, mode, rfl, -, -⟩ | ⟨min, max, mode, rfl, -, -⟩
    · exact ⟨_, rfl⟩
    · exact ⟨_, rfl⟩

theorem mapM_some (fits : ∀ entry ∈ entries, entry.Fits) :
    ∃ metadata, entries.mapM mapStateMetadata = some metadata := by
  induction entries with
  | nil => exact ⟨[], rfl⟩
  | cons entry entries ih =>
    obtain ⟨first, mapped⟩ := mapped_some (fits entry List.mem_cons_self)
    obtain ⟨rest, others⟩ := ih fun other mem => fits other (List.mem_cons_of_mem _ mem)
    refine ⟨first :: rest, ?_⟩
    rw [List.mapM_cons, mapped, others]
    rfl

theorem mapped_place (mapped : mapStateMetadata entry = some metadata) :
    metadata.packedSnapshotByteOffset = entry.byteOffset ∧
      metadata.physicalStateByteOffset = entry.storageByteOffset ∧
        metadata.byteSize = entry.byteSize := by
  unfold mapStateMetadata at mapped
  dsimp only at mapped
  split at mapped
  · obtain rfl := Option.some.inj mapped
    exact ⟨rfl, rfl, rfl⟩
  · obtain ⟨min, -, mapped⟩ := Option.bind_eq_some_iff.mp mapped
    obtain ⟨max, -, rfl⟩ := Option.map_eq_some_iff.mp mapped
    exact ⟨rfl, rfl, rfl⟩

/-- The loops of both hosts do the same. -/
theorem restoreEntries_eq (small : snapshot.length ≤ maxSafeInteger) {metadata : List StateMetadata}
    (fits : ∀ entry ∈ entries, entry.Fits) (mapped : entries.mapM mapStateMetadata = some metadata)
    (small' : image.length ≤ maxSafeInteger)
    (room : ∀ entry ∈ entries, entry.byteOffset + entry.byteSize ≤ snapshot.length)
    (place : ∀ entry ∈ entries, entry.storageByteOffset + entry.byteSize ≤ image.length) :
    restoreEntries snapshot metadata image =
      overlaySegments false snapshot (buildSnapshotSegments entries) image := by
  induction entries generalizing metadata image with
  | nil =>
    obtain rfl := Option.some.inj mapped
    rfl
  | cons entry entries ih =>
    rw [List.mapM_cons] at mapped
    obtain ⟨first, here, mapped⟩ := Option.bind_eq_some_iff.mp mapped
    obtain ⟨rest, others, mapped⟩ := Option.bind_eq_some_iff.mp mapped
    obtain rfl := Option.some.inj mapped
    have entryFits := fits entry List.mem_cons_self
    have roomy := room entry List.mem_cons_self
    have placed := place entry List.mem_cons_self
    obtain ⟨packedAt, physicalAt, size⟩ := mapped_place here
    have valid : validateSnapshotEntry first image snapshot = true := by
      unfold validateSnapshotEntry
      rw [packedAt, physicalAt, size]
      simp only [Bool.and_eq_true, decide_eq_true_eq]
      omega
    have length := length_read roomy
    have kept : (write image entry.storageByteOffset
        (read snapshot entry.byteOffset entry.byteSize)).length = image.length :=
      length_write (by rw [length]; exact placed)
    have back : read (write image entry.storageByteOffset
        (read snapshot entry.byteOffset entry.byteSize)) entry.storageByteOffset entry.byteSize =
          read snapshot entry.byteOffset entry.byteSize := by
      have written := @read_write_self _ image (read snapshot entry.byteOffset entry.byteSize)
        entry.storageByteOffset (by rw [length]; exact placed)
      rwa [length] at written
    obtain ⟨bytes, restored, wide⟩ := restoredBytes_some false entryFits.segment roomy
    have native := overlaySegment_eq false entryFits.segment roomy placed
    have web : normalizeSnapshotIntegerRange first
        (read snapshot entry.byteOffset entry.byteSize) = some bytes :=
      (worklet_normalizes entryFits here length).trans restored
    rw [restoreEntries, if_pos valid, segments_eq, List.map_cons, overlaySegments, native, restored,
      Option.map_some, Option.bind_some, ← segments_eq]
    dsimp only
    rw [packedAt, physicalAt, size, back, web, Option.bind_some,
      write_write (by rw [length]; exact placed) (by rw [length]; exact wide)]
    have same : (write image entry.storageByteOffset bytes).length = image.length :=
      length_write (by
        have wide : bytes.length = entry.byteSize := wide
        rw [wide]
        exact placed)
    refine ih (fun other mem => fits other (List.mem_cons_of_mem _ mem)) others (by rw [same]; exact
      small') (fun other mem => room other (List.mem_cons_of_mem _ mem)) ?_
    rw [same]
    exact fun other mem => place other (List.mem_cons_of_mem _ mem)

/-! ### Images -/

/-- What is known of the segments of a program. -/
structure Known (layout : StateLayout program) (entries : List DeclaredState) : Prop where
  placed : List.Forall₂ (Placed layout) entries
    (layout.slots.filter fun slot => slot.1.persistence = .snapshot)
  tiles : Tiles 0 (snapshotSizeBytes (buildSnapshotSegments entries))
    (buildSnapshotSegments entries)

variable {entries : List DeclaredState}

theorem known (valid : ValidState program) (built : layout.entries = some entries) :
    Known layout entries := by
  obtain ⟨described, last, tiles⟩ := entries_describe valid (layout_selects valid) built
  refine ⟨forall₂_placed valid described fun slot mem => ?_, ?_⟩
  · obtain ⟨listed, persists⟩ := List.mem_filter.mp mem
    exact ⟨listed, of_decide_eq_true persists⟩
  · rw [tiles.size]
    exact tiles

namespace Known

variable (known : Known layout entries)

include known

theorem persistent : (buildSnapshotSegments entries).map (·.place) =
    (layout.slots.filter fun slot => slot.1.persistence = .snapshot).map (·.2) :=
  Placed.places known.placed

theorem apart : (buildSnapshotSegments entries).Pairwise fun first second =>
    Apart first.place second.place := by
  rw [← List.pairwise_map (R := Apart), known.persistent, List.pairwise_map]
  exact List.Pairwise.filter _ layout.disjoint

theorem fits : ∀ segment ∈ buildSnapshotSegments entries, segment.Fits := by
  intro segment mem
  obtain ⟨entry, slot, rfl, placed⟩ := Placed.of_segment known.placed mem
  exact placed.fits.segment

theorem place : ∀ segment ∈ buildSnapshotSegments entries,
    segment.stateOffset + segment.byteSize ≤ layout.size := by
  intro segment mem
  obtain ⟨entry, slot, rfl, placed⟩ := Placed.of_segment known.placed mem
  have inside := layout.inside slot placed.listed
  rw [← placed.place] at inside
  exact inside

variable {fresh snapshot : List UInt8} {segment : StateSnapshotSegment}

theorem room (length : snapshot.length = snapshotSizeBytes (buildSnapshotSegments entries)) :
    ∀ segment ∈ buildSnapshotSegments entries,
      segment.snapshotOffset + segment.byteSize ≤ snapshot.length := by
  intro segment mem
  rw [length]
  exact (known.tiles.bounds.2 segment mem).2

/-- A snapshot of the right size is restored, piece by piece. -/
theorem restore (bigEndian : Bool) {other : List UInt8} {init : List UInt8 → Option (List UInt8)}
    (length : snapshot.length = snapshotSizeBytes (buildSnapshotSegments entries))
    (completed : init other = some fresh) (size : fresh.length = layout.size) :
    restoreStateSnapshot bigEndian (buildSnapshotSegments entries) init other snapshot =
      some (writeAll fresh (pieces bigEndian snapshot (buildSnapshotSegments entries))) := by
  unfold restoreStateSnapshot overlayStateSnapshot
  rw [if_pos length, completed, Option.bind_some, if_pos length]
  exact overlaySegments_eq bigEndian known.fits (known.room length)
    (by rw [size]; exact known.place)

theorem piece_length (bigEndian : Bool)
    (length : snapshot.length = snapshotSizeBytes (buildSnapshotSegments entries))
    (mem : segment ∈ buildSnapshotSegments entries) :
    ((restoredBytes bigEndian snapshot segment).getD []).length = segment.byteSize := by
  obtain ⟨bytes, restored, wide⟩ := restoredBytes_some bigEndian (known.fits segment mem)
    (known.room length segment mem)
  rw [restored]
  exact wide

theorem pieces_inside (bigEndian : Bool)
    (length : snapshot.length = snapshotSizeBytes (buildSnapshotSegments entries))
    (size : fresh.length = layout.size) :
    ∀ piece ∈ pieces bigEndian snapshot (buildSnapshotSegments entries),
      piece.1 + piece.2.length ≤ fresh.length := by
  intro piece mem
  obtain ⟨segment, listed, rfl⟩ := List.mem_map.mp mem
  dsimp only
  rw [known.piece_length bigEndian length listed, size]
  exact known.place segment listed

/-- The bytes of a segment. -/
theorem read_segment (bigEndian : Bool)
    (length : snapshot.length = snapshotSizeBytes (buildSnapshotSegments entries))
    (size : fresh.length = layout.size) (mem : segment ∈ buildSnapshotSegments entries)
    {bytes : List UInt8} (restored : restoredBytes bigEndian snapshot segment = some bytes) :
    read (writeAll fresh (pieces bigEndian snapshot (buildSnapshotSegments entries)))
      segment.stateOffset segment.byteSize = bytes := by
  have disjoint : (pieces bigEndian snapshot (buildSnapshotSegments entries)).Pairwise
      fun first second => Apart (Regions.place first) (Regions.place second) := by
    refine List.pairwise_map.mpr (known.apart.imp_of_mem ?_)
    intro first second listed listed' apart
    unfold Regions.place
    dsimp only
    rw [known.piece_length bigEndian length listed, known.piece_length bigEndian length listed']
    exact apart
  have written := read_writeAll_disjoint (known.pieces_inside bigEndian length size) disjoint
    (segment.stateOffset, (restoredBytes bigEndian snapshot segment).getD [])
    (List.mem_map.mpr ⟨segment, mem, rfl⟩)
  dsimp only at written
  rw [known.piece_length bigEndian length mem, restored] at written
  exact written

/-- The other slots stay as they were initialized. -/
theorem read_other (bigEndian : Bool)
    (length : snapshot.length = snapshotSizeBytes (buildSnapshotSegments entries))
    (size : fresh.length = layout.size) {slot : StateSlot × (Nat × Nat)}
    (listed : slot ∈ layout.slots) (other : slot.1.persistence ≠ .snapshot) :
    read (writeAll fresh (pieces bigEndian snapshot (buildSnapshotSegments entries)))
      slot.2.1 slot.2.2 = read fresh slot.2.1 slot.2.2 := by
  refine read_writeAll_apart (known.pieces_inside bigEndian length size) ?_
  intro piece mem
  obtain ⟨segment, written, rfl⟩ := List.mem_map.mp mem
  have wide := known.piece_length bigEndian length written
  obtain ⟨entry, persisting, rfl, placed⟩ := Placed.of_segment known.placed written
  have symmetric : Std.Symm fun first second : StateSlot × (Nat × Nat) =>
      Apart first.2 second.2 := ⟨fun _ _ apart => apart.symm⟩
  have distinct : slot ≠ persisting := by
    rintro rfl
    exact other placed.persists
  have apart := layout.disjoint.forall listed placed.listed distinct
  unfold Regions.place
  dsimp only
  rw [wide]
  rw [← placed.place] at apart
  exact apart

end Known

/-- What a snapshot holds of an image. -/
theorem Known.write (known : Known layout entries) (bigEndian : Bool)
    (size : image.length = layout.size)
    (length : destination.length = snapshotSizeBytes (buildSnapshotSegments entries)) :
    ∃ snapshot, writeStateSnapshot bigEndian (buildSnapshotSegments entries) image destination =
        some snapshot ∧
      snapshot.length = snapshotSizeBytes (buildSnapshotSegments entries) ∧
      ∀ segment ∈ buildSnapshotSegments entries,
        read snapshot segment.snapshotOffset segment.byteSize =
          copySnapshotSegment bigEndian (read image segment.stateOffset segment.byteSize)
            segment.elementSize := by
  have place : ∀ segment ∈ buildSnapshotSegments entries,
      segment.stateOffset + segment.byteSize ≤ image.length := by
    rw [size]
    exact known.place
  have ascending := packed_ascending bigEndian known.tiles known.fits place
  rw [← length] at ascending
  refine ⟨_, ?_, (length_writeAll ascending).trans length, fun segment mem => ?_⟩
  · unfold writeStateSnapshot
    rw [if_pos length]
    exact writeSegments_eq bigEndian known.fits (known.room length) place
  · have written := read_writeAll ascending _ (List.mem_map.mpr ⟨segment, mem, rfl⟩)
    dsimp only at written
    rw [packed_length bigEndian (known.fits segment mem) (place segment mem)] at written
    exact written

/-- A step counter, scratch storage, and the mirror of a control output. -/
def counterProgram : Program :=
  { Program.minimal [] { controlOutputs := [⟨"level", 1, 2⟩] } [] [] with
    state := [
      { name := "step", ty := 0, persistence := .snapshot,
        integerRange := some ⟨.i32 0, .i32 7, .wrap⟩ },
      { name := "work", ty := 1, persistence := .instanceScratch },
      { name := "level", ty := 1, persistence := .controlMirror }] }

def counterLayout : StateLayout counterProgram where
  places := [(0, 4), (4, 4), (8, 4)]
  size := 16
  complete := rfl
  sized := by
    intro entry mem shape shaped
    fin_cases mem <;> (obtain rfl := Option.some.inj shaped; rfl)
  inside := by decide
  disjoint := by
    refine .cons ?_ (.cons ?_ (.cons ?_ .nil)) <;> intro other mem <;> fin_cases mem <;>
      simp [Apart]

theorem counter_valid : ValidState counterProgram where
  arrays := by
    intro element len mem
    simp [counterProgram, Program.minimal] at mem
  ranges := by
    intro slot mem range ranged
    simp only [counterProgram, List.mem_cons, List.not_mem_nil, or_false] at mem
    rcases mem with rfl | rfl | rfl
    · obtain rfl := Option.some.inj ranged
      rfl
    · cases ranged
    · cases ranged
  mirrors := rfl
  shapes := by
    intro slot mem _
    simp only [counterProgram, List.mem_cons, List.not_mem_nil, or_false] at mem
    rcases mem with rfl | rfl | rfl <;> rfl

end Onda.Snapshot
