import Onda.Project.Buffer

/-!
# The `.ondabuffer` container is exact

`BufferSamples.wire` and `BufferAsset.encoding` say what the container stores:
the samples one after another, and the fields in front of them.  The chunked
writer produces the wire form, the reader accepts nothing else, and a byte
string is accepted exactly when it is the encoding of an asset within the
limits.

### Words and chunks
-/

namespace Onda.Project

open Wire (littleEndian ofLittleEndian wordBytes bytesWord)

section Chunks

variable {width : Nat}

@[simp] theorem length_flatMap_wordBytes (values : List (BitVec (8 * width))) :
    (values.flatMap (wordBytes width)).length = values.length * width := by
  induction values with
  | nil => simp
  | cons value values ih =>
    rw [List.flatMap_cons, List.length_append, ih, Wire.length_wordBytes, List.length_cons]
    ring

/-- One chunk overwrites a prefix of the scratch bytes with its words and leaves
the rest of the array, with what earlier chunks left there, in place. -/
theorem copyElements_eq (values : List (BitVec (8 * width))) (scratch : Bytes)
    (room : values.length * width ≤ scratch.length) :
    copyElements width values scratch =
      values.flatMap (wordBytes width) ++ scratch.drop (values.length * width) := by
  induction values generalizing scratch with
  | nil => simp [copyElements]
  | cons value values ih =>
    have needed : (values.length + 1) * width = width + values.length * width := by ring
    rw [List.length_cons, needed] at room ⊢
    have fits : ¬scratch.length < width := by omega
    have roomLater : values.length * width ≤ (scratch.drop width).length := by
      rw [List.length_drop]
      omega
    rw [copyElements, if_neg fits, ih _ roomLater, List.flatMap_cons, List.append_assoc,
      List.drop_drop]

theorem flatten_chunks {α : Type} {size : Nat} (positive : 0 < size) :
    ∀ (fuel : Nat) (values : List α), values.length ≤ fuel →
      (chunks size fuel values).flatten = values
  | 0, [], _ => rfl
  | _ + 1, [], _ => rfl
  | fuel + 1, value :: values, enough => by
    have shorter : ((value :: values).drop size).length ≤ fuel := by
      simp only [List.length_drop, List.length_cons] at enough ⊢
      omega
    rw [chunks, List.flatten_cons, flatten_chunks positive fuel _ shorter,
      List.take_append_drop]

theorem length_of_mem_chunks {α : Type} {size : Nat} :
    ∀ (fuel : Nat) (values chunk : List α), chunk ∈ chunks size fuel values →
      chunk.length ≤ size
  | 0, _, _, mem => by simp [chunks] at mem
  | _ + 1, [], _, mem => by simp [chunks] at mem
  | fuel + 1, value :: values, chunk, mem => by
    rcases List.mem_cons.mp mem with rfl | later
    · simp only [List.length_take]
      omega
    · exact length_of_mem_chunks fuel _ chunk later

/-- **The scratch loop.** The slices handed to the visitor are in bounds, and one
after another they are the words of all chunks. -/
theorem visitChunks_eq (pieces : List (List (BitVec (8 * width)))) :
    ∀ scratch : Bytes, (∀ piece ∈ pieces, piece.length * width ≤ scratch.length) →
      ∃ visited, visitChunks width pieces scratch = .ok visited ∧
        visited.flatten = pieces.flatten.flatMap (wordBytes width) := by
  induction pieces with
  | nil => exact fun _ _ => ⟨[], rfl, rfl⟩
  | cons piece later ih =>
    intro scratch room
    have roomHere := room piece (by simp)
    obtain ⟨filled, filled_eq⟩ : ∃ filled, copyElements width piece scratch = filled := ⟨_, rfl⟩
    have contents := copyElements_eq piece scratch roomHere
    rw [filled_eq] at contents
    have sameSize : filled.length = scratch.length := by
      rw [contents, List.length_append, length_flatMap_wordBytes, List.length_drop]
      omega
    have visible : slice filled 0 (piece.length * width) =
        .ok (piece.flatMap (wordBytes width)) := by
      rw [slice_eq (Nat.zero_le _) (by omega), contents, List.drop_zero, Nat.sub_zero,
        ← length_flatMap_wordBytes, List.take_left]
    obtain ⟨rest, visitedRest, flatRest⟩ := ih filled (by
      intro piece' mem
      rw [sameSize]
      exact room piece' (by simp [mem]))
    refine ⟨piece.flatMap (wordBytes width) :: rest, ?_, ?_⟩
    · rw [visitChunks]
      simp only [filled_eq, visible, visitedRest]
      rfl
    · rw [List.flatten_cons, flatRest, List.flatten_cons, List.flatMap_append]

/-- **Streaming.** Whatever the number of values, the visitor sees exactly their
words. -/
theorem visitNumeric_eq (values : List (BitVec (8 * width))) (positive : 0 < width)
    (small : width ≤ CHUNK_BYTES) :
    ∃ visited, visitNumeric width values = .ok visited ∧
      visited.flatten = values.flatMap (wordBytes width) := by
  have positiveSize : 0 < CHUNK_BYTES / width := Nat.div_pos small positive
  obtain ⟨visited, run, flat⟩ := visitChunks_eq
    (chunks (CHUNK_BYTES / width) values.length values) (List.replicate CHUNK_BYTES 0) (by
      intro piece mem
      rw [List.length_replicate]
      calc piece.length * width ≤ CHUNK_BYTES / width * width :=
            Nat.mul_le_mul_right width (length_of_mem_chunks _ _ _ mem)
        _ ≤ CHUNK_BYTES := Nat.div_mul_le_self _ _)
  rw [flatten_chunks positiveSize _ _ le_rfl] at flat
  exact ⟨visited, run, flat⟩

/-! Reading the words back. -/

theorem exactChunks_flatMap (positive : 0 < width) (values : List (BitVec (8 * width))) :
    wordsOf width (values.flatMap (wordBytes width)) = values := by
  rw [wordsOf, length_flatMap_wordBytes, Nat.mul_div_cancel _ positive]
  induction values with
  | nil => rfl
  | cons value values ih =>
    have wide := Wire.length_wordBytes width value
    rw [List.length_cons, exactChunks, List.flatMap_cons, List.map_cons,
      List.take_left' wide, List.drop_left' wide, Wire.bytesWord_wordBytes, ih]

theorem flatMap_exactChunks (count : Nat) (bytes : Bytes)
    (whole : bytes.length = count * width) :
    ((exactChunks width count bytes).map (bytesWord width)).flatMap (wordBytes width) =
      bytes := by
  induction count generalizing bytes with
  | zero =>
    have empty : bytes = [] := List.length_eq_zero_iff.mp (by simpa using whole)
    rw [empty]
    rfl
  | succ count ih =>
    have split : (count + 1) * width = width + count * width := by ring
    rw [split] at whole
    have wide : (bytes.take width).length = width := by
      rw [List.length_take]
      omega
    rw [exactChunks, List.map_cons, List.flatMap_cons, Wire.wordBytes_bytesWord wide,
      ih _ (by rw [List.length_drop]; omega), List.take_append_drop]

theorem flatMap_wordsOf {bytes : Bytes} (whole : bytes.length % width = 0) :
    (wordsOf width bytes).flatMap (wordBytes width) = bytes :=
  flatMap_exactChunks _ bytes (Nat.div_mul_cancel (Nat.dvd_of_mod_eq_zero whole)).symm

end Chunks

/-! ### Samples -/

namespace BufferSamples

/-- What a container stores of the samples: one word after another. -/
def wire : BufferSamples → Bytes
  | bool values => values
  | i32 values | f32 values => values.flatMap (wordBytes 4)
  | i64 values | f64 values => values.flatMap (wordBytes 8)

/-- Every bool is stored as 0 or 1. -/
def Canonical : BufferSamples → Prop
  | bool values => values.any (· > 1) = false
  | _ => True

theorem length_wire (samples : BufferSamples) :
    samples.wire.length = samples.len * samples.element.byteSize := by
  cases samples <;>
    simp only [wire, len, element, BufferElement.byteSize, length_flatMap_wordBytes, mul_one]

/-- The writer visits the wire form. -/
theorem visitCanonicalLeBytes_eq (samples : BufferSamples) :
    ∃ visited, samples.visitCanonicalLeBytes = .ok visited ∧ visited.flatten = samples.wire := by
  cases samples with
  | bool values => exact ⟨[values], rfl, by simp [wire]⟩
  | i32 values => exact @visitNumeric_eq 4 values (by decide) (by decide)
  | i64 values => exact @visitNumeric_eq 8 values (by decide) (by decide)
  | f32 values => exact @visitNumeric_eq 4 values (by decide) (by decide)
  | f64 values => exact @visitNumeric_eq 8 values (by decide) (by decide)

theorem canonicalLeBytes_eq (samples : BufferSamples) :
    samples.canonicalLeBytes = .ok samples.wire := by
  obtain ⟨visited, run, flat⟩ := samples.visitCanonicalLeBytes_eq
  rw [canonicalLeBytes, run, ← flat]
  rfl

/-- **The sample codec.** Bytes are read as samples exactly when they are the wire
form of these samples, whose bools are 0 or 1. -/
theorem fromCanonicalLeBytes_iff {element : BufferElement} {bytes : Bytes}
    {samples : BufferSamples} :
    fromCanonicalLeBytes element bytes = .ok samples ↔
      samples.element = element ∧ samples.wire = bytes ∧ samples.Canonical := by
  constructor
  · intro read
    simp only [fromCanonicalLeBytes, check_ok_iff, refuseIf_ok_iff, Decidable.not_not] at read
    obtain ⟨whole, read⟩ := read
    cases element with
    | bool =>
      simp only [check_ok_iff, refuseIf_ok_iff] at read
      obtain ⟨small, read⟩ := read
      cases read
      exact ⟨rfl, rfl, by simpa [Canonical] using small⟩
    | i32 => cases read; exact ⟨rfl, flatMap_wordsOf whole, trivial⟩
    | i64 => cases read; exact ⟨rfl, flatMap_wordsOf whole, trivial⟩
    | f32 => cases read; exact ⟨rfl, flatMap_wordsOf whole, trivial⟩
    | f64 => cases read; exact ⟨rfl, flatMap_wordsOf whole, trivial⟩
  · rintro ⟨rfl, rfl, canonical⟩
    have whole : samples.wire.length % samples.element.byteSize = 0 := by
      rw [length_wire]
      exact Nat.mul_mod_left _ _
    have aligned : ¬samples.wire.length % samples.element.byteSize ≠ 0 := by simp [whole]
    simp only [fromCanonicalLeBytes, refuseIf, if_neg aligned]
    cases samples with
    | bool values =>
      have small : values.any (· > 1) = false := canonical
      simp [element, wire, bind, Except.bind, pure, Except.pure, small]
    | i32 values =>
      exact congrArg (fun words => Except.ok (i32 words))
        (@exactChunks_flatMap 4 (by decide) values)
    | i64 values =>
      exact congrArg (fun words => Except.ok (i64 words))
        (@exactChunks_flatMap 8 (by decide) values)
    | f32 values =>
      exact congrArg (fun words => Except.ok (f32 words))
        (@exactChunks_flatMap 4 (by decide) values)
    | f64 values =>
      exact congrArg (fun words => Except.ok (f64 words))
        (@exactChunks_flatMap 8 (by decide) values)

end BufferSamples

/-! ### Shapes -/

section Assets

variable {platform : Platform}

/-- What `validate_buffer_shape` lets through. -/
structure ShapeAccepted (platform : Platform) (element : BufferElement)
    (frames channels sampleRate : UInt32) (count : Nat) (limits : ProjectLimits) : Prop where
  frames_range : ¬(frames = 0 ∨ frames > I32_MAX)
  channels_range : ¬(channels = 0 ∨ channels > I32_MAX)
  rate_positive : ¬(¬f32IsFinite sampleRate ∨ f32LeZero sampleRate)
  count_eq : count = frames.toNat * channels.toNat
  count_fits : count ≤ platform.usizeMax
  bytes_fit : count * element.byteSize ≤ platform.usizeMax
  bytes_le : count * element.byteSize ≤ limits.maxAssetBytes

variable {asset : BufferAsset} {bytes : Bytes} {header : OndabufferHeader} {limits : ProjectLimits}

theorem validateBufferShape_iff {element : BufferElement} {frames channels sampleRate : UInt32}
    {count : Nat} {done : Unit} :
    validateBufferShape platform element frames channels sampleRate count limits = .ok done ↔
      ShapeAccepted platform element frames channels sampleRate count limits := by
  simp only [validateBufferShape, bind_ok_iff, exists_const, refuseIf_ok_iff,
    checkedProduct_pair, Decidable.not_not, not_lt, gt_iff_lt]
  constructor
  · rintro ⟨frames_range, channels_range, rate_positive, expected,
      ⟨-, count_fits, rfl⟩, rfl, bytes, ⟨-, bytes_fit, rfl⟩, bytes_le⟩
    exact ⟨frames_range, channels_range, rate_positive, rfl, count_fits, bytes_fit, bytes_le⟩
  · rintro ⟨frames_range, channels_range, rate_positive, rfl, count_fits, bytes_fit, bytes_le⟩
    have framesFit : frames.toNat ≤ platform.usizeMax := by
      have word := frames.toNat_lt
      have wide := platform.u32_le_usize
      omega
    exact ⟨frames_range, channels_range, rate_positive, _,
      ⟨framesFit, count_fits, rfl⟩, rfl, _, ⟨count_fits, bytes_fit, rfl⟩, bytes_le⟩

/-- An asset passes exactly when its shape does and its bools are 0 or 1. -/
theorem BufferAsset.validate_iff {asset : BufferAsset} {limits : ProjectLimits} :
    asset.validate platform limits = .ok () ↔
      ShapeAccepted platform asset.element asset.frames asset.channels asset.sampleRate
        asset.samples.len limits ∧ asset.samples.Canonical := by
  rw [validate, check_ok_iff, validateBufferShape_iff]
  apply and_congr_right
  intro _
  cases asset.samples <;> simp [BufferSamples.Canonical, pure, Except.pure]

/-! ### The encoding of an asset -/

/-- The bytes the digest of an asset is taken over. -/
def BufferAsset.content (asset : BufferAsset) : Bytes :=
  bufferContentHasher asset.element asset.frames asset.channels asset.sampleRate ++
    asset.samples.wire

theorem BufferAsset.contentDigest_eq (asset : BufferAsset) :
    asset.contentDigest platform = .ok (platform.sha256 asset.content) := by
  obtain ⟨visited, run, flat⟩ := asset.samples.visitCanonicalLeBytes_eq
  have streamed : ∀ (pieces : List Bytes) (start : Bytes),
      pieces.foldl (· ++ ·) start = start ++ pieces.flatten := by
    intro pieces
    induction pieces with
    | nil => simp
    | cons piece pieces ih => simp [ih]
  rw [contentDigest, run, content, ← flat]
  simp [bind, Except.bind, pure, Except.pure, streamed]

/-- The container's fields in file order. -/
def containerBytes (version : UInt32) (element : BufferElement)
    (frames channels sampleRate : UInt32) (payloadLen : Nat) (digest payload : Bytes) : Bytes :=
  ONDA_BUFFER_MAGIC ++ (littleEndian 4 version.toNat ++ ([element.tag] ++ ([0, 0, 0] ++
    (littleEndian 4 frames.toNat ++ (littleEndian 4 channels.toNat ++
      (littleEndian 4 sampleRate.toNat ++ (littleEndian 8 payloadLen ++
        (digest ++ payload))))))))

/-- The one container of an asset. -/
def BufferAsset.encoding (platform : Platform) (asset : BufferAsset) : Bytes :=
  containerBytes ONDA_BUFFER_FORMAT_VERSION asset.element asset.frames asset.channels
    asset.sampleRate asset.samples.wire.length (platform.sha256 asset.content).val
    asset.samples.wire

/-- **The writer.** An asset within the default limits is written as its encoding. -/
theorem encodeOndabuffer_eq (valid : asset.validate platform .default = .ok ()) :
    encodeOndabuffer platform asset = .ok (asset.encoding platform) := by
  have shape := (BufferAsset.validate_iff.mp valid).1
  have payloadLen : asset.payloadBytes platform = asset.samples.wire.length := by
    rw [BufferSamples.length_wire]
    exact min_eq_left shape.bytes_fit
  rw [encodeOndabuffer, valid, payloadLen, asset.contentDigest_eq,
    asset.samples.canonicalLeBytes_eq]
  simp [bind, Except.bind, pure, Except.pure, BufferAsset.encoding, containerBytes]

/-! ### The header

A byte string long enough for the header splits into its fields; every read of
the parser then returns one of them. -/

theorem readWord_of_getRange {width offset : Nat} {field : Bytes}
    (early : offset + width ≤ ONDA_BUFFER_HEADER_BYTES)
    (found : getRange bytes offset (offset + width) = some field) :
    readWord platform width bytes offset = .ok (ofLittleEndian field) := by
  have fits : offset + width ≤ platform.usizeMax := by
    have wide := platform.u32_le_usize
    have header : ONDA_BUFFER_HEADER_BYTES = 68 := rfl
    omega
  rw [readWord, Platform.checkedAdd, if_pos fits]
  simp [okOr, bind, Except.bind, pure, Except.pure, found]

/-- A `u32` field holds the value whose bytes are stored. -/
theorem littleEndian_of_u32 {field : Bytes} (wide : field.length = 4) :
    littleEndian 4 (UInt32.ofNat (ofLittleEndian field)).toNat = field := by
  have fits : ofLittleEndian field < 2 ^ 32 := by
    have bound := Wire.ofLittleEndian_lt field
    rw [wide] at bound
    exact bound
  rw [UInt32.toNat_ofNat_of_lt' fits, ← wide, Wire.littleEndian_ofLittleEndian]

theorem u32_of_littleEndian (value : UInt32) :
    UInt32.ofNat (ofLittleEndian (littleEndian 4 value.toNat)) = value := by
  rw [Wire.ofLittleEndian_littleEndian (by exact value.toNat_lt), UInt32.ofNat_toNat]

/-- What the header parser accepts, in terms of the fields. -/
structure HeaderAccepted (platform : Platform) (header : OndabufferHeader) (fileLen : Nat)
    (limits : ProjectLimits) : Prop where
  digest_wide : header.expectedDigest.length = 32
  payload_fits : header.payloadBytes ≤ platform.usizeMax
  payload_le : header.payloadBytes ≤ limits.maxAssetBytes
  file_fits : ONDA_BUFFER_HEADER_BYTES + header.payloadBytes ≤ platform.usizeMax
  file_eq : fileLen = ONDA_BUFFER_HEADER_BYTES + header.payloadBytes
  aligned : header.payloadBytes % header.element.byteSize = 0
  shape : ShapeAccepted platform header.element header.frames header.channels
    header.sampleRate (header.payloadBytes / header.element.byteSize) limits

/-- The fields a byte string of header length splits into. -/
theorem exists_headerFields (long : ONDA_BUFFER_HEADER_BYTES ≤ bytes.length) :
    ∃ magic version tag reserved frames channels rate len digest payload,
      (magic.length = 8 ∧ version.length = 4 ∧ reserved.length = 3 ∧ frames.length = 4 ∧
        channels.length = 4 ∧ rate.length = 4 ∧ len.length = 8 ∧ digest.length = 32) ∧
      bytes = magic ++ (version ++ ([tag] ++ (reserved ++ (frames ++ (channels ++ (rate ++
        (len ++ (digest ++ payload)))))))) := by
  have size : ONDA_BUFFER_HEADER_BYTES = 68 := rfl
  rw [size] at long
  obtain ⟨magic, bytes₁, wide₁, rfl⟩ := exists_split bytes 8 (by omega)
  rw [List.length_append] at long
  obtain ⟨version, bytes₂, wide₂, rfl⟩ := exists_split bytes₁ 4 (by omega)
  rw [List.length_append] at long
  obtain ⟨tagField, bytes₃, wide₃, rfl⟩ := exists_split bytes₂ 1 (by omega)
  rw [List.length_append] at long
  obtain ⟨tag, rfl⟩ := List.length_eq_one_iff.mp wide₃
  obtain ⟨reserved, bytes₄, wide₄, rfl⟩ := exists_split bytes₃ 3 (by omega)
  rw [List.length_append] at long
  obtain ⟨frames, bytes₅, wide₅, rfl⟩ := exists_split bytes₄ 4 (by omega)
  rw [List.length_append] at long
  obtain ⟨channels, bytes₆, wide₆, rfl⟩ := exists_split bytes₅ 4 (by omega)
  rw [List.length_append] at long
  obtain ⟨rate, bytes₇, wide₇, rfl⟩ := exists_split bytes₆ 4 (by omega)
  rw [List.length_append] at long
  obtain ⟨len, bytes₈, wide₈, rfl⟩ := exists_split bytes₇ 8 (by omega)
  rw [List.length_append] at long
  obtain ⟨digest, payload, wide₉, rfl⟩ := exists_split bytes₈ 32 (by omega)
  exact ⟨magic, version, tag, reserved, frames, channels, rate, len, digest, payload,
    ⟨wide₁, wide₂, wide₄, wide₅, wide₆, wide₇, wide₈, wide₉⟩, rfl⟩

/-- The parser on a byte string that is split into its fields. -/
theorem parseOndabufferHeader_fields {magic version reserved frames channels rate len digest
    payload : Bytes} {tag : UInt8} {fileLen : Nat}
    (wide : magic.length = 8 ∧ version.length = 4 ∧ reserved.length = 3 ∧ frames.length = 4 ∧
      channels.length = 4 ∧ rate.length = 4 ∧ len.length = 8 ∧ digest.length = 32) :
    parseOndabufferHeader platform (magic ++ (version ++ ([tag] ++ (reserved ++ (frames ++
      (channels ++ (rate ++ (len ++ (digest ++ payload))))))))) fileLen limits = .ok header ↔
      magic = ONDA_BUFFER_MAGIC ∧
        UInt32.ofNat (ofLittleEndian version) = ONDA_BUFFER_FORMAT_VERSION ∧
        reserved = [0, 0, 0] ∧ BufferElement.fromTag tag = .ok header.element ∧
        header.frames = UInt32.ofNat (ofLittleEndian frames) ∧
        header.channels = UInt32.ofNat (ofLittleEndian channels) ∧
        header.sampleRate = UInt32.ofNat (ofLittleEndian rate) ∧
        header.payloadBytes = ofLittleEndian len ∧ header.expectedDigest = digest ∧
        HeaderAccepted platform header fileLen limits := by
  obtain ⟨wide₁, wide₂, wide₃, wide₄, wide₅, wide₆, wide₇, wide₈⟩ := wide
  obtain ⟨bytes, bytes_eq⟩ : ∃ bytes, magic ++ (version ++ ([tag] ++ (reserved ++ (frames ++
      (channels ++ (rate ++ (len ++ (digest ++ payload)))))))) = bytes := ⟨_, rfl⟩
  have long : ¬bytes.length < ONDA_BUFFER_HEADER_BYTES := by
    have size : ONDA_BUFFER_HEADER_BYTES = 68 := rfl
    rw [← bytes_eq]
    simp only [List.length_append, List.length_singleton]
    omega
  have readMagic : slice bytes 0 8 = .ok magic := by
    rw [← bytes_eq]
    exact slice_of_getRange (getRange_here wide₁)
  have readVersion : readU32 platform bytes 8 = .ok (UInt32.ofNat (ofLittleEndian version)) := by
    have found : getRange bytes 8 (8 + 4) = some version := by
      rw [← bytes_eq]
      simp [getRange_skip, getRange_here, wide₁, wide₂]
    rw [readU32, readWord_of_getRange (by decide) found]
    rfl
  have readReserved : slice bytes 13 16 = .ok reserved := by
    apply slice_of_getRange
    rw [← bytes_eq, getRange_skip, getRange_skip, getRange_skip] <;>
      simp [getRange_here, wide₁, wide₂, wide₃]
  have readTag : index bytes 12 = .ok tag := by
    rw [← bytes_eq]
    simp [index, List.getElem?_append, wide₁, wide₂]
  have readFrames : readU32 platform bytes 16 = .ok (UInt32.ofNat (ofLittleEndian frames)) := by
    have found : getRange bytes 16 (16 + 4) = some frames := by
      rw [← bytes_eq, getRange_skip, getRange_skip, getRange_skip, getRange_skip] <;>
        simp [getRange_here, wide₁, wide₂, wide₃, wide₄]
    rw [readU32, readWord_of_getRange (by decide) found]
    rfl
  have readChannels :
      readU32 platform bytes 20 = .ok (UInt32.ofNat (ofLittleEndian channels)) := by
    have found : getRange bytes 20 (20 + 4) = some channels := by
      rw [← bytes_eq, getRange_skip, getRange_skip, getRange_skip, getRange_skip,
        getRange_skip] <;> simp [getRange_here, wide₁, wide₂, wide₃, wide₄, wide₅]
    rw [readU32, readWord_of_getRange (by decide) found]
    rfl
  have readRate : readU32 platform bytes 24 = .ok (UInt32.ofNat (ofLittleEndian rate)) := by
    have found : getRange bytes 24 (24 + 4) = some rate := by
      rw [← bytes_eq, getRange_skip, getRange_skip, getRange_skip, getRange_skip,
        getRange_skip, getRange_skip] <;>
        simp [getRange_here, wide₁, wide₂, wide₃, wide₄, wide₅, wide₆]
    rw [readU32, readWord_of_getRange (by decide) found]
    rfl
  have readLen : readU64 platform bytes 28 = .ok (ofLittleEndian len) := by
    have found : getRange bytes 28 (28 + 8) = some len := by
      rw [← bytes_eq, getRange_skip, getRange_skip, getRange_skip, getRange_skip,
        getRange_skip, getRange_skip, getRange_skip] <;>
        simp [getRange_here, wide₁, wide₂, wide₃, wide₄, wide₅, wide₆, wide₇]
    exact readWord_of_getRange (by decide) found
  have readDigest : slice bytes 36 68 = .ok digest := by
    apply slice_of_getRange
    rw [← bytes_eq, getRange_skip, getRange_skip, getRange_skip, getRange_skip,
      getRange_skip, getRange_skip, getRange_skip, getRange_skip] <;>
      simp [getRange_here, wide₁, wide₂, wide₃, wide₄, wide₅, wide₆, wide₇, wide₈]
  rw [bytes_eq, parseOndabufferHeader, refuseIf, if_neg long]
  simp only [bind_ok_iff, refuseIf_ok_iff, exists_const, readMagic, readVersion, readReserved,
    readTag, readFrames, readChannels, readRate, readLen, readDigest, Except.ok.injEq,
    exists_eq_left', Decidable.not_not, okOr_ok_iff, true_and, Platform.usizeTryFrom,
    Platform.checkedAdd, Option.ite_none_right_eq_some, Option.some.injEq,
    validateBufferShape_iff, pure, Except.pure]
  constructor
  · rintro ⟨magic_eq, version_eq, reserved_eq, element, tag_eq, payloadLen,
      ⟨payload_fits, rfl⟩, payload_le, total, ⟨file_fits, rfl⟩, file_eq, aligned, shape, rfl⟩
    exact ⟨magic_eq, version_eq, reserved_eq, tag_eq, rfl, rfl, rfl, rfl, rfl,
      ⟨wide₈, payload_fits, by simpa using payload_le, file_fits, file_eq, aligned, shape⟩⟩
  · obtain ⟨element, framesValue, channelsValue, rateValue, payloadBytes, digestValue⟩ := header
    rintro ⟨magic_eq, version_eq, reserved_eq, tag_eq, rfl, rfl, rfl, rfl, rfl, accepted⟩
    exact ⟨magic_eq, version_eq, reserved_eq, element, tag_eq, _, ⟨accepted.payload_fits, rfl⟩,
      not_lt.mpr accepted.payload_le, _, ⟨accepted.file_fits, rfl⟩, accepted.file_eq,
      accepted.aligned, accepted.shape, rfl⟩

/-- **The header parser.** It returns exactly the fields that precede the payload. -/
theorem parseOndabufferHeader_iff {fileLen : Nat} :
    parseOndabufferHeader platform bytes fileLen limits = .ok header ↔
      HeaderAccepted platform header fileLen limits ∧
        ∃ payload, bytes = containerBytes ONDA_BUFFER_FORMAT_VERSION header.element
          header.frames header.channels header.sampleRate header.payloadBytes
          header.expectedDigest payload := by
  constructor
  · intro parsed
    have long : ONDA_BUFFER_HEADER_BYTES ≤ bytes.length := by
      by_contra short
      rw [parseOndabufferHeader, refuseIf, if_pos (by omega)] at parsed
      simp [reject, bind, Except.bind] at parsed
    obtain ⟨magic, version, tag, reserved, frames, channels, rate, len, digest, payload, wide,
      rfl⟩ := exists_headerFields long
    obtain ⟨magic_eq, version_eq, reserved_eq, tag_eq, frames_eq, channels_eq, rate_eq, len_eq,
      digest_eq, accepted⟩ := (parseOndabufferHeader_fields wide).mp parsed
    refine ⟨accepted, payload, ?_⟩
    obtain ⟨-, wide₂, -, wide₄, wide₅, wide₆, wide₇, -⟩ := wide
    rw [containerBytes, frames_eq, channels_eq, rate_eq, len_eq, digest_eq, ← version_eq,
      littleEndian_of_u32 wide₂, littleEndian_of_u32 wide₄, littleEndian_of_u32 wide₅,
      littleEndian_of_u32 wide₆, ← wide₇, Wire.littleEndian_ofLittleEndian, magic_eq,
      reserved_eq, BufferElement.tag_of_fromTag tag_eq]
  · rintro ⟨accepted, payload, rfl⟩
    refine (parseOndabufferHeader_fields ?_).mpr ?_
    · exact ⟨by decide, by simp, rfl, by simp, by simp, by simp, by simp, accepted.digest_wide⟩
    · have payloadFits : header.payloadBytes < 256 ^ 8 := by
        calc header.payloadBytes ≤ platform.usizeMax := accepted.payload_fits
          _ < 2 ^ 64 := platform.usize_le_u64
          _ = 256 ^ 8 := by norm_num
      exact ⟨rfl, u32_of_littleEndian _, rfl, BufferElement.fromTag_tag _,
        (u32_of_littleEndian _).symm, (u32_of_littleEndian _).symm, (u32_of_littleEndian _).symm,
        (Wire.ofLittleEndian_littleEndian payloadFits).symm, rfl, accepted⟩

/-! ### Reading assets -/

section Container

variable (version : UInt32) (element : BufferElement) (frames channels sampleRate : UInt32)
  (payloadLen : Nat) {digest : Bytes} (payload : Bytes)

theorem length_containerBytes (wide : digest.length = 32) :
    (containerBytes version element frames channels sampleRate payloadLen digest
      payload).length = ONDA_BUFFER_HEADER_BYTES + payload.length := by
  have magic : ONDA_BUFFER_MAGIC.length = 8 := by decide
  have header : ONDA_BUFFER_HEADER_BYTES = 68 := rfl
  simp only [containerBytes, List.length_append, magic, Wire.length_littleEndian,
    List.length_cons, List.length_nil, wide, header]
  omega

theorem slice_containerBytes (wide : digest.length = 32) :
    slice (containerBytes version element frames channels sampleRate payloadLen digest payload)
      ONDA_BUFFER_HEADER_BYTES (ONDA_BUFFER_HEADER_BYTES + payload.length) = .ok payload := by
  have whole := length_containerBytes version element frames channels sampleRate payloadLen
    payload wide
  have empty := length_containerBytes version element frames channels sampleRate payloadLen
    [] wide
  have parts : containerBytes version element frames channels sampleRate payloadLen digest
      payload = containerBytes version element frames channels sampleRate payloadLen digest [] ++
        payload := by
    simp [containerBytes]
  rw [slice_eq (Nat.le_add_right _ _) whole.ge, parts, List.drop_left' (by simpa using empty)]
  simp

end Container

/-- The view a valid container gives on its fields. -/
theorem validateOndabuffer_iff {buffer : ValidatedOndabuffer} :
    validateOndabuffer platform bytes limits = .ok buffer ↔
      bytes = containerBytes ONDA_BUFFER_FORMAT_VERSION buffer.element buffer.frames
        buffer.channels buffer.sampleRate buffer.payload.length buffer.contentDigest.val
        buffer.payload ∧
      buffer.contentDigest = platform.sha256 (bufferContentHasher buffer.element buffer.frames
        buffer.channels buffer.sampleRate ++ buffer.payload) ∧
      buffer.payload.length % buffer.element.byteSize = 0 ∧
      ¬(buffer.element = .bool ∧ buffer.payload.any (· > 1) = true) ∧
      ONDA_BUFFER_HEADER_BYTES + buffer.payload.length ≤ platform.usizeMax ∧
      ShapeAccepted platform buffer.element buffer.frames buffer.channels buffer.sampleRate
        (buffer.payload.length / buffer.element.byteSize) limits := by
  simp only [validateOndabuffer, bind_ok_iff, parseOndabufferHeader_iff, refuseIf_ok_iff,
    exists_const, Decidable.not_not, pure, Except.pure, Except.ok.injEq]
  constructor
  · rintro ⟨header, ⟨accepted, payload, rfl⟩, payload', sliced, bools, digest_eq, rfl⟩
    have length_eq := length_containerBytes ONDA_BUFFER_FORMAT_VERSION header.element
      header.frames header.channels header.sampleRate header.payloadBytes payload
      accepted.digest_wide
    have payloadLen : header.payloadBytes = payload.length := by
      have file_eq := accepted.file_eq
      omega
    rw [length_eq, slice_containerBytes _ _ _ _ _ _ _ accepted.digest_wide] at sliced
    cases sliced
    refine ⟨?_, rfl, ?_, bools, ?_, ?_⟩
    · simp only [payloadLen, digest_eq]
    · exact payloadLen ▸ accepted.aligned
    · exact payloadLen ▸ accepted.file_fits
    · exact payloadLen ▸ accepted.shape
  · obtain ⟨element, frames, channels, sampleRate, payload, digest⟩ := buffer
    rintro ⟨rfl, digest_eq, aligned, bools, file_fits, shape⟩
    have wide : digest.val.length = 32 := digest.property
    have payload_eq : payload.length / element.byteSize * element.byteSize = payload.length :=
      Nat.div_mul_cancel (Nat.dvd_of_mod_eq_zero aligned)
    have payload_fits := shape.bytes_fit
    have payload_le := shape.bytes_le
    rw [payload_eq] at payload_fits payload_le
    refine ⟨⟨element, frames, channels, sampleRate, payload.length, digest.val⟩,
      ⟨⟨wide, payload_fits, payload_le, file_fits, length_containerBytes _ _ _ _ _ _ _ wide, aligned, shape⟩,
        payload, rfl⟩, payload, ?_, bools, ?_, ?_⟩
    · rw [length_containerBytes _ _ _ _ _ _ _ wide]
      exact slice_containerBytes _ _ _ _ _ _ _ wide
    · exact congrArg Subtype.val digest_eq
    · exact congrArg (ValidatedOndabuffer.mk element frames channels sampleRate payload)
        digest_eq.symm

/-- **The reader.** A byte string is accepted exactly when it is the encoding of the
asset it is read as, and this asset is within the limits. -/
theorem decodeOndabuffer_iff :
    decodeOndabuffer platform bytes limits = .ok asset ↔
      asset.validate platform limits = .ok () ∧
        ONDA_BUFFER_HEADER_BYTES + asset.samples.wire.length ≤ platform.usizeMax ∧
        bytes = asset.encoding platform := by
  have count_eq : asset.samples.wire.length / asset.element.byteSize = asset.samples.len := by
    rw [BufferSamples.length_wire]
    exact Nat.mul_div_cancel _ asset.element.byteSize_pos
  simp only [decodeOndabuffer, bind_ok_iff, validateOndabuffer_iff, ValidatedOndabuffer.decode,
    BufferSamples.fromCanonicalLeBytes_iff, BufferAsset.validate_iff, pure, Except.pure,
    Except.ok.injEq]
  constructor
  · rintro ⟨buffer, ⟨rfl, digest_eq, -, -, file_fits, shape⟩, samples,
      ⟨element_eq, wire_eq, canonical⟩, rfl⟩
    rw [← element_eq, ← wire_eq] at digest_eq
    refine ⟨⟨?_, canonical⟩, ?_, ?_⟩
    · rw [← count_eq]
      simpa only [BufferAsset.element, wire_eq, element_eq] using shape
    · simpa only [wire_eq] using file_fits
    · simp only [BufferAsset.encoding, BufferAsset.content, BufferAsset.element, element_eq,
        wire_eq, digest_eq]
  · rintro ⟨⟨shape, canonical⟩, file_fits, rfl⟩
    refine ⟨⟨asset.element, asset.frames, asset.channels, asset.sampleRate, asset.samples.wire,
      platform.sha256 asset.content⟩, ⟨rfl, rfl, ?_, ?_, file_fits, ?_⟩, asset.samples,
      ⟨rfl, rfl, canonical⟩, rfl⟩
    · rw [BufferSamples.length_wire]
      exact Nat.mul_mod_left _ _
    · rintro ⟨isBool, large⟩
      obtain ⟨frames, channels, sampleRate, samples⟩ := asset
      cases samples with
      | bool values =>
        have small : values.any (· > 1) = false := canonical
        exact absurd (large.symm.trans small) (by decide)
      | i32 values => cases isBool
      | i64 values => cases isBool
      | f32 values => cases isBool
      | f64 values => cases isBool
    · rw [count_eq]
      exact shape

/-! ### No panic

Every slice of the parser comes after the length check of the header. -/

theorem readWord_calm (width offset : Nat) (bytes : Bytes) :
    Calm (readWord platform width bytes offset) := by
  apply Calm.bind (Calm.okOr _ _)
  intro stop _
  apply Calm.bind (Calm.okOr _ _)
  intro field _
  exact Calm.ok _

theorem readU32_calm (offset : Nat) (bytes : Bytes) : Calm (readU32 platform bytes offset) :=
  Calm.bind (readWord_calm 4 offset bytes) fun _ _ => Calm.ok _

theorem fromTag_calm (tag : UInt8) : Calm (BufferElement.fromTag tag) := by
  unfold BufferElement.fromTag
  split <;> first | exact Calm.ok _ | exact Calm.reject _

theorem checkedProduct_calm (values : List Nat) (context : Bytes) :
    Calm (platform.checkedProduct values context) := by
  unfold Platform.checkedProduct
  generalize (1 : Nat) = product
  induction values generalizing product with
  | nil => exact Calm.ok product
  | cons value values ih =>
    rw [List.foldlM_cons]
    exact Calm.bind (Calm.okOr _ _) fun next _ => ih next

theorem validateBufferShape_calm (element : BufferElement) (frames channels sampleRate : UInt32)
    (count : Nat) (limits : ProjectLimits) :
    Calm (validateBufferShape platform element frames channels sampleRate count limits) := by
  refine Calm.bind (Calm.refuseIf _ _) fun _ _ => ?_
  refine Calm.bind (Calm.refuseIf _ _) fun _ _ => ?_
  refine Calm.bind (Calm.refuseIf _ _) fun _ _ => ?_
  refine Calm.bind (checkedProduct_calm _ _) fun _ _ => ?_
  refine Calm.bind (Calm.refuseIf _ _) fun _ _ => ?_
  refine Calm.bind (checkedProduct_calm _ _) fun _ _ => ?_
  exact Calm.refuseIf _ _

theorem BufferAsset.validate_calm (asset : BufferAsset) (limits : ProjectLimits) :
    Calm (asset.validate platform limits) := by
  refine Calm.bind (validateBufferShape_calm _ _ _ _ _ _) fun _ _ => ?_
  cases asset.samples with
  | bool values => exact Calm.refuseIf _ _
  | i32 values => exact Calm.ok ()
  | i64 values => exact Calm.ok ()
  | f32 values => exact Calm.ok ()
  | f64 values => exact Calm.ok ()

theorem fromCanonicalLeBytes_calm (element : BufferElement) (bytes : Bytes) :
    Calm (BufferSamples.fromCanonicalLeBytes element bytes) := by
  unfold BufferSamples.fromCanonicalLeBytes
  refine Calm.bind (Calm.refuseIf _ _) fun _ _ => ?_
  cases element with
  | bool => exact Calm.bind (Calm.refuseIf _ _) fun _ _ => Calm.ok _
  | i32 => exact Calm.ok _
  | i64 => exact Calm.ok _
  | f32 => exact Calm.ok _
  | f64 => exact Calm.ok _

theorem parseOndabufferHeader_calm (bytes : Bytes) (fileLen : Nat) (limits : ProjectLimits) :
    Calm (parseOndabufferHeader platform bytes fileLen limits) := by
  refine Calm.bind (Calm.refuseIf _ _) fun _ checked => ?_
  have long : 68 ≤ bytes.length := not_lt.mp (refuseIf_ok_iff.mp checked)
  refine Calm.bind (Calm.slice (by omega) (by omega)) fun _ _ => ?_
  refine Calm.bind (Calm.refuseIf _ _) fun _ _ => ?_
  refine Calm.bind (readU32_calm _ _) fun _ _ => ?_
  refine Calm.bind (Calm.refuseIf _ _) fun _ _ => ?_
  refine Calm.bind (Calm.slice (by omega) (by omega)) fun _ _ => ?_
  refine Calm.bind (Calm.refuseIf _ _) fun _ _ => ?_
  refine Calm.bind (Calm.index (by omega)) fun _ _ => ?_
  refine Calm.bind (fromTag_calm _) fun _ _ => ?_
  refine Calm.bind (readU32_calm _ _) fun _ _ => ?_
  refine Calm.bind (readU32_calm _ _) fun _ _ => ?_
  refine Calm.bind (readU32_calm _ _) fun _ _ => ?_
  refine Calm.bind (readWord_calm _ _ _) fun _ _ => ?_
  refine Calm.bind (Calm.okOr _ _) fun _ _ => ?_
  refine Calm.bind (Calm.refuseIf _ _) fun _ _ => ?_
  refine Calm.bind (Calm.okOr _ _) fun _ _ => ?_
  refine Calm.bind (Calm.refuseIf _ _) fun _ _ => ?_
  refine Calm.bind (Calm.refuseIf _ _) fun _ _ => ?_
  refine Calm.bind (validateBufferShape_calm _ _ _ _ _ _) fun _ _ => ?_
  refine Calm.bind (Calm.slice (by omega) (by omega)) fun _ _ => ?_
  exact Calm.ok _

/-- The reader panics on no byte string. -/
theorem decodeOndabuffer_calm (bytes : Bytes) (limits : ProjectLimits) :
    Calm (decodeOndabuffer platform bytes limits) := by
  refine Calm.bind ?_ fun validated _ => ?_
  · refine Calm.bind (parseOndabufferHeader_calm bytes bytes.length limits) fun header parsed => ?_
    have long : ONDA_BUFFER_HEADER_BYTES ≤ bytes.length := by
      obtain ⟨accepted, payload, rfl⟩ := parseOndabufferHeader_iff.mp parsed
      rw [length_containerBytes _ _ _ _ _ _ _ accepted.digest_wide]
      exact Nat.le_add_right _ _
    refine Calm.bind (Calm.slice long le_rfl) fun _ _ => ?_
    refine Calm.bind (Calm.refuseIf _ _) fun _ _ => ?_
    refine Calm.bind (Calm.refuseIf _ _) fun _ _ => ?_
    exact Calm.ok _
  · exact Calm.bind (fromCanonicalLeBytes_calm _ _) fun _ _ => Calm.ok _

/-- The writer panics on no asset. -/
theorem encodeOndabuffer_calm (asset : BufferAsset) : Calm (encodeOndabuffer platform asset) := by
  refine Calm.bind (asset.validate_calm _) fun _ _ => ?_
  rw [asset.contentDigest_eq, asset.samples.canonicalLeBytes_eq]
  exact Calm.ok _

/-- What the default limits refuse is not written. -/
theorem encode_refused (refused : asset.validate platform .default ≠ .ok ()) (bytes : Bytes) :
    encodeOndabuffer platform asset ≠ .ok bytes := by
  intro written
  simp only [encodeOndabuffer, bind_ok_iff] at written
  obtain ⟨⟨⟩, valid, -⟩ := written
  exact refused valid

/-! ### The codec -/

/-- An asset within the default limits leaves room for the header in a `usize`. -/
theorem header_fits (valid : asset.validate platform .default = .ok ()) :
    ONDA_BUFFER_HEADER_BYTES + asset.samples.wire.length ≤ platform.usizeMax := by
  have small := (BufferAsset.validate_iff.mp valid).1.bytes_le
  have limit : ProjectLimits.default.maxAssetBytes = 1073741824 := rfl
  have header : ONDA_BUFFER_HEADER_BYTES = 68 := rfl
  have wide := platform.u32_le_usize
  have length : asset.samples.wire.length = asset.samples.len * asset.element.byteSize :=
    asset.samples.length_wire
  omega

/-- **One asset, one container.** An asset within the default limits is written as one
byte string, and this string is read as the asset under every limits that admit the
asset.  A byte string accepted under any limits is what the asset it is read as is
written as when the asset is within the default limits, and the writer refuses the
asset otherwise.  Neither direction panics, whatever its input. -/
theorem ondabuffer_exact (platform : Platform) :
    (∀ asset : BufferAsset, asset.validate platform .default = .ok () →
      ∃ bytes, encodeOndabuffer platform asset = .ok bytes ∧
        ∀ limits, asset.validate platform limits = .ok () →
          decodeOndabuffer platform bytes limits = .ok asset) ∧
    (∀ (bytes : Bytes) (limits : ProjectLimits) (asset : BufferAsset),
      decodeOndabuffer platform bytes limits = .ok asset →
        asset.validate platform limits = .ok () ∧
        if asset.samples.len * asset.element.byteSize ≤ ProjectLimits.default.maxAssetBytes then
          encodeOndabuffer platform asset = .ok bytes
        else ∃ error, encodeOndabuffer platform asset = .error (.rejected error)) ∧
    (∀ asset : BufferAsset, encodeOndabuffer platform asset ≠ .error .panicked) ∧
    (∀ (bytes : Bytes) (limits : ProjectLimits),
      decodeOndabuffer platform bytes limits ≠ .error .panicked) := by
  refine ⟨?_, ?_, encodeOndabuffer_calm, decodeOndabuffer_calm⟩
  · intro asset valid
    refine ⟨asset.encoding platform, encodeOndabuffer_eq valid, ?_⟩
    intro limits within
    exact decodeOndabuffer_iff.mpr ⟨within, header_fits valid, rfl⟩
  · intro bytes limits asset decoded
    obtain ⟨valid, -, rfl⟩ := decodeOndabuffer_iff.mp decoded
    refine ⟨valid, ?_⟩
    obtain ⟨shape, canonical⟩ := BufferAsset.validate_iff.mp valid
    split
    · rename_i small
      exact encodeOndabuffer_eq (BufferAsset.validate_iff.mpr
        ⟨{ shape with bytes_le := small }, canonical⟩)
    · rename_i large
      have refused : asset.validate platform .default ≠ .ok () := fun within =>
        large (BufferAsset.validate_iff.mp within).1.bytes_le
      cases run : encodeOndabuffer platform asset with
      | ok bytes => exact absurd run (encode_refused refused bytes)
      | error failure =>
        cases failure with
        | rejected error => exact ⟨error, rfl⟩
        | panicked => exact absurd run (encodeOndabuffer_calm asset)

end Assets

/-! ### Beyond the default limits

Validation and reading take their limits from the caller, writing has its own. -/

/-- A one-channel asset of `frames` false samples at 1 Hz. -/
def silentBools (frames : UInt32) : BufferAsset where
  frames := frames
  channels := 1
  sampleRate := 0x3F800000
  samples := .bool (List.replicate frames.toNat 0)

variable {platform : Platform} {limits : ProjectLimits}

theorem silentBools_validate_iff {frames : UInt32} (positive : frames ≠ 0)
    (small : ¬frames > I32_MAX) :
    (silentBools frames).validate platform limits = .ok () ↔
      frames.toNat ≤ limits.maxAssetBytes := by
  have len : (silentBools frames).samples.len = frames.toNat := List.length_replicate
  have fits : frames.toNat ≤ platform.usizeMax := by
    have word := frames.toNat_lt
    have wide := platform.u32_le_usize
    omega
  rw [BufferAsset.validate_iff, len]
  constructor
  · rintro ⟨shape, -⟩
    have bytes_le := shape.bytes_le
    rwa [show (silentBools frames).element.byteSize = 1 from rfl, Nat.mul_one] at bytes_le
  · intro within
    refine ⟨⟨not_or.mpr ⟨positive, small⟩, ?_, ?_, ?_, fits, ?_, ?_⟩, ?_⟩
    · show ¬((1 : UInt32) = 0 ∨ (1 : UInt32) > I32_MAX)
      decide
    · show ¬(¬f32IsFinite 0x3F800000 ∨ f32LeZero 0x3F800000)
      decide
    · exact (Nat.mul_one _).symm
    · rw [show (silentBools frames).element.byteSize = 1 from rfl, Nat.mul_one]
      exact fits
    · rw [show (silentBools frames).element.byteSize = 1 from rfl, Nat.mul_one]
      exact within
    · show (List.replicate frames.toNat (0 : UInt8)).any (· > 1) = false
      rw [List.any_eq_false]
      intro sample mem
      rw [List.eq_of_mem_replicate mem]
      decide

/-- A valid asset has a container that is accepted, if the host can address it. -/
theorem encoding_accepted {asset : BufferAsset} (valid : asset.validate platform limits = .ok ())
    (room : ONDA_BUFFER_HEADER_BYTES + limits.maxAssetBytes ≤ platform.usizeMax) :
    decodeOndabuffer platform (asset.encoding platform) limits = .ok asset := by
  refine decodeOndabuffer_iff.mpr ⟨valid, ?_, rfl⟩
  have small := (BufferAsset.validate_iff.mp valid).1.bytes_le
  rw [BufferSamples.length_wire]
  exact le_trans (Nat.add_le_add_left small _) room

/-- A 64-bit host whose texts are ASCII; its digests are all zero. -/
def Platform.ascii64 : Platform where
  usizeMax := 2 ^ 64 - 1
  u32_le_usize := by decide
  usize_le_u64 := by decide
  sha256 _ := ⟨List.replicate 32 0, rfl⟩
  isNfc _ := true
  nfc text := text
  toLowercase text :=
    ⟨text.bytes.map fun byte => if 65 ≤ byte ∧ byte ≤ 90 then byte + 32 else byte,
      by rw [List.length_map]; exact text.fits⟩
  toUppercase text :=
    ⟨text.bytes.map fun byte => if 97 ≤ byte ∧ byte ≤ 122 then byte - 32 else byte,
      by rw [List.length_map]; exact text.fits⟩

/-- One byte over the default limit: under limits twice as large the asset is valid and
has a container that is accepted, and the writer refuses it. -/
theorem silentBools_not_written :
    (silentBools 1073741825).validate .ascii64
        { ProjectLimits.default with maxAssetBytes := 2147483648 } = .ok () ∧
      (∃ bytes, decodeOndabuffer .ascii64 bytes
        { ProjectLimits.default with maxAssetBytes := 2147483648 } =
          .ok (silentBools 1073741825)) ∧
      ∀ bytes, encodeOndabuffer .ascii64 (silentBools 1073741825) ≠ .ok bytes := by
  have valid : (silentBools 1073741825).validate .ascii64
      { ProjectLimits.default with maxAssetBytes := 2147483648 } = .ok () :=
    (silentBools_validate_iff (by decide) (by decide)).mpr (by decide)
  have refused : (silentBools 1073741825).validate .ascii64 .default ≠ .ok () := by
    rw [Ne, silentBools_validate_iff (by decide) (by decide)]
    decide
  exact ⟨valid, ⟨_, encoding_accepted valid (by decide)⟩, encode_refused refused⟩

/-- Three samples are written and read back. -/
theorem silentBools_written :
    ∃ bytes, encodeOndabuffer .ascii64 (silentBools 3) = .ok bytes ∧
      ∀ limits, (silentBools 3).validate .ascii64 limits = .ok () →
        decodeOndabuffer .ascii64 bytes limits = .ok (silentBools 3) :=
  (ondabuffer_exact .ascii64).1 (silentBools 3)
    ((silentBools_validate_iff (by decide) (by decide)).mpr (by decide))

end Onda.Project
