import Onda.Project.ContentDigest
import Onda.Project.ImageFormat

/-!
# The project image container is exact

Reading inverts writing, and whatever is read is the manifest of a valid image
followed by the payloads of its assets and nothing else.

### Steps of a reader
-/

namespace Onda.Project

open Structured (Eval)
open Wire (littleEndian ofLittleEndian)

variable {platform : Platform} {json : Json} {manifestJson : ManifestJson}
  {limits : ProjectLimits}

variable {bytes : Bytes} {entries : List (AssetId × BufferAsset)} {image : ProjectImage}
  {α β : Type} {next : α → Reading β}

theorem reading_bind_iff {first : Reading α} {result : β} :
    ((first >>= next) ()).2 = .ok result ↔
      ∃ value, (first ()).2 = .ok value ∧ (next value ()).2 = .ok result := by
  constructor
  · exact Eval.bind_ok
  · rintro ⟨value, head, rest⟩
    rw [Eval.run_bind]
    rcases run : first () with ⟨events, outcome⟩
    rw [run] at head
    cases head
    exact rest

@[simp] theorem quietly_result (step : Checked α) : (quietly step ()).2 = step := rfl

@[simp] theorem emit_result (event : DecodeEvent) {done : Unit} :
    ((Eval.emit event : Reading Unit) ()).2 = .ok done ↔ True := by
  simp [Eval.emit]

@[simp] theorem pure_result {value result : α} :
    ((pure value : Reading α) ()).2 = .ok result ↔ value = result := by
  simp

/-! ### The writer -/

/-- Bounded writing is writing, as long as the whole text fits. -/
theorem writeBounded_iff {limit : Nat} {pieces : List Bytes} {written result : Bytes}
    (within : written.length ≤ limit) :
    writeBounded limit pieces written = some result ↔
      written.length + pieces.flatten.length ≤ limit ∧ result = written ++ pieces.flatten := by
  induction pieces generalizing written with
  | nil => simp [writeBounded, within, eq_comm]
  | cons piece pieces ih =>
    rw [writeBounded, List.flatten_cons, List.length_append]
    split
    · simp only [reduceCtorEq, false_iff, not_and]
      omega
    · have stillWithin : (written ++ piece).length ≤ limit := by
        rw [List.length_append]
        omega
      rw [ih stillWithin, List.length_append, List.append_assoc, Nat.add_assoc]

/-- All payloads in order. -/
def payloads (entries : List (AssetId × BufferAsset)) : Bytes :=
  entries.flatMap fun entry => entry.2.samples.wire

theorem appendPayloads_eq (entries : List (AssetId × BufferAsset)) :
    appendPayloads entries = .ok (payloads entries) := by
  induction entries with
  | nil => rfl
  | cons entry entries ih =>
    rw [appendPayloads, entry.2.samples.canonicalLeBytes_eq, ih]
    rfl

theorem payloadBytes_eq {asset : BufferAsset} (valid : asset.validate platform limits = .ok ()) :
    asset.payloadBytes platform = asset.samples.wire.length := by
  rw [BufferSamples.length_wire]
  exact min_eq_left (BufferAsset.validate_iff.mp valid).1.bytes_fit

/-- What the asset loop of `validate` establishes. -/
structure AssetsAccepted (platform : Platform) (limits : ProjectLimits)
    (entries : List (AssetId × BufferAsset)) (total : Nat) : Prop where
  valid : ∀ entry ∈ entries, entry.2.validate platform limits = .ok ()
  named : ∀ entry ∈ entries, entry.1 = digestText (platform.sha256 entry.2.content)
  total_fits : entries ≠ [] → total + (payloads entries).length ≤ platform.usizeMax
  total_le : entries ≠ [] → total + (payloads entries).length ≤ limits.maxTotalAssetBytes

theorem validateAssets_accepted {total : Nat}
    (run : validateAssets platform limits entries total = .ok ()) :
    AssetsAccepted platform limits entries total := by
  induction entries generalizing total with
  | nil => exact ⟨by simp, by simp, by simp, by simp⟩
  | cons entry entries ih =>
    have named := validateAssets_ok run
    simp only [validateAssets, bind_ok_iff, refuseIf_ok_iff, exists_const, okOr_ok_iff,
      Platform.checkedAdd, Option.ite_none_right_eq_some, Option.some.injEq] at run
    obtain ⟨⟨⟩, valid, -, -, -, total', ⟨fits, rfl⟩, le, run⟩ := run
    obtain ⟨validLater, -, fitsLater, leLater⟩ := ih run
    have length : (payloads (entry :: entries)).length =
        entry.2.payloadBytes platform + (payloads entries).length := by
      rw [payloads, List.flatMap_cons, List.length_append, payloadBytes_eq valid]
      rfl
    refine ⟨?_, named, fun _ => ?_, fun _ => ?_⟩
    · intro entry' mem
      rcases List.mem_cons.mp mem with rfl | later
      · exact valid
      · exact validLater entry' later
    · rw [length]
      cases entries with
      | nil => simpa [payloads] using fits
      | cons next entries => have := fitsLater (by simp); omega
    · rw [length]
      cases entries with
      | nil => simpa [payloads] using le
      | cons next entries => have := leLater (by simp); omega

theorem sumPayloads_eq {total : Nat} (accepted : AssetsAccepted platform limits entries total) :
    sumPayloads platform entries total = some (total + (payloads entries).length) := by
  induction entries generalizing total with
  | nil => simp [sumPayloads, payloads]
  | cons entry entries ih =>
    have valid := accepted.valid entry (by simp)
    have fits := accepted.total_fits (by simp)
    have le := accepted.total_le (by simp)
    rw [payloads, List.flatMap_cons, List.length_append, ← payloads] at fits le ⊢
    have accepted' : AssetsAccepted platform limits entries
        (total + entry.2.samples.wire.length) :=
      ⟨fun later mem => accepted.valid later (by simp [mem]),
        fun later mem => accepted.named later (by simp [mem]),
        fun _ => by omega, fun _ => by omega⟩
    rw [sumPayloads, payloadBytes_eq valid, Platform.checkedAdd, if_pos (by omega)]
    exact (ih accepted').trans (by rw [Nat.add_assoc])

theorem ProjectImage.assetsAccepted (valid : image.validate platform limits = .ok ()) :
    AssetsAccepted platform limits image.assets.entries 0 ∧
      image.assets.entries.length ≤ limits.maxAssets := by
  simp only [ProjectImage.validate, bind_ok_iff, refuseIf_ok_iff, exists_const, not_lt,
    gt_iff_lt] at valid
  obtain ⟨⟨⟩, -, ⟨⟩, -, few, -, ⟨⟩, assets, -⟩ := valid
  exact ⟨validateAssets_accepted assets, few⟩

/-! ### The asset loop -/

/-- The entries an asset loop reads: valid, named by their digests, distinct and new. -/
structure EntriesRead (platform : Platform) (limits : ProjectLimits)
    (entries : List (AssetId × BufferAsset)) (assets : OrderedMap AssetId BufferAsset) : Prop where
  valid : ∀ entry ∈ entries, entry.2.validate platform limits = .ok ()
  named : ∀ entry ∈ entries, entry.1 = digestText (platform.sha256 entry.2.content)
  distinct : (entries.map Prod.fst).Nodup
  fresh : ∀ entry ∈ entries, entry.1 ∉ assets.keys

/-- **Reading assets, soundness.** The descriptors describe assets whose payloads lie one
after another from the cursor on. -/
theorem readAssets_sound {descriptors : List WireAsset} {cursor total : Nat}
    {assets assets' : OrderedMap AssetId BufferAsset} {cursor' : Nat}
    (start : cursor ≤ bytes.length)
    (run : (readAssets platform bytes limits descriptors cursor total assets ()).2 =
      .ok (assets', cursor')) :
    ∃ entries rest, descriptors = entries.map (describeAsset platform) ∧
      EntriesRead platform limits entries assets ∧
      bytes.drop cursor = payloads entries ++ rest ∧
      cursor' = cursor + (payloads entries).length ∧ cursor' ≤ bytes.length ∧
      assets' = assets.insertAll entries := by
  induction descriptors generalizing cursor total assets with
  | nil =>
    cases run
    exact ⟨[], bytes.drop _, rfl, ⟨by simp, by simp, by simp, by simp⟩, rfl, rfl, start, rfl⟩
  | cons descriptor descriptors ih =>
    simp only [readAssets, reading_bind_iff, quietly_result, okOr_ok_iff, refuseIf_ok_iff,
      exists_const, Platform.usizeTryFrom, Platform.checkedAdd, Option.ite_none_right_eq_some,
      Option.some.injEq, emit_result, true_and, BufferSamples.fromCanonicalLeBytes_iff,
      AssetId.forBuffer, BufferAsset.contentDigest_eq, bind_ok_iff, Except.ok.injEq,
      exists_eq_left', pure, Except.pure, Decidable.not_not] at run
    obtain ⟨len, ⟨-, rfl⟩, -, total', ⟨-, rfl⟩, -, stop, ⟨-, rfl⟩, payload, found, samples,
      ⟨element, rfl, canonical⟩, ⟨⟩, valid, named, fresh, run⟩ := run
    set asset : BufferAsset := ⟨descriptor.frames, descriptor.channels, descriptor.sampleRateBits,
      samples⟩ with asset_eq
    unfold getRange at found
    split at found
    case isFalse => cases found
    rename_i inside
    have payload_eq := Option.some.inj found
    rw [Nat.add_sub_cancel_left] at payload_eq
    have length : samples.wire.length = descriptor.payloadBytes := by
      rw [← payload_eq, List.length_take, List.length_drop]
      omega
    obtain ⟨entries, rest, rfl, read, behind, cursor_eq, cursor_le, rfl⟩ := ih inside.2 run
    have absent : descriptor.id ∉ assets.keys := by
      rw [← OrderedMap.get?_eq_none_iff]
      simpa using fresh
    refine ⟨(descriptor.id, asset) :: entries, rest, ?_, ⟨?_, ?_, ?_, ?_⟩, ?_, ?_, cursor_le, rfl⟩
    · rw [List.map_cons]
      congr 1
      obtain ⟨id, element', frames, channels, rate, payloadBytes⟩ := descriptor
      simp only [describeAsset, asset_eq] at element length ⊢
      rw [payloadBytes_eq valid, WireAsset.mk.injEq]
      exact ⟨rfl, element.symm, rfl, rfl, rfl, length.symm⟩
    · intro entry mem
      rcases List.mem_cons.mp mem with rfl | later
      · exact valid
      · exact read.valid entry later
    · intro entry mem
      rcases List.mem_cons.mp mem with rfl | later
      · exact named
      · exact read.named entry later
    · rw [List.map_cons, List.nodup_cons]
      refine ⟨?_, read.distinct⟩
      intro mem
      obtain ⟨entry, entryMem, same⟩ := List.mem_map.mp mem
      exact read.fresh entry entryMem (OrderedMap.mem_keys_insert.mpr (.inl same))
    · intro entry mem
      rcases List.mem_cons.mp mem with rfl | later
      · exact absent
      · exact fun held => read.fresh entry later (OrderedMap.mem_keys_insert.mpr (.inr held))
    · have whole := List.take_append_drop descriptor.payloadBytes (bytes.drop cursor)
      rw [payload_eq, List.drop_drop, behind] at whole
      rw [← whole, payloads, payloads, List.flatMap_cons, List.append_assoc]
    · rw [cursor_eq, payloads, payloads, List.flatMap_cons, List.length_append, length]
      omega

/-- **Reading assets, completeness.** Described assets with their payloads in place are
read. -/
theorem readAssets_complete {cursor total : Nat} {assets : OrderedMap AssetId BufferAsset}
    {rest : Bytes} (accepted : AssetsAccepted platform limits entries total)
    (read : EntriesRead platform limits entries assets) (start : cursor ≤ bytes.length)
    (room : bytes.length ≤ platform.usizeMax)
    (behind : bytes.drop cursor = payloads entries ++ rest) :
    (readAssets platform bytes limits (entries.map (describeAsset platform)) cursor total assets
      ()).2 = .ok (assets.insertAll entries, cursor + (payloads entries).length) := by
  induction entries generalizing cursor total assets with
  | nil => rfl
  | cons entry entries ih =>
    obtain ⟨id, asset⟩ := entry
    have valid := read.valid (id, asset) (by simp)
    have named := read.named (id, asset) (by simp)
    have absent := read.fresh (id, asset) (by simp)
    obtain ⟨shape, canonical⟩ := BufferAsset.validate_iff.mp valid
    have fits := accepted.total_fits (by simp)
    have le := accepted.total_le (by simp)
    have split : payloads ((id, asset) :: entries) = asset.samples.wire ++ payloads entries := rfl
    rw [split, List.length_append] at fits le
    rw [split, List.append_assoc] at behind
    have length : asset.samples.wire.length = asset.samples.len * asset.element.byteSize :=
      asset.samples.length_wire
    have fitsOne := shape.bytes_fit
    have leOne := shape.bytes_le
    rw [← length] at fitsOne leOne
    have covered : cursor + asset.samples.wire.length ≤ bytes.length := by
      have lengths := congrArg List.length behind
      rw [List.length_drop, List.length_append] at lengths
      omega
    have behind' : bytes.drop (cursor + asset.samples.wire.length) = payloads entries ++ rest := by
      rw [← List.drop_drop, behind, List.drop_left]
    have found : getRange bytes cursor (cursor + asset.samples.wire.length) =
        some asset.samples.wire := by
      rw [getRange_eq (Nat.le_add_right _ _) covered, behind, Nat.add_sub_cancel_left,
        List.take_left]
    have later : EntriesRead platform limits entries (assets.insert id asset) := by
      refine ⟨fun entry mem => read.valid entry (by simp [mem]),
        fun entry mem => read.named entry (by simp [mem]), ?_, ?_⟩
      · exact (List.nodup_cons.mp read.distinct).2
      · intro entry mem held
        rcases OrderedMap.mem_keys_insert.mp held with same | held
        · have key : entry.1 ∈ entries.map Prod.fst := List.mem_map_of_mem mem
          rw [same] at key
          exact (List.nodup_cons.mp read.distinct).1 key
        · exact read.fresh entry (by simp [mem]) held
    have acceptedLater : AssetsAccepted platform limits entries
        (total + asset.samples.wire.length) :=
      ⟨later.valid, later.named, fun _ => by omega, fun _ => by omega⟩
    have tail := ih acceptedLater later covered behind'
    simp only [List.map_cons, readAssets, reading_bind_iff, quietly_result, okOr_ok_iff,
      refuseIf_ok_iff, exists_const, Platform.usizeTryFrom, Platform.checkedAdd,
      Option.ite_none_right_eq_some, Option.some.injEq, emit_result, true_and,
      BufferSamples.fromCanonicalLeBytes_iff, AssetId.forBuffer, BufferAsset.contentDigest_eq,
      bind_ok_iff, Except.ok.injEq, exists_eq_left', pure, Except.pure, Decidable.not_not,
      describeAsset, payloadBytes_eq valid]
    refine ⟨_, ⟨fitsOne, rfl⟩, not_lt.mpr leOne, _, ⟨by omega, rfl⟩, by omega, _,
      ⟨by omega, rfl⟩, _, found, asset.samples, ⟨rfl, rfl, canonical⟩, (), valid, named, ?_, ?_⟩
    · rw [OrderedMap.get?_eq_none_iff.mpr absent]
      simp
    · rw [tail, split, List.length_append, Nat.add_assoc]
      rfl

/-! ### The container -/

/-- The container of a manifest and payloads. -/
def imageBytes (manifest payload : Bytes) : Bytes :=
  ONDA_PROJECT_IMAGE_MAGIC ++ (littleEndian 4 ONDA_PROJECT_IMAGE_FORMAT_VERSION.toNat ++
    (littleEndian 8 manifest.length ++ (manifest ++ payload)))

theorem length_imageBytes (manifest payload : Bytes) : (imageBytes manifest payload).length =
    ONDA_PROJECT_IMAGE_HEADER_BYTES + manifest.length + payload.length := by
  have magic : ONDA_PROJECT_IMAGE_MAGIC.length = 8 := by decide
  have header : ONDA_PROJECT_IMAGE_HEADER_BYTES = 20 := rfl
  simp only [imageBytes, List.length_append, magic, Wire.length_littleEndian, header]
  omega

/-- The manifest's text is what the JSON writer writes. -/
def ProjectImage.manifestText (platform : Platform) (json : Json) (manifestJson : ManifestJson)
    (image : ProjectImage) : Bytes :=
  (manifestJson.toWriter (image.wire platform json)).flatten

/-- **The writer.** A valid image whose manifest is within its limit, and whose container
fits into memory, is written as its container; nothing else is. -/
theorem serialize_iff :
    image.serializeWithLimits platform json manifestJson limits = .ok bytes ↔
      image.validate platform limits = .ok () ∧
        (image.manifestText platform json manifestJson).length ≤ limits.maxManifestBytes ∧
        bytes.length ≤ platform.usizeMax / 2 ∧
        bytes = imageBytes (image.manifestText platform json manifestJson)
          (payloads image.assets.entries) := by
  obtain ⟨text, text_eq⟩ : ∃ text, image.manifestText platform json manifestJson = text := ⟨_, rfl⟩
  have bounded : ∀ result, writeBounded limits.maxManifestBytes
      (manifestJson.toWriter (image.wire platform json)) [] = some result ↔
        text.length ≤ limits.maxManifestBytes ∧ result = text := by
    intro result
    rw [writeBounded_iff (Nat.zero_le _), ← text_eq, List.length_nil, Nat.zero_add,
      List.nil_append]
    rfl
  rw [text_eq]
  constructor
  · intro run
    simp only [ProjectImage.serializeWithLimits, bind_ok_iff, okOr_ok_iff, appendPayloads_eq,
      Except.ok.injEq, exists_eq_left', pure, Except.pure] at run
    obtain ⟨⟨⟩, valid, manifest, written, size, summed, ⟨⟩, allocated, rfl⟩ := run
    obtain ⟨short, rfl⟩ := (bounded _).mp written
    rw [sumPayloads_eq (ProjectImage.assetsAccepted valid).1, Nat.zero_add] at summed
    cases summed
    have bytes_eq : ONDA_PROJECT_IMAGE_MAGIC ++
        littleEndian 4 ONDA_PROJECT_IMAGE_FORMAT_VERSION.toNat ++
        littleEndian 8 manifest.length ++ manifest ++ payloads image.assets.entries =
        imageBytes manifest (payloads image.assets.entries) := by
      simp only [imageBytes, List.append_assoc]
    refine ⟨valid, short, ?_, bytes_eq⟩
    rw [bytes_eq, length_imageBytes]
    by_contra large
    rw [allocate, if_neg large] at allocated
    cases allocated
  · rintro ⟨valid, short, small, rfl⟩
    have written := (bounded _).mpr ⟨short, rfl⟩
    rw [length_imageBytes] at small
    rw [ProjectImage.serializeWithLimits, valid, written,
      sumPayloads_eq (ProjectImage.assetsAccepted valid).1, Nat.zero_add, appendPayloads_eq]
    simp only [bind, Except.bind, okOr, allocate, if_pos small, pure, Except.pure, imageBytes,
      List.append_assoc]

/-! ### The reader -/

/-- A record is the manifest of an image: the fields the reader compares or keeps. -/
structure Describes (platform : Platform) (json : Json) (wire : WireProjectImage)
    (entries : List (AssetId × BufferAsset)) (image : ProjectImage) : Prop where
  format : wire.format = ascii "onda-project-image"
  formatVersion : wire.formatVersion = ONDA_PROJECT_IMAGE_FORMAT_VERSION
  assets : wire.assets = entries.map (describeAsset platform)
  image_eq : image = ProjectImage.ofSorted wire.sources wire.constants wire.bufferBindings
    (OrderedMap.empty.insertAll entries)
  digest : wire.contentDigest = digestText (image.calculateContentDigest platform json)

theorem readImageWord_of_getRange {width offset : Nat} {field : Bytes}
    (early : offset + width ≤ ONDA_PROJECT_IMAGE_HEADER_BYTES)
    (found : getRange bytes offset (offset + width) = some field) :
    readImageWord platform width bytes offset = .ok (ofLittleEndian field) := by
  have fits : offset + width ≤ platform.usizeMax := by
    have wide := platform.u32_le_usize
    have header : ONDA_PROJECT_IMAGE_HEADER_BYTES = 20 := rfl
    omega
  rw [readImageWord, min_eq_left fits, found]
  rfl

/-- The header reads of the reader, on a byte string with a complete header. -/
theorem header_reads {magic version len rest : Bytes} (wide : magic.length = 8)
    (wide' : version.length = 4) (wide'' : len.length = 8) :
    slice (magic ++ (version ++ (len ++ rest))) 0 8 = .ok magic ∧
      readImageWord platform 4 (magic ++ (version ++ (len ++ rest))) 8 =
        .ok (ofLittleEndian version) ∧
      readImageWord platform 8 (magic ++ (version ++ (len ++ rest))) 12 =
        .ok (ofLittleEndian len) := by
  refine ⟨slice_of_getRange (getRange_here wide), ?_, ?_⟩
  · apply readImageWord_of_getRange (by decide)
    rw [getRange_skip] <;> simp [getRange_here, wide, wide']
  · apply readImageWord_of_getRange (by decide)
    rw [getRange_skip, getRange_skip] <;> simp [getRange_here, wide, wide', wide'']

/-- The manifest of a container, and what follows it. -/
theorem getRange_manifest {magic version len rest : Bytes} {size : Nat}
    (wide : magic.length = 8) (wide' : version.length = 4) (wide'' : len.length = 8) :
    getRange (magic ++ (version ++ (len ++ rest))) ONDA_PROJECT_IMAGE_HEADER_BYTES
      (ONDA_PROJECT_IMAGE_HEADER_BYTES + size) = getRange rest 0 size := by
  have header : ONDA_PROJECT_IMAGE_HEADER_BYTES = 20 := rfl
  have start : 20 - 8 - 4 - 8 = 0 := rfl
  have stop : 20 + size - 8 - 4 - 8 = size := by omega
  rw [header, getRange_skip, getRange_skip, getRange_skip, wide, wide', wide'', start, stop]
  all_goals omega

/-- **The reader, soundness.** What is read is a valid image, and the byte string is its
manifest followed by the payloads of its assets. -/
theorem deserialize_sound
    (run : (ProjectImage.deserialize platform json manifestJson bytes limits ()).2 = .ok image) :
    image.validate platform limits = .ok () ∧
      ∃ manifest wire entries, bytes = imageBytes manifest (payloads entries) ∧
        manifestJson.fromSlice manifest = .ok wire ∧
        EntriesRead platform limits entries .empty ∧
        Describes platform json wire entries image := by
  simp only [ProjectImage.deserialize, reading_bind_iff, quietly_result, okOr_ok_iff,
    refuseIf_ok_iff, exists_const, emit_result, true_and, pure_result, not_lt] at run
  obtain ⟨long, magic, readMagic, magic_eq, version, readVersion, version_eq, len, readLen, len',
    len_fits, -, stop, stop_eq, manifest, found, wire, parsed, formats, -, ⟨assets, cursor⟩,
    readAll, cursor_eq, ⟨⟩, valid, digest, rfl⟩ := run
  obtain ⟨magicField, rest₁, wide, rfl⟩ := exists_split bytes 8
    (le_trans (by decide) long)
  rw [List.length_append] at long
  have header : ONDA_PROJECT_IMAGE_HEADER_BYTES = 20 := rfl
  obtain ⟨versionField, rest₂, wide', rfl⟩ := exists_split rest₁ 4 (by omega)
  rw [List.length_append] at long
  obtain ⟨lenField, rest, wide'', rfl⟩ := exists_split rest₂ 8 (by omega)
  obtain ⟨sliceMagic, wordVersion, wordLen⟩ :=
    @header_reads platform _ _ _ rest wide wide' wide''
  rw [sliceMagic] at readMagic
  rw [wordVersion] at readVersion
  rw [wordLen] at readLen
  obtain rfl := Except.ok.inj readMagic
  obtain rfl := Except.ok.inj readVersion
  obtain rfl := Except.ok.inj readLen
  simp only [Platform.usizeTryFrom, Platform.checkedAdd, Option.ite_none_right_eq_some,
    Option.some.injEq] at len_fits stop_eq
  obtain ⟨-, rfl⟩ := len_fits
  obtain ⟨-, rfl⟩ := stop_eq
  rw [getRange_manifest wide wide' wide''] at found
  unfold getRange at found
  split at found
  case isFalse => cases found
  rename_i inside
  have manifest_eq := Option.some.inj found
  rw [List.drop_zero, Nat.sub_zero] at manifest_eq
  have manifest_length : manifest.length = ofLittleEndian lenField := by
    rw [← manifest_eq, List.length_take]
    omega
  have total : (magicField ++ (versionField ++ (lenField ++ rest))).length = 20 + rest.length := by
    simp only [List.length_append, wide, wide', wide'']
    omega
  obtain ⟨entries, behind, assets_eq, read, payload_eq, cursor', -, rfl⟩ :=
    readAssets_sound (by rw [total, header]; omega) readAll
  have payload : rest.drop (ofLittleEndian lenField) = payloads entries ++ behind := by
    rw [← payload_eq, header]
    have split : magicField ++ (versionField ++ (lenField ++ rest)) =
        (magicField ++ versionField ++ lenField) ++ rest := by
      simp only [List.append_assoc]
    rw [split, ← List.drop_drop, List.drop_left' (by simp [wide, wide', wide''])]
  have noneBehind : behind = [] := by
    have lengths := congrArg List.length payload
    rw [List.length_drop, List.length_append] at lengths
    rw [total, cursor', header, Decidable.not_not] at cursor_eq
    apply List.length_eq_zero_iff.mp
    omega
  rw [not_or, Decidable.not_not, Decidable.not_not] at formats
  rw [noneBehind, List.append_nil] at payload
  have parsed' : manifestJson.fromSlice manifest = .ok wire := by
    cases text : manifestJson.fromSlice manifest with
    | ok record =>
      rw [text] at parsed
      simpa using parsed
    | error message =>
      rw [text] at parsed
      cases parsed
  refine ⟨valid, manifest, wire, entries, ?_, parsed', read, formats.1, formats.2, assets_eq, rfl,
    Decidable.not_not.mp digest⟩
  have magic_eq := Decidable.not_not.mp magic_eq
  have version_eq := Decidable.not_not.mp version_eq
  rw [imageBytes, magic_eq, ← version_eq, ← wide', Wire.littleEndian_ofLittleEndian,
    manifest_length, ← wide'', Wire.littleEndian_ofLittleEndian, ← payload, ← manifest_eq,
    List.take_append_drop]

/-- **The reader, completeness.** -/
theorem deserialize_complete {manifest : Bytes} {wire : WireProjectImage}
    (short : manifest.length ≤ limits.maxManifestBytes)
    (room : (imageBytes manifest (payloads entries)).length ≤ platform.usizeMax)
    (parsed : manifestJson.fromSlice manifest = .ok wire)
    (describes : Describes platform json wire entries image)
    (few : entries.length ≤ limits.maxAssets) (accepted : AssetsAccepted platform limits entries 0)
    (read : EntriesRead platform limits entries .empty)
    (valid : image.validate platform limits = .ok ()) :
    (ProjectImage.deserialize platform json manifestJson
      (imageBytes manifest (payloads entries)) limits ()).2 = .ok image := by
  have header : ONDA_PROJECT_IMAGE_HEADER_BYTES = 20 := rfl
  have magic : ONDA_PROJECT_IMAGE_MAGIC.length = 8 := by decide
  have total := length_imageBytes manifest (payloads entries)
  obtain ⟨sliceMagic, wordVersion, wordLen⟩ := @header_reads platform _
    (littleEndian 4 ONDA_PROJECT_IMAGE_FORMAT_VERSION.toNat) (littleEndian 8 manifest.length)
    (manifest ++ payloads entries) magic (by simp) (by simp)
  have lenFits : manifest.length ≤ platform.usizeMax := by omega
  have len_eq : ofLittleEndian (littleEndian 8 manifest.length) = manifest.length := by
    apply Wire.ofLittleEndian_littleEndian
    calc manifest.length ≤ platform.usizeMax := lenFits
      _ < 2 ^ 64 := platform.usize_le_u64
      _ = 256 ^ 8 := by norm_num
  rw [len_eq] at wordLen
  have found : getRange (imageBytes manifest (payloads entries)) ONDA_PROJECT_IMAGE_HEADER_BYTES
      (ONDA_PROJECT_IMAGE_HEADER_BYTES + manifest.length) = some manifest := by
    rw [imageBytes, getRange_manifest magic (by simp) (by simp)]
    exact getRange_here rfl
  have behind : (imageBytes manifest (payloads entries)).drop
      (ONDA_PROJECT_IMAGE_HEADER_BYTES + manifest.length) = payloads entries ++ [] := by
    have split : imageBytes manifest (payloads entries) = (ONDA_PROJECT_IMAGE_MAGIC ++
        littleEndian 4 ONDA_PROJECT_IMAGE_FORMAT_VERSION.toNat ++
        littleEndian 8 manifest.length ++ manifest) ++ payloads entries := by
      simp only [imageBytes, List.append_assoc]
    rw [split, List.drop_left' (by simp [magic, header]; omega), List.append_nil]
  have assets := readAssets_complete accepted read (by omega) room behind
  simp only [ProjectImage.deserialize, reading_bind_iff, quietly_result, okOr_ok_iff,
    refuseIf_ok_iff, exists_const, emit_result, true_and, pure_result, not_lt]
  refine ⟨by omega, _, sliceMagic, by simp, _, wordVersion, ?_, _, wordLen, manifest.length, ?_,
    short, ONDA_PROJECT_IMAGE_HEADER_BYTES + manifest.length, ?_, manifest, found, wire, ?_, ?_, ?_,
    (OrderedMap.empty.insertAll entries, ONDA_PROJECT_IMAGE_HEADER_BYTES + manifest.length +
      (payloads entries).length), ?_, ?_, (), ?_, ?_, ?_⟩
  · decide
  · rw [Platform.usizeTryFrom, if_pos lenFits]
  · rw [Platform.checkedAdd, if_pos (by omega)]
  · rw [parsed]
  · rw [not_or, Decidable.not_not, Decidable.not_not]
    exact ⟨describes.format, describes.formatVersion⟩
  · rw [describes.assets, List.length_map]
    exact few
  · rw [describes.assets]
    exact assets
  · rw [total]
    simp
  · rw [← describes.image_eq]
    exact valid
  · rw [← describes.image_eq]
    exact Decidable.not_not.mpr describes.digest
  · exact describes.image_eq.symm

/-! ### Limits

What is handed to a decoder, over a whole run. -/

/-- The payload sizes among the decoder calls. -/
def payloadSizes (events : List DecodeEvent) : List Nat :=
  events.filterMap fun event =>
    match event with
    | .payload bytes => some bytes
    | .manifest _ => none

/-- No decoder is called beyond the limits. -/
structure DecodesWithin (limits : ProjectLimits) (events : List DecodeEvent) : Prop where
  manifest : ∀ size, .manifest size ∈ events → size ≤ limits.maxManifestBytes
  payload : ∀ size ∈ payloadSizes events, size ≤ limits.maxAssetBytes
  total : (payloadSizes events).sum ≤ limits.maxTotalAssetBytes
  count : (payloadSizes events).length ≤ limits.maxAssets

/-- A quiet step calls no decoder: either the reader stops or it goes on. -/
theorem events_quietly {step : Checked α} {P : List DecodeEvent → Prop} (stopped : P [])
    (goesOn : ∀ value, step = .ok value → P (next value ()).1) :
    P ((quietly step >>= next) ()).1 := by
  rw [Eval.run_bind]
  cases run : step with
  | error failure => exact stopped
  | ok value => simpa [quietly] using goesOn value run

theorem events_emit {event : DecodeEvent} {next : Unit → Reading β} :
    ((Eval.emit event >>= next) ()).1 = event :: (next () ()).1 := rfl

/-- What the asset loop decodes, on top of the bytes it has already counted. -/
structure PayloadsWithin (limits : ProjectLimits) (total count : Nat)
    (events : List DecodeEvent) : Prop where
  only : ∀ size, .manifest size ∉ events
  payload : ∀ size ∈ payloadSizes events, size ≤ limits.maxAssetBytes
  total_le : total + (payloadSizes events).sum ≤ limits.maxTotalAssetBytes
  count_le : (payloadSizes events).length ≤ count

theorem PayloadsWithin.stopped {total count : Nat} (before : total ≤ limits.maxTotalAssetBytes) :
    PayloadsWithin limits total count [] :=
  ⟨by simp, by simp [payloadSizes], by simpa [payloadSizes] using before, by simp [payloadSizes]⟩

/-- One payload more, which was counted first. -/
theorem PayloadsWithin.cons {total count len : Nat} {events : List DecodeEvent}
    (within : len ≤ limits.maxAssetBytes)
    (later : PayloadsWithin limits (total + len) count events) :
    PayloadsWithin limits total (count + 1) (.payload len :: events) := by
  have sizes : payloadSizes (.payload len :: events) = len :: payloadSizes events := rfl
  refine ⟨?_, ?_, ?_, ?_⟩
  · intro size mem
    rcases List.mem_cons.mp mem with same | mem
    · cases same
    · exact later.only size mem
  · intro size mem
    rw [sizes] at mem
    rcases List.mem_cons.mp mem with rfl | mem
    · exact within
    · exact later.payload size mem
  · rw [sizes, List.sum_cons, ← Nat.add_assoc]
    exact later.total_le
  · rw [sizes, List.length_cons]
    exact Nat.succ_le_succ later.count_le

theorem length_of_getRange {field : Bytes} {start width : Nat}
    (found : getRange bytes start (start + width) = some field) : field.length = width := by
  unfold getRange at found
  split at found
  case isFalse => cases found
  rename_i inside
  rw [← Option.some.inj found, List.length_take, List.length_drop]
  omega

/-- **The asset loop decodes within the limits.** -/
theorem readAssets_within {bytes : Bytes} {descriptors : List WireAsset} {cursor total : Nat}
    {assets : OrderedMap AssetId BufferAsset} (before : total ≤ limits.maxTotalAssetBytes) :
    PayloadsWithin limits total descriptors.length
      (readAssets platform bytes limits descriptors cursor total assets ()).1 := by
  induction descriptors generalizing cursor total assets with
  | nil => exact PayloadsWithin.stopped before
  | cons descriptor descriptors ih =>
    have stopped : PayloadsWithin limits total (descriptor :: descriptors).length [] :=
      PayloadsWithin.stopped before
    rw [readAssets]
    refine events_quietly stopped fun len lenRead => ?_
    refine events_quietly stopped fun _ lenChecked => ?_
    refine events_quietly stopped fun total' totalAdded => ?_
    refine events_quietly stopped fun _ totalChecked => ?_
    refine events_quietly stopped fun stop stopAdded => ?_
    refine events_quietly stopped fun payload found => ?_
    rw [refuseIf_ok_iff, not_lt] at lenChecked totalChecked
    simp only [okOr_ok_iff, Platform.checkedAdd, Option.ite_none_right_eq_some,
      Option.some.injEq] at totalAdded stopAdded found
    obtain ⟨-, rfl⟩ := totalAdded
    obtain ⟨-, rfl⟩ := stopAdded
    -- one payload is decoded, and what follows starts from the new total
    rw [events_emit, length_of_getRange found]
    apply PayloadsWithin.cons lenChecked
    have stopped' : PayloadsWithin limits (total + len) descriptors.length [] :=
      PayloadsWithin.stopped totalChecked
    refine events_quietly stopped' fun samples _ => ?_
    refine events_quietly stopped' fun _ _ => ?_
    refine events_quietly stopped' fun expected _ => ?_
    refine events_quietly stopped' fun _ _ => ?_
    refine events_quietly stopped' fun _ _ => ?_
    exact ih totalChecked

/-- **Limits come first.** Whatever the byte string, nothing beyond a limit is decoded. -/
theorem deserialize_within (bytes : Bytes) :
    DecodesWithin limits
      (ProjectImage.deserialize platform json manifestJson bytes limits ()).1 := by
  have stopped : DecodesWithin limits [] := ⟨by simp, by simp [payloadSizes], by simp [payloadSizes],
    by simp [payloadSizes]⟩
  rw [ProjectImage.deserialize]
  refine events_quietly stopped fun _ _ => ?_
  refine events_quietly stopped fun magic _ => ?_
  refine events_quietly stopped fun _ _ => ?_
  refine events_quietly stopped fun version _ => ?_
  refine events_quietly stopped fun _ _ => ?_
  refine events_quietly stopped fun lenU64 _ => ?_
  refine events_quietly stopped fun len _ => ?_
  refine events_quietly stopped fun _ lenChecked => ?_
  refine events_quietly stopped fun stop stopAdded => ?_
  refine events_quietly stopped fun manifest found => ?_
  rw [refuseIf_ok_iff, not_lt] at lenChecked
  simp only [okOr_ok_iff, Platform.checkedAdd, Option.ite_none_right_eq_some,
    Option.some.injEq] at stopAdded found
  obtain ⟨-, rfl⟩ := stopAdded
  rw [events_emit, length_of_getRange found]
  have manifestOnly : DecodesWithin limits [.manifest len] := by
    refine ⟨?_, by simp [payloadSizes], by simp [payloadSizes], by simp [payloadSizes]⟩
    intro size mem
    cases List.mem_singleton.mp mem
    exact lenChecked
  refine events_quietly (P := fun events => DecodesWithin limits (.manifest len :: events))
    manifestOnly fun wire _ => ?_
  refine events_quietly (P := fun events => DecodesWithin limits (.manifest len :: events))
    manifestOnly fun _ _ => ?_
  refine events_quietly (P := fun events => DecodesWithin limits (.manifest len :: events))
    manifestOnly fun _ few => ?_
  rw [refuseIf_ok_iff, not_lt] at few
  have loop := @readAssets_within platform limits bytes wire.assets
    (ONDA_PROJECT_IMAGE_HEADER_BYTES + len) 0 .empty (Nat.zero_le _)
  have enough : DecodesWithin limits (.manifest len :: (readAssets platform bytes limits
      wire.assets (ONDA_PROJECT_IMAGE_HEADER_BYTES + len) 0 .empty ()).1) := by
    refine ⟨?_, loop.payload, ?_, le_trans loop.count_le few⟩
    · intro size mem
      rcases List.mem_cons.mp mem with same | mem
      · cases same
        exact lenChecked
      · exact absurd mem (loop.only size)
    · have total := loop.total_le
      rw [Nat.zero_add] at total
      exact total
  -- the steps behind the loop decode nothing
  rw [Eval.run_bind]
  rcases run : readAssets platform bytes limits wire.assets
    (ONDA_PROJECT_IMAGE_HEADER_BYTES + len) 0 .empty () with ⟨events, result⟩
  rw [run] at enough
  cases result with
  | error failure => exact enough
  | ok value =>
    have quiet : ∀ tail : List DecodeEvent, tail = [] →
        DecodesWithin limits (.manifest len :: (events ++ tail)) := by
      rintro _ rfl
      rwa [List.append_nil]
    apply quiet
    refine events_quietly (P := (· = [])) rfl fun _ _ => ?_
    refine events_quietly (P := (· = [])) rfl fun _ _ => ?_
    refine events_quietly (P := (· = [])) rfl fun _ _ => ?_
    rfl

/-! ### The codec -/

/-- `serde_json` reads back the manifest it writes for an image. -/
def ManifestRoundTrips (platform : Platform) (json : Json) (manifestJson : ManifestJson)
    (image : ProjectImage) : Prop :=
  manifestJson.fromSlice (image.manifestText platform json manifestJson) =
    .ok (image.wire platform json)

theorem ProjectImage.ext {left right : ProjectImage} (sources : left.sources = right.sources)
    (constants : left.constants = right.constants)
    (bufferBindings : left.bufferBindings = right.bufferBindings)
    (assets : left.assets = right.assets) : left = right := by
  cases left
  cases right
  cases sources
  cases constants
  cases bufferBindings
  cases assets
  rfl

/-- Sorting what is sorted, and rebuilding a map from its entries, changes nothing. -/
theorem ofSorted_self (image : ProjectImage) :
    image = ProjectImage.ofSorted image.sources image.constants image.bufferBindings
      (OrderedMap.empty.insertAll image.assets.entries) := by
  have documents : image.sources.documents.insertionSort pathLe = image.sources.documents :=
    image.documents_sorted.insertionSort_eq
  have resolutions := image.resolutions_sorted.insertionSort_eq
  apply ProjectImage.ext
  · simp only [ProjectImage.ofSorted, documents, resolutions]
  · rfl
  · rfl
  · exact (OrderedMap.insertAll_entries image.assets).symm

theorem entriesRead_of_valid (valid : image.validate platform limits = .ok ()) :
    EntriesRead platform limits image.assets.entries .empty := by
  have accepted := (ProjectImage.assetsAccepted valid).1
  refine ⟨accepted.valid, accepted.named, ?_, fun entry _ held => by cases held⟩
  exact image.assets.ordered.imp fun less => ne_of_lt less

/-- What was written is read back. -/
theorem deserialize_serialize (roundTrips : ManifestRoundTrips platform json manifestJson image)
    (written : image.serializeWithLimits platform json manifestJson limits = .ok bytes) :
    (ProjectImage.deserialize platform json manifestJson bytes limits ()).2 = .ok image := by
  obtain ⟨valid, short, small, rfl⟩ := serialize_iff.mp written
  obtain ⟨accepted, few⟩ := ProjectImage.assetsAccepted valid
  exact deserialize_complete short (le_trans small (Nat.div_le_self _ _)) roundTrips
    ⟨rfl, rfl, rfl, ofSorted_self image, rfl⟩ few accepted (entriesRead_of_valid valid) valid

/-- The manifest of `constantProject`. -/
def constantManifest : Bytes :=
  ascii "\x7b\"format\":\"onda-project-image\",\"format_version\":2,\"content_digest\":\"sha256:" ++
    List.replicate 64 48 ++
    ascii "\",\"sources\":\x7b\"entry\":\"a.onda\",\"stdlib_digest\":\"sha256:" ++
    List.replicate 64 48 ++
    ascii "\",\"documents\":[\x7b\"path\":\"a.onda\",\"contents\":\"x\"\x7d],\"resolutions\":[]\x7d" ++
    ascii ",\"constants\":\x7b\"b\":true\x7d,\"buffer_bindings\":\x7b\x7d,\"assets\":[]\x7d"

/-- A JSON library that knows this manifest. -/
def ManifestJson.constant : ManifestJson where
  toWriter _ := [constantManifest]
  fromSlice bytes :=
    if bytes = constantManifest then .ok (constantProject.wire .ascii64 .bools)
    else .error (ascii "expected value at line 1 column 1")

theorem length_constantManifest : constantManifest.length = 380 := by decide +kernel

theorem constantManifest_text :
    constantProject.manifestText .ascii64 .bools .constant = constantManifest :=
  List.append_nil _

end Onda.Project
