import Onda.Lib.Regions
import Onda.Payload.Layout
import Onda.Payload.Transfer

/-!
# Payloads piece by piece

A payload is the concatenation of the pieces its slots hold.  Validation finds the pieces,
`prepare` writes their native images and `encode` turns the images back into pieces.

### Words and chunks
-/

namespace Onda.Payload

open Regions Wire

theorem i32OfWire_littleEndian {value : Nat} (fits : value < 2 ^ 32) :
    i32OfWire (littleEndian 4 value) = if value < 2 ^ 31 then (value : Int) else value - 2 ^ 32 := by
  have word : bytesWord 4 (littleEndian 4 value) = BitVec.ofNat (8 * 4) value := by
    rw [bytesWord, ofLittleEndian_littleEndian (by simpa using fits)]
  rw [i32OfWire, word, BitVec.toInt_eq_toNat_cond, BitVec.toNat_ofNat, Nat.mod_eq_of_lt fits]
  split <;> split <;> omega

variable {scalars : List Bytes} {len size : Nat}

/-- **Lengths.** A length is read from the four bytes of a number below `2 ^ 31`. -/
theorem usizeOfI32_ok_iff {field : Bytes} (wide : field.length = 4) :
    usizeOfI32 (i32OfWire field) = .ok len ↔ field = littleEndian 4 len ∧ len < 2 ^ 31 := by
  constructor
  · intro read
    have fits : ofLittleEndian field < 2 ^ 32 := by
      have bound := ofLittleEndian_lt field
      rw [wide] at bound
      simpa using bound
    have spelled : field = littleEndian 4 (ofLittleEndian field) := by
      rw [← wide, littleEndian_ofLittleEndian]
    rw [spelled, i32OfWire_littleEndian fits] at read
    unfold usizeOfI32 at read
    by_cases small : ofLittleEndian field < 2 ^ 31
    · rw [if_pos small, if_pos (by omega)] at read
      have same : ofLittleEndian field = len := by simpa using read
      rw [← same]
      exact ⟨spelled, small⟩
    · rw [if_neg small, if_neg (by omega)] at read
      simp [reject] at read
  · rintro ⟨rfl, small⟩
    rw [i32OfWire_littleEndian (by omega), if_pos small]
    simp [usizeOfI32]

theorem native_native (bigEndian : Bool) (bytes : Bytes) :
    native bigEndian (native bigEndian bytes) = bytes := by
  cases bigEndian <;> simp [native]

@[simp] theorem length_native (bigEndian : Bool) (bytes : Bytes) :
    (native bigEndian bytes).length = bytes.length := by
  cases bigEndian <;> simp [native]

@[simp] theorem length_chunks (size count : Nat) (bytes : Bytes) :
    (chunks size count bytes).length = count := by
  induction count generalizing bytes with
  | zero => rfl
  | succ count ih => rw [chunks, List.length_cons, ih]

/-- A row of scalars of one size. -/
def Even (size : Nat) (scalars : List Bytes) : Prop := ∀ scalar ∈ scalars, scalar.length = size

theorem Even.length_flatten (even : Even size scalars) :
    scalars.flatten.length = scalars.length * size := by
  induction scalars with
  | nil => simp
  | cons scalar scalars ih =>
    rw [List.flatten_cons, List.length_append, even scalar (by simp),
      ih (fun scalar mem => even scalar (by simp [mem])), List.length_cons, Nat.succ_mul,
      Nat.add_comm]

theorem Even.chunks_flatten (even : Even size scalars) :
    chunks size scalars.length scalars.flatten = scalars := by
  induction scalars with
  | nil => rfl
  | cons scalar scalars ih =>
    have here := even scalar (by simp)
    rw [List.length_cons, List.flatten_cons, chunks, ← here, List.take_left, List.drop_left, here,
      ih (fun scalar mem => even scalar (by simp [mem]))]

/-- Scalars are found again in their concatenation. -/
theorem Even.chunksExact_flatten (even : Even size scalars) (sizePos : 0 < size) :
    chunksExact size scalars.flatten = scalars := by
  rw [chunksExact, even.length_flatten, Nat.mul_div_cancel _ sizePos, even.chunks_flatten]

theorem chunks_even {count : Nat} {bytes : Bytes} (long : count * size ≤ bytes.length) :
    Even size (chunks size count bytes) := by
  induction count generalizing bytes with
  | zero => intro scalar mem; cases mem
  | succ count ih =>
    rw [Nat.succ_mul] at long
    intro scalar mem
    rcases List.mem_cons.mp mem with rfl | mem
    · rw [List.length_take]
      omega
    · exact ih (by rw [List.length_drop]; omega) scalar mem

theorem flatten_chunks {count : Nat} {bytes : Bytes} (exact' : bytes.length = count * size) :
    (chunks size count bytes).flatten = bytes := by
  induction count generalizing bytes with
  | zero =>
    rw [Nat.zero_mul] at exact'
    simp [chunks, List.eq_nil_of_length_eq_zero exact']
  | succ count ih =>
    rw [Nat.succ_mul] at exact'
    rw [chunks, List.flatten_cons, ih (by rw [List.length_drop]; omega), List.take_append_drop]

/-- **Whole scalars.** A string as long as a row of scalars is one. -/
theorem exists_scalars {size count : Nat} {bytes : Bytes} (exact' : bytes.length = count * size) :
    ∃ scalars, Even size scalars ∧ scalars.length = count ∧ bytes = scalars.flatten :=
  ⟨chunks size count bytes, chunks_even exact'.ge, length_chunks size count bytes,
    (flatten_chunks exact').symm⟩

theorem zipWith_left {α β γ : Type} (convert : α → γ) {left : List α} {right : List β}
    (same : left.length = right.length) :
    List.zipWith (fun item _ => convert item) left right = left.map convert := by
  induction left generalizing right with
  | nil => rfl
  | cons item left ih =>
    cases right with
    | nil => cases same
    | cons other right =>
      rw [List.zipWith_cons_cons, List.map_cons, ih (by simpa using same)]

/-- Converting a row of scalars into a region of its size. -/
theorem convertChunks_eq (sizePos : 0 < size) {convert : Bytes → Bytes} (even : Even size scalars)
    {target : Bytes} (room : target.length = scalars.flatten.length) :
    convertChunks size convert scalars.flatten target = (scalars.map convert).flatten := by
  have targets : (chunksExact size target).length = scalars.length := by
    rw [chunksExact, length_chunks, room, even.length_flatten, Nat.mul_div_cancel _ sizePos]
  simp only [convertChunks]
  rw [even.chunksExact_flatten sizePos, zipWith_left convert targets.symm, List.length_map,
    ← even.length_flatten, ← room, List.drop_length, List.append_nil]

/-! ### Slices as regions -/

theorem getRange_eq_read {bytes : Bytes} {start width : Nat}
    (room : start + width ≤ bytes.length) :
    getRange bytes start (start + width) = some (read bytes start width) := by
  rw [getRange, if_pos ⟨Nat.le_add_right _ _, room⟩, Nat.add_sub_cancel_left]
  rfl

theorem sliceAt_eq_read {bytes : Bytes} {start width : Nat}
    (room : start + width ≤ bytes.length) :
    sliceAt bytes ⟨start, start + width⟩ = .ok (read bytes start width) := by
  rw [sliceAt, getRange_eq_read room]
  rfl

theorem copyInto_eq_write {bytes data : Bytes} {start : Nat}
    (room : start + data.length ≤ bytes.length) :
    copyInto bytes ⟨start, start + data.length⟩ data = .ok (write bytes start data) :=
  if_pos ⟨Nat.le_add_right _ _, room, (Nat.add_sub_cancel_left _ _).symm⟩

theorem readLength_ok_iff {bytes : Bytes} {offset : Nat} (fits : offset + 4 ≤ i32Max)
    (room : offset + 4 ≤ bytes.length) :
    readLength bytes offset = .ok len ↔
      read bytes offset 4 = littleEndian 4 len ∧ len < 2 ^ 31 := by
  rw [← usizeOfI32_ok_iff (length_read room)]
  simp [readLength, bind_ok_iff, fits, getRange_eq_read room]

theorem readPreparedLength_eq {bigEndian : Bool} {bytes : Bytes} {offset : Nat}
    (room : offset + 4 ≤ bytes.length) (small : len < 2 ^ 31)
    (stored : read bytes offset 4 = native bigEndian (littleEndian 4 len)) :
    readPreparedLength bigEndian bytes offset = .ok len := by
  simp only [readPreparedLength, bind_ok_iff, okOr_ok_iff, getRange_eq_read room,
    Option.some.injEq, exists_eq_left', stored, native_native]
  exact (usizeOfI32_ok_iff (length_littleEndian 4 len)).mpr ⟨rfl, small⟩

/-! ### What the slots hold -/

section Pieces

variable (tensors : List PayloadTensor)

/-- A piece of a payload: a length in four bytes, or the scalars of a tensor. -/
inductive Holds : Slot → Bytes → Prop where
  | length (len : Nat) (small : len < 2 ^ 31) : Holds (Slot.ofLength len) (littleEndian 4 len)
  | tensor (index len : Nat) (leaf : PayloadTensor) (scalars : List Bytes)
    (found : tensors[index]? = some leaf) (even : Even leaf.encoding.byteSize scalars)
    (count : scalars.length = leaf.elements * len) :
    Holds (Slot.ofTensor index len leaf) scalars.flatten

variable {tensors}

variable {bigEndian : Bool} {piece : Bytes} {pieces : List Bytes} {slots : List Slot}
  {encoding : ScalarEncoding} {slot : Slot}

theorem Holds.length_eq (holds : Holds tensors slot piece) :
    piece.length = slot.bytes := by
  cases holds with
  | length len => exact length_littleEndian 4 len
  | tensor index len leaf scalars found even count =>
    rw [even.length_flatten, count]
    rfl

theorem holds_length_eq (holds : List.Forall₂ (Holds tensors) slots pieces) :
    pieces.flatten.length = (slots.map Slot.bytes).sum := by
  induction holds with
  | nil => rfl
  | cons here _ ih =>
    rw [List.flatten_cons, List.length_append, ih, here.length_eq, List.map_cons, List.sum_cons]

/-- The walk of `required_workspace` gets over slots whose pieces it finds. -/
theorem validate_iff {slots : List Slot} (made : ∀ slot ∈ slots, slot.Made tensors)
    {skipped rest : Bytes} {workspace : Nat} (extent : rest.length = (slots.map Slot.bytes).sum)
    (fits : skipped.length + rest.length ≤ i32Max) :
    (place slots skipped.length workspace).foldlM (visitPlaced (fun offset _ (_ : Unit) => do
        let len ← readLength (skipped ++ rest) offset
        .ok (len, ())) (fun _ _ => .ok ())) () = .ok () ↔
      ∃ pieces, List.Forall₂ (Holds tensors) slots pieces ∧ rest = pieces.flatten := by
  induction slots generalizing skipped rest workspace with
  | nil =>
    have empty : rest = [] := List.eq_nil_of_length_eq_zero (by simpa using extent)
    simp [place, empty, pure, Except.pure]
  | cons slot slots ih =>
    rw [List.map_cons, List.sum_cons] at extent
    -- The piece of the first slot, and what lies behind it.
    obtain ⟨piece, later, wide, rfl⟩ : ∃ piece later, piece.length = slot.bytes ∧
        rest = piece ++ later :=
      ⟨rest.take slot.bytes, rest.drop slot.bytes, by rw [List.length_take]; omega,
        (List.take_append_drop _ _).symm⟩
    rw [List.length_append] at extent fits
    have here : read (skipped ++ (piece ++ later)) skipped.length slot.bytes = piece := by
      rw [Regions.read, List.drop_left, List.take_left' wide]
    have tail := @ih (fun slot mem => made slot (by simp [mem])) (skipped ++ piece) later
      (slot.after workspace) (by omega) (by rw [List.length_append]; omega)
    rw [List.length_append, wide, List.append_assoc] at tail
    rw [place, List.foldlM_cons, bind_ok_iff]
    constructor
    · rintro ⟨⟨⟩, visited, rest⟩
      obtain ⟨pieces, holds, rfl⟩ := tail.mp rest
      refine ⟨piece :: pieces, .cons ?_ holds, rfl⟩
      cases made slot (by simp) with
      | length len =>
        simp only [visitPlaced_ofLength, bind_ok_iff, Except.ok.injEq, Prod.mk.injEq] at visited
        obtain ⟨-, ⟨_, found, rfl, -⟩, -⟩ := visited
        have four : piece.length = 4 := wide
        rw [readLength_ok_iff (by omega) (by simp only [List.length_append]; omega)] at found
        rw [← here]
        exact found.1 ▸ .length _ found.2
      | tensor index len leaf found =>
        obtain ⟨scalars, even, count, rfl⟩ := @exists_scalars
          leaf.encoding.byteSize (leaf.elements * len) _ wide
        exact .tensor index len leaf scalars found even count
    · rintro ⟨pieces, holds, same⟩
      cases holds with
      | @cons _ first _ pieces holdsFirst holds =>
        obtain ⟨rfl, rfl⟩ := List.append_inj same (by rw [wide, holdsFirst.length_eq])
        refine ⟨(), ?_, tail.mpr ⟨pieces, holds, rfl⟩⟩
        cases holdsFirst with
        | length len small =>
          simp only [visitPlaced_ofLength, bind_ok_iff, Except.ok.injEq, Prod.mk.injEq]
          have four : (littleEndian 4 len).length = 4 := length_littleEndian 4 len
          exact ⟨(), ⟨len, (readLength_ok_iff (by omega)
            (by simp only [List.length_append]; omega)).mpr ⟨here, small⟩, rfl, trivial⟩, trivial⟩
        | tensor index len leaf scalars found even count => rfl

/-! ### Images -/

theorem length_normalizeScalar {domain : Option IntegerDomain} {scalar : Bytes}
    (wide : scalar.length = encoding.byteSize) :
    (normalizeScalar bigEndian encoding domain scalar).length = encoding.byteSize := by
  cases encoding with
  | i32 | i64 => simp [normalizeScalar, ScalarEncoding.byteSize]
  | bool => simp [normalizeScalar, ScalarEncoding.byteSize] at wide ⊢; omega
  | f32 | f64 => simp [normalizeScalar, wide]

/-- The host's byte order is the last thing a scalar meets. -/
theorem normalizeScalar_eq_native (bigEndian : Bool) {domain : Option IntegerDomain}
    {scalar : Bytes} (wide : scalar.length = encoding.byteSize) :
    normalizeScalar bigEndian encoding domain scalar =
      native bigEndian (normalizeScalar false encoding domain scalar) := by
  cases encoding with
  | i32 | i64 | f32 | f64 => rfl
  | bool =>
    obtain ⟨byte, rfl⟩ := List.length_eq_one_iff.mp wide
    cases bigEndian <;> rfl

variable (tensors) in
/-- What a slot holds in the byte order of the host, once it is normalized. -/
def image (bigEndian : Bool) (slot : Slot) (piece : Bytes) : Bytes :=
  match slot.tensor.bind (tensors[·]?) with
  | none => native bigEndian piece
  | some leaf => ((chunksExact leaf.encoding.byteSize piece).map
      (normalizeScalar bigEndian leaf.encoding leaf.domain)).flatten

theorem image_ofLength (bigEndian : Bool) (len : Nat) (piece : Bytes) :
    image tensors bigEndian (Slot.ofLength len) piece = native bigEndian piece := rfl

theorem image_ofTensor {bigEndian : Bool} {index len : Nat} {leaf : PayloadTensor}
    {scalars : List Bytes} (found : tensors[index]? = some leaf)
    (even : Even leaf.encoding.byteSize scalars) :
    image tensors bigEndian (Slot.ofTensor index len leaf) scalars.flatten =
      (scalars.map (normalizeScalar bigEndian leaf.encoding leaf.domain)).flatten := by
  simp only [image, Slot.ofTensor, Option.bind_some, found,
    even.chunksExact_flatten leaf.encoding.byteSize_pos]

theorem Even.normalized {domain : Option IntegerDomain} {scalars : List Bytes}
    (even : Even encoding.byteSize scalars) :
    Even encoding.byteSize (scalars.map (normalizeScalar bigEndian encoding domain)) := by
  intro scalar mem
  obtain ⟨source, inScalars, rfl⟩ := List.mem_map.mp mem
  exact length_normalizeScalar (even source inScalars)

theorem Holds.length_image (holds : Holds tensors slot piece)
    : (image tensors bigEndian slot piece).length = slot.bytes := by
  cases holds with
  | length len => rw [image_ofLength, length_native, length_littleEndian]; rfl
  | tensor index len leaf scalars found even count =>
    rw [image_ofTensor found even, even.normalized.length_flatten, List.length_map, count]
    rfl

/-- A normalized piece is a piece of the same slot. -/
theorem Holds.normalized (holds : Holds tensors slot piece) :
    Holds tensors slot (image tensors false slot piece) := by
  cases holds with
  | length len small => exact .length len small
  | tensor index len leaf scalars found even count =>
    rw [image_ofTensor found even]
    exact .tensor index len leaf _ found even.normalized (by rw [List.length_map, count])

variable (tensors) in
/-- The images of the pieces at their places in the workspace. -/
def images (bigEndian : Bool) : List Slot → List Bytes → Nat → List (Nat × Bytes)
  | slot :: slots, piece :: pieces, workspace =>
    (roundUp workspace slot.alignment, image tensors bigEndian slot piece) ::
      images bigEndian slots pieces (slot.after workspace)
  | _, _, _ => []

theorem ascending_images {bigEndian : Bool} {slots : List Slot} {pieces : List Bytes}
    (made : ∀ slot ∈ slots, slot.Made tensors)
    (holds : List.Forall₂ (Holds tensors) slots pieces) {workspace last : Nat}
    (room : workspaceEnd slots workspace ≤ last) :
    Ascending last workspace (images tensors bigEndian slots pieces workspace) := by
  induction holds generalizing workspace with
  | nil => exact room
  | @cons slot piece slots pieces here holds ih =>
    refine ⟨(made slot (by simp)).regular.le_roundUp workspace, ?_⟩
    show Ascending last (roundUp workspace slot.alignment + (image tensors bigEndian slot piece).length) _
    rw [here.length_image]
    exact ih (fun slot mem => made slot (by simp [mem])) room

/-! ### Transfers -/

section Transfers

variable {plan : PayloadPlan} {bigEndian : Bool}

variable {pieces : List Bytes} {slots : List Slot}

/-- The walk of `prepare` writes every image at its place. -/
theorem prepare_slots {slots : List Slot} {pieces : List Bytes}
    (made : ∀ slot ∈ slots, slot.Made plan.tensors)
    (holds : List.Forall₂ (Holds plan.tensors) slots pieces) {skipped storage : Bytes}
    {workspace : Nat} (fits : skipped.length + pieces.flatten.length ≤ i32Max)
    (room : workspaceEnd slots workspace ≤ storage.length) :
    (place slots skipped.length workspace).foldlM (visitPlaced (fun offset _ storage => do
        let len ← readLength (skipped ++ pieces.flatten) offset
        .ok (len, storage)) (prepareRegion plan bigEndian (skipped ++ pieces.flatten))) storage =
      .ok (writeAll storage (images plan.tensors bigEndian slots pieces workspace)) := by
  induction holds generalizing skipped storage workspace with
  | nil => rfl
  | @cons slot piece slots pieces here holds ih =>
    have madeLater : ∀ slot ∈ slots, slot.Made plan.tensors := fun slot mem => made slot (by simp [mem])
    have behind := le_workspaceEnd (fun slot mem => (madeLater slot mem).regular)
      (slot.after workspace)
    have inside : roundUp workspace slot.alignment + slot.bytes ≤ storage.length :=
      le_trans behind room
    rw [List.flatten_cons, List.length_append] at fits
    have wide := here.length_eq
    have found : read (skipped ++ (piece ++ pieces.flatten)) skipped.length slot.bytes = piece := by
      rw [Regions.read, List.drop_left, List.take_left' wide]
    have whole : skipped.length + slot.bytes ≤ (skipped ++ (piece ++ pieces.flatten)).length := by
      simp only [List.length_append]
      omega
    have written := @copyInto_eq_write storage (image plan.tensors bigEndian slot piece)
      (roundUp workspace slot.alignment) (by rw [here.length_image]; exact inside)
    rw [here.length_image] at written
    have tail := @ih madeLater (skipped ++ piece)
      (write storage (roundUp workspace slot.alignment) (image plan.tensors bigEndian slot piece))
      (slot.after workspace) (by rw [List.length_append]; omega)
      (by rw [length_write (by rw [here.length_image]; exact inside)]; exact room)
    rw [List.length_append, wide, List.append_assoc] at tail
    rw [place, List.foldlM_cons, bind_ok_iff, List.flatten_cons]
    refine ⟨_, ?_, tail⟩
    cases here with
    | length len small =>
      rw [visitPlaced_ofLength]
      refine ⟨storage, ?_, ?_⟩
      · rw [bind_ok_iff]
        exact ⟨len, (readLength_ok_iff (le_trans (Nat.add_le_add_left wide.ge _) (by omega))
          whole).mpr ⟨found, small⟩, rfl⟩
      · rw [prepareRegion, bind_ok_iff]
        exact ⟨_, sliceAt_eq_read whole, by
          rw [show read _ skipped.length 4 = _ from found]; exact written⟩
    | tensor index len leaf scalars foundLeaf even count =>
      show prepareRegion plan bigEndian _ (.tensor _) storage = _
      rw [prepareRegion, bind_ok_iff]
      refine ⟨leaf, expect_ok_iff.mpr foundLeaf, ?_⟩
      rw [bind_ok_iff]
      refine ⟨_, sliceAt_eq_read whole, ?_⟩
      rw [bind_ok_iff]
      refine ⟨_, sliceAt_eq_read inside, ?_⟩
      rw [found, convertChunks_eq leaf.encoding.byteSize_pos even
        (by rw [length_read inside, wide]), ← @image_ofTensor _ _ _ len _ _ foundLeaf even]
      exact written

/-- The walk of `encode` writes the normalized pieces one behind the other. -/
theorem encode_slots {slots : List Slot} {pieces : List Bytes}
    (made : ∀ slot ∈ slots, slot.Made plan.tensors)
    (holds : List.Forall₂ (Holds plan.tensors) slots pieces) {storage output : Bytes}
    {wire workspace : Nat} (room : workspaceEnd slots workspace ≤ storage.length)
    (stored : ∀ piece ∈ images plan.tensors bigEndian slots pieces workspace,
      read storage piece.1 piece.2.length = piece.2)
    (space : wire + pieces.flatten.length ≤ output.length) :
    (place slots wire workspace).foldlM (visitPlaced (fun _ offset output => do
        let len ← readPreparedLength bigEndian storage offset
        .ok (len, output)) (encodeRegion plan bigEndian storage)) output =
      .ok (writeAll output (consecutive wire
        (List.zipWith (image plan.tensors false) slots pieces))) := by
  induction holds generalizing output wire workspace with
  | nil => rfl
  | @cons slot piece slots pieces here holds ih =>
    have madeLater : ∀ slot ∈ slots, slot.Made plan.tensors := fun slot mem => made slot (by simp [mem])
    have behind := le_workspaceEnd (fun slot mem => (madeLater slot mem).regular)
      (slot.after workspace)
    have inside : roundUp workspace slot.alignment + slot.bytes ≤ storage.length :=
      le_trans behind room
    rw [List.flatten_cons, List.length_append, here.length_eq] at space
    have spaceHere : wire + slot.bytes ≤ output.length := by omega
    have found := stored (roundUp workspace slot.alignment, image plan.tensors bigEndian slot piece)
      (by simp [images])
    rw [here.length_image] at found
    have written := @copyInto_eq_write output (image plan.tensors false slot piece) wire
      (by rw [here.length_image]; exact spaceHere)
    rw [here.length_image] at written
    have tail := @ih madeLater
      (write output wire (image plan.tensors false slot piece)) (wire + slot.bytes)
      (slot.after workspace) room (fun piece mem => stored piece (by simp [images, mem]))
      (by rw [length_write (by rw [here.length_image]; exact spaceHere)]; omega)
    rw [place, List.foldlM_cons, bind_ok_iff, List.zipWith_cons_cons, consecutive, writeAll_cons,
      here.length_image]
    refine ⟨_, ?_, tail⟩
    cases here with
    | length len small =>
      rw [visitPlaced_ofLength]
      refine ⟨output, ?_, ?_⟩
      · rw [bind_ok_iff]
        exact ⟨len, readPreparedLength_eq inside small found, rfl⟩
      · rw [encodeRegion, bind_ok_iff]
        refine ⟨_, sliceAt_eq_read inside, ?_⟩
        rw [show read storage _ 4 = _ from found, image_ofLength, native_native]
        exact written
    | tensor index len leaf scalars foundLeaf even count =>
      show encodeRegion plan bigEndian storage (.tensor _) output = _
      rw [encodeRegion, bind_ok_iff]
      refine ⟨leaf, expect_ok_iff.mpr foundLeaf, ?_⟩
      rw [bind_ok_iff]
      refine ⟨_, sliceAt_eq_read inside, ?_⟩
      rw [bind_ok_iff]
      refine ⟨_, sliceAt_eq_read spaceHere, ?_⟩
      have canonical : (scalars.map (normalizeScalar bigEndian leaf.encoding leaf.domain)).map
          (native bigEndian) = scalars.map (normalizeScalar false leaf.encoding leaf.domain) := by
        rw [List.map_map]
        apply List.map_congr_left
        intro scalar mem
        show native bigEndian (normalizeScalar bigEndian _ _ scalar) = _
        rw [normalizeScalar_eq_native bigEndian (even scalar mem), native_native]
      rw [found, image_ofTensor foundLeaf even, convertChunks_eq leaf.encoding.byteSize_pos
        even.normalized (by
          rw [length_read spaceHere, even.normalized.length_flatten, List.length_map, count]; rfl),
        canonical, ← @image_ofTensor _ _ _ len _ _ foundLeaf even]
      exact written

end Transfers

end Pieces

end Onda.Payload
