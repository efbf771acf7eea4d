import Onda.Lib.Wire
import Onda.Playback.PackedOutput

/-!
# Packed records and their sequence numbers

A generated call appends the records of its prints and delegates to two batches and numbers them
together, from zero.  The session rebases the numbers in the storage of a batch.
-/

namespace Onda.Rendering

/-- `u32::MAX`. -/
def u32Max : Nat := 2 ^ 32 - 1

/-- `u32::saturating_add`. -/
def saturatingAdd (left right : Nat) : Nat := min (left + right) u32Max

/-- `u32::to_ne_bytes` and `native_u32`, of one byte order. -/
structure NativeU32 where
  toBytes : Nat → List UInt8
  ofBytes : List UInt8 → Nat
  length_toBytes : ∀ value, (toBytes value).length = 4
  ofBytes_toBytes : ∀ value ≤ u32Max, ofBytes (toBytes value) = value

/-- The byte order of x86-64 and AArch64. -/
def NativeU32.littleEndian : NativeU32 where
  toBytes := Wire.littleEndian 4
  ofBytes := Wire.ofLittleEndian
  length_toBytes := Wire.length_littleEndian 4
  ofBytes_toBytes value fits := Wire.ofLittleEndian_littleEndian (by unfold u32Max at fits; omega)

/-- The two kinds of records. -/
inductive Channel where
  | delegate
  | print
deriving DecidableEq

/-- What a generated call publishes: an occurrence of a delegate or of a print. -/
structure Publication where
  channel : Channel
  index : Nat
  payload : List UInt8

/-- A packed record. -/
structure Record where
  index : Nat
  sequence : Nat
  payload : List UInt8
deriving DecidableEq

/-- `DELEGATE_RECORD_HEADER_SIZE` and `PRINT_RECORD_HEADER_SIZE`. -/
def recordHeaderSize : Nat := 12

namespace Record

/-- The header of a record, and its payload. -/
def bytes (order : NativeU32) (record : Record) : List UInt8 :=
  order.toBytes record.index ++ order.toBytes record.payload.length
    ++ order.toBytes record.sequence ++ record.payload

/-- The record in the sequence domain of a batch. -/
def rebased (base : Nat) (record : Record) : Record :=
  { record with sequence := saturatingAdd record.sequence base }

theorem length_bytes (order : NativeU32) (record : Record) :
    (record.bytes order).length = recordHeaderSize + record.payload.length := by
  simp only [bytes, List.length_append, order.length_toBytes, recordHeaderSize]

end Record

/-- A publication with its number. -/
def Publication.record (publication : Publication) (number : Nat) : Record :=
  ⟨publication.index, min number u32Max, publication.payload⟩

/-- The records of publications that are numbered from `start` on, with their channels. -/
def numbered (publications : List Publication) (start : Nat) : List (Channel × Record) :=
  (publications.zipIdx start).map fun entry => (entry.1.channel, entry.1.record entry.2)

/-- The records of one channel among them. -/
def offered (channel : Channel) (publications : List Publication) (start : Nat) : List Record :=
  ((numbered publications start).filter fun entry => entry.1 = channel).map fun entry => entry.2

theorem offered_append (channel : Channel) (earlier later : List Publication) (start : Nat) :
    offered channel (earlier ++ later) start
      = offered channel earlier start ++ offered channel later (start + earlier.length) := by
  rw [offered, numbered, List.zipIdx_append, List.map_append, List.filter_append, List.map_append]
  rfl

theorem offered_cons (channel : Channel) (publication : Publication) (later : List Publication)
    (start : Nat) :
    offered channel (publication :: later) start
      = if publication.channel = channel then
          publication.record start :: offered channel later (start + 1)
        else offered channel later (start + 1) := by
  rw [offered, numbered, List.zipIdx_cons, List.map_cons]
  by_cases here : publication.channel = channel
  · rw [if_pos here, List.filter_cons_of_pos (by simpa using here)]
    rfl
  · rw [if_neg here, List.filter_cons_of_neg (by simpa using here)]
    rfl

/-- Every publication is offered to one channel. -/
theorem length_offered (publications : List Publication) (start : Nat) :
    (offered .delegate publications start).length + (offered .print publications start).length
      = publications.length := by
  induction publications generalizing start with
  | nil => rfl
  | cons publication publications ih =>
    have rest := ih (start + 1)
    rw [offered_cons, offered_cons]
    cases publication.channel <;> simp <;> omega

theorem saturatingAdd_min (left right : Nat) :
    saturatingAdd (min left u32Max) (min right u32Max) = min (right + left) u32Max := by
  unfold saturatingAdd
  omega

theorem saturatingAdd_one (count : Nat) :
    saturatingAdd (min count u32Max) 1 = min (count + 1) u32Max := by
  unfold saturatingAdd
  generalize u32Max = limit
  omega

/-- Rebased by as many as came before, a call's records continue the numbers of the batch. -/
theorem offered_rebased (channel : Channel) (publications : List Publication) (before start : Nat) :
    (offered channel publications start).map (Record.rebased (min before u32Max))
      = offered channel publications (before + start) := by
  induction publications generalizing start with
  | nil => rfl
  | cons publication publications ih =>
    rw [offered_cons, offered_cons]
    split
    · rw [List.map_cons, ih (start + 1), ← Nat.add_assoc]
      congr 1
      rw [Publication.record, Record.rebased, saturatingAdd_min]
      rfl
    · rw [ih (start + 1), ← Nat.add_assoc]

/-- Offered records have a number that fits its field. -/
theorem sequence_le {channel : Channel} {publications : List Publication} {start : Nat}
    {record : Record} (mem : record ∈ offered channel publications start) :
    record.sequence ≤ u32Max := by
  obtain ⟨entry, listed, rfl⟩ := List.mem_map.1 mem
  obtain ⟨publication, -, rfl⟩ := List.mem_map.1 (List.mem_of_mem_filter listed)
  exact Nat.min_le_right _ _

/-- **Distinct numbers.** In execution order the numbers increase, until they are saturated. -/
theorem numbered_pairwise (publications : List Publication) (start : Nat) :
    (numbered publications start).Pairwise fun earlier later =>
      earlier.2.sequence < later.2.sequence ∨ later.2.sequence = u32Max := by
  induction publications generalizing start with
  | nil => exact .nil
  | cons publication publications ih =>
    rw [numbered, List.zipIdx_cons, List.map_cons]
    refine List.pairwise_cons.2 ⟨fun later mem => ?_, ih (start + 1)⟩
    obtain ⟨entry, listed, rfl⟩ := List.mem_map.1 mem
    have after := List.le_snd_of_mem_zipIdx listed
    show min start u32Max < min entry.2 u32Max ∨ min entry.2 u32Max = u32Max
    omega

/-! ### Rebasing -/

section Rebasing

variable (order : NativeU32)

/-- The loop of `rebase_packed_output_sequences`, on the storage from its cursor on.  Each pass
moves the cursor past a header. -/
def rebaseFrom (base : Nat) : Nat → List UInt8 → List UInt8
  | 0, storage => storage
  | fuel + 1, storage =>
    if recordHeaderSize ≤ storage.length then
      let payloadBytes := order.ofBytes ((storage.drop 4).take 4)
      let sequence := order.ofBytes ((storage.drop 8).take 4)
      let header := storage.take 8 ++ order.toBytes (saturatingAdd sequence base)
      let payload := storage.drop recordHeaderSize
      -- A partial payload ends the loop.
      if payloadBytes ≤ payload.length then
        header ++ payload.take payloadBytes ++ rebaseFrom base fuel (payload.drop payloadBytes)
      else header ++ payload
    else storage

/-- `rebase_packed_output_sequences`. -/
def rebasePackedOutputSequences (storage : List UInt8) (base : Nat) : List UInt8 :=
  if base = 0 then storage else rebaseFrom order base storage.length storage

variable {order}

variable (order) in
/-- The fields of a record at the start of a storage. -/
theorem Record.fields (record : Record) (rest : List UInt8) :
    let storage := record.bytes order ++ rest
    storage.take 8 = order.toBytes record.index ++ order.toBytes record.payload.length
      ∧ (storage.drop 4).take 4 = order.toBytes record.payload.length
      ∧ (storage.drop 8).take 4 = order.toBytes record.sequence
      ∧ storage.drop recordHeaderSize = record.payload ++ rest := by
  have index := order.length_toBytes record.index
  have size := order.length_toBytes record.payload.length
  have sequence := order.length_toBytes record.sequence
  simp only [Record.bytes, List.append_assoc, recordHeaderSize]
  refine ⟨?_, ?_, ?_, ?_⟩
  · rw [← List.append_assoc, List.take_left' (by simp [index, size])]
  · rw [List.drop_left' index, List.take_left' size]
  · rw [← List.append_assoc, List.drop_left' (by simp [index, size]), List.take_left' sequence]
  · rw [← List.append_assoc, ← List.append_assoc,
      List.drop_left' (by simp [index, size, sequence])]

/-- One pass over a whole record. -/
theorem rebaseFrom_record {record : Record} (small : record.payload.length ≤ u32Max)
    (numbered : record.sequence ≤ u32Max) (base fuel : Nat) (rest : List UInt8) :
    rebaseFrom order base (fuel + 1) (record.bytes order ++ rest)
      = (record.rebased base).bytes order ++ rebaseFrom order base fuel rest := by
  obtain ⟨header, size, sequence, payload⟩ := record.fields order rest
  have long : recordHeaderSize ≤ (record.bytes order ++ rest).length := by
    rw [List.length_append, record.length_bytes]
    omega
  rw [rebaseFrom, if_pos long]
  dsimp only
  rw [size, sequence, payload, header, order.ofBytes_toBytes _ small,
    order.ofBytes_toBytes _ numbered, if_pos (by simp), List.take_left, List.drop_left]
  simp only [Record.bytes, Record.rebased, List.append_assoc]

/-- What the records of a call are in the storage of a batch. -/
theorem rebaseFrom_records {records : List Record}
    (small : ∀ record ∈ records, record.payload.length ≤ u32Max)
    (numbered : ∀ record ∈ records, record.sequence ≤ u32Max) (base : Nat) {fuel : Nat}
    (enough : records.length ≤ fuel) :
    rebaseFrom order base fuel (records.flatMap (Record.bytes order))
      = (records.map (Record.rebased base)).flatMap (Record.bytes order) := by
  induction records generalizing fuel with
  | nil => cases fuel <;> rfl
  | cons record records ih =>
    obtain ⟨fuel, rfl⟩ : ∃ fewer, fuel = fewer + 1 := ⟨fuel - 1, by simp at enough; omega⟩
    rw [List.flatMap_cons, rebaseFrom_record (small _ List.mem_cons_self)
      (numbered _ List.mem_cons_self), List.map_cons, List.flatMap_cons,
      ih (fun other mem => small other (List.mem_cons_of_mem _ mem))
        (fun other mem => numbered other (List.mem_cons_of_mem _ mem)) (by simpa using enough)]

theorem length_le_bytes (order : NativeU32) (records : List Record) :
    recordHeaderSize * records.length ≤ (records.flatMap (Record.bytes order)).length := by
  induction records with
  | nil => simp
  | cons record records ih =>
    rw [List.flatMap_cons, List.length_append, record.length_bytes, List.length_cons]
    unfold recordHeaderSize at ih ⊢
    omega

theorem rebased_zero {record : Record} (numbered : record.sequence ≤ u32Max) :
    record.rebased 0 = record := by
  simp [Record.rebased, saturatingAdd, Nat.min_eq_left numbered]

/-- **Rebasing.** The storage of a batch's records becomes the storage of the rebased records. -/
theorem rebase_records {records : List Record}
    (small : ∀ record ∈ records, record.payload.length ≤ u32Max)
    (numbered : ∀ record ∈ records, record.sequence ≤ u32Max) (base : Nat) :
    rebasePackedOutputSequences order (records.flatMap (Record.bytes order)) base
      = (records.map (Record.rebased base)).flatMap (Record.bytes order) := by
  unfold rebasePackedOutputSequences
  split
  · rename_i zero
    subst zero
    have same : records.map (Record.rebased 0) = records :=
      (List.map_congr_left fun record mem => rebased_zero (numbered record mem)).trans
        (List.map_id' records)
    rw [same]
  · refine rebaseFrom_records small numbered base ?_
    have := length_le_bytes order records
    unfold recordHeaderSize at this
    omega

end Rebasing

end Onda.Rendering
