import Onda.Rendering.Records

/-!
# Batches of a call and of a block

Generated code fills the two batches of one call.  A session hands it the rest of its two storage
areas, and then counts what came back.
-/

namespace Onda.Rendering

/-! ### One call -/

/-- `DelegateBatch` and `PrintBatch`. -/
structure Batch where
  storage : List UInt8
  usedBytes : Nat
  recordCount : Nat
  overflowCount : Nat

namespace Batch

/-- `from_storage`. -/
def fromStorage (storage : List UInt8) : Batch := ⟨storage, 0, 0, 0⟩

/-- `u32::try_from(storage.len()).unwrap_or(u32::MAX)`. -/
def capacityBytes (batch : Batch) : Nat := min batch.storage.length u32Max

/-- `lower_publish_log` and `lower_publish_delegate`, on a batch that is present.  The count of
records is not saturating. -/
def publish (order : NativeU32) (batch : Batch) (record : Record) : Batch :=
  let required := recordHeaderSize + record.payload.length
  if batch.usedBytes ≤ batch.capacityBytes ∧ required ≤ batch.capacityBytes - batch.usedBytes then
    { batch with
      storage := batch.storage.take batch.usedBytes ++ record.bytes order
        ++ batch.storage.drop (batch.usedBytes + required)
      usedBytes := batch.usedBytes + required
      recordCount := (batch.recordCount + 1) % 2 ^ 32 }
  else { batch with overflowCount := saturatingAdd batch.overflowCount 1 }

/-- The batch holds some of the records it was offered, and counts the others. -/
structure Keeps (order : NativeU32) (records : List Record) (batch : Batch) : Prop where
  used_le : batch.usedBytes ≤ batch.capacityBytes
  kept : ∃ kept, List.Sublist kept records
    ∧ batch.storage.take batch.usedBytes = kept.flatMap (Record.bytes order)
    ∧ batch.recordCount = kept.length
    ∧ batch.overflowCount = min (records.length - kept.length) u32Max

theorem keeps_fromStorage (order : NativeU32) (storage : List UInt8) :
    (fromStorage storage).Keeps order [] :=
  ⟨Nat.zero_le _, [], .slnil, rfl, rfl, by simp [fromStorage]⟩

variable {order : NativeU32} {batch : Batch} {records : List Record}

theorem length_publish (record : Record) :
    (batch.publish order record).storage.length = batch.storage.length := by
  unfold publish
  dsimp only
  split
  · rename_i fits
    have inside := Nat.min_le_left batch.storage.length u32Max
    simp only [List.length_append, List.length_take, List.length_drop, record.length_bytes]
    unfold capacityBytes at fits
    omega
  · rfl

/-- A record is kept, or its loss is counted. -/
theorem Keeps.publish (keeps : batch.Keeps order records) (record : Record) :
    (batch.publish order record).Keeps order (records ++ [record]) := by
  obtain ⟨kept, sublist, stored, counted, lost⟩ := keeps.kept
  have inside : batch.capacityBytes ≤ batch.storage.length := Nat.min_le_left _ _
  have small : batch.capacityBytes ≤ u32Max := Nat.min_le_right _ _
  have within := sublist.length_le
  have length := @length_publish order batch record
  unfold Batch.publish at length ⊢
  dsimp only at length ⊢
  split
  · rename_i fits
    rw [if_pos fits] at length
    have before : (batch.storage.take batch.usedBytes).length = batch.usedBytes :=
      List.length_take_of_le (keeps.used_le.trans inside)
    refine ⟨?_, kept ++ [record], sublist.append (List.Sublist.refl _), ?_, ?_, ?_⟩
    · show batch.usedBytes + (recordHeaderSize + record.payload.length) ≤ min _ u32Max
      rw [length]
      show _ ≤ batch.capacityBytes
      omega
    · rw [List.take_left' (by rw [List.length_append, before, record.length_bytes]), stored,
        List.flatMap_append, List.flatMap_singleton]
    · -- As many records as fit into the capacity do not wrap their count.
      have enough := length_le_bytes order kept
      rw [← stored, before] at enough
      have below : kept.length + 1 < 2 ^ 32 := by
        have := keeps.used_le
        unfold recordHeaderSize at enough
        unfold u32Max at small
        omega
      show (batch.recordCount + 1) % 2 ^ 32 = _
      rw [counted, List.length_append, List.length_singleton, Nat.mod_eq_of_lt below]
    · show batch.overflowCount = _
      rw [lost, List.length_append, List.length_append, List.length_singleton,
        Nat.add_sub_add_right]
  · refine ⟨keeps.used_le, kept, sublist.trans (List.sublist_append_left _ _), stored, counted, ?_⟩
    show saturatingAdd batch.overflowCount 1 = _
    rw [lost, List.length_append, List.length_singleton, Nat.sub_add_comm within,
      saturatingAdd_one]

end Batch

/-- `ExecutionOutput`: its batches that are not null, and `next_sequence`. -/
structure ExecutionOutput where
  batches : Channel → Option Batch
  nextSequence : Nat

namespace ExecutionOutput

/-- A publication of generated code.  Without a batch it takes no number. -/
def publish (order : NativeU32) (output : ExecutionOutput) (publication : Publication) :
    ExecutionOutput :=
  match output.batches publication.channel with
  | none => output
  | some batch =>
    { batches := Function.update output.batches publication.channel
        (some (batch.publish order
          ⟨publication.index, output.nextSequence, publication.payload⟩))
      -- `next_output_sequence`.
      nextSequence := saturatingAdd output.nextSequence 1 }

/-- The publications of one call. -/
def publishAll (order : NativeU32) (output : ExecutionOutput) (publications : List Publication) :
    ExecutionOutput :=
  publications.foldl (publish order) output

end ExecutionOutput

/-- The publications that have a batch. -/
def collected (present : Channel → Bool) (publications : List Publication) : List Publication :=
  publications.filter fun publication => present publication.channel

/-- A batch for each channel that is present. -/
structure ExecutionOutput.Numbers (order : NativeU32) (present : Channel → Bool)
    (sizes : Channel → Nat) (publications : List Publication) (output : ExecutionOutput) :
    Prop where
  nextSequence : output.nextSequence = min (collected present publications).length u32Max
  absent : ∀ channel, present channel = false → output.batches channel = none
  batch : ∀ channel, present channel = true → ∃ batch, output.batches channel = some batch
    ∧ batch.storage.length = sizes channel
    ∧ batch.Keeps order (offered channel (collected present publications) 0)

variable {present : Channel → Bool} {sizes : Channel → Nat} {output : ExecutionOutput}
  {order : NativeU32}

theorem ExecutionOutput.Numbers.publish {publications : List Publication}
    (numbers : output.Numbers order present sizes publications) (publication : Publication) :
    (output.publish order publication).Numbers order present sizes
      (publications ++ [publication]) := by
  unfold ExecutionOutput.publish
  cases here : present publication.channel with
  | false =>
    have same : collected present (publications ++ [publication]) = collected present publications := by
      simp [collected, here]
    rw [numbers.absent _ here]
    exact ⟨by rw [same]; exact numbers.nextSequence, numbers.absent, by rw [same]; exact numbers.batch⟩
  | true =>
    obtain ⟨batch, found, length, keeps⟩ := numbers.batch _ here
    have grown : collected present (publications ++ [publication])
        = collected present publications ++ [publication] := by
      simp [collected, here]
    rw [found]
    dsimp only
    refine ⟨?_, fun channel absent => ?_, fun channel wanted => ?_⟩
    · show saturatingAdd output.nextSequence 1 = _
      rw [grown, numbers.nextSequence, List.length_append, List.length_singleton, saturatingAdd_one]
    · have other : channel ≠ publication.channel := by
        rintro rfl
        rw [here] at absent
        cases absent
      exact (Function.update_of_ne other _ _).trans (numbers.absent channel absent)
    · rw [grown, offered_append, Nat.zero_add, offered_cons]
      by_cases same : channel = publication.channel
      · subst same
        refine ⟨_, Function.update_self .., Batch.length_publish _ |>.trans length, ?_⟩
        rw [if_pos rfl, numbers.nextSequence]
        exact keeps.publish _
      · obtain ⟨other, found, length, keeps⟩ := numbers.batch channel wanted
        refine ⟨other, (Function.update_of_ne same _ _).trans found, length, ?_⟩
        rw [if_neg fun back => same back.symm]
        exact (List.append_nil (offered channel (collected present publications) 0)).symm ▸ keeps

/-- **One call.** Its publications are numbered from zero, across both batches. -/
theorem ExecutionOutput.Numbers.publishAll {earlier : List Publication}
    (numbers : output.Numbers order present sizes earlier) (publications : List Publication) :
    (output.publishAll order publications).Numbers order present sizes
      (earlier ++ publications) := by
  induction publications generalizing earlier output with
  | nil => exact (List.append_nil earlier).symm ▸ numbers
  | cons publication publications ih =>
    have rest := ih (numbers.publish publication)
    rwa [List.append_assoc, List.singleton_append] at rest

/-! ### One block -/

/-- The session's storage of one channel. -/
structure Area where
  storage : List UInt8
  used : Nat
  recordCount : Nat
  overflowCount : Nat

namespace Area

/-- `begin_delegate_batch` and `begin_print_batch`. -/
def beginBatch (area : Area) : Area := ⟨area.storage, 0, 0, 0⟩

/-- `next_delegate_batch` and `next_print_batch`. -/
def nextBatch (area : Area) (collectionEnabled : Bool) : Option Batch :=
  if !collectionEnabled || area.storage.isEmpty then none
  else some (Batch.fromStorage (area.storage.drop area.used))

/-- The storage that generated code has written through the batch. -/
def written (area : Area) : Option Batch → List UInt8
  | none => area.storage
  | some batch => area.storage.take area.used ++ batch.storage

/-- The part of `finish_execution_output` for one channel, `finish_delegate_batch` and
`finish_print_batch`. -/
def finish (order : NativeU32) (sequenceBase : Nat) (area : Area) (batch : Option Batch) : Area :=
  let storage := area.written batch
  let usedBytes := (batch.map Batch.usedBytes).getD 0
  { storage := storage.take area.used
      ++ rebasePackedOutputSequences order ((storage.drop area.used).take usedBytes) sequenceBase
      ++ storage.drop (area.used + usedBytes)
    used := min (area.used + usedBytes) area.storage.length
    recordCount := saturatingAdd area.recordCount ((batch.map Batch.recordCount).getD 0)
    overflowCount := saturatingAdd area.overflowCount ((batch.map Batch.overflowCount).getD 0) }

/-- The area holds some of the records that it was offered, and counts the others. -/
structure Keeps (order : NativeU32) (records : List Record) (area : Area) : Prop where
  used_le : area.used ≤ area.storage.length
  kept : ∃ kept, List.Sublist kept records
    ∧ area.storage.take area.used = kept.flatMap (Record.bytes order)
    ∧ area.recordCount = min kept.length u32Max
    ∧ area.overflowCount = min (records.length - kept.length) u32Max

theorem keeps_beginBatch (order : NativeU32) (area : Area) :
    area.beginBatch.Keeps order [] :=
  ⟨Nat.zero_le _, [], .slnil, rfl, rfl, by simp [beginBatch]⟩

variable {order : NativeU32} {area : Area}

variable {records : List Record}

/-- Without a batch nothing changes. -/
theorem finish_none (keeps : area.Keeps order records) (sequenceBase : Nat)
    (area_count : area.recordCount ≤ u32Max) (area_overflow : area.overflowCount ≤ u32Max) :
    area.finish order sequenceBase none = area := by
  have empty : rebasePackedOutputSequences order [] sequenceBase = [] := by
    unfold rebasePackedOutputSequences
    split <;> rfl
  cases area with
  | mk storage used recordCount overflowCount =>
    have inside : used ≤ storage.length := keeps.used_le
    simp only [finish, written, Option.map_none, Option.getD_none, List.take_zero, empty,
      List.append_nil, Nat.add_zero, List.take_append_drop, Nat.min_eq_left inside, saturatingAdd,
      Nat.min_eq_left area_count, Nat.min_eq_left area_overflow]

theorem Keeps.counts_le (keeps : area.Keeps order records) :
    area.recordCount ≤ u32Max ∧ area.overflowCount ≤ u32Max := by
  obtain ⟨kept, -, -, counted, lost⟩ := keeps.kept
  rw [counted, lost]
  exact ⟨Nat.min_le_right _ _, Nat.min_le_right _ _⟩

/-- **One call in a block.** The area holds the records of the call behind the ones it had. -/
theorem Keeps.finish (keeps : area.Keeps order records) {batch : Batch}
    {publications : List Publication} {channel : Channel} (before : Nat)
    (size : batch.storage.length = area.storage.length - area.used)
    (fresh : batch.Keeps order (offered channel publications 0)) :
    (area.finish order (min before u32Max) (some batch)).Keeps order
        (records ++ offered channel publications before)
      ∧ (area.finish order (min before u32Max) (some batch)).storage.length
        = area.storage.length := by
  obtain ⟨kept, sublist, stored, counted, lost⟩ := keeps.kept
  obtain ⟨added, addedSublist, addedStored, addedCounted, addedLost⟩ := fresh.kept
  have inside := keeps.used_le
  have capacity : batch.capacityBytes ≤ batch.storage.length := Nat.min_le_left _ _
  have small : batch.capacityBytes ≤ u32Max := Nat.min_le_right _ _
  have fits := fresh.used_le
  have front : (area.storage.take area.used).length = area.used := List.length_take_of_le inside
  -- The slice that is rebased holds the records of the call.
  have payloads : ∀ record ∈ added, record.payload.length ≤ u32Max := by
    intro record mem
    have bound : (record.bytes order).length ≤ (added.flatMap (Record.bytes order)).length :=
      (List.sublist_flatten_of_mem (List.mem_map_of_mem (f := Record.bytes order) mem)).length_le
    rw [record.length_bytes, ← addedStored, List.length_take] at bound
    omega
  have rebased : rebasePackedOutputSequences order (batch.storage.take batch.usedBytes)
      (min before u32Max)
        = (added.map (Record.rebased (min before u32Max))).flatMap (Record.bytes order) := by
    rw [addedStored]
    exact rebase_records payloads
      (fun record mem => sequence_le (addedSublist.subset mem)) _
  have length : ((added.map (Record.rebased (min before u32Max))).flatMap
      (Record.bytes order)).length = batch.usedBytes := by
    have same : ∀ records : List Record, ((records.map (Record.rebased (min before u32Max))).flatMap
        (Record.bytes order)).length = (records.flatMap (Record.bytes order)).length := by
      intro records
      induction records with
      | nil => rfl
      | cons record records ih =>
        simp only [List.map_cons, List.flatMap_cons, List.length_append, Record.length_bytes, ih]
        rfl
    rw [same, ← addedStored, List.length_take_of_le (fits.trans capacity)]
  have whole : (area.finish order (min before u32Max) (some batch)).storage
      = area.storage.take area.used
        ++ (added.map (Record.rebased (min before u32Max))).flatMap (Record.bytes order)
        ++ batch.storage.drop batch.usedBytes := by
    simp only [Area.finish, written, Option.map_some, Option.getD_some]
    rw [List.take_left' front, List.drop_left' front, rebased, ← List.drop_drop,
      List.drop_left' front]
  have total : (area.finish order (min before u32Max) (some batch)).used
      = area.used + batch.usedBytes := by
    show min (area.used + batch.usedBytes) area.storage.length = _
    omega
  have wide : (area.finish order (min before u32Max) (some batch)).storage.length
      = area.storage.length := by
    rw [whole, List.length_append, List.length_append, front, length, List.length_drop]
    omega
  have within := sublist.length_le
  have addedWithin := addedSublist.length_le
  have shifted := offered_rebased channel publications before 0
  rw [Nat.add_zero] at shifted
  have sameLength : (offered channel publications 0).length
      = (offered channel publications before).length := by
    rw [← shifted, List.length_map]
  refine ⟨⟨by rw [total, wide]; omega,
    kept ++ added.map (Record.rebased (min before u32Max)), ?_, ?_, ?_, ?_⟩, wide⟩
  · rw [← shifted]
    exact sublist.append (addedSublist.map _)
  · rw [total, whole, List.take_left' (by rw [List.length_append, front, length]), stored,
      List.flatMap_append]
  · show saturatingAdd area.recordCount batch.recordCount = _
    rw [counted, addedCounted, List.length_append, List.length_map]
    unfold saturatingAdd
    omega
  · show saturatingAdd area.overflowCount batch.overflowCount = _
    rw [lost, addedLost, List.length_append, List.length_append, List.length_map, sameLength]
    rw [sameLength] at addedWithin
    unfold saturatingAdd
    omega

end Area

end Onda.Rendering
