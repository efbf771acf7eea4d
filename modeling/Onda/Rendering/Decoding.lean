import Onda.Rendering.Batches

/-!
# Reading batches

The runtime reads the records of a batch with an iterator.  A storage starts with a record in one way
only, so what the iterator gives is determined by the used bytes and the count, and records that were
published are read back.
-/

namespace Onda.Rendering

/-- Every four bytes are a word. -/
structure NativeU32.Exact (order : NativeU32) : Prop where
  toBytes_ofBytes : ∀ bytes : List UInt8, bytes.length = 4 → order.toBytes (order.ofBytes bytes) = bytes
  ofBytes_le : ∀ bytes : List UInt8, bytes.length = 4 → order.ofBytes bytes ≤ u32Max

theorem NativeU32.littleEndian_exact : littleEndian.Exact where
  toBytes_ofBytes bytes four := by
    show Wire.littleEndian 4 (Wire.ofLittleEndian bytes) = bytes
    rw [← four, Wire.littleEndian_ofLittleEndian]
  ofBytes_le bytes four := by
    have bound := Wire.ofLittleEndian_lt bytes
    rw [four] at bound
    show Wire.ofLittleEndian bytes ≤ u32Max
    unfold u32Max
    omega

/-- The fields of a record are words. -/
structure Record.Fits (record : Record) : Prop where
  index : record.index ≤ u32Max
  sequence : record.sequence ≤ u32Max
  payload : record.payload.length ≤ u32Max

/-! ### The iterator of the runtime -/

/-- `BatchDecodeError`. -/
inductive BatchDecodeError where
  | invalidEnvelope
  | malformedRecord (recordIndex : Nat)
  | trailingBytes
deriving DecidableEq

/-- `slice::get` with the range from `start` to `stop`. -/
def getRange (storage : List UInt8) (start stop : Nat) : Option (List UInt8) :=
  if start ≤ stop ∧ stop ≤ storage.length then some ((storage.drop start).take (stop - start))
  else none

/-- `BatchRecords`. -/
structure BatchRecords where
  storage : List UInt8
  cursor : Nat
  recordIndex : Nat
  recordCount : Nat
  pendingError : Option BatchDecodeError
  finished : Bool

namespace BatchRecords

/-- `BatchRecords::new`. -/
def new (storage : Option (List UInt8)) (recordCount : Nat) : BatchRecords where
  storage := storage.getD []
  cursor := 0
  recordIndex := 0
  recordCount := recordCount
  pendingError := if storage.isNone then some .invalidEnvelope else none
  finished := false

/-- The record at the cursor and its end.  Each early return of `next_record` is a malformed record;
a sum that overflows is also past the end of the storage. -/
def recordAt (order : NativeU32) (storage : List UInt8) (cursor : Nat) : Option (Record × Nat) := do
  let headerEnd := cursor + recordHeaderSize
  let header ← getRange storage cursor headerEnd
  let index := order.ofBytes (header.take 4)
  let payloadBytes := order.ofBytes ((header.drop 4).take 4)
  let sequence := order.ofBytes ((header.drop 8).take 4)
  let recordEnd := headerEnd + payloadBytes
  let payload ← getRange storage headerEnd recordEnd
  some (⟨index, sequence, payload⟩, recordEnd)

/-- `next_record`. -/
def nextRecord (order : NativeU32) (records : BatchRecords) :
    Option (Except BatchDecodeError Record) × BatchRecords :=
  if records.finished then (none, records)
  else
    match records.pendingError with
    | some error => (some (.error error), { records with pendingError := none, finished := true })
    | none =>
      if records.recordIndex = records.recordCount then
        (if records.cursor ≠ records.storage.length then some (.error .trailingBytes) else none,
          { records with finished := true })
      else
        match recordAt order records.storage records.cursor with
        | none =>
          (some (.error (.malformedRecord records.recordIndex)), { records with finished := true })
        | some (record, recordEnd) =>
          (some (.ok record),
            { records with cursor := recordEnd, recordIndex := records.recordIndex + 1 })

/-- What call `number` of `next` gives, counted from zero. -/
def next (order : NativeU32) : Nat → BatchRecords → Option (Except BatchDecodeError Record)
  | 0, records => (records.nextRecord order).1
  | number + 1, records => next order number (records.nextRecord order).2

/-- The loop of `occurrence`, with a bound for its calls of `next`. -/
def select (order : NativeU32) (index : Nat) :
    Nat → Nat → BatchRecords → Option Record → Except BatchDecodeError (Option Record)
  | 0, _, _, selected => .ok selected
  | calls + 1, current, records, selected =>
    match records.nextRecord order with
    | (none, _) => .ok selected
    | (some (.error error), _) => .error error
    | (some (.ok record), records) =>
      select order index calls (current + 1) records (if current = index then some record else selected)

/-- `occurrence`.  All records are read, and the call after them ends the iteration. -/
def occurrence (order : NativeU32) (records : BatchRecords) (index : Nat) :
    Except BatchDecodeError (Option Record) :=
  select order index (records.recordCount + 2) 0 records none

end BatchRecords

/-- `used_batch_storage`.  A null pointer is no storage. -/
def usedBatchStorage (storage : Option (List UInt8)) (capacityBytes usedBytes recordCount : Nat) :
    Option (List UInt8) :=
  if capacityBytes < usedBytes ∨ (recordCount = 0 ∧ usedBytes ≠ 0)
      ∨ (recordCount ≠ 0 ∧ storage.isNone) then none
  else if usedBytes = 0 then some []
  else some ((storage.getD []).take usedBytes)

/-- `occurrences` of a batch over present storage. -/
def Batch.occurrences (batch : Batch) : BatchRecords :=
  .new (usedBatchStorage (some batch.storage) batch.capacityBytes batch.usedBytes batch.recordCount)
    batch.recordCount

/-! ### The first record of a storage -/

/-- The record that a storage starts with, and what follows it. -/
def firstRecord (order : NativeU32) (storage : List UInt8) : Option (Record × List UInt8) :=
  let payloadBytes := order.ofBytes ((storage.drop 4).take 4)
  let payload := storage.drop recordHeaderSize
  if recordHeaderSize ≤ storage.length ∧ payloadBytes ≤ payload.length then
    some (⟨order.ofBytes (storage.take 4), order.ofBytes ((storage.drop 8).take 4),
      payload.take payloadBytes⟩, payload.drop payloadBytes)
  else none

variable {order : NativeU32} {storage rest more : List UInt8} {record : Record} {records : List Record}

/-- The three words of a header, and the rest. -/
theorem header_words (long : recordHeaderSize ≤ storage.length) :
    (storage.take 4).length = 4 ∧ ((storage.drop 4).take 4).length = 4 ∧
      ((storage.drop 8).take 4).length = 4 ∧
      storage.take 4 ++ ((storage.drop 4).take 4 ++ ((storage.drop 8).take 4
        ++ storage.drop recordHeaderSize)) = storage := by
  unfold recordHeaderSize at long ⊢
  have sizes : (storage.take 4).length = 4 ∧ ((storage.drop 4).take 4).length = 4 ∧
      ((storage.drop 8).take 4).length = 4 := by
    simp only [List.length_take, List.length_drop]
    omega
  have last : (storage.drop 8).take 4 ++ storage.drop 12 = storage.drop 8 := by
    have drop : storage.drop 12 = (storage.drop 8).drop 4 := by rw [List.drop_drop]
    rw [drop, List.take_append_drop]
  have middle : (storage.drop 4).take 4 ++ storage.drop 8 = storage.drop 4 := by
    have drop : storage.drop 8 = (storage.drop 4).drop 4 := by rw [List.drop_drop]
    rw [drop, List.take_append_drop]
  exact ⟨sizes.1, sizes.2.1, sizes.2.2, by rw [last, middle, List.take_append_drop]⟩

/-- **Unique records.** A storage starts with a record in at most one way, and the reader finds it. -/
theorem firstRecord_eq_some (exact : order.Exact) :
    firstRecord order storage = some (record, more) ↔
      record.Fits ∧ storage = record.bytes order ++ more := by
  constructor
  · intro read
    unfold firstRecord at read
    dsimp only at read
    split at read
    · rename_i holds
      obtain ⟨index, size, sequence, whole⟩ := header_words holds.1
      obtain ⟨rfl, rfl⟩ := Prod.mk.inj (Option.some.inj read)
      have length : ((storage.drop recordHeaderSize).take
          (order.ofBytes ((storage.drop 4).take 4))).length = order.ofBytes ((storage.drop 4).take 4) :=
        List.length_take_of_le holds.2
      refine ⟨⟨exact.ofBytes_le _ index, exact.ofBytes_le _ sequence, ?_⟩, ?_⟩
      · rw [length]
        exact exact.ofBytes_le _ size
      · dsimp only [Record.bytes]
        rw [length, exact.toBytes_ofBytes _ index, exact.toBytes_ofBytes _ size,
          exact.toBytes_ofBytes _ sequence, List.append_assoc, List.append_assoc, List.append_assoc,
          List.take_append_drop, whole]
    · cases read
  · rintro ⟨fits, rfl⟩
    obtain ⟨-, size, sequence, payload⟩ := record.fields order more
    have index : (record.bytes order ++ more).take 4 = order.toBytes record.index := by
      simp only [Record.bytes, List.append_assoc]
      exact List.take_left' (order.length_toBytes _)
    unfold firstRecord
    dsimp only
    rw [size, sequence, payload, index, order.ofBytes_toBytes _ fits.payload,
      order.ofBytes_toBytes _ fits.index, order.ofBytes_toBytes _ fits.sequence,
      List.take_left, List.drop_left, if_pos]
    rw [List.length_append, List.length_append, record.length_bytes]
    omega

theorem firstRecord_suffix (found : firstRecord order storage = some (record, more)) :
    more <:+ storage := by
  unfold firstRecord at found
  dsimp only at found
  split at found
  · obtain ⟨-, rfl⟩ := Prod.mk.inj (Option.some.inj found)
    exact (List.drop_suffix _ _).trans (List.drop_suffix _ _)
  · cases found

/-- Records that follow one another are read from the front, and an error where none is found. -/
def readRecords (order : NativeU32) : Nat → Nat → List UInt8 → List Record × Option BatchDecodeError
  | 0, _, storage => ([], if storage = [] then none else some .trailingBytes)
  | left + 1, recordIndex, storage =>
    match firstRecord order storage with
    | none => ([], some (.malformedRecord recordIndex))
    | some (record, more) =>
      let others := readRecords order left (recordIndex + 1) more
      (record :: others.1, others.2)

/-- Where reading `recordCount` records ends, after `number` of them. -/
inductive Ends (order : NativeU32) (recordCount number : Nat) :
    List UInt8 → Option BatchDecodeError → Prop
  | complete (counted : number = recordCount) : Ends order recordCount number [] none
  | trailing {rest : List UInt8} (counted : number = recordCount) (left : rest ≠ []) :
    Ends order recordCount number rest (some .trailingBytes)
  | malformed {rest : List UInt8} (fewer : number < recordCount)
      (truncated : ∀ record : Record, ∀ more, record.Fits → rest ≠ record.bytes order ++ more) :
    Ends order recordCount number rest (some (.malformedRecord number))

/-- The storage is what the records are packed to, and then what the error is about. -/
structure Packs (order : NativeU32) (recordCount : Nat) (storage : List UInt8) (records : List Record)
    (error : Option BatchDecodeError) : Prop where
  fits : ∀ record ∈ records, record.Fits
  packed : ∃ rest, storage = records.flatMap (Record.bytes order) ++ rest ∧
    Ends order recordCount records.length rest error

variable {error : Option BatchDecodeError} {recordCount left recordIndex : Nat}

/-- What is read tiles the storage. -/
theorem readRecords_packs (exact : order.Exact) : ∀ (left recordIndex : Nat) (storage : List UInt8),
      (∀ record ∈ (readRecords order left recordIndex storage).1, record.Fits) ∧
      ∃ rest, storage
          = (readRecords order left recordIndex storage).1.flatMap (Record.bytes order) ++ rest ∧
        Ends order (recordIndex + left)
          (recordIndex + (readRecords order left recordIndex storage).1.length) rest
          (readRecords order left recordIndex storage).2
  | 0, recordIndex, storage => by
    -- All records are read: what is left over is trailing bytes.
    refine ⟨List.forall_mem_nil _, storage, rfl, ?_⟩
    unfold readRecords
    split
    · rename_i empty
      exact empty ▸ .complete rfl
    · rename_i more
      exact .trailing rfl more
  | left + 1, recordIndex, storage => by
    cases found : firstRecord order storage with
    | none =>
      simp only [readRecords, found]
      refine ⟨List.forall_mem_nil _, storage, rfl, .malformed (by simp) fun record more fits same => ?_⟩
      rw [(firstRecord_eq_some exact).mpr ⟨fits, same⟩] at found
      cases found
    | some entry =>
      obtain ⟨record, more⟩ := entry
      obtain ⟨fits, rfl⟩ := (firstRecord_eq_some exact).mp found
      obtain ⟨others, rest, packed, ends⟩ :=
        readRecords_packs exact left (recordIndex + 1) more
      simp only [readRecords, found]
      refine ⟨List.forall_mem_cons.mpr ⟨fits, others⟩, rest, ?_, ?_⟩
      · rw [List.flatMap_cons, List.append_assoc, ← packed]
      · rw [List.length_cons, ← Nat.add_assoc, Nat.add_right_comm, ← Nat.add_assoc,
          Nat.add_right_comm recordIndex _ 1]
        exact ends

theorem Ends.number_le {number : Nat} (ends : Ends order recordCount number rest error) :
    number ≤ recordCount := by
  cases ends with
  | complete counted => exact counted.le
  | trailing counted => exact counted.le
  | malformed fewer => exact fewer.le

/-- What tiles the storage is read. -/
theorem readRecords_of_ends (exact : order.Exact) (fits : ∀ record ∈ records, record.Fits)
    (ends : Ends order (recordIndex + left) (recordIndex + records.length) rest error) :
    readRecords order left recordIndex (records.flatMap (Record.bytes order) ++ rest)
      = (records, error) := by
  induction records generalizing left recordIndex with
  | nil =>
    rw [List.flatMap_nil, List.nil_append]
    cases ends with
    | complete counted =>
      obtain rfl : 0 = left := Nat.add_left_cancel counted
      rfl
    | trailing counted more =>
      obtain rfl : 0 = left := Nat.add_left_cancel counted
      rw [readRecords, if_neg more]
    | malformed fewer truncated =>
      obtain ⟨left, rfl⟩ := Nat.exists_eq_succ_of_ne_zero (Nat.pos_of_lt_add_right fewer).ne'
      rw [readRecords]
      cases found : firstRecord order rest with
      | none => rfl
      | some entry =>
        obtain ⟨small, same⟩ := (firstRecord_eq_some exact).mp found
        exact absurd same (truncated _ _ small)
  | cons record records ih =>
    obtain ⟨here, others⟩ := List.forall_mem_cons.mp fits
    have enough := ends.number_le
    rw [List.length_cons] at enough ends
    obtain ⟨left, rfl⟩ := Nat.exists_eq_succ_of_ne_zero (show left ≠ 0 by omega)
    rw [← Nat.add_assoc, Nat.succ_eq_add_one, ← Nat.add_assoc, Nat.add_right_comm,
      Nat.add_right_comm _ _ 1] at ends
    rw [List.flatMap_cons, List.append_assoc, readRecords,
      (firstRecord_eq_some exact).mpr ⟨here, rfl⟩]
    simp only [ih others ends]

theorem Packs.read (exact : order.Exact) (packs : Packs order recordCount storage records error) :
    readRecords order recordCount 0 storage = (records, error) := by
  obtain ⟨fits, rest, rfl, ends⟩ := packs
  exact readRecords_of_ends exact fits (by rwa [Nat.zero_add, Nat.zero_add])

/-! ### The iterator reads what is there -/

namespace BatchRecords

variable {cursor : Nat} {reader : BatchRecords}

/-- The cursor reads the first record of what is left. -/
theorem recordAt_eq (storage : List UInt8) (cursor : Nat) :
    recordAt order storage cursor = (firstRecord order (storage.drop cursor)).map
      fun entry => (entry.1, storage.length - entry.2.length) := by
  have word (skip : Nat) (within : skip + 4 ≤ 12) (bytes : List UInt8) :
      ((bytes.take 12).drop skip).take 4 = (bytes.drop skip).take 4 := by
    rw [List.drop_take, List.take_take, Nat.min_eq_left (by omega)]
  have index := word 0 (by decide) (storage.drop cursor)
  rw [List.drop_zero, List.drop_zero] at index
  unfold recordAt firstRecord getRange recordHeaderSize
  dsimp only [bind]
  simp only [List.length_drop, List.drop_drop]
  by_cases header : cursor + 12 ≤ storage.length
  · rw [if_pos ⟨by omega, header⟩, Option.bind_some, Nat.add_sub_cancel_left, word 4 (by decide),
      word 8 (by decide), index, List.drop_drop, List.drop_drop]
    generalize order.ofBytes ((storage.drop (cursor + 4)).take 4) = payloadBytes
    by_cases payload : cursor + 12 + payloadBytes ≤ storage.length
    · rw [if_pos ⟨by omega, payload⟩, if_pos (by omega), Option.bind_some, Option.map_some,
        Nat.add_sub_cancel_left, List.length_drop, Nat.sub_sub_self payload]
    · rw [if_neg fun held => payload held.2, if_neg (by omega)]
      rfl
  · rw [if_neg fun held => header held.2, if_neg (by omega)]
    rfl

theorem next_finished (finished : reader.finished = true) (number : Nat) :
    reader.next order number = none := by
  have same : reader.nextRecord order = (none, reader) := by
    rw [nextRecord, if_pos finished]
  induction number with
  | zero => rw [next, same]
  | succ number ih => rw [next, same, ih]

/-- What an iterator gives that has `left` records to read. -/
theorem next_eq (inside : cursor ≤ storage.length)
    (count : recordIndex + left = recordCount) (number : Nat) :
    next order number ⟨storage, cursor, recordIndex, recordCount, none, false⟩ =
      (let read := readRecords order left recordIndex (storage.drop cursor)
      read.1.map Except.ok ++ read.2.toList.map Except.error)[number]? := by
  induction left generalizing cursor recordIndex number with
  | zero =>
    have ended : recordIndex = recordCount := count
    have empty : storage.drop cursor = [] ↔ ¬cursor ≠ storage.length := by
      rw [List.drop_eq_nil_iff]
      omega
    simp only [readRecords, empty, List.map_nil, List.nil_append]
    cases number with
    | zero =>
      rw [next, nextRecord, if_neg Bool.false_ne_true]
      dsimp only
      rw [if_pos ended]
      by_cases whole : cursor ≠ storage.length
      · rw [if_pos whole, if_neg (not_not_intro whole)]
        rfl
      · rw [if_neg whole, if_pos whole]
        rfl
    | succ number =>
      rw [next, nextRecord, if_neg Bool.false_ne_true]
      dsimp only
      rw [if_pos ended, next_finished rfl]
      split <;> rfl
  | succ left ih =>
    have step : nextRecord order ⟨storage, cursor, recordIndex, recordCount, none, false⟩ =
        match recordAt order storage cursor with
        | none => (some (.error (.malformedRecord recordIndex)),
            ⟨storage, cursor, recordIndex, recordCount, none, true⟩)
        | some (record, recordEnd) => (some (.ok record),
            ⟨storage, recordEnd, recordIndex + 1, recordCount, none, false⟩) := by
      have before : recordIndex ≠ recordCount := by omega
      rw [nextRecord, if_neg Bool.false_ne_true]
      exact if_neg before
    rw [recordAt_eq] at step
    cases found : firstRecord order (storage.drop cursor) with
    | none =>
      rw [found] at step
      simp only [readRecords, found]
      cases number with
      | zero =>
        rw [next, step]
        rfl
      | succ number =>
        rw [next, step, next_finished rfl]
        rfl
    | some entry =>
      obtain ⟨record, more⟩ := entry
      rw [found] at step
      simp only [readRecords, found]
      cases number with
      | zero =>
        rw [next, step]
        rfl
      | succ number =>
        have suffix := (firstRecord_suffix found).trans (List.drop_suffix cursor storage)
        rw [next, step]
        refine (ih (Nat.sub_le _ _) (by omega) number).trans ?_
        rw [← List.suffix_iff_eq_drop.mp suffix]
        rfl

/-- The loop passes all that the calls of `next` give. -/
theorem select_eq {index calls current : Nat} {selected : Option Record}
    (reads : ∀ number, reader.next order number
      = (records.map Except.ok ++ error.toList.map Except.error)[number]?)
    (enough : records.length + 1 < calls) :
    select order index calls current reader selected = error.elim
      (.ok (if index < current then selected else records[index - current]?.or selected)) .error := by
  induction records generalizing reader calls current selected with
  | nil =>
    obtain ⟨calls, rfl⟩ := Nat.exists_eq_succ_of_ne_zero (Nat.ne_zero_of_lt enough)
    rcases step : reader.nextRecord order with ⟨given, after⟩
    have first := reads 0
    rw [next, step] at first
    obtain rfl := first
    cases error <;> simp [select, step]
  | cons record records ih =>
    obtain ⟨calls, rfl⟩ := Nat.exists_eq_succ_of_ne_zero (Nat.ne_zero_of_lt enough)
    rcases step : reader.nextRecord order with ⟨given, after⟩
    have first := reads 0
    rw [next, step] at first
    obtain rfl := first
    have later (number : Nat) := reads (number + 1)
    simp only [next, step, List.map_cons, List.cons_append, List.getElem?_cons_succ] at later
    rw [List.length_cons, Nat.succ_lt_succ_iff] at enough
    rw [select, step]
    refine (ih later enough).trans ?_
    congr 2
    rcases Nat.lt_trichotomy index current with less | rfl | more
    · rw [if_pos (by omega), if_neg (by omega), if_pos less]
    · simp
    · rw [if_neg (by omega), if_neg (by omega), if_neg (by omega),
        show index - current = index - (current + 1) + 1 by omega, List.getElem?_cons_succ]

end BatchRecords

/-- **The iterator is exact.** For every storage and every count, the calls of `next` give the only
records that tile the storage, then the error if there is one, and then nothing any more; `occurrence`
finds one of them, or the error.  Without a storage for its counters a batch gives one error. -/
theorem occurrences_exact (exact : order.Exact) (recordCount : Nat) :
    (∀ storage, ∃ records error, Packs order recordCount storage records error ∧
      (∀ records' error', Packs order recordCount storage records' error' →
        records' = records ∧ error' = error) ∧
      (∀ number, (BatchRecords.new (some storage) recordCount).next order number
        = (records.map Except.ok ++ error.toList.map Except.error)[number]?) ∧
      ∀ index, (BatchRecords.new (some storage) recordCount).occurrence order index
        = error.elim (.ok records[index]?) .error) ∧
    ∀ number, (BatchRecords.new none recordCount).next order number
      = [Except.error BatchDecodeError.invalidEnvelope][number]? := by
  refine ⟨fun storage => ?_, fun number => ?_⟩
  · obtain ⟨small, rest, packed, ends⟩ := readRecords_packs exact recordCount 0 storage
    rw [Nat.zero_add, Nat.zero_add] at ends
    have reads := @BatchRecords.next_eq order storage recordCount recordCount 0 0 (Nat.zero_le _) (Nat.zero_add _)
    refine ⟨_, _, ⟨small, rest, packed, ends⟩, fun records' error' packs => ?_, reads, fun index => ?_⟩
    · rw [packs.read exact]
      exact ⟨rfl, rfl⟩
    · have found := @BatchRecords.select_eq order _ _ _ index (recordCount + 2) 0 none reads
        (by have := ends.number_le; simp only [List.drop_zero]; omega)
      simpa [BatchRecords.occurrence, BatchRecords.new] using found
  · cases number with
    | zero => rfl
    | succ number => exact BatchRecords.next_finished rfl number

/-- A storage with a record of one byte and a byte more. -/
theorem occurrences_exact_trailing : ∃ records error,
    Packs .littleEndian 1 [3, 0, 0, 0, 1, 0, 0, 0, 0, 0, 0, 0, 7, 9] records error ∧
      ∀ number, (BatchRecords.new (some [3, 0, 0, 0, 1, 0, 0, 0, 0, 0, 0, 0, 7, 9]) 1).next .littleEndian
        number = (records.map Except.ok ++ error.toList.map Except.error)[number]? := by
  obtain ⟨records, error, packs, -, read, -⟩ := (occurrences_exact NativeU32.littleEndian_exact 1).1 _
  exact ⟨records, error, packs, read⟩

/-! ### Published records -/

/-- The records that a batch keeps are read from it. -/
theorem Batch.Keeps.occurrences {batch : Batch} {offered : List Record} (exact : order.Exact)
    (keeps : batch.Keeps order offered)
    (words : ∀ record ∈ offered, record.index ≤ u32Max ∧ record.sequence ≤ u32Max) :
    ∃ kept, List.Sublist kept offered ∧
      batch.overflowCount = min (offered.length - kept.length) u32Max ∧
      ∀ number, batch.occurrences.next order number = (kept.map Except.ok)[number]? := by
  obtain ⟨kept, sublist, stored, counted, lost⟩ := keeps.kept
  have used := keeps.used_le
  have inside : batch.capacityBytes ≤ batch.storage.length := Nat.min_le_left _ _
  have small : batch.capacityBytes ≤ u32Max := Nat.min_le_right _ _
  have length : (kept.flatMap (Record.bytes order)).length = batch.usedBytes := by
    rw [← stored, List.length_take_of_le (used.trans inside)]
  have fits : ∀ record ∈ kept, record.Fits := by
    intro record mem
    obtain ⟨index, sequence⟩ := words record (sublist.subset mem)
    have bound : (record.bytes order).length ≤ (kept.flatMap (Record.bytes order)).length :=
      (List.sublist_flatten_of_mem (List.mem_map_of_mem (f := Record.bytes order) mem)).length_le
    rw [length, record.length_bytes] at bound
    exact ⟨index, sequence, by omega⟩
  have storage : usedBatchStorage (some batch.storage) batch.capacityBytes batch.usedBytes
      batch.recordCount = some (kept.flatMap (Record.bytes order)) := by
    rw [usedBatchStorage, if_neg, ← stored]
    · split
      · rename_i none
        rw [none]
        rfl
      · rfl
    · rintro (excess | ⟨none, some⟩ | ⟨-, null⟩)
      · omega
      · rw [counted, List.length_eq_zero_iff] at none
        rw [none] at length
        exact some length.symm
      · cases null
  refine ⟨kept, sublist, lost, fun number => ?_⟩
  unfold Batch.occurrences
  rw [storage, counted]
  refine (BatchRecords.next_eq (Nat.zero_le _) (Nat.zero_add _) number).trans ?_
  have packs : Packs order kept.length (kept.flatMap (Record.bytes order)) kept none :=
    ⟨fits, [], (List.append_nil _).symm, .complete rfl⟩
  simp only [Option.getD_some, List.drop_zero, packs.read exact, Option.toList_none, List.map_nil, List.append_nil]

/-- **Publishing and reading.** Whatever a call of generated code publishes, the iterator over the
batch of a channel gives records that were offered to it, in their order, without an error, and the
others are counted. -/
theorem publications_read (exact : order.Exact) (present : Channel → Bool)
    (storages : Channel → List UInt8) (publications : List Publication)
    (words : ∀ publication ∈ publications, publication.index ≤ u32Max) (channel : Channel)
    (wanted : present channel = true) :
    ∃ batch kept, (ExecutionOutput.publishAll order
        ⟨fun channel => if present channel then some (.fromStorage (storages channel)) else none, 0⟩
        publications).batches channel = some batch ∧
      List.Sublist kept (offered channel (collected present publications) 0) ∧
      batch.overflowCount = min ((offered channel (collected present publications) 0).length
        - kept.length) u32Max ∧
      ∀ number, batch.occurrences.next order number = (kept.map Except.ok)[number]? := by
  have fresh : ExecutionOutput.Numbers order present (fun channel => (storages channel).length) []
      ⟨fun channel => if present channel then some (.fromStorage (storages channel)) else none, 0⟩ :=
    { nextSequence := rfl
      absent := fun channel absent => if_neg (by simp [absent])
      batch := fun channel here =>
        ⟨_, if_pos here, rfl, Batch.keeps_fromStorage order (storages channel)⟩ }
  obtain ⟨batch, found, -, keeps⟩ := (fresh.publishAll publications).batch channel wanted
  have indices : ∀ record ∈ offered channel (collected present publications) 0,
      record.index ≤ u32Max := by
    intro record mem
    obtain ⟨entry, listed, rfl⟩ := List.mem_map.mp mem
    obtain ⟨numbered, place, rfl⟩ := List.mem_map.mp (List.mem_of_mem_filter listed)
    exact words _ (List.mem_of_mem_filter (List.fst_mem_of_mem_zipIdx place))
  obtain ⟨kept, read⟩ := keeps.occurrences exact fun record mem =>
    ⟨indices record mem, sequence_le mem⟩
  exact ⟨batch, kept, found, read⟩

/-- An occurrence of a print, with room for one. -/
theorem publications_read_print :
    ∃ batch, ∃ kept : List Record, (ExecutionOutput.publishAll .littleEndian
        ⟨fun _ => some (.fromStorage (List.replicate 16 0)), 0⟩ [⟨.print, 2, [7]⟩]).batches .print
        = some batch ∧
      ∀ number, batch.occurrences.next .littleEndian number = (kept.map Except.ok)[number]? := by
  obtain ⟨batch, kept, found, -, -, read⟩ := publications_read NativeU32.littleEndian_exact (fun _ => true)
    (fun _ => List.replicate 16 0) [⟨.print, 2, [7]⟩] (by simp [u32Max]) .print rfl
  exact ⟨batch, kept, found, read⟩

end Onda.Rendering
