import Mathlib
import Onda.Lib.Steps

/-!
# Output of a run, packed and decoded

A run writes its delegates and prints into storage that a packet exchanges with it.  Decoding checks
that the storage holds exactly the counted records.
-/

namespace Onda.Playback.Output

/-- `RunOutputCounts`. -/
structure OutputCounts where
  delegates : Nat
  delegateOverflow : Nat
  prints : Nat
  printOverflow : Nat
deriving DecidableEq

def OutputCounts.isEmpty (counts : OutputCounts) : Bool := counts = ⟨0, 0, 0, 0⟩

/-- `RunPackedOutput`. -/
structure PackedOutput where
  delegates : List UInt8
  delegateUsed : Nat
  prints : List UInt8
  printUsed : Nat
  counts : OutputCounts

/-- The output of a `RunSession` that is not published. -/
structure Session where
  delegateStorage : List UInt8
  delegateUsed : Nat
  delegateRecordCount : Nat
  delegateOverflowCount : Nat
  printStorage : List UInt8
  printUsed : Nat
  printRecordCount : Nat
  printOverflowCount : Nat

namespace Session

def outputCounts (run : Session) : OutputCounts :=
  ⟨run.delegateRecordCount, run.delegateOverflowCount, run.printRecordCount,
    run.printOverflowCount⟩

def beginDelegateBatch (run : Session) : Session :=
  { run with delegateUsed := 0, delegateRecordCount := 0, delegateOverflowCount := 0 }

def beginPrintBatch (run : Session) : Session :=
  { run with printUsed := 0, printRecordCount := 0, printOverflowCount := 0 }

def discardOutput (run : Session) : Session := run.beginDelegateBatch.beginPrintBatch

/-- What the run reports. -/
def packed (run : Session) : PackedOutput :=
  ⟨run.delegateStorage, run.delegateUsed, run.printStorage, run.printUsed, run.outputCounts⟩

/-- `swap_output`: the session takes the storage of the packet.  Storage of another size panics. -/
def swapOutput (run : Session) (packet : PackedOutput) : Option (Session × PackedOutput) :=
  if run.delegateStorage.length = packet.delegates.length ∧
      run.printStorage.length = packet.prints.length then
    some ({ run with
      delegateStorage := packet.delegates
      printStorage := packet.prints }.discardOutput, run.packed)
  else none

theorem swapOutput_packed {run : Session} {packet : PackedOutput}
    {swapped : Session × PackedOutput} (swap : run.swapOutput packet = some swapped) :
    swapped.2 = run.packed := by
  unfold swapOutput at swap
  split at swap
  · obtain rfl := Option.some.inj swap
    rfl
  · cases swap

/-- Both have storage of one size. -/
def SameSize (run other : Session) : Prop :=
  run.delegateStorage.length = other.delegateStorage.length ∧
    run.printStorage.length = other.printStorage.length

end Session

/-- `RunDelegateBatch`. -/
structure DelegateBatch (D : Type) where
  occurrences : List D
  overflowCount : Nat

/-- `RunPrintBatch`. -/
structure PrintBatch (P : Type) where
  text : String
  entries : List P
  overflowCount : Nat
  transportDropCount : Nat

/-- `RunOutputDecoder`: the descriptors of a program, by the index of a record, its sequence and its
payload. -/
structure Decoder (D P : Type) where
  nativeU32 : List UInt8 → Nat
  delegate : Nat → Nat → List UInt8 → Option D
  print : Nat → Nat → List UInt8 → Option P
  format : List P → String

namespace Decoder

variable {D P : Type} (decoder : Decoder D P)

/-- The header of a record: index, payload bytes and sequence. -/
def recordHeaderSize : Nat := 12

/-- A record, and the storage after it. -/
def takeRecord (storage : List UInt8) : Option ((Nat × Nat × List UInt8) × List UInt8) :=
  if recordHeaderSize ≤ storage.length then
    let payloadBytes := decoder.nativeU32 ((storage.drop 4).take 4)
    if recordHeaderSize + payloadBytes ≤ storage.length then
      some ((decoder.nativeU32 (storage.take 4), decoder.nativeU32 ((storage.drop 8).take 4),
        (storage.drop recordHeaderSize).take payloadBytes),
        storage.drop (recordHeaderSize + payloadBytes))
    else none
  else none

/-- The loop of `decode_run_delegate_batch`; a record has at least a header. -/
def delegateRecords : Nat → List UInt8 → Option (List D)
  | _, [] => some []
  | 0, _ :: _ => none
  | fuel + 1, byte :: storage =>
    (decoder.takeRecord (byte :: storage)).bind fun record =>
      (decoder.delegate record.1.1 record.1.2.1 record.1.2.2).bind fun occurrence =>
        (delegateRecords fuel record.2).map fun occurrences => occurrence :: occurrences

/-- `decode_run_delegate_batch`. -/
def decodeDelegates (storage : List UInt8) (recordCount overflowCount : Nat) :
    Option (DelegateBatch D) :=
  (decoder.delegateRecords storage.length storage).bind fun occurrences =>
    if occurrences.length = recordCount then some ⟨occurrences, overflowCount⟩ else none

/-- The records of a `PrintBatch`: as many as it counts, without trailing bytes. -/
def printRecords : Nat → List UInt8 → Option (List P)
  | 0, storage => if storage.isEmpty then some [] else none
  | recordCount + 1, storage =>
    (decoder.takeRecord storage).bind fun record =>
      (decoder.print record.1.1 record.1.2.1 record.1.2.2).bind fun entry =>
        (printRecords recordCount record.2).map fun entries => entry :: entries

/-- `used_batch_storage`, of storage that is not null. -/
def usedBatchStorage (storage : List UInt8) (usedBytes recordCount : Nat) : Option (List UInt8) :=
  if storage.length % 2 ^ 32 < usedBytes ∨ recordCount = 0 ∧ usedBytes ≠ 0 then none
  else some (storage.take usedBytes)

/-- `decode_run_print_batch`. -/
def decodePrints (storage : List UInt8) (used recordCount overflowCount : Nat) :
    Option (PrintBatch P) :=
  (usedBatchStorage storage (used % 2 ^ 32) recordCount).bind fun records =>
    (decoder.printRecords recordCount records).map fun entries =>
      ⟨decoder.format entries, entries, overflowCount, 0⟩

def decode (packet : PackedOutput) : Option (DelegateBatch D × PrintBatch P) :=
  (decoder.decodeDelegates (packet.delegates.take packet.delegateUsed) packet.counts.delegates
      packet.counts.delegateOverflow).bind fun delegates =>
    (decoder.decodePrints packet.prints packet.printUsed packet.counts.prints
      packet.counts.printOverflow).map fun prints => (delegates, prints)

variable {decoder}

theorem printRecords_length {recordCount : Nat} {storage : List UInt8} {entries : List P}
    (decoded : decoder.printRecords recordCount storage = some entries) :
    entries.length = recordCount := by
  induction recordCount generalizing storage entries with
  | zero =>
    unfold printRecords at decoded
    split at decoded
    · obtain rfl := Option.some.inj decoded
      rfl
    · cases decoded
  | succ recordCount ih =>
    obtain ⟨record, -, decoded⟩ := Option.bind_eq_some_iff.mp decoded
    obtain ⟨entry, -, decoded⟩ := Option.bind_eq_some_iff.mp decoded
    obtain ⟨rest, records, rfl⟩ := Option.map_eq_some_iff.mp decoded
    rw [List.length_cons, ih records]

/-- What is decoded is what is counted. -/
theorem decode_counts {packet : PackedOutput} {delegates : DelegateBatch D}
    {prints : PrintBatch P} (decoded : decoder.decode packet = some (delegates, prints)) :
    packet.counts = ⟨delegates.occurrences.length, delegates.overflowCount, prints.entries.length,
      prints.overflowCount⟩ := by
  obtain ⟨batch, first, decoded⟩ := Option.bind_eq_some_iff.mp decoded
  obtain ⟨printed, second, pair⟩ := Option.map_eq_some_iff.mp decoded
  obtain ⟨rfl, rfl⟩ := Prod.mk.inj pair
  obtain ⟨occurrences, -, first⟩ := Option.bind_eq_some_iff.mp first
  obtain ⟨records, -, second⟩ := Option.bind_eq_some_iff.mp second
  obtain ⟨entries, length, rfl⟩ := Option.map_eq_some_iff.mp second
  have entries := printRecords_length length
  split at first
  · rename_i counted
    obtain rfl := Option.some.inj first
    dsimp only
    rw [counted, entries]
  · cases first

end Decoder

end Onda.Playback.Output
