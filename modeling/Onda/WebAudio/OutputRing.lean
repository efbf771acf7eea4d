import Mathlib
import Onda.Lib.Steps

/-!
# The execution-output ring

The worklet publishes the output of an operation as one entry of a ring in shared memory, and the
main thread drains the ring.  Publishing and draining are sequences of steps: the loads of both
indices, one access for each word and byte of a slot, and the store of the index.

Delegates and prints are two channels with the same fields.
-/

namespace Onda.WebAudio

/-- A 32-bit word. -/
abbrev Word := Fin (2 ^ 32)

abbrev Byte := Fin 256

/-- The two kinds of records. -/
inductive Channel where
  | delegate
  | print
deriving DecidableEq

/-- The words of a slot. -/
inductive Field where
  | operation
  | operationIndex
  | subscription (channel : Channel)
  | used (channel : Channel)
  | records (channel : Channel)
  | overflow (channel : Channel)
  | transportDrops (channel : Channel)
deriving DecidableEq

/-- An entry: its words and the bytes of its records. -/
structure Entry where
  word : Field → Word
  payload : Channel → List Byte

/-- The cells of a slot. -/
inductive Cell where
  | word (field : Field)
  | byte (channel : Channel) (index : Nat)
deriving DecidableEq

/-! ### Layout -/

/-- What `openExecutionOutputRing` reads from the control words. -/
structure Layout where
  slotCount : Nat
  capacity : Channel → Nat
  /-- The slot count is a power of two. -/
  power : ∃ k, k < 32 ∧ slotCount = 2 ^ k
  small : ∀ channel, capacity channel < 2 ^ 32

namespace Layout

end Layout

/-! ### The ring -/

/-- The shared buffer. -/
structure Ring where
  words : Nat → Field → Word
  bytes : Nat → Channel → Nat → Byte
  readIndex : Nat
  writeIndex : Nat

/-- What one step of the producer writes. -/
inductive Store where
  | word (field : Field) (value : Word)
  | byte (channel : Channel) (index : Nat) (value : Byte)

namespace Ring

/-- A cell of a slot holds what a store writes. -/
def Shows (ring : Ring) (slot : Nat) : Store → Prop
  | .word field value => ring.words slot field = value
  | .byte channel index value => ring.bytes slot channel index = value

def write (ring : Ring) (slot : Nat) : Store → Ring
  | .word field value =>
    { ring with
      words := Function.update ring.words slot (Function.update (ring.words slot) field value) }
  | .byte channel index value =>
    { ring with
      bytes := Function.update ring.bytes slot (Function.update (ring.bytes slot) channel
        (Function.update (ring.bytes slot channel) index value)) }

end Ring

/-- The words, in the order in which they are written. -/
def writeOrder : List Field :=
  [.operation, .operationIndex, .subscription .delegate, .used .delegate, .records .delegate,
    .overflow .delegate, .transportDrops .delegate, .subscription .print, .used .print,
    .records .print, .overflow .print, .transportDrops .print]

/-- The words, in the order in which they are read. -/
def readOrder : List Field :=
  [.used .delegate, .used .print, .operation, .operationIndex, .subscription .delegate,
    .records .delegate, .overflow .delegate, .transportDrops .delegate, .subscription .print,
    .records .print, .overflow .print, .transportDrops .print]

/-- `copyBytes`. -/
def copyBytes (channel : Channel) (bytes : List Byte) : List Store :=
  bytes.mapIdx fun index value => .byte channel index value

def Entry.stores (entry : Entry) : List Store :=
  writeOrder.map (fun field => .word field (entry.word field)) ++
    copyBytes .delegate (entry.payload .delegate) ++ copyBytes .print (entry.payload .print)

/-! ### The worklet -/

/-- The batch that an operation leaves; its records fit the storage of the channel. -/
structure Batch (capacity : Nat) where
  bytes : List Byte
  records : Word
  overflow : Word
  fits : bytes.length ≤ capacity

/-- The settings of a channel, and what is still to be reported. -/
structure Collection where
  enabled : Bool
  subscriptionId : Word
  pendingDrops : Word
  pendingOverflow : Word

/-- `saturatedAdd`. -/
def saturatedAdd (first second : Word) : Word :=
  ⟨min 0xffffffff (first.val + second.val), by omega⟩

inductive Operation where
  | init
  | process
  | event
  | transport
deriving DecidableEq

/-- `EXECUTION_OPERATION_INIT` and so on. -/
def Operation.word : Operation → Word
  | init => 1
  | process => 2
  | event => 3
  | transport => 4

/-- What a publish call reads from the processor. -/
structure Output (layout : Layout) where
  operation : Operation
  operationIndex : Word
  batch : (channel : Channel) → Batch (layout.capacity channel)

/-- An entry, and the overflow of the operation alone. -/
structure Publication where
  entry : Entry
  overflow : Channel → Word

inductive Producer where
  | idle
  | prepared (publication : Publication)
  /-- The read index is loaded. -/
  | loaded (publication : Publication) (read : Nat)
  /-- Some cells of the slot are written. -/
  | writing (publication : Publication) (write : Nat) (done left : List Store)

inductive Consumer where
  | idle
  /-- The read index is loaded. -/
  | loaded (read : Nat)
  /-- Some words of the slot are read. -/
  | header (read : Nat) (left : List Field) (word : Field → Word)
  /-- The words and some bytes of the slot are read. -/
  | payload (read : Nat) (word : Field → Word) (delegate print : List Byte)

/-- Both parties.  `written` and `drained` are all entries so far.  `produced` and `overflowed`
count, for the settings that a channel has had since `since` entries were written, what operations
produced, whether it was written or not. -/
structure System where
  ring : Ring
  collection : Channel → Collection
  producer : Producer
  consumer : Consumer
  written : List Entry
  drained : List Entry
  produced : Channel → Nat
  overflowed : Channel → Nat
  since : Channel → Nat

inductive Action (layout : Layout) where
  /-- `setDelegateSubscription` and `setPrintSubscription`. -/
  | subscribe (channel : Channel) (enabled : Bool) (subscriptionId : Word)
  | publish (output : Output layout)
  | producer
  /-- One round of `drainExecutionOutputRing`; after `consume` has thrown there is no other. -/
  | drain
  | consumer

namespace System

section

variable {layout : Layout} (sys : System) (output : Output layout)

/-- What a channel reports of its batch. -/
def current (channel : Channel) : Batch (layout.capacity channel) :=
  if (sys.collection channel).enabled then output.batch channel
  else ⟨[], 0, 0, Nat.zero_le _⟩

def hasCurrent (channel : Channel) : Bool :=
  (sys.current output channel).bytes.length ≠ 0 ∨ (sys.current output channel).records ≠ 0 ∨
    (sys.current output channel).overflow ≠ 0

def hasPending (channel : Channel) : Bool :=
  (sys.collection channel).pendingDrops ≠ 0 ∨ (sys.collection channel).pendingOverflow ≠ 0

def entry : Entry where
  word
    | .operation =>
      if sys.hasCurrent output .delegate ∨ sys.hasCurrent output .print then output.operation.word
      else Operation.transport.word
    | .operationIndex =>
      if sys.hasCurrent output .delegate ∨ sys.hasCurrent output .print then output.operationIndex
      else 0
    | .subscription channel => (sys.collection channel).subscriptionId
    | .used channel => ⟨(sys.current output channel).bytes.length,
        Nat.lt_of_le_of_lt (sys.current output channel).fits (layout.small channel)⟩
    | .records channel => (sys.current output channel).records
    | .overflow channel =>
      saturatedAdd (sys.collection channel).pendingOverflow (sys.current output channel).overflow
    | .transportDrops channel => (sys.collection channel).pendingDrops
  payload channel := (sys.current output channel).bytes

/-- `publishExecutionOutput`, up to the write of its entry. -/
def publish : System :=
  if ¬((sys.collection .delegate).enabled ∨ (sys.collection .print).enabled ∨
      sys.hasPending .delegate ∨ sys.hasPending .print) then sys
  else if ¬(sys.hasCurrent output .delegate ∨ sys.hasCurrent output .print ∨
      sys.hasPending .delegate ∨ sys.hasPending .print) then sys
  else
    { sys with
      producer := .prepared
        ⟨sys.entry output, fun channel => (sys.current output channel).overflow⟩ }

end

variable (layout : Layout) (sys : System)

/-- The counts of an operation whose publication has ended. -/
def count (publication : Publication) : System :=
  { sys with
    producer := .idle
    produced := fun channel =>
      sys.produced channel + (publication.entry.word (.records channel)).val
    overflowed := fun channel => sys.overflowed channel + (publication.overflow channel).val }

/-- The ring is full. -/
def keep (publication : Publication) : System :=
  { sys.count publication with
    collection := fun channel =>
      { sys.collection channel with
        pendingDrops := saturatedAdd (sys.collection channel).pendingDrops
          (publication.entry.word (.records channel))
        pendingOverflow := saturatedAdd (sys.collection channel).pendingOverflow
          (publication.overflow channel) } }

/-- The entry is in its slot. -/
def commit (publication : Publication) (write : Nat) : System :=
  { sys.count publication with
    ring := { sys.ring with writeIndex := (write + 1) % 2 ^ 32 }
    collection := fun channel =>
      { sys.collection channel with pendingDrops := 0, pendingOverflow := 0 }
    written := sys.written ++ [publication.entry] }

/-- The next step of `writeExecutionOutputRing`. -/
def producerStep : Option System :=
  match sys.producer with
  | .idle => none
  | .prepared publication =>
    some { sys with producer := .loaded publication sys.ring.readIndex }
  | .loaded publication read =>
    if layout.slotCount ≤ (sys.ring.writeIndex + 2 ^ 32 - read) % 2 ^ 32 then
      some (sys.keep publication)
    else
      some
        { sys with
          producer := .writing publication sys.ring.writeIndex [] publication.entry.stores }
  | .writing publication write done (store :: left) => some
    { sys with
      ring := sys.ring.write (write % layout.slotCount) store
      producer := .writing publication write (done ++ [store]) left }
  | .writing publication write _ [] => some (sys.commit publication write)

/-- The next step of a round of `drainExecutionOutputRing`. -/
def consumerStep : Option System :=
  match sys.consumer with
  | .idle => none
  | .loaded read =>
    if read = sys.ring.writeIndex then some { sys with consumer := .idle }
    else some { sys with consumer := .header read readOrder fun _ => 0 }
  | .header read (field :: left) word => some
    { sys with
      consumer := .header read left
        (Function.update word field (sys.ring.words (read % layout.slotCount) field)) }
  | .header read [] word => some { sys with consumer := .payload read word [] [] }
  | .payload read word delegate print =>
    if delegate.length < (word (.used .delegate)).val then some
      { sys with
        consumer := .payload read word
          (delegate ++ [sys.ring.bytes (read % layout.slotCount) .delegate delegate.length])
          print }
    else if print.length < (word (.used .print)).val then some
      { sys with
        consumer := .payload read word delegate
          (print ++ [sys.ring.bytes (read % layout.slotCount) .print print.length]) }
    else some
      { sys with
        ring := { sys.ring with readIndex := (read + 1) % 2 ^ 32 }
        consumer := .idle
        drained := sys.drained ++
          [⟨word, fun channel =>
            match channel with
            | .delegate => delegate
            | .print => print⟩] }

def step : Action layout → Option System
  | .subscribe channel enabled subscriptionId =>
    match sys.producer with
    | .idle => some
      { sys with
        collection := Function.update sys.collection channel ⟨enabled, subscriptionId, 0, 0⟩
        produced := Function.update sys.produced channel 0
        overflowed := Function.update sys.overflowed channel 0
        since := Function.update sys.since channel sys.written.length }
    | .prepared _ | .loaded _ _ | .writing _ _ _ _ => none
  | .publish output =>
    match sys.producer with
    | .idle => some (sys.publish output)
    | .prepared _ | .loaded _ _ | .writing _ _ _ _ => none
  | .producer => sys.producerStep layout
  | .drain =>
    match sys.consumer with
    | .idle => some { sys with consumer := .loaded sys.ring.readIndex }
    | .loaded _ | .header _ _ _ | .payload _ _ _ _ => none
  | .consumer => sys.consumerStep layout

/-- A new ring, whatever its slots hold, and the settings of the worklet. -/
def Initial : Prop :=
  sys.ring.readIndex = 0 ∧ sys.ring.writeIndex = 0 ∧ sys.producer = .idle ∧
    sys.consumer = .idle ∧ sys.written = [] ∧ sys.drained = [] ∧
    ∀ channel, (sys.collection channel).pendingDrops = 0 ∧
      (sys.collection channel).pendingOverflow = 0 ∧ sys.produced channel = 0 ∧
        sys.overflowed channel = 0 ∧ sys.since channel = 0

/-! ### What the ring should do -/

/-- The slot that the producer writes next. -/
def nextWrite : Option Nat :=
  match sys.producer with
  | .writing _ write _ (_ :: _) => some (write % layout.slotCount)
  | .writing _ _ _ [] | .idle | .prepared _ | .loaded _ _ => none

/-- A count that fits a word, or the greatest word. -/
def Saturates (word : Word) (count : Nat) : Prop := word.val = min 0xffffffff count

/-- The records of a channel that were produced under its settings are in entries, or dropped. -/
structure Accounts (channel : Channel) : Prop where
  /-- Each entry reports the records that were dropped before it. -/
  records : ∃ drops pending,
    List.Forall₂ (fun entry => Saturates (entry.word (.transportDrops channel)))
      (sys.written.drop (sys.since channel)) drops ∧
    Saturates (sys.collection channel).pendingDrops pending ∧
    sys.produced channel =
      ((sys.written.drop (sys.since channel)).map
        fun entry => (entry.word (.records channel)).val).sum + drops.sum + pending
  overflows : ∃ counts pending,
    List.Forall₂ (fun entry => Saturates (entry.word (.overflow channel)))
      (sys.written.drop (sys.since channel)) counts ∧
    Saturates (sys.collection channel).pendingOverflow pending ∧
    sys.overflowed channel = counts.sum + pending

/-- Everything is delivered or accounted for. -/
structure Delivers : Prop where
  /-- The entries that were drained are those that were written, in order. -/
  drained : sys.drained <+: sys.written
  bounded : sys.written.length ≤ sys.drained.length + layout.slotCount
  /-- A slot is not written while it is unread. -/
  writes : ∀ slot ∈ sys.nextWrite layout, ∀ position, sys.drained.length ≤ position →
    position < sys.written.length → slot ≠ position % layout.slotCount
  accounts : ∀ channel, sys.Accounts channel

/-! ### A run with one print -/

def oneSlot : Layout := ⟨1, fun _ => 4, ⟨0, by omega, rfl⟩, fun _ => by omega⟩

def emptySystem : System where
  ring := ⟨fun _ _ => 0, fun _ _ _ => 0, 0, 0⟩
  collection _ := ⟨false, 0, 0, 0⟩
  producer := .idle
  consumer := .idle
  written := []
  drained := []
  produced _ := 0
  overflowed _ := 0
  since _ := 0

/-- A process call that printed one record of one byte. -/
def onePrint : Output oneSlot where
  operation := .process
  operationIndex := 0
  batch
    | .delegate => ⟨[], 0, 0, Nat.zero_le _⟩
    | .print => ⟨[42], 1, 0, (by decide)⟩

/-- It is written to the only slot and drained. -/
def printRun : List (Action oneSlot) :=
  [.subscribe .print true 7, .publish onePrint] ++ List.replicate 16 .producer ++ [.drain] ++
    List.replicate 16 .consumer

end System

end Onda.WebAudio
