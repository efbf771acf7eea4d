import Mathlib
import Onda.Lib.Steps
import Onda.Lib.Window

/-!
# The sample ring

A producer and a consumer share a ring of samples and two counters, which are machine words.  A
call is a sequence of steps: it loads both counters, accesses its slots one by one, and stores the
counter that it owns.  A list of actions is an interleaving of the calls of both parties.

Additions of counters wrap, as in a build without overflow checks.
-/

namespace Onda.Cpal

variable {F : Type}

/-- `SampleRing`. -/
structure SampleRing (F : Type) where
  capacity : Nat
  slots : Nat → F
  readIndex : Nat
  writeIndex : Nat

/-- Addition of words of `w` bits. -/
def wordAdd (w first second : Nat) : Nat := (first + second) % 2 ^ w

/-- `count -= count % alignment.max(1)`. -/
def aligned (alignment count : Nat) : Nat := count - count % max alignment 1

/-- The least power of two that is not less. -/
def nextPowerOfTwo (count : Nat) : Nat := 2 ^ Nat.clog 2 count

namespace SampleRing

/-- `SampleRing::new`. -/
def new [Zero F] (capacity : Nat) : SampleRing F where
  capacity := nextPowerOfTwo (max capacity 2)
  slots _ := 0
  readIndex := 0
  writeIndex := 0

def mask (ring : SampleRing F) : Nat := ring.capacity - 1

/-- The slot at an offset from a counter. -/
def slot (w : Nat) (ring : SampleRing F) (index offset : Nat) : Nat :=
  wordAdd w index offset &&& ring.mask

/-- The room that a producer sees; subtraction of natural numbers saturates. -/
def available (ring : SampleRing F) (write : Nat) : Nat :=
  ring.capacity - (write - ring.readIndex)

end SampleRing

/-- Calls of the producer: `push_slice`, and `produce` with the samples that it would compute. -/
inductive ProducerCall (F : Type) where
  | pushSlice (input : List F)
  | produce (alignment : Nat) (samples : List F)

def ProducerCall.alignment : ProducerCall F → Nat
  | pushSlice _ => 1
  | produce alignment _ => alignment

/-- The samples that a call transfers, given the room. -/
def ProducerCall.accepts (available : Nat) : ProducerCall F → List F
  | pushSlice input => input.take (min input.length available)
  | produce alignment samples =>
    samples.take (aligned alignment (min samples.length available))

inductive Producer (F : Type) where
  | idle
  /-- The write counter is loaded. -/
  | loaded (call : ProducerCall F) (write : Nat)
  /-- `offset` of the samples are in their slots. -/
  | writing (alignment write : Nat) (samples : List F) (offset : Nat)

inductive Consumer (F : Type) where
  | idle
  /-- The read counter is loaded. -/
  | loaded (requested alignment read : Nat)
  /-- The samples of some slots are read. -/
  | reading (alignment read count : Nat) (seen : List F)
  /-- `discard_buffered` has loaded the write counter. -/
  | discarding (write : Nat)

/-- The ring, both parties, and what they did: `taken` has one entry for each sample that was
consumed or discarded. -/
structure System (F : Type) where
  ring : SampleRing F
  producer : Producer F
  consumer : Consumer F
  accepted : List F
  taken : List (Option F)
  /-- Alignment and count of every transfer. -/
  transfers : List (Nat × Nat)

inductive Action (F : Type) where
  | produce (call : ProducerCall F)
  | producer
  /-- `consume`; `pop_slice_aligned` requests the length of its output. -/
  | consume (requested alignment : Nat)
  | discard
  | consumer

namespace System

def initial [Zero F] (capacity : Nat) : System F where
  ring := SampleRing.new capacity
  producer := .idle
  consumer := .idle
  accepted := []
  taken := []
  transfers := []

/-- The next atomic step of the producer's call. -/
def producerStep (w : Nat) (sys : System F) : Option (System F) :=
  match sys.producer with
  | .idle => none
  | .loaded call write => some
    { sys with
      producer := .writing call.alignment write (call.accepts (sys.ring.available write)) 0 }
  | .writing alignment write samples offset =>
    match samples[offset]? with
    | some sample => some
      { sys with
        ring := { sys.ring with
          slots := Function.update sys.ring.slots (sys.ring.slot w write offset) sample }
        producer := .writing alignment write samples (offset + 1) }
    | none => some
      { sys with
        ring := { sys.ring with
          writeIndex :=
            if samples.length ≠ 0 then wordAdd w write samples.length else sys.ring.writeIndex }
        producer := .idle
        accepted := sys.accepted ++ samples
        transfers := sys.transfers ++ [(alignment, samples.length)] }

/-- The next atomic step of the consumer's call. -/
def consumerStep (w : Nat) (sys : System F) : Option (System F) :=
  match sys.consumer with
  | .idle => none
  | .loaded requested alignment read => some
    { sys with
      consumer := .reading alignment read
        (aligned alignment (min requested (sys.ring.writeIndex - read))) [] }
  | .reading alignment read count seen =>
    if seen.length < count then some
      { sys with
        consumer := .reading alignment read count
          (seen ++ [sys.ring.slots (sys.ring.slot w read seen.length)]) }
    else some
      { sys with
        ring := { sys.ring with
          readIndex := if count ≠ 0 then wordAdd w read count else sys.ring.readIndex }
        consumer := .idle
        taken := sys.taken ++ seen.map some
        transfers := sys.transfers ++ [(alignment, count)] }
  | .discarding write => some
    { sys with
      ring := { sys.ring with readIndex := write }
      consumer := .idle
      taken := sys.taken ++ List.replicate ((write + 2 ^ w - sys.ring.readIndex) % 2 ^ w) none }

def step (w : Nat) (sys : System F) : Action F → Option (System F)
  | .produce call =>
    match sys.producer with
    | .idle => some { sys with producer := .loaded call sys.ring.writeIndex }
    | .loaded _ _ | .writing _ _ _ _ => none
  | .producer => sys.producerStep w
  | .consume requested alignment =>
    match sys.consumer with
    | .idle => some { sys with consumer := .loaded requested alignment sys.ring.readIndex }
    | .loaded _ _ _ | .reading _ _ _ _ | .discarding _ => none
  | .discard =>
    match sys.consumer with
    | .idle => some { sys with consumer := .discarding sys.ring.writeIndex }
    | .loaded _ _ _ | .reading _ _ _ _ | .discarding _ => none
  | .consumer => sys.consumerStep w

/-- The slot that the producer writes next. -/
def nextWrite (w : Nat) (sys : System F) : Option Nat :=
  match sys.producer with
  | .writing _ write samples offset =>
    if offset < samples.length then some (sys.ring.slot w write offset) else none
  | .idle | .loaded _ _ => none

/-- The slot that the consumer reads next. -/
def nextRead (w : Nat) (sys : System F) : Option Nat :=
  match sys.consumer with
  | .reading _ read count seen =>
    if seen.length < count then some (sys.ring.slot w read seen.length) else none
  | .idle | .loaded _ _ _ | .discarding _ => none

/-- A position of the stream that is published and neither consumed nor discarded. -/
def Unread (sys : System F) (position : Nat) : Prop :=
  sys.taken.length ≤ position ∧ position < sys.accepted.length

/-- A lossless queue. -/
structure Lossless (w : Nat) (sys : System F) : Prop where
  ordered : sys.taken.length ≤ sys.accepted.length
  /-- What is consumed is what was accepted at its position. -/
  delivered : ∀ (position : Nat) (sample : F), sys.taken[position]? = some (some sample) →
    sys.accepted[position]? = some sample
  bounded : sys.accepted.length ≤ sys.taken.length + sys.ring.capacity
  /-- Unread samples lie in their slots. -/
  kept : ∀ position : Nat, sys.Unread position →
    sys.accepted[position]? = some (sys.ring.slots (position % sys.ring.capacity))
  reads : ∀ slot ∈ sys.nextRead w, ∃ position, sys.Unread position ∧
    slot = position % sys.ring.capacity
  writes : ∀ slot ∈ sys.nextWrite w, ∀ position, sys.Unread position →
    slot ≠ position % sys.ring.capacity
  frames : ∀ transfer ∈ sys.transfers, max transfer.1 1 ∣ transfer.2

/-- When the producer computes its room, its counter is not below the consumer's as a word. -/
def Unwrapped (sys : System F) (action : Action F) : Prop :=
  ∀ call write, action = .producer → sys.producer = .loaded call write →
    sys.ring.readIndex ≤ write

end System

end Onda.Cpal
