import Onda.Playback.PackedOutput

/-!
# The output worker

The render thread hands packets to a worker thread, which decodes them and sends the decoded batches
to a transport.  Nobody waits for a queue: what has no packet, or no place in the transport, is
counted.

Every operation on a queue or on a counter is a step of its own.
-/

namespace Onda.Playback.Output

/-- `PACKET_COUNT`. -/
def packetCount : Nat := 8

def u32Max : Nat := 2 ^ 32 - 1

/-- The counters of an `OutputTransport`, and the two of a `PrintTransport`. -/
inductive Counter where
  | droppedDelegates
  | pendingDelegateOverflow
  | droppedPrints
  | pendingPrintOverflow
  | droppedOccurrences
  | pendingOverflow
deriving DecidableEq

/-- An operation on a counter. -/
inductive Operation where
  /-- `atomic_saturating_add`. -/
  | add (counter : Counter) (amount : Nat)
  | store (counter : Counter)

/-- `record_transport_loss`. -/
def recordTransportLoss (dropped overflow : Counter) (occurrenceCount overflowCount : Nat) :
    List Operation :=
  [.add dropped (min occurrenceCount u32Max), .add overflow overflowCount]

/-- What is sent: a `RunOutputBatch`, or only the prints. -/
inductive Batch (D P : Type) where
  | output (delegateSubscriptionId : Nat) (delegates : DelegateBatch D) (prints : PrintBatch P)
  | prints (prints : PrintBatch P)

/-- A packet of the pool. -/
structure Packet where
  slot : Nat
  output : PackedOutput

/-- A packet with output: the subscription, and the number of the publication. -/
structure Submission where
  packet : Packet
  subscription : Nat
  publication : Nat

/-- The render thread. -/
inductive Producer where
  | rendering
  | submitting (submission : Submission)
  | updating (operations : List Operation)

/-- The worker thread. -/
inductive Consumer where
  | waiting
  | decoding (submission : Submission)
  | updating (operations : List Operation) (packet : Packet)

/-- A call of `publish` that has output. -/
structure Publication where
  output : PackedOutput
  subscription : Nat

/-- What the receiver read from a counter, and what was added to it since it was last zero. -/
structure Reading where
  counter : Counter
  value : Nat
  exact : Nat

/-- `OutputWorker`, its thread, its run and its transport.  The last fields are the history. -/
structure OutputWorker (D P : Type) where
  run : Session
  subscription : Nat
  producer : Producer
  consumer : Consumer
  available : List Packet
  ready : List Submission
  transport : List (Batch D P)
  connected : Bool
  error : Bool
  counters : Counter → Nat
  received : List (Batch D P)
  readings : List Reading
  published : List Publication
  /-- The publications that were sent, and as what. -/
  delivered : List (Nat × Batch D P)
  /-- The publications that were counted. -/
  lost : List Nat
  /-- The ones without prints, when only prints are sent. -/
  skipped : List Nat
  /-- The ones that could not be decoded, or whose receiver was gone. -/
  failed : List Nat
  exact : Counter → Nat
  cleared : Counter → Nat
  /-- Whether a queue of packets was full. -/
  refused : Bool

inductive Action where
  /-- The run executes: its output is another, in storage of the same size. -/
  | execute (run : Session)
  /-- `SetDelegateCollection`. -/
  | subscribe (enabled : Bool) (subscription : Nat)
  /-- `publish`, up to its operations on the queues; `locked` when the error cannot be read. -/
  | publish (locked : Bool)
  | submit
  | produceUpdate
  | receive
  | decode
  | consumeUpdate
  | giveBack
  | take
  | swap (counter : Counter)
  | disconnect

/-! ### Where things are -/

def Producer.submissions : Producer → List Submission
  | .submitting submission => [submission]
  | _ => []

def Producer.operations : Producer → List Operation
  | .updating operations => operations
  | _ => []

def Consumer.packets : Consumer → List Packet
  | .waiting => []
  | .decoding submission => [submission.packet]
  | .updating _ packet => [packet]

def Consumer.submissions : Consumer → List Submission
  | .decoding submission => [submission]
  | _ => []

def Consumer.operations : Consumer → List Operation
  | .updating operations _ => operations
  | _ => []

/-- What an operation adds to a counter. -/
def Operation.amount (counter : Counter) : Operation → Nat
  | .add other amount => if other = counter then amount else 0
  | .store _ => 0

/-- What operations add to a counter. -/
def total (counter : Counter) (operations : List Operation) : Nat :=
  (operations.map (Operation.amount counter)).sum

namespace OutputWorker

variable {D P : Type}

/-- What a worker has: the decoder, whether there is an output transport, and the bound of the
transport. -/
structure Setup (D P : Type) where
  decoder : Decoder D P
  output : Bool
  capacity : Nat

variable (setup : Setup D P)

/-- `record_loss`. -/
def recordLoss (counts : OutputCounts) : List Operation :=
  if setup.output then
    recordTransportLoss .droppedDelegates .pendingDelegateOverflow counts.delegates
        counts.delegateOverflow ++
      recordTransportLoss .droppedPrints .pendingPrintOverflow counts.prints counts.printOverflow
  else
    recordTransportLoss .droppedOccurrences .pendingOverflow counts.prints counts.printOverflow

def perform (worker : OutputWorker D P) : Operation → OutputWorker D P
  | .add counter amount =>
    { worker with
      counters := Function.update worker.counters counter
        (min (worker.counters counter + amount) u32Max)
      exact := Function.update worker.exact counter (worker.exact counter + amount) }
  | .store counter =>
    { worker with
      counters := Function.update worker.counters counter 0
      exact := Function.update worker.exact counter 0
      cleared := Function.update worker.cleared counter
        (worker.cleared counter + worker.exact counter) }

/-- `SetDelegateCollection`: a stale disable changes nothing. -/
def subscribe (worker : OutputWorker D P) (enabled : Bool) (subscription : Nat) :
    OutputWorker D P :=
  if enabled = false ∧ worker.subscription ≠ subscription then worker
  else
    { worker with
      run := worker.run.beginDelegateBatch
      subscription := if enabled then subscription else 0
      producer := .updating (if setup.output then
        [.store .droppedDelegates, .store .pendingDelegateOverflow] else []) }

/-- `publish`, without the sending of the packet; `none` when it panics. -/
def publish (worker : OutputWorker D P) (locked : Bool) : Option (OutputWorker D P) :=
  if locked = false ∧ worker.error = true then some worker
  else if worker.run.outputCounts.isEmpty then some worker
  else
    let published := worker.published ++ [⟨worker.run.packed, worker.subscription⟩]
    match worker.available with
    | packet :: available =>
      (worker.run.swapOutput packet.output).map fun swapped =>
        { worker with
          run := swapped.1
          available := available
          producer := .submitting
            ⟨⟨packet.slot, swapped.2⟩, worker.subscription, worker.published.length⟩
          published := published }
    | [] =>
      some { worker with
        run := worker.run.discardOutput
        producer := .updating (recordLoss setup worker.run.outputCounts)
        published := published
        lost := worker.lost ++ [worker.published.length] }

/-- `try_send` of a packet; a full queue would drop it. -/
def submit (worker : OutputWorker D P) (submission : Submission) : OutputWorker D P :=
  if worker.ready.length < packetCount then
    { worker with producer := .rendering, ready := worker.ready ++ [submission] }
  else { worker with producer := .rendering, refused := true }

/-- `try_send` to the transport; a loss is counted for a full transport only. -/
def send (worker : OutputWorker D P) (submission : Submission) (batch : Batch D P)
    (loss : List Operation) : OutputWorker D P :=
  if worker.connected then
    if worker.transport.length < setup.capacity then
      { worker with
        consumer := .updating [] submission.packet
        transport := worker.transport ++ [batch]
        delivered := worker.delivered ++ [(submission.publication, batch)] }
    else
      { worker with
        consumer := .updating loss submission.packet
        lost := worker.lost ++ [submission.publication] }
  else
    { worker with
      consumer := .updating [] submission.packet
      failed := worker.failed ++ [submission.publication] }

/-- `publish_decoded`. -/
def publishDecoded (worker : OutputWorker D P) (submission : Submission)
    (delegates : DelegateBatch D) (prints : PrintBatch P) : OutputWorker D P :=
  let skipped : OutputWorker D P :=
    { worker with
      consumer := .updating [] submission.packet
      skipped := worker.skipped ++ [submission.publication] }
  if delegates.occurrences.isEmpty ∧ delegates.overflowCount = 0 ∧ prints.entries.isEmpty ∧
      prints.overflowCount = 0 then skipped
  else if setup.output then
    worker.send setup submission (.output submission.subscription delegates prints)
      (recordTransportLoss .droppedDelegates .pendingDelegateOverflow
          delegates.occurrences.length delegates.overflowCount ++
        recordTransportLoss .droppedPrints .pendingPrintOverflow prints.entries.length
          prints.overflowCount)
  else if prints.entries.isEmpty ∧ prints.overflowCount = 0 then skipped
  else
    worker.send setup submission (.prints prints)
      (recordTransportLoss .droppedOccurrences .pendingOverflow prints.entries.length
        prints.overflowCount)

/-- `decode`, and what is done with its result. -/
def decode (worker : OutputWorker D P) (submission : Submission) : OutputWorker D P :=
  match setup.decoder.decode submission.packet.output with
  | some (delegates, prints) => worker.publishDecoded setup submission delegates prints
  | none =>
    { worker with
      consumer := .updating [] submission.packet
      error := true
      failed := worker.failed ++ [submission.publication] }

def giveBack (worker : OutputWorker D P) (packet : Packet) : OutputWorker D P :=
  if worker.available.length < packetCount then
    { worker with consumer := .waiting, available := worker.available ++ [packet] }
  else { worker with consumer := .waiting, refused := true }

def step (worker : OutputWorker D P) : Action → Option (OutputWorker D P)
  | .execute run =>
    match worker.producer with
    | .rendering =>
      if run.delegateStorage.length = worker.run.delegateStorage.length ∧
          run.printStorage.length = worker.run.printStorage.length then
        some { worker with run := run }
      else none
    | _ => none
  | .subscribe enabled subscription =>
    match worker.producer with
    | .rendering => some (worker.subscribe setup enabled subscription)
    | _ => none
  | .publish locked =>
    match worker.producer with
    | .rendering => worker.publish setup locked
    | _ => none
  | .submit =>
    match worker.producer with
    | .submitting submission => some (worker.submit submission)
    | _ => none
  | .produceUpdate =>
    match worker.producer with
    | .updating (operation :: operations) =>
      some ({ worker with producer := .updating operations }.perform operation)
    | .updating [] => some { worker with producer := .rendering }
    | _ => none
  | .receive =>
    match worker.consumer, worker.ready with
    | .waiting, submission :: ready =>
      some { worker with consumer := .decoding submission, ready := ready }
    | _, _ => none
  | .decode =>
    match worker.consumer with
    | .decoding submission => some (worker.decode setup submission)
    | _ => none
  | .consumeUpdate =>
    match worker.consumer with
    | .updating (operation :: operations) packet =>
      some ({ worker with consumer := .updating operations packet }.perform operation)
    | _ => none
  | .giveBack =>
    match worker.consumer with
    | .updating [] packet => some (worker.giveBack packet)
    | _ => none
  | .take =>
    match worker.connected, worker.transport with
    | true, batch :: transport =>
      some { worker with transport := transport, received := worker.received ++ [batch] }
    | _, _ => none
  | .swap counter =>
    some { worker with
      counters := Function.update worker.counters counter 0
      exact := Function.update worker.exact counter 0
      readings := worker.readings ++
        [⟨counter, worker.counters counter, worker.exact counter⟩] }
  | .disconnect => some { worker with connected := false }

/-- `allocate_packet`, for the pool. -/
def allocatePacket (run : Session) (slot : Nat) : Packet :=
  ⟨slot, List.replicate run.delegateStorage.length 0, 0,
    List.replicate run.printStorage.length 0, 0, ⟨0, 0, 0, 0⟩⟩

/-- A new worker; its transport may hold earlier batches. -/
def start (run : Session) (earlier : List (Batch D P)) : OutputWorker D P where
  run := run
  subscription := 0
  producer := .rendering
  consumer := .waiting
  available := (List.range packetCount).map (allocatePacket run)
  ready := []
  transport := earlier
  connected := true
  error := false
  counters := fun _ => 0
  received := []
  readings := []
  published := []
  delivered := []
  lost := []
  skipped := []
  failed := []
  exact := fun _ => 0
  cleared := fun _ => 0
  refused := false

/-! ### What the worker should do -/

/-- The packets of the pool. -/
def packets (worker : OutputWorker D P) : List Packet :=
  worker.available ++ worker.ready.map (·.packet) ++ worker.consumer.packets ++
    worker.producer.submissions.map (·.packet)

/-- The submissions on their way, in order. -/
def inFlight (worker : OutputWorker D P) : List Submission :=
  worker.consumer.submissions ++ worker.ready ++ worker.producer.submissions

/-- What the threads will still add to a counter. -/
def pending (worker : OutputWorker D P) (counter : Counter) : Nat :=
  total counter worker.producer.operations + total counter worker.consumer.operations

/-- What a publication counts for a counter. -/
def loss (counts : OutputCounts) : Counter → Nat
  | .droppedDelegates => if setup.output then min counts.delegates u32Max else 0
  | .pendingDelegateOverflow => if setup.output then counts.delegateOverflow else 0
  | .droppedPrints => if setup.output then min counts.prints u32Max else 0
  | .pendingPrintOverflow => if setup.output then counts.printOverflow else 0
  | .droppedOccurrences => if setup.output then 0 else min counts.prints u32Max
  | .pendingOverflow => if setup.output then 0 else counts.printOverflow

/-- The counts of a publication. -/
def countsOf (worker : OutputWorker D P) (publication : Nat) : OutputCounts :=
  ((worker.published[publication]?).map (·.output.counts)).getD ⟨0, 0, 0, 0⟩

/-- A batch holds all the records of a publication, and its subscription. -/
def Carries (batch : Batch D P) (publication : Publication) : Prop :=
  ∃ delegates prints, setup.decoder.decode publication.output = some (delegates, prints) ∧
    batch = (if setup.output then .output publication.subscription delegates prints
      else .prints prints) ∧
    publication.output.counts = ⟨delegates.occurrences.length, delegates.overflowCount,
      prints.entries.length, prints.overflowCount⟩

/-- Packets and publications. -/
structure Conserved (earlier : List (Batch D P)) (worker : OutputWorker D P) : Prop where
  /-- Every packet is in one place. -/
  places : (worker.packets.map (·.slot)).Perm (List.range packetCount)
  accepted : worker.refused = false
  published : worker.producer = .rendering → ∀ locked, (worker.publish setup locked).isSome
  /-- The transport delivers what was sent, in order. -/
  sent : worker.received ++ worker.transport = earlier ++ worker.delivered.map (·.2)
  order : (worker.delivered.map (·.1)).Pairwise (· < ·)
  carries : ∀ entry ∈ worker.delivered, ∃ publication,
    worker.published[entry.1]? = some publication ∧ Carries setup entry.2 publication
  /-- Every publication has one fate. -/
  fates : (worker.delivered.map (·.1) ++ worker.lost ++ worker.skipped ++ worker.failed ++
    worker.inFlight.map (·.publication)).Perm (List.range worker.published.length)
  skipped : ∀ publication ∈ worker.skipped, setup.output = false ∧
    (worker.countsOf publication).prints = 0 ∧ (worker.countsOf publication).printOverflow = 0
  failed : worker.error = false → worker.connected = true → worker.failed = []

/-- The counters count what was lost. -/
structure Counted (worker : OutputWorker D P) : Prop where
  counters : ∀ counter, worker.counters counter = min (worker.exact counter) u32Max
  readings : ∀ reading ∈ worker.readings, reading.value = min reading.exact u32Max
  total : ∀ counter,
    ((worker.readings.filter (·.counter = counter)).map (·.exact)).sum +
        worker.exact counter + worker.pending counter =
      (worker.lost.map fun publication => loss setup (worker.countsOf publication) counter).sum

end OutputWorker

end Onda.Playback.Output
