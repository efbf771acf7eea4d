import Onda.Playback.OutputWorker

/-!
# Packets and records are conserved

Three invariants: of the pool, of the publications, and of the counters.  Most steps move nothing
that an invariant is about.
-/

namespace Onda.Playback.Output

namespace OutputWorker

variable {D P : Type} {setup : Setup D P} {worker next : OutputWorker D P}
  {earlier : List (Batch D P)}

/-! ### Operations on counters -/

@[simp] theorem total_nil (counter : Counter) : total counter [] = 0 := rfl

@[simp] theorem total_cons (counter : Counter) (operation : Operation)
    (operations : List Operation) :
    total counter (operation :: operations) =
      operation.amount counter + total counter operations := by
  simp [total]

@[simp] theorem total_append (counter : Counter) (first second : List Operation) :
    total counter (first ++ second) = total counter first + total counter second := by
  simp [total]

/-- The render thread counts what it discards. -/
theorem total_recordLoss (counts : OutputCounts) (counter : Counter) :
    total counter (recordLoss setup counts) = loss setup counts counter := by
  unfold recordLoss
  split <;> rename_i output <;> cases counter <;>
    simp [recordTransportLoss, Operation.amount, loss, output]

/-! ### Decoding -/

/-- What can become of a submission that is decoded. -/
inductive Decoded (setup : Setup D P) (worker : OutputWorker D P) (submission : Submission)
    (publication : Publication) : OutputWorker D P → Prop where
  | delivered (batch : Batch D P) (carries : Carries setup batch publication) :
    Decoded setup worker submission publication
      { worker with
        consumer := .updating [] submission.packet
        transport := worker.transport ++ [batch]
        delivered := worker.delivered ++ [(submission.publication, batch)] }
  | lost :
    Decoded setup worker submission publication
      { worker with
        consumer := .updating (recordLoss setup publication.output.counts) submission.packet
        lost := worker.lost ++ [submission.publication] }
  | skipped (printsOnly : setup.output = false) (prints : publication.output.counts.prints = 0)
      (overflow : publication.output.counts.printOverflow = 0) :
    Decoded setup worker submission publication
      { worker with
        consumer := .updating [] submission.packet
        skipped := worker.skipped ++ [submission.publication] }
  | undecodable :
    Decoded setup worker submission publication
      { worker with
        consumer := .updating [] submission.packet
        error := true
        failed := worker.failed ++ [submission.publication] }
  | disconnected (gone : worker.connected = false) :
    Decoded setup worker submission publication
      { worker with
        consumer := .updating [] submission.packet
        failed := worker.failed ++ [submission.publication] }

variable {batch : Batch D P} {locked : Bool} {publications : List Publication}
  {operation : Operation} {publication : Publication} {submission : Submission}

theorem send_decoded (submission : Submission) {operations : List Operation}
    (carries : Carries setup batch publication)
    (counted : operations = recordLoss setup publication.output.counts) :
    Decoded setup worker submission publication
      (worker.send setup submission batch operations) := by
  unfold OutputWorker.send
  split
  · split
    · exact .delivered batch carries
    · rw [counted]
      exact .lost
  · rename_i gone
    exact .disconnected (Bool.eq_false_iff.mpr gone)

theorem decode_decoded (worker : OutputWorker D P)
    (same : submission.packet.output = publication.output)
    (subscribed : submission.subscription = publication.subscription)
    (reported : publication.output.counts.isEmpty = false) :
    Decoded setup worker submission publication (worker.decode setup submission) := by
  unfold OutputWorker.decode
  rw [same]
  split
  · rename_i delegates prints decoded
    have counts := Decoder.decode_counts decoded
    unfold publishDecoded
    dsimp only
    split
    · -- a packet is only taken for counts that are not all zero
      rename_i empty
      rw [counts] at reported
      simp_all [OutputCounts.isEmpty]
    · split
      · rename_i output
        refine send_decoded submission ⟨delegates, prints, decoded, ?_, counts⟩ ?_
        · rw [if_pos output, subscribed]
        · rw [counts, recordLoss, if_pos output]
      · rename_i output
        split
        · rename_i none
          refine .skipped (Bool.eq_false_iff.mpr output) ?_ ?_
          · rw [counts]
            exact List.length_eq_zero_iff.mpr (List.isEmpty_iff.mp none.1)
          · rw [counts]
            exact none.2
        · refine send_decoded submission ⟨delegates, prints, decoded, ?_, counts⟩ ?_
          · rw [if_neg output]
          · rw [counts, recordLoss, if_neg output]
  · exact .undecodable

/-! ### The pool -/

structure Pool (worker : OutputWorker D P) : Prop where
  places : (worker.packets.map (·.slot)).Perm (List.range packetCount)
  sizes : ∀ packet ∈ worker.packets,
    packet.output.delegates.length = worker.run.delegateStorage.length ∧
      packet.output.prints.length = worker.run.printStorage.length
  accepted : worker.refused = false

theorem Pool.of_perm (pool : worker.Pool) (perm : next.packets.Perm worker.packets)
    (size : next.run.SameSize worker.run) (accepted : next.refused = worker.refused) :
    next.Pool where
  places := (perm.map _).trans pool.places
  sizes := by
    intro packet mem
    rw [size.1, size.2]
    exact pool.sizes packet (perm.mem_iff.mp mem)
  accepted := accepted.trans pool.accepted

theorem Pool.length (pool : worker.Pool) : worker.packets.length = packetCount := by
  have length := pool.places.length_eq
  rw [List.length_map, List.length_range] at length
  exact length

theorem start_pool (run : Session) (earlier : List (Batch D P)) : (start run earlier).Pool where
  places := by
    have slots : ((start run earlier).packets.map (·.slot)) = List.range packetCount := by
      simp [start, packets, Consumer.packets, Producer.submissions, allocatePacket,
        Function.comp_def]
    rw [slots]
  sizes := by
    intro packet mem
    have packet_mem : packet ∈ (List.range packetCount).map (allocatePacket run) := by
      simpa [start, packets, Consumer.packets, Producer.submissions] using mem
    obtain ⟨slot, -, rfl⟩ := List.mem_map.mp packet_mem
    exact ⟨List.length_replicate, List.length_replicate⟩
  accepted := rfl

/-- `try_send` of a submission finds room. -/
theorem Pool.submit (pool : worker.Pool) (holds : worker.producer = .submitting submission) :
    (worker.submit submission).Pool ∧
      worker.submit submission =
        { worker with producer := .rendering, ready := worker.ready ++ [submission] } := by
  have room : worker.ready.length < packetCount := by
    have length := pool.length
    simp only [packets, holds, Producer.submissions, List.length_append, List.length_map,
      List.length_singleton] at length
    omega
  have submitted : worker.submit submission =
      { worker with producer := .rendering, ready := worker.ready ++ [submission] } :=
    if_pos room
  refine ⟨?_, submitted⟩
  rw [submitted]
  refine pool.of_perm ?_ ⟨rfl, rfl⟩ rfl
  simp only [packets, holds, Producer.submissions, List.map_append, List.map_cons, List.map_nil,
    List.append_nil, List.append_assoc]
  exact (List.perm_append_comm.append_left _).append_left _

theorem Pool.giveBack (pool : worker.Pool) {packet : Packet}
    (holds : worker.consumer = .updating [] packet) :
    (worker.giveBack packet).Pool ∧
      worker.giveBack packet =
        { worker with consumer := .waiting, available := worker.available ++ [packet] } := by
  have room : worker.available.length < packetCount := by
    have length := pool.length
    simp only [packets, holds, Consumer.packets, List.length_append, List.length_map,
      List.length_singleton] at length
    omega
  have given : worker.giveBack packet =
      { worker with consumer := .waiting, available := worker.available ++ [packet] } :=
    if_pos room
  refine ⟨?_, given⟩
  rw [given]
  refine pool.of_perm ?_ ⟨rfl, rfl⟩ rfl
  simp only [packets, holds, Consumer.packets, List.append_nil, List.append_assoc]
  refine List.Perm.append_left _ ?_
  rw [← List.append_assoc, ← List.append_assoc]
  exact List.perm_append_comm.append_right _

theorem Pool.receive (pool : worker.Pool) {ready : List Submission}
    (waits : worker.consumer = .waiting) (queued : worker.ready = submission :: ready) :
    { worker with consumer := .decoding submission, ready := ready }.Pool := by
  refine pool.of_perm ?_ ⟨rfl, rfl⟩ rfl
  simp only [packets, waits, queued, Consumer.packets, List.map_cons, List.append_nil,
    List.append_assoc]
  refine List.Perm.append_left _ ?_
  exact List.perm_middle

theorem Pool.decoded (pool : worker.Pool) (holds : worker.consumer = .decoding submission)
    (decoded : Decoded setup worker submission publication next) : next.Pool := by
  cases decoded <;>
    exact pool.of_perm (by simp only [packets, holds, Consumer.packets]; exact .rfl) ⟨rfl, rfl⟩ rfl

/-- A packet from the pool has the size of the storage: `swap_output` cannot panic. -/
theorem Pool.swap (pool : worker.Pool) {packet : Packet} {available : List Packet}
    (free : worker.available = packet :: available) :
    worker.run.swapOutput packet.output =
      some ({ worker.run with
        delegateStorage := packet.output.delegates
        printStorage := packet.output.prints }.discardOutput, worker.run.packed) := by
  have size := pool.sizes packet (by simp [packets, free])
  exact if_pos ⟨size.1.symm, size.2.symm⟩

theorem Pool.publish (pool : worker.Pool) (idle : worker.producer = .rendering)
    (published : worker.publish setup locked = some next) : next.Pool := by
  unfold OutputWorker.publish at published
  split at published
  · obtain rfl := Option.some.inj published
    exact pool
  · split at published
    · obtain rfl := Option.some.inj published
      exact pool
    · dsimp only at published
      split at published
      · rename_i packet available free
        rw [pool.swap free] at published
        obtain rfl := Option.some.inj published
        have size := pool.sizes packet (by simp [packets, free])
        refine ⟨?_, ?_, pool.accepted⟩
        · have places := pool.places
          simp only [packets, free, idle, Producer.submissions, List.map_append, List.map_cons,
            List.map_nil, List.append_nil, List.cons_append] at places ⊢
          exact (List.perm_append_singleton _ _).trans places
        · intro other mem
          dsimp only [Session.discardOutput, Session.beginDelegateBatch, Session.beginPrintBatch]
          rw [size.1, size.2]
          simp only [packets, Producer.submissions, List.map_cons, List.map_nil, List.mem_append,
            List.mem_singleton] at mem
          rcases mem with mem | rfl
          · exact pool.sizes other (by
              simp only [packets, free, List.mem_append, List.mem_cons]
              tauto)
          · exact ⟨rfl, rfl⟩
      · rename_i none
        obtain rfl := Option.some.inj published
        exact pool.of_perm (by simp only [packets, idle, none, Producer.submissions]; exact .rfl)
          ⟨rfl, rfl⟩ rfl

/-! ### The publications -/

structure Flow (setup : Setup D P) (earlier : List (Batch D P)) (worker : OutputWorker D P) :
    Prop where
  reported : ∀ publication ∈ worker.published, publication.output.counts.isEmpty = false
  flying : ∀ submission ∈ worker.inFlight, ∃ publication,
    worker.published[submission.publication]? = some publication ∧
      submission.packet.output = publication.output ∧
        submission.subscription = publication.subscription
  ordered : (worker.delivered.map (·.1) ++ worker.inFlight.map (·.publication)).Pairwise (· < ·)
  sent : worker.received ++ worker.transport = earlier ++ worker.delivered.map (·.2)
  carries : ∀ entry ∈ worker.delivered, ∃ publication,
    worker.published[entry.1]? = some publication ∧ Carries setup entry.2 publication
  fates : (worker.delivered.map (·.1) ++ worker.lost ++ worker.skipped ++ worker.failed ++
    worker.inFlight.map (·.publication)).Perm (List.range worker.published.length)
  skipped : ∀ publication ∈ worker.skipped, setup.output = false ∧
    (worker.countsOf publication).prints = 0 ∧ (worker.countsOf publication).printOverflow = 0
  failed : worker.error = false → worker.connected = true → worker.failed = []

/-- What the invariant of the publications is about. -/
structure SameFlow (worker next : OutputWorker D P) : Prop where
  published : next.published = worker.published
  inFlight : next.inFlight = worker.inFlight
  received : next.received = worker.received
  transport : next.transport = worker.transport
  delivered : next.delivered = worker.delivered
  lost : next.lost = worker.lost
  skipped : next.skipped = worker.skipped
  failed : next.failed = worker.failed
  error : next.error = worker.error
  connected : next.connected = worker.connected

theorem countsOf_congr (same : next.published = worker.published) (publication : Nat) :
    next.countsOf publication = worker.countsOf publication := by
  unfold countsOf
  rw [same]

theorem Flow.of_same (flow : worker.Flow setup earlier) (same : SameFlow worker next) :
    next.Flow setup earlier where
  reported := by
    rw [same.published]
    exact flow.reported
  flying := by
    rw [same.inFlight, same.published]
    exact flow.flying
  ordered := by
    rw [same.delivered, same.inFlight]
    exact flow.ordered
  sent := by
    rw [same.received, same.transport, same.delivered]
    exact flow.sent
  carries := by
    rw [same.delivered, same.published]
    exact flow.carries
  fates := by
    rw [same.delivered, same.lost, same.skipped, same.failed, same.inFlight, same.published]
    exact flow.fates
  skipped := by
    simp only [same.skipped, countsOf_congr same.published]
    exact flow.skipped
  failed := by
    rw [same.error, same.connected, same.failed]
    exact flow.failed

theorem start_flow (run : Session) (earlier : List (Batch D P)) :
    (start run earlier).Flow setup earlier where
  reported := fun _ mem => by cases mem
  flying := fun _ mem => by cases mem
  ordered := List.Pairwise.nil
  sent := (List.append_nil _).symm
  carries := fun _ mem => by cases mem
  fates := .rfl
  skipped := fun _ mem => by cases mem
  failed := fun _ _ => rfl

/-- A publication that has a fate, or is on its way, is one. -/
theorem Flow.bound (flow : worker.Flow setup earlier) {publication : Nat}
    (mem : publication ∈ worker.delivered.map (·.1) ++ worker.lost ++ worker.skipped ++
      worker.failed ++ worker.inFlight.map (·.publication)) :
    publication < worker.published.length :=
  List.mem_range.mp (flow.fates.mem_iff.mp mem)

/-- Later publications keep the counts of earlier ones. -/
theorem countsOf_later {publication : Nat} (old : publication < worker.published.length)
    (published : next.published = worker.published ++ publications) :
    next.countsOf publication = worker.countsOf publication := by
  unfold countsOf
  rw [published, List.getElem?_append_left old]

theorem lookup_later {number : Nat} (old : worker.published[number]? = some publication) :
    (worker.published ++ publications)[number]? = some publication := by
  obtain ⟨bound, -⟩ := List.getElem?_eq_some_iff.mp old
  rw [List.getElem?_append_left bound]
  exact old

theorem Flow.take (flow : worker.Flow setup earlier) {transport : List (Batch D P)}
    (queued : worker.transport = batch :: transport) :
    { worker with
      transport := transport
      received := worker.received ++ [batch] }.Flow setup earlier :=
  { flow with
    sent := by
      have sent := flow.sent
      rw [queued] at sent
      dsimp only
      rw [List.append_assoc]
      exact sent }

theorem Flow.disconnect (flow : worker.Flow setup earlier) :
    { worker with connected := false }.Flow setup earlier :=
  { flow with failed := fun _ connected => by cases connected }

/-- The consumer decodes the oldest submission. -/
theorem Flow.decoded (flow : worker.Flow setup earlier)
    (holds : worker.consumer = .decoding submission)
    (found : worker.published[submission.publication]? = some publication)
    (decoded : Decoded setup worker submission publication next) : next.Flow setup earlier := by
  have inFlight : worker.inFlight =
      submission :: (worker.ready ++ worker.producer.submissions) := by
    simp only [OutputWorker.inFlight, holds, Consumer.submissions, List.nil_append,
      List.cons_append]
  have ordered := flow.ordered
  have fates := flow.fates
  have flying := flow.flying
  rw [inFlight] at ordered fates flying
  have rest : ∀ other ∈ worker.ready ++ worker.producer.submissions, ∃ publication,
      worker.published[other.publication]? = some publication ∧
        other.packet.output = publication.output ∧
          other.subscription = publication.subscription :=
    fun other mem => flying other (List.mem_cons_of_mem _ mem)
  have later : (worker.delivered.map (·.1) ++
      (worker.ready ++ worker.producer.submissions).map (·.publication)).Pairwise (· < ·) := by
    refine ordered.sublist (List.Sublist.append_left ?_ _)
    exact List.sublist_cons_self _ _
  have counts : worker.countsOf submission.publication = publication.output.counts := by
    unfold countsOf
    rw [found]
    rfl
  cases decoded with
  | delivered batch carries =>
    exact
      { reported := flow.reported
        flying := rest
        ordered := by
          dsimp only [OutputWorker.inFlight, Consumer.submissions]
          rw [List.map_append, List.append_assoc]
          exact ordered
        sent := by
          dsimp only
          rw [← List.append_assoc, flow.sent, List.map_append, List.append_assoc]
          rfl
        carries := by
          intro entry mem
          rcases List.mem_append.mp mem with old | new
          · exact flow.carries entry old
          · obtain rfl := List.mem_singleton.mp new
            exact ⟨publication, found, carries⟩
        fates := by
          refine List.Perm.trans (List.perm_iff_count.mpr fun number => ?_) fates
          simp only [OutputWorker.inFlight, Consumer.submissions, List.map_append, List.map_cons,
            List.map_nil, List.count_append, List.count_cons, List.count_nil, List.nil_append]
          omega
        skipped := flow.skipped
        failed := flow.failed }
  | lost =>
    exact
      { flow with
        flying := rest
        ordered := later
        fates := by
          refine List.Perm.trans (List.perm_iff_count.mpr fun number => ?_) fates
          simp only [OutputWorker.inFlight, Consumer.submissions, List.map_append, List.map_cons,
            List.count_append, List.count_cons, List.count_nil, List.nil_append]
          omega }
  | skipped printsOnly prints overflow =>
    exact
      { flow with
        flying := rest
        ordered := later
        fates := by
          refine List.Perm.trans (List.perm_iff_count.mpr fun number => ?_) fates
          simp only [OutputWorker.inFlight, Consumer.submissions, List.map_append, List.map_cons,
            List.count_append, List.count_cons, List.count_nil, List.nil_append]
          omega
        skipped := by
          intro other mem
          rcases List.mem_append.mp mem with old | new
          · exact flow.skipped other old
          · obtain rfl := List.mem_singleton.mp new
            refine ⟨printsOnly, ?_, ?_⟩
            · exact (congrArg OutputCounts.prints counts).trans prints
            · exact (congrArg OutputCounts.printOverflow counts).trans overflow }
  | undecodable =>
    exact
      { flow with
        flying := rest
        ordered := later
        fates := by
          refine List.Perm.trans (List.perm_iff_count.mpr fun number => ?_) fates
          simp only [OutputWorker.inFlight, Consumer.submissions, List.map_append, List.map_cons,
            List.count_append, List.count_cons, List.count_nil, List.nil_append]
          omega
        failed := fun error => by cases error }
  | disconnected gone =>
    exact
      { flow with
        flying := rest
        ordered := later
        fates := by
          refine List.Perm.trans (List.perm_iff_count.mpr fun number => ?_) fates
          simp only [OutputWorker.inFlight, Consumer.submissions, List.map_append, List.map_cons,
            List.count_append, List.count_cons, List.count_nil, List.nil_append]
          omega
        failed := by
          intro _ connected
          rw [gone] at connected
          cases connected }

theorem Flow.publish (flow : worker.Flow setup earlier) (idle : worker.producer = .rendering)
    (published : worker.publish setup locked = some next) :
    next.Flow setup earlier := by
  unfold OutputWorker.publish at published
  split at published
  · obtain rfl := Option.some.inj published
    exact flow
  · split at published
    · obtain rfl := Option.some.inj published
      exact flow
    · rename_i reported
      have all : ∀ publication ∈ worker.published ++ [⟨worker.run.packed, worker.subscription⟩],
          publication.output.counts.isEmpty = false := by
        intro publication mem
        rcases List.mem_append.mp mem with old | new
        · exact flow.reported publication old
        · obtain rfl := List.mem_singleton.mp new
          exact Bool.eq_false_iff.mpr reported
      have inFlight : worker.inFlight = worker.consumer.submissions ++ worker.ready := by
        simp only [OutputWorker.inFlight, idle, Producer.submissions, List.append_nil]
      have flying := flow.flying
      have ordered := flow.ordered
      have fates := flow.fates
      have carries : ∀ entry ∈ worker.delivered, ∃ publication,
          (worker.published ++ [⟨worker.run.packed, worker.subscription⟩])[entry.1]? =
            some publication ∧ Carries setup entry.2 publication := by
        intro entry mem
        obtain ⟨publication, found, whole⟩ := flow.carries entry mem
        exact ⟨publication, lookup_later found, whole⟩
      have skipped : ∀ next : OutputWorker D P,
          next.published = worker.published ++ [⟨worker.run.packed, worker.subscription⟩] →
            ∀ publication ∈ worker.skipped, setup.output = false ∧
              (next.countsOf publication).prints = 0 ∧
                (next.countsOf publication).printOverflow = 0 := by
        intro next published publication mem
        rw [countsOf_later (flow.bound (by simp [mem])) published]
        exact flow.skipped publication mem
      rw [inFlight] at flying ordered fates
      dsimp only at published
      split at published
      · obtain ⟨swapped, swap, rfl⟩ := Option.map_eq_some_iff.mp published
        exact
          { flow with
            reported := all
            flying := by
              intro submission mem
              rcases List.mem_append.mp mem with old | new
              · obtain ⟨publication, found, same⟩ := flying submission old
                exact ⟨publication, lookup_later found, same⟩
              · obtain rfl := List.mem_singleton.mp new
                exact ⟨_, List.getElem?_concat_length, Session.swapOutput_packed swap, rfl⟩
            ordered := by
              dsimp only [OutputWorker.inFlight, Producer.submissions]
              rw [List.map_append, ← List.append_assoc]
              refine List.pairwise_append.mpr ⟨ordered, List.pairwise_singleton _ _, ?_⟩
              intro number mem other last
              obtain rfl := List.mem_singleton.mp last
              refine flow.bound ?_
              rw [inFlight]
              simp only [List.mem_append] at mem ⊢
              tauto
            carries := carries
            fates := by
              dsimp only
              rw [List.length_append, List.length_singleton, List.range_succ]
              refine List.Perm.trans ?_ (fates.append_right _)
              refine List.perm_iff_count.mpr fun number => ?_
              simp only [OutputWorker.inFlight, Producer.submissions, List.map_append,
                List.map_cons, List.map_nil, List.count_append, List.count_cons, List.count_nil]
              omega
            skipped := skipped _ rfl }
      · obtain rfl := Option.some.inj published
        exact
          { flow with
            reported := all
            flying := by
              intro submission mem
              obtain ⟨publication, found, same⟩ := flying submission (by
                simpa only [OutputWorker.inFlight, Producer.submissions, List.append_nil] using mem)
              exact ⟨publication, lookup_later found, same⟩
            ordered := by
              simpa only [OutputWorker.inFlight, Producer.submissions, List.append_nil] using ordered
            carries := carries
            fates := by
              dsimp only
              rw [List.length_append, List.length_singleton, List.range_succ]
              refine List.Perm.trans ?_ (fates.append_right _)
              refine List.perm_iff_count.mpr fun number => ?_
              simp only [OutputWorker.inFlight, Producer.submissions, List.map_append,
                List.count_append, List.append_nil]
              omega
            skipped := skipped _ rfl }

/-! ### The counters -/

structure Ledger (setup : Setup D P) (worker : OutputWorker D P) : Prop where
  counters : ∀ counter, worker.counters counter = min (worker.exact counter) u32Max
  readings : ∀ reading ∈ worker.readings, reading.value = min reading.exact u32Max
  total : ∀ counter,
    ((worker.readings.filter (·.counter = counter)).map (·.exact)).sum + worker.exact counter +
        worker.cleared counter + worker.pending counter =
      (worker.lost.map fun publication => loss setup (worker.countsOf publication) counter).sum

theorem start_ledger (run : Session) (earlier : List (Batch D P)) :
    (start run earlier).Ledger setup where
  counters := fun _ => rfl
  readings := fun _ mem => by cases mem
  total := fun _ => rfl

/-- What the invariant of the counters is about. -/
structure SameLedger (worker next : OutputWorker D P) : Prop where
  counters : next.counters = worker.counters
  exact : next.exact = worker.exact
  cleared : next.cleared = worker.cleared
  readings : next.readings = worker.readings
  pending : ∀ counter, next.pending counter = worker.pending counter
  lost : next.lost = worker.lost
  counts : ∀ publication ∈ worker.lost,
    next.countsOf publication = worker.countsOf publication

theorem Ledger.of_same (ledger : worker.Ledger setup) (same : SameLedger worker next) :
    next.Ledger setup where
  counters := by
    rw [same.counters, same.exact]
    exact ledger.counters
  readings := by
    rw [same.readings]
    exact ledger.readings
  total := by
    intro counter
    rw [same.readings, same.exact, same.cleared, same.pending, same.lost, ledger.total counter]
    refine congrArg List.sum (List.map_congr_left fun publication mem => ?_)
    rw [same.counts publication mem]

/-- A publication is lost, and its operations are pending. -/
theorem Ledger.lose (ledger : worker.Ledger setup) {publication : Nat} (counts : OutputCounts)
    (counters : next.counters = worker.counters) (exact_ : next.exact = worker.exact)
    (cleared : next.cleared = worker.cleared) (readings : next.readings = worker.readings)
    (pending : ∀ counter,
      next.pending counter = worker.pending counter + loss setup counts counter)
    (lost : next.lost = worker.lost ++ [publication])
    (old : ∀ other ∈ worker.lost, next.countsOf other = worker.countsOf other)
    (new : next.countsOf publication = counts) : next.Ledger setup where
  counters := by
    rw [counters, exact_]
    exact ledger.counters
  readings := by
    rw [readings]
    exact ledger.readings
  total := by
    intro counter
    rw [readings, exact_, cleared, pending, lost, List.map_append, List.sum_append,
      ← Nat.add_assoc, ledger.total counter, List.map_singleton, List.sum_singleton, new]
    congr 2
    exact List.map_congr_left fun other mem => by rw [old other mem]

theorem perform_counters (counted : ∀ counter,
    worker.counters counter = min (worker.exact counter) u32Max) (operation : Operation)
    (counter : Counter) : (worker.perform operation).counters counter =
      min ((worker.perform operation).exact counter) u32Max := by
  cases operation with
  | add other amount =>
    dsimp only [perform]
    by_cases same : counter = other
    · subst same
      rw [Function.update_self, Function.update_self, counted]
      omega
    · rw [Function.update_of_ne same, Function.update_of_ne same, counted]
  | store other =>
    dsimp only [perform]
    by_cases same : counter = other
    · subst same
      rw [Function.update_self, Function.update_self, Nat.zero_min]
    · rw [Function.update_of_ne same, Function.update_of_ne same, counted]

/-- Nothing that was added vanishes: a store clears it. -/
theorem perform_exact (worker : OutputWorker D P) (operation : Operation) (counter : Counter) :
    (worker.perform operation).exact counter + (worker.perform operation).cleared counter =
      worker.exact counter + worker.cleared counter + operation.amount counter := by
  cases operation with
  | add other amount =>
    dsimp only [perform, Operation.amount]
    by_cases same : counter = other
    · subst same
      rw [Function.update_self, if_pos rfl]
      omega
    · rw [Function.update_of_ne same, if_neg fun eq => same eq.symm]
      omega
  | store other =>
    dsimp only [perform, Operation.amount]
    by_cases same : counter = other
    · subst same
      rw [Function.update_self, Function.update_self]
      omega
    · rw [Function.update_of_ne same, Function.update_of_ne same]
      omega

/-- An operation that a thread had pending. -/
theorem Ledger.perform (ledger : worker.Ledger setup) (counters : next.counters = worker.counters)
    (exact_ : next.exact = worker.exact) (cleared : next.cleared = worker.cleared)
    (readings : next.readings = worker.readings) (pending : ∀ counter,
      operation.amount counter + next.pending counter = worker.pending counter)
    (lost : next.lost = worker.lost) (published : next.published = worker.published) :
    (next.perform operation).Ledger setup := by
  have frame : (next.perform operation).readings = worker.readings ∧
      (next.perform operation).lost = worker.lost ∧
      (next.perform operation).published = worker.published ∧
      (∀ counter, (next.perform operation).pending counter = next.pending counter) := by
    cases operation <;> exact ⟨readings, lost, published, fun _ => rfl⟩
  refine ⟨fun counter => ?_, ?_, fun counter => ?_⟩
  · refine perform_counters (fun other => ?_) operation counter
    rw [counters, exact_, ledger.counters]
  · rw [frame.1]
    exact ledger.readings
  · have moved := perform_exact next operation counter
    have total := ledger.total counter
    have pending := pending counter
    rw [exact_, cleared] at moved
    rw [frame.1, frame.2.1, frame.2.2.2]
    simp only [countsOf_congr frame.2.2.1]
    omega

theorem Ledger.swap (ledger : worker.Ledger setup) (counter : Counter) :
    { worker with
      counters := Function.update worker.counters counter 0
      exact := Function.update worker.exact counter 0
      readings := worker.readings ++
        [Reading.mk counter (worker.counters counter) (worker.exact counter)] }.Ledger setup where
  counters := by
    intro other
    dsimp only
    by_cases same : other = counter
    · subst same
      rw [Function.update_self, Function.update_self, Nat.zero_min]
    · rw [Function.update_of_ne same, Function.update_of_ne same]
      exact ledger.counters other
  readings := by
    intro reading mem
    rcases List.mem_append.mp mem with old | new
    · exact ledger.readings reading old
    · obtain rfl := List.mem_singleton.mp new
      exact ledger.counters counter
  total := by
    intro other
    refine Eq.trans ?_ (ledger.total other)
    dsimp only [pending]
    rw [List.filter_append, List.map_append, List.sum_append]
    by_cases same : other = counter
    · subst same
      simp
    · have apart : counter ≠ other := fun eq => same eq.symm
      simp [same, apart]

/-! ### Runs -/

/-- What holds of every state. -/
structure Sound (setup : Setup D P) (earlier : List (Batch D P)) (worker : OutputWorker D P) :
    Prop where
  pool : worker.Pool
  flow : worker.Flow setup earlier
  ledger : worker.Ledger setup

theorem Flow.old (flow : worker.Flow setup earlier) {publication : Nat}
    (mem : publication ∈ worker.lost) : publication < worker.published.length :=
  flow.bound (by simp [mem])

theorem Sound.publish (sound : worker.Sound setup earlier) (idle : worker.producer = .rendering)
    (published : worker.publish setup locked = some next) :
    next.Ledger setup := by
  have later : ∀ next : OutputWorker D P,
      next.published = worker.published ++ [⟨worker.run.packed, worker.subscription⟩] →
        ∀ publication ∈ worker.lost, next.countsOf publication = worker.countsOf publication :=
    fun next published publication mem => countsOf_later (sound.flow.old mem) published
  unfold OutputWorker.publish at published
  split at published
  · obtain rfl := Option.some.inj published
    exact sound.ledger
  · split at published
    · obtain rfl := Option.some.inj published
      exact sound.ledger
    · dsimp only at published
      split at published
      · obtain ⟨swapped, swap, rfl⟩ := Option.map_eq_some_iff.mp published
        refine sound.ledger.of_same ⟨rfl, rfl, rfl, rfl, fun counter => ?_, rfl, later _ rfl⟩
        simp only [pending, idle, Producer.operations]
      · obtain rfl := Option.some.inj published
        refine sound.ledger.lose worker.run.outputCounts rfl rfl rfl rfl (fun counter => ?_) rfl
          (later _ rfl) ?_
        · simp only [pending, idle, Producer.operations, total_nil, total_recordLoss]
          omega
        · simp only [countsOf, List.getElem?_concat_length]
          rfl

theorem Sound.decoded (sound : worker.Sound setup earlier)
    (holds : worker.consumer = .decoding submission) :
    (worker.decode setup submission).Sound setup earlier := by
  have flying : submission ∈ worker.inFlight := by
    simp [OutputWorker.inFlight, holds, Consumer.submissions]
  obtain ⟨publication, found, same, subscribed⟩ := sound.flow.flying submission flying
  have reported := sound.flow.reported publication (List.mem_of_getElem? found)
  have decoded : Decoded setup worker submission publication _ :=
    decode_decoded worker same subscribed reported
  refine ⟨sound.pool.decoded holds decoded, sound.flow.decoded holds found decoded, ?_⟩
  have kept : ∀ next : OutputWorker D P, next.counters = worker.counters →
      next.exact = worker.exact → next.cleared = worker.cleared →
      next.readings = worker.readings → next.lost = worker.lost →
      next.published = worker.published → next.producer = worker.producer →
      next.consumer.operations = [] → next.Ledger setup := by
    intro next counters exact_ cleared readings lost published producer consumer
    refine sound.ledger.of_same ⟨counters, exact_, cleared, readings, fun counter => ?_, lost,
      fun publication _ => countsOf_congr published publication⟩
    unfold pending
    rw [producer, consumer, holds]
    rfl
  generalize worker.decode setup submission = next at decoded
  cases decoded with
  | lost =>
    refine sound.ledger.lose publication.output.counts rfl rfl rfl rfl (fun counter => ?_) rfl
      (fun _ _ => rfl) ?_
    · simp only [pending, holds, Consumer.operations, total_nil, total_recordLoss]
      omega
    · simp only [countsOf, found]
      rfl
  | delivered | skipped | undecodable | disconnected =>
    exact kept _ rfl rfl rfl rfl rfl rfl rfl rfl

/-- Steps that move nothing. -/
theorem Sound.of_same (sound : worker.Sound setup earlier)
    (perm : next.packets.Perm worker.packets) (size : next.run.SameSize worker.run)
    (accepted : next.refused = worker.refused) (flow : SameFlow worker next)
    (ledger : SameLedger worker next) : next.Sound setup earlier :=
  ⟨sound.pool.of_perm perm size accepted, sound.flow.of_same flow, sound.ledger.of_same ledger⟩

/-- An operation moves neither packets nor publications. -/
theorem Sound.perform (sound : worker.Sound setup earlier) (perm : next.packets.Perm worker.packets)
    (size : next.run.SameSize worker.run) (accepted : next.refused = worker.refused)
    (flow : SameFlow worker next) (ledger : (next.perform operation).Ledger setup) :
    (next.perform operation).Sound setup earlier := by
  refine ⟨?_, ?_, ledger⟩
  · have pool := sound.pool.of_perm perm size accepted
    cases operation <;> exact pool.of_perm .rfl ⟨rfl, rfl⟩ rfl
  · have flow := sound.flow.of_same flow
    cases operation <;> exact flow.of_same ⟨rfl, rfl, rfl, rfl, rfl, rfl, rfl, rfl, rfl, rfl⟩

theorem Sound.step (sound : worker.Sound setup earlier) {action : Action}
    (stepped : worker.step setup action = some next) : next.Sound setup earlier := by
  cases action with
  | execute run =>
    simp only [OutputWorker.step] at stepped
    split at stepped
    · split at stepped
      · rename_i size
        obtain rfl := Option.some.inj stepped
        exact sound.of_same .rfl size rfl ⟨rfl, rfl, rfl, rfl, rfl, rfl, rfl, rfl, rfl, rfl⟩
          ⟨rfl, rfl, rfl, rfl, fun _ => rfl, rfl, fun _ _ => rfl⟩
      · cases stepped
    · cases stepped
  | subscribe enabled subscription =>
    simp only [OutputWorker.step] at stepped
    split at stepped
    · rename_i idle
      obtain rfl := Option.some.inj stepped
      unfold OutputWorker.subscribe
      split
      · exact sound
      · refine sound.of_same ?_ ⟨rfl, rfl⟩ rfl
          ⟨rfl, ?_, rfl, rfl, rfl, rfl, rfl, rfl, rfl, rfl⟩
          ⟨rfl, rfl, rfl, rfl, fun counter => ?_, rfl, fun _ _ => rfl⟩
        · simp only [packets, idle, Producer.submissions]
          exact .rfl
        · simp only [OutputWorker.inFlight, idle, Producer.submissions]
        · simp only [pending, idle, Producer.operations]
          split <;> rfl
    · cases stepped
  | publish locked =>
    simp only [OutputWorker.step] at stepped
    split at stepped
    · rename_i idle
      exact ⟨sound.pool.publish idle stepped, sound.flow.publish idle stepped,
        sound.publish idle stepped⟩
    · cases stepped
  | submit =>
    simp only [OutputWorker.step] at stepped
    split at stepped
    · rename_i submission holds
      obtain rfl := Option.some.inj stepped
      obtain ⟨pool, submitted⟩ := sound.pool.submit holds
      refine ⟨pool, ?_, ?_⟩
      · rw [submitted]
        refine sound.flow.of_same ⟨rfl, ?_, rfl, rfl, rfl, rfl, rfl, rfl, rfl, rfl⟩
        simp only [OutputWorker.inFlight, holds, Producer.submissions, List.append_nil,
          List.append_assoc]
      · rw [submitted]
        refine sound.ledger.of_same ⟨rfl, rfl, rfl, rfl, fun counter => ?_, rfl, fun _ _ => rfl⟩
        simp only [pending, holds, Producer.operations]
    · cases stepped
  | produceUpdate =>
    simp only [OutputWorker.step] at stepped
    split at stepped
    · rename_i operation operations holds
      obtain rfl := Option.some.inj stepped
      refine sound.perform ?_ ⟨rfl, rfl⟩ rfl
        ⟨rfl, ?_, rfl, rfl, rfl, rfl, rfl, rfl, rfl, rfl⟩
        (sound.ledger.perform rfl rfl rfl rfl (fun counter => ?_) rfl rfl)
      · simp only [packets, holds, Producer.submissions]
        exact .rfl
      · simp only [OutputWorker.inFlight, holds, Producer.submissions]
      · simp only [pending, holds, Producer.operations, total_cons]
        omega
    · rename_i holds
      obtain rfl := Option.some.inj stepped
      refine sound.of_same ?_ ⟨rfl, rfl⟩ rfl
        ⟨rfl, ?_, rfl, rfl, rfl, rfl, rfl, rfl, rfl, rfl⟩
        ⟨rfl, rfl, rfl, rfl, fun counter => ?_, rfl, fun _ _ => rfl⟩
      · simp only [packets, holds, Producer.submissions]
        exact .rfl
      · simp only [OutputWorker.inFlight, holds, Producer.submissions]
      · simp only [pending, holds, Producer.operations]
    · cases stepped
  | receive =>
    simp only [OutputWorker.step] at stepped
    split at stepped
    · rename_i submission ready waits queued
      obtain rfl := Option.some.inj stepped
      refine ⟨sound.pool.receive waits queued, ?_, ?_⟩
      · refine sound.flow.of_same ⟨rfl, ?_, rfl, rfl, rfl, rfl, rfl, rfl, rfl, rfl⟩
        simp only [OutputWorker.inFlight, waits, queued, Consumer.submissions, List.nil_append,
          List.cons_append]
      · refine sound.ledger.of_same ⟨rfl, rfl, rfl, rfl, fun counter => ?_, rfl, fun _ _ => rfl⟩
        simp only [pending, waits, Consumer.operations]
    · cases stepped
  | decode =>
    simp only [OutputWorker.step] at stepped
    split at stepped
    · rename_i submission holds
      obtain rfl := Option.some.inj stepped
      exact sound.decoded holds
    · cases stepped
  | consumeUpdate =>
    simp only [OutputWorker.step] at stepped
    split at stepped
    · rename_i operation operations packet holds
      obtain rfl := Option.some.inj stepped
      refine sound.perform ?_ ⟨rfl, rfl⟩ rfl
        ⟨rfl, ?_, rfl, rfl, rfl, rfl, rfl, rfl, rfl, rfl⟩
        (sound.ledger.perform rfl rfl rfl rfl (fun counter => ?_) rfl rfl)
      · simp only [packets, holds, Consumer.packets]
        exact .rfl
      · simp only [OutputWorker.inFlight, holds, Consumer.submissions]
      · simp only [pending, holds, Consumer.operations, total_cons]
        omega
    · cases stepped
  | giveBack =>
    simp only [OutputWorker.step] at stepped
    split at stepped
    · rename_i packet holds
      obtain rfl := Option.some.inj stepped
      obtain ⟨pool, given⟩ := sound.pool.giveBack holds
      refine ⟨pool, ?_, ?_⟩
      · rw [given]
        refine sound.flow.of_same ⟨rfl, ?_, rfl, rfl, rfl, rfl, rfl, rfl, rfl, rfl⟩
        simp only [OutputWorker.inFlight, holds, Consumer.submissions]
      · rw [given]
        refine sound.ledger.of_same ⟨rfl, rfl, rfl, rfl, fun counter => ?_, rfl, fun _ _ => rfl⟩
        simp only [pending, holds, Consumer.operations]
    · cases stepped
  | take =>
    simp only [OutputWorker.step] at stepped
    split at stepped
    · rename_i batch transport connected queued
      obtain rfl := Option.some.inj stepped
      exact ⟨sound.pool.of_perm .rfl ⟨rfl, rfl⟩ rfl, sound.flow.take queued,
        sound.ledger.of_same ⟨rfl, rfl, rfl, rfl, fun _ => rfl, rfl, fun _ _ => rfl⟩⟩
    · cases stepped
  | swap counter =>
    obtain rfl := Option.some.inj stepped
    exact ⟨sound.pool.of_perm .rfl ⟨rfl, rfl⟩ rfl,
      sound.flow.of_same ⟨rfl, rfl, rfl, rfl, rfl, rfl, rfl, rfl, rfl, rfl⟩,
      sound.ledger.swap counter⟩
  | disconnect =>
    obtain rfl := Option.some.inj stepped
    exact ⟨sound.pool.of_perm .rfl ⟨rfl, rfl⟩ rfl, sound.flow.disconnect,
      sound.ledger.of_same ⟨rfl, rfl, rfl, rfl, fun _ => rfl, rfl, fun _ _ => rfl⟩⟩

/-! ### Runs without another subscription -/

def IsAdd : Operation → Prop
  | .add _ _ => True
  | .store _ => False

/-- Nothing was cleared, and nothing will be. -/
structure Uncleared (worker : OutputWorker D P) : Prop where
  cleared : ∀ counter, worker.cleared counter = 0
  producer : ∀ operation ∈ worker.producer.operations, IsAdd operation
  consumer : ∀ operation ∈ worker.consumer.operations, IsAdd operation

theorem recordLoss_adds (counts : OutputCounts) :
    ∀ operation ∈ recordLoss setup counts, IsAdd operation := by
  unfold recordLoss
  split <;> simp [recordTransportLoss, IsAdd]

theorem Uncleared.of_same (uncleared : worker.Uncleared) (cleared : next.cleared = worker.cleared)
    (producer : next.producer.operations = [] ∨ next.producer = worker.producer)
    (consumer : next.consumer.operations = [] ∨ next.consumer = worker.consumer) :
    next.Uncleared where
  cleared := by
    rw [cleared]
    exact uncleared.cleared
  producer := by
    rcases producer with none | same
    · rw [none]
      exact fun _ mem => by cases mem
    · rw [same]
      exact uncleared.producer
  consumer := by
    rcases consumer with none | same
    · rw [none]
      exact fun _ mem => by cases mem
    · rw [same]
      exact uncleared.consumer

theorem perform_uncleared (uncleared : next.Uncleared) (adds : IsAdd operation)
    : (next.perform operation).Uncleared := by
  cases operation with
  | add => exact ⟨uncleared.cleared, uncleared.producer, uncleared.consumer⟩
  | store => exact adds.elim

theorem Uncleared.publish (uncleared : worker.Uncleared)
    (published : worker.publish setup locked = some next) : next.Uncleared := by
  unfold OutputWorker.publish at published
  split at published
  · obtain rfl := Option.some.inj published
    exact uncleared
  · split at published
    · obtain rfl := Option.some.inj published
      exact uncleared
    · dsimp only at published
      split at published
      · obtain ⟨swapped, -, rfl⟩ := Option.map_eq_some_iff.mp published
        exact uncleared.of_same rfl (.inl rfl) (.inr rfl)
      · obtain rfl := Option.some.inj published
        exact ⟨uncleared.cleared, recordLoss_adds _, uncleared.consumer⟩

theorem Uncleared.decoded (uncleared : worker.Uncleared) (sound : worker.Sound setup earlier)
    (holds : worker.consumer = .decoding submission) :
    (worker.decode setup submission).Uncleared := by
  have flying : submission ∈ worker.inFlight := by
    simp [OutputWorker.inFlight, holds, Consumer.submissions]
  obtain ⟨publication, found, same, subscribed⟩ := sound.flow.flying submission flying
  have decoded : Decoded setup worker submission publication _ :=
    decode_decoded worker same subscribed
      (sound.flow.reported publication (List.mem_of_getElem? found))
  generalize worker.decode setup submission = next at decoded
  cases decoded with
  | lost => exact ⟨uncleared.cleared, uncleared.producer, recordLoss_adds _⟩
  | delivered | skipped | undecodable | disconnected =>
    exact uncleared.of_same rfl (.inr rfl) (.inl rfl)

theorem Uncleared.step (uncleared : worker.Uncleared) (sound : worker.Sound setup earlier)
    {action : Action} (kept : ∀ enabled subscription, action ≠ .subscribe enabled subscription)
    (stepped : worker.step setup action = some next) : next.Uncleared := by
  cases action with
  | subscribe enabled subscription => exact (kept enabled subscription rfl).elim
  | publish locked =>
    simp only [OutputWorker.step] at stepped
    split at stepped
    · exact uncleared.publish stepped
    · cases stepped
  | decode =>
    simp only [OutputWorker.step] at stepped
    split at stepped
    · rename_i submission holds
      obtain rfl := Option.some.inj stepped
      exact uncleared.decoded sound holds
    · cases stepped
  | produceUpdate =>
    simp only [OutputWorker.step] at stepped
    split at stepped
    · rename_i operation operations holds
      obtain rfl := Option.some.inj stepped
      have adds := uncleared.producer
      rw [holds] at adds
      refine perform_uncleared ?_ (adds operation List.mem_cons_self)
      exact ⟨uncleared.cleared, (fun other mem => adds other (List.mem_cons_of_mem _ mem)),
        uncleared.consumer⟩
    · obtain rfl := Option.some.inj stepped
      exact uncleared.of_same rfl (.inl rfl) (.inr rfl)
    · cases stepped
  | consumeUpdate =>
    simp only [OutputWorker.step] at stepped
    split at stepped
    · rename_i operation operations packet holds
      obtain rfl := Option.some.inj stepped
      have adds := uncleared.consumer
      rw [holds] at adds
      refine perform_uncleared ?_ (adds operation List.mem_cons_self)
      exact ⟨uncleared.cleared, uncleared.producer,
        fun other mem => adds other (List.mem_cons_of_mem _ mem)⟩
    · cases stepped
  | execute run =>
    simp only [OutputWorker.step] at stepped
    split at stepped
    · split at stepped
      · obtain rfl := Option.some.inj stepped
        exact uncleared.of_same rfl (.inr rfl) (.inr rfl)
      · cases stepped
    · cases stepped
  | submit =>
    simp only [OutputWorker.step] at stepped
    split at stepped
    · rename_i submission holds
      obtain rfl := Option.some.inj stepped
      rw [(sound.pool.submit holds).2]
      exact uncleared.of_same rfl (.inl rfl) (.inr rfl)
    · cases stepped
  | receive =>
    simp only [OutputWorker.step] at stepped
    split at stepped
    · obtain rfl := Option.some.inj stepped
      exact uncleared.of_same rfl (.inr rfl) (.inl rfl)
    · cases stepped
  | giveBack =>
    simp only [OutputWorker.step] at stepped
    split at stepped
    · rename_i packet holds
      obtain rfl := Option.some.inj stepped
      rw [(sound.pool.giveBack holds).2]
      exact uncleared.of_same rfl (.inr rfl) (.inl rfl)
    · cases stepped
  | take =>
    simp only [OutputWorker.step] at stepped
    split at stepped
    · obtain rfl := Option.some.inj stepped
      exact uncleared.of_same rfl (.inr rfl) (.inr rfl)
    · cases stepped
  | swap counter =>
    obtain rfl := Option.some.inj stepped
    exact uncleared.of_same rfl (.inr rfl) (.inr rfl)
  | disconnect =>
    obtain rfl := Option.some.inj stepped
    exact uncleared.of_same rfl (.inr rfl) (.inr rfl)

theorem start_sound (run : Session) (earlier : List (Batch D P)) :
    (start run earlier).Sound setup earlier :=
  ⟨start_pool run earlier, start_flow run earlier, start_ledger run earlier⟩

theorem start_uncleared (run : Session) (earlier : List (Batch D P)) :
    (start run earlier).Uncleared :=
  ⟨fun _ => rfl, (fun _ mem => by cases mem), (fun _ mem => by cases mem)⟩

theorem Sound.conserved (sound : worker.Sound setup earlier) : worker.Conserved setup earlier where
  places := sound.pool.places
  accepted := sound.pool.accepted
  published := by
    intro _ locked
    unfold OutputWorker.publish
    split
    · rfl
    · split
      · rfl
      · dsimp only
        split
        · rename_i packet available free
          rw [sound.pool.swap free]
          rfl
        · rfl
  sent := sound.flow.sent
  order := (List.pairwise_append.mp sound.flow.ordered).1
  carries := sound.flow.carries
  fates := sound.flow.fates
  skipped := sound.flow.skipped
  failed := sound.flow.failed

/-- A run of which every record is a delegate without a payload. -/
def counting (records : Nat) : Session :=
  ⟨List.replicate 24 0, 12 * records, records, 0, [], 0, 0, 0⟩

def headers : Setup (Nat × Nat) Nat :=
  ⟨⟨fun _ => 0, fun index sequence _ => some (index, sequence), fun _ _ _ => none, fun _ => ""⟩,
    true, 1⟩

/-- The first publication is sent, and the second one is counted. -/
def sendAndCount : List Action :=
  [.execute (counting 1), .publish false, .submit, .execute (counting 2), .publish false, .submit,
    .receive, .decode, .giveBack, .receive, .decode, .consumeUpdate, .take, .swap .droppedDelegates]

end OutputWorker

end Onda.Playback.Output
