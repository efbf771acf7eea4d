import Onda.Cpal.SampleRing

/-!
# The sample ring is a lossless queue

`Sound` relates the counters, which are words, to the numbers of samples that were accepted and
taken.  Every step keeps it, except that a producer must not compute its room from a write counter
that has wrapped below the read counter: the saturating difference of the two is then zero.
-/

namespace Onda.Cpal

variable {F : Type} {w : Nat}

theorem aligned_le (alignment count : Nat) : aligned alignment count ≤ count := Nat.sub_le _ _

theorem dvd_aligned (alignment count : Nat) : max alignment 1 ∣ aligned alignment count :=
  Nat.dvd_sub_mod count

theorem ProducerCall.accepts_le (call : ProducerCall F) (available : Nat) :
    (call.accepts available).length ≤ available := by
  cases call with
  | pushSlice input =>
    rw [accepts, List.length_take]
    omega
  | produce alignment samples =>
    have le := aligned_le alignment (min samples.length available)
    rw [accepts, List.length_take]
    omega

theorem ProducerCall.accepts_frames (call : ProducerCall F) (available : Nat) :
    max call.alignment 1 ∣ (call.accepts available).length := by
  cases call with
  | pushSlice input => exact Nat.one_dvd _
  | produce alignment samples =>
    have le := aligned_le alignment (min samples.length available)
    rw [accepts, List.length_take, Nat.min_eq_left (by omega)]
    exact dvd_aligned alignment _

namespace System

/-- What the producer has put into its slots and not published. -/
def pending (sys : System F) : List F :=
  match sys.producer with
  | .writing _ _ samples offset => samples.take offset
  | .idle | .loaded _ _ => []

/-- What holds of every state of the ring. -/
structure Sound (w : Nat) (sys : System F) : Prop where
  fits : ∃ k, k < w ∧ sys.ring.capacity = 2 ^ k
  write : sys.ring.writeIndex = sys.accepted.length % 2 ^ w
  read : sys.ring.readIndex = sys.taken.length % 2 ^ w
  ordered : sys.taken.length ≤ sys.accepted.length
  bounded : sys.accepted.length ≤ sys.taken.length + sys.ring.capacity
  cells : Window.Holds sys.ring.capacity (sys.accepted ++ sys.pending) sys.taken.length
    sys.ring.slots
  started : ∀ call write, sys.producer = .loaded call write →
    write = sys.accepted.length % 2 ^ w
  writing : ∀ alignment write samples offset, sys.producer = .writing alignment write samples offset →
    write = sys.accepted.length % 2 ^ w ∧ offset ≤ samples.length ∧
      sys.accepted.length + samples.length ≤ sys.taken.length + sys.ring.capacity ∧
      max alignment 1 ∣ samples.length
  requested : ∀ requested alignment read, sys.consumer = .loaded requested alignment read →
    read = sys.taken.length % 2 ^ w
  reading : ∀ alignment read count seen, sys.consumer = .reading alignment read count seen →
    read = sys.taken.length % 2 ^ w ∧ seen.length ≤ count ∧
      sys.taken.length + count ≤ sys.accepted.length ∧ max alignment 1 ∣ count ∧
      ∀ (index : Nat) (inside : index < seen.length),
        sys.accepted[sys.taken.length + index]? = some seen[index]
  discarding : ∀ write, sys.consumer = .discarding write →
    ∃ upto, sys.taken.length ≤ upto ∧ upto ≤ sys.accepted.length ∧ write = upto % 2 ^ w
  delivered : ∀ (position : Nat) (sample : F), sys.taken[position]? = some (some sample) →
    sys.accepted[position]? = some sample
  frames : ∀ transfer ∈ sys.transfers, max transfer.1 1 ∣ transfer.2

variable {sys next : System F}

theorem Sound.slot_eq (sound : Sound w sys) (position offset : Nat) :
    sys.ring.slot w (position % 2 ^ w) offset = (position + offset) % sys.ring.capacity := by
  obtain ⟨k, lt, capacity⟩ := sound.fits
  unfold SampleRing.slot SampleRing.mask wordAdd
  rw [capacity, Nat.and_two_pow_sub_one_eq_mod, Nat.mod_add_mod,
    Nat.mod_mod_of_dvd _ (Nat.pow_dvd_pow 2 (Nat.le_of_lt lt))]

theorem Sound.near (sound : Sound w sys) {low high : Nat} (above : sys.taken.length ≤ low)
    (below : high ≤ sys.accepted.length) : high - low < 2 ^ w := by
  obtain ⟨k, lt, capacity⟩ := sound.fits
  have smaller : 2 ^ k < 2 ^ w := Nat.pow_lt_pow_right (by omega) lt
  have bounded := sound.bounded
  omega

theorem initial_sound [Zero F] {capacity : Nat}
    (fits : nextPowerOfTwo (max capacity 2) < 2 ^ w) : Sound w (initial (F := F) capacity) := by
  refine
    { fits := ⟨Nat.clog 2 (max capacity 2), ?_, rfl⟩
      write := (Nat.zero_mod _).symm
      read := (Nat.zero_mod _).symm
      ordered := Nat.le_refl _
      bounded := Nat.zero_le _
      cells := Window.holds_nil _ _
      started := fun _ _ phase => by cases phase
      writing := fun _ _ _ _ phase => by cases phase
      requested := fun _ _ _ phase => by cases phase
      reading := fun _ _ _ _ phase => by cases phase
      discarding := fun _ phase => by cases phase
      delivered := fun position sample taken => by cases taken
      frames := fun _ mem => by cases mem }
  exact (Nat.pow_lt_pow_iff_right (by omega)).mp fits

/-! ### The producer -/

variable {alignment count read write : Nat}

/-- The producer takes the samples of its call that fit. -/
theorem Sound.accept (sound : Sound w sys) {call : ProducerCall F}
    (phase : sys.producer = .loaded call write) (unwrapped : sys.ring.readIndex ≤ write) :
    Sound w { sys with
      producer := .writing call.alignment write (call.accepts (sys.ring.available write)) 0 } := by
  have value := sound.started call write phase
  have room : sys.accepted.length + (call.accepts (sys.ring.available write)).length ≤
      sys.taken.length + sys.ring.capacity := by
    have le := call.accepts_le (sys.ring.available write)
    rw [sound.read, value] at unwrapped
    have unread := Window.word_sub_eq sound.ordered
      (sound.near (Nat.le_refl _) (Nat.le_refl _)) unwrapped
    have bounded := sound.bounded
    unfold SampleRing.available at le
    rw [sound.read, value, unread] at le
    rw [value]
    unfold SampleRing.available
    rw [sound.read, unread]
    omega
  exact
    { sound with
      cells := by
        have cells := sound.cells
        unfold pending at cells
        rw [phase] at cells
        exact cells
      started := fun _ _ phase => by cases phase
      writing := fun _ _ _ _ phase => by
        cases phase
        exact ⟨value, Nat.zero_le _, room, call.accepts_frames _⟩ }

/-- The producer fills one more slot. -/
theorem Sound.put (sound : Sound w sys) {offset : Nat} {samples : List F}
    (phase : sys.producer = .writing alignment write samples offset)
    (inside : offset < samples.length) :
    Sound w { sys with
      ring := { sys.ring with
        slots := Function.update sys.ring.slots (sys.ring.slot w write offset) samples[offset] }
      producer := .writing alignment write samples (offset + 1) } := by
  obtain ⟨value, le, room, frames⟩ := sound.writing alignment write samples offset phase
  have cells := sound.cells
  unfold pending at cells
  rw [phase] at cells
  dsimp only at cells
  have length : (sys.accepted ++ samples.take offset).length = sys.accepted.length + offset := by
    rw [List.length_append, List.length_take, Nat.min_eq_left le]
  have added := cells.add (by omega) samples[offset]
  rw [length, List.append_assoc, ← List.take_succ_eq_append_getElem inside] at added
  exact
    { sound with
      cells := by
        dsimp only [pending]
        rw [value, sound.slot_eq]
        exact added
      started := fun _ _ phase => by cases phase
      writing := fun _ _ _ _ phase => by
        cases phase
        exact ⟨value, inside, room, frames⟩ }

/-- The producer publishes the samples that it has written. -/
theorem Sound.publish (sound : Sound w sys) {offset : Nat} {samples : List F}
    (phase : sys.producer = .writing alignment write samples offset)
    (outside : samples.length ≤ offset) :
    Sound w { sys with
      ring := { sys.ring with
        writeIndex :=
          if samples.length ≠ 0 then wordAdd w write samples.length else sys.ring.writeIndex }
      producer := .idle
      accepted := sys.accepted ++ samples
      transfers := sys.transfers ++ [(alignment, samples.length)] } := by
  obtain ⟨value, le, room, frames⟩ := sound.writing alignment write samples offset phase
  have cells := sound.cells
  unfold pending at cells
  rw [phase] at cells
  dsimp only at cells
  rw [List.take_of_length_le outside] at cells
  have longer : sys.accepted.length ≤ (sys.accepted ++ samples).length := by
    rw [List.length_append]
    exact Nat.le_add_right _ _
  have old : ∀ (position : Nat) (sample : F), sys.accepted[position]? = some sample →
      (sys.accepted ++ samples)[position]? = some sample := by
    intro position sample here
    obtain ⟨inside, -⟩ := List.getElem?_eq_some_iff.mp here
    rw [List.getElem?_append_left inside, here]
  refine
    { sound with
      write := ?_
      ordered := Nat.le_trans sound.ordered longer
      bounded := ?_
      cells := ?_
      started := fun _ _ phase => by cases phase
      writing := fun _ _ _ _ phase => by cases phase
      reading := ?_
      discarding := ?_
      delivered := fun position sample taken =>
        old position sample (sound.delivered position sample taken)
      frames := ?_ }
  · dsimp only
    rw [List.length_append]
    split
    · rw [value, wordAdd, Nat.mod_add_mod]
    · rename_i empty
      rw [not_not] at empty
      rw [empty, Nat.add_zero]
      exact sound.write
  · simpa using room
  · simpa [pending] using cells
  · intro alignment' read count seen phase'
    obtain ⟨read_eq, few, published, whole, values⟩ :=
      sound.reading alignment' read count seen phase'
    exact ⟨read_eq, few, Nat.le_trans published longer, whole,
      fun index inside => old _ _ (values index inside)⟩
  · intro write' phase'
    obtain ⟨upto, above, below, write_eq⟩ := sound.discarding write' phase'
    exact ⟨upto, above, Nat.le_trans below longer, write_eq⟩
  · intro transfer mem
    rcases List.mem_append.mp mem with mem | mem
    · exact sound.frames transfer mem
    · rw [List.mem_singleton.mp mem]
      exact frames

theorem Sound.producerStep (sound : Sound w sys)
    (unwrapped : ∀ call write, sys.producer = .loaded call write → sys.ring.readIndex ≤ write)
    (stepped : sys.producerStep w = some next) : Sound w next := by
  unfold System.producerStep at stepped
  split at stepped
  · cases stepped
  · rename_i call write phase
    obtain rfl := Option.some.inj stepped
    exact sound.accept phase (unwrapped call write phase)
  · rename_i alignment write samples offset phase
    split at stepped
    · rename_i sample here
      obtain rfl := Option.some.inj stepped
      obtain ⟨inside, rfl⟩ := List.getElem?_eq_some_iff.mp here
      exact sound.put phase inside
    · rename_i outside
      obtain rfl := Option.some.inj stepped
      exact sound.publish phase (List.getElem?_eq_none_iff.mp outside)

/-! ### The consumer -/

/-- An unread sample lies in its slot. -/
theorem Sound.slot_holds (sound : Sound w sys) {position : Nat}
    (above : sys.taken.length ≤ position) (below : position < sys.accepted.length) :
    sys.accepted[position]? = some (sys.ring.slots (position % sys.ring.capacity)) := by
  have inside : position < (sys.accepted ++ sys.pending).length :=
    Nat.lt_of_lt_of_le below (by simp)
  rw [sound.cells position inside above, List.getElem_append_left below]
  exact List.getElem?_eq_getElem below

/-- The consumer takes samples. -/
theorem Sound.take (sound : Sound w sys) (samples : List (Option F)) (readIndex : Nat)
    (transfers : List (Nat × Nat))
    (read : readIndex = (sys.taken.length + samples.length) % 2 ^ w)
    (published : sys.taken.length + samples.length ≤ sys.accepted.length)
    (values : ∀ (index : Nat) (sample : F), samples[index]? = some (some sample) →
      sys.accepted[sys.taken.length + index]? = some sample)
    (frames : ∀ transfer ∈ transfers, max transfer.1 1 ∣ transfer.2) :
    Sound w
      { sys with
        ring := { sys.ring with readIndex }
        consumer := .idle
        taken := sys.taken ++ samples
        transfers := transfers } := by
  refine
    { sound with
      read := ?_
      ordered := ?_
      bounded := ?_
      cells := ?_
      writing := ?_
      requested := fun _ _ _ phase => by cases phase
      reading := fun _ _ _ _ phase => by cases phase
      discarding := fun _ phase => by cases phase
      delivered := ?_
      frames := frames }
  · dsimp only
    rw [List.length_append]
    exact read
  · simpa using published
  · have bounded := sound.bounded
    dsimp only
    rw [List.length_append]
    omega
  · exact Window.Holds.later sound.cells (by simp)
  · intro alignment write toWrite offset phase
    obtain ⟨value, le, room, whole⟩ := sound.writing alignment write toWrite offset phase
    refine ⟨value, le, ?_, whole⟩
    dsimp only
    rw [List.length_append]
    omega
  · intro position sample here
    dsimp only at here
    rw [List.getElem?_append] at here
    split at here
    · exact sound.delivered position sample here
    · have value := values (position - sys.taken.length) sample here
      rw [Nat.add_sub_cancel' (by omega)] at value
      exact value

/-- The consumer asks for what is published, in whole frames. -/
theorem Sound.request (sound : Sound w sys) {requested : Nat}
    (phase : sys.consumer = .loaded requested alignment read) :
    Sound w { sys with
      consumer := .reading alignment read
        (aligned alignment (min requested (sys.ring.writeIndex - read))) [] } := by
  have value := sound.requested requested alignment read phase
  have le := aligned_le alignment (min requested (sys.ring.writeIndex - read))
  have unread := @Window.word_sub_le (2 ^ w) _ _ sound.ordered
  rw [← sound.write, ← value] at unread
  have ordered := sound.ordered
  exact
    { sound with
      requested := fun _ _ _ phase => by cases phase
      reading := fun _ _ _ _ phase => by
        cases phase
        refine ⟨value, Nat.zero_le _, ?_, dvd_aligned _ _, fun index inside => ?_⟩
        · dsimp only
          omega
        · cases inside
      discarding := fun _ phase => by cases phase }

/-- The consumer reads one more slot. -/
theorem Sound.get (sound : Sound w sys) {seen : List F}
    (phase : sys.consumer = .reading alignment read count seen) (more : seen.length < count) :
    Sound w { sys with
      consumer := .reading alignment read count
        (seen ++ [sys.ring.slots (sys.ring.slot w read seen.length)]) } := by
  obtain ⟨value, few, published, whole, values⟩ :=
    sound.reading alignment read count seen phase
  exact
    { sound with
      requested := fun _ _ _ phase => by cases phase
      reading := fun _ _ _ _ phase => by
        cases phase
        refine ⟨value, ?_, published, whole, fun index inside => ?_⟩
        · rw [List.length_append, List.length_singleton]
          exact more
        · rw [List.length_append, List.length_singleton] at inside
          by_cases old : index < seen.length
          · rw [List.getElem_append_left old]
            exact values index old
          · obtain rfl : index = seen.length := by omega
            rw [List.getElem_concat_length rfl, value, sound.slot_eq]
            exact sound.slot_holds (Nat.le_add_right _ _)
              (Nat.lt_of_lt_of_le (Nat.add_lt_add_left more _) published)
      discarding := fun _ phase => by cases phase }

/-- The consumer frees the slots that it has read. -/
theorem Sound.release (sound : Sound w sys) {seen : List F}
    (phase : sys.consumer = .reading alignment read count seen) (all : count ≤ seen.length) :
    Sound w { sys with
      ring := { sys.ring with
        readIndex := if count ≠ 0 then wordAdd w read count else sys.ring.readIndex }
      consumer := .idle
      taken := sys.taken ++ seen.map some
      transfers := sys.transfers ++ [(alignment, count)] } := by
  obtain ⟨value, few, published, whole, values⟩ :=
    sound.reading alignment read count seen phase
  have full : seen.length = count := Nat.le_antisymm few all
  refine sound.take (seen.map some) _ _ ?_ ?_ ?_ ?_
  · rw [List.length_map, full]
    split
    · rw [value, wordAdd, Nat.mod_add_mod]
    · rename_i empty
      rw [not_not] at empty
      rw [empty, Nat.add_zero]
      exact sound.read
  · rw [List.length_map, full]
    exact published
  · intro index sample here
    rw [List.getElem?_map, Option.map_eq_some_iff] at here
    obtain ⟨seen_sample, here, same⟩ := here
    obtain ⟨inside, rfl⟩ := List.getElem?_eq_some_iff.mp here
    rw [← Option.some.inj same]
    exact values index inside
  · intro transfer mem
    rcases List.mem_append.mp mem with mem | mem
    · exact sound.frames transfer mem
    · rw [List.mem_singleton.mp mem]
      exact whole

/-- The consumer frees everything up to the write index that it has loaded. -/
theorem Sound.discard (sound : Sound w sys) (phase : sys.consumer = .discarding write) :
    Sound w { sys with
      ring := { sys.ring with readIndex := write }
      consumer := .idle
      taken := sys.taken ++
        List.replicate ((write + 2 ^ w - sys.ring.readIndex) % 2 ^ w) none } := by
  obtain ⟨upto, above, below, value⟩ := sound.discarding write phase
  have count := Window.word_distance above (sound.near (Nat.le_refl _) below)
  rw [← value, ← sound.read] at count
  refine sound.take (List.replicate ((write + 2 ^ w - sys.ring.readIndex) % 2 ^ w) none) write
    sys.transfers ?_ ?_ ?_ sound.frames
  · rw [List.length_replicate, count, Nat.add_sub_cancel' above]
    exact value
  · rw [List.length_replicate, count]
    omega
  · intro index sample here
    have none := List.eq_of_mem_replicate (List.mem_of_getElem? here)
    cases none

theorem Sound.consumerStep (sound : Sound w sys) (stepped : sys.consumerStep w = some next) :
    Sound w next := by
  unfold System.consumerStep at stepped
  split at stepped
  · cases stepped
  · rename_i requested alignment read phase
    obtain rfl := Option.some.inj stepped
    exact sound.request phase
  · rename_i alignment read count seen phase
    split at stepped
    · rename_i more
      obtain rfl := Option.some.inj stepped
      exact sound.get phase more
    · rename_i all
      obtain rfl := Option.some.inj stepped
      exact sound.release phase (Nat.le_of_not_lt all)
  · rename_i write phase
    obtain rfl := Option.some.inj stepped
    exact sound.discard phase

/-! ### Runs -/

/-- Every step keeps the ring sound. -/
theorem Sound.step (sound : Sound w sys) {action : Action F} (unwrapped : sys.Unwrapped action)
    (stepped : sys.step w action = some next) : Sound w next := by
  cases action with
  | produce call =>
    rw [System.step] at stepped
    split at stepped
    · rename_i phase
      obtain rfl := Option.some.inj stepped
      exact
        { sound with
          cells := by
            have cells := sound.cells
            unfold pending at cells
            rw [phase] at cells
            exact cells
          started := fun _ _ phase => by
            cases phase
            exact sound.write
          writing := fun _ _ _ _ phase => by cases phase }
    · cases stepped
    · cases stepped
  | producer => exact sound.producerStep (fun call write => unwrapped call write rfl) stepped
  | consume requested alignment =>
    rw [System.step] at stepped
    split at stepped
    · obtain rfl := Option.some.inj stepped
      exact
        { sound with
          requested := fun _ _ _ phase => by
            cases phase
            exact sound.read
          reading := fun _ _ _ _ phase => by cases phase
          discarding := fun _ phase => by cases phase }
    · cases stepped
    · cases stepped
    · cases stepped
  | discard =>
    rw [System.step] at stepped
    split at stepped
    · obtain rfl := Option.some.inj stepped
      exact
        { sound with
          requested := fun _ _ _ phase => by cases phase
          reading := fun _ _ _ _ phase => by cases phase
          discarding := fun _ phase => by
            cases phase
            exact ⟨_, sound.ordered, Nat.le_refl _, sound.write⟩ }
    · cases stepped
    · cases stepped
    · cases stepped
  | consumer => exact sound.consumerStep stepped

/-- A sound ring is a lossless queue. -/
theorem Sound.lossless (sound : Sound w sys) : sys.Lossless w where
  ordered := sound.ordered
  delivered := sound.delivered
  bounded := sound.bounded
  kept := fun position unread => sound.slot_holds unread.1 unread.2
  reads := by
    intro slot mem
    unfold nextRead at mem
    split at mem
    · rename_i alignment read count seen phase
      obtain ⟨value, few, published, -, -⟩ := sound.reading alignment read count seen phase
      split at mem
      · rename_i more
        obtain rfl := Option.some.inj mem
        refine ⟨sys.taken.length + seen.length, ⟨by omega, by omega⟩, ?_⟩
        rw [value, sound.slot_eq]
      · cases mem
    all_goals cases mem
  writes := by
    intro slot mem position unread
    unfold nextWrite at mem
    split at mem
    · rename_i alignment write samples offset phase
      obtain ⟨value, le, room, -⟩ := sound.writing alignment write samples offset phase
      split at mem
      · rename_i more
        obtain rfl := Option.some.inj mem
        rw [value, sound.slot_eq]
        obtain ⟨above, below⟩ := unread
        exact (Window.cell_ne (by omega) (by omega)).symm
      · cases mem
    all_goals cases mem
  frames := sound.frames

/-- Runs whose producer never computes its room from a wrapped counter. -/
theorem ring_lossless [Zero F] (w capacity : Nat)
    (fits : nextPowerOfTwo (max capacity 2) < 2 ^ w) (actions : List (Action F))
    (meets : Steps.Meets (System.step w) Unwrapped (initial capacity) actions)
    (ran : Steps.run (System.step w) (initial capacity) actions = some sys) : sys.Lossless w :=
  (Steps.invariant (fun _ _ _ sound unwrapped stepped => Sound.step sound unwrapped stepped)
    (initial_sound fits) meets ran).lossless

/-! ### A run whose counters wrap -/

/-- A ring of two slots whose calls are complete, after as many samples as its counters show. -/
def Drained (count : Nat) (sys : System Nat) : Prop :=
  ∃ slots accepted taken transfers, sys = ⟨⟨2, slots, count, count⟩, .idle, .idle, accepted, taken,
    transfers⟩ ∧ accepted.length = count ∧ taken.length = count

/-- One sample is pushed and discarded. -/
def cycle : List (Action Nat) :=
  [.produce (.pushSlice [0]), .producer, .producer, .producer, .discard, .consumer]

theorem drained_cycle (small : count + 1 < 18446744073709551616) {sys : System Nat}
    (drained : Drained count sys) :
    ∃ next, Steps.run (System.step 64) sys cycle = some next ∧ Drained (count + 1) next := by
  obtain ⟨slots, accepted, taken, transfers, rfl, accepts, takes⟩ := drained
  have one : ((count + 1) % 18446744073709551616 + 18446744073709551616 - count) %
      18446744073709551616 = 1 := by omega
  refine ⟨_, ?_, Function.update slots (count % 2 ^ 64 &&& 1) 0, accepted ++ [0], taken ++ [none],
    transfers ++ [(1, 1)], rfl, by simp [accepts], by simp [takes]⟩
  simp [cycle, Steps.run, System.step, System.producerStep, System.consumerStep,
    ProducerCall.accepts, ProducerCall.alignment, SampleRing.available, SampleRing.slot,
    SampleRing.mask, wordAdd, small, one]

theorem two_slots : nextPowerOfTwo (max 2 2) = 2 := by
  rw [nextPowerOfTwo, Nat.max_self, Nat.clog_of_two_le (by omega) (by omega)]
  simp

theorem initial_drained : Drained 0 (initial 2) := by
  refine ⟨fun _ => 0, [], [], [], ?_, rfl, rfl⟩
  unfold initial SampleRing.new
  rw [two_slots]

theorem drained_cycles (count : Nat) (small : count < 18446744073709551616) :
    ∃ actions sys, Steps.run (System.step 64) (initial 2) actions = some sys ∧
      Drained count sys := by
  induction count with
  | zero => exact ⟨[], initial 2, rfl, initial_drained⟩
  | succ count ih =>
    obtain ⟨actions, sys, ran, drained⟩ := ih (by omega)
    obtain ⟨next, rans, drained⟩ := drained_cycle small drained
    exact ⟨actions ++ cycle, next, Steps.run_append.mpr ⟨sys, ran, rans⟩, drained⟩

/-- Two samples cross the word size, and a third one finds room that is not there. -/
theorem drained_overflow {sys : System Nat} (drained : Drained 18446744073709551615 sys) :
    ∃ next, Steps.run (System.step 64) sys [.produce (.pushSlice [1, 2]), .producer, .producer,
        .producer, .producer, .produce (.pushSlice [3]), .producer, .producer, .producer] =
          some next ∧ next.ring.capacity = 2 ∧
      next.accepted.length = next.taken.length + 3 := by
  obtain ⟨slots, accepted, taken, transfers, rfl, accepts, takes⟩ := drained
  simp [Steps.run, System.step, System.producerStep, ProducerCall.accepts,
    ProducerCall.alignment, SampleRing.available, wordAdd, accepts, takes]

theorem wrapped_counter_overwrites : ∃ actions sys,
    Steps.run (System.step 64) (initial (F := Nat) 2) actions = some sys ∧ ¬sys.Lossless 64 := by
  obtain ⟨actions, sys, ran, drained⟩ := drained_cycles 18446744073709551615 (by omega)
  obtain ⟨next, rans, capacity, lengths⟩ := drained_overflow drained
  refine ⟨actions ++ _, next, Steps.run_append.mpr ⟨sys, ran, rans⟩, fun lossless => ?_⟩
  have bounded := lossless.bounded
  omega

/-- A sample through a ring of two slots. -/
theorem ring_lossless_once : ∃ sys, Steps.run (System.step 64) (initial (F := Nat) 2)
    [.produce (.pushSlice [5]), .producer, .producer, .producer, .consume 1 1, .consumer, .consumer,
      .consumer] = some sys ∧ sys.taken = [some 5] ∧ sys.Lossless 64 := by
  refine ⟨_, rfl, rfl, ring_lossless 64 2 (by rw [two_slots]; omega)
    [.produce (.pushSlice [5]), .producer, .producer, .producer, .consume 1 1, .consumer, .consumer,
      .consumer] ?_ rfl⟩
  -- the read counter is zero until the last step
  have zero : ∀ {sys : System Nat} {action : Action Nat}, sys.ring.readIndex = 0 →
      sys.Unwrapped action := by
    intro sys action zero call write _ _
    rw [zero]
    exact Nat.zero_le _
  exact Steps.meets_cons (zero rfl) rfl <| Steps.meets_cons (zero rfl) rfl <|
    Steps.meets_cons (zero rfl) rfl <| Steps.meets_cons (zero rfl) rfl <|
    Steps.meets_cons (zero rfl) rfl <| Steps.meets_cons (zero rfl) rfl <|
    Steps.meets_cons (zero rfl) rfl <| Steps.meets_cons (zero rfl) rfl trivial

end System

end Onda.Cpal
