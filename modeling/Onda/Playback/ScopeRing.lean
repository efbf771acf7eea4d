import Mathlib.Data.List.Basic
import Mathlib.Data.Nat.ModEq

/-!
# The scope ring

The ring keeps the latest samples of the rendered output for the scope view.  Its write position and
its size count samples, its counter counts frames.
-/

namespace Onda.Playback

variable {S : Type}

/-- `ScopeRing`. -/
structure ScopeRing (S : Type) where
  buffer : List S
  channels : Nat
  writePos : Nat
  framesWritten : Nat

/-- `ScopeSnapshot`. -/
structure ScopeSnapshot (S : Type) where
  channels : Nat
  samples : List S

/-- `a + b` on `usize`: an overflowing sum is a panic. -/
def checkedSum (usizeMax left right : Nat) : Option Nat :=
  if left + right ≤ usizeMax then some (left + right) else none

/-- `a % b`: a panic for the divisor zero. -/
def checkedRem (value divisor : Nat) : Option Nat :=
  if divisor = 0 then none else some (value % divisor)

namespace ScopeRing

/-- `ScopeRing::new`: a panic if the buffer cannot be allocated. -/
def new (usizeMax : Nat) (zero : S) (capacityFrames channels : Nat) : Option (ScopeRing S) :=
  if capacityFrames * channels * 4 ≤ usizeMax / 2 then
    some ⟨List.replicate (capacityFrames * channels) zero, channels, 0, 0⟩
  else none

/-- The loop of `push_interleaved`. -/
def write (writePos : Nat) (buffer : List S) (samples : List S) : List S :=
  samples.zipIdx.foldl (fun buffer entry => buffer.set ((writePos + entry.2) % buffer.length) entry.1)
    buffer

/-- `push_interleaved`. -/
def pushInterleaved (usizeMax : Nat) (ring : ScopeRing S) (samples : List S) :
    Option (ScopeRing S) :=
  if ring.buffer.length = 0 then some ring
  else do
    let after ← checkedSum usizeMax ring.writePos samples.length
    let framesWritten ← checkedSum usizeMax ring.framesWritten (samples.length / max ring.channels 1)
    some
      { ring with
        buffer := write ring.writePos ring.buffer samples
        writePos := after % ring.buffer.length
        framesWritten := framesWritten }

/-- `snapshot`. -/
def snapshot (usizeMax : Nat) (ring : ScopeRing S) (maxFrames : Nat) : Option (ScopeSnapshot S) := do
  let totalFrames := ring.buffer.length / max ring.channels 1
  let available := min totalFrames ring.framesWritten
  let frames := min maxFrames available
  let sampleCount := frames * ring.channels
  let ends ← checkedSum usizeMax ring.writePos ring.buffer.length
  let start ← checkedRem (ends - sampleCount) ring.buffer.length
  let samples ← (List.range sampleCount).mapM fun index =>
    (checkedRem (start + index) ring.buffer.length).bind fun place => ring.buffer[place]?
  some ⟨ring.channels, samples⟩

/-- A new ring and pushes into it. -/
def pushAll (usizeMax : Nat) : ScopeRing S → List (List S) → Option (ScopeRing S)
  | ring, [] => some ring
  | ring, samples :: pushes => (ring.pushInterleaved usizeMax samples).bind (pushAll usizeMax · pushes)

end ScopeRing

/-! ### The latest frames -/

/-- The last `min maxFrames capacity` frames of a history, or all of them. -/
def latest (history : List S) (capacityFrames channels maxFrames : Nat) : ScopeSnapshot S :=
  ⟨channels, history.drop (history.length
    - min maxFrames (min capacityFrames (history.length / max channels 1)) * channels)⟩

/-- The buffer has the end of a history, each sample at its place. -/
structure KeepsEnd (buffer history : List S) : Prop where
  nonempty : 0 < buffer.length
  sample : ∀ place, history.length - buffer.length ≤ place → place < history.length →
    buffer[place % buffer.length]? = history[place]?

theorem KeepsEnd.push {buffer history : List S} (holds : KeepsEnd buffer history) (sample : S) :
    KeepsEnd (buffer.set (history.length % buffer.length) sample) (history ++ [sample]) := by
  have here : history.length % buffer.length < buffer.length := Nat.mod_lt _ holds.nonempty
  refine ⟨by rw [List.length_set]; exact holds.nonempty, fun place recent inside => ?_⟩
  rw [List.length_set, List.length_append, List.length_singleton] at *
  rcases Nat.lt_succ_iff_lt_or_eq.1 inside with before | rfl
  · -- Another sample among the last ones has another place.
    have apart : history.length % buffer.length ≠ place % buffer.length := by
      intro same
      have divides := (Nat.modEq_iff_dvd' before.le).1 same.symm
      exact absurd (Nat.le_of_dvd (Nat.sub_pos_of_lt before) divides) (by omega)
    rw [List.getElem?_set_ne apart, List.getElem?_append_left before]
    exact holds.sample place (by omega) before
  · rw [List.getElem?_set_self here, List.getElem?_append_right (Nat.le_refl _), Nat.sub_self]
    rfl

theorem KeepsEnd.write {buffer history : List S} (holds : KeepsEnd buffer history) (samples : List S) :
    (ScopeRing.write (history.length % buffer.length) buffer samples).length = buffer.length
      ∧ KeepsEnd (ScopeRing.write (history.length % buffer.length) buffer samples) (history ++ samples) := by
  have loop : ∀ (samples : List S) (first : Nat) (buffer' history' : List S), KeepsEnd buffer' history' →
      buffer'.length = buffer.length → history'.length = history.length + first →
      ((samples.zipIdx first).foldl (fun buffer' entry =>
          buffer'.set ((history.length % buffer.length + entry.2) % buffer'.length) entry.1)
        buffer').length = buffer.length
      ∧ KeepsEnd ((samples.zipIdx first).foldl (fun buffer' entry =>
          buffer'.set ((history.length % buffer.length + entry.2) % buffer'.length) entry.1) buffer')
        (history' ++ samples) := by
    intro samples
    induction samples with
    | nil =>
      intro first buffer' history' holds same _
      rw [List.append_nil]
      exact ⟨same, holds⟩
    | cons sample samples ih =>
      intro first buffer' history' holds same count
      rw [List.zipIdx_cons, List.foldl_cons]
      have place : (history.length % buffer.length + first) % buffer'.length
          = history'.length % buffer'.length := by
        rw [same, Nat.mod_add_mod, count]
      dsimp only
      rw [place]
      have next := ih (first + 1) _ (history' ++ [sample]) (holds.push sample)
        (by rw [List.length_set, same]) (by rw [List.length_append, List.length_singleton]; omega)
      rwa [List.append_assoc, List.singleton_append] at next
  exact loop samples 0 buffer history holds rfl rfl

/-! ### Runs -/

/-- A ring with at least one sample shows what has been pushed. -/
structure Shows (usizeMax capacityFrames channels : Nat) (ring : ScopeRing S) (history : List S) :
    Prop where
  size : ring.buffer.length = capacityFrames * channels
  width : ring.channels = channels
  allocated : capacityFrames * channels * 4 ≤ usizeMax / 2
  whole : channels ∣ history.length
  written : ring.framesWritten = history.length / channels
  position : ring.writePos = history.length % ring.buffer.length
  holds : KeepsEnd ring.buffer history

section Runs

variable {usizeMax capacityFrames channels : Nat} {zero : S} {ring : ScopeRing S} {history : List S}

theorem Shows.channels_pos (shows : Shows usizeMax capacityFrames channels ring history) :
    0 < channels := by
  have positive := shows.holds.nonempty
  rw [shows.size] at positive
  exact Nat.pos_of_mul_pos_left positive

theorem Shows.new (created : ScopeRing.new usizeMax zero capacityFrames channels = some ring)
    (positive : 0 < capacityFrames * channels) :
    Shows usizeMax capacityFrames channels ring [] := by
  unfold ScopeRing.new at created
  split at created
  · rename_i allocated
    obtain rfl := Option.some.inj created
    refine ⟨List.length_replicate, rfl, allocated, Nat.dvd_zero _, (Nat.zero_div _).symm,
      (Nat.zero_mod _).symm, ?_, fun place _ inside => absurd inside (Nat.not_lt_zero _)⟩
    rwa [List.length_replicate]
  · cases created

/-- **One push.** -/
theorem Shows.push {samples : List S} {next : ScopeRing S}
    (shows : Shows usizeMax capacityFrames channels ring history) (whole : channels ∣ samples.length)
    (pushed : ring.pushInterleaved usizeMax samples = some next) :
    Shows usizeMax capacityFrames channels next (history ++ samples) := by
  have nonempty := shows.holds.nonempty
  have positive := shows.channels_pos
  unfold ScopeRing.pushInterleaved at pushed
  rw [if_neg nonempty.ne'] at pushed
  obtain ⟨after, ended, pushed⟩ := Option.bind_eq_some_iff.1 pushed
  obtain ⟨framesWritten, counted, pushed⟩ := Option.bind_eq_some_iff.1 pushed
  obtain rfl := Option.some.inj pushed
  unfold checkedSum at ended counted
  split at ended
  · split at counted
    · obtain rfl := Option.some.inj ended
      obtain rfl := Option.some.inj counted
      obtain ⟨same, holds⟩ := shows.holds.write samples
      rw [← shows.position] at same holds
      refine ⟨same.trans shows.size, shows.width, shows.allocated, ?_, ?_, ?_, holds⟩
      · rw [List.length_append]
        exact Nat.dvd_add shows.whole whole
      · dsimp only
        rw [shows.written, shows.width, max_eq_left positive, List.length_append,
          Nat.add_div_of_dvd_right shows.whole]
      · dsimp only
        rw [same, shows.position, List.length_append, Nat.mod_add_mod]
    · cases counted
  · cases ended

/-- **A run.** -/
theorem Shows.pushAll {pushes : List (List S)} {last : ScopeRing S}
    (shows : Shows usizeMax capacityFrames channels ring history)
    (whole : ∀ samples ∈ pushes, channels ∣ samples.length)
    (pushed : ring.pushAll usizeMax pushes = some last) :
    Shows usizeMax capacityFrames channels last (history ++ pushes.flatten) := by
  induction pushes generalizing ring history with
  | nil =>
    obtain rfl := Option.some.inj pushed
    rwa [List.flatten_nil, List.append_nil]
  | cons samples pushes ih =>
    obtain ⟨here, whole⟩ := List.forall_mem_cons.1 whole
    obtain ⟨next, first, rest⟩ := Option.bind_eq_some_iff.1 pushed
    have shown := ih (shows.push here first) whole rest
    rwa [List.append_assoc] at shown

/-- A place that is counted back from the end of the history. -/
theorem place_eq {size length count index : Nat} (fits : count ≤ size) (enough : count ≤ length) :
    ((length % size + size - count) % size + index) % size = (length - count + index) % size := by
  have split := Nat.div_add_mod length size
  have turns : length % size + size - count + index + size * (length / size)
      = length - count + index + size := by omega
  calc ((length % size + size - count) % size + index) % size
      = (length % size + size - count + index) % size := Nat.mod_add_mod _ _ _
    _ = (length % size + size - count + index + size * (length / size)) % size :=
        (Nat.add_mul_mod_self_left _ _ _).symm
    _ = (length - count + index + size) % size := by rw [turns]
    _ = (length - count + index) % size := Nat.add_mod_right _ _

theorem mapM_range' {items : List S} {first : Nat} {f : Nat → Option S}
    (each : ∀ index < items.length, f (first + index) = items[index]?) :
    (List.range' first items.length).mapM f = some items := by
  induction items generalizing first with
  | nil => rfl
  | cons item items ih =>
    have here : f first = some item := each 0 (Nat.succ_pos _)
    have rest : (List.range' (first + 1) items.length).mapM f = some items := by
      refine ih fun index inside => ?_
      have next := each (index + 1) (Nat.succ_lt_succ inside)
      rwa [List.getElem?_cons_succ, ← Nat.add_assoc, Nat.add_right_comm] at next
    rw [List.length_cons, List.range'_succ, List.mapM_cons, here, rest]
    rfl

/-- What a ring shows. -/
theorem Shows.snapshot (shows : Shows usizeMax capacityFrames channels ring history) (maxFrames : Nat) :
    ring.snapshot usizeMax maxFrames = some (latest history capacityFrames channels maxFrames) := by
  have nonempty := shows.holds.nonempty
  have positive := shows.channels_pos
  have total : ring.buffer.length / max ring.channels 1 = capacityFrames := by
    rw [shows.size, shows.width, max_eq_left positive, Nat.mul_div_cancel _ positive]
  have fits : ring.writePos + ring.buffer.length ≤ usizeMax := by
    have place : ring.writePos < ring.buffer.length := shows.position ▸ Nat.mod_lt _ nonempty
    have allocated := shows.allocated
    rw [← shows.size] at allocated
    omega
  unfold ScopeRing.snapshot latest
  dsimp only
  rw [total, shows.written, shows.width, max_eq_left positive, checkedSum, if_pos fits]
  generalize taken : min maxFrames (min capacityFrames (history.length / channels)) = frames
  have inRing : frames * channels ≤ ring.buffer.length := by
    rw [shows.size, ← taken]
    exact Nat.mul_le_mul_right _ ((Nat.min_le_right _ _).trans (Nat.min_le_left _ _))
  have pushed : frames * channels ≤ history.length := by
    rw [← taken]
    exact (Nat.mul_le_mul_right _ ((Nat.min_le_right _ _).trans (Nat.min_le_right _ _))).trans
      (Nat.div_mul_le_self _ _)
  have length : (history.drop (history.length - frames * channels)).length = frames * channels := by
    rw [List.length_drop]
    omega
  have samples := @mapM_range' S (history.drop (history.length - frames * channels)) 0
    (fun index => (checkedRem
      ((ring.writePos + ring.buffer.length - frames * channels) % ring.buffer.length + index)
      ring.buffer.length).bind fun place => ring.buffer[place]?) (by
        intro index inside
        rw [length] at inside
        rw [Nat.zero_add, checkedRem, if_neg nonempty.ne', Option.bind_some, shows.position,
          place_eq inRing pushed, List.getElem?_drop]
        exact shows.holds.sample _ (by omega) (by omega))
  rw [length, ← List.range_eq_range'] at samples
  rw [Option.bind_eq_bind, Option.bind_some, checkedRem, if_neg nonempty.ne', Option.bind_eq_bind,
    Option.bind_some, samples]
  rfl

/-- A ring without samples. -/
theorem snapshot_empty (empty : ring.buffer.length = 0) (maxFrames : Nat) :
    ring.snapshot usizeMax maxFrames = none := by
  have stops : ∀ value, checkedRem value ring.buffer.length = none := fun value => if_pos empty
  unfold ScopeRing.snapshot
  dsimp only
  cases checkedSum usizeMax ring.writePos ring.buffer.length with
  | none => rfl
  | some ends =>
    rw [Option.bind_eq_bind, Option.bind_some, stops]
    rfl

theorem pushAll_empty (empty : ring.buffer.length = 0) (pushes : List (List S)) :
    ring.pushAll usizeMax pushes = some ring := by
  induction pushes with
  | nil => rfl
  | cons samples pushes ih =>
    rw [ScopeRing.pushAll, ScopeRing.pushInterleaved, if_pos empty]
    exact ih

end Runs

end Onda.Playback
