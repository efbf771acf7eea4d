import Onda.Rendering.Session

/-!
# The schedule of a block

A block with events should make one call for each event, and segments between them that partition
its frames.
-/

namespace Onda.Rendering

open Onda.Runtime
open RunSession (ScheduledEvent)

variable {W S V X : Type}

namespace Issue

/-- The segments among calls. -/
def segments : List (Issue X) → List (Nat × Nat × UInt32)
  | [] => []
  | .segment startFrame frames flags :: issues => (startFrame, frames, flags) :: segments issues
  | .event _ _ :: issues => segments issues

/-- The events among calls. -/
def events : List (Issue X) → List (String × List X)
  | [] => []
  | .segment _ _ _ :: issues => events issues
  | .event name values :: issues => (name, values) :: events issues

end Issue

/-- What an event dispatches. -/
def dispatched (event : ScheduledEvent X) : String × List X := (event.name, event.values)

/-- The calls that a block should make: a segment up to each event, and the rest of the block. -/
def schedule (blockSize : Nat) : List (ScheduledEvent X) → Nat → Bool → List (Issue X)
  | [], cursor, beganBlock =>
    [.segment cursor (blockSize - cursor)
      (if beganBlock then PROCESSOR_END_BLOCK else PROCESSOR_FULL_BLOCK)]
  | event :: events, cursor, beganBlock =>
    if cursor < event.frame then
      .segment cursor (event.frame - cursor) (if beganBlock then 0 else PROCESSOR_BEGIN_BLOCK)
        :: .event event.name event.values :: schedule blockSize events event.frame true
    else .event event.name event.values :: schedule blockSize events cursor beganBlock

/-- The segments follow each other from a frame to a frame. -/
def Tiles : Nat → List (Nat × Nat × UInt32) → Nat → Prop
  | first, [], last => first = last
  | first, segment :: segments, last =>
    segment.1 = first ∧ Tiles (first + segment.2.1) segments last

/-- The flags of a block's segments, or of the rest of a block that has begun. -/
inductive Flagged : Bool → List UInt32 → Prop where
  | full : Flagged false [PROCESSOR_FULL_BLOCK]
  | first {flags : List UInt32} : Flagged true flags → Flagged false (PROCESSOR_BEGIN_BLOCK :: flags)
  | between {flags : List UInt32} : Flagged true flags → Flagged true (0 :: flags)
  | last : Flagged true [PROCESSOR_END_BLOCK]

/-- A segment's flags begin a block, or end one. -/
def begins (flags : UInt32) : Bool := flags &&& PROCESSOR_BEGIN_BLOCK ≠ 0

def ends (flags : UInt32) : Bool := flags &&& PROCESSOR_END_BLOCK ≠ 0

/-- **One BEGIN and one END.** -/
theorem Flagged.counts {began : Bool} {flags : List UInt32} (flagged : Flagged began flags) :
    flags.countP begins = (if began then 0 else 1) ∧ flags.countP ends = 1 := by
  induction flagged with
  | full => decide
  | first _ ih =>
    rw [List.countP_cons, List.countP_cons, ih.1, ih.2]
    decide
  | between _ ih =>
    rw [List.countP_cons, List.countP_cons, ih.1, ih.2]
    decide
  | last => decide

/-- The frames of the events do not decrease from `cursor` on, and lie in the block. -/
def Ordered (blockSize : Nat) : Nat → List (ScheduledEvent X) → Prop
  | _, [] => True
  | cursor, event :: events =>
    cursor ≤ event.frame ∧ event.frame < blockSize ∧ Ordered blockSize event.frame events

/-! ### What the schedule does -/

variable {blockSize cursor : Nat} {beganBlock : Bool} {events : List (ScheduledEvent X)}

theorem ordered_iff :
    Ordered blockSize cursor events ↔ (∀ event ∈ events, event.frame < blockSize)
      ∧ events.Pairwise (fun earlier later => earlier.frame ≤ later.frame)
      ∧ ∀ event ∈ events, cursor ≤ event.frame := by
  induction events generalizing cursor with
  | nil => simp [Ordered]
  | cons event events ih =>
    rw [Ordered, ih, List.pairwise_cons]
    constructor
    · rintro ⟨after, inside, bounded, sorted, later⟩
      refine ⟨List.forall_mem_cons.2 ⟨inside, bounded⟩, ⟨later, sorted⟩,
        List.forall_mem_cons.2 ⟨after, fun other mem => after.trans (later other mem)⟩⟩
    · rintro ⟨bounded, ⟨later, sorted⟩, after⟩
      obtain ⟨inside, bounded⟩ := List.forall_mem_cons.1 bounded
      exact ⟨after event List.mem_cons_self, inside, bounded, sorted, later⟩

/-- **Partition.** The segments partition the frames from the cursor to the end of the block. -/
theorem schedule_tiles (ordered : Ordered blockSize cursor events) (inside : cursor ≤ blockSize) :
    Tiles cursor (Issue.segments (schedule blockSize events cursor beganBlock)) blockSize := by
  induction events generalizing cursor beganBlock with
  | nil => exact ⟨rfl, Nat.add_sub_cancel' inside⟩
  | cons event events ih =>
    obtain ⟨after, bounded, ordered⟩ := ordered
    rw [schedule]
    split
    · refine ⟨rfl, ?_⟩
      rw [Nat.add_sub_cancel' after]
      exact ih ordered bounded.le
    · rename_i reached
      obtain rfl : cursor = event.frame := Nat.le_antisymm after (Nat.le_of_not_lt reached)
      exact ih ordered inside

/-- No segment of the schedule is empty, in a block that is not. -/
theorem schedule_frames (ordered : Ordered blockSize cursor events) (inside : cursor < blockSize) :
    ∀ segment ∈ Issue.segments (schedule blockSize events cursor beganBlock), 0 < segment.2.1 := by
  induction events generalizing cursor beganBlock with
  | nil =>
    intro segment mem
    obtain rfl := List.mem_singleton.1 mem
    exact Nat.sub_pos_of_lt inside
  | cons event events ih =>
    obtain ⟨after, bounded, ordered⟩ := ordered
    rw [schedule]
    split
    · rename_i ahead
      exact List.forall_mem_cons.2 ⟨Nat.sub_pos_of_lt ahead, ih ordered bounded⟩
    · rename_i reached
      obtain rfl : cursor = event.frame := Nat.le_antisymm after (Nat.le_of_not_lt reached)
      exact ih ordered inside

theorem schedule_flags (blockSize : Nat) (events : List (ScheduledEvent X)) (cursor : Nat)
    (beganBlock : Bool) :
    Flagged beganBlock
      ((Issue.segments (schedule blockSize events cursor beganBlock)).map fun segment =>
        segment.2.2) := by
  induction events generalizing cursor beganBlock with
  | nil =>
    cases beganBlock
    · exact .full
    · exact .last
  | cons event events ih =>
    rw [schedule]
    split
    · cases beganBlock
      · exact .first (ih event.frame true)
      · exact .between (ih event.frame true)
    · exact ih cursor beganBlock

/-- **Dispatch.** Each event is dispatched once, in the order of the list. -/
theorem schedule_events (blockSize : Nat) (events : List (ScheduledEvent X)) (cursor : Nat)
    (beganBlock : Bool) :
    Issue.events (schedule blockSize events cursor beganBlock) = events.map dispatched := by
  induction events generalizing cursor beganBlock with
  | nil => rfl
  | cons event events ih =>
    rw [schedule]
    split
    · exact congrArg (dispatched event :: ·) (ih event.frame true)
    · exact congrArg (dispatched event :: ·) (ih cursor beganBlock)

/-- **Accuracy.** The segments before an event end at its frame, and the ones after it begin
there. -/
theorem schedule_at (ordered : Ordered blockSize cursor events)
    {earlier later : List (ScheduledEvent X)} {event : ScheduledEvent X}
    (listed : events = earlier ++ event :: later) :
    ∃ before after, schedule blockSize events cursor beganBlock
        = before ++ .event event.name event.values :: after
      ∧ Issue.events before = earlier.map dispatched ∧ Issue.events after = later.map dispatched
      ∧ Tiles cursor (Issue.segments before) event.frame
      ∧ Tiles event.frame (Issue.segments after) blockSize := by
  induction earlier generalizing events cursor beganBlock with
  | nil =>
    subst listed
    obtain ⟨after, bounded, ordered⟩ := ordered
    rw [List.nil_append, schedule]
    split
    · refine ⟨[_], _, rfl, rfl, schedule_events _ _ _ _, ⟨rfl, Nat.add_sub_cancel' after⟩, ?_⟩
      exact schedule_tiles ordered bounded.le
    · rename_i reached
      obtain rfl : cursor = event.frame := Nat.le_antisymm after (Nat.le_of_not_lt reached)
      exact ⟨[], _, rfl, rfl, schedule_events _ _ _ _, rfl, schedule_tiles ordered bounded.le⟩
  | cons other earlier ih =>
    subst listed
    obtain ⟨reachable, bounded, ordered⟩ := ordered
    rw [List.cons_append, schedule]
    split
    · obtain ⟨before, after, split, dispatches, rest, tiles, tail⟩ :=
        @ih _ true _ ordered rfl
      refine ⟨_ :: _ :: before, after, congrArg (_ :: _ :: ·) split, congrArg (_ :: ·) dispatches,
        rest, ⟨rfl, ?_⟩, tail⟩
      rw [Nat.add_sub_cancel' reachable]
      exact tiles
    · rename_i reached
      obtain rfl : cursor = other.frame := Nat.le_antisymm reachable (Nat.le_of_not_lt reached)
      obtain ⟨before, after, split, dispatches, rest, tiles, tail⟩ :=
        @ih _ beganBlock _ ordered rfl
      exact ⟨_ :: before, after, congrArg (_ :: ·) split, congrArg (_ :: ·) dispatches, rest, tiles,
        tail⟩

end Onda.Rendering
