import Onda.WebAudio.Worklet

/-!
# The host drives one continuous stream

`Stream` says of the calls that each begins at the cursor and moves it, and that a failed call moves
it to the beginning of a block.  Whole blocks follow from it.
-/

namespace Onda.WebAudio.Host

variable {S V J : Type} {code : Code S V J} {size : Nat}

/-! ### Blocks -/

/-- A segment that begins at a cursor. -/
structure Segment.At (size cursor : Nat) (segment : Segment V) : Prop where
  start : segment.startFrame = cursor
  positive : 0 < segment.frames
  inside : cursor + segment.frames ≤ size
  begins : segment.beginsBlock = decide (cursor = 0)
  ends : segment.endsBlock = decide (cursor + segment.frames = size)

/-- The cursor after a segment. -/
def Segment.next (size cursor : Nat) (segment : Segment V) : Nat :=
  if cursor + segment.frames = size then 0 else cursor + segment.frames

/-- The calls, from one cursor to another. -/
def Stream (size : Nat) : Nat → List (Event V) → Nat → Prop
  | first, [], last => first = last
  | first, .segment segment :: events, last =>
    segment.At size first ∧ Stream size (segment.next size first) events last
  | _, .reset :: events, last => Stream size 0 events last

variable {segments : List (Segment V)} {first : Nat} {worklet : Worklet S V J}

theorem stream_append {last : Nat} {before after : List (Event V)} :
    Stream size first (before ++ after) last ↔
      ∃ middle, Stream size first before middle ∧ Stream size middle after last := by
  induction before generalizing first with
  | nil =>
    constructor
    · exact fun stream => ⟨first, rfl, stream⟩
    · rintro ⟨middle, rfl, stream⟩
      exact stream
  | cons event before ih =>
    cases event with
    | reset => exact ih
    | segment segment =>
      constructor
      · rintro ⟨here, stream⟩
        obtain ⟨middle, front, back⟩ := ih.mp stream
        exact ⟨middle, ⟨here, front⟩, back⟩
      · rintro ⟨middle, ⟨here, front⟩, back⟩
        exact ⟨here, ih.mpr ⟨middle, front, back⟩⟩

/-- Segments whose flags agree with their place in the block. -/
def Flagged (size : Nat) (segments : List (Segment V)) : Prop :=
  ∀ segment ∈ segments, segment.beginsBlock = decide (segment.startFrame = 0) ∧
    segment.endsBlock = decide (segment.startFrame + segment.frames = size)

/-- A stream without resets finishes a block and continues with whole ones, or stays in it. -/
theorem stream_split {last : Nat} (inside : first < size)
    (stream : Stream size first (segments.map Event.segment) last) :
    last < size ∧ Flagged size segments ∧
      (Covers first last segments ∨ ∃ (head : List (Segment V)) (blocks : List (List (Segment V)))
        (rest : List (Segment V)), segments = head ++ blocks.flatten ++ rest ∧ head ≠ [] ∧
          Covers first size head ∧ (∀ block ∈ blocks, block ≠ [] ∧ Covers 0 size block) ∧
            Covers 0 last rest) := by
  induction segments generalizing first with
  | nil =>
    obtain rfl : first = last := stream
    exact ⟨inside, fun _ mem => (by cases mem), .inl rfl⟩
  | cons segment segments ih =>
    obtain ⟨here, stream⟩ := stream
    have flags : segment.beginsBlock = decide (segment.startFrame = 0) ∧
        segment.endsBlock = decide (segment.startFrame + segment.frames = size) := by
      rw [here.start]
      exact ⟨here.begins, here.ends⟩
    have flagged : ∀ {rest : List (Segment V)}, Flagged size rest →
        Flagged size (segment :: rest) := by
      intro rest flagged other mem
      rcases List.mem_cons.mp mem with rfl | mem
      · exact flags
      · exact flagged other mem
    by_cases ends : first + segment.frames = size
    · rw [Segment.next, if_pos ends] at stream
      obtain ⟨below, rest, split⟩ := ih (Nat.lt_of_le_of_lt (Nat.zero_le _) inside) stream
      have single : Covers first size [segment] := ⟨here.start, here.positive, ends⟩
      refine ⟨below, flagged rest, .inr ?_⟩
      rcases split with covers | ⟨head, blocks, tail, rfl, some, whole, all, covers⟩
      · exact ⟨[segment], [], segments, rfl, List.cons_ne_nil _ _, single,
          fun _ mem => (by cases mem), covers⟩
      · refine ⟨[segment], head :: blocks, tail, by simp, List.cons_ne_nil _ _, single,
          fun block mem => ?_, covers⟩
        rcases List.mem_cons.mp mem with rfl | mem
        · exact ⟨some, whole⟩
        · exact all block mem
    · rw [Segment.next, if_neg ends] at stream
      have le := here.inside
      obtain ⟨below, rest, split⟩ := ih (by omega) stream
      refine ⟨below, flagged rest, ?_⟩
      rcases split with covers | ⟨head, blocks, tail, rfl, some, whole, all, covers⟩
      · exact .inl ⟨here.start, here.positive, covers⟩
      · exact .inr ⟨segment :: head, blocks, tail, rfl, List.cons_ne_nil _ _,
          ⟨here.start, here.positive, whole⟩, all, covers⟩

theorem Covers.bounds {last : Nat} (covers : Covers first last segments)
    : first ≤ last ∧ ∀ segment ∈ segments,
      first ≤ segment.startFrame ∧ 0 < segment.frames ∧
        segment.startFrame + segment.frames ≤ last := by
  induction segments generalizing first with
  | nil => exact ⟨Nat.le_of_eq covers, fun _ mem => by cases mem⟩
  | cons segment segments ih =>
    obtain ⟨start, positive, covers⟩ := covers
    obtain ⟨le, rest⟩ := ih covers
    refine ⟨by omega, fun other mem => ?_⟩
    rcases List.mem_cons.mp mem with rfl | mem
    · omega
    · have bounds := rest other mem
      omega

/-- The last segment of a part. -/
theorem Covers.last {last : Nat} {segment : Segment V}
    (covers : Covers first last (segments ++ [segment])) :
    Covers first segment.startFrame segments ∧ segment.startFrame + segment.frames = last := by
  induction segments generalizing first with
  | nil => exact ⟨covers.1.symm, by rw [covers.1]; exact covers.2.2⟩
  | cons other segments ih =>
    obtain ⟨start, positive, covers⟩ := covers
    obtain ⟨before, ends⟩ := ih covers
    exact ⟨⟨start, positive, before⟩, ends⟩

/-- Only the first segment of a part that begins a block begins it. -/
theorem Covers.first_begins {last : Nat} {segment : Segment V} {rest : List (Segment V)}
    (covers : Covers 0 last (segment :: rest)) (flagged : Flagged size (segment :: rest)) :
    segment.beginsBlock = true ∧ ∀ other ∈ rest, other.beginsBlock = false := by
  obtain ⟨start, positive, covers⟩ := covers
  refine ⟨?_, fun other mem => ?_⟩
  · rw [(flagged segment List.mem_cons_self).1, start]
    rfl
  · have bounds := covers.bounds.2 other mem
    rw [(flagged other (List.mem_cons_of_mem _ mem)).1, decide_eq_false_iff_not]
    omega

theorem isBlock (some : segments ≠ []) (covers : Covers 0 size segments)
    (flagged : Flagged size segments) : IsBlock size segments where
  covers := covers
  first := by
    obtain ⟨segment, rest, rfl⟩ := List.exists_cons_of_ne_nil some
    exact ⟨segment, rest, rfl, covers.first_begins flagged⟩
  last := by
    obtain ⟨rest, segment, rfl⟩ : ∃ rest segment, segments = rest ++ [segment] :=
      ⟨segments.dropLast, segments.getLast some, (List.dropLast_concat_getLast some).symm⟩
    obtain ⟨before, ends⟩ := covers.last
    have positive := (covers.bounds.2 segment (by simp)).2.1
    refine ⟨rest, segment, rfl, ?_, fun other mem => ?_⟩
    · rw [(flagged segment (by simp)).2, ends]
      exact decide_eq_true rfl
    · have bounds := before.bounds.2 other mem
      rw [(flagged other (List.mem_append_left _ mem)).2, decide_eq_false_iff_not]
      omega

theorem isPartial {cursor : Nat} (covers : Covers 0 cursor segments) (inside : cursor < size)
    (flagged : Flagged size segments) :
    IsPartial size cursor segments where
  covers := covers
  inside := inside
  first := by
    rintro segment rest rfl
    exact covers.first_begins flagged
  unended := by
    intro segment mem
    have bounds := covers.bounds.2 segment mem
    rw [(flagged segment mem).2, decide_eq_false_iff_not]
    omega

/-- A stream that begins a block is made of whole blocks and one that is not complete. -/
theorem stream_blocks {last : Nat} (positive : 0 < size)
    (stream : Stream size 0 (segments.map Event.segment) last) :
    ∃ (blocks : List (List (Segment V))) (rest : List (Segment V)),
      segments = blocks.flatten ++ rest ∧ (∀ block ∈ blocks, IsBlock size block) ∧
        IsPartial size last rest := by
  obtain ⟨below, flagged, covers | ⟨head, blocks, rest, rfl, some, whole, all, covers⟩⟩ :=
    stream_split positive stream
  · exact ⟨[], segments, rfl, fun _ mem => (by cases mem), isPartial covers below flagged⟩
  · refine ⟨head :: blocks, rest, by simp, fun block mem => ?_,
      isPartial covers below fun segment mem => flagged segment (by simp [mem])⟩
    rcases List.mem_cons.mp mem with rfl | mem
    · exact isBlock some whole fun segment mem => flagged segment (by simp [mem])
    · obtain ⟨some, whole⟩ := all block mem
      refine isBlock some whole fun segment inside => flagged segment ?_
      simp only [List.mem_append, List.mem_flatten]
      exact .inl (.inr ⟨block, mem, inside⟩)

/-! ### Callbacks -/

theorem Tiles.bounds {last : Nat} (tiles : Tiles first last segments) : ∀ segment ∈ segments,
      segment.callbackOffset + segment.frames ≤ last ∧ first + segment.frames ≤ last := by
  induction segments generalizing first with
  | nil => exact fun _ mem => by cases mem
  | cons segment segments ih =>
    obtain ⟨start, positive, tiles⟩ := tiles
    have rest := ih tiles
    have ends : first + segment.frames ≤ last := by
      rcases segments with _ | ⟨other, segments⟩
      · exact Nat.le_of_eq tiles
      · have bounds := rest other List.mem_cons_self
        omega
    intro other mem
    rcases List.mem_cons.mp mem with rfl | mem
    · omega
    · have bounds := rest other mem
      omega

theorem Tiles.add {last : Nat} (tiles : Tiles first last segments) {segment : Segment V}
    (start : segment.callbackOffset = last) (positive : 0 < segment.frames) :
    Tiles first (last + segment.frames) (segments ++ [segment]) := by
  induction segments generalizing first with
  | nil =>
    obtain rfl : first = last := tiles
    exact ⟨start, positive, rfl⟩
  | cons other segments ih => exact ⟨tiles.1, tiles.2.1, ih tiles.2.2⟩

/-- What holds between two calls of a worklet. -/
structure Worklet.Steady (code : Code S V J) (worklet : Worklet S V J) : Prop where
  cursor : worklet.blockCursor < code.blockSize
  stream : Stream code.blockSize 0 worklet.log worklet.blockCursor

/-- What holds between two segments of a callback. -/
structure Round.Sound (code : Code S V J) (callback : Callback J) (before : Worklet S V J)
    (round : Round S V J) : Prop where
  steady : round.worklet.Steady code
  pending : round.worklet.initialized = false → round.worklet.blockCursor = 0
  ready : round.failed = false → round.worklet.initialized = true
  offset : round.callbackOffset ≤ callback.frames
  renderings : round.worklet.renderings = before.renderings
  calls : round.worklet.log.filterMap Event.segment? =
    before.log.filterMap Event.segment? ++ round.segments
  silent : round.failed = true → ∀ channel frame, round.heard channel frame = code.silence
  tiles : round.failed = false → Tiles 0 round.callbackOffset round.segments
  carries : round.failed = false → ∀ segment ∈ round.segments,
    Carries code ⟨callback, .rendered, round.segments, round.heard⟩ segment

theorem Worklet.Steady.fail (steady : worklet.Steady code) :
    worklet.fail.Steady code where
  cursor := code.positive
  stream := stream_append.mpr ⟨_, steady.stream, rfl⟩

/-- The call for the next segment is at the cursor. -/
theorem invoke_at (callback : Callback J) {round : Round S V J}
    (steady : round.worklet.Steady code) (left : round.callbackOffset < callback.frames) :
    (Worklet.invokeProcessSegment code callback round).1.At code.blockSize
      round.worklet.blockCursor where
  start := rfl
  positive := by
    have cursor := steady.cursor
    show 0 < Worklet.nextFrames code callback round
    unfold Worklet.nextFrames
    omega
  inside := by
    have cursor := steady.cursor
    show round.worklet.blockCursor + Worklet.nextFrames code callback round ≤ code.blockSize
    unfold Worklet.nextFrames
    omega
  begins := rfl
  ends := rfl

theorem invoke_received (callback : Callback J) (round : Round S V J) {channel frame : Nat}
    (used : channel < code.inputCount)
    (inside : frame < (Worklet.invokeProcessSegment code callback round).1.frames) :
    (Worklet.invokeProcessSegment code callback round).1.inputs channel
        ((Worklet.invokeProcessSegment code callback round).1.startFrame + frame) =
      Worklet.inputFrame code callback channel (round.callbackOffset + frame) := by
  have frames : frame < Worklet.nextFrames code callback round := inside
  show Worklet.marshalInputSegment code callback round.callbackOffset round.worklet.blockCursor
    (Worklet.nextFrames code callback round) round.worklet.inputs channel
      (round.worklet.blockCursor + frame) = _
  unfold Worklet.marshalInputSegment
  rw [if_pos ⟨used, by omega, by omega⟩, Nat.add_sub_cancel_left]

variable {callback : Callback J} {before : Worklet S V J} {round : Round S V J}

/-- A segment that is complete. -/
theorem Round.Sound.completed (sound : round.Sound code callback before)
    (left : round.callbackOffset < callback.frames) (going : round.failed = false)
    {segment : Segment V} (at_ : segment.At code.blockSize round.worklet.blockCursor)
    (fits : segment.frames ≤ callback.frames - round.callbackOffset)
    (place : segment.callbackOffset = round.callbackOffset)
    (received : ∀ channel < code.inputCount, ∀ frame < segment.frames,
      segment.inputs channel (segment.startFrame + frame) =
        Worklet.inputFrame code callback channel (segment.callbackOffset + frame))
    (initialized : worklet.initialized = round.worklet.initialized)
    (cursor : worklet.blockCursor = segment.next code.blockSize round.worklet.blockCursor)
    (log : worklet.log = round.worklet.log ++ [.segment segment])
    (renderings : worklet.renderings = round.worklet.renderings) :
    Round.Sound code callback before
      { worklet := worklet
        callbackOffset := round.callbackOffset + segment.frames
        segments := round.segments ++ [segment]
        heard := Worklet.marshalOutputSegment code segment.outputs round.callbackOffset
          segment.startFrame segment.frames round.heard
        failed := false } where
  steady :=
    { cursor := by
        have inside := at_.inside
        rw [cursor, Segment.next]
        split
        · exact code.positive
        · omega
      stream := by
        rw [log, cursor]
        exact stream_append.mpr ⟨_, sound.steady.stream, at_, rfl⟩ }
  pending := by
    intro pending
    dsimp only at pending
    rw [initialized, sound.ready going] at pending
    cases pending
  ready := fun _ => initialized.trans (sound.ready going)
  offset := by
    dsimp only
    omega
  renderings := renderings.trans sound.renderings
  calls := by
    dsimp only
    rw [log, List.filterMap_append, sound.calls, List.append_assoc]
    rfl
  silent := fun failed => by cases failed
  tiles := fun _ => (sound.tiles going).add place at_.positive
  carries := by
    intro _ other mem
    rcases List.mem_append.mp mem with old | new
    · have carries := sound.carries going other old
      have bounds := ((sound.tiles going).bounds other old).1
      -- the frames of earlier segments lie before this one
      refine ⟨carries.received, fun channel used frame inside => ?_,
        fun channel unused frame inside => ?_⟩
      · dsimp only
        rw [Worklet.marshalOutputSegment, if_neg (by omega)]
        exact carries.delivered channel used frame inside
      · dsimp only
        rw [Worklet.marshalOutputSegment, if_neg (by omega)]
        exact carries.unused channel unused frame inside
    · obtain rfl := List.mem_singleton.mp new
      refine ⟨received, fun channel used frame inside => ?_,
        fun channel unused frame inside => ?_⟩
      · dsimp only
        rw [Worklet.marshalOutputSegment, place, if_pos (by omega), if_pos used,
          Nat.add_sub_cancel_left]
      · dsimp only
        rw [Worklet.marshalOutputSegment, place, if_pos (by omega), if_neg (by omega)]

/-- One round of the loop. -/
theorem Round.Sound.segment (sound : round.Sound code callback before)
    (left : round.callbackOffset < callback.frames) (going : round.failed = false) :
    (Worklet.processSegment code callback round).Sound code callback before := by
  have at_ := invoke_at callback sound.steady left
  unfold Worklet.processSegment
  dsimp only
  split
  · refine sound.completed left going at_ ?_ rfl
      (fun channel used frame inside => invoke_received callback round used inside) rfl ?_ rfl rfl
    · show Worklet.nextFrames code callback round ≤ _
      exact Nat.min_le_left _ _
    · dsimp only
      rw [at_.ends, at_.start, Segment.next]
      simp only [decide_eq_true_eq]
  · refine
      { steady := ?_
        pending := fun _ => rfl
        ready := fun failed => by cases failed
        offset := sound.offset
        renderings := sound.renderings
        calls := ?_
        silent := fun _ _ _ => rfl
        tiles := fun failed => by cases failed
        carries := fun failed => by cases failed }
    · refine ⟨code.positive, ?_⟩
      exact stream_append.mpr ⟨_, stream_append.mpr ⟨_, sound.steady.stream, at_, rfl⟩, rfl⟩
    · dsimp only [Worklet.fail]
      rw [List.filterMap_append, List.filterMap_append, sound.calls, List.append_assoc,
        List.append_assoc]
      rfl

/-- A round takes at least one frame, or fails. -/
theorem segment_advances (steady : round.worklet.Steady code)
    (left : round.callbackOffset < callback.frames) :
    (Worklet.processSegment code callback round).failed = true ∨
      round.callbackOffset < (Worklet.processSegment code callback round).callbackOffset := by
  have positive := (invoke_at callback steady left).positive
  unfold Worklet.processSegment
  dsimp only
  split
  · exact .inr (Nat.lt_add_of_pos_right positive)
  · exact .inl rfl

theorem loop_failed (fuel : Nat) (failed : round.failed = true) :
    Worklet.processLoop code callback fuel round = round := by
  cases fuel with
  | zero => rfl
  | succ fuel =>
    unfold Worklet.processLoop
    rw [if_neg (by simp [failed])]

theorem Round.Sound.loop (fuel : Nat) (sound : round.Sound code callback before)
    (enough : callback.frames ≤ round.callbackOffset + fuel) :
    (Worklet.processLoop code callback fuel round).Sound code callback before ∧
      ((Worklet.processLoop code callback fuel round).failed = false →
        (Worklet.processLoop code callback fuel round).callbackOffset = callback.frames) := by
  induction fuel generalizing round with
  | zero =>
    refine ⟨sound, fun _ => ?_⟩
    exact Nat.le_antisymm sound.offset enough
  | succ fuel ih =>
    unfold Worklet.processLoop
    split
    · rename_i here
      have next := sound.segment here.1 here.2
      rcases @segment_advances _ _ _ _ callback _ sound.steady here.1 with failed | advances
      · rw [loop_failed fuel failed]
        exact ⟨next, fun going => by rw [going] at failed; cases failed⟩
      · exact ih next (by omega)
    · rename_i done
      refine ⟨sound, fun going => ?_⟩
      have offset := sound.offset
      have all : ¬round.callbackOffset < callback.frames := fun less => done ⟨less, going⟩
      omega

/-! ### Runs -/

namespace Worklet

variable {worklet next : Worklet S V J}

/-- What holds of every state. -/
structure Sound (code : Code S V J) (worklet : Worklet S V J) : Prop where
  steady : worklet.Steady code
  pending : worklet.initialized = false → worklet.blockCursor = 0
  renderings : ∀ rendering ∈ worklet.renderings, rendering.Meets code
  segments : worklet.log.filterMap Event.segment? = worklet.renderings.flatMap (·.segments)

theorem start_sound (state : S) (inputs outputs : Nat → Nat → V) :
    (start (J := J) state inputs outputs).Sound code where
  steady := ⟨code.positive, rfl⟩
  pending := fun _ => rfl
  renderings := fun _ mem => by cases mem
  segments := rfl

theorem Sound.update (sound : worklet.Sound code) (state : S) :
    { worklet with state := state }.Sound code :=
  ⟨⟨sound.steady.cursor, sound.steady.stream⟩, sound.pending, sound.renderings, sound.segments⟩

theorem Sound.fail (sound : worklet.Sound code) : worklet.fail.Sound code where
  steady := sound.steady.fail
  pending := fun _ => rfl
  renderings := sound.renderings
  segments := by
    dsimp only [Worklet.fail]
    rw [List.filterMap_append, sound.segments]
    exact List.append_nil _

/-- Initialization keeps the place in the block, and a failed one begins the next block. -/
theorem Sound.runInitialization (sound : worklet.Sound code) (completed : Bool) (state : S) :
    (worklet.runInitialization completed state).Sound code := by
  unfold Worklet.runInitialization
  split
  · have same : (if worklet.initialized = true then worklet.blockCursor else 0) =
        worklet.blockCursor := by
      split
      · rfl
      · rename_i pending
        exact (sound.pending (Bool.eq_false_iff.mpr pending)).symm
    rw [same]
    exact ⟨⟨sound.steady.cursor, sound.steady.stream⟩, (fun initialized => by cases initialized),
      sound.renderings, sound.segments⟩
  · exact (sound.update state).fail

theorem Sound.process (sound : worklet.Sound code) (callback : Callback J) :
    (worklet.process code callback).Sound code := by
  have ended : ∀ rendering : Rendering V J, rendering.Meets code →
      ∀ rendering' ∈ worklet.renderings ++ [rendering], rendering'.Meets code := by
    intro rendering meets rendering' mem
    rcases List.mem_append.mp mem with mem | mem
    · exact sound.renderings rendering' mem
    · rw [List.mem_singleton.mp mem]
      exact meets
  unfold Worklet.process
  split
  · rename_i initialized
    have begun : (beginRound callback worklet).Sound code callback worklet :=
      { steady := sound.steady
        pending := sound.pending
        ready := fun _ => initialized
        offset := Nat.zero_le _
        renderings := rfl
        calls := (List.append_nil _).symm
        silent := fun failed => by cases failed
        tiles := fun _ => rfl
        carries := fun _ _ mem => by cases mem }
    obtain ⟨loop, complete⟩ := begun.loop callback.frames (Nat.le_add_left _ _)
    dsimp only
    refine ⟨⟨loop.steady.cursor, loop.steady.stream⟩, loop.pending, ?_, ?_⟩
    · dsimp only
      rw [loop.renderings]
      refine ended _ ?_
      unfold Rendering.Meets
      split
      · rename_i silent
        dsimp only at silent
        split at silent <;> cases silent
      · rename_i failed
        dsimp only at failed
        split at failed
        · rename_i here
          exact loop.silent here
        · cases failed
      · rename_i rendered
        dsimp only at rendered
        split at rendered
        · cases rendered
        · rename_i going
          have going := Bool.eq_false_iff.mpr going
          have tiles := loop.tiles going
          rw [complete going] at tiles
          exact ⟨tiles, fun segment mem =>
            ⟨(loop.carries going segment mem).received, (loop.carries going segment mem).delivered,
              (loop.carries going segment mem).unused⟩⟩
    · dsimp only
      rw [loop.renderings, List.flatMap_append, loop.calls, sound.segments]
      simp
  · refine ⟨⟨sound.steady.cursor, sound.steady.stream⟩, sound.pending, ended _ fun _ _ => rfl, ?_⟩
    dsimp only
    rw [List.flatMap_append, sound.segments]
    simp

theorem Sound.step (sound : worklet.Sound code) {action : Action S J}
    (stepped : worklet.step code action = some next) : next.Sound code := by
  cases action with
  | callback callback =>
    obtain rfl := Option.some.inj stepped
    exact sound.process callback
  | init mode completed state =>
    obtain rfl := Option.some.inj stepped
    cases mode with
    | invalid => exact sound
    | full => exact sound.runInitialization completed state
    | preservePinned =>
      unfold Worklet.init
      dsimp only
      split
      · exact sound.runInitialization completed state
      · exact sound
  | restore sized completed overlaid state =>
    obtain rfl := Option.some.inj stepped
    unfold Worklet.restoreSnapshot
    split
    · exact sound.runInitialization _ state
    · exact sound
  | event valid status state =>
    obtain rfl := Option.some.inj stepped
    unfold Worklet.dispatchEvent
    split
    · cases status with
      | ok | inputRejected => exact sound.update state
      | failed => exact (sound.update state).fail
    · exact sound
  | update state =>
    obtain rfl := Option.some.inj stepped
    exact sound.update state

/-- Code with blocks of two frames, which copies its input. -/
def copying : Code Unit Nat Nat where
  blockSize := 2
  positive := Nat.two_pos
  inputCount := 1
  outputCount := 1
  beginBlock := id
  process := fun state startFrame frames _ _ inputs outputs =>
    (state, fun channel frame =>
      if startFrame ≤ frame ∧ frame < startFrame + frames then inputs channel frame
      else outputs channel frame, true)
  fromSample := fun _ sample => sample
  zeroInput := fun _ => 0
  toSample := fun _ value => value
  silence := 0

/-- A callback of three frames. -/
def counting : Callback Nat := ⟨3, [fun frame => frame + 5], 1, fun _ _ => 0, .inr Nat.one_pos⟩

end Worklet

end Onda.WebAudio.Host
