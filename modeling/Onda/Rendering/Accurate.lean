import Onda.Rendering.Collected
import Onda.Runtime.Runs

/-!
# Sample accuracy

A list of events is refused as a whole, or its block makes the calls of the schedule in order.  A
call that fails is the last one.
-/

namespace Onda.Rendering

open Effects
open Onda.Project (Platform)
open Onda.Runtime
open RunSession (ScheduledEvent)

variable {W S V X : Type}

/-- The checks that a list of events passes before a block begins.  Without events the block is
checked as one segment. -/
def Accepts (platform : Platform) (program : JitProgram) (host : HostValues W S V X)
    (session : RunSession W S V) (events : List (ScheduledEvent X)) : Prop :=
  if events = [] then
    session.options.blockSize ≤ platform.usizeMax
      ∧ session.options.blockSize ≤ session.active.inst.config.framesPerBlock
  else
    (∀ event ∈ events, event.frame < session.options.blockSize)
      ∧ events.Pairwise (fun earlier later => earlier.frame ≤ later.frame)
      ∧ ∀ event ∈ events, Collecting.Encodes program host (dispatched event)

/-- The samples of a block. -/
def expectedSamples (platform : Platform) (program : JitProgram) (session : RunSession W S V) : Nat :=
  platform.saturatingMul session.options.blockSize (program.requiredOutChannels platform)

/-- A schedule is accurate for a list of events. -/
structure Accurate (blockSize : Nat) (events : List (ScheduledEvent X)) (issues : List (Issue X)) :
    Prop where
  partition : Tiles 0 (Issue.segments issues) blockSize
  nonempty : 0 < blockSize → ∀ segment ∈ Issue.segments issues, 0 < segment.2.1
  flags : Flagged false ((Issue.segments issues).map fun segment => segment.2.2)
  oneBegin : ((Issue.segments issues).map fun segment => segment.2.2).countP begins = 1
  oneEnd : ((Issue.segments issues).map fun segment => segment.2.2).countP ends = 1
  dispatches : Issue.events issues = events.map dispatched
  accurate : ∀ earlier event later, events = earlier ++ event :: later →
    ∃ before after, issues = before ++ .event event.name event.values :: after
      ∧ Issue.events before = earlier.map dispatched ∧ Issue.events after = later.map dispatched
      ∧ Tiles 0 (Issue.segments before) event.frame
      ∧ Tiles event.frame (Issue.segments after) blockSize

variable {events : List (ScheduledEvent X)}

theorem schedule_accurate {blockSize : Nat} (ordered : Ordered blockSize 0 events) :
    Accurate blockSize events (schedule blockSize events 0 false) where
  partition := schedule_tiles ordered (Nat.zero_le _)
  nonempty := schedule_frames ordered
  flags := schedule_flags blockSize events 0 false
  oneBegin := (schedule_flags blockSize events 0 false).counts.1
  oneEnd := (schedule_flags blockSize events 0 false).counts.2
  dispatches := schedule_events blockSize events 0 false
  accurate _ _ _ listed := schedule_at ordered listed

theorem Accepts.ordered {platform : Platform} {program : JitProgram} {host : HostValues W S V X}
    {session : RunSession W S V} (accepts : Accepts platform program host session events) :
    Ordered session.options.blockSize 0 events := by
  unfold Accepts at accepts
  split at accepts
  · rename_i empty
    subst empty
    trivial
  · exact ordered_iff.2 ⟨accepts.1, accepts.2.1, fun _ _ => Nat.zero_le _⟩

/-- The validation loop. -/
theorem validateEvents_iff (program : JitProgram) (host : HostValues W S V X) (blockSize : Nat)
    (previous : Option Nat) (events : List (ScheduledEvent X)) :
    RunSession.validateEvents program host blockSize previous events = .ok ()
      ↔ Ordered blockSize (previous.getD 0) events
        ∧ ∀ event ∈ events, Collecting.Encodes program host (dispatched event) := by
  induction events generalizing previous with
  | nil => simp [RunSession.validateEvents, Ordered]
  | cons event events ih =>
    rw [RunSession.validateEvents, Ordered, List.forall_mem_cons]
    by_cases outside : blockSize ≤ event.frame
    · rw [if_pos outside]
      exact ⟨fun failed => (by cases failed),
        fun both => absurd both.1.2.1 (Nat.not_lt_of_le outside)⟩
    rw [if_neg outside]
    by_cases unordered : (previous.getD 0) > event.frame
    · rw [if_pos unordered]
      exact ⟨fun failed => (by cases failed),
        fun both => absurd both.1.1 (Nat.not_le_of_lt unordered)⟩
    rw [if_neg unordered]
    unfold Collecting.Encodes at ih ⊢
    unfold dispatched at ih ⊢
    dsimp only at ih ⊢
    cases encoded : RunSession.encodeRunEvent program host event.name event.values with
    | error message =>
      refine ⟨fun failed => (by cases failed), fun both => ?_⟩
      obtain ⟨_, same⟩ := both.2.1
      cases same
    | ok value =>
      dsimp only
      rw [ih]
      constructor
      · rintro ⟨ordered, encodes⟩
        exact ⟨⟨Nat.le_of_not_lt unordered, Nat.lt_of_not_le outside, ordered⟩, ⟨value, rfl⟩, encodes⟩
      · rintro ⟨⟨-, -, ordered⟩, -, encodes⟩
        exact ⟨ordered, encodes⟩

namespace Collecting

variable (order : NativeU32) (publishes : Active W → Active W → List Publication)
  (platform : Platform) (code : GeneratedCode W) (program : JitProgram)
  (host : HostValues W S V X)

/-- The loop makes the calls of the schedule. -/
theorem renderEvents_eq (blockSize : Nat) (events : List (ScheduledEvent X)) (cursor : Nat)
    (beganBlock : Bool) (sequenceBase : Nat) :
    renderEvents order publishes platform code program host blockSize events cursor beganBlock
        sequenceBase
      = makeAll order publishes platform code program host
        (schedule blockSize events cursor beganBlock) sequenceBase := by
  induction events generalizing cursor beganBlock sequenceBase with
  | nil => rfl
  | cons event events ih =>
    rw [renderEvents, schedule]
    split
    · simp only [ih]
      rfl
    · simp only [ih]
      rfl

variable {platform program host}

variable {events : List (ScheduledEvent X)} {rendered : Nat}

/-- A buffer of another size is refused before anything changes. -/
theorem beginBlockRender_refused {rendered : Nat} (frames : Nat) {state : Collecting W S V X}
    (wrong : rendered ≠ expectedSamples platform program state.session) :
    ∃ message, beginBlockRender platform program host rendered frames state
      = (.error (.diagnostic message), state) :=
  ⟨_, (Call.bind_ok rfl).trans (Call.bind_error (Call.refuseIf_refused wrong _ state))⟩

/-- The session with empty batches. -/
def emptied (state : Collecting W S V X) : Collecting W S V X :=
  { state with areas := beginBatch .print (beginBatch .delegate state.areas) }

theorem beginBlockRender_begins {rendered : Nat} (frames : Nat) {state : Collecting W S V X}
    (right : rendered = expectedSamples platform program state.session) :
    beginBlockRender platform program host rendered frames state
      = onSession (RunSession.beginBlockRender platform program host rendered frames)
          state.emptied :=
  (Call.bind_ok rfl).trans (Call.bind_ok (Call.refuseIf_passed (not_not_intro right) _ state))

theorem emptied_present (state : Collecting W S V X) : state.emptied.present = state.present := by
  refine present_congr rfl fun channel => ?_
  cases channel <;> rfl

/-- Nothing is collected before the first call. -/
theorem emptied_holds (session : RunSession W S V) (state : Collecting W S V X) :
    ({ state.emptied with session } : Collecting W S V X).Holds order [] (.ok ()) :=
  ⟨Area.keeps_beginBatch order _, Area.keeps_beginBatch order _⟩

/-- The checks of a block in one segment read the instance only. -/
theorem validateProcessSegment_full (platform : Platform) (frames : Nat) (active : Active W) :
    (frames ≤ platform.usizeMax ∧ frames ≤ active.inst.config.framesPerBlock →
        validateProcessSegment platform 0 frames PROCESSOR_FULL_BLOCK active = (.ok (), active))
      ∧ (¬(frames ≤ platform.usizeMax ∧ frames ≤ active.inst.config.framesPerBlock) →
        ∃ message, validateProcessSegment platform 0 frames PROCESSOR_FULL_BLOCK active
          = (.error (.diagnostic message), active)) := by
  have known : ¬PROCESSOR_FULL_BLOCK &&& ~~~PROCESSOR_FULL_BLOCK ≠ 0 := by decide
  unfold validateProcessSegment
  rw [Nat.zero_add, Call.read_bind]
  by_cases overflows : platform.usizeMax < frames
  · refine ⟨fun fits => absurd fits.1 (Nat.not_le_of_lt overflows), fun _ => ?_⟩
    exact ⟨_, Call.bind_error (Call.refuseIf_refused overflows _ active)⟩
  rw [Call.bind_ok (Call.refuseIf_passed overflows _ active)]
  by_cases long : active.inst.config.framesPerBlock < frames
  · refine ⟨fun fits => absurd fits.2 (Nat.not_le_of_lt long), fun _ => ?_⟩
    exact ⟨_, Call.bind_error (Call.refuseIf_refused long _ active)⟩
  rw [Call.bind_ok (Call.refuseIf_passed long _ active), Call.refuseIf_passed known]
  exact ⟨fun _ => rfl, fun fits => absurd ⟨Nat.le_of_not_lt overflows, Nat.le_of_not_lt long⟩ fits⟩

/-- The validation of a block without events. -/
theorem validate_full (state : Collecting W S V X) :
    let checked := onSession (RunSession.validateSegments platform
      [(0, state.session.options.blockSize, PROCESSOR_FULL_BLOCK)] 0) state
    (Accepts platform program host state.session [] →
        checked = (.ok state.session.options.blockSize, state))
      ∧ (¬Accepts platform program host state.session [] →
        ∃ message, checked = (.error (.diagnostic message), state)) := by
  obtain ⟨passes, refuses⟩ := validateProcessSegment_full platform
    state.session.options.blockSize state.session.active
  unfold Accepts
  rw [if_pos rfl]
  constructor
  · intro fits
    have first : onInstance (validateProcessSegment platform 0 state.session.options.blockSize
        PROCESSOR_FULL_BLOCK) state.session = (.ok (), state.session) := by
      unfold onInstance Call.within
      rw [passes fits]
    have second : ¬platform.usizeMax < 0 + state.session.options.blockSize := by
      rw [Nat.zero_add]
      exact Nat.not_lt_of_le fits.1
    have both : RunSession.validateSegments platform
        [(0, state.session.options.blockSize, PROCESSOR_FULL_BLOCK)] 0 state.session
        = (.ok (0 + state.session.options.blockSize), state.session) :=
      (Call.bind_ok first).trans (Call.bind_ok (Call.refuseIf_passed second _ state.session))
    unfold onSession Call.within
    rw [both, Nat.zero_add]
  · intro fits
    obtain ⟨message, refused⟩ := refuses fits
    have first : onInstance (validateProcessSegment platform 0 state.session.options.blockSize
        PROCESSOR_FULL_BLOCK) state.session = (.error (.diagnostic message), state.session) := by
      unfold onInstance Call.within
      rw [refused]
    have both : RunSession.validateSegments platform
        [(0, state.session.options.blockSize, PROCESSOR_FULL_BLOCK)] 0 state.session
        = (.error (.diagnostic message), state.session) :=
      Call.bind_error first
    refine ⟨message, ?_⟩
    unfold onSession Call.within
    rw [both]

/-- A list that is not accepted, or a buffer of another size. -/
theorem render_refused {state : Collecting W S V X}
    (refused : ¬(Accepts platform program host state.session events
      ∧ rendered = expectedSamples platform program state.session)) :
    ∃ message, renderBlockEventIterInterleaved order publishes platform code program host rendered
      events state = (.error (.diagnostic message), state) := by
  unfold renderBlockEventIterInterleaved
  split
  · rename_i empty
    subst empty
    obtain ⟨passes, refuses⟩ := @validate_full W S V X platform program host state
    unfold renderBlockInterleaved renderBlockSegmentsInterleaved
    rw [Call.read_bind]
    by_cases accepts : Accepts platform program host state.session []
    · obtain ⟨message, stopped⟩ := @beginBlockRender_refused W S V X platform program host rendered
        state.session.options.blockSize state fun right => refused ⟨accepts, right⟩
      exact ⟨message, (Call.bind_ok (passes accepts)).trans (Call.bind_error stopped)⟩
    · obtain ⟨message, stopped⟩ := refuses accepts
      exact ⟨message, Call.bind_error stopped⟩
  · rename_i events_nonempty
    rw [Call.read_bind]
    cases checked : RunSession.validateEvents program host state.session.options.blockSize none events with
    | error message => exact ⟨message, Call.bind_error rfl⟩
    | ok =>
      obtain ⟨ordered, encodes⟩ := (validateEvents_iff _ _ _ _ _).1 checked
      obtain ⟨bounded, sorted, -⟩ := ordered_iff.1 ordered
      have accepts : Accepts platform program host state.session events := by
        rw [Accepts, if_neg events_nonempty]
        exact ⟨bounded, sorted, encodes⟩
      obtain ⟨message, stopped⟩ := @beginBlockRender_refused W S V X platform program host rendered
        state.session.options.blockSize state fun right => refused ⟨accepts, right⟩
      exact ⟨message, (Call.bind_ok rfl).trans (Call.bind_error stopped)⟩

/-- An accepted block empties its batches, writes its ramps and makes its calls. -/
theorem render_accepted {state : Collecting W S V X}
    (accepts : Accepts platform program host state.session events)
    (right : rendered = expectedSamples platform program state.session) :
    renderBlockEventIterInterleaved order publishes platform code program host rendered events state
      = (do
          onSession (RunSession.beginBlockRender platform program host rendered
            state.session.options.blockSize)
          makeAll order publishes platform code program host
            (schedule state.session.options.blockSize events 0 false) 0) state.emptied := by
  have begun := @beginBlockRender_begins W S V X platform program host rendered
    state.session.options.blockSize state right
  unfold renderBlockEventIterInterleaved
  split
  · rename_i empty
    subst empty
    unfold renderBlockInterleaved renderBlockSegmentsInterleaved
    rw [Call.read_bind]
    refine (Call.bind_ok ((validate_full state).1 accepts)).trans ?_
    exact Call.bind_eq begun _
  · rename_i events_nonempty
    have checked : RunSession.validateEvents program host state.session.options.blockSize none events
        = .ok () := by
      rw [validateEvents_iff]
      refine ⟨accepts.ordered, ?_⟩
      rw [Accepts, if_neg events_nonempty] at accepts
      exact accepts.2.2
    rw [Call.read_bind, checked]
    refine (Call.bind_ok rfl).trans ?_
    simp only [renderEvents_eq]
    exact Call.bind_eq begun _

/-- What a block does, once its ramps are written. -/
structure Renders (order : NativeU32) (blockSize : Nat) (events : List (ScheduledEvent X))
    (state : Collecting W S V X) (after : Except Stop Unit × Collecting W S V X) : Prop where
  present : after.2.present = state.present
  made : ∃ calls, after.2.issued = state.issued ++ calls
    ∧ Ended (schedule blockSize events 0 false) calls after.1
    ∧ after.2.Holds order calls after.1
    ∧ (numbered (after.2.publications calls) 0).Pairwise fun earlier later =>
        earlier.2.sequence < later.2.sequence ∨ later.2.sequence = u32Max

theorem makeAll_renders {blockSize : Nat} {session : RunSession W S V} {state : Collecting W S V X}
    (encodes : ∀ event ∈ events, Encodes program host (dispatched event)) :
    Renders order blockSize events state
      (makeAll order publishes platform code program host (schedule blockSize events 0 false) 0
        { state.emptied with session }) := by
  have holds := state.emptied_holds order session
  obtain ⟨present, calls, issued, ended, holds⟩ :=
    @makeAll_run _ _ _ _ order publishes platform code program host
      (schedule blockSize events 0 false) _ _ holds fun event mem => by
        rw [schedule_events] at mem
        obtain ⟨scheduled, listed, rfl⟩ := List.mem_map.1 mem
        exact encodes scheduled listed
  exact ⟨present.trans (emptied_present state), calls, issued, ended, holds, numbered_pairwise _ _⟩

/-- The session of the bare program, without storage for output. -/
def bare : Collecting Unit Unit Unit Unit where
  session := .bare
  areas _ := ⟨[], 0, 0, 0⟩
  delegateCollectionEnabled := false
  issued := []

/-- The bare program with an event. -/
def notes : JitProgram := { JitProgram.bare with events := ["note"] }

/-- One note at frame 10. -/
def note : List (ScheduledEvent Unit) := [⟨10, "note", []⟩]

/-- The calls of its block, when process calls end with `status`. -/
def issuedCalls (status : UInt32) : List (Issue Unit) :=
  (renderBlockEventIterInterleaved .littleEndian (fun _ _ => []) .ascii64 (.ending status) notes
    .bare 0 note bare).2.issued.map Issued.issue

/-- With calls that succeed, the block is finished. -/
example : issuedCalls 0 = [.segment 0 10 PROCESSOR_BEGIN_BLOCK, .event "note" [],
    .segment 10 54 PROCESSOR_END_BLOCK] := rfl

end Collecting

end Onda.Rendering
