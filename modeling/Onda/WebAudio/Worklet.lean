import Mathlib
import Onda.Lib.Steps

/-!
# The AudioWorklet host

Render callbacks and compiled blocks have unrelated lengths: the host cuts a callback into segments
that end where the callback or the block ends, and keeps its position in the block between them.

Generated code is a parameter: it may do anything to its state and its output buffers.
-/

namespace Onda.WebAudio.Host

/-- Generated code, and the conversion between its samples and those of a callback. -/
structure Code (S V J : Type) where
  blockSize : Nat
  positive : 0 < blockSize
  inputCount : Nat
  outputCount : Nat
  /-- Parameter smoothing at the beginning of a block. -/
  beginBlock : S → S
  /-- `onda_process`: start frame, frames, the flags `BEGIN_BLOCK` and `END_BLOCK`, the input and
  output buffers; the result is complete, or an execution failed. -/
  process : S → Nat → Nat → Bool → Bool → (Nat → Nat → V) → (Nat → Nat → V) →
    S × (Nat → Nat → V) × Bool
  fromSample : Nat → J → V
  zeroInput : Nat → V
  toSample : Nat → V → J
  silence : J

/-- One render callback: its channels have one length, and there is at least one of them.  A channel
is a function of the frame. -/
structure Callback (J : Type) where
  frames : Nat
  inputs : List (Nat → J)
  outputs : Nat
  /-- What the output channels hold before. -/
  initial : Nat → Nat → J
  audible : inputs ≠ [] ∨ 0 < outputs

/-- A call of `onda_process`. -/
structure Segment (V : Type) where
  callbackOffset : Nat
  startFrame : Nat
  frames : Nat
  beginsBlock : Bool
  endsBlock : Bool
  /-- The buffers that it received, and the ones that it left. -/
  inputs : Nat → Nat → V
  outputs : Nat → Nat → V

/-- The calls in order; a reset is a failed call. -/
inductive Event (V : Type) where
  | segment (segment : Segment V)
  | reset

inductive Outcome where
  | silent
  | failed
  | rendered
deriving DecidableEq

/-- What a callback did, and what its output channels hold afterwards. -/
structure Rendering (V J : Type) where
  callback : Callback J
  outcome : Outcome
  segments : List (Segment V)
  heard : Nat → Nat → J

/-- `OndaWasmProcessor`. -/
structure Worklet (S V J : Type) where
  initialized : Bool
  blockCursor : Nat
  state : S
  inputs : Nat → Nat → V
  outputs : Nat → Nat → V
  log : List (Event V)
  renderings : List (Rendering V J)

/-- A callback while it is processed. -/
structure Round (S V J : Type) where
  worklet : Worklet S V J
  callbackOffset : Nat
  segments : List (Segment V)
  heard : Nat → Nat → J
  failed : Bool

inductive InitMode where
  | preservePinned
  | full
  | invalid

inductive EventStatus where
  | ok
  | inputRejected
  | failed

inductive Action (S J : Type) where
  | callback (callback : Callback J)
  /-- `init`; the status of the call, and the state that it leaves. -/
  | init (mode : InitMode) (completed : Bool) (state : S)
  /-- `restoreSnapshot`: whether the size is right, the initialization complete and the overlay
  valid. -/
  | restore (sized completed overlaid : Bool) (state : S)
  /-- `dispatchEvent`: whether the event and its payload are valid. -/
  | event (valid : Bool) (status : EventStatus) (state : S)
  /-- Parameters, buffers and subscriptions. -/
  | update (state : S)

namespace Worklet

variable {S V J : Type} (code : Code S V J)

def invalidateState (worklet : Worklet S V J) : Worklet S V J :=
  { worklet with initialized := false, blockCursor := 0 }

/-- A failed call. -/
def fail (worklet : Worklet S V J) : Worklet S V J :=
  { worklet.invalidateState with log := worklet.log ++ [.reset] }

def commitInitializedState (blockCursor : Nat) (worklet : Worklet S V J) : Worklet S V J :=
  { worklet with initialized := true, blockCursor := blockCursor }

/-- `runInitialization`. -/
def runInitialization (completed : Bool) (state : S) (worklet : Worklet S V J) : Worklet S V J :=
  if completed then
    { worklet.invalidateState with state := state }.commitInitializedState
      (if worklet.initialized then worklet.blockCursor else 0)
  else { worklet with state := state }.fail

def init (mode : InitMode) (completed : Bool) (state : S) (worklet : Worklet S V J) :
    Worklet S V J :=
  match mode with
  | .invalid => worklet
  | .preservePinned =>
    if worklet.initialized then worklet.runInitialization completed state else worklet
  | .full => worklet.runInitialization completed state

def restoreSnapshot (sized completed overlaid : Bool) (state : S) (worklet : Worklet S V J) :
    Worklet S V J :=
  if sized then worklet.runInitialization (completed && overlaid) state else worklet

def dispatchEvent (valid : Bool) (status : EventStatus) (state : S) (worklet : Worklet S V J) :
    Worklet S V J :=
  if worklet.initialized && valid then
    match status with
    | .ok | .inputRejected => { worklet with state := state }
    | .failed => { worklet with state := state }.fail
  else worklet

/-- A frame of an input channel; a missing channel is zero. -/
def inputFrame (callback : Callback J) (channel frame : Nat) : V :=
  match callback.inputs[channel]? with
  | some source => code.fromSample channel (source frame)
  | none => code.zeroInput channel

def marshalInputSegment (callback : Callback J) (callbackOffset startFrame segmentFrames : Nat)
    (inputs : Nat → Nat → V) (channel frame : Nat) : V :=
  if channel < code.inputCount ∧ startFrame ≤ frame ∧ frame < startFrame + segmentFrames then
    inputFrame code callback channel (callbackOffset + (frame - startFrame))
  else inputs channel frame

def marshalOutputSegment (outputs : Nat → Nat → V)
    (callbackOffset startFrame segmentFrames : Nat) (heard : Nat → Nat → J)
    (channel frame : Nat) : J :=
  if callbackOffset ≤ frame ∧ frame < callbackOffset + segmentFrames then
    if channel < code.outputCount then
      code.toSample channel (outputs channel (startFrame + (frame - callbackOffset)))
    else code.silence
  else heard channel frame

/-- The segment that a callback begins next. -/
def nextFrames (callback : Callback J) (round : Round S V J) : Nat :=
  min (callback.frames - round.callbackOffset) (code.blockSize - round.worklet.blockCursor)

/-- The call of `onda_process` for it, and the state and status that it leaves. -/
def invokeProcessSegment (callback : Callback J) (round : Round S V J) :
    Segment V × S × Bool :=
  let startFrame := round.worklet.blockCursor
  let frames := nextFrames code callback round
  let begins : Bool := startFrame = 0
  let ends : Bool := startFrame + frames = code.blockSize
  let state := if begins then code.beginBlock round.worklet.state else round.worklet.state
  let inputs := marshalInputSegment code callback round.callbackOffset startFrame frames
    round.worklet.inputs
  let result := code.process state startFrame frames begins ends inputs round.worklet.outputs
  (⟨round.callbackOffset, startFrame, frames, begins, ends, inputs, result.2.1⟩,
    result.1, result.2.2)

/-- One round of the loop of `processInitialized`. -/
def processSegment (callback : Callback J) (round : Round S V J) : Round S V J :=
  let called := invokeProcessSegment code callback round
  let worklet : Worklet S V J := { round.worklet with
    state := called.2.1
    inputs := called.1.inputs
    outputs := called.1.outputs
    log := round.worklet.log ++ [.segment called.1] }
  if called.2.2 then
    { worklet := { worklet with
        blockCursor := if called.1.endsBlock then 0 else called.1.startFrame + called.1.frames }
      callbackOffset := round.callbackOffset + called.1.frames
      segments := round.segments ++ [called.1]
      heard := marshalOutputSegment code called.1.outputs round.callbackOffset
        called.1.startFrame called.1.frames round.heard
      failed := false }
  else
    { worklet := worklet.fail
      callbackOffset := round.callbackOffset
      segments := round.segments ++ [called.1]
      heard := fun _ _ => code.silence
      failed := true }

/-- The loop of `processInitialized`; every round takes at least one frame. -/
def processLoop (callback : Callback J) : Nat → Round S V J → Round S V J
  | 0, round => round
  | fuel + 1, round =>
    if round.callbackOffset < callback.frames ∧ round.failed = false then
      processLoop callback fuel (processSegment code callback round)
    else round

def beginRound (callback : Callback J) (worklet : Worklet S V J) : Round S V J :=
  ⟨worklet, 0, [], callback.initial, false⟩

/-- `processPending` and `processInitialized`. -/
def process (callback : Callback J) (worklet : Worklet S V J) : Worklet S V J :=
  if worklet.initialized then
    let round := processLoop code callback callback.frames (beginRound callback worklet)
    { round.worklet with
      renderings := round.worklet.renderings ++
        [⟨callback, if round.failed then .failed else .rendered, round.segments, round.heard⟩] }
  else
    { worklet with
      renderings := worklet.renderings ++
        [⟨callback, .silent, [], fun _ _ => code.silence⟩] }

def step (worklet : Worklet S V J) : Action S J → Option (Worklet S V J)
  | .callback callback => some (worklet.process code callback)
  | .init mode completed state => some (worklet.init mode completed state)
  | .restore sized completed overlaid state =>
    some (worklet.restoreSnapshot sized completed overlaid state)
  | .event valid status state => some (worklet.dispatchEvent valid status state)
  | .update state => some { worklet with state := state }

/-- The state after the constructor, before an initialization. -/
def start (state : S) (inputs outputs : Nat → Nat → V) : Worklet S V J :=
  ⟨false, 0, state, inputs, outputs, [], []⟩

end Worklet

/-! ### What the host should do -/

section Spec

variable {S V J : Type}

/-- The segments of a block or of a part of it: each begins where the one before it ends. -/
def Covers : Nat → Nat → List (Segment V) → Prop
  | first, last, [] => first = last
  | first, last, segment :: segments =>
    segment.startFrame = first ∧ 0 < segment.frames ∧
      Covers (first + segment.frames) last segments

/-- The segments of a callback: each begins where the one before it ends. -/
def Tiles : Nat → Nat → List (Segment V) → Prop
  | first, last, [] => first = last
  | first, last, segment :: segments =>
    segment.callbackOffset = first ∧ 0 < segment.frames ∧
      Tiles (first + segment.frames) last segments

/-- A whole block: only its first segment begins it, and only its last one ends it. -/
structure IsBlock (blockSize : Nat) (segments : List (Segment V)) : Prop where
  covers : Covers 0 blockSize segments
  first : ∃ segment rest, segments = segment :: rest ∧ segment.beginsBlock = true ∧
    ∀ other ∈ rest, other.beginsBlock = false
  last : ∃ rest segment, segments = rest ++ [segment] ∧ segment.endsBlock = true ∧
    ∀ other ∈ rest, other.endsBlock = false

/-- A block that is not complete. -/
structure IsPartial (blockSize cursor : Nat) (segments : List (Segment V)) : Prop where
  covers : Covers 0 cursor segments
  inside : cursor < blockSize
  first : ∀ segment rest, segments = segment :: rest → segment.beginsBlock = true ∧
    ∀ other ∈ rest, other.beginsBlock = false
  unended : ∀ segment ∈ segments, segment.endsBlock = false

/-- A segment carries the frames of its callback, in both directions. -/
structure Carries (code : Code S V J) (rendering : Rendering V J) (segment : Segment V) :
    Prop where
  received : ∀ channel < code.inputCount, ∀ frame < segment.frames,
    segment.inputs channel (segment.startFrame + frame) =
      Worklet.inputFrame code rendering.callback channel (segment.callbackOffset + frame)
  delivered : ∀ channel < code.outputCount, ∀ frame < segment.frames,
    rendering.heard channel (segment.callbackOffset + frame) =
      code.toSample channel (segment.outputs channel (segment.startFrame + frame))
  unused : ∀ channel, code.outputCount ≤ channel → ∀ frame < segment.frames,
    rendering.heard channel (segment.callbackOffset + frame) = code.silence

/-- A callback is silent, or its segments carry its frames once and in order. -/
def Rendering.Meets (code : Code S V J) (rendering : Rendering V J) : Prop :=
  match rendering.outcome with
  | .silent | .failed => ∀ channel frame, rendering.heard channel frame = code.silence
  | .rendered => Tiles 0 rendering.callback.frames rendering.segments ∧
      ∀ segment ∈ rendering.segments, Carries code rendering segment

def Event.segment? : Event V → Option (Segment V)
  | .segment called => some called
  | .reset => none

/-- One continuous stream. -/
structure Continuous (code : Code S V J) (worklet : Worklet S V J) : Prop where
  cursor : worklet.blockCursor < code.blockSize
  renderings : ∀ rendering ∈ worklet.renderings, rendering.Meets code
  /-- The calls are those of the callbacks. -/
  segments : worklet.log.filterMap Event.segment? =
    worklet.renderings.flatMap (·.segments)
  /-- Between failures there are whole blocks, and one that is not complete. -/
  blocks : ∀ before streak after,
    worklet.log = before ++ streak.map Event.segment ++ after →
      (before = [] ∨ before.getLast? = some .reset) →
        ∃ (blocks : List (List (Segment V))) (rest : List (Segment V)) (cursor : Nat),
          streak = blocks.flatten ++ rest ∧
          (∀ block ∈ blocks, IsBlock code.blockSize block) ∧
          IsPartial code.blockSize cursor rest ∧ (after = [] → cursor = worklet.blockCursor)

end Spec

end Onda.WebAudio.Host
