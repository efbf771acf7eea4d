import Onda.Mir.Footprint
import Onda.Mir.Minimal
import Onda.Mir.Validate.Flow

/-!
# Process frames

Audio storage is addressed by frame, and only `ProcessFrame` checks that a frame
lies in the block: an audio access trusts its frame operand.  The checker
therefore follows which locals hold the result of a `ProcessFrame`, and rejects
an access whose operand is not one of them.

Two kinds of store escape it: a store through a slice of the local, and a store
that a later pass of a loop meets before the access.  `FramesSpared` excludes
exactly these two, and `process_frames_dominate` shows that there is no third.
-/

namespace Onda.Mir

open Structured Validate

/-! ### Provenance -/

/-- The last store to a local of an activation was made by that activation and
stored the result of a `ProcessFrame`. -/
def holdsFrame (activation : Nat) (localId : LocalId) : List TraceEvent → Bool
  | [] => false
  | .write writer store :: earlier =>
    if store.object = .localVar activation localId then
      store.processFrame && writer == activation
    else holdsFrame activation localId earlier
  | _ :: earlier => holdsFrame activation localId earlier

/-- The frame operand of an audio load or store. -/
def Operation.audioFrame : Operation → Option Value
  | .assign _ (.inputLoad _ _ _ frame) | .assign _ (.outputLoad _ _ _ frame) => some frame
  | .outputStore _ _ _ frame _ => some frame
  | _ => none

/-- An operand is a local that holds a frame. -/
def Value.holdsFrame (activation : Nat) (earlier : List TraceEvent) : Value → Bool
  | .localVar localId => Mir.holdsFrame activation localId earlier
  | .constant _ => false

/-- Every audio access of a run uses a frame that was produced by `ProcessFrame`
and not overwritten since. -/
def FramesHold : List TraceEvent → Prop
  | [] => True
  | .step activation _ (.operation operation) _ :: earlier =>
    (∀ frame ∈ operation.audioFrame, frame.holdsFrame activation earlier = true) ∧
      FramesHold earlier
  | _ :: earlier => FramesHold earlier

instance : DecidablePred FramesHold := fun trace => by
  induction trace with
  | nil => exact isTrue trivial
  | cons event earlier ih =>
    cases event with
    | step activation function step memory =>
      cases step with
      | operation operation => exact instDecidableAnd
      | condition | result => exact ih
    | again | observe | write => exact ih

/-- No store through a slice overwrites a frame, and a local that held a frame
when a loop was entered holds one whenever the loop repeats. -/
def FramesSpared : List TraceEvent → Prop
  | [] => True
  | .write _ store :: earlier =>
    (store.viaSlice = true → ∀ activation localId,
      store.object = .localVar activation localId →
      holdsFrame activation localId earlier = false) ∧ FramesSpared earlier
  | .again activation _ entry :: earlier =>
    (∀ localId,
      holdsFrame activation localId (earlier.drop (earlier.length - entry)) = true →
      holdsFrame activation localId earlier = true) ∧ FramesSpared earlier
  | _ :: earlier => FramesSpared earlier

/-- An event that can break no frame. -/
def TraceEvent.plain : TraceEvent → Bool
  | .write _ store => !store.viaSlice
  | .again .. => false
  | _ => true

/-- A run without stores through slices and without repetitions spares its
frames. -/
theorem framesSpared_of_plain {trace : List TraceEvent}
    (plain : trace.all TraceEvent.plain = true) : FramesSpared trace := by
  induction trace with
  | nil => trivial
  | cons event earlier ih =>
    simp only [List.all_cons, Bool.and_eq_true] at plain
    cases event with
    | write writer store =>
      have direct : store.viaSlice = false := by simpa [TraceEvent.plain] using plain.1
      exact ⟨fun reached => by simp [direct] at reached, ih plain.2⟩
    | again => simp [TraceEvent.plain] at plain
    | step | observe => exact ih plain.2

/-- An event that is neither an access nor the repetition of a loop. -/
def TraceEvent.Quiet : TraceEvent → Prop
  | .write .. | .observe _ => True
  | .step .. | .again .. => False

variable {later : List TraceEvent}

theorem framesSpared_suffix {later earlier : List TraceEvent}
    (spared : FramesSpared (later ++ earlier))
    : FramesSpared earlier := by
  induction later with
  | nil => exact spared
  | cons event later ih =>
    cases event with
    | write | again => exact ih spared.2
    | step | observe => exact ih spared

theorem framesHold_append {earlier : List TraceEvent} (quiet : ∀ event ∈ later, event.Quiet)
    (hold : FramesHold earlier) :
    FramesHold (later ++ earlier) := by
  induction later with
  | nil => exact hold
  | cons event later ih =>
    have rest := ih fun other mem => quiet other (by simp [mem])
    cases event with
    | write | observe => exact rest
    | step activation function step memory =>
      exact absurd (quiet (.step activation function step memory) (by simp)) id
    | again activation function entry =>
      exact absurd (quiet (.again activation function entry) (by simp)) id

/-- A frame survives events whose only stores to it are made through slices. -/
theorem holdsFrame_append {activation : Nat} {localId : LocalId} {earlier : List TraceEvent}
    (spared : FramesSpared (later ++ earlier))
    (indirect : ∀ writer store, .write writer store ∈ later →
      store.object = .localVar activation localId → store.viaSlice = true)
    (holds : holdsFrame activation localId earlier = true) :
    holdsFrame activation localId (later ++ earlier) = true := by
  induction later with
  | nil => exact holds
  | cons event later ih =>
    have rest (spared : FramesSpared (later ++ earlier)) :
        holdsFrame activation localId (later ++ earlier) = true :=
      ih spared fun writer store mem => indirect writer store (by simp [mem])
    cases event with
    | step | observe => exact rest spared
    | again => exact rest spared.2
    | write writer store =>
      have before := rest spared.2
      simp only [List.cons_append, holdsFrame]
      split
      · next same =>
        -- A store to the frame is made through a slice, which the run excludes.
        have overwritten : holdsFrame activation localId (later ++ earlier) = false :=
          spared.1 (indirect writer store (by simp) same) activation localId same
        rw [overwritten] at before
        simp at before
      · exact before

/-! ### What the checker believes -/

section Beliefs

variable {program : Program} {function : Function}

variable {belief lhs rhs : AssignmentState} {results : List LocalId} {localId : LocalId}
  {operation : Operation}

theorem holdsProcessFrame_join_left
    (flagged : holdsProcessFrame (intersectTwoAssignmentStates program function lhs rhs)
      localId = true) : holdsProcessFrame lhs localId = true := by
  simp only [holdsProcessFrame, intersectTwoAssignmentStates,
    List.getElem?_mapIdx] at flagged ⊢
  rcases atLocal : (lhs.zip rhs)[localId]? with _ | ⟨left, right⟩
  · simp [atLocal] at flagged
  · obtain ⟨atLeft, _⟩ := List.getElem?_zip_eq_some.mp atLocal
    simp only [atLocal, Option.map_some, intersectLocals, Bool.and_eq_true] at flagged
    rw [atLeft]
    exact flagged.1.1

theorem holdsProcessFrame_join_right
    (flagged : holdsProcessFrame (intersectTwoAssignmentStates program function lhs rhs)
      localId = true) : holdsProcessFrame rhs localId = true := by
  simp only [holdsProcessFrame, intersectTwoAssignmentStates,
    List.getElem?_mapIdx] at flagged ⊢
  rcases atLocal : (lhs.zip rhs)[localId]? with _ | ⟨left, right⟩
  · simp [atLocal] at flagged
  · obtain ⟨_, atRight⟩ := List.getElem?_zip_eq_some.mp atLocal
    simp only [atLocal, Option.map_some, intersectLocals, Bool.and_eq_true] at flagged
    rw [atRight]
    exact flagged.1.2

/-- A flag of an updated belief is the flag the update gives its own local, or
an old flag of another local. -/
theorem holdsProcessFrame_update {target : LocalId}
    {update : LocalInitialization → LocalInitialization}
    (flagged : holdsProcessFrame (updateLocal belief target update) localId = true) :
    (target = localId ∧ ∃ initialization, belief[localId]? = some initialization ∧
        (update initialization).processFrame = true) ∨
      (target ≠ localId ∧ holdsProcessFrame belief localId = true) := by
  simp only [holdsProcessFrame, updateLocal, List.getElem?_modify] at flagged ⊢
  rcases atLocal : belief[localId]? with _ | initialization
  · simp [atLocal] at flagged
  · by_cases same : target = localId
    · exact Or.inl ⟨same, initialization, rfl, by simpa [atLocal, same] using flagged⟩
    · exact Or.inr ⟨same, by simpa [atLocal, same] using flagged⟩

theorem holdsProcessFrame_writeLocal {target : LocalId}
    (flagged : holdsProcessFrame (assignmentWriteLocal target false belief) localId = true) :
    target ≠ localId ∧ holdsProcessFrame belief localId = true := by
  rcases holdsProcessFrame_update flagged with ⟨_, _, _, isFrame⟩ | other
  · simp at isFrame
  · exact other

theorem holdsProcessFrame_writePlace {place : Place}
    (flagged : holdsProcessFrame (assignmentWritePlace program function place false belief)
      localId = true) :
    place.base ≠ .localVar localId ∧ holdsProcessFrame belief localId = true := by
  unfold assignmentWritePlace at flagged
  split at flagged
  · next target base =>
    rw [base]
    split at flagged
    · obtain ⟨differ, old⟩ := holdsProcessFrame_writeLocal flagged
      exact ⟨by simpa using differ, old⟩
    · rcases holdsProcessFrame_update flagged with ⟨_, _, _, isFrame⟩ | ⟨differ, old⟩
      · simp at isFrame
      · exact ⟨by simpa using differ, old⟩
  · next notLocal => exact ⟨fun isLocal => notLocal localId isLocal, flagged⟩

theorem holdsProcessFrame_fullSlice {slice : Value}
    (flagged : holdsProcessFrame (assignmentWriteFullSlice slice belief) localId = true) :
    holdsProcessFrame belief localId = true := by
  unfold assignmentWriteFullSlice at flagged
  split at flagged
  · split at flagged
    · exact (holdsProcessFrame_writeLocal flagged).2
    · exact flagged
  · exact flagged

theorem holdsProcessFrame_fullSlices {copies : List SliceCopy}
    (flagged : holdsProcessFrame (copies.foldl (fun state copy =>
      assignmentWriteFullSlice copy.destination state) belief) localId = true) :
    holdsProcessFrame belief localId = true := by
  induction copies generalizing belief with
  | nil => exact flagged
  | cons copy rest ih => exact holdsProcessFrame_fullSlice (ih flagged)

theorem holdsProcessFrame_results (flagged : holdsProcessFrame (results.foldl (fun state result =>
      assignmentWriteLocal result false state) belief) localId = true) :
    localId ∉ results ∧ holdsProcessFrame belief localId = true := by
  induction results generalizing belief with
  | nil => exact ⟨by simp, flagged⟩
  | cons result rest ih =>
    obtain ⟨notRest, kept⟩ := ih flagged
    obtain ⟨differ, old⟩ := holdsProcessFrame_writeLocal kept
    exact ⟨by simp [notRest, Ne.symm differ], old⟩

theorem holdsProcessFrame_writeArgument {argument : CallArgument × FunctionParam}
    (flagged : holdsProcessFrame (assignmentWriteArgument program function belief argument)
      localId = true) :
    holdsProcessFrame belief localId = true ∧
      (argument.2.mode = .readWriteReference →
        readWriteArgumentLocal argument.1 ≠ some localId) := by
  unfold assignmentWriteArgument at flagged
  split at flagged
  · next mode _ => exact ⟨(holdsProcessFrame_writePlace flagged).2, by simp [mode]⟩
  · unfold assignmentInvalidateReadWriteArgument at flagged
    split at flagged
    · next target found =>
      rw [found]
      rcases holdsProcessFrame_update flagged with ⟨_, _, _, isFrame⟩ | ⟨differ, old⟩
      · simp at isFrame
      · exact ⟨old, fun _ => by simpa using differ⟩
    · next notLocal => exact ⟨flagged, fun _ => by simp [notLocal]⟩
  · next notReadWrite _ => exact ⟨flagged, fun mode => absurd mode notReadWrite⟩

theorem holdsProcessFrame_writeArguments {arguments : List (CallArgument × FunctionParam)}
    (flagged : holdsProcessFrame (arguments.foldl
      (assignmentWriteArgument program function) belief) localId = true) :
    holdsProcessFrame belief localId = true ∧ ∀ argument ∈ arguments,
      argument.2.mode = .readWriteReference →
        readWriteArgumentLocal argument.1 ≠ some localId := by
  induction arguments generalizing belief with
  | nil => exact ⟨flagged, by simp⟩
  | cons argument rest ih =>
    obtain ⟨kept, others⟩ := ih flagged
    obtain ⟨old, first⟩ := holdsProcessFrame_writeArgument kept
    refine ⟨old, fun other mem => ?_⟩
    rcases List.mem_cons.mp mem with rfl | later
    · exact first
    · exact others other later

/-- The frame operand of an accepted access is flagged. -/
theorem holdsProcessFrame_of_access {frame : Value} (access : operation.audioFrame = some frame)
    (checked : (validateAssignmentStatement program function operation belief).1 = []) :
    ∃ localId, frame = .localVar localId ∧ holdsProcessFrame belief localId = true := by
  have read {label : String}
      (noError : assignmentReadProcessFrame function belief frame label = []) :
      ∃ localId, frame = .localVar localId ∧ holdsProcessFrame belief localId = true := by
    simp only [assignmentReadProcessFrame, List.append_eq_nil_iff] at noError
    cases frame with
    | constant value => simp at noError
    | localVar localId => exact ⟨localId, rfl, by simpa using noError.2⟩
  unfold Operation.audioFrame at access
  split at access
  · obtain rfl := Option.some.inj access
    simp only [validateAssignmentStatement, assignmentReadRvalue,
      List.append_eq_nil_iff] at checked
    exact read checked.1.2
  · obtain rfl := Option.some.inj access
    simp only [validateAssignmentStatement, assignmentReadRvalue,
      List.append_eq_nil_iff] at checked
    exact read checked.1.2
  · obtain rfl := Option.some.inj access
    simp only [validateAssignmentStatement, List.append_eq_nil_iff] at checked
    exact read checked.1.2
  · simp at access

/-- Only a local that receives the result of a `ProcessFrame` gains a flag. -/
theorem holdsProcessFrame_assign {destination : Place} {value : Rvalue}
    (flagged : holdsProcessFrame (assignmentAssign program function destination value belief)
      localId = true) :
    (destination = Place.localVar localId ∧ value.isProcessFrame = true) ∨
      (destination.base ≠ .localVar localId ∧ holdsProcessFrame belief localId = true) := by
  have kept : holdsProcessFrame (assignmentWritePlace program function destination
      value.isProcessFrame belief) localId = true := by
    unfold assignmentAssign at flagged
    simp only at flagged
    split at flagged
    · rcases holdsProcessFrame_update flagged with
        ⟨same, initialization, found, isFrame⟩ | ⟨_, old⟩
      · simpa [holdsProcessFrame, found] using isFrame
      · exact old
    · exact flagged
  cases isFrame : value.isProcessFrame with
  | false =>
    rw [isFrame] at kept
    exact Or.inr (holdsProcessFrame_writePlace kept)
  | true =>
    obtain ⟨base, projections⟩ := destination
    simp only [assignmentWritePlace] at kept
    split at kept
    · next target =>
      split at kept
      · next unprojected =>
        obtain rfl : projections = [] := unprojected
        rcases holdsProcessFrame_update kept with ⟨rfl, _⟩ | ⟨differ, old⟩
        · exact Or.inl ⟨rfl, rfl⟩
        · exact Or.inr ⟨by simpa using differ, old⟩
      · rcases holdsProcessFrame_update kept with ⟨_, _, _, isFrame⟩ | ⟨differ, old⟩
        · simp at isFrame
        · exact Or.inr ⟨by simpa using differ, old⟩
    · next notLocal => exact Or.inr ⟨fun isLocal => notLocal localId isLocal, kept⟩

/-- A flag after an operation other than a call is new, from a `ProcessFrame`, or
the operation does not name the local as a destination. -/
theorem holdsProcessFrame_operation
    (notCall : ∀ results function args, operation ≠ .call results function args)
    (flagged : holdsProcessFrame
      (validateAssignmentStatement program function operation belief).2 localId = true) :
    (∃ value, operation = .assign (.localVar localId) value ∧ value.isProcessFrame = true) ∨
      (holdsProcessFrame belief localId = true ∧ ∀ destination value,
        operation = .assign destination value → destination.base ≠ .localVar localId) := by
  cases operation with
  | assign destination value =>
    rcases holdsProcessFrame_assign flagged with ⟨rfl, isFrame⟩ | ⟨differ, old⟩
    · exact Or.inl ⟨value, rfl, isFrame⟩
    · refine Or.inr ⟨old, fun other rvalue same => ?_⟩
      obtain ⟨rfl, rfl⟩ := Operation.assign.inj same
      exact differ
  | call results callee args => exact absurd rfl (notCall results callee args)
  | sliceFill => exact Or.inr ⟨holdsProcessFrame_fullSlice flagged, by simp⟩
  | sliceCopy => exact Or.inr ⟨holdsProcessFrame_fullSlices flagged, by simp⟩
  | _ => exact Or.inr ⟨flagged, by simp⟩

/-- A flag after a call is old; the local is no result of the call and no argument
the callee may replace. -/
theorem holdsProcessFrame_call {callee : FunctionId} {args : List CallArgument}
    (flagged : holdsProcessFrame (validateAssignmentStatement program function
      (.call results callee args) belief).2 localId = true) :
    localId ∉ results ∧ holdsProcessFrame belief localId = true ∧
      ∀ argument ∈ args.zip (calleeParams program callee),
        argument.2.mode = .readWriteReference →
          readWriteArgumentLocal argument.1 ≠ some localId := by
  obtain ⟨notResult, kept⟩ := holdsProcessFrame_results flagged
  obtain ⟨old, notReplaced⟩ := holdsProcessFrame_writeArguments kept
  exact ⟨notResult, old, notReplaced⟩

end Beliefs

/-! ### Steps of an activation -/

/-- What the flags of the checker mean in a state of a run. -/
structure FrameBelief (machine : Machine) (act : Activation) (belief : AssignmentState)
    (state : State) : Prop where
  entered : act.id < state.next
  typed : ∀ localId, holdsProcessFrame belief localId = true →
    ∃ declared, act.function.locals[localId]? = some declared ∧
      machine.program.types[declared.ty]? = some (.scalar .i32)
  frames : FramesSpared state.trace → FramesHold state.trace
  held : FramesSpared state.trace → ∀ localId, holdsProcessFrame belief localId = true →
    holdsFrame act.id localId state.trace = true

/-- A store that leaves a local of an activation alone, or reaches it through a
slice. -/
def TraceEvent.Avoids (activation : Nat) (localId : LocalId) : TraceEvent → Prop
  | .write _ store => store.object = .localVar activation localId → store.viaSlice = true
  | _ => True

section Steps

variable {machine : Machine} {act : Activation} {belief : AssignmentState}
  {state next : State}

theorem framesHold_extends (extended : state.Extends TraceEvent.Quiet next)
    (hold : FramesSpared state.trace → FramesHold state.trace)
    (spared : FramesSpared next.trace) : FramesHold next.trace := by
  obtain ⟨events, traceEq, _, _, quiet⟩ := extended
  rw [traceEq] at spared ⊢
  exact framesHold_append quiet (hold (framesSpared_suffix spared))

theorem holdsFrame_extends {localId : LocalId}
    (extended : state.Extends (TraceEvent.Avoids act.id localId) next)
    (held : FramesSpared state.trace → holdsFrame act.id localId state.trace = true)
    (spared : FramesSpared next.trace) :
    holdsFrame act.id localId next.trace = true := by
  obtain ⟨events, traceEq, _, _, avoids⟩ := extended
  rw [traceEq] at spared ⊢
  exact holdsFrame_append spared (fun writer store mem => avoids (.write writer store) mem)
    (held (framesSpared_suffix spared))

theorem FrameBelief.weaken {weaker : AssignmentState}
    (holds : FrameBelief machine act belief state)
    (sub : ∀ localId, holdsProcessFrame weaker localId = true →
      holdsProcessFrame belief localId = true) :
    FrameBelief machine act weaker state where
  entered := holds.entered
  typed localId flagged := holds.typed localId (sub localId flagged)
  frames := holds.frames
  held spared localId flagged := holds.held spared localId (sub localId flagged)

/-- Evaluation keeps the meaning of the flags. -/
theorem FrameBelief.extends (holds : FrameBelief machine act belief state)
    (extended : state.Extends
      (fun event => event.Quiet ∧ ∀ localId, event.Avoids act.id localId) next) :
    FrameBelief machine act belief next where
  entered := Nat.lt_of_lt_of_le holds.entered extended.next_le
  typed := holds.typed
  frames := framesHold_extends (extended.mono fun _ => And.left) holds.frames
  held spared localId flagged :=
    holdsFrame_extends (extended.mono fun _ kept => kept.2 localId)
      (fun before => holds.held before localId flagged) spared

variable {function : FunctionId} {args : List CallArgument} {operation : Operation}

/-- Reaching an accepted operation keeps every frame. -/
theorem framesHold_reach (holds : FrameBelief machine act belief state)
    (checked : (validateAssignmentStatement machine.program act.function operation
      belief).1 = []) (spared : FramesSpared (state.reach act (.operation operation)).trace) :
    FramesHold (state.reach act (.operation operation)).trace := by
  have before : FramesSpared state.trace := spared
  refine ⟨fun frame access => ?_, holds.frames before⟩
  obtain ⟨localId, rfl, flagged⟩ := holdsProcessFrame_of_access access checked
  exact holds.held before localId flagged

/-- An operation stores to a local directly only when it assigns to it. -/
theorem operation_avoids (wellFormed : act.WellFormed machine) {env : Memory} {store : Write}
    {localId : LocalId} (stored : operation.Stores machine act env store)
    (elsewhere : ∀ destination value, operation = .assign destination value →
      destination.base ≠ .localVar localId) :
    TraceEvent.Avoids act.id localId (.write act.id store) := by
  intro isLocal
  cases operation with
  | assign destination value =>
    obtain ⟨root, loc, data, denotes, fills⟩ := stored
    have atRoot := fills.into.within denotes.within
    by_contra direct
    have based := wellFormed.base_local denotes.base
      (by simpa [← atRoot.viaSlice] using direct) (by rw [← atRoot.object, isLocal])
    exact elsewhere destination value rfl based.1
  | call | publishDelegate | publishLog => exact stored.elim
  | outputStore => simp [stored.1] at isLocal
  | controlOutputStore =>
    obtain ⟨declared, _, object, _⟩ := stored
    simp [object] at isLocal
  | bufferStore =>
    obtain ⟨buffer, _, object, _⟩ := stored
    simp [object] at isLocal
  | bufferParamStore =>
    obtain ⟨buffer, object, _⟩ := stored
    simp [object] at isLocal
  | sliceStore | sliceFill =>
    obtain ⟨desc, index, _, element⟩ := stored
    obtain ⟨value, _, rfl⟩ := element.eq
    rfl
  | sliceCopy =>
    obtain ⟨copy, _, desc, index, _, element⟩ := stored
    obtain ⟨value, _, rfl⟩ := element.eq
    rfl

/-- A `ProcessFrame` leaves a frame in the local it is assigned to. -/
theorem assign_holdsFrame {invoke : Invoke} {value : Rvalue} {localId : LocalId}
    (checked : validateOperation machine.program act.function
      (.assign (.localVar localId) value) = [])
    (isFrame : value.isProcessFrame = true)
    (ran : operate machine act invoke (.assign (.localVar localId) value) state =
      (next, none)) :
    (∃ declared, act.function.locals[localId]? = some declared ∧
      machine.program.types[declared.ty]? = some (.scalar .i32)) ∧
    holdsFrame act.id localId next.trace = true := by
  obtain ⟨stores, evaluated, rfl⟩ := State.perform_none ran
  obtain ⟨root, loc, data, store, rfl, denotes, -, fills⟩ :=
    evalAssign_returns _ value stores evaluated
  obtain rfl := denotes.whole rfl
  obtain ⟨declared, atLocal, rfl⟩ := Activation.localLoc_eq denotes.base
  have scalar : machine.program.types[declared.ty]? = some (.scalar .i32) := by
    simp only [validateOperation, validateAssign, List.append_eq_nil_iff] at checked
    have matched := checked.2
    have typed : machine.program.placeType act.function (.localVar localId) =
        some declared.ty := by
      simp [Program.placeType, Program.baseType, Place.localVar, atLocal]
    rw [typed] at matched
    simp only [errorUnless_eq_nil] at matched
    cases value with
    | processFrame offset => simpa [rvalueMatchesType, typeIsScalar] using matched
    | _ => simp [Rvalue.isProcessFrame] at isFrame
  refine ⟨⟨declared, atLocal, scalar⟩, ?_⟩
  obtain ⟨shaped, rfl⟩ := fills
  rw [Program.shape_scalar scalar] at shaped
  cases data with
  | nil => simp [Data.shape] at shaped
  | cons leaf rest =>
    simp [State.commit, State.store, Write.effective, holdsFrame, isFrame]

/-- **Operations other than calls** keep the meaning of the flags. -/
theorem frameBelief_operation {invoke : Invoke} (accepted : machine.program.Accepted)
    (wellFormed : act.WellFormed machine) (mem : .op operation ∈ blockAtoms act.function.body)
    (notCall : ∀ results function args, operation ≠ .call results function args)
    (checked : (validateAssignmentStatement machine.program act.function operation
      belief).1 = []) (holds : FrameBelief machine act belief state) :
    match operate machine act invoke operation state with
    | (next, none) => FrameBelief machine act
        (validateAssignmentStatement machine.program act.function operation belief).2 next
    | (next, some _) => FramesSpared next.trace → FramesHold next.trace := by
  have extended : (state.reach act (.operation operation)).Extends
      (fun event => event.Quiet ∧ ∀ localId, (∀ destination value,
        operation = .assign destination value → destination.base ≠ .localVar localId) →
          event.Avoids act.id localId)
      (operate machine act invoke operation state).1 :=
    State.extends_operate notCall (fun _ => ⟨trivial, fun _ _ => trivial⟩)
      fun store stored _ => ⟨trivial, fun _ => operation_avoids wellFormed stored⟩
  rcases ran : operate machine act invoke operation state with ⟨next, result⟩
  rw [ran] at extended
  have frames : FramesSpared next.trace → FramesHold next.trace :=
    framesHold_extends (extended.mono fun _ => And.left) (framesHold_reach holds checked)
  cases result with
  | some reason => exact frames
  | none =>
    have newFrame {value : Rvalue} {localId : LocalId} :=
      @assign_holdsFrame machine act state next invoke value localId
    refine ⟨Nat.lt_of_lt_of_le holds.entered extended.next_le, fun localId flagged => ?_,
      frames, fun spared localId flagged => ?_⟩
    · rcases holdsProcessFrame_operation notCall flagged with
        ⟨value, rfl, isFrame⟩ | ⟨old, _⟩
      · exact (newFrame (accepted.operation wellFormed.declared mem) isFrame ran).1
      · exact holds.typed localId old
    · rcases holdsProcessFrame_operation notCall flagged with
        ⟨value, rfl, isFrame⟩ | ⟨old, elsewhere⟩
      · exact (newFrame (accepted.operation wellFormed.declared mem) isFrame ran).2
      · refine holdsFrame_extends (extended.mono fun event kept => kept.2 localId elsewhere)
          (fun before => ?_) spared
        exact holds.held before localId old

/-! ### Calls -/

/-- A store through a parameter reaches a number of the caller directly only when
the caller lets the callee replace it. -/
theorem bound_avoids {env : Memory} {callee : Nat} {index : ParameterId}
    {param : FunctionParam} {argument : CallArgument} {loc : Loc} {stores : List Write}
    {store : Write} {localId : LocalId} {declared : Local} {writer : Nat}
    (wellFormed : act.WellFormed machine) (notResult : param.mode ≠ .resultReference)
    (bound : Bound machine act env callee index param argument loc stores)
    (atLocal : act.function.locals[localId]? = some declared)
    (scalar : machine.program.types[declared.ty]? = some (.scalar .i32))
    (notReplaced : param.mode = .readWriteReference →
      readWriteArgumentLocal argument ≠ some localId)
    (effective : store.effective = true) (into : store.Into machine.program loc)
    (writable : param.mode.isWritableReference = true ∨ store.StoresBuffers) :
    TraceEvent.Avoids act.id localId (.write writer store) := by
  intro isLocal
  by_contra direct
  have sameObject := into.object.symm.trans isLocal
  have reached := into.viaSlice.symm.trans (Bool.eq_false_iff.mpr direct)
  cases bound with
  | own => simp [argumentLoc] at sameObject
  | slice _ _ _ elements => rw [elements.viaSlice] at reached; simp at reached
  | bufferParam _ _ found =>
    exact wellFormed.param_ne_local (List.mem_of_getElem? found) reached localId sameObject
  | @place place root denoted inner _ passes denotes inside _ shaped =>
    have atRoot := (into.within (Loc.renamed_within shaped)).within
      (inside.trans denotes.within)
    have based := wellFormed.base_local denotes.base
      (by rw [← atRoot.viaSlice]; exact Bool.eq_false_iff.mpr direct)
      (by rw [← atRoot.object, isLocal])
    rcases writable with writable | descriptors
    · have mode : param.mode = .readWriteReference := by
        cases mode : param.mode <;> simp_all [PassingMode.isWritableReference]
      refine notReplaced mode ?_
      cases argument with
      | place target =>
        obtain rfl := Option.some.inj passes
        obtain ⟨base, projections⟩ := target
        obtain rfl : base = .localVar localId := based.1
        rfl
      | arrayWindow array start bounds =>
        obtain rfl := Option.some.inj passes
        obtain ⟨base, projections⟩ := array
        obtain rfl : base = .localVar localId := based.1
        rfl
      | _ => simp [CallArgument.referencedPlace] at passes
    · -- A number is not replaced by a buffer descriptor.
      obtain ⟨other, sameLocal, rfl⟩ := Activation.localLoc_eq based.2
      obtain rfl := Option.some.inj (sameLocal.symm.trans atLocal)
      obtain ⟨cell, rest, cells⟩ : ∃ cell rest, store.cells = cell :: rest := by
        cases cells : store.cells with
        | nil => simp [Write.effective, cells] at effective
        | cons cell rest => exact ⟨cell, rest, rfl⟩
      have mem : cell ∈ store.cells := by simp [cells]
      obtain ⟨leaf, memLeaf, -, kind⟩ :=
        atRoot.cells _ (Program.shape_scalar scalar) cell mem
      obtain rfl : leaf = ([], .scalar .i32) := by simpa using memLeaf
      rw [descriptors cell mem] at kind
      simp at kind

/-- A callee does not store to a flagged local of its caller directly, unless it
is given the local to replace. -/
theorem callee_avoids {env : Memory} {target : Function} {bound : List (Loc × List Write)}
    {fresh : Nat} {store : Write} {localId : LocalId} {declared : Local} {writer : Nat}
    (accepted : machine.program.Accepted) (wellFormed : act.WellFormed machine)
    (found : machine.program.functions[function]? = some target) (entered : act.id < state.next)
    (later : state.next ≤ fresh) (binds : Binds machine act env state.next target.params args bound)
    (atLocal : act.function.locals[localId]? = some declared)
    (scalar : machine.program.types[declared.ty]? = some (.scalar .i32))
    (notReplaced : ∀ argument ∈ args.zip target.params,
      argument.2.mode = .readWriteReference →
        readWriteArgumentLocal argument.1 ≠ some localId) (effective : store.effective = true)
    (stored : (calleeActivation state function target bound).MayStore machine fresh store) :
    TraceEvent.Avoids act.id localId (.write writer store) := by
  intro isLocal
  have owner : store.object.activation? = some act.id := by rw [isLocal]; rfl
  cases stored with
  | viaSlice reached => exact reached
  | shared global => simp [global] at owner
  | own owned =>
    have same := Option.some.inj (owned.symm.trans owner)
    simp only [calleeActivation] at same
    omega
  | started other owned laterOther =>
    have same := Option.some.inj (owned.symm.trans owner)
    omega
  | param index loc param through =>
    obtain ⟨entry, atBound, rfl⟩ : ∃ entry, bound[index]? = some entry ∧ entry.1 = loc := by
      simpa [calleeActivation] using through.bound
    obtain ⟨other, argument, declaredParam, atArgs, isBound⟩ := binds.entry atBound
    obtain rfl : param = other :=
      Option.some.inj (through.declared.symm.trans declaredParam)
    have inCall : (argument, param) ∈ args.zip target.params :=
      List.mem_iff_getElem?.mpr
        ⟨index, by simp [List.getElem?_zip_eq_some, atArgs, declaredParam]⟩
    exact @bound_avoids machine act env state.next index param argument entry.1 entry.2
      store localId declared writer wellFormed
      (accepted.notResultReference found (List.mem_of_getElem? declaredParam)) isBound
      atLocal scalar (notReplaced _ inCall) effective through.into through.writable isLocal

/-- **Calls** keep the meaning of the flags, when the callee accesses audio only
with frames. -/
theorem frameBelief_call {budget depth : Nat} {results : List LocalId}
    (accepted : machine.program.Accepted) (wellFormed : act.WellFormed machine)
    (callee : ∀ callee : Activation, callee.WellFormed machine → ∀ state : State,
      callee.id < state.next → (FramesSpared state.trace → FramesHold state.trace) →
      FramesSpared (machine.invoke budget depth callee state).1.trace →
        FramesHold (machine.invoke budget depth callee state).1.trace)
    (checked : (validateAssignmentStatement machine.program act.function
      (.call results function args) belief).1 = []) (holds : FrameBelief machine act belief state) :
    match operate machine act (machine.invoke budget depth)
      (.call results function args) state with
    | (next, none) => FrameBelief machine act (validateAssignmentStatement machine.program
        act.function (.call results function args) belief).2 next
    | (next, some _) => FramesSpared next.trace → FramesHold next.trace := by
  have reached := framesHold_reach holds checked
  rcases @State.operateCall_cases
      (fun event => event.Quiet ∧ ∀ localId, event.Avoids act.id localId) machine act
      (machine.invoke budget depth) results function args
      (state.reach act (.operation (.call results function args)))
      (fun _ => ⟨trivial, fun _ => trivial⟩) with
    ⟨next, reason, extended, ran⟩ |
    ⟨target, bound, entered, found, binds, extended, sameNext, sameMemory, ran⟩
  · have ran : operate machine act (machine.invoke budget depth)
        (.call results function args) state = (next, some reason) := ran
    rw [ran]
    exact framesHold_extends (extended.mono fun _ => And.left) reached
  · have ran : operate machine act (machine.invoke budget depth)
        (.call results function args) state = finishCall machine act results
          (machine.invoke budget depth (calleeActivation entered function target bound)
            (entered.started bound)) := ran
    rw [← sameNext] at binds
    have earlier : act.id < entered.next := sameNext ▸ holds.entered
    have wellFormedCallee := Activation.callee_wellFormed wellFormed earlier found binds
    have started : entered.Extends TraceEvent.Quiet (entered.started bound) :=
      State.extends_started fun _ _ _ _ _ => trivial
    have returned := callee _ wellFormedCallee (entered.started bound)
      (by simp [calleeActivation])
      (framesHold_extends ((extended.mono fun _ => And.left).trans started) reached)
    have footprint := @invoke_footprint machine accepted budget depth _ wellFormedCallee
      (entered.started bound) (by simp [calleeActivation])
    rcases invoked : machine.invoke budget depth
        (calleeActivation entered function target bound) (entered.started bound) with
      ⟨final, outcome⟩
    rw [invoked] at ran returned footprint
    have finished : final.Extends TraceEvent.Quiet
        (finishCall machine act results (final, outcome)).1 :=
      State.extends_finishCall (fun _ => trivial) (fun _ _ _ _ _ _ _ _ => trivial) _ _
    rcases done : finishCall machine act results (final, outcome) with ⟨next, result⟩
    rw [done] at finished ran
    rw [ran]
    have frames := framesHold_extends finished returned
    cases result with
    | some reason => exact frames
    | none =>
      refine ⟨?_, fun localId flagged => ?_, frames, fun spared localId flagged => ?_⟩
      · have grown := started.next_le.trans (footprint.next_le.trans finished.next_le)
        exact Nat.lt_of_lt_of_le earlier grown
      · exact holds.typed localId (holdsProcessFrame_call flagged).2.1
      · obtain ⟨notResult, old, notReplaced⟩ := holdsProcessFrame_call flagged
        obtain ⟨declared, atLocal, scalar⟩ := holds.typed localId old
        simp only [calleeParams, found] at notReplaced
        have observed : ∀ observation,
            TraceEvent.Avoids act.id localId (.observe observation) := fun _ => trivial
        have binding : entered.Extends (TraceEvent.Avoids act.id localId)
            (entered.started bound) := by
          refine State.extends_started fun entry inBound store inEntry _ isLocal => ?_
          obtain ⟨index, atBound⟩ := List.mem_iff_getElem?.mp inBound
          obtain ⟨_, _, _, _, isBound⟩ := binds.entry atBound
          simp [(Activation.bound_store_owner isBound inEntry).1] at isLocal
        have running : (entered.started bound).Extends (TraceEvent.Avoids act.id localId)
            final := by
          refine footprint.mono fun event stored => ?_
          cases event with
          | write writer store =>
            exact callee_avoids accepted wellFormed found earlier (by simp) binds atLocal
              scalar notReplaced stored.1 stored.2.1
          | _ => trivial
        have storing : final.Extends (TraceEvent.Avoids act.id localId) next := by
          have stored := @State.extends_finishCall (TraceEvent.Avoids act.id localId)
            machine act results observed ?_ final outcome
          · rwa [done] at stored
          · intro result loc data store atResult inResults fills _ isLocal
            rw [fills.into.object, Activation.localLoc_owner atResult] at isLocal
            exact absurd ((Object.localVar.inj isLocal).2 ▸ inResults) notResult
        have whole := (extended.mono fun _ kept => kept.2 localId).trans
          ((binding.trans running).trans storing)
        exact holdsFrame_extends whole (fun before => holds.held before localId old) spared

/-! ### Whole runs -/

/-- The flags of the checker keep their meaning through a body. -/
theorem frameBelief_sound {budget depth : Nat} (accepted : machine.program.Accepted)
    (wellFormed : act.WellFormed machine)
    (callee : ∀ callee : Activation, callee.WellFormed machine → ∀ state : State,
      callee.id < state.next → (FramesSpared state.trace → FramesHold state.trace) →
      FramesSpared (machine.invoke budget depth callee state).1.trace →
        FramesHold (machine.invoke budget depth callee state).1.trace) :
    AssignmentSound machine act (machine.invoke budget depth) (FrameBelief machine act)
      (fun state => FramesSpared state.trace → FramesHold state.trace)
      (fun _ state => FramesSpared state.trace → FramesHold state.trace) where
  grows operation state := State.grows_operate
    (fun callee entered => State.grows_invoke machine budget depth callee entered)
    operation state
  operation operation belief state mem checked holds := by
    by_cases isCall : ∃ results function args, operation = .call results function args
    · obtain ⟨results, function, args, rfl⟩ := isCall
      exact frameBelief_call accepted wellFormed callee checked holds
    · exact frameBelief_operation accepted wellFormed mem
        (fun results function args same => isCall ⟨results, function, args, same⟩)
        checked holds
  condition condition belief state _ holds := by
    have reached : FrameBelief machine act belief (state.reach act (.condition condition)) :=
      ⟨holds.entered, holds.typed, holds.frames, holds.held⟩
    have read : FrameBelief machine act belief
        ((act.semantics machine (machine.invoke budget depth)).cond condition state).1 :=
      reached.extends (State.extends_run fun _ _ => ⟨trivial, fun _ => trivial⟩)
    rcases ran : (act.semantics machine (machine.invoke budget depth)).cond condition state
      with ⟨next, reason | value⟩
    · rw [ran] at read
      exact read.frames
    · rw [ran] at read
      exact read
  result values belief state _ holds := by
    have reached : FrameBelief machine act belief (state.reach act (.result values)) :=
      ⟨holds.entered, holds.typed, holds.frames, holds.held⟩
    have read : FrameBelief machine act belief
        ((act.semantics machine (machine.invoke budget depth)).ret values state).1 :=
      reached.extends (State.extends_run fun _ _ => ⟨trivial, fun _ => trivial⟩)
    rcases ran : (act.semantics machine (machine.invoke budget depth)).ret values state
      with ⟨next, reason | value⟩
    · rw [ran] at read
      exact read.frames
    · rw [ran] at read
      exact read.frames
  joinLeft lhs rhs state _ holds :=
    holds.weaken fun localId flagged => holdsProcessFrame_join_left flagged
  joinRight lhs rhs state _ holds :=
    holds.weaken fun localId flagged => holdsProcessFrame_join_right flagged
  again belief entry other now atEntry grown holds := by
    refine ⟨holds.entered, atEntry.typed, fun spared => holds.frames spared.2,
      fun spared localId flagged => ?_⟩
    obtain ⟨later, traceEq⟩ := grown.suffix
    have atStart : now.trace.drop (now.trace.length - entry.trace.length) = entry.trace := by
      rw [← traceEq, List.length_append, Nat.add_sub_cancel, List.drop_left]
    have before : FramesSpared entry.trace := by
      apply @framesSpared_suffix later
      rw [traceEq]
      exact spared.2
    have kept := spared.1 localId
    rw [atStart] at kept
    exact kept (atEntry.held before localId flagged)
  spent belief state holds := holds.frames

/-- A call that the checker accepted accesses audio only with frames. -/
theorem invoke_frames {budget depth : Nat} (accepted : machine.program.Accepted)
    (wellFormed : act.WellFormed machine) (entered : act.id < state.next)
    (hold : FramesSpared state.trace → FramesHold state.trace)
    (spared : FramesSpared (machine.invoke budget depth act state).1.trace) :
    FramesHold (machine.invoke budget depth act state).1.trace := by
  induction depth generalizing act state with
  | zero => exact hold spared
  | succ depth ih =>
    have checked := accepted.assignment wellFormed.declared
    have sound := @frameBelief_sound machine act budget depth accepted wellFormed
      fun callee wellFormed state entered hold spared => ih wellFormed entered hold spared
    have started : FrameBelief machine act
        (AssignmentState.new act.function.locals.length) state := by
      have unflagged (localId : LocalId) : holdsProcessFrame
          (AssignmentState.new act.function.locals.length) localId = false := by
        simp only [holdsProcessFrame, AssignmentState.new, List.getElem?_replicate]
        by_cases inRange : localId < act.function.locals.length <;> simp [inRange]
      exact ⟨entered, fun localId flagged => by simp [unflagged] at flagged, hold,
        fun _ localId flagged => by simp [unflagged] at flagged⟩
    have ended := @AssignmentSound.block_ends machine act _ budget _ _ _ sound
      act.function.body _ (fun _ mem => mem) checked state started
    change FramesSpared (execBlock _ budget act.function.body state).1.trace at spared
    change FramesHold (execBlock _ budget act.function.body state).1.trace
    rcases ran : execBlock (act.semantics machine (machine.invoke budget depth)) budget
      act.function.body state with ⟨final, outcome⟩
    rw [ran] at ended spared
    cases outcome with
    | fall =>
      obtain ⟨_, _, holds⟩ := ended
      exact holds.frames spared
    | brk =>
      obtain ⟨_, _, holds⟩ := ended
      exact holds.frames spared
    | cont =>
      obtain ⟨_, _, holds⟩ := ended
      exact holds.frames spared
    | ret => exact ended spared
    | stop => exact ended spared

end Steps

/-- The activation the host starts is well formed. -/
theorem rootActivation_wellFormed {machine : Machine} {function : FunctionId}
    {callee : Function} (found : machine.program.functions[function]? = some callee) :
    (rootActivation function callee).WellFormed machine where
  declared := found
  params := by simp [rootActivation]
  typed index loc param atLocs atParams := by
    obtain ⟨other, declared, rfl⟩ : ∃ other, callee.params[index]? = some other ∧
        argumentLoc 0 index other.ty = loc := by
      simpa [rootActivation] using atLocs
    obtain rfl := Option.some.inj (declared.symm.trans atParams)
    rfl
  older loc mem _ owner owned := by
    obtain ⟨index, param, rfl⟩ : ∃ index, ∃ param : FunctionParam,
        argumentLoc 0 index param.ty = loc := by
      obtain ⟨index, inRange, rfl⟩ := List.mem_mapIdx.mp mem
      exact ⟨index, _, rfl⟩
    exact Or.inr ⟨index, rfl⟩

/-- **Process frames.**  In every run of a function of an accepted program that
spares its frames, every audio access uses a frame that `ProcessFrame` produced
in the same activation and nothing has overwritten since. -/
theorem process_frames_dominate (machine : Machine) (accepted : machine.program.Accepted)
    (budget depth : Nat) (function : FunctionId) (args : List Data) (memory : Memory)
    (spared : FramesSpared (machine.enter budget depth function args memory).1.trace) :
    FramesHold (machine.enter budget depth function args memory).1.trace := by
  unfold Machine.enter at spared ⊢
  split at spared
  · trivial
  · next callee found =>
    exact invoke_frames accepted (rootActivation_wellFormed found)
      (by simp [rootActivation]) (fun _ => trivial) spared

/-- A block that copies a frame of the input to the output. -/
def copiesFrame : Program :=
  .minimal [] { inputs := [{ name := "in", ty := 1 }], outputs := [{ name := "out", ty := 1 }] }
    [{ ty := 0 }, { ty := 1 }]
    [.op (.assign (.localVar 0) (.processFrame (.i32 3))),
     .op (.assign (.localVar 1) (.inputLoad 0 none .clamp (.localVar 0))),
     .op (.outputStore 0 none .clamp (.localVar 0) (.localVar 1))]

theorem copiesFrame_dominated :
    FramesHold (copiesFrame.onSilentHost.process 1 1).1.trace :=
  process_frames_dominate copiesFrame.onSilentHost (by decide) 1 1 1 _ _
    (framesSpared_of_plain (by decide))

/-- A loop whose second pass reads the input at a number that is no frame. -/
def overwritesFrame : Program :=
  .minimal [] { inputs := [{ name := "in", ty := 1 }] } [{ ty := 0 }, { ty := 1 }]
    [.op (.assign (.localVar 0) (.processFrame (.i32 0))),
     .loop
      [.op (.assign (.localVar 1) (.inputLoad 0 none .clamp (.localVar 0))),
       .op (.assign (.localVar 0) (.use (.i32 7)))]]

theorem overwritesFrame_not_dominated :
    overwritesFrame.Accepted ∧
      ¬ FramesHold (overwritesFrame.onSilentHost.process 2 1).1.trace := by
  decide

end Onda.Mir
