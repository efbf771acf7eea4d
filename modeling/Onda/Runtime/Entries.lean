import Onda.Runtime.Standing

/-!
# Unchecked entries of a session

Between two operations a session's instance has all its bindings prepared, whatever failed
before.  It need not be initialized: the session hands errors to its host and does not remember
them.  So an unchecked entry is valid when the operation that makes it begins on an initialized
instance, and a host that calls on after a failure breaks the contract of the entries.
-/

namespace Onda.Runtime

open Effects
open Onda.Project (Platform)

variable {W S V X : Type}

/-! ### Generated calls -/

section Generated

variable (platform : Platform) (code : GeneratedCode W) (program : JitProgram)
  {ready : Bool} {done : List Surface}

theorem holds_read {α : Type} {F : Stop → Active W → Prop} (view : Active W → α) :
    Holds (Holding ready done) (Call.read view) (fun _ => Holding ready done) F :=
  Holds.read fun _ holding => holding

theorem Surface.flag_settle (surface : Surface) (state : InstanceState) (world : W)
    (call : GeneratedCall) (failed : Bool) (active : Active W) :
    surface.flag (settle state world call failed active).inst = surface.flag active.inst := by
  cases surface <;> rfl

/-- A generated call that ends with an initialized image, or not. -/
theorem Holding.settleAllocated {active : Active W} {storage : Bytes} {world : W}
    {call : GeneratedCall} {initialized failed : Bool} (holding : Holding ready done active)
    (recovers : call.rebuilds = true ∨ ready = true) (opposite : failed = !initialized) :
    Holding initialized done (settle (.allocated storage initialized) world call failed active) := by
  refine ⟨⟨?_, ?_⟩, holding.sound, fun wanted => wanted, ?_⟩
  · intro wanted
    have succeeded : initialized = true := wanted
    show (!failed && (call.rebuilds || live active.inst.history)) = true
    rw [opposite, succeeded]
    rcases recovers with rebuilds | initialized
    · simp [rebuilds]
    · simp [holding.tracked.live (holding.ready initialized)]
  · intro surface flag
    rw [surface.flag_settle] at flag
    exact holding.tracked.validated surface flag
  · intro surface mem
    rw [surface.flag_settle]
    exact holding.done surface mem

theorem Holding.settlePending {active : Active W} {storage : Bytes} {world : W}
    {call : GeneratedCall} {failed : Bool} (holding : Holding ready done active) :
    Holding false done (settle (.pending storage) world call failed active) := by
  refine ⟨⟨fun wanted => ?_, ?_⟩, holding.sound, fun wanted => ?_, ?_⟩
  · exact absurd wanted (by simp [settle, Instance.record, Instance.isInitialized])
  · intro surface flag
    rw [surface.flag_settle] at flag
    exact holding.tracked.validated surface flag
  · exact absurd wanted (by simp)
  · intro surface mem
    rw [surface.flag_settle]
    exact holding.done surface mem

theorem opposite_status (status : UInt32) :
    decide (status ≠ PROCESSOR_EXECUTION_OK) = !decide (status = PROCESSOR_EXECUTION_OK) := by
  simp

/-- A call that rebuilds the image makes the instance initialized exactly when it succeeds. -/
theorem holds_attemptStatus {call : GeneratedCall}
    {operation : Active W → Except String UInt32 × Bytes × W} (rebuilds : call.rebuilds = true) :
    Holds (Holding ready done) (attemptStatus call operation)
      (fun status => Holding (status = PROCESSOR_EXECUTION_OK) done)
      (fun _ => Holding false done) := by
  intro active holding
  unfold attemptStatus
  rcases operation active with ⟨result, storage, world⟩
  cases result with
  | ok status =>
    refine ⟨fun value same => ?_, fun stop same => (by cases same)⟩
    obtain rfl := Except.ok.inj same
    exact holding.settleAllocated (.inl rebuilds) (opposite_status _)
  | error message =>
    refine ⟨fun value same => (by cases same), fun stop same => ?_⟩
    exact holding.settleAllocated (.inl rebuilds) rfl

theorem holds_initializePending (storage : Bytes) :
    Holds (Holding ready done) (initializePending code storage)
      (fun status => Holding (status = PROCESSOR_EXECUTION_OK) done)
      (fun _ => Holding false done) := by
  intro active holding
  unfold initializePending
  rcases code.initializeAllocatedState active.inst.params storage active.inst.bufferTables
    active.env.world with ⟨result, storage', world⟩
  cases result with
  | ok status =>
    refine ⟨fun value same => ?_, fun stop same => (by cases same)⟩
    obtain rfl := Except.ok.inj same
    by_cases succeeded : status = PROCESSOR_EXECUTION_OK
    · simp only [if_pos succeeded, decide_eq_true succeeded]
      exact holding.settleAllocated (.inl rfl) (by simp [succeeded])
    · simp only [if_neg succeeded, decide_eq_false succeeded]
      exact holding.settlePending
  | error message =>
    refine ⟨fun value same => (by cases same), fun stop same => ?_⟩
    exact holding.settlePending

theorem holds_initCheckedWithStatus (mode : InitMode) :
    Holds (Holding ready done) (initCheckedWithStatus code program mode)
      (fun status => Holding (status = PROCESSOR_EXECUTION_OK) (.buffers :: done))
      (fun _ => Holding false done) := by
  have fewer : ∀ {ready : Bool} {active : Active W}, Holding ready (.buffers :: done) active →
      Holding false done active := fun holding =>
    holding.weaken (by simp) fun _ mem => List.mem_cons_of_mem _ mem
  have begins := (holds_unlessValidated .buffers (fun _ => rfl)
    (@holds_validateBuffers W program ready done)).imp
      (fun _ before => before) (fun _ _ after => after) fun _ _ after => after.unready
  refine Holds.bind begins fun _ => Holds.bind (holds_read _)
    fun state => ?_
  cases state with
  | pending storage =>
    refine Holds.ite (fun _ => ?_) fun _ => Holds.fail fun _ holding => fewer holding
    exact (holds_initializePending code storage).imp (fun _ before => before)
      (fun _ _ after => after) fun _ _ after => fewer after
  | allocated storage initialized =>
    refine Holds.ite (fun _ => Holds.fail fun _ holding => fewer holding) fun _ => ?_
    exact (holds_attemptStatus rfl).imp (fun _ before => before)
      (fun _ _ after => after) fun _ _ after => fewer after

/-- The status check of a caller. -/
theorem holds_checkExecutionStatus (status : UInt32) :
    Holds (Holding (status = PROCESSOR_EXECUTION_OK) done)
      (checkExecutionStatus status : InstanceCall W Unit)
      (fun _ => Holding true done) (fun _ => Holding false done) := by
  refine Holds.ite (fun succeeded => ?_) fun _ => Holds.ite (fun _ => ?_) fun _ => ?_
  · exact Holds.pure fun _ holding => holding.weaken (fun _ => decide_eq_true succeeded)
      fun _ mem => mem
  · exact Holds.fail fun _ holding => holding.unready
  · exact Holds.fail fun _ holding => holding.unready

theorem holds_initCheckedWithOutput (mode : InitMode) :
    Holds (Holding ready done) (initCheckedWithOutput code program mode)
      (fun _ => Holding true (.buffers :: done)) (fun _ => Holding false done) := by
  refine Holds.bind (holds_initCheckedWithStatus code program mode) fun status => ?_
  exact (holds_checkExecutionStatus status).imp (fun _ before => before)
    (fun _ _ after => after) fun _ _ after =>
      after.weaken id fun _ mem => List.mem_cons_of_mem _ mem

theorem holds_initializedState :
    Holds (Holding ready done) (initializedState : InstanceCall W Bytes)
      (fun _ => Holding true done) (fun _ => Holding ready done) := by
  refine Holds.bind (Q := fun state active => Holding ready done active ∧ active.inst.state = state)
    (Holds.read fun active holding => ⟨holding, rfl⟩) fun state => ?_
  cases state with
  | pending storage => exact Holds.fail fun _ before => before.1
  | allocated storage initialized =>
    cases initialized with
    | false => exact Holds.fail fun _ before => before.1
    | true =>
      refine Holds.pure fun active ⟨holding, same⟩ =>
        ⟨holding.tracked, holding.sound, fun _ => ?_, holding.done⟩
      rw [Instance.isInitialized, same]

theorem holds_prepareUncheckedProcess :
    Holds (Holding ready done) (prepareUncheckedProcess platform program : InstanceCall W Unit)
      (fun _ => Holding true allSurfaces) (fun _ => Holding false done) := by
  refine Holds.bind (holds_initializedState.imp (fun _ before => before) (fun _ _ after => after)
    fun _ _ after => after.unready) fun _ => ?_
  exact (holds_validateBindingsForProcess platform program).imp (fun _ before => before)
    (fun _ _ after => after) fun _ _ after => after.unready

theorem holds_restoreStateBytesWithStatus (bytes : Bytes) :
    Holds (Holding ready done) (restoreStateBytesWithStatus code program bytes)
      (fun status => Holding (status = PROCESSOR_EXECUTION_OK) done)
      (fun _ => Holding false done) := by
  have fewer : ∀ {ready : Bool} {active : Active W}, Holding ready (.buffers :: done) active →
      Holding ready done active := fun holding =>
    holding.weaken id fun _ mem => List.mem_cons_of_mem _ mem
  have begins := (holds_unlessValidated .buffers (fun _ => rfl)
    (@holds_validateBuffers W program ready done)).imp
      (fun _ before => before) (fun _ _ after => fewer after) fun _ _ after => after.unready
  refine Holds.bind (Q := fun _ => Holding ready done)
    (Holds.refuseIf (fun _ _ holding => holding) fun _ _ holding => holding.unready) fun _ => ?_
  refine Holds.bind begins fun _ => Holds.bind (holds_read _)
    fun state => ?_
  cases state with
  | pending storage =>
    refine Holds.bind (holds_initCheckedWithStatus code program .full) fun status => ?_
    refine Holds.ite (fun _ => Holds.pure fun _ holding => fewer holding) fun _ => ?_
    refine Holds.bind (holds_read _) fun state => ?_
    cases state with
    | pending storage => exact Holds.fail fun _ holding => (fewer holding).unready
    | allocated storage initialized =>
      exact (holds_attemptStatus rfl).imp (fun _ before => fewer before)
        (fun _ _ after => after) fun _ _ after => after
  | allocated storage initialized => exact holds_attemptStatus rfl

/-! ### The unchecked entries -/

/-- An entry that keeps the contract is logged as a valid one. -/
theorem holds_logEntry (point : EntryPoint) :
    Holds (Holding true allSurfaces) (logEntry point : InstanceCall W Unit)
      (fun _ => Holding true allSurfaces) (fun _ => Holding false allSurfaces) := by
  refine Holds.update fun active holding => ⟨holding.tracked, ?_, holding.ready, holding.done⟩
  intro entry mem
  rcases List.mem_cons.mp mem with rfl | mem
  · exact ⟨holding.tracked.live (holding.ready rfl), fun surface =>
      holding.tracked.validated surface (holding.done surface (mem_allSurfaces surface))⟩
  · exact holding.sound entry mem

theorem Keeps.validateProcessSegment (startFrame frames : Nat) (flags : UInt32) :
    Keeps ready done
      (validateProcessSegment platform startFrame frames flags : InstanceCall W Unit) := by
  refine Keeps.bind (Keeps.read _) fun framesPerBlock => ?_
  refine Keeps.bind (Keeps.refuseIf _ _) fun _ => Keeps.bind (Keeps.refuseIf _ _) fun _ => ?_
  exact Keeps.refuseIf _ _

theorem Keeps.u32TryFrom (value : Nat) (message : String) :
    Keeps ready done (u32TryFrom value message : InstanceCall W UInt32) :=
  Keeps.bind (Keeps.refuseIf _ _) fun _ => Keeps.pure _

/-- Entered on a ready instance, the process code leaves it ready unless it fails. -/
theorem holds_processUncheckedSegment (startFrame frames : Nat) (flags : UInt32) :
    Holds (Holding true allSurfaces)
      (processUncheckedSegment platform code startFrame frames flags)
      (fun status => Holding (status = PROCESSOR_EXECUTION_OK) allSurfaces)
      (fun _ => Holding false allSurfaces) := by
  have forget : ∀ {α : Type} {call : InstanceCall W α}, Keeps true allSurfaces call →
      Holds (Holding true allSurfaces) call (fun _ => Holding true allSurfaces)
        (fun _ => Holding false allSurfaces) := fun keeps =>
    keeps.imp (fun _ before => before) (fun _ _ after => after) fun _ _ after => after.unready
  refine Holds.bind (holds_logEntry .processUncheckedSegment) fun _ => ?_
  refine Holds.bind (forget (Keeps.validateProcessSegment platform _ _ _)) fun _ => ?_
  refine Holds.bind (forget (Keeps.u32TryFrom _ _)) fun start => ?_
  refine Holds.bind (forget (Keeps.u32TryFrom _ _)) fun count => ?_
  refine Holds.bind (holds_read _) fun state => ?_
  cases state with
  | pending storage => exact Holds.fail fun _ holding => holding.unready
  | allocated storage initialized =>
    cases initialized with
    | false => exact Holds.fail fun _ holding => holding.unready
    | true =>
      intro active holding
      refine ⟨fun status same => ?_, fun stop same => (by cases same)⟩
      obtain rfl := Except.ok.inj same
      exact holding.settleAllocated (.inr rfl) (opposite_status _)

/-- Entered on a ready instance, an event leaves it ready unless it fails. -/
theorem holds_triggerEventByIndexUnchecked (eventIndex : Nat) (payload : Bytes) :
    Holds (Holding true allSurfaces)
      (triggerEventByIndexUnchecked code program eventIndex payload)
      (fun status => Holding (status = PROCESSOR_EXECUTION_OK) allSurfaces)
      (fun _ => Holding false allSurfaces) := by
  refine Holds.bind (holds_logEntry .triggerEventByIndexUnchecked) fun _ => ?_
  refine Holds.bind (holds_read _) fun state => ?_
  cases state with
  | pending storage => exact Holds.fail fun _ holding => holding.unready
  | allocated storage initialized =>
    cases initialized with
    | false => exact Holds.fail fun _ holding => holding.unready
    | true =>
      refine Holds.ite (fun _ => ?_) fun _ => Holds.pure fun _ holding => ?_
      · intro active holding
        refine ⟨fun status same => ?_, fun stop same => (by cases same)⟩
        obtain rfl := Except.ok.inj same
        refine (holding.settleAllocated (.inr rfl) (Bool.not_not _).symm).weaken
          (fun succeeded => ?_) fun _ mem => mem
        simp [eventStatusInvalidatesState, of_decide_eq_true succeeded]
      · exact holding.weaken (fun _ => rfl) fun _ mem => mem

end Generated

end Onda.Runtime
