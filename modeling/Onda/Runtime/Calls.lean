import Onda.Runtime.Preparing

/-!
# What one operation of an instance does

A call that may enter generated code has an `Outcome`: the tables of each entry are exact, the
image is initialized exactly if the call rebuilt it or did not harm it, and a call that did not
enter leaves the instance untouched.  The other operations change the host's side only.
-/

namespace Onda.Runtime

open Effects
open Onda.Project (Platform f32IsFinite f32LeZero)

variable {W V : Type} {platform : Platform} {native : NativeCode W V} {program : JitProgram}

/-! ### Outcomes -/

/-- The tables of the entry are those of the bindings. -/
structure Entered.Exact (platform : Platform) (program : JitProgram) (inst : Instance)
    (entry : Entered) : Prop where
  buffers : entry.buffers = inst.bufferTable program
  channels : entry.channels =
    if entry.call = .process then
      some (inst.inputTable platform program, inst.outputTable platform program)
    else none

namespace StatusCall

/-- Full initialization and restore build a new image. -/
def rebuilds : StatusCall V → Bool
  | .init mode => decide (mode = .full)
  | .restore _ => true
  | .process _ _ _ | .event _ _ | .eventViews _ _ => false

/-- The calls whose input can be rejected. -/
def isEvent : StatusCall V → Bool
  | .event _ _ | .eventViews _ _ => true
  | .init _ | .restore _ | .process _ _ _ => false

/-- A full initialization or restore that completed. -/
def Rebuilt (call : StatusCall V) (entered : List Entered) (result : Except Stop UInt32) : Prop :=
  entered ≠ [] ∧ call.rebuilds = true ∧ result = .ok PROCESSOR_EXECUTION_OK

/-- The generated code was not entered, or it completed, or it rejected the input. -/
def Harmless (call : StatusCall V) (entered : List Entered) (result : Except Stop UInt32) : Prop :=
  entered = [] ∨ result = .ok PROCESSOR_EXECUTION_OK ∨
    call.isEvent = true ∧ result = .ok PROCESSOR_EXECUTION_INPUT_REJECTED

end StatusCall

/-- What a call with a status does, from a state in which nothing was entered. -/
structure Outcome (platform : Platform) (native : NativeCode W V) (program : JitProgram)
    (call : StatusCall V) (start : Active (Host W)) (result : Except Stop UInt32)
    (active : Active (Host W)) : Prop where
  upkeep : Upkeep platform native program active.inst
  tables : ∀ entry ∈ active.env.world.entered, entry.Exact platform program start.inst
  initialized : active.inst.isInitialized = true ↔
    call.Rebuilt active.env.world.entered result ∨
      start.inst.isInitialized = true ∧ call.Harmless active.env.world.entered result
  untouched : active.env.world.entered = [] → Untouched start.inst active.inst

variable {start : Active (Host W)} {done : List Surface} {call : StatusCall V}

variable {active : Active (Host W)} {initialized : Bool} {storage : Bytes}
  {result : Except Stop UInt32} {tables : List BoundBuffer}

/-- A call that ends before it enters generated code. -/
theorem Prelude.outcome (begun : Prelude platform native program start done active)
    (fresh : start.env.world.entered = []) :
    Outcome platform native program call start result active := by
  have none : active.env.world.entered = [] := by
    rw [begun.env]
    exact fresh
  refine ⟨begun.upkeep, ?_, ?_, fun _ => begun.untouched⟩
  · rw [none]
    intro entry mem
    cases mem
  · rw [none, begun.untouched.isInitialized]
    exact ⟨fun ready => .inr ⟨ready, .inl rfl⟩, fun held => held.elim
      (fun rebuilt => absurd rfl rebuilt.1) And.left⟩

/-- A step of a call that ends it if it fails. -/
theorem Holds.begins {α : Type} {first : InstanceCall (Host W) α}
    {Q : α → Active (Host W) → Prop} {done' : List Surface}
    (fresh : start.env.world.entered = [])
    (holds : Holds (Prelude platform native program start done) first Q
      (fun _ => Prelude platform native program start done')) :
    Holds (Prelude platform native program start done) first Q
      (fun stop => Outcome platform native program call start (.error stop)) :=
  holds.imp (fun _ begun => begun) (fun _ _ after => after) fun _ _ after => after.outcome fresh

/-- A call that enters generated code once. -/
theorem Prelude.enters {entry : Entered} (begun : Prelude platform native program start done active)
    (fresh : start.env.world.entered = []) (exact : entry.Exact platform program start.inst)
    (state : InstanceState) (world : W) (generated : GeneratedCall) (failed : Bool)
    (accepts : ∀ storage initialized, state = .allocated storage initialized →
      Accepts native program active.inst.config active.inst.params)
    (initialized : (∃ storage, state = .allocated storage true) ↔
      call.rebuilds = true ∧ result = .ok PROCESSOR_EXECUTION_OK ∨
        start.inst.isInitialized = true ∧ (result = .ok PROCESSOR_EXECUTION_OK ∨
          call.isEvent = true ∧ result = .ok PROCESSOR_EXECUTION_INPUT_REJECTED)) :
    Outcome platform native program call start result
      (settle state ⟨world, entry :: active.env.world.entered⟩ generated failed active) := by
  have none : active.env.world.entered = [] := by
    rw [begun.env]
    exact fresh
  rw [none]
  refine ⟨begun.upkeep.withState _ accepts, ?_, ?_, fun empty => ?_⟩
  · intro other mem
    rw [List.mem_singleton.mp mem]
    exact exact
  · have flag : (settle state ⟨world, [entry]⟩ generated failed active).inst.isInitialized = true ↔
        ∃ storage, state = .allocated storage true := by
      show Instance.isInitialized { active.inst with state := state } = true ↔ _
      unfold Instance.isInitialized
      cases state with
      | pending storage => exact ⟨fun ready => (by cases ready), fun ⟨_, same⟩ => (by cases same)⟩
      | allocated storage ready =>
        refine ⟨fun set => ⟨storage, congrArg _ set⟩, fun ⟨_, same⟩ => ?_⟩
        exact (InstanceState.allocated.inj same).2
    rw [flag, initialized]
    refine or_congr ⟨fun held => ⟨List.cons_ne_nil _ _, held⟩, And.right⟩
      (and_congr_right fun _ => ⟨.inr, fun held => held.resolve_left (List.cons_ne_nil _ _)⟩)
  · cases empty

/-- Nothing but the history changes. -/
theorem Prelude.settled (begun : Prelude platform native program start done active)
    {state : InstanceState} (same : active.inst.state = state) (generated : GeneratedCall)
    (failed : Bool) :
    Prelude platform native program start done
      (settle state active.env.world generated failed active) := by
  subst same
  exact ⟨begun.untouched.trans ⟨rfl, rfl, rfl, rfl, rfl, rfl⟩, begun.env,
    begun.upkeep.withState _ begun.upkeep.accepts,
    fun surface mem => by cases surface <;> exact begun.done _ mem⟩

/-- The buffer tables of a call that has checked them. -/
theorem Prelude.bufferTables (begun : Prelude platform native program start done active)
    (checked : .buffers ∈ done) :
    active.inst.bufferTables = start.inst.bufferTable program :=
  (begun.upkeep.exact .buffers (begun.done _ checked)).trans begun.untouched.bufferTable

theorem Prelude.exact (begun : Prelude platform native program start done active)
    (checked : .buffers ∈ done) {generated : GeneratedCall} (other : generated ≠ .process) :
    Entered.Exact platform program start.inst ⟨generated, active.inst.bufferTables, none⟩ where
  buffers := begun.bufferTables checked
  channels := (if_neg other).symm

/-! ### Initialization -/

theorem runInit_error {mode : InitMode} {params : Bytes} {host : Host W} {message : String}
    (check : native.checkInit program params tables = .error message) :
    native.runInit program mode params storage tables host = (.error message, storage, host) := by
  unfold NativeCode.runInit
  rw [check]

theorem runInit_ok {mode : InitMode} {params : Bytes} {host : Host W}
    (check : native.checkInit program params tables = .ok ()) :
    native.runInit program mode params storage tables host =
      (.ok (native.init mode params storage tables host.world).1,
        (native.init mode params storage tables host.world).2.1,
        ⟨(native.init mode params storage tables host.world).2.2,
          ⟨.init, tables, none⟩ :: host.entered⟩) := by
  unfold NativeCode.runInit
  rw [check]
  rfl

/-- The state of a call that has checked some surfaces. -/
theorem prelude_readState :
    Holds (Prelude platform native program start done)
      (Call.read fun active => active.inst.state : InstanceCall (Host W) InstanceState)
      (fun state active => Prelude platform native program start done active ∧
        active.inst.state = state)
      (fun _ => Prelude platform native program start done) :=
  Holds.read fun _ begun => ⟨begun, rfl⟩

/-- The first initialization, of a pending image. -/
theorem outcome_initializePending (fresh : start.env.world.entered = []) (storage : Bytes) :
    Holds (fun active => Prelude platform native program start [.buffers] active ∧
        active.inst.state = .pending storage)
      (initializePending (native.entries program) storage)
      (fun status active =>
        Outcome platform native program (.init .full) start (.ok status) active ∧
          (status = PROCESSOR_EXECUTION_OK → active.env.world.entered ≠ []))
      (fun stop => Outcome platform native program (.init .full) start (.error stop)) := by
  rintro active ⟨begun, state⟩
  unfold initializePending
  show _ ∧ _
  have tables := begun.upkeep.exact .buffers (begun.done _ (List.mem_singleton_self _))
  cases check : native.checkInit program active.inst.params active.inst.bufferTables with
  | error message =>
    have run : (native.entries program).initializeAllocatedState active.inst.params storage
        active.inst.bufferTables active.env.world = (.error message, storage, active.env.world) :=
      runInit_error check
    rw [run]
    refine ⟨fun value same => (by cases same), fun stop _ => ?_⟩
    exact (begun.settled state .init true).outcome fresh
  | ok passed =>
    have run : (native.entries program).initializeAllocatedState active.inst.params storage
        active.inst.bufferTables active.env.world = _ := runInit_ok check
    rw [run]
    refine ⟨fun value same => ?_, fun stop failed => (by cases failed)⟩
    obtain rfl := Except.ok.inj same
    refine ⟨begun.enters fresh (begun.exact (List.mem_singleton_self _) (by decide)) _ _ _ _ ?_ ?_,
      fun _ => List.cons_ne_nil _ _⟩
    · intro storage' initialized allocated
      rw [show active.inst.bufferTables = _ from tables] at check
      exact begun.upkeep.accepted check
    · have pending : ¬start.inst.isInitialized = true := by
        rw [← begun.untouched.isInitialized]
        unfold Instance.isInitialized
        rw [state]
        exact Bool.false_ne_true
      constructor
      · rintro ⟨storage', same⟩
        split at same
        · rename_i ok
          exact .inl ⟨rfl, congrArg _ ok⟩
        · cases same
      · rintro (⟨-, ok⟩ | ⟨ready, -⟩)
        · rw [if_pos (Except.ok.inj ok)]
          exact ⟨_, rfl⟩
        · exact absurd ready pending

/-- An image that was allocated: the checks of its initialization pass. -/
theorem Prelude.checkInit (begun : Prelude platform native program start done active)
    (checked : .buffers ∈ done) (state : active.inst.state = .allocated storage initialized) :
    native.checkInit program active.inst.params active.inst.bufferTables = .ok () := by
  rw [show active.inst.bufferTables = _ from begun.upkeep.exact .buffers (begun.done _ checked)]
  exact begun.upkeep.checkInit (begun.upkeep.accepts storage initialized state)

theorem Prelude.isInitialized_of_state (begun : Prelude platform native program start done active)
    (state : active.inst.state = .allocated storage initialized) :
    start.inst.isInitialized = initialized := by
  rw [← begun.untouched.isInitialized]
  unfold Instance.isInitialized
  rw [state]

/-- The state of a call after the success status, and after no other. -/
theorem allocated_iff {status : UInt32} :
    (∃ storage', InstanceState.allocated storage (decide (status = PROCESSOR_EXECUTION_OK)) =
      .allocated storage' true) ↔
        (Except.ok status : Except Stop UInt32) = .ok PROCESSOR_EXECUTION_OK := by
  constructor
  · rintro ⟨storage', same⟩
    exact congrArg _ (of_decide_eq_true (InstanceState.allocated.inj same).2)
  · intro same
    rw [Except.ok.inj same]
    exact ⟨storage, rfl⟩

theorem outcome_init (fresh : start.env.world.entered = []) (mode : InitMode) :
    Holds (Prelude platform native program start [])
      (initCheckedWithStatus (native.entries program) program mode)
      (fun status active =>
        Outcome platform native program (.init mode) start (.ok status) active ∧
          (status = PROCESSOR_EXECUTION_OK → active.env.world.entered ≠ []))
      (fun stop => Outcome platform native program (.init mode) start (.error stop)) := by
  refine Holds.bind (Holds.begins fresh prelude_unlessBuffers) fun _ => ?_
  refine Holds.bind (Holds.begins fresh prelude_readState) fun state => ?_
  cases state with
  | pending storage =>
    refine Holds.ite (fun full => ?_) fun _ => ?_
    · subst full
      exact outcome_initializePending fresh storage
    · exact Holds.fail fun active before => before.1.outcome fresh
  | allocated storage initialized =>
    refine Holds.ite (fun _ => ?_) fun allowed => ?_
    · exact Holds.fail fun active before => before.1.outcome fresh
    rintro active ⟨begun, state⟩
    have mem : Surface.buffers ∈ [Surface.buffers] := List.mem_singleton_self _
    unfold attemptStatus
    have run : (native.entries program).initializeStateInPlace mode active.inst.params storage
        active.inst.bufferTables active.env.world = _ := runInit_ok (begun.checkInit mem state)
    dsimp only
    rw [run]
    refine ⟨fun value same => ?_, fun stop failed => (by cases failed)⟩
    obtain rfl := Except.ok.inj same
    refine ⟨begun.enters fresh (begun.exact mem (by decide)) _ _ _ _
      (fun _ _ _ => begun.upkeep.accepts storage initialized state) ?_,
      fun _ => List.cons_ne_nil _ _⟩
    rw [allocated_iff]
    constructor
    · intro ok
      by_cases full : mode = .full
      · exact .inl ⟨decide_eq_true full, ok⟩
      · -- the pinned state is kept of an image that is initialized only
        refine .inr ⟨?_, .inl ok⟩
        rw [begun.isInitialized_of_state state]
        cases mode with
        | full => exact absurd rfl full
        | preservePinned =>
          rw [← Bool.not_eq_false]
          exact fun uninitialized => allowed ⟨rfl, uninitialized⟩
    · rintro (⟨-, ok⟩ | ⟨-, ok | ⟨event, -⟩⟩)
      · exact ok
      · exact ok
      · cases event

/-! ### Restore -/

/-- An initialization that did not complete is what its restore does. -/
theorem Outcome.restore {bytes : Bytes}
    (outcome : Outcome platform native program (.init .full) start result active) :
    Outcome platform native program (.restore bytes) start result active :=
  ⟨outcome.upkeep, outcome.tables, outcome.initialized, outcome.untouched⟩

/-- The end of a restore, after the initialization of a pending image. -/
theorem Outcome.overlaid {bytes : Bytes} {result' : Except Stop UInt32}
    (outcome : Outcome platform native program (.init .full) start result active)
    (entered : active.env.world.entered ≠ [])
    (state : active.inst.state = .allocated storage initialized) (storage' : Bytes) (ready : Bool)
    (completed : ready = true ↔ result' = .ok PROCESSOR_EXECUTION_OK) (generated : GeneratedCall)
    (failed : Bool) :
    Outcome platform native program (.restore bytes) start result'
      (settle (.allocated storage' ready) active.env.world generated failed active) := by
  refine ⟨outcome.upkeep.withState _
    (fun _ _ _ => outcome.upkeep.accepts storage initialized state), outcome.tables, ?_,
    fun empty => absurd empty entered⟩
  show ready = true ↔ _
  rw [completed]
  refine ⟨fun ok => .inl ⟨entered, rfl, ok⟩, ?_⟩
  rintro (⟨-, -, ok⟩ | ⟨-, empty | ok | ⟨event, -⟩⟩)
  · exact ok
  · exact absurd empty entered
  · exact ok
  · cases event

/-- The restore of an image that was allocated. -/
theorem outcome_restoreAllocated (fresh : start.env.world.entered = []) (bytes storage : Bytes)
    (initialized : Bool) :
    Holds (fun active => Prelude platform native program start [.buffers] active ∧
        active.inst.state = .allocated storage initialized)
      (attemptStatus .restore
        (restoreStateSnapshotWithStatus (native.entries program) storage bytes))
      (fun status => Outcome platform native program (.restore bytes) start (.ok status))
      (fun stop => Outcome platform native program (.restore bytes) start (.error stop)) := by
  rintro active ⟨begun, state⟩
  have mem : Surface.buffers ∈ [Surface.buffers] := List.mem_singleton_self _
  have run : (native.entries program).initializeStateInPlace .full active.inst.params storage
      active.inst.bufferTables active.env.world = _ := runInit_ok (begun.checkInit mem state)
  have accepts := begun.upkeep.accepts storage initialized state
  unfold attemptStatus restoreStateSnapshotWithStatus
  dsimp only
  rw [run]
  dsimp only
  by_cases ok : (native.init .full active.inst.params storage active.inst.bufferTables
      active.env.world.world).1 = PROCESSOR_EXECUTION_OK
  · rw [if_pos ok, ok]
    rcases overlay : (native.entries program).overlayStateSnapshot bytes
      (native.init .full active.inst.params storage active.inst.bufferTables
        active.env.world.world).2.1 with ⟨overlaid | overlaid, storage'⟩
    · refine ⟨fun value same => (by cases same), fun stop same => ?_⟩
      obtain rfl := Except.error.inj same
      refine begun.enters fresh (begun.exact mem (by decide)) _ _ _ _ (fun _ _ _ => accepts) ?_
      constructor
      · rintro ⟨_, same⟩
        cases same
      · rintro (⟨-, same⟩ | ⟨-, same | ⟨-, same⟩⟩) <;> cases same
    · refine ⟨fun value same => ?_, fun stop failed => (by cases failed)⟩
      obtain rfl := Except.ok.inj same
      refine begun.enters fresh (begun.exact mem (by decide)) _ _ _ _ (fun _ _ _ => accepts) ?_
      exact ⟨fun _ => .inl ⟨rfl, rfl⟩, fun _ => ⟨_, rfl⟩⟩
  · rw [if_neg ok]
    refine ⟨fun value same => ?_, fun stop failed => (by cases failed)⟩
    obtain rfl := Except.ok.inj same
    refine begun.enters fresh (begun.exact mem (by decide)) _ _ _ _ (fun _ _ _ => accepts) ?_
    rw [allocated_iff]
    constructor
    · exact fun same => absurd (Except.ok.inj same) ok
    · rintro (⟨-, same⟩ | ⟨-, same | ⟨event, -⟩⟩)
      · exact same
      · exact same
      · cases event

/-- The restore of a pending image, after its initialization. -/
theorem outcome_overlayFresh (bytes : Bytes) :
    Holds (fun active => Outcome platform native program (.init .full) start result active ∧
        active.env.world.entered ≠ [] ∧ active.inst.state = .allocated storage initialized)
      (attemptStatus .restore (overlayFresh (native.entries program) storage bytes))
      (fun status => Outcome platform native program (.restore bytes) start (.ok status))
      (fun stop => Outcome platform native program (.restore bytes) start (.error stop)) := by
  rintro active ⟨outcome, entered, state⟩
  unfold attemptStatus overlayFresh
  dsimp only
  rcases (native.entries program).overlayStateSnapshot bytes storage with
    ⟨overlaid | overlaid, storage'⟩
  · refine ⟨fun value same => (by cases same), fun stop same => ?_⟩
    obtain rfl := Except.error.inj same
    refine outcome.overlaid entered state _ _ ?_ _ _
    exact ⟨fun ready => (by cases ready), fun ok => (by cases ok)⟩
  · refine ⟨fun value same => ?_, fun stop failed => (by cases failed)⟩
    obtain rfl := Except.ok.inj same
    exact outcome.overlaid entered state _ _ ⟨fun _ => rfl, fun _ => rfl⟩ _ _

/-- A completed initialization has allocated the image. -/
theorem Outcome.not_pending (outcome : Outcome platform native program (.init .full) start
      (.ok PROCESSOR_EXECUTION_OK) active) (entered : active.env.world.entered ≠ [])
    (state : active.inst.state = .pending storage) : False := by
  have ready := outcome.initialized.mpr (.inl ⟨entered, rfl, rfl⟩)
  unfold Instance.isInitialized at ready
  rw [state] at ready
  cases ready

theorem outcome_restore (fresh : start.env.world.entered = []) (bytes : Bytes) :
    Holds (Prelude platform native program start [])
      (restoreStateBytesWithStatus (native.entries program) program bytes)
      (fun status => Outcome platform native program (.restore bytes) start (.ok status))
      (fun stop => Outcome platform native program (.restore bytes) start (.error stop)) := by
  refine Holds.bind (Q := fun _ => Prelude platform native program start [])
    (Holds.refuseIf (fun _ _ begun => begun) fun _ _ begun => begun.outcome fresh) fun _ => ?_
  refine Holds.bind (Holds.begins fresh prelude_unlessBuffers) fun _ => ?_
  refine Holds.bind (Holds.begins fresh prelude_readState) fun state => ?_
  cases state with
  | allocated storage initialized => exact outcome_restoreAllocated fresh bytes storage initialized
  | pending storage =>
    refine Holds.bind ((outcome_init fresh .full).imp
      (fun _ before => before.1.weaken fun surface mem => by cases mem)
      (fun _ _ after => after) fun _ _ after => after.restore) fun status => ?_
    refine Holds.ite (fun _ => Holds.pure fun _ after => after.1.restore) fun completed => ?_
    rw [not_not] at completed
    subst completed
    refine Holds.bind (Q := fun state active =>
      (Outcome platform native program (.init .full) start (.ok PROCESSOR_EXECUTION_OK) active ∧
        active.env.world.entered ≠ []) ∧ active.inst.state = state)
      (Holds.read fun _ after => ⟨⟨after.1, after.2 rfl⟩, rfl⟩) fun state => ?_
    cases state with
    | pending storage =>
      exact Holds.fail fun _ after => (after.1.1.not_pending after.1.2 after.2).elim
    | allocated storage initialized =>
      exact (outcome_overlayFresh bytes).imp
        (fun _ after => ⟨after.1.1, after.1.2, after.2⟩) (fun _ _ after => after)
        fun _ _ after => after

/-! ### Processing and events -/

/-- A check that reads nothing. -/
theorem prelude_refuseIf {refused : Prop} [Decidable refused] (stop : Stop) :
    Holds (Prelude platform native program start done)
      (Call.refuseIf refused stop : InstanceCall (Host W) Unit)
      (fun _ => Prelude platform native program start done)
      (fun _ => Prelude platform native program start done) :=
  Holds.refuseIf (fun _ _ begun => begun) fun _ _ begun => begun

theorem prelude_validateProcessSegment (startFrame frames : Nat) (flags : UInt32) :
    Holds (Prelude platform native program start done)
      (validateProcessSegment platform startFrame frames flags : InstanceCall (Host W) Unit)
      (fun _ => Prelude platform native program start done)
      (fun _ => Prelude platform native program start done) := by
  refine Holds.bind (Q := fun _ => Prelude platform native program start done)
    (Holds.read fun _ begun => begun) fun _ => ?_
  refine Holds.bind (prelude_refuseIf _) fun _ => ?_
  refine Holds.bind (prelude_refuseIf _) fun _ => ?_
  exact prelude_refuseIf _

theorem prelude_u32TryFrom (value : Nat) (message : String) :
    Holds (Prelude platform native program start done)
      (u32TryFrom value message : InstanceCall (Host W) UInt32)
      (fun _ => Prelude platform native program start done)
      (fun _ => Prelude platform native program start done) :=
  Holds.bind (prelude_refuseIf _) fun _ => Holds.pure fun _ begun => begun

/-- The state that only an initialized instance gives away. -/
theorem prelude_initializedState :
    Holds (Prelude platform native program start done)
      (initializedState : InstanceCall (Host W) Bytes)
      (fun storage active => Prelude platform native program start done active ∧
        active.inst.state = .allocated storage true)
      (fun _ => Prelude platform native program start done) := by
  refine Holds.bind prelude_readState fun state => ?_
  cases state with
  | pending storage => exact Holds.fail fun _ before => before.1
  | allocated storage initialized =>
    cases initialized with
    | false => exact Holds.fail fun _ before => before.1
    | true => exact Holds.pure fun _ before => before

theorem outcome_process (fresh : start.env.world.entered = []) (startFrame frames : Nat)
    (flags : UInt32) :
    Holds (Prelude platform native program start [])
      (processCheckedSegmentWithStatus platform native program startFrame frames flags)
      (fun status =>
        Outcome platform native program (.process startFrame frames flags) start (.ok status))
      (fun stop =>
        Outcome platform native program (.process startFrame frames flags) start
          (.error stop)) := by
  refine Holds.bind (Holds.begins fresh (prelude_validateProcessSegment _ _ _)) fun _ => ?_
  refine Holds.bind (Holds.begins fresh prelude_validateBindingsForProcess) fun _ => ?_
  refine Holds.bind (Holds.begins fresh (prelude_u32TryFrom _ _)) fun first => ?_
  refine Holds.bind (Holds.begins fresh (prelude_u32TryFrom _ _)) fun count => ?_
  refine Holds.bind (Holds.begins fresh prelude_initializedState) fun storage => ?_
  rintro active ⟨begun, state⟩
  have exact : Entered.Exact platform program start.inst
      ⟨.process, active.inst.bufferTables, some (active.inst.inputPtrs, active.inst.outputPtrs)⟩ :=
    { buffers := begun.bufferTables (mem_allSurfaces _)
      channels := by
        have validated := fun surface => begun.upkeep.exact surface
          (begun.done surface (mem_allSurfaces surface))
        have inputs := (validated .inputs).1.trans begun.untouched.inputTable
        have outputs := (validated .outputs).1.trans begun.untouched.outputTable
        rw [if_pos rfl, inputs, outputs] }
  refine ⟨fun value same => ?_, fun stop failed => (by cases failed)⟩
  obtain rfl := Except.ok.inj same
  refine begun.enters fresh exact _ _ _ _
    (fun _ _ _ => begun.upkeep.accepts storage true state) ?_
  rw [allocated_iff]
  constructor
  · exact fun ok => .inr ⟨begun.isInitialized_of_state state, .inl ok⟩
  · rintro (⟨rebuilt, -⟩ | ⟨-, ok | ⟨event, -⟩⟩)
    · cases rebuilt
    · exact ok
    · cases event

theorem eventStatusInvalidatesState_eq {status : UInt32} :
    (!eventStatusInvalidatesState status) = true ↔
      (Except.ok status : Except Stop UInt32) = .ok PROCESSOR_EXECUTION_OK ∨
        (Except.ok status : Except Stop UInt32) = .ok PROCESSOR_EXECUTION_INPUT_REJECTED := by
  rw [Except.ok.injEq, Except.ok.injEq]
  unfold eventStatusInvalidatesState
  by_cases ok : status = PROCESSOR_EXECUTION_OK
  · simp [ok]
  · by_cases rejected : status = PROCESSOR_EXECUTION_INPUT_REJECTED
    · simp [rejected]
    · simp [ok, rejected]

/-- The end of an event call. -/
theorem outcome_dispatchEvent (fresh : start.env.world.entered = []) (event : call.isEvent = true)
    (only : call.rebuilds = false) (eventIndex : Nat)
    {generated : Active (Host W) → UInt32 × Bytes × W} :
    Holds (fun active => Prelude platform native program start [.buffers] active ∧
        active.inst.state = .allocated storage true)
      (dispatchEvent program eventIndex fun active =>
        NativeCode.enter ⟨.event, active.inst.bufferTables, none⟩ active.env.world
          (generated active))
      (fun status => Outcome platform native program call start (.ok status))
      (fun stop => Outcome platform native program call start (.error stop)) := by
  refine Holds.ite (fun _ => ?_) fun _ => Holds.pure fun _ before => before.1.outcome fresh
  rintro active ⟨begun, state⟩
  have mem : Surface.buffers ∈ [Surface.buffers] := List.mem_singleton_self _
  refine ⟨fun value same => ?_, fun stop failed => (by cases failed)⟩
  obtain rfl := Except.ok.inj same
  refine begun.enters fresh (begun.exact mem (by decide)) _ _ _ _
    (fun _ _ _ => begun.upkeep.accepts storage true state) ?_
  have flag : (∃ storage', InstanceState.allocated (generated active).2.1
      (!eventStatusInvalidatesState (generated active).1) = .allocated storage' true) ↔
        (!eventStatusInvalidatesState (generated active).1) = true :=
    ⟨fun ⟨_, same⟩ => (InstanceState.allocated.inj same).2, fun set => ⟨_, congrArg _ set⟩⟩
  refine flag.trans (eventStatusInvalidatesState_eq.trans ?_)
  constructor
  · exact fun held => .inr ⟨begun.isInitialized_of_state state,
      held.imp_right fun rejected => ⟨event, rejected⟩⟩
  · rintro (⟨rebuilt, -⟩ | ⟨-, held⟩)
    · rw [only] at rebuilt
      cases rebuilt
    · exact held.imp_right And.right

theorem outcome_event (fresh : start.env.world.entered = []) (eventIndex : Nat)
    (payload : Bytes) :
    Holds (Prelude platform native program start [])
      (triggerEventByIndexImpl native program eventIndex payload)
      (fun status =>
        Outcome platform native program (.event eventIndex payload) start (.ok status))
      (fun stop =>
        Outcome platform native program (.event eventIndex payload) start (.error stop)) := by
  refine Holds.bind (Holds.begins fresh prelude_unlessBuffers) fun _ => ?_
  refine Holds.bind (Holds.begins fresh prelude_initializedState) fun storage => ?_
  exact outcome_dispatchEvent fresh rfl rfl eventIndex

theorem outcome_eventViews (fresh : start.env.world.entered = []) (eventIndex : Nat) (views : V) :
    Holds (Prelude platform native program start [])
      (triggerEventViewsByIndexCheckedWithStatus native program eventIndex views)
      (fun status =>
        Outcome platform native program (.eventViews eventIndex views) start (.ok status))
      (fun stop =>
        Outcome platform native program (.eventViews eventIndex views) start (.error stop)) := by
  refine Holds.bind (Holds.begins fresh prelude_unlessBuffers) fun _ => ?_
  refine Holds.bind (Holds.begins fresh prelude_initializedState) fun storage => ?_
  refine Holds.bind (Q := fun _ active =>
    Prelude platform native program start [.buffers] active ∧
      active.inst.state = .allocated storage true)
    (Holds.read fun _ before => before) fun valid => ?_
  refine Holds.ite (fun _ => ?_) fun _ => Holds.pure fun _ before => before.1.outcome fresh
  exact outcome_dispatchEvent fresh rfl rfl eventIndex

/-- Every call with a status. -/
theorem outcome_perform (fresh : start.env.world.entered = [])
    (upkeep : Upkeep platform native program start.inst) (call : StatusCall V) :
    Outcome platform native program call start (call.perform platform native program start).1
      (call.perform platform native program start).2 := by
  have holds : Holds (Prelude platform native program start [])
      (call.perform platform native program)
      (fun status => Outcome platform native program call start (.ok status))
      (fun stop => Outcome platform native program call start (.error stop)) := by
    cases call with
    | init mode =>
      exact (outcome_init fresh mode).imp (fun _ begun => begun) (fun _ _ after => after.1)
        fun _ _ after => after
    | restore bytes => exact outcome_restore fresh bytes
    | process startFrame frames flags => exact outcome_process fresh startFrame frames flags
    | event eventIndex payload => exact outcome_event fresh eventIndex payload
    | eventViews eventIndex views => exact outcome_eventViews fresh eventIndex views
  obtain ⟨ok, failed⟩ := holds start
    ⟨⟨rfl, rfl, rfl, rfl, rfl, rfl⟩, rfl, upkeep, fun surface mem => by cases mem⟩
  cases run : (call.perform platform native program start).1 with
  | ok status => exact ok status run
  | error stop => exact failed stop run

end Onda.Runtime
