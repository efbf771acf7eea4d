import Onda.Runtime.Entries
import Onda.Project.BufferCodec

/-!
# Runs of a session

A run performs operations in any order, on whatever the generated code does, until one of them is
undefined.

## Main results

* `perform_standing` — an operation that enters only an initialized instance logs valid entries
  and leaves every binding prepared
* `run_entries_valid` — so does a run all of whose operations do
-/

namespace Onda.Runtime

open Effects
open Onda.Project (Platform)

variable {W S V X : Type}

/-- The operations of a run session. -/
inductive Operation (V X : Type) where
  | setParam (name : String) (value : V)
  | resetParams
  | setParamSmoothingSeconds (seconds : UInt64)
  | triggerEvent (name : String) (values : List X)
  | renderBlock (rendered : Nat)
  | renderBlockSegments (rendered : Nat) (segments : List (Nat × Nat × UInt32))
  | renderBlockEvents (rendered : Nat) (events : List (RunSession.ScheduledEvent X))
  | setInputBlock (interleaved : List UInt32) (sourceChannels : Nat)
  | snapshotStateBytes
  | restoreStateBytes (bytes : Bytes)
  | restart
  | replacePreparedBuffer (name : String) (prepared : Option RunBufferBinding)

variable (platform : Platform) (code : GeneratedCode W) (program : JitProgram)
  (host : HostValues W S V X)

/-- One operation. -/
def perform : Operation V X → SessionCall W S V Unit
  | .setParam name value => RunSession.setParam platform program host name value
  | .resetParams => RunSession.resetParams platform program host
  | .setParamSmoothingSeconds seconds =>
    RunSession.setParamSmoothingSeconds platform program host seconds
  | .triggerEvent name values => RunSession.triggerEvent code program host name values
  | .renderBlock rendered => RunSession.renderBlockInterleaved platform code program host rendered
  | .renderBlockSegments rendered segments =>
    RunSession.renderBlockSegmentsInterleaved platform code program host rendered segments
  | .renderBlockEvents rendered events =>
    RunSession.renderBlockEventIterInterleaved platform code program host rendered events
  | .setInputBlock interleaved sourceChannels =>
    RunSession.setInputBlock host interleaved sourceChannels
  | .snapshotStateBytes => RunSession.snapshotStateBytes
  | .restoreStateBytes bytes => RunSession.restoreStateBytes platform code program bytes
  | .restart => RunSession.restart platform code program host
  | .replacePreparedBuffer name prepared =>
    RunSession.replacePreparedBuffer platform code program host name prepared

/-- A run.  Nothing is known of what follows an undefined operation. -/
def run : List (Operation V X) → RunSession W S V → RunSession W S V
  | [], session => session
  | operation :: operations, session =>
    match perform platform code program host operation session with
    | (.error .undefined, session') => session'
    | (_, session') => run operations session'

/-- The operation passes the checks it makes before its first unchecked entry. -/
def Enters (operation : Operation V X) (session : RunSession W S V) : Prop :=
  match operation with
  | .triggerEvent name values =>
    ∃ event, RunSession.encodeRunEvent program host name values = .ok event
  | .renderBlock rendered =>
    (RunSession.beginSegments platform program host rendered
      [(0, session.options.blockSize, PROCESSOR_FULL_BLOCK)] session).1 = .ok ()
  | .renderBlockSegments rendered segments =>
    segments ≠ [] ∧
      (RunSession.beginSegments platform program host rendered segments session).1 = .ok ()
  | .renderBlockEvents rendered [] =>
    (RunSession.beginSegments platform program host rendered
      [(0, session.options.blockSize, PROCESSOR_FULL_BLOCK)] session).1 = .ok ()
  | .renderBlockEvents rendered events =>
    (RunSession.beginEvents platform program host rendered events session).1 = .ok ()
  | _ => False

/-- The operation enters generated code only on an initialized instance. -/
def EntersInitialized (operation : Operation V X) (session : RunSession W S V) : Prop :=
  Enters platform program host operation session → session.active.inst.isInitialized = true

/-- Every operation of a run does, in the state it is performed in. -/
def RunEntersInitialized : List (Operation V X) → RunSession W S V → Prop
  | [], _ => True
  | operation :: operations, session =>
    EntersInitialized platform program host operation session ∧
      RunEntersInitialized operations
        (perform platform code program host operation session).2

/-! ### One operation -/

/-- The session's bindings are prepared and its entries were valid; the instance is initialized
if `ready`. -/
def RunSession.Standing (ready : Bool) (session : RunSession W S V) : Prop :=
  Holding ready allSurfaces session.active

/-- A call that leaves the instance as ready as it was, unless it fails. -/
def KeepsStanding {α : Type} (ready : Bool) (call : SessionCall W S V α) : Prop :=
  Holds (RunSession.Standing ready) call (fun _ => RunSession.Standing ready)
    (fun _ => RunSession.Standing false)

section Calls

variable {α β : Type} {ready : Bool}

theorem RunSession.Standing.unready {session : RunSession W S V}
    (standing : session.Standing ready) : session.Standing false :=
  Holding.unready standing

variable {call : InstanceCall W α}

theorem holds_onInstance {P : Active W → Prop} {Q : α → Active W → Prop}
    (holds : Holds P call Q fun _ => Holding false allSurfaces) :
    Holds (fun session : RunSession W S V => P session.active) (onInstance call)
      (fun value session => Q value session.active) (fun _ => RunSession.Standing false) :=
  Holds.within holds (fun _ before => before) (fun _ _ _ _ after => after)
    fun _ _ _ _ after => after

theorem KeepsStanding.keeps (keeps : Keeps ready allSurfaces call) :
    KeepsStanding ready (onInstance call : SessionCall W S V α) :=
  holds_onInstance
    (keeps.imp (fun _ before => before) (fun _ _ after => after) fun _ _ after => after.unready)

theorem KeepsStanding.bind {first : SessionCall W S V α} {next : α → SessionCall W S V β}
    (begins : KeepsStanding ready first) (continues : ∀ value, KeepsStanding ready (next value)) :
    KeepsStanding ready (first >>= next) :=
  Holds.bind begins continues

theorem KeepsStanding.pure (value : α) :
    KeepsStanding ready (pure value : SessionCall W S V α) :=
  Holds.pure fun _ standing => standing

theorem KeepsStanding.read (view : RunSession W S V → α) :
    KeepsStanding ready (Call.read view) :=
  Holds.read fun _ standing => standing

theorem KeepsStanding.fail (stop : Stop) :
    KeepsStanding ready (Call.fail stop : SessionCall W S V α) :=
  Holds.fail fun _ standing => standing.unready

theorem KeepsStanding.lift (result : Except Stop α) :
    KeepsStanding ready (Call.lift result : SessionCall W S V α) :=
  Holds.lift (fun _ _ _ standing => standing) fun _ _ _ standing => standing.unready

theorem KeepsStanding.refuseIf (refused : Prop) [Decidable refused] (stop : Stop) :
    KeepsStanding ready (Call.refuseIf refused stop : SessionCall W S V Unit) :=
  Holds.refuseIf (fun _ _ standing => standing) fun _ _ standing => standing.unready

/-- A change of the session that leaves its instance and its entries alone. -/
theorem KeepsStanding.update {change : RunSession W S V → RunSession W S V}
    (inst : ∀ session, (change session).active.inst = session.active.inst)
    (entries : ∀ session, (change session).active.env.entries = session.active.env.entries) :
    KeepsStanding ready (Call.update change) := by
  refine Holds.update fun session standing => ⟨?_, ?_, ?_, ?_⟩
  · rw [inst]
    exact standing.tracked
  · intro entry mem
    rw [entries] at mem
    exact standing.sound entry mem
  · rw [inst]
    exact standing.ready
  · rw [inst]
    exact standing.done

theorem KeepsStanding.each {call : α → SessionCall W S V Unit} {items : List α}
    (keeps : ∀ item, KeepsStanding ready (call item)) :
    KeepsStanding ready (Call.each call items) :=
  Holds.each fun item _ => keeps item

end Calls

section Parameters

variable {ready : Bool}

variable {done : List Surface}

theorem Keeps.writeParamBytes (start : Nat) (bytes : Bytes) :
    Keeps ready done (writeParamBytes start bytes : InstanceCall W Unit) :=
  Keeps.modify fun _ => rfl

theorem Keeps.setParamByIndex (index : Nat) (bytes : Bytes) :
    Keeps ready done (setParamByIndex platform program index bytes : InstanceCall W Unit) := by
  unfold Runtime.setParamByIndex
  cases program.params[index]? with
  | none => exact Keeps.refuse _
  | some desc =>
    refine Keeps.bind (Keeps.refuseIf _ _) fun _ => Keeps.bind (Keeps.read _) fun size => ?_
    exact Keeps.bind (Keeps.refuseIf _ _) fun _ => Keeps.writeParamBytes _ _

theorem Keeps.setParamElementByIndex (index element : Nat) (bytes : Bytes) :
    Keeps ready done
      (setParamElementByIndex platform program index element bytes : InstanceCall W Unit) := by
  unfold Runtime.setParamElementByIndex
  cases program.params[index]? with
  | none => exact Keeps.refuse _
  | some desc =>
    refine Keeps.bind (Keeps.refuseIf _ _) fun _ => Keeps.bind (Keeps.read _) fun size => ?_
    exact Keeps.bind (Keeps.refuseIf _ _) fun _ => Keeps.writeParamBytes _ _

theorem Keeps.writeParamValue (entry : String × V) :
    Keeps ready done (writeParamValue platform program host entry : InstanceCall W Unit) := by
  unfold Runtime.writeParamValue
  cases paramElementAddress platform program entry.1 with
  | none => exact Keeps.pure _
  | some address =>
    obtain ⟨index, element⟩ := address
    dsimp only
    cases program.params[index]? with
    | none => exact Keeps.pure _
    | some desc =>
      exact Keeps.bind (Keeps.checked _) fun bytes =>
        Keeps.setParamElementByIndex platform program _ _ _

theorem KeepsStanding.writeRamps (writes : List ParamWrite) :
    KeepsStanding ready (RunSession.writeRamps platform program writes : SessionCall W S V Unit) :=
  KeepsStanding.each fun _ =>
    KeepsStanding.keeps (Keeps.setParamElementByIndex platform program _ _ _)

theorem KeepsStanding.setParamSmoothingSeconds (seconds : UInt64) :
    KeepsStanding ready (RunSession.setParamSmoothingSeconds platform program host seconds) := by
  refine KeepsStanding.bind (KeepsStanding.read _) fun smoothing => ?_
  refine KeepsStanding.bind (KeepsStanding.lift _) fun (writes, smoothing) => ?_
  refine KeepsStanding.bind (KeepsStanding.writeRamps platform program writes) fun _ => ?_
  exact KeepsStanding.update (fun _ => rfl) fun _ => rfl

theorem KeepsStanding.setParam (name : String) (value : V) :
    KeepsStanding ready (RunSession.setParam platform program host name value) := by
  unfold RunSession.setParam
  cases paramElementAddress platform program name with
  | none => exact KeepsStanding.fail _
  | some address =>
    obtain ⟨index, element⟩ := address
    dsimp only
    cases program.params[index]? with
    | none => exact KeepsStanding.fail _
    | some desc =>
      refine KeepsStanding.bind (KeepsStanding.lift _) fun value => ?_
      refine KeepsStanding.bind (KeepsStanding.update (fun _ => rfl) fun _ => rfl) fun _ => ?_
      refine KeepsStanding.bind (KeepsStanding.read _) fun (handled, smoothing) => ?_
      refine KeepsStanding.bind (KeepsStanding.update (fun _ => rfl) fun _ => rfl) fun _ => ?_
      refine Holds.ite (fun _ => KeepsStanding.pure _) fun _ => ?_
      refine KeepsStanding.bind (KeepsStanding.lift _) fun bytes => ?_
      exact KeepsStanding.keeps (Keeps.setParamElementByIndex platform program _ _ _)

theorem KeepsStanding.resetParams :
    KeepsStanding ready (RunSession.resetParams platform program host) := by
  refine KeepsStanding.bind (KeepsStanding.each fun (desc, index) => ?_) fun _ => ?_
  · exact KeepsStanding.keeps (Keeps.setParamByIndex platform program _ _)
  · exact KeepsStanding.update (fun _ => rfl) fun _ => rfl

theorem KeepsStanding.beginBlockRender (rendered frames : Nat) :
    KeepsStanding ready (RunSession.beginBlockRender platform program host rendered frames) := by
  refine KeepsStanding.bind (KeepsStanding.read _) fun expected => ?_
  refine KeepsStanding.bind (KeepsStanding.refuseIf _ _) fun _ => ?_
  refine KeepsStanding.bind (KeepsStanding.update (fun _ => rfl) fun _ => rfl) fun _ => ?_
  refine Holds.ite (fun _ => KeepsStanding.pure _) fun _ => ?_
  refine KeepsStanding.bind (KeepsStanding.read _) fun (writes, smoothing) => ?_
  refine KeepsStanding.bind (KeepsStanding.writeRamps platform program writes) fun _ => ?_
  exact KeepsStanding.update (fun _ => rfl) fun _ => rfl

theorem KeepsStanding.validateSegments (segments : List (Nat × Nat × UInt32)) (frames : Nat) :
    KeepsStanding ready
      (RunSession.validateSegments platform segments frames : SessionCall W S V Nat) := by
  induction segments generalizing frames with
  | nil => exact KeepsStanding.pure _
  | cons segment segments ih =>
    refine KeepsStanding.bind
      (KeepsStanding.keeps (Keeps.validateProcessSegment platform _ _ _)) fun _ => ?_
    exact KeepsStanding.bind (KeepsStanding.refuseIf _ _) fun _ => ih _

theorem KeepsStanding.beginSegments (rendered : Nat) (segments : List (Nat × Nat × UInt32)) :
    KeepsStanding ready (RunSession.beginSegments platform program host rendered segments) :=
  KeepsStanding.bind (KeepsStanding.validateSegments platform segments 0) fun frames =>
    KeepsStanding.beginBlockRender platform program host rendered frames

theorem KeepsStanding.beginEvents (rendered : Nat) (events : List (RunSession.ScheduledEvent X)) :
    KeepsStanding ready (RunSession.beginEvents platform program host rendered events) := by
  refine KeepsStanding.bind (KeepsStanding.read _) fun blockSize => ?_
  refine KeepsStanding.bind (KeepsStanding.lift _) fun _ => ?_
  exact KeepsStanding.beginBlockRender platform program host rendered blockSize

end Parameters

/-! ### Entering generated code -/

theorem KeepsStanding.entered {call : InstanceCall W UInt32}
    (holds : Holds (Holding true allSurfaces) call
      (fun status => Holding (status = PROCESSOR_EXECUTION_OK) allSurfaces)
      (fun _ => Holding false allSurfaces)) :
    KeepsStanding true (RunSession.entered call : SessionCall W S V Unit) :=
  holds_onInstance (Holds.bind holds holds_checkExecutionStatus)

theorem KeepsStanding.processSegmentInBatch (segment : Nat × Nat × UInt32) :
    KeepsStanding true
      (RunSession.processSegmentInBatch platform code segment : SessionCall W S V Unit) :=
  KeepsStanding.entered (holds_processUncheckedSegment platform code _ _ _)

theorem KeepsStanding.triggerEventInBatch (name : String) (values : List X) :
    KeepsStanding true (RunSession.triggerEventInBatch code program host name values) := by
  unfold RunSession.triggerEventInBatch
  cases RunSession.encodeRunEvent program host name values with
  | error message => exact KeepsStanding.fail _
  | ok event => exact KeepsStanding.entered (holds_triggerEventByIndexUnchecked code program _ _)

theorem KeepsStanding.renderEvents (blockSize : Nat)
    (events : List (RunSession.ScheduledEvent X)) (cursor : Nat) (beganBlock : Bool) :
    KeepsStanding true
      (RunSession.renderEvents platform code program host blockSize events cursor beganBlock) := by
  induction events generalizing cursor beganBlock with
  | nil => exact KeepsStanding.processSegmentInBatch platform code _
  | cons event events ih =>
    refine Holds.ite (fun _ => ?_) fun _ => ?_
    · refine KeepsStanding.bind (KeepsStanding.processSegmentInBatch platform code _) fun _ => ?_
      refine KeepsStanding.bind (KeepsStanding.triggerEventInBatch code program host _ _) fun _ => ?_
      exact ih _ _
    · refine KeepsStanding.bind (KeepsStanding.triggerEventInBatch code program host _ _) fun _ => ?_
      exact ih _ _

variable {session : RunSession W S V}

theorem RunSession.Standing.initialized (standing : session.Standing false)
    (initialized : session.active.inst.isInitialized = true) :
    session.Standing true :=
  ⟨standing.tracked, standing.sound, fun _ => initialized, standing.done⟩

/-- Checks, and entries that are made only if the checks pass. -/
theorem holds_enter {begins enters : SessionCall W S V Unit}
    (checks : ∀ ready, KeepsStanding ready begins) (entries : KeepsStanding true enters) :
    Holds
      (fun session => session.Standing false ∧
        ((begins session).1 = .ok () → session.active.inst.isInitialized = true))
      (begins >>= fun _ => enters) (fun _ => RunSession.Standing false)
      (fun _ => RunSession.Standing false) := by
  intro session ⟨standing, initialized⟩
  rcases begun : begins session with ⟨result, session'⟩
  cases result with
  | ok _ =>
    have ready := standing.initialized (initialized (by rw [begun]))
    obtain ⟨ok, failed⟩ := Holds.bind (checks true) (fun _ => entries) session ready
    exact ⟨fun value same => (ok value same).unready, failed⟩
  | error stop =>
    have failed := (checks false session standing).2 stop (by rw [begun])
    rw [Call.bind_error begun]
    rw [begun] at failed
    exact ⟨fun value same => (by cases same), fun _ _ => failed⟩

/-! ### Replacing the instance -/

/-- A new instance is marked as prepared exactly where there is nothing to bind. -/
theorem newInstance_tracked (config : InstanceConfig) (params : Bytes)
    (tables : List BoundBuffer) : (newInstance platform program config params tables).Tracked := by
  refine ⟨fun initialized => ?_, fun surface flag => ?_⟩
  · exact absurd initialized (by simp [newInstance, Instance.isInitialized])
  · cases surface with
    | inputs =>
      have none : program.requiredInChannels platform = 0 := of_decide_eq_true flag
      simp [newInstance, validated, none]
    | outputs =>
      have none : program.requiredOutChannels platform = 0 := of_decide_eq_true flag
      by_cases inputs : program.requiredInChannels platform = 0 <;>
        simp [newInstance, validated, none, inputs]
    | buffers => simp [newInstance, validated]

theorem createInstance_tracked {config : InstanceConfig} {inst : Instance}
    (created : createInstance platform program config = .ok inst) : inst.Tracked := by
  obtain ⟨_, _, created⟩ := ok_of_bind created
  obtain ⟨_, _, created⟩ := ok_of_bind created
  obtain ⟨_, _, created⟩ := ok_of_bind created
  obtain ⟨_, _, created⟩ := ok_of_bind created
  obtain ⟨_, _, created⟩ := ok_of_bind created
  obtain ⟨_, _, created⟩ := ok_of_bind created
  obtain ⟨_, _, created⟩ := ok_of_bind created
  obtain ⟨_, _, created⟩ := ok_of_bind created
  obtain ⟨params, _, created⟩ := ok_of_bind created
  obtain ⟨tables, _, created⟩ := ok_of_bind created
  obtain rfl := Except.ok.inj created
  exact newInstance_tracked platform program config params tables

/-- Whatever the bindings are, they are prepared when the instance is handed over. -/
theorem holds_bindAndInitialize (inputBuffers outputBuffers : List BoundRegion)
    (bufferBindings : List (Option RunBufferBinding))
    (replacement : Option BufferBindingReplacement) (paramValues : List (String × V)) :
    Holds (Holding false [])
      (bindAndInitialize platform code program host inputBuffers outputBuffers bufferBindings
        replacement paramValues)
      (fun _ => Holding true allSurfaces) (fun _ => Holding false []) := by
  have fewer : ∀ {done : List Surface} {active : Active W}, Holding false done active →
      Holding false [] active := fun holding => holding.weaken id (by simp)
  refine Holds.bind (Q := fun _ => Holding false []) ?inputs fun _ => ?_
  case inputs => exact Keeps.each fun (region, index) => Keeps.bindInput platform program _ _ _
  refine Holds.bind (Q := fun _ => Holding false []) ?outputs fun _ => ?_
  case outputs => exact Keeps.each fun (region, index) => Keeps.bindOutput platform program _ _ _
  refine Holds.bind (Q := fun _ => Holding false []) ?buffers fun _ => ?_
  case buffers =>
    refine Keeps.each fun (current, index) => ?_
    dsimp only
    cases chosenBinding replacement index current with
    | none => exact Keeps.pure _
    | some binding => exact Keeps.bindBuffer program _ _ _ _ _ _
  refine Holds.bind (Q := fun _ => Holding false []) ?params fun _ => ?_
  case params => exact Keeps.each fun entry => Keeps.writeParamValue platform program host entry
  refine Holds.bind (holds_initCheckedWithOutput code program .full) fun _ => ?_
  exact (holds_prepareUncheckedProcess platform program).imp (fun _ before => before)
    (fun _ _ after => after) fun _ _ after => fewer after

theorem holds_createBoundInstance (options : RunOptions)
    (inputBuffers outputBuffers : List BoundRegion)
    (bufferBindings : List (Option RunBufferBinding))
    (replacement : Option BufferBindingReplacement) (paramValues : List (String × V)) :
    Holds Env.Sound
      (createBoundInstance platform code program host options inputBuffers outputBuffers
        bufferBindings replacement paramValues)
      (fun inst env => Holding true allSurfaces ⟨inst, env⟩) (fun _ => Env.Sound) := by
  intro env sound
  unfold createBoundInstance withNew
  rcases created : createInstance platform program _ with message | inst
  · exact ⟨fun value same => (by cases same), fun _ _ => sound⟩
  · have begins : Holding false [] (⟨inst, env⟩ : Active W) :=
      ⟨createInstance_tracked platform program created, sound, by simp, by simp⟩
    obtain ⟨ok, failed⟩ := holds_bindAndInitialize platform code program host inputBuffers
      outputBuffers bufferBindings replacement paramValues _ begins
    dsimp only
    rcases run : bindAndInitialize platform code program host inputBuffers outputBuffers
      bufferBindings replacement paramValues ⟨inst, env⟩ with ⟨result, active⟩
    rw [run] at ok failed
    cases result with
    | ok done =>
      refine ⟨fun value same => ?_, fun stop same => (by cases same)⟩
      obtain rfl := Except.ok.inj same
      exact ok () rfl
    | error stop => exact ⟨fun value same => (by cases same), fun _ _ => (failed stop rfl).sound⟩

/-- A failed rebuild keeps the instance as it was; a successful one leaves a ready instance. -/
theorem holds_rebuildWith (replacement : Option BufferBindingReplacement) :
    Holds (RunSession.Standing false)
      (RunSession.rebuildWith platform code program host replacement)
      (fun _ => RunSession.Standing true) (fun _ => RunSession.Standing false) := by
  intro session standing
  obtain ⟨ok, failed⟩ := holds_createBoundInstance platform code program host session.options
    session.inputBuffers session.outputBuffers session.bufferBindings replacement
    session.paramValues session.active.env standing.sound
  unfold RunSession.rebuildWith
  rcases built : createBoundInstance platform code program host session.options
    session.inputBuffers session.outputBuffers session.bufferBindings replacement
    session.paramValues session.active.env with ⟨result, env⟩
  rw [built] at ok failed
  cases result with
  | ok inst => exact ⟨fun _ _ => ok inst rfl, fun stop same => (by cases same)⟩
  | error stop =>
    exact ⟨fun value same => (by cases same), fun _ _ =>
      ⟨standing.tracked, failed stop rfl, standing.ready, standing.done⟩⟩

theorem holds_replacePreparedBuffer (name : String) (prepared : Option RunBufferBinding) :
    KeepsStanding false
      (RunSession.replacePreparedBuffer platform code program host name prepared) := by
  unfold RunSession.replacePreparedBuffer
  cases program.bufferIndex name with
  | none => exact KeepsStanding.fail _
  | some index =>
    refine KeepsStanding.bind ?element fun _ => ?_
    case element =>
      cases prepared with
      | none => exact KeepsStanding.pure _
      | some binding =>
        unfold RunSession.checkPrepared RunSession.validateBufferElement
        cases program.buffers[index]? with
        | none => exact KeepsStanding.pure _
        | some desc => exact KeepsStanding.refuseIf _ _
    refine KeepsStanding.bind ?rebuild fun _ => ?_
    case rebuild =>
      exact (holds_rebuildWith platform code program host _).imp (fun _ before => before)
        (fun _ _ after => after.unready) fun _ _ after => after
    exact KeepsStanding.update (fun _ => rfl) fun _ => rfl

/-! ### Runs -/

/-- Whatever an operation ends with, and whatever generated code does: the bindings stay prepared,
and every unchecked entry was valid if none was made on an uninitialized instance. -/
theorem perform_standing (operation : Operation V X) :
    Holds
      (fun session => session.Standing false ∧
        EntersInitialized platform program host operation session)
      (perform platform code program host operation) (fun _ => RunSession.Standing false)
      (fun _ => RunSession.Standing false) := by
  have plain : ∀ {call : SessionCall W S V Unit} {P : RunSession W S V → Prop},
      KeepsStanding false call → Holds (fun session => session.Standing false ∧ P session) call
        (fun _ => RunSession.Standing false) (fun _ => RunSession.Standing false) :=
    fun keeps => keeps.imp (fun _ before => before.1) (fun _ _ after => after) fun _ _ after => after
  have segments : ∀ rendered segments, Holds
      (fun session : RunSession W S V => session.Standing false ∧
        ((RunSession.beginSegments platform program host rendered segments session).1 = .ok () →
          session.active.inst.isInitialized = true))
      (RunSession.renderBlockSegmentsInterleaved platform code program host rendered segments)
      (fun _ => RunSession.Standing false) (fun _ => RunSession.Standing false) :=
    fun rendered segments => holds_enter
      (fun _ => KeepsStanding.beginSegments platform program host rendered segments)
      (KeepsStanding.each fun segment =>
        KeepsStanding.processSegmentInBatch platform code segment)
  cases operation with
  | setParam name value => exact plain (KeepsStanding.setParam platform program host name value)
  | resetParams => exact plain (KeepsStanding.resetParams platform program host)
  | setParamSmoothingSeconds seconds =>
    exact plain (KeepsStanding.setParamSmoothingSeconds platform program host seconds)
  | triggerEvent name values =>
    intro session ⟨standing, initialized⟩
    rcases encoded : RunSession.encodeRunEvent program host name values with message | event
    · have fails : KeepsStanding false (Call.fail (.diagnostic message) : SessionCall W S V Unit) :=
        KeepsStanding.fail _
      have refused := fails session standing
      simpa only [perform, RunSession.triggerEvent, RunSession.triggerEventInBatch, encoded]
        using refused
    · have ready := standing.initialized (initialized ⟨event, encoded⟩)
      obtain ⟨ok, failed⟩ :=
        KeepsStanding.triggerEventInBatch code program host name values session ready
      exact ⟨fun value same => (ok value same).unready, failed⟩
  | renderBlock rendered =>
    intro session before
    exact segments rendered [(0, session.options.blockSize, PROCESSOR_FULL_BLOCK)] session before
  | renderBlockSegments rendered row =>
    cases row with
    | nil =>
      refine plain (KeepsStanding.bind
        (KeepsStanding.beginSegments platform program host rendered []) fun _ => ?_)
      exact KeepsStanding.pure ()
    | cons segment row =>
      exact (segments rendered (segment :: row)).imp
        (fun session before => ⟨before.1, fun passed => before.2 ⟨by simp, passed⟩⟩)
        (fun _ _ after => after) fun _ _ after => after
  | renderBlockEvents rendered events =>
    cases events with
    | nil =>
      intro session before
      exact segments rendered [(0, session.options.blockSize, PROCESSOR_FULL_BLOCK)] session before
    | cons event events =>
      refine holds_enter
        (fun _ => KeepsStanding.beginEvents platform program host rendered (event :: events)) ?_
      refine KeepsStanding.bind (KeepsStanding.read _) fun blockSize => ?_
      exact KeepsStanding.renderEvents platform code program host blockSize _ 0 false
  | setInputBlock interleaved sourceChannels =>
    exact plain (KeepsStanding.update (fun _ => rfl) fun _ => rfl)
  | snapshotStateBytes =>
    refine plain (holds_onInstance (Holds.bind holds_initializedState fun _ => ?_))
    exact Holds.pure fun _ holding => holding.unready
  | restoreStateBytes bytes =>
    refine plain (holds_onInstance (Holds.bind (Q := fun _ => Holding true allSurfaces) ?_
      fun _ => ?_))
    · exact Holds.bind (holds_restoreStateBytesWithStatus code program bytes)
        holds_checkExecutionStatus
    · exact (holds_prepareUncheckedProcess platform program).imp (fun _ before => before)
        (fun _ _ after => after.unready) fun _ _ after => after
  | restart =>
    exact plain ((holds_rebuildWith platform code program host none).imp (fun _ before => before)
      (fun _ _ after => after.unready) fun _ _ after => after)
  | replacePreparedBuffer name prepared =>
    exact plain (holds_replacePreparedBuffer platform code program host name prepared)

/-- A built session is ready. -/
theorem build_standing {options : RunOptions} {bufferBindings : List (Option RunBufferBinding)}
    {inputBuffers outputBuffers : List BoundRegion} {world : W}
    (built : RunSession.build platform code program host options bufferBindings inputBuffers
      outputBuffers world = .ok session) : session.Standing true := by
  obtain ⟨smoothing, _, built⟩ := ok_of_bind built
  obtain ⟨ok, _⟩ := holds_createBoundInstance platform code program host options inputBuffers
    outputBuffers bufferBindings none [] ⟨world, []⟩ (by simp [Env.Sound])
  rcases created : createBoundInstance platform code program host options inputBuffers
    outputBuffers bufferBindings none [] ⟨world, []⟩ with ⟨result, env⟩
  rw [created] at built ok
  cases result with
  | ok inst =>
    obtain rfl := Except.ok.inj built
    exact ok inst rfl
  | error stop => cases built

theorem run_standing (operations : List (Operation V X)) (standing : session.Standing false)
    (enters : RunEntersInitialized platform code program host operations session) :
    (run platform code program host operations session).Standing false := by
  induction operations generalizing session with
  | nil => exact standing
  | cons operation operations ih =>
    obtain ⟨initialized, rest⟩ := enters
    obtain ⟨ok, failed⟩ := perform_standing platform code program host operation session
      ⟨standing, initialized⟩
    rw [run]
    rcases performed : perform platform code program host operation session with ⟨result, session'⟩
    rw [performed] at ok failed rest
    cases result with
    | ok done => exact ih (ok done rfl) rest
    | error stop =>
      cases stop with
      | diagnostic message => exact ih (failed _ rfl) rest
      | undefined => exact failed _ rfl

/-- **Unchecked entries.** In a run that starts from a built session, and that makes its entries
only while the instance is initialized, every unchecked entry meets an instance whose last
generated call did not fail and whose bindings were prepared after their last change. -/
theorem run_entries_valid (options : RunOptions) (bufferBindings : List (Option RunBufferBinding))
    (inputBuffers outputBuffers : List BoundRegion) (world : W) (session : RunSession W S V)
    (operations : List (Operation V X))
    (built : RunSession.build platform code program host options bufferBindings inputBuffers
      outputBuffers world = .ok session)
    (enters : RunEntersInitialized platform code program host operations session) :
    ∀ entry ∈ (run platform code program host operations session).active.env.entries,
      entry.Valid :=
  (run_standing platform code program host operations
    (build_standing platform code program host built).unready enters).sound

/-! ### A run that enters an uninitialized instance -/

/-- Generated code whose process entry ends with `status`. -/
def GeneratedCode.ending (status : UInt32) : GeneratedCode Unit where
  initializeAllocatedState _ storage _ world := (.ok PROCESSOR_EXECUTION_OK, storage, world)
  initializeStateInPlace _ _ storage _ world := (.ok PROCESSOR_EXECUTION_OK, storage, world)
  overlayStateSnapshot _ storage := (.ok (), storage)
  process _ storage _ _ _ _ _ _ world := (status, storage, world)
  event _ storage _ _ _ world := (PROCESSOR_EXECUTION_OK, storage, world)

/-- A program without endpoints, at 48 kHz in blocks of 64 frames. -/
def JitProgram.bare : JitProgram where
  sampleRate := 0x473B8000
  blockSize := 64
  inputs := []
  outputs := []
  params := []
  buffers := []
  events := []
  stateSizeBytes := 0
  snapshotSizeBytes := 0

/-- A host that ramps nothing and has no values. -/
def HostValues.bare : HostValues Unit Unit Unit Unit where
  newSmoothing _ := .ok ()
  setDuration _ _ := .ok ([], ())
  setTarget _ _ _ _ := (false, ())
  beginBlock _ _ := ([], ())
  settleSmoothing _ _ := ()
  constrainParam _ _ := .ok ()
  scalarParamBytes _ _ := .ok []
  encodePayload _ _ := .ok []
  writeInputs _ _ _ := ()
  clearOutputs _ := ()

/-- The session that is built from the bare program. -/
def RunSession.bare : RunSession Unit Unit Unit where
  options := ⟨0x473B8000, 64, 0⟩
  active :=
    { inst :=
        { config := ⟨0x473B8000, 64, 0, 0⟩
          params := []
          state := .allocated [] true
          inputBindings := []
          outputBindings := []
          bufferBindings := []
          inputPtrs := []
          outputPtrs := []
          bufferTables := []
          inputsValidated := true
          outputsValidated := true
          buffersValidated := true
          history := [.ran .init false, .prepared .buffers, .prepared .inputs, .prepared .outputs] }
      env := ⟨(), []⟩ }
  paramValues := []
  paramSmoothing := ()
  bufferBindings := []
  inputBuffers := []
  outputBuffers := []

theorem build_bare (status : UInt32) :
    RunSession.build .ascii64 (.ending status) .bare .bare ⟨0x473B8000, 64, 0⟩ [] [] [] () =
      .ok RunSession.bare := by
  rfl

/-- A block that fails its safety check, and a second block: the second one enters an instance
that is no longer initialized. -/
theorem second_block_enters_uninitialized :
    RunSession.build .ascii64 (.ending 1) .bare .bare ⟨0x473B8000, 64, 0⟩ [] [] [] () =
        .ok RunSession.bare ∧
      ∃ entry ∈ (run .ascii64 (.ending 1) .bare .bare [.renderBlock 0, .renderBlock 0]
        RunSession.bare).active.env.entries, ¬entry.Valid := by
  refine ⟨build_bare 1, ⟨.processUncheckedSegment, [.ran .process true, .ran .init false,
    .prepared .buffers, .prepared .inputs, .prepared .outputs]⟩, ?_, ?_⟩
  · exact List.mem_cons_self
  · intro valid
    exact absurd valid.live (by decide)

/-- Blocks that succeed: every one of them meets an initialized instance. -/
theorem run_entries_valid_blocks :
    (run .ascii64 (.ending 0) .bare .bare [.renderBlock 0, .renderBlock 0]
      RunSession.bare).active.env.Sound :=
  run_entries_valid .ascii64 (.ending 0) .bare .bare ⟨0x473B8000, 64, 0⟩ [] [] [] ()
    RunSession.bare [.renderBlock 0, .renderBlock 0] (build_bare 0)
    ⟨fun _ => rfl, fun _ => rfl, trivial⟩

end Onda.Runtime
