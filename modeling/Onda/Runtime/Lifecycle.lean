import Onda.Project.BufferCodec
import Onda.Runtime.HostCalls

/-!
# The lifecycle of an instance

Runs of checked operations in any order, whatever generated code does.  Generated code sees exact
tables only, an instance is initialized exactly if its image was rebuilt and not harmed since, the
reads of the state succeed only then, and what is refused leaves no trace.
-/

namespace Onda.Runtime

open Effects
open Onda.Project (Platform f32IsFinite f32LeZero)

variable {W V : Type} {platform : Platform} {native : NativeCode W V} {program : JitProgram}

/-! ### Steps -/

/-- The call with a status that an operation makes. -/
def CheckedCall.call : CheckedCall V → Option (StatusCall V)
  | .status call | .strict call => some call
  | .host _ | .read _ => none

/-- One operation of a run. -/
structure Step (W V : Type) where
  operation : CheckedCall V
  before : Active (Host W)
  answer : Except Stop Answer
  after : Active (Host W)

/-- The entries into generated code. -/
def Step.entered (step : Step W V) : List Entered := step.after.env.world.entered

section Running

variable (platform native program)

/-- An operation begins with no entries. -/
def CheckedCall.step (operation : CheckedCall V) (active : Active (Host W)) : Step W V where
  operation := operation
  before := { active with env := { active.env with world := ⟨active.env.world.world, []⟩ } }
  answer := (operation.perform platform native program
    { active with env := { active.env with world := ⟨active.env.world.world, []⟩ } }).1
  after := (operation.perform platform native program
    { active with env := { active.env with world := ⟨active.env.world.world, []⟩ } }).2

/-- The operations in order. -/
def runChecked : List (CheckedCall V) → Active (Host W) → List (Step W V)
  | [], _ => []
  | operation :: operations, active =>
    operation.step platform native program active ::
      runChecked operations (operation.step platform native program active).after

/-- A full initialization or restore that completed. -/
def Step.Rebuilds (step : Step W V) : Prop :=
  ∃ call, step.operation.call = some call ∧
    call.Rebuilt step.entered (call.perform platform native program step.before).1

/-- No generated call, or one that completed or rejected its input. -/
def Step.Spares (step : Step W V) : Prop :=
  step.entered = [] ∨ ∃ call, step.operation.call = some call ∧
    call.Harmless step.entered (call.perform platform native program step.before).1

/-- The image was built by a full initialization or a restore that completed, and no generated
call has failed since. -/
def Produced (steps : List (Step W V)) : Prop :=
  ∃ earlier step later, steps = earlier ++ step :: later ∧ step.Rebuilds platform native program ∧
    ∀ other ∈ later, other.Spares platform native program

/-- What holds of each step of a run. -/
structure Step.Sound (earlier : List (Step W V)) (step : Step W V) : Prop where
  /-- Generated code sees the tables that are computed from the bindings. -/
  tables : ∀ entry ∈ step.entered, entry.Exact platform program step.before.inst
  initialized : step.after.inst.isInitialized = true ↔
    Produced platform native program (earlier ++ [step])
  reads : ∀ call answer, step.operation = .read call → step.answer = .ok answer →
    Produced platform native program earlier
  /-- An error before generated code is entered. -/
  refused : ∀ stop, step.answer = .error stop → step.entered = [] →
    Untouched step.before.inst step.after.inst

end Running

theorem not_produced_nil : ¬Produced platform native program ([] : List (Step W V)) := by
  rintro ⟨earlier, step, later, same, -⟩
  cases earlier <;> cases same

/-- One more step. -/
theorem produced_concat {steps : List (Step W V)} {step : Step W V} :
    Produced platform native program (steps ++ [step]) ↔
      step.Rebuilds platform native program ∨
        Produced platform native program steps ∧ step.Spares platform native program := by
  constructor
  · rintro ⟨earlier, rebuilt, later, same, rebuilds, spares⟩
    rcases List.eq_nil_or_concat later with rfl | ⟨later, last, rfl⟩
    · obtain ⟨-, last⟩ := List.append_inj' same rfl
      obtain rfl := List.singleton_inj.mp last
      exact .inl rebuilds
    · rw [List.concat_eq_append, ← List.cons_append, ← List.append_assoc] at same
      obtain ⟨rest, final⟩ := List.append_inj' same rfl
      obtain rfl := List.singleton_inj.mp final
      refine .inr ⟨⟨earlier, rebuilt, later, rest, rebuilds, fun other mem => ?_⟩, ?_⟩
      · exact spares other (by rw [List.concat_eq_append]; exact List.mem_append_left _ mem)
      · exact spares step (by rw [List.concat_eq_append]; exact List.mem_append_right _ (by simp))
  · rintro (rebuilds | ⟨⟨earlier, rebuilt, later, rfl, rebuilds, spares⟩, spared⟩)
    · exact ⟨steps, step, [], rfl, rebuilds, fun other mem => by cases mem⟩
    · refine ⟨earlier, rebuilt, later ++ [step], by simp, rebuilds, fun other mem => ?_⟩
      rcases List.mem_append.mp mem with mem | mem
      · exact spares other mem
      · rw [List.mem_singleton.mp mem]
        exact spared

/-! ### The operations of a run -/

/-- The result of a call is that of the operation, but for the form of the answer. -/
theorem snd_bind_of_ok {α β : Type} {first : InstanceCall (Host W) α}
    {next : α → InstanceCall (Host W) β}
    (silent : ∀ value active, (next value active).2 = active) (active : Active (Host W)) :
    ((first >>= next) active).2 = (first active).2 := by
  rcases result : first active with ⟨value | value, active'⟩
  · rw [Call.bind_error result]
  · rw [Call.bind_ok result]
    exact silent value active'

theorem checkExecutionStatus_silent (status : UInt32) (active : Active (Host W)) :
    (checkExecutionStatus status active).2 = active := by
  unfold checkExecutionStatus
  split
  · rfl
  · split <;> rfl

variable (platform native program) in
theorem perform_call {operation : CheckedCall V} {call : StatusCall V}
    (same : operation.call = some call) (active : Active (Host W)) :
    (operation.perform platform native program active).2 =
      (call.perform platform native program active).2 := by
  cases operation with
  | host other => cases same
  | read other => cases same
  | status other =>
    obtain rfl := Option.some.inj same
    exact snd_bind_of_ok (fun _ _ => rfl) active
  | strict other =>
    obtain rfl := Option.some.inj same
    refine snd_bind_of_ok (fun status active => ?_) active
    exact (snd_bind_of_ok (fun _ _ => rfl) active).trans (checkExecutionStatus_silent status active)

/-- What holds of one step, given what the run so far says of the image. -/
theorem step_sound {active : Active (Host W)}
    (upkeep : Upkeep platform native program active.inst) {earlier : List (Step W V)}
    (produced : active.inst.isInitialized = true ↔ Produced platform native program earlier)
    (operation : CheckedCall V) :
    (operation.step platform native program active).Sound platform native program earlier ∧
      Upkeep platform native program
        (operation.step platform native program active).after.inst := by
  generalize made : operation.step platform native program active = step
  have before : step.before =
      { active with env := { active.env with world := ⟨active.env.world.world, []⟩ } } := by
    rw [← made]
    rfl
  have fresh : step.before.env.world.entered = [] := by rw [before]
  have same : step.before.inst = active.inst := by rw [before]
  have upkeep : Upkeep platform native program step.before.inst := by
    rw [same]
    exact upkeep
  have result : operation.perform platform native program step.before =
      (step.answer, step.after) := by
    rw [before, ← made]
    rfl
  have named : step.operation = operation := by
    rw [← made]
    rfl
  rw [← same] at produced
  -- an operation that enters nothing keeps what the run says
  have quiet : operation.call = none → step.after.env = step.before.env →
      step.after.inst.state = step.before.inst.state →
        (∀ entry ∈ step.entered, entry.Exact platform program step.before.inst) ∧
          (step.after.inst.isInitialized = true ↔
            Produced platform native program (earlier ++ [step])) := by
    intro uncalled env state
    have none : step.entered = [] := by
      unfold Step.entered
      rw [env]
      exact fresh
    refine ⟨fun entry mem => ?_, ?_⟩
    · rw [none] at mem
      cases mem
    · have flag : step.after.inst.isInitialized = step.before.inst.isInitialized := by
        unfold Instance.isInitialized
        rw [state]
      rw [flag, produced, produced_concat]
      refine ⟨fun built => .inr ⟨built, .inl none⟩, ?_⟩
      rintro (⟨call, called, -⟩ | ⟨built, -⟩)
      · rw [named, uncalled] at called
        cases called
      · exact built
  cases called : operation.call with
  | some call =>
    have after := perform_call platform native program called step.before
    rw [result] at after
    have outcome := outcome_perform fresh upkeep call
    rw [← after] at outcome
    refine ⟨⟨outcome.tables, ?_, ?_, fun _ _ none => outcome.untouched none⟩, outcome.upkeep⟩
    · rw [outcome.initialized, produced, produced_concat]
      refine or_congr ⟨fun rebuilt => ⟨call, named ▸ called, rebuilt⟩, ?_⟩
        (and_congr_right fun _ => ⟨fun harmless => .inr ⟨call, named ▸ called, harmless⟩, ?_⟩)
      · rintro ⟨other, called', rebuilt⟩
        obtain rfl := Option.some.inj ((named ▸ called).symm.trans called')
        exact rebuilt
      · rintro (none | ⟨other, called', harmless⟩)
        · exact .inl none
        · obtain rfl := Option.some.inj ((named ▸ called).symm.trans called')
          exact harmless
    · intro other answer reads
      rw [named] at reads
      rw [reads] at called
      cases called
  | none =>
    cases operation with
    | status call => cases called
    | strict call => cases called
    | host call =>
      have holds : Holds (fun active => active = step.before)
          ((CheckedCall.host call : CheckedCall V).perform platform native program)
          (fun _ => HostOutcome platform native program step.before)
          (fun _ => Prelude platform native program step.before []) :=
        Holds.bind (host_perform upkeep call) fun _ => Holds.pure fun _ after => after
      obtain ⟨ok, failed⟩ := holds step.before rfl
      rw [result] at ok failed
      cases answer : step.answer with
      | ok value =>
        have after := ok value answer
        obtain ⟨tables, initialized⟩ := quiet rfl after.env after.state
        refine ⟨⟨tables, initialized, fun _ _ reads => ?_, fun stop error => ?_⟩, after.upkeep⟩
        · rw [named] at reads
          cases reads
        · rw [answer] at error
          cases error
      | error stop =>
        have after := failed stop answer
        obtain ⟨tables, initialized⟩ := quiet rfl after.env after.untouched.state
        refine ⟨⟨tables, initialized, fun _ _ reads => ?_, fun _ _ _ => after.untouched⟩,
          after.upkeep⟩
        rw [named] at reads
        cases reads
    | read call =>
      have holds : Holds (fun active => active = step.before)
          ((CheckedCall.read call : CheckedCall V).perform platform native program)
          (fun _ active => Prelude platform native program step.before [] active ∧
            active.inst.isInitialized = true)
          (fun _ => Prelude platform native program step.before []) :=
        Holds.bind (read_perform upkeep call) fun _ => Holds.pure fun _ after => after
      obtain ⟨ok, failed⟩ := holds step.before rfl
      rw [result] at ok failed
      cases answer : step.answer with
      | ok value =>
        obtain ⟨after, ready⟩ := ok value answer
        obtain ⟨tables, initialized⟩ := quiet rfl after.env after.untouched.state
        refine ⟨⟨tables, initialized, fun _ _ _ _ => ?_, fun _ _ _ => after.untouched⟩,
          after.upkeep⟩
        rw [← produced, ← after.untouched.isInitialized]
        exact ready
      | error stop =>
        have after := failed stop answer
        obtain ⟨tables, initialized⟩ := quiet rfl after.env after.untouched.state
        refine ⟨⟨tables, initialized, fun _ _ _ error => ?_, fun _ _ _ => after.untouched⟩,
          after.upkeep⟩
        rw [answer] at error
        cases error

/-! ### Runs -/

theorem run_sound (active : Active (Host W))
    (upkeep : Upkeep platform native program active.inst) {past : List (Step W V)}
    (produced : active.inst.isInitialized = true ↔ Produced platform native program past)
    (operations : List (CheckedCall V)) :
    ∀ earlier step later, runChecked platform native program operations active =
      earlier ++ step :: later → step.Sound platform native program (past ++ earlier) := by
  induction operations generalizing active past with
  | nil =>
    intro earlier step later same
    cases earlier <;> cases same
  | cons operation operations ih =>
    intro earlier step later same
    obtain ⟨sound, kept⟩ := step_sound upkeep produced operation
    rw [runChecked] at same
    cases earlier with
    | nil =>
      obtain ⟨rfl, -⟩ := List.cons.inj same
      rw [List.append_nil]
      exact sound
    | cons first earlier =>
      obtain ⟨rfl, rest⟩ := List.cons.inj same
      rw [List.append_cons]
      exact ih _ kept sound.initialized earlier step later rest

theorem fallbackChannels_ok {desc : DeclaredBuffer} {channels : Nat}
    (found : fallbackChannels desc = .ok channels) : channels = fallbackCount desc := by
  unfold fallbackChannels at found
  unfold fallbackCount
  cases shape : desc.channels with
  | mono =>
    rw [shape] at found
    exact (Except.ok.inj found).symm
  | dynamic =>
    rw [shape] at found
    exact (Except.ok.inj found).symm
  | static declared =>
    rw [shape] at found
    dsimp only at found
    split at found
    · exact (Except.ok.inj found).symm
    · cases found

/-- The first tables of the buffers. -/
theorem fallbackRows_ok {config : InstanceConfig} {buffers : List DeclaredBuffer}
    {tables : List BoundBuffer}
    (built : (buffers.mapM fun buffer => do
      let channels ← fallbackChannels buffer
      return (⟨0, 1, channels, config.sampleRate⟩ : BoundBuffer) : Except String _) =
        .ok tables) :
    tables = buffers.map (fallbackRow config) ∧
      ∀ desc ∈ buffers, fallbackChannels desc = .ok (fallbackCount desc) := by
  induction buffers generalizing tables with
  | nil =>
    rw [List.mapM_nil] at built
    exact ⟨(Except.ok.inj built).symm, fun desc mem => by cases mem⟩
  | cons desc buffers ih =>
    rw [List.mapM_cons] at built
    obtain ⟨row, made, built⟩ := ok_of_bind built
    obtain ⟨rows, rest, built⟩ := ok_of_bind built
    obtain ⟨channels, found, made⟩ := ok_of_bind made
    obtain rfl := Except.ok.inj built
    obtain rfl := Except.ok.inj made
    obtain ⟨rfl, all⟩ := ih rest
    have count := fallbackChannels_ok found
    subst count
    exact ⟨rfl, List.forall_mem_cons.mpr ⟨found, all⟩⟩

/-- The computed table of an instance without buffers bound. -/
theorem bufferTable_unbound {inst : Instance}
    (unbound : inst.bufferBindings = List.replicate program.buffers.length none) :
    inst.bufferTable program = program.buffers.map (fallbackRow inst.config) := by
  unfold Instance.bufferTable
  refine List.ext_getElem? fun idx => ?_
  rw [List.getElem?_map, List.getElem?_zipIdx, List.getElem?_map, unbound]
  cases program.buffers[idx]? with
  | none => rfl
  | some desc =>
    simp only [Option.map_some, Nat.zero_add, List.getElem?_replicate]
    split <;> rfl

/-- A new instance. -/
theorem createInstance_upkeep (native : NativeCode W V) {config : InstanceConfig} {inst : Instance}
    (created : createInstance platform program config = .ok inst)
    (short : inst.params.length < platform.usizeMax) :
    Upkeep platform native program inst ∧ inst.isInitialized = false := by
  unfold createInstance at created
  obtain ⟨passed, rate, created⟩ := ok_of_bind created
  obtain ⟨-, -, created⟩ := ok_of_bind created
  obtain ⟨-, -, created⟩ := ok_of_bind created
  obtain ⟨-, -, created⟩ := ok_of_bind created
  obtain ⟨-, -, created⟩ := ok_of_bind created
  obtain ⟨-, -, created⟩ := ok_of_bind created
  obtain ⟨-, -, created⟩ := ok_of_bind created
  obtain ⟨-, -, created⟩ := ok_of_bind created
  obtain ⟨params, -, created⟩ := ok_of_bind created
  obtain ⟨tables, built, created⟩ := ok_of_bind created
  obtain rfl := Except.ok.inj created
  obtain ⟨rows, fallback⟩ := fallbackRows_ok built
  refine ⟨⟨configCheck_ok.mp rate, fallback, ?_, ?_, ?_, ?_, short, ?_, ?_⟩, rfl⟩
  · intro desc idx _ row here
    dsimp only [newInstance] at here
    rw [List.getElem?_replicate] at here
    split at here <;> cases here
  · exact blank_replicate platform _
  · exact List.length_replicate
  · show tables.length = _
    rw [rows, List.length_map]
  · -- a surface without slots is prepared from the start, and so are the buffers
    intro surface flag
    cases surface with
    | inputs =>
      have none := of_decide_eq_true flag
      exact ⟨eq_channelTable_of_required List.length_replicate none _ _, .inl none⟩
    | outputs =>
      have none := of_decide_eq_true flag
      exact ⟨eq_channelTable_of_required List.length_replicate none _ _, .inl none⟩
    | buffers =>
      show tables = _
      rw [rows, bufferTable_unbound rfl]
      rfl
  · intro storage initialized state
    cases state

/-- **The lifecycle of an instance.**  Every run of checked operations on a new instance, whatever
generated code returns.  The parameters are an allocation: they are shorter than the address
space. -/
theorem lifecycle_sound (native : NativeCode W V) {config : InstanceConfig} {inst : Instance}
    (created : createInstance platform program config = .ok inst)
    (short : inst.params.length < platform.usizeMax) (world : W)
    (operations : List (CheckedCall V)) :
    ∀ earlier step later, runChecked platform native program operations ⟨inst, ⟨⟨world, []⟩, []⟩⟩ =
      earlier ++ step :: later → step.Sound platform native program earlier := by
  obtain ⟨upkeep, uninitialized⟩ := createInstance_upkeep native created short
  have produced : inst.isInitialized = true ↔
      Produced platform native program ([] : List (Step W V)) := by
    rw [uninitialized]
    exact ⟨fun ready => (by cases ready), fun built => absurd built not_produced_nil⟩
  exact run_sound ⟨inst, ⟨⟨world, []⟩, []⟩⟩ upkeep produced operations

/-! ### A run that plays one block -/

/-- Generated code that completes. -/
def NativeCode.completing : NativeCode Unit Unit where
  paramsSize := 0
  stateSize := 0
  stateAligned := true
  init _ _ storage _ world := (PROCESSOR_EXECUTION_OK, storage, world)
  process _ storage _ _ _ _ _ _ world := (PROCESSOR_EXECUTION_OK, storage, world)
  event _ storage _ _ _ world := (PROCESSOR_EXECUTION_OK, storage, world)
  eventViews _ storage _ _ _ world := (PROCESSOR_EXECUTION_OK, storage, world)
  validateTensorViews _ _ _ := true
  writeStateSnapshot _ := .ok []
  overlayStateSnapshot _ storage := (.ok (), storage)
  controlOutputs := []
  controlOutputStorageByteOffset _ := none

/-- A program with one output of one channel. -/
def JitProgram.oneOutput : JitProgram where
  sampleRate := 0x473B8000
  blockSize := 64
  inputs := []
  outputs := [⟨"out", .f32, 1, false, 0, 0, none⟩]
  params := []
  buffers := []
  events := []
  stateSizeBytes := 0
  snapshotSizeBytes := 0

def oneBlock : List (CheckedCall Unit) :=
  [.host (.bindOutput 0 4096 256), .status (.init .full), .strict (.process 0 64 3)]

theorem lifecycle_sound_once :
    let steps := runChecked .ascii64 .completing .oneOutput oneBlock
      ⟨newInstance .ascii64 .oneOutput ⟨0x473B8000, 64, 0, 1⟩ [] [], ⟨⟨(), []⟩, []⟩⟩
    ∃ earlier step, steps = earlier ++ [step] ∧
      step.entered = [⟨.process, [], some ([], [4096])⟩] ∧
        step.Sound .ascii64 .completing .oneOutput earlier := by
  intro steps
  have filled : steps ≠ [] := List.cons_ne_nil _ _
  have last := (List.dropLast_append_getLast filled).symm
  have created : createInstance .ascii64 .oneOutput ⟨0x473B8000, 64, 0, 1⟩ =
      .ok (newInstance .ascii64 .oneOutput ⟨0x473B8000, 64, 0, 1⟩ [] []) := rfl
  exact ⟨_, _, last, rfl, lifecycle_sound .completing created (by decide) () oneBlock _ _ [] last⟩

end Onda.Runtime
