import Onda.Runtime.Upkeep

/-!
# Preparing the tables of an instance

Before a call enters generated code it checks the bindings.  Whether a check passes or fails, it
touches the tables and flags only, and the flags it leaves set stand for exact tables.
-/

namespace Onda.Runtime

open Effects
open Onda.Project (Platform f32IsFinite f32LeZero)

variable {W V : Type} {platform : Platform} {native : NativeCode W V} {program : JitProgram}

/-- All but the tables, the flags and the history. -/
structure Untouched (inst inst' : Instance) : Prop where
  config : inst'.config = inst.config
  params : inst'.params = inst.params
  state : inst'.state = inst.state
  inputBindings : inst'.inputBindings = inst.inputBindings
  outputBindings : inst'.outputBindings = inst.outputBindings
  bufferBindings : inst'.bufferBindings = inst.bufferBindings

/-- A call that has not entered generated code yet, with the surfaces that it has checked. -/
structure Prelude (platform : Platform) (native : NativeCode W V) (program : JitProgram)
    (start : Active (Host W)) (done : List Surface) (active : Active (Host W)) : Prop where
  untouched : Untouched start.inst active.inst
  env : active.env = start.env
  upkeep : Upkeep platform native program active.inst
  done : ∀ surface ∈ done, surface.flag active.inst = true

namespace Untouched

variable {inst inst' : Instance}

theorem trans {inst'' : Instance} (first : Untouched inst inst')
    (second : Untouched inst' inst'') : Untouched inst inst'' :=
  ⟨second.config.trans first.config, second.params.trans first.params,
    second.state.trans first.state, second.inputBindings.trans first.inputBindings,
    second.outputBindings.trans first.outputBindings,
    second.bufferBindings.trans first.bufferBindings⟩

theorem isInitialized (untouched : Untouched inst inst') :
    inst'.isInitialized = inst.isInitialized := by
  unfold Instance.isInitialized
  rw [untouched.state]

theorem inputTable (untouched : Untouched inst inst') :
    inst'.inputTable platform program = inst.inputTable platform program := by
  unfold Instance.inputTable
  rw [untouched.inputBindings, untouched.config]

theorem outputTable (untouched : Untouched inst inst') :
    inst'.outputTable platform program = inst.outputTable platform program := by
  unfold Instance.outputTable
  rw [untouched.outputBindings, untouched.config]

theorem bufferTable (untouched : Untouched inst inst') :
    inst'.bufferTable program = inst.bufferTable program := by
  unfold Instance.bufferTable
  rw [untouched.bufferBindings, untouched.config]

end Untouched

/-! ### Tables of an instance -/

namespace Upkeep

variable {inst : Instance} (upkeep : Upkeep platform native program inst)
include upkeep

/-- A rebuild of the input table that failed on the way. -/
theorem withInputPtrs {ptrs : List Nat} (blank : Blank platform program.inputs ptrs)
    (unbound : ¬∀ item ∈ program.inputs.zipIdx,
      Bound platform inst.inputBindings inst.config.framesPerBlock item) :
    Upkeep platform native program { inst with inputPtrs := ptrs } :=
  { upkeep with
    inputs := blank
    exact := by
      intro surface flag
      cases surface with
      | inputs =>
        -- a set flag says that the endpoints are bound, unless there is no slot at all
        rcases (upkeep.exact .inputs flag).2 with none | bound
        · exact ⟨eq_channelTable_of_required blank.length none _ _, .inl none⟩
        · exact absurd bound unbound
      | outputs => exact upkeep.exact .outputs flag
      | buffers => exact upkeep.exact .buffers flag }

theorem inputsValidated
    (bound : ∀ item ∈ program.inputs.zipIdx,
      Bound platform inst.inputBindings inst.config.framesPerBlock item) :
    Upkeep platform native program (Surface.inputs.markValidated
      { inst with inputPtrs := inst.inputTable platform program }) :=
  { upkeep with
    inputs := blank_channelTable platform _ _ _
    exact := by
      intro surface flag
      cases surface with
      | inputs => exact ⟨rfl, .inr bound⟩
      | outputs => exact upkeep.exact .outputs flag
      | buffers => exact upkeep.exact .buffers flag }

theorem withOutputPtrs {ptrs : List Nat}
    (length : ptrs.length = requiredChannels platform program.outputs)
    (unready : ¬((∀ item ∈ program.outputs.zipIdx,
        Bound platform inst.outputBindings inst.config.framesPerBlock item) ∧
      NoNull platform program (inst.outputTable platform program))) :
    Upkeep platform native program { inst with outputPtrs := ptrs } :=
  { upkeep with
    outputs := length
    exact := by
      intro surface flag
      cases surface with
      | inputs => exact upkeep.exact .inputs flag
      | outputs =>
        rcases (upkeep.exact .outputs flag).2 with none | ready
        · exact ⟨eq_channelTable_of_required length none _ _, .inl none⟩
        · exact absurd ready unready
      | buffers => exact upkeep.exact .buffers flag }

theorem outputsValidated
    (ready : (∀ item ∈ program.outputs.zipIdx,
        Bound platform inst.outputBindings inst.config.framesPerBlock item) ∧
      NoNull platform program (inst.outputTable platform program)) :
    Upkeep platform native program (Surface.outputs.markValidated
      { inst with outputPtrs := inst.outputTable platform program }) :=
  { upkeep with
    outputs := (blank_channelTable platform _ _ _).length
    exact := by
      intro surface flag
      cases surface with
      | inputs => exact upkeep.exact .inputs flag
      | outputs => exact ⟨rfl, .inr ready⟩
      | buffers => exact upkeep.exact .buffers flag }

theorem buffersValidated :
    Upkeep platform native program (Surface.buffers.markValidated
      { inst with bufferTables := inst.bufferTable program }) :=
  { upkeep with
    buffers := by
      show (inst.bufferTable program).length = _
      unfold Instance.bufferTable
      rw [List.length_map, List.length_zipIdx]
    exact := by
      intro surface flag
      cases surface with
      | inputs => exact upkeep.exact .inputs flag
      | outputs => exact upkeep.exact .outputs flag
      | buffers => exact rfl }

/-- An image that a generated call has left. -/
theorem withState {state : InstanceState} (event : Event)
    (accepts : ∀ storage initialized, state = .allocated storage initialized →
      Accepts native program inst.config inst.params) :
    Upkeep platform native program (Instance.record event { inst with state }) :=
  { upkeep with
    exact := by
      intro surface flag
      cases surface with
      | inputs => exact upkeep.exact .inputs flag
      | outputs => exact upkeep.exact .outputs flag
      | buffers => exact upkeep.exact .buffers flag
    accepts := accepts }

end Upkeep

/-! ### Inputs -/

section Checking

variable {α : Type}

/-- Checks that change nothing, one for each item. -/
theorem holds_eachCheck {call : α → InstanceCall W Unit} {items : List α} (now : Active W)
    (passes : α → Prop)
    (holds : ∀ item ∈ items, Holds (fun active => active = now) (call item)
      (fun _ active => active = now ∧ passes item) (fun _ active => active = now ∧ ¬passes item)) :
    Holds (fun active => active = now) (Call.each call items)
      (fun _ active => active = now ∧ ∀ item ∈ items, passes item)
      (fun _ active => active = now ∧ ¬∀ item ∈ items, passes item) := by
  induction items with
  | nil => exact Holds.pure fun active same => ⟨same, fun item mem => by cases mem⟩
  | cons item items ih =>
    refine Holds.bind (Q := fun _ active => active = now ∧ passes item) ?_ fun _ => ?_
    · refine (holds item (List.mem_cons_self ..)).imp (fun _ same => same)
        (fun _ _ after => after) fun _ _ after => ⟨after.1, fun all => ?_⟩
      exact after.2 (all item (List.mem_cons_self ..))
    · rintro active ⟨rfl, passed⟩
      obtain ⟨ok, failed⟩ := ih (fun other mem => holds other (List.mem_cons_of_mem _ mem)) _ rfl
      refine ⟨fun value same => ?_, fun stop same => ?_⟩
      · exact ⟨(ok value same).1, List.forall_mem_cons.mpr ⟨passed, (ok value same).2⟩⟩
      · refine ⟨(failed stop same).1, fun all => (failed stop same).2 ?_⟩
        exact (List.forall_mem_cons.mp all).2

end Checking

variable {start : Active (Host W)} {done : List Surface}

theorem Prelude.cons {active : Active (Host W)} {surface : Surface}
    (begun : Prelude platform native program start done active)
    (flag : surface.flag active.inst = true) :
    Prelude platform native program start (surface :: done) active :=
  { begun with done := List.forall_mem_cons.mpr ⟨flag, begun.done⟩ }

theorem Prelude.weaken {active : Active (Host W)} {done' : List Surface}
    (begun : Prelude platform native program start done active)
    (fewer : ∀ surface ∈ done', surface ∈ done) :
    Prelude platform native program start done' active :=
  { begun with done := fun surface mem => begun.done surface (fewer surface mem) }

/-- The tables that a rebuild leaves, and nothing else. -/
theorem holds_prepareInputs (now : Active W)
    (blank : Blank platform program.inputs now.inst.inputPtrs) (frames : Nat) :
    Holds (fun active => active = now)
      (prepareInputPtrsFromBindings platform program frames : InstanceCall W Unit)
      (fun _ active =>
        (∀ item ∈ program.inputs.zipIdx, Bound platform now.inst.inputBindings frames item) ∧
        active = { now with
          inst := { now.inst with
            inputPtrs := channelTable platform program.inputs now.inst.inputBindings frames } })
      (fun _ active =>
        (¬∀ item ∈ program.inputs.zipIdx, Bound platform now.inst.inputBindings frames item) ∧
        ∃ ptrs, Blank platform program.inputs ptrs ∧
          active = { now with inst := { now.inst with inputPtrs := ptrs } }) := by
  refine Holds.bind (Q := fun slots active => active = now ∧ slots = now.inst.inputPtrs.length)
    (Holds.read ?_) fun slots => ?_
  · rintro _ rfl
    exact ⟨rfl, rfl⟩
  refine Holds.bind (Q := fun _ active => active = now) (Holds.refuseIf ?_ ?_) fun _ => ?_
  · exact fun _ active before => before.1
  · intro differ active before
    exact absurd (before.2.trans blank.length) differ
  refine (holds_fill
    (fun desc region => modify fun inst =>
      { inst with inputPtrs := channelPtrs platform desc region frames inst.inputPtrs })
    now.inst.inputBindings
    (fun ptrs => { now with inst := { now.inst with inputPtrs := ptrs } })
    (fun _ => rfl) (fun _ _ _ => rfl) program.inputs.zipIdx now.inst.inputPtrs).imp ?_ ?_ ?_
  · exact fun _ same => same
  · rintro _ active ⟨rfl, bound⟩
    rw [blank.fill_eq bound]
    exact ⟨bound, rfl⟩
  · rintro _ active ⟨⟨done, begins, rfl⟩, unbound⟩
    exact ⟨unbound, _, blank.fill _ _ begins, rfl⟩

theorem prelude_validateInputs :
    Holds (Prelude platform native program start done)
      (validateInputs platform program : InstanceCall (Host W) Unit)
      (fun _ => Prelude platform native program start (.inputs :: done))
      (fun _ => Prelude platform native program start done) := by
  intro now begun
  refine Holds.bind (P := fun active => active = now)
    (Q := fun frames active => active = now ∧ frames = now.inst.config.framesPerBlock)
    (Holds.read ?_) (fun frames => ?_) now rfl
  · rintro _ rfl
    exact ⟨rfl, rfl⟩
  by_cases same : frames = now.inst.config.framesPerBlock
  · subst same
    refine Holds.bind ((holds_prepareInputs now begun.upkeep.inputs _).imp
      (fun _ before => before.1) (fun _ _ after => after) ?_) fun _ => ?_
    · rintro _ active ⟨unbound, ptrs, blank, rfl⟩
      exact ⟨begun.untouched.trans ⟨rfl, rfl, rfl, rfl, rfl, rfl⟩, begun.env,
        begun.upkeep.withInputPtrs blank unbound,
        fun surface mem => by cases surface <;> exact begun.done _ mem⟩
    · refine Holds.update ?_
      rintro _ ⟨bound, rfl⟩
      exact ⟨begun.untouched.trans ⟨rfl, rfl, rfl, rfl, rfl, rfl⟩, begun.env,
        begun.upkeep.inputsValidated bound,
        List.forall_mem_cons.mpr ⟨rfl, fun surface mem => by
          cases surface with
          | inputs => rfl
          | outputs => exact begun.done _ mem
          | buffers => exact begun.done _ mem⟩⟩
  · exact fun active before => absurd before.2 same

/-! ### Outputs -/

/-- The last loop of a rebuild of the output table. -/
theorem holds_nullCheck (platform : Platform) (program : JitProgram) (now : Active W) :
    Holds (fun active => active = now)
      (Call.each (fun desc =>
        Call.each (fun ch => do
          let ptr ← Call.read fun active =>
            active.inst.outputPtrs[saturatingAdd platform desc.slotOffset ch]?
          Call.refuseIf (ptr = some 0)
            (.diagnostic ("output '" ++ desc.name ++ "' channel pointer is null")))
          (List.range desc.arrayLen))
        program.outputs : InstanceCall W Unit)
      (fun _ active => active = now ∧ NoNull platform program now.inst.outputPtrs)
      (fun _ active => active = now ∧ ¬NoNull platform program now.inst.outputPtrs) := by
  refine holds_eachCheck now _ fun desc _ => holds_eachCheck now _ fun ch _ => ?_
  refine Holds.bind (Q := fun ptr active => active = now ∧
    ptr = now.inst.outputPtrs[saturatingAdd platform desc.slotOffset ch]?)
    (Holds.read ?_) fun ptr => ?_
  · rintro _ rfl
    exact ⟨rfl, rfl⟩
  · refine Holds.refuseIf (fun passes active before => ?_) fun fails active before => ?_
    · exact ⟨before.1, before.2 ▸ passes⟩
    · exact ⟨before.1, fun null => null (before.2 ▸ fails)⟩

theorem holds_prepareOutputs (now : Active W)
    (length : now.inst.outputPtrs.length = requiredChannels platform program.outputs)
    (frames : Nat) :
    Holds (fun active => active = now)
      (prepareOutputPtrsForProcess platform program frames : InstanceCall W Unit)
      (fun _ active =>
        ((∀ item ∈ program.outputs.zipIdx, Bound platform now.inst.outputBindings frames item) ∧
          NoNull platform program
            (channelTable platform program.outputs now.inst.outputBindings frames)) ∧
        active = { now with
          inst := { now.inst with
            outputPtrs := channelTable platform program.outputs now.inst.outputBindings frames } })
      (fun _ active =>
        (¬((∀ item ∈ program.outputs.zipIdx, Bound platform now.inst.outputBindings frames item) ∧
          NoNull platform program
            (channelTable platform program.outputs now.inst.outputBindings frames))) ∧
        ∃ ptrs, ptrs.length = requiredChannels platform program.outputs ∧
          active = { now with inst := { now.inst with outputPtrs := ptrs } }) := by
  have cleared : now.inst.outputPtrs.map (fun _ => 0) =
      List.replicate (requiredChannels platform program.outputs) 0 := by
    rw [List.map_const', length]
  have blank := blank_replicate platform program.outputs
  refine Holds.bind (Q := fun slots active => active = now ∧ slots = now.inst.outputPtrs.length)
    (Holds.read ?_) fun slots => ?_
  · rintro _ rfl
    exact ⟨rfl, rfl⟩
  refine Holds.bind (Q := fun _ active => active = now) (Holds.refuseIf ?_ ?_) fun _ => ?_
  · exact fun _ active before => before.1
  · intro differ active before
    exact absurd (before.2.trans length) differ
  refine Holds.bind (Q := fun _ active => active = { now with
    inst := { now.inst with
      outputPtrs := List.replicate (requiredChannels platform program.outputs) 0 } })
    (Holds.update ?_) fun _ => ?_
  · rintro _ rfl
    dsimp only
    rw [cleared]
  refine Holds.bind ((holds_fill
    (fun desc region => modify fun inst =>
      { inst with outputPtrs := channelPtrs platform desc region frames inst.outputPtrs })
    now.inst.outputBindings
    (fun ptrs => { now with inst := { now.inst with outputPtrs := ptrs } })
    (fun _ => rfl) (fun _ _ _ => rfl) program.outputs.zipIdx _).imp (fun _ same => same)
    (fun _ _ after => after) ?_) fun _ => ?_
  · rintro _ active ⟨⟨done, begins, rfl⟩, unbound⟩
    exact ⟨fun ready => unbound ready.1, _, (blank.fill _ _ begins).length, rfl⟩
  · rintro active ⟨rfl, bound⟩
    obtain ⟨ok, failed⟩ := holds_nullCheck platform program _ _ rfl
    refine ⟨fun value same => ?_, fun stop same => ?_⟩
    · obtain ⟨after, present⟩ := ok value same
      exact ⟨⟨bound, present⟩, after⟩
    · obtain ⟨after, null⟩ := failed stop same
      exact ⟨fun ready => null ready.2, _, (blank_channelTable platform _ _ _).length, after⟩

theorem prelude_validateOutputs :
    Holds (Prelude platform native program start done)
      (validateOutputs platform program : InstanceCall (Host W) Unit)
      (fun _ => Prelude platform native program start (.outputs :: done))
      (fun _ => Prelude platform native program start done) := by
  intro now begun
  refine Holds.bind (P := fun active => active = now)
    (Q := fun frames active => active = now ∧ frames = now.inst.config.framesPerBlock)
    (Holds.read ?_) (fun frames => ?_) now rfl
  · rintro _ rfl
    exact ⟨rfl, rfl⟩
  by_cases same : frames = now.inst.config.framesPerBlock
  · subst same
    refine Holds.bind (Q := fun _ active => active = now) ?_ fun _ => ?_
    · refine Holds.imp (holds_eachCheck now (Bound platform now.inst.outputBindings
        now.inst.config.framesPerBlock) fun item _ => ?_)
        (fun _ before => before.1) (fun _ _ after => after.1) ?_
      · refine Holds.bind (holds_boundRegion now) fun region => Holds.pure ?_
        rintro active ⟨same, here, bytes⟩
        exact ⟨same, region, here, bytes⟩
      · rintro _ active ⟨rfl, -⟩
        exact begun
    refine Holds.bind ((holds_prepareOutputs now begun.upkeep.outputs _).imp
      (fun _ before => before) (fun _ _ after => after) ?_) fun _ => ?_
    · rintro _ active ⟨unready, ptrs, length, rfl⟩
      exact ⟨begun.untouched.trans ⟨rfl, rfl, rfl, rfl, rfl, rfl⟩, begun.env,
        begun.upkeep.withOutputPtrs length unready,
        fun surface mem => by cases surface <;> exact begun.done _ mem⟩
    · refine Holds.update ?_
      rintro _ ⟨ready, rfl⟩
      exact ⟨begun.untouched.trans ⟨rfl, rfl, rfl, rfl, rfl, rfl⟩, begun.env,
        begun.upkeep.outputsValidated ready,
        List.forall_mem_cons.mpr ⟨rfl, fun surface mem => by
          cases surface with
          | inputs => exact begun.done _ mem
          | outputs => rfl
          | buffers => exact begun.done _ mem⟩⟩
  · exact fun active before => absurd before.2 same

/-! ### Buffers -/

/-- The loop over the buffers: each sets one row. -/
theorem holds_fillBuffers (now : Active W) (items : List (DeclaredBuffer × Nat))
    (fallback : ∀ item ∈ items, fallbackChannels item.1 = .ok (fallbackCount item.1))
    (tables : List BoundBuffer) :
    Holds (fun active => active = { now with inst := { now.inst with bufferTables := tables } })
      (Call.each (fun (desc, idx) => do
        let bound ← Call.read fun active => (active.inst.bufferBindings[idx]?).join
        match bound with
        | some bound =>
          modify fun inst => { inst with bufferTables := inst.bufferTables.set idx bound }
        | none => do
          let channels ← checked (fallbackChannels desc)
          modify fun inst =>
            { inst with
              bufferTables :=
                inst.bufferTables.set idx ⟨0, 1, channels, inst.config.sampleRate⟩ }) items :
        InstanceCall W Unit)
      (fun _ active => active = { now with
        inst := { now.inst with
          bufferTables := (items.map fun item => (item.2,
            ((now.inst.bufferBindings[item.2]?).join).getD
              (fallbackRow now.inst.config item.1))).foldl
            (fun tables write => tables.set write.1 write.2) tables } })
      (fun _ _ => False) := by
  induction items generalizing tables with
  | nil => exact Holds.pure fun active same => same
  | cons item items ih =>
    refine Holds.bind (Q := fun _ active => active = { now with
      inst := { now.inst with
        bufferTables := tables.set item.2 (((now.inst.bufferBindings[item.2]?).join).getD
          (fallbackRow now.inst.config item.1)) } }) ?_ fun _ =>
      ih (fun other mem => fallback other (List.mem_cons_of_mem _ mem)) _
    refine Holds.bind (Q := fun row active =>
      active = { now with inst := { now.inst with bufferTables := tables } } ∧
        row = (now.inst.bufferBindings[item.2]?).join) (Holds.read ?_) fun row => ?_
    · rintro _ rfl
      exact ⟨rfl, rfl⟩
    · cases row with
      | some row =>
        refine Holds.update ?_
        rintro _ ⟨rfl, here⟩
        rw [← here]
        rfl
      | none =>
        dsimp only
        rw [fallback item (List.mem_cons_self ..)]
        refine Holds.bind (Q := fun channels active =>
          (active = { now with inst := { now.inst with bufferTables := tables } } ∧
            none = (now.inst.bufferBindings[item.2]?).join) ∧ channels = fallbackCount item.1)
          (Holds.lift ?_ ?_) fun channels => Holds.update ?_
        · rintro channels same active before
          exact ⟨before, (Except.ok.inj same).symm⟩
        · intro stop failed
          cases failed
        · rintro _ ⟨⟨rfl, here⟩, rfl⟩
          rw [← here]
          rfl

/-- The rows that the loop sets are all of the table. -/
theorem fillBuffers_eq (inst : Instance) {tables : List BoundBuffer}
    (length : tables.length = program.buffers.length) :
    (program.buffers.zipIdx.map fun item => (item.2,
      ((inst.bufferBindings[item.2]?).join).getD (fallbackRow inst.config item.1))).foldl
        (fun tables write => tables.set write.1 write.2) tables = inst.bufferTable program := by
  have size : (inst.bufferTable program).length = program.buffers.length := by
    unfold Instance.bufferTable
    rw [List.length_map, List.length_zipIdx]
  refine (sets_congr (length.trans size.symm) fun slot apart => ?_).trans (sets_same ?_)
  · -- every slot inside the table is written
    have outside : program.buffers.length ≤ slot := by
      refine Nat.le_of_not_lt fun inside => ?_
      refine apart _ (List.mem_map.mpr ⟨(program.buffers[slot], slot), ?_, rfl⟩) rfl
      rw [List.mk_mem_zipIdx_iff_getElem?, List.getElem?_eq_getElem inside]
    rw [List.getElem?_eq_none_iff.mpr (length ▸ outside),
      List.getElem?_eq_none_iff.mpr (size ▸ outside)]
  · intro write mem
    obtain ⟨⟨desc, idx⟩, inside, rfl⟩ := List.mem_map.mp mem
    rw [List.mk_mem_zipIdx_iff_getElem?] at inside
    unfold Instance.bufferTable
    rw [List.getElem?_map, List.getElem?_zipIdx, inside]
    simp only [Option.map_some, Nat.zero_add]

theorem prelude_validateBuffers :
    Holds (Prelude platform native program start done)
      (validateBuffers program : InstanceCall (Host W) Unit)
      (fun _ => Prelude platform native program start (.buffers :: done))
      (fun _ => Prelude platform native program start done) := by
  intro now begun
  have fallback : ∀ item ∈ program.buffers.zipIdx,
      fallbackChannels item.1 = .ok (fallbackCount item.1) :=
    fun item mem => begun.upkeep.fallback item.1 (List.fst_mem_of_mem_zipIdx mem)
  refine Holds.bind (P := fun active => active = now)
    ((holds_fillBuffers now _ fallback now.inst.bufferTables).imp (fun _ same => same)
      (fun _ _ after => after) fun _ _ impossible => impossible.elim)
    (fun _ => Holds.update ?_) now rfl
  rintro _ rfl
  rw [fillBuffers_eq now.inst begun.upkeep.buffers]
  exact ⟨begun.untouched.trans ⟨rfl, rfl, rfl, rfl, rfl, rfl⟩, begun.env,
    begun.upkeep.buffersValidated,
    List.forall_mem_cons.mpr ⟨rfl, fun surface mem => by
      cases surface with
      | inputs => exact begun.done _ mem
      | outputs => exact begun.done _ mem
      | buffers => rfl⟩⟩

/-! ### Several surfaces -/

theorem prelude_unlessBuffers :
    Holds (Prelude platform native program start done)
      (unlessValidated (·.buffersValidated) (validateBuffers program) :
        InstanceCall (Host W) Unit)
      (fun _ => Prelude platform native program start (.buffers :: done))
      (fun _ => Prelude platform native program start done) :=
  holds_unless (fun _ begun flag => begun.cons flag) prelude_validateBuffers

theorem prelude_validateBindingsForProcess :
    Holds (Prelude platform native program start [])
      (validateBindingsForProcess platform program : InstanceCall (Host W) Unit)
      (fun _ => Prelude platform native program start allSurfaces)
      (fun _ => Prelude platform native program start []) := by
  refine Holds.bind prelude_unlessBuffers fun _ => ?_
  refine Holds.bind ((holds_unless (fun _ begun flag => begun.cons flag)
    prelude_validateInputs).imp (fun _ begun => begun) (fun _ _ after => after)
      fun _ _ after => after.weaken fun surface mem => by cases mem) fun _ => ?_
  exact (holds_unless (fun _ begun flag => begun.cons flag) prelude_validateOutputs).imp
    (fun _ begun => begun) (fun _ _ after => after)
    fun _ _ after => after.weaken fun surface mem => by cases mem

theorem prelude_validateBindings :
    Holds (Prelude platform native program start [])
      (validateBindings platform program : InstanceCall (Host W) Unit)
      (fun _ => Prelude platform native program start [])
      (fun _ => Prelude platform native program start []) := by
  have less : ∀ (done : List Surface) (active : Active (Host W)),
      Prelude platform native program start done active →
        Prelude platform native program start [] active :=
    fun done active begun => begun.weaken fun surface mem => by cases mem
  refine Holds.bind (prelude_validateBuffers.imp (fun _ begun => begun)
    (fun _ active => less _ active) fun _ active after => after) fun _ => ?_
  refine Holds.bind (prelude_validateInputs.imp (fun _ begun => begun)
    (fun _ active => less _ active) fun _ active after => after) fun _ => ?_
  exact prelude_validateOutputs.imp (fun _ begun => begun) (fun _ active => less _ active)
    fun _ active after => after

end Onda.Runtime
