import Onda.Runtime.Calls

/-!
# Bindings, parameters and reads of an instance

A call of the host that succeeds enters nothing and keeps the image; one that is refused leaves the
instance untouched.  A read that succeeds has found an initialized image.
-/

namespace Onda.Runtime

open Effects
open Onda.Project (Platform f32IsFinite f32LeZero)

variable {W V : Type} {platform : Platform} {native : NativeCode W V} {program : JitProgram}

/-! ### Calls of the host -/

/-- What a binding, a check or a parameter write does: it enters nothing and leaves the image. -/
structure HostOutcome (platform : Platform) (native : NativeCode W V) (program : JitProgram)
    (start active : Active (Host W)) : Prop where
  upkeep : Upkeep platform native program active.inst
  env : active.env = start.env
  state : active.inst.state = start.inst.state

variable {start : Active (Host W)}

theorem Prelude.hostOutcome {active : Active (Host W)} {done : List Surface}
    (begun : Prelude platform native program start done active) :
    HostOutcome platform native program start active :=
  ⟨begun.upkeep, begun.env, begun.untouched.state⟩

/-- A check before the rest of a call. -/
theorem Holds.guard {σ ε β : Type} {P : σ → Prop} {refused : Prop} [Decidable refused] {error : ε}
    {rest : Call σ ε β} {Q : β → σ → Prop} {F : ε → σ → Prop}
    (fails : refused → ∀ state, P state → F error state) (continues : ¬refused → Holds P rest Q F) :
    Holds P (Call.refuseIf refused error >>= fun _ => rest) Q F := by
  by_cases test : refused
  · refine Holds.bind (Q := fun _ _ => False)
      (Holds.refuseIf (fun passes => absurd test passes) fails) fun _ state impossible =>
        impossible.elim
  · exact Holds.bind (Holds.refuseIf (fun _ _ before => before) fun refused => absurd refused test)
      fun _ => continues test

namespace Upkeep

variable {inst : Instance} (upkeep : Upkeep platform native program inst)
include upkeep

theorem bindInput (rows : List (Option BoundRegion)) :
    Upkeep platform native program
      (Surface.inputs.invalidate { inst with inputBindings := rows }) :=
  { upkeep with
    exact := by
      intro surface flag
      cases surface with
      | inputs => cases flag
      | outputs => exact upkeep.exact .outputs flag
      | buffers => exact upkeep.exact .buffers flag }

theorem bindOutput (rows : List (Option BoundRegion)) :
    Upkeep platform native program
      (Surface.outputs.invalidate { inst with outputBindings := rows }) :=
  { upkeep with
    exact := by
      intro surface flag
      cases surface with
      | inputs => exact upkeep.exact .inputs flag
      | outputs => cases flag
      | buffers => exact upkeep.exact .buffers flag }

/-- A buffer is unbound, or bound to a row that fits it. -/
theorem bindBuffer {index : Nat} {bound : Option BoundBuffer}
    (fits : ∀ desc row, program.buffers[index]? = some desc → bound = some row →
      RowFits desc row) :
    Upkeep platform native program (Surface.buffers.invalidate
      { inst with bufferBindings := inst.bufferBindings.set index bound }) :=
  { upkeep with
    bound := by
      intro desc idx declared row here
      by_cases same : index = idx
      · subst same
        refine fits desc row declared ?_
        dsimp only [Surface.invalidate, Instance.record] at here
        rw [List.getElem?_set, if_pos rfl] at here
        split at here
        · exact here
        · cases here
      · dsimp only [Surface.invalidate, Instance.record] at here
        rw [List.getElem?_set_ne same] at here
        exact upkeep.bound desc idx declared row here
    exact := by
      intro surface flag
      cases surface with
      | inputs => exact upkeep.exact .inputs flag
      | outputs => exact upkeep.exact .outputs flag
      | buffers => cases flag }

theorem withParams {params : Bytes} (length : params.length = inst.params.length) :
    Upkeep platform native program { inst with params } :=
  { upkeep with
    short := by
      rw [length]
      exact upkeep.short
    exact := by
      intro surface flag
      cases surface with
      | inputs => exact upkeep.exact .inputs flag
      | outputs => exact upkeep.exact .outputs flag
      | buffers => exact upkeep.exact .buffers flag
    accepts := by
      intro storage initialized state
      obtain ⟨size, sized, aligned, fallback⟩ := upkeep.accepts storage initialized state
      exact ⟨length.trans size, sized, aligned, fallback⟩ }

end Upkeep

/-- The write of a range inside the parameters. -/
theorem length_written {params value : Bytes} {first : Nat}
    (inside : first + value.length ≤ params.length) :
    (params.take first ++ value ++ params.drop (first + value.length)).length = params.length := by
  rw [List.length_append, List.length_append, List.length_take, List.length_drop]
  omega

section Host

variable (upkeep : Upkeep platform native program start.inst)
include upkeep

theorem prelude_start : Prelude platform native program start [] start :=
  ⟨⟨rfl, rfl, rfl, rfl, rfl, rfl⟩, rfl, upkeep, fun surface mem => by cases mem⟩

theorem host_bindEndpoint {surface : Surface} {endpoints : List DeclaredIo}
    {assign : Option BoundRegion → Instance → Instance} {index ptr bytes : Nat}
    (keeps : ∀ region, Upkeep platform native program
      (surface.invalidate (assign region start.inst)))
    (state : ∀ region, (surface.invalidate (assign region start.inst)).state = start.inst.state) :
    Holds (fun active => active = start)
      (bindEndpoint platform surface endpoints assign index ptr bytes :
        InstanceCall (Host W) Unit)
      (fun _ => HostOutcome platform native program start)
      (fun _ => Prelude platform native program start []) := by
  have refused : ∀ active, active = start → Prelude platform native program start [] active := by
    rintro _ rfl
    exact prelude_start upkeep
  have bound : ∀ region, Holds (fun active => active = start)
      (modify fun inst => surface.invalidate (assign region inst) : InstanceCall (Host W) Unit)
      (fun _ => HostOutcome platform native program start)
      (fun _ => Prelude platform native program start []) := by
    refine fun region => Holds.update ?_
    rintro _ rfl
    exact ⟨keeps region, rfl, state region⟩
  unfold Runtime.bindEndpoint
  cases endpoints[index]? with
  | none => exact Holds.fail refused
  | some desc =>
    refine Holds.ite (fun _ => Holds.ite (fun _ => bound none) fun _ => Holds.fail refused)
      fun _ => ?_
    refine Holds.guard (fun _ => refused) fun _ => ?_
    refine Holds.bind (Q := fun _ active => active = start) (Holds.read fun _ same => same)
      fun expected => ?_
    exact Holds.guard (fun _ => refused) fun _ => bound (some ⟨ptr, bytes⟩)

theorem host_bindBuffer (index ptr frames channels : Nat) (sampleRateHz : UInt32)
    (elemTy : PrimitiveType) :
    Holds (fun active => active = start)
      (bindBuffer program index ptr frames channels sampleRateHz elemTy :
        InstanceCall (Host W) Unit)
      (fun _ => HostOutcome platform native program start)
      (fun _ => Prelude platform native program start []) := by
  have refused : ∀ active, active = start → Prelude platform native program start [] active := by
    rintro _ rfl
    exact prelude_start upkeep
  unfold Runtime.bindBuffer
  cases declared : program.buffers[index]? with
  | none => exact Holds.fail refused
  | some desc =>
    refine Holds.ite (fun _ => ?_) fun _ => ?_
    · refine Holds.update ?_
      rintro _ rfl
      exact ⟨upkeep.bindBuffer (fun _ _ _ same => (by cases same)), rfl, rfl⟩
    refine Holds.guard (fun _ => refused) fun rate => ?_
    refine Holds.guard (fun _ => refused) fun element => ?_
    rw [not_not] at element
    subst element
    refine Holds.guard (fun _ => refused) fun positive => ?_
    refine Holds.guard (fun _ => refused) fun aligned => ?_
    refine Holds.bind (Q := fun _ active => active = start ∧
      ∀ expected, expectedChannels desc = some expected → channels = expected) ?_ fun _ => ?_
    · unfold checkBufferChannels expectedChannels
      cases desc.channels with
      | mono =>
        refine Holds.refuseIf (fun same active before => ⟨before, ?_⟩) fun _ => refused
        rintro expected here
        rw [← Option.some.inj here]
        exact not_not.mp same
      | static number =>
        refine Holds.refuseIf (fun same active before => ⟨before, ?_⟩) fun _ => refused
        rintro expected here
        rw [← Option.some.inj here]
        exact not_not.mp same
      | dynamic => exact Holds.pure fun active before => ⟨before, fun _ here => by cases here⟩
    refine Holds.guard (fun _ active before => refused active before.1) fun _ => ?_
    refine Holds.guard (fun _ active before => refused active before.1) fun _ => ?_
    refine Holds.guard (fun _ active before => refused active before.1) fun extent => ?_
    refine Holds.update ?_
    rintro _ ⟨rfl, counted⟩
    refine ⟨upkeep.bindBuffer fun desc' row declared' same => ?_, rfl, rfl⟩
    obtain rfl := Option.some.inj (declared.symm.trans declared')
    obtain rfl := Option.some.inj same
    rw [not_or] at extent
    exact ⟨rate, fun none => positive (by tauto), fun both => both.2 (not_not.mp aligned), counted,
      extent.1, extent.2⟩

theorem host_writeParams {value : Bytes} {first : Nat}
    (inside : first + value.length ≤ start.inst.params.length) :
    Holds (fun active => active = start)
      (writeParamBytes first value : InstanceCall (Host W) Unit)
      (fun _ => HostOutcome platform native program start)
      (fun _ => Prelude platform native program start []) := by
  refine Holds.update ?_
  rintro _ rfl
  exact ⟨upkeep.withParams (length_written inside), rfl, rfl⟩

theorem host_setParam (index : Nat) (value : Bytes) :
    Holds (fun active => active = start)
      (setParamByIndex platform program index value : InstanceCall (Host W) Unit)
      (fun _ => HostOutcome platform native program start)
      (fun _ => Prelude platform native program start []) := by
  have refused : ∀ active, active = start → Prelude platform native program start [] active := by
    rintro _ rfl
    exact prelude_start upkeep
  unfold setParamByIndex
  cases program.params[index]? with
  | none => exact Holds.fail refused
  | some desc =>
    refine Holds.guard (fun _ => refused) fun sized => ?_
    rw [not_not] at sized
    refine Holds.bind (Q := fun size active => active = start ∧ size = start.inst.params.length)
      (Holds.read ?_) fun size => ?_
    · rintro _ rfl
      exact ⟨rfl, rfl⟩
    refine Holds.guard (fun _ active before => refused active before.1) fun inside => ?_
    rintro active ⟨rfl, rfl⟩
    refine host_writeParams upkeep ?_ _ rfl
    -- the end of the range does not saturate: the storage is shorter than the address space
    have short := upkeep.short
    unfold saturatingAdd at inside
    rw [sized]
    omega

theorem host_setParamElement (index element : Nat) (value : Bytes) :
    Holds (fun active => active = start)
      (setParamElementByIndex platform program index element value : InstanceCall (Host W) Unit)
      (fun _ => HostOutcome platform native program start)
      (fun _ => Prelude platform native program start []) := by
  have refused : ∀ active, active = start → Prelude platform native program start [] active := by
    rintro _ rfl
    exact prelude_start upkeep
  unfold setParamElementByIndex
  cases program.params[index]? with
  | none => exact Holds.fail refused
  | some desc =>
    refine Holds.guard (fun _ => refused) fun sized => ?_
    rw [not_or, not_not] at sized
    refine Holds.bind (Q := fun size active => active = start ∧ size = start.inst.params.length)
      (Holds.read ?_) fun size => ?_
    · rintro _ rfl
      exact ⟨rfl, rfl⟩
    refine Holds.guard (fun _ active before => refused active before.1) fun inside => ?_
    rintro active ⟨rfl, rfl⟩
    refine host_writeParams upkeep ?_ _ rfl
    rw [sized.2]
    exact Nat.le_of_not_lt inside

/-- Every call of the host. -/
theorem host_perform (call : HostCall) :
    Holds (fun active => active = start) (call.perform platform program)
      (fun _ => HostOutcome platform native program start)
      (fun _ => Prelude platform native program start []) := by
  have begins : ∀ active, active = start → Prelude platform native program start [] active := by
    rintro _ rfl
    exact prelude_start upkeep
  cases call with
  | bindInput index ptr bytes =>
    exact host_bindEndpoint upkeep (fun region => upkeep.bindInput _) fun _ => rfl
  | bindOutput index ptr bytes =>
    exact host_bindEndpoint upkeep (fun region => upkeep.bindOutput _) fun _ => rfl
  | bindBuffer index ptr frames channels sampleRateHz elemTy =>
    exact host_bindBuffer upkeep index ptr frames channels sampleRateHz elemTy
  | validateInputs =>
    exact prelude_validateInputs.imp begins (fun _ _ after => after.hostOutcome)
      fun _ _ after => after
  | validateOutputs =>
    exact prelude_validateOutputs.imp begins (fun _ _ after => after.hostOutcome)
      fun _ _ after => after
  | validateBuffers =>
    exact prelude_validateBuffers.imp begins (fun _ _ after => after.hostOutcome)
      fun _ _ after => after
  | validateBindings =>
    exact prelude_validateBindings.imp begins (fun _ _ after => after.hostOutcome)
      fun _ _ after => after
  | prepareUncheckedProcess =>
    refine Holds.bind (prelude_initializedState.imp begins (fun _ _ after => after)
      fun _ _ after => after) fun _ => ?_
    exact prelude_validateBindingsForProcess.imp (fun _ before => before.1)
      (fun _ _ after => after.hostOutcome) fun _ _ after => after
  | setParam index value => exact host_setParam upkeep index value
  | setParamElement index element value => exact host_setParamElement upkeep index element value

/-! ### Reads -/

/-- A read that succeeds has found an initialized image. -/
theorem read_perform (call : ReadCall) :
    Holds (fun active => active = start) (call.perform platform native program)
      (fun _ active => Prelude platform native program start [] active ∧
        active.inst.isInitialized = true)
      (fun _ => Prelude platform native program start []) := by
  have begins : ∀ active, active = start → Prelude platform native program start [] active := by
    rintro _ rfl
    exact prelude_start upkeep
  have ready : ∀ (storage : Bytes) (active : Active (Host W)),
      active.inst.state = .allocated storage true → active.inst.isInitialized = true := by
    intro storage active state
    unfold Instance.isInitialized
    rw [state]
  have state : Holds (fun active => active = start)
      (initializedState : InstanceCall (Host W) Bytes)
      (fun _ active => Prelude platform native program start [] active ∧
        active.inst.isInitialized = true)
      (fun _ => Prelude platform native program start []) :=
    prelude_initializedState.imp begins (fun storage active after =>
      ⟨after.1, ready storage active after.2⟩) fun _ _ after => after
  cases call with
  | snapshot size =>
    refine Holds.bind state fun storage => ?_
    refine Holds.guard (fun _ _ before => before.1) fun _ => ?_
    exact Holds.lift (fun _ _ _ before => before) fun _ _ _ before => before.1
  | controlOutput index size =>
    show Holds _ (readControlOutputBytes platform native index size) _ _
    unfold readControlOutputBytes
    cases native.controlOutputs[index]? with
    | none => exact Holds.fail begins
    | some desc =>
      refine Holds.guard (fun _ => begins) fun _ => ?_
      cases native.controlOutputStorageByteOffset index with
      | none => exact Holds.fail begins
      | some first =>
        refine Holds.bind state fun storage => ?_
        exact Holds.guard (fun _ _ before => before.1) fun _ =>
          Holds.pure fun _ before => before

end Host

end Onda.Runtime
