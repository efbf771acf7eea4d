import Onda.Runtime.Session

/-!
# What the flags of an instance stand for

An instance does not keep its history: it keeps four flags.  `Instance.Tracked` says that a flag
that is set is true of the history, and `Holding` is what a call may rely on: the flags are
tracked, every unchecked entry so far was valid, and the named flags are set.

Every operation of an instance has one rule here, over `Holding`.
-/

namespace Onda.Runtime

open Effects
open Onda.Project (Platform)

variable {W S V X : Type}

/-- The flag of a surface. -/
def Surface.flag : Surface → Instance → Bool
  | .inputs, inst => inst.inputsValidated
  | .outputs, inst => inst.outputsValidated
  | .buffers, inst => inst.buffersValidated

/-- The flags that are set are true of the history. -/
structure Instance.Tracked (inst : Instance) : Prop where
  live : inst.isInitialized = true → live inst.history = true
  validated : ∀ surface, surface.flag inst = true → validated surface inst.history = true

/-- The unchecked entries so far were valid. -/
def Env.Sound (env : Env W) : Prop := ∀ entry ∈ env.entries, entry.Valid

/-- The flags are tracked, the entries were valid, and at least the named flags are set. -/
structure Holding (ready : Bool) (done : List Surface) (active : Active W) : Prop where
  tracked : active.inst.Tracked
  sound : active.env.Sound
  ready : ready = true → active.inst.isInitialized = true
  done : ∀ surface ∈ done, surface.flag active.inst = true

/-- All that a call does is keep what holds. -/
def Keeps {α : Type} (ready : Bool) (done : List Surface) (call : InstanceCall W α) : Prop :=
  Holds (Holding ready done) call (fun _ => Holding ready done) (fun _ => Holding ready done)

namespace Holding

variable {ready : Bool} {done : List Surface} {active : Active W}

theorem weaken {ready' : Bool} {done' : List Surface} (holding : Holding ready done active)
    (less : ready' = true → ready = true) (fewer : ∀ surface ∈ done', surface ∈ done) :
    Holding ready' done' active where
  tracked := holding.tracked
  sound := holding.sound
  ready := fun wanted => holding.ready (less wanted)
  done := fun surface mem => holding.done surface (fewer surface mem)

theorem unready (holding : Holding ready done active) : Holding false done active :=
  holding.weaken (by simp) fun _ mem => mem

end Holding

/-! ### Changes that no flag sees -/

/-- What the flags and the history say of an instance. -/
def Instance.standing (inst : Instance) : InstanceState × (Bool × Bool × Bool) × List Event :=
  (inst.state, (inst.inputsValidated, inst.outputsValidated, inst.buffersValidated), inst.history)

variable {inst : Instance}

theorem Instance.flag_of_standing {inst' : Instance} (same : inst'.standing = inst.standing)
    (surface : Surface) : surface.flag inst' = surface.flag inst := by
  simp only [standing, Prod.mk.injEq] at same
  cases surface <;> simp only [Surface.flag, same]

theorem Instance.isInitialized_of_standing {inst' : Instance}
    (same : inst'.standing = inst.standing) : inst'.isInitialized = inst.isInitialized := by
  simp only [standing, Prod.mk.injEq] at same
  simp only [isInitialized, same]

theorem Holding.of_standing {ready : Bool} {done : List Surface} {active : Active W}
    (holding : Holding ready done active) (same : inst.standing = active.inst.standing)
    : Holding ready done { active with inst } := by
  have history : inst.history = active.inst.history := congrArg (·.2.2) same
  refine ⟨⟨?_, ?_⟩, holding.sound, ?_, ?_⟩
  · intro ready
    show live inst.history = true
    rw [history]
    exact holding.tracked.live (Instance.isInitialized_of_standing same ▸ ready)
  · intro surface flag
    show validated surface inst.history = true
    rw [history]
    exact holding.tracked.validated surface (Instance.flag_of_standing same surface ▸ flag)
  · intro wanted
    exact (Instance.isInitialized_of_standing same).trans (holding.ready wanted)
  · intro surface mem
    exact (Instance.flag_of_standing same surface).trans (holding.done surface mem)

section Keeping

variable {α β : Type} {ready : Bool} {done : List Surface}

theorem Keeps.modify {change : Instance → Instance}
    (same : ∀ inst, (change inst).standing = inst.standing) :
    Keeps ready done (modify change : InstanceCall W Unit) :=
  Holds.update fun active holding => holding.of_standing (same active.inst)

theorem Keeps.pure (value : α) : Keeps ready done (pure value : InstanceCall W α) :=
  Holds.pure fun _ holding => holding

theorem Keeps.fail (stop : Stop) : Keeps ready done (Call.fail stop : InstanceCall W α) :=
  Holds.fail fun _ holding => holding

theorem Keeps.refuse (message : String) : Keeps ready done (refuse message : InstanceCall W α) :=
  Keeps.fail _

theorem Keeps.refuseIf (refused : Prop) [Decidable refused] (stop : Stop) :
    Keeps ready done (Call.refuseIf refused stop : InstanceCall W Unit) :=
  Holds.refuseIf (fun _ _ holding => holding) (fun _ _ holding => holding)

theorem Keeps.read (view : Active W → α) : Keeps ready done (Call.read view : InstanceCall W α) :=
  Holds.read fun _ holding => holding

theorem Keeps.checked (result : Except String α) :
    Keeps ready done (checked result : InstanceCall W α) :=
  Holds.lift (fun _ _ _ holding => holding) (fun _ _ _ holding => holding)

theorem Keeps.bind {first : InstanceCall W α} {next : α → InstanceCall W β}
    (begins : Keeps ready done first) (continues : ∀ value, Keeps ready done (next value)) :
    Keeps ready done (first >>= next) :=
  Holds.bind begins continues

theorem Keeps.each {call : α → InstanceCall W Unit} {items : List α}
    (keeps : ∀ item, Keeps ready done (call item)) : Keeps ready done (Call.each call items) :=
  Holds.each fun item _ => keeps item

end Keeping

/-! ### Bindings -/

section Bindings

variable (platform : Platform) (program : JitProgram) {ready : Bool} {done : List Surface}

theorem Surface.history_invalidate (surface : Surface) (inst : Instance) :
    (surface.invalidate inst).history = .bound surface :: inst.history := by
  cases surface <;> rfl

theorem Surface.history_markValidated (surface : Surface) (inst : Instance) :
    (surface.markValidated inst).history = .prepared surface :: inst.history := by
  cases surface <;> rfl

theorem Surface.isInitialized_invalidate (surface : Surface) (inst : Instance) :
    (surface.invalidate inst).isInitialized = inst.isInitialized := by
  cases surface <;> rfl

theorem Surface.isInitialized_markValidated (surface : Surface) (inst : Instance) :
    (surface.markValidated inst).isInitialized = inst.isInitialized := by
  cases surface <;> rfl

theorem Surface.flag_invalidate (surface other : Surface) (inst : Instance) :
    other.flag (surface.invalidate inst) = (decide (surface ≠ other) && other.flag inst) := by
  cases surface <;> cases other <;> rfl

theorem Surface.flag_markValidated (surface other : Surface) (inst : Instance) :
    other.flag (surface.markValidated inst) = (decide (surface = other) || other.flag inst) := by
  cases surface <;> cases other <;> rfl

variable {active : Active W} {surface : Surface}

/-- A changed binding takes the flag of its surface away, and no other. -/
theorem Holding.invalidate {inst : Instance} (holding : Holding ready [] active)
    (same : inst.standing = active.inst.standing) :
    Holding ready [] { active with inst := surface.invalidate inst } := by
  have kept := holding.of_standing same
  refine ⟨⟨?_, ?_⟩, holding.sound, ?_, by simp⟩
  · intro initialized
    show live (surface.invalidate inst).history = true
    rw [surface.history_invalidate]
    exact kept.tracked.live (surface.isInitialized_invalidate inst ▸ initialized)
  · intro other flag
    show validated other (surface.invalidate inst).history = true
    rw [surface.history_invalidate]
    have flags : (decide (surface ≠ other) && other.flag inst) = true :=
      surface.flag_invalidate other inst ▸ flag
    rw [Bool.and_eq_true] at flags
    rw [validated, flags.1, kept.tracked.validated other flags.2, Bool.and_true]
  · intro wanted
    exact (surface.isInitialized_invalidate inst).trans (kept.ready wanted)

/-- Prepared tables give a surface its flag. -/
theorem Holding.markValidated (surface : Surface) (holding : Holding ready done active) :
    Holding ready (surface :: done) { active with inst := surface.markValidated active.inst } := by
  refine ⟨⟨?_, ?_⟩, holding.sound, ?_, ?_⟩
  · intro initialized
    show live (surface.markValidated active.inst).history = true
    rw [surface.history_markValidated]
    exact holding.tracked.live (surface.isInitialized_markValidated active.inst ▸ initialized)
  · intro other flag
    show validated other (surface.markValidated active.inst).history = true
    rw [surface.history_markValidated, validated, Bool.or_eq_true]
    have flags : (decide (surface = other) || other.flag active.inst) = true :=
      surface.flag_markValidated other active.inst ▸ flag
    rw [Bool.or_eq_true] at flags
    exact flags.imp_right (holding.tracked.validated other)
  · intro wanted
    exact (surface.isInitialized_markValidated active.inst).trans (holding.ready wanted)
  · intro other mem
    show other.flag (surface.markValidated active.inst) = true
    rw [surface.flag_markValidated, Bool.or_eq_true]
    rcases List.mem_cons.mp mem with rfl | mem
    · exact .inl (decide_eq_true rfl)
    · exact .inr (holding.done other mem)

theorem Keeps.invalidate (surface : Surface) (change : Instance → Instance)
    (same : ∀ inst, (change inst).standing = inst.standing) :
    Keeps ready []
      (Runtime.modify fun inst => surface.invalidate (change inst) : InstanceCall W Unit) :=
  Holds.update fun active holding => holding.invalidate (same active.inst)

theorem Keeps.bindEndpoint {endpoints : List DeclaredIo}
    {assign : Option BoundRegion → Instance → Instance} {index ptr bytes : Nat}
    (same : ∀ region inst, (assign region inst).standing = inst.standing) :
    Keeps ready []
      (bindEndpoint platform surface endpoints assign index ptr bytes : InstanceCall W Unit) := by
  unfold Runtime.bindEndpoint
  cases endpoints[index]? with
  | none => exact Keeps.refuse _
  | some desc =>
    refine Holds.ite (fun _ => Holds.ite (fun _ => ?_) fun _ => Keeps.refuse _) fun _ => ?_
    · exact Keeps.invalidate surface _ (same none)
    · refine Keeps.bind (Keeps.refuseIf _ _) fun _ => ?_
      refine Keeps.bind (Keeps.read _) fun expected => ?_
      refine Keeps.bind (Keeps.refuseIf _ _) fun _ => ?_
      exact Keeps.invalidate surface _ (same (some ⟨ptr, bytes⟩))

theorem Keeps.bindInput (index ptr bytes : Nat) :
    Keeps ready [] (bindInput platform program index ptr bytes : InstanceCall W Unit) :=
  Keeps.bindEndpoint platform fun _ _ => rfl

theorem Keeps.bindOutput (index ptr bytes : Nat) :
    Keeps ready [] (bindOutput platform program index ptr bytes : InstanceCall W Unit) :=
  Keeps.bindEndpoint platform fun _ _ => rfl

theorem Keeps.checkBufferChannels (desc : DeclaredBuffer) (channels : Nat) :
    Keeps ready done (checkBufferChannels desc channels : InstanceCall W Unit) := by
  unfold Runtime.checkBufferChannels
  cases desc.channels with
  | mono => exact Keeps.refuseIf _ _
  | static expected => exact Keeps.refuseIf _ _
  | dynamic => exact Keeps.pure _

theorem Keeps.bindBuffer (index ptr frames channels : Nat) (sampleRateHz : UInt32)
    (elemTy : PrimitiveType) :
    Keeps ready []
      (bindBuffer program index ptr frames channels sampleRateHz elemTy :
        InstanceCall W Unit) := by
  unfold Runtime.bindBuffer
  cases program.buffers[index]? with
  | none => exact Keeps.refuse _
  | some desc =>
    refine Holds.ite (fun _ => ?_) fun _ => ?_
    · exact Keeps.invalidate .buffers
        (fun inst => { inst with bufferBindings := inst.bufferBindings.set index none })
        fun _ => rfl
    · refine Keeps.bind (Keeps.refuseIf _ _) fun _ => ?_
      refine Keeps.bind (Keeps.refuseIf _ _) fun _ => ?_
      refine Keeps.bind (Keeps.refuseIf _ _) fun _ => ?_
      refine Keeps.bind (Keeps.refuseIf _ _) fun _ => ?_
      refine Keeps.bind (Keeps.checkBufferChannels _ _) fun _ => ?_
      refine Keeps.bind (Keeps.refuseIf _ _) fun _ => ?_
      refine Keeps.bind (Keeps.refuseIf _ _) fun _ => ?_
      refine Keeps.bind (Keeps.refuseIf _ _) fun _ => ?_
      exact Keeps.invalidate .buffers
        (fun inst =>
          { inst with
            bufferBindings :=
              inst.bufferBindings.set index (some ⟨ptr, frames, channels, sampleRateHz⟩) })
        fun _ => rfl

end Bindings

/-! ### Checking the bindings -/

section Checking

variable (platform : Platform) (program : JitProgram) {ready : Bool} {done : List Surface}

theorem Keeps.prepareBufferPtrsFromBindings :
    Keeps ready done (Runtime.prepareBufferPtrsFromBindings program : InstanceCall W Unit) := by
  refine Keeps.each fun (desc, idx) => Keeps.bind (Keeps.read _) fun bound => ?_
  cases bound with
  | some bound => exact Keeps.modify fun _ => rfl
  | none => exact Keeps.bind (Keeps.checked _) fun channels => Keeps.modify fun _ => rfl

theorem Keeps.boundRegion (surface : Surface) (desc : DeclaredIo)
    (bindings : Instance → List (Option BoundRegion)) (idx frames : Nat) :
    Keeps ready done
      (boundRegion platform surface desc bindings idx frames : InstanceCall W BoundRegion) := by
  refine Keeps.bind (Keeps.read _) fun bound => ?_
  cases bound with
  | none => exact Keeps.refuse _
  | some region => exact Keeps.bind (Keeps.refuseIf _ _) fun _ => Keeps.pure _

theorem Keeps.prepareInputPtrsFromBindings (frames : Nat) :
    Keeps ready done
      (prepareInputPtrsFromBindings platform program frames : InstanceCall W Unit) := by
  refine Keeps.bind (Keeps.read _) fun slots => Keeps.bind (Keeps.refuseIf _ _) fun _ => ?_
  refine Keeps.each fun (desc, idx) => ?_
  exact Keeps.bind (Keeps.boundRegion platform _ _ _ _ _) fun region => Keeps.modify fun _ => rfl

theorem Keeps.prepareOutputPtrsForProcess (frames : Nat) :
    Keeps ready done
      (prepareOutputPtrsForProcess platform program frames : InstanceCall W Unit) := by
  refine Keeps.bind (Keeps.read _) fun slots => Keeps.bind (Keeps.refuseIf _ _) fun _ => ?_
  refine Keeps.bind (Keeps.modify fun _ => rfl) fun _ => Keeps.bind ?_ fun _ => ?_
  · refine Keeps.each fun (desc, idx) => ?_
    exact Keeps.bind (Keeps.boundRegion platform _ _ _ _ _) fun region =>
      Keeps.modify fun _ => rfl
  · refine Keeps.each fun desc => Keeps.each fun ch => ?_
    exact Keeps.bind (Keeps.read _) fun ptr => Keeps.refuseIf _ _

/-- The last step of a validation. -/
theorem Holds.markValidated (surface : Surface) :
    Holds (Holding ready done) (modify surface.markValidated : InstanceCall W Unit)
      (fun _ => Holding ready (surface :: done)) (fun _ => Holding ready done) :=
  Holds.update fun _ holding => holding.markValidated surface

theorem holds_validateInputs :
    Holds (Holding ready done) (validateInputs platform program : InstanceCall W Unit)
      (fun _ => Holding ready (.inputs :: done)) (fun _ => Holding ready done) := by
  refine Holds.bind (Keeps.read _) fun frames => ?_
  refine Holds.bind (Keeps.prepareInputPtrsFromBindings platform program frames) fun _ => ?_
  exact Holds.markValidated .inputs

theorem holds_validateOutputs :
    Holds (Holding ready done) (validateOutputs platform program : InstanceCall W Unit)
      (fun _ => Holding ready (.outputs :: done)) (fun _ => Holding ready done) := by
  refine Holds.bind (Keeps.read _) fun frames => Holds.bind (Q := fun _ => Holding ready done) ?_
    fun _ => ?_
  · refine Keeps.each fun (desc, idx) => ?_
    exact Keeps.bind (Keeps.boundRegion platform _ _ _ _ _) fun region => Keeps.pure _
  · refine Holds.bind (Keeps.prepareOutputPtrsForProcess platform program frames) fun _ => ?_
    exact Holds.markValidated .outputs

theorem holds_validateBuffers :
    Holds (Holding ready done) (validateBuffers program : InstanceCall W Unit)
      (fun _ => Holding ready (.buffers :: done)) (fun _ => Holding ready done) :=
  Holds.bind (Keeps.prepareBufferPtrsFromBindings program) fun _ => Holds.markValidated .buffers

variable {flag : Instance → Bool} {validate : InstanceCall W Unit}

/-- A flag that is set is as good as a check that passes. -/
theorem holds_unless {P Q : Active W → Prop}
    (flagged : ∀ active, P active → flag active.inst = true →
      Q active) (holds : Holds P validate (fun _ => Q) (fun _ => P)) :
    Holds P (unlessValidated flag validate) (fun _ => Q) (fun _ => P) := by
  refine Holds.bind (Q := fun set active => P active ∧ flag active.inst = set)
    (Holds.read fun active before => ⟨before, rfl⟩) fun set => ?_
  refine Holds.ite (fun yes => ?_) fun no => ?_
  · exact Holds.pure fun active before => flagged active before.1 (before.2.trans yes)
  · exact holds.imp (fun _ before => before.1) (fun _ _ after => after) fun _ _ after => after

/-- A flag that is already set is as good as a validation. -/
theorem holds_unlessValidated (surface : Surface) (same : ∀ inst, flag inst = surface.flag inst)
    (holds : Holds (Holding ready done) validate (fun _ => Holding ready (surface :: done))
      (fun _ => Holding ready done)) :
    Holds (Holding ready done) (unlessValidated flag validate)
      (fun _ => Holding ready (surface :: done)) (fun _ => Holding ready done) := by
  refine holds_unless (fun active holding flagged => ?_) holds
  refine ⟨holding.tracked, holding.sound, holding.ready, fun other mem => ?_⟩
  rcases List.mem_cons.mp mem with rfl | mem
  · rw [← same, flagged]
  · exact holding.done other mem

/-- Every surface, in the order the session prepares them. -/
def allSurfaces : List Surface := [.outputs, .inputs, .buffers]

theorem mem_allSurfaces (surface : Surface) : surface ∈ allSurfaces := by
  cases surface <;> simp [allSurfaces]

theorem holds_validateBindingsForProcess :
    Holds (Holding ready done)
      (validateBindingsForProcess platform program : InstanceCall W Unit)
      (fun _ => Holding ready allSurfaces) (fun _ => Holding ready done) := by
  have begins := holds_unlessValidated .buffers (fun _ => rfl)
    (@holds_validateBuffers W program ready done)
  refine Holds.bind begins fun _ => ?_
  have continues := holds_unlessValidated .inputs (fun _ => rfl)
    (@holds_validateInputs W platform program ready (.buffers :: done))
  refine Holds.bind (Q := fun _ => Holding ready (.inputs :: .buffers :: done)) ?_ fun _ => ?_
  · exact continues.imp (fun _ before => before) (fun _ _ after => after) fun _ _ after =>
      after.weaken id fun _ mem => by simp [mem]
  · have ends := holds_unlessValidated .outputs (fun _ => rfl)
      (@holds_validateOutputs W platform program ready (.inputs :: .buffers :: done))
    refine ends.imp (fun _ before => before) (fun _ _ after => ?_) fun _ _ after => ?_
    · exact after.weaken id fun surface _ => by cases surface <;> simp
    · exact after.weaken id fun _ mem => by simp [mem]

end Checking

end Onda.Runtime
