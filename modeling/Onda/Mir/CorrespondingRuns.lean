import Onda.Mir.CorrespondingCalls

/-!
# Corresponding runs

The states of two runs are related if their memories correspond and an observer
has seen the same.  Rewritten operations keep states related; so do calls, if the
callees do.

A run may also be `excused` by a state it stops in: nothing is then asked of the
other program.
-/

namespace Onda.Mir

open Structured Structured.Eval Simulation

/-- A store to storage that outlives the run is seen. -/
def Write.visible (store : Write) : Option Visible :=
  if store.object.activation?.isSome then none
  else some (.store store.object store.cells.observed)

/-- What an observer sees of an event of a run. -/
def TraceEvent.visible : TraceEvent → Option Visible
  | .observe observation => observation.visible
  | .write _ store => store.visible
  | .step .. | .again .. => none

/-- What an observer has seen, newest first. -/
def State.visible (state : State) : List Visible := state.trace.filterMap TraceEvent.visible

theorem State.visible_run {α : Type} (state : State) (action : Run α) :
    (state.run action).1.visible
      = ((action state.memory).1.filterMap Observation.visible).reverse ++ state.visible := by
  unfold State.visible State.run
  rw [List.filterMap_append, List.filterMap_reverse, List.filterMap_map]
  rfl

namespace World

/-- The states of two runs. -/
structure Related (world : World) (state state' : State) : Prop where
  memories : world.Memories state.memory state'.memory
  next : state.next = world.next
  next' : state'.next = world.next
  visible : state'.visible = state.visible

/-- A store of the source alone. -/
structure Private (world : World) (store : Write) : Prop where
  objects : ∀ object, ¬world.Objects store.object object
  owner : ∀ activation, store.object.activation? = some activation → activation < world.next

variable {world : World} {state state' : State}

theorem Private.owned {store : Write} (hidden : world.Private store) :
    store.object.activation?.isSome := by
  by_contra shared
  exact hidden.objects _ (.shared (Option.not_isSome_iff_eq_none.mp shared))

theorem Memories.write_left {memory memory' : Memory} (memories : world.Memories memory memory')
    {store : Write} (hidden : world.Private store) :
    world.Memories (memory.write store) memory' where
  cells object object' path objects := by
    rw [Memory.write_object_ne path fun same => hidden.objects object' (same ▸ objects)]
    exact memories.cells object object' path objects
  fresh object activation owned later path := by
    have differs : object ≠ store.object := by
      rintro rfl
      exact absurd (hidden.owner activation owned) (Nat.not_lt.mpr later)
    rw [Memory.write_object_ne path differs]
    exact memories.fresh object activation owned later path

theorem Related.note (related : world.Related state state') {event event' : TraceEvent}
    (hidden : event.visible = none) (hidden' : event'.visible = none) :
    world.Related (state.note event) (state'.note event') where
  memories := related.memories
  next := related.next
  next' := related.next'
  visible := by
    unfold State.visible State.note
    rw [List.filterMap_cons_none hidden, List.filterMap_cons_none hidden']
    exact related.visible

theorem Related.reach (related : world.Related state state') (act act' : Activation)
    (step step' : Step) : world.Related (state.reach act step) (state'.reach act' step') :=
  related.note rfl rfl

/-- An event of the source alone that nobody sees. -/
theorem Related.note_left (related : world.Related state state') {event : TraceEvent}
    (hidden : event.visible = none) : world.Related (state.note event) state' where
  memories := related.memories
  next := related.next
  next' := related.next'
  visible := by
    unfold State.visible State.note
    rw [List.filterMap_cons_none hidden]
    exact related.visible

/-- Evaluations that an observer cannot tell apart. -/
theorem Related.run (related : world.Related state state') {α α' : Type} {action : Run α}
    {action' : Run α'} (same : observer.Same (action state.memory).1 (action' state'.memory).1) :
    world.Related (state.run action).1 (state'.run action').1 where
  memories := related.memories
  next := related.next
  next' := related.next'
  visible := by
    rw [State.visible_run, State.visible_run, related.visible]
    rw [show (action state.memory).1.filterMap Observation.visible
      = (action' state'.memory).1.filterMap Observation.visible from same]

/-- An evaluation of the source alone that nobody sees. -/
theorem Related.run_left (related : world.Related state state') {α : Type} {action : Run α}
    (hidden : ∀ event ∈ (action state.memory).1, observer.visible event = none) :
    world.Related (state.run action).1 state' where
  memories := related.memories
  next := related.next
  next' := related.next'
  visible := by
    have unseen : (action state.memory).1.filterMap Observation.visible = [] :=
      List.filterMap_eq_nil_iff.mpr hidden
    rw [State.visible_run, unseen]
    exact related.visible

theorem Related.store (related : world.Related state state') {store store' : Write}
    (writes : world.Writes store store') (activation activation' : Nat) :
    world.Related (state.store activation store) (state'.store activation' store') := by
  have effective : store'.effective = store.effective := by
    have cells : store'.cells.isEmpty = store.cells.isEmpty := by
      have cells := writes.cells
      generalize store.cells = data at cells
      generalize store'.cells = data' at cells
      cases cells <;> rfl
    unfold Write.effective
    rw [writes.neutral, cells]
  unfold State.store
  rw [effective]
  split
  · refine ⟨related.memories.write writes, related.next, related.next', ?_⟩
    -- Stores to shared storage go to the same object, and show the same content.
    have seen : store'.visible = store.visible := by
      unfold Write.visible
      rw [writes.owner.1]
      split
      · rfl
      case isFalse shared =>
        have same : store'.object = store.object := by
          rcases writes.objects with objects | ⟨unmatched, -⟩
          · exact objects.functional (.shared (by simpa using shared))
          · exact absurd (.shared (by simpa using shared)) (unmatched store.object)
        rw [same, writes.cells.observed]
    have before := related.visible
    unfold State.visible at before ⊢
    simp only [List.filterMap_cons, TraceEvent.visible, seen, before]
  · exact related

theorem Related.store_left (related : world.Related state state') {store : Write}
    (hidden : world.Private store) (activation : Nat) :
    world.Related (state.store activation store) state' := by
  unfold State.store
  split
  · refine ⟨related.memories.write_left hidden, related.next, related.next', ?_⟩
    have unseen : TraceEvent.visible (.write activation store) = none := if_pos hidden.owned
    unfold State.visible
    rw [List.filterMap_cons_none unseen]
    exact related.visible
  · exact related

theorem Related.commit (related : world.Related state state') {stores stores' : List Write}
    (writes : List.Forall₂ world.Writes stores stores') (activation activation' : Nat) :
    world.Related (state.commit activation stores) (state'.commit activation' stores') := by
  unfold State.commit
  induction writes generalizing state state' with
  | nil => exact related
  | cons head _ ih => exact ih (related.store head activation activation')

theorem Related.commit_left (related : world.Related state state') {stores : List Write}
    (hidden : ∀ store ∈ stores, world.Private store) (activation : Nat) :
    world.Related (state.commit activation stores) state' := by
  unfold State.commit
  induction stores generalizing state with
  | nil => exact related
  | cons head rest ih =>
    exact ih (related.store_left (hidden head (by simp)) activation)
      fun store mem => hidden store (by simp [mem])

end World

/-! ### Statements -/

/-- Two activations whose locals and parameters `embedding` maps. -/
structure World.Executing (world : World) (embedding : Embedding) (act act' : Activation) :
    Prop extends world.Activations act act' where
  mapped : world.embedding act.id = embedding

theorem World.Executing.mono {world later : World} {embedding : Embedding} {act act' : Activation}
    (acts : world.Executing embedding act act') (after : world ≤ later) :
    later.Executing embedding act act' where
  toActivations := acts.toActivations.mono after
  mapped := by rw [after.2 _ acts.started, acts.mapped]

theorem World.Executing.mapping {world : World} {embedding : Embedding} {act act' : Activation}
    (acts : world.Executing embedding act act') : world.mapping act = embedding.toMapping := by
  unfold World.mapping
  rw [acts.mapped]

/-- What relates the runs of two activations.  A source run that stops in an
`excused` state has no meaning. -/
def simulation (excused : State → Prop) (embedding : Embedding) (act act' : Activation) :
    Simulation World State State (List Data) (List Data) Stop where
  states world state state' := world.Related state state' ∧ world.Executing embedding act act'
  values world := List.Forall₂ world.Datas
  stopped state state' := ∃ world : World, world.Related state state'
  escapes state reason := reason.Escapes ∨ excused state

section Statements

variable {machine : Machine} {functions : List Function} {excused : State → Prop}
  {embedding : Embedding} {world : World} {state state' : State} {act act' : Activation}

theorem run_corresponds (related : world.Related state state')
    (acts : world.Executing embedding act act') {α α' : Type} {R : World → α → α' → Prop}
    {action : Run α} {action' : Run α'}
    (refines : Refines observer state.memory state'.memory (R world) action action') :
    (simulation excused embedding act act').EvalEnds world R (state.run action) (state'.run action') := by
  rcases ended : (action state.memory).2 with reason | value
  · have run : state.run action = ((state.run action).1, .error reason) := by
      rw [← ended]
      rfl
    rw [run]
    rcases refines.error reason ended with escapes | ⟨ended', same⟩
    · exact .escape (.inl escapes)
    · have run' : state'.run action' = ((state'.run action').1, .error reason) := by
        rw [← ended']
        rfl
      rw [run']
      exact .error ⟨world, related.run same⟩
  · obtain ⟨value', ended', values, same⟩ := refines.value value ended
    have run : state.run action = ((state.run action).1, .ok value) := by
      rw [← ended]
      rfl
    have run' : state'.run action' = ((state'.run action').1, .ok value') := by
      rw [← ended']
      rfl
    rw [run, run']
    exact .ok le_rfl ⟨related.run same, acts⟩ values

/-- Performing stores is an evaluation followed by a commit. -/
theorem ofOp_perform (state : State) (activation : Nat) (action : Run (List Write)) :
    (ofOp (state.perform activation action) : State × Outcome (List Data) Stop)
      = ofEval (fun stores state => (state.commit activation stores, .fall))
        (state.run action) := by
  unfold State.perform
  rcases state.run action with ⟨next, reason | stores⟩ <;> rfl

theorem perform_corresponds (related : world.Related state state')
    (acts : world.Executing embedding act act') {action action' : Run (List Write)}
    (refines : Refines observer state.memory state'.memory (List.Forall₂ world.Writes)
      action action') (activation activation' : Nat) :
    (simulation excused embedding act act').Ends world (ofOp (state.perform activation action))
      (ofOp (state'.perform activation' action')) := by
  rw [ofOp_perform, ofOp_perform]
  have ends : (simulation excused embedding act act').EvalEnds world
      (fun later stores stores' => List.Forall₂ later.Writes stores stores')
      (state.run action) (state'.run action') := run_corresponds related acts refines
  exact ends.bind fun later state state' stores stores' _ states writes =>
    .fall le_rfl ⟨states.1.commit writes activation activation', states.2⟩

theorem World.Slices.mono {later : World} {desc desc' : SliceDesc}
    (slices : world.Slices desc desc') (after : world ≤ later) : later.Slices desc desc' :=
  Leaves.mono slices after

/-- The first pair, and where it is copied the other ones. -/
theorem ofOp_operateCopies_cons (machine : Machine) (act : Activation)
    (pair : SliceDesc × SliceDesc) (rest : List (SliceDesc × SliceDesc)) (state : State) :
    (ofOp (operateCopies machine act (pair :: rest) state) : State × Outcome (List Data) Stop)
      = andThen (fun state => ofOp (state.perform act.id (copySlice machine act pair.1 pair.2)))
        (fun state => ofOp (operateCopies machine act rest state)) state := by
  obtain ⟨destination, source⟩ := pair
  rcases performed : state.perform act.id (copySlice machine act destination source)
    with ⟨next, _ | reason⟩ <;>
    simp only [operateCopies, andThen, performed, ofOp]

theorem operateCopies_corresponds {pairs pairs' : List (SliceDesc × SliceDesc)}
    (slices : List.Forall₂ (fun pair pair' =>
      world.Slices pair.1 pair'.1 ∧ world.Slices pair.2 pair'.2) pairs pairs')
    (related : world.Related state state') (acts : world.Executing embedding act act') :
    (simulation excused embedding act act').Ends world
      (ofOp (operateCopies machine act pairs state))
      (ofOp (operateCopies (machine.withFunctions functions) act' pairs' state')) := by
  induction pairs generalizing world state state' pairs' with
  | nil =>
    cases slices
    exact .fall le_rfl ⟨related, acts⟩
  | cons pair rest ih =>
    cases slices with
    | cons head tail =>
      rw [ofOp_operateCopies_cons, ofOp_operateCopies_cons]
      refine .andThen (perform_corresponds related acts
        (copySlice_corresponds related.memories head.1 head.2) act.id act'.id)
        fun later next next' after states => ?_
      exact ih (tail.imp fun _ _ pairs => ⟨pairs.1.mono after, pairs.2.mono after⟩) states.1
        states.2

end Statements

end Onda.Mir
