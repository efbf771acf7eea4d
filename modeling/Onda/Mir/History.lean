import Onda.Mir.Stores

/-!
# Histories

A run only adds events to its trace, and the memory it ends in is the memory it
started in with the stores of these events performed on it.  `State.Extends P`
says so of a part of a run whose events all satisfy `P`; it composes, so a
property of a run's events is proved one operation at a time.
-/

namespace Onda.Mir

open Structured

/-- What an event does to the memory. -/
def TraceEvent.apply (event : TraceEvent) (memory : Memory) : Memory :=
  match event with
  | .write _ store => memory.write store
  | _ => memory

/-- The stores of a trace, whose newest event comes first. -/
def replay (memory : Memory) (events : List TraceEvent) : Memory :=
  events.foldr TraceEvent.apply memory

@[simp] theorem replay_nil (memory : Memory) : replay memory [] = memory := rfl

@[simp] theorem replay_cons (memory : Memory) (event : TraceEvent)
    (events : List TraceEvent) :
    replay memory (event :: events) = event.apply (replay memory events) := rfl

theorem replay_append (memory : Memory) (later earlier : List TraceEvent) :
    replay memory (later ++ earlier) = replay (replay memory earlier) later :=
  List.foldr_append

namespace State

/-- The events between two states of a run. -/
def Extends (P : TraceEvent → Prop) (start final : State) : Prop :=
  ∃ events, final.trace = events ++ start.trace ∧
    final.memory = replay start.memory events ∧ start.next ≤ final.next ∧
    ∀ event ∈ events, P event

variable {P Q : TraceEvent → Prop} {start middle final : State}

theorem Extends.refl (state : State) : state.Extends P state :=
  ⟨[], rfl, rfl, Nat.le_refl _, by simp⟩

theorem Extends.trans (first : start.Extends P middle) (second : middle.Extends P final) :
    start.Extends P final := by
  obtain ⟨early, traceEq, memoryEq, nextLe, allEarly⟩ := first
  obtain ⟨late, traceEq', memoryEq', nextLe', allLate⟩ := second
  refine ⟨late ++ early, ?_, ?_, Nat.le_trans nextLe nextLe', fun event mem => ?_⟩
  · rw [traceEq', traceEq, List.append_assoc]
  · rw [memoryEq', memoryEq, replay_append]
  · exact (List.mem_append.mp mem).elim (allLate event) (allEarly event)

theorem Extends.mono (extended : start.Extends P final) (weaker : ∀ event, P event → Q event) :
    start.Extends Q final := by
  obtain ⟨events, traceEq, memoryEq, nextLe, all⟩ := extended
  exact ⟨events, traceEq, memoryEq, nextLe, fun event mem => weaker event (all event mem)⟩

theorem Extends.next_le (extended : start.Extends P final) : start.next ≤ final.next := by
  obtain ⟨_, _, _, nextLe, _⟩ := extended
  exact nextLe

theorem Extends.suffix (extended : start.Extends P final) : start.trace <:+ final.trace := by
  obtain ⟨events, traceEq, _⟩ := extended
  exact ⟨events, traceEq.symm⟩

theorem extends_note {event : TraceEvent} (inert : ∀ memory, event.apply memory = memory)
    (holds : P event) (state : State) : state.Extends P (state.note event) :=
  ⟨[event], rfl, by simp [note, inert], Nat.le_refl _, by simpa using holds⟩

theorem extends_reach (state : State) (act : Activation) (step : Step)
    (holds : P (.step act.id act.functionId step state.memory)) :
    state.Extends P (state.reach act step) :=
  extends_note (fun _ => rfl) holds state

theorem replay_observations (memory : Memory) (observations : List Observation) :
    replay memory (observations.map TraceEvent.observe).reverse = memory := by
  rw [← List.map_reverse]
  induction observations.reverse with
  | nil => rfl
  | cons observation rest ih => rw [List.map_cons, replay_cons, ih]; rfl

variable {activation : Nat} {action : Run (List Write)} {state : State}

theorem extends_run {α : Type} {action : Run α}
    (all : ∀ observation ∈ (action state.memory).1, P (.observe observation)) :
    state.Extends P (state.run action).1 := by
  refine ⟨((action state.memory).1.map TraceEvent.observe).reverse, rfl,
    (replay_observations state.memory (action state.memory).1).symm, Nat.le_refl _,
    fun event mem => ?_⟩
  obtain ⟨observation, emitted, rfl⟩ := List.mem_map.mp (List.mem_reverse.mp mem)
  exact all observation emitted

theorem extends_of_run {α : Type} {action : Run α} {next : State} {result : Except Stop α}
    (ran : state.run action = (next, result)) (observed : ∀ observation, P (.observe observation))
    : state.Extends P next := by
  have reached : state.Extends P (state.run action).1 :=
    extends_run fun observation _ => observed observation
  rwa [ran] at reached

theorem extends_store {store : Write} (holds : store.effective → P (.write activation store)) :
    state.Extends P (state.store activation store) := by
  unfold State.store
  split
  · next effective =>
    exact ⟨[.write activation store], rfl, rfl, Nat.le_refl _, by simpa using holds effective⟩
  · exact Extends.refl state

theorem extends_commit {stores : List Write}
    (all : ∀ store ∈ stores, store.effective → P (.write activation store)) :
    state.Extends P (state.commit activation stores) := by
  induction stores generalizing state with
  | nil => exact Extends.refl state
  | cons store rest ih =>
    rw [commit, List.foldl_cons, ← commit]
    exact (extends_store (all store (by simp))).trans
      (ih fun other mem => all other (by simp [mem]))

theorem extends_perform
    (observed : ∀ observation ∈ (action state.memory).1, P (.observe observation))
    (stores : ∀ stores, (action state.memory).2 = .ok stores →
      ∀ store ∈ stores, store.effective → P (.write activation store)) :
    state.Extends P (state.perform activation action).1 := by
  have evaluated : state.Extends P (state.run action).1 := extends_run observed
  unfold perform
  split
  · next next written run =>
    rw [run] at evaluated
    have result : (action state.memory).2 = .ok written := congrArg Prod.snd run
    exact evaluated.trans (extends_commit (stores written result))
  · next next reason run =>
    rw [run] at evaluated
    exact evaluated

/-- Stores that are performed were evaluated in the same memory. -/
theorem perform_none {next : State} (ran : state.perform activation action = (next, none)) :
    ∃ stores, (action state.memory).2 = .ok stores ∧
      next = (state.run action).1.commit activation stores := by
  unfold perform at ran
  rcases evaluated : state.run action with ⟨middle, reason | stores⟩
  · simp [evaluated] at ran
  · rw [evaluated] at ran
    exact ⟨stores, congrArg Prod.snd evaluated, (congrArg Prod.fst ran).symm⟩

/-- A store does not start an activation. -/
@[simp] theorem store_next (state : State) (activation : Nat) (store : Write) :
    (state.store activation store).next = state.next := by
  unfold State.store; split <;> rfl

@[simp] theorem commit_next (state : State) (activation : Nat) (stores : List Write) :
    (state.commit activation stores).next = state.next := by
  induction stores generalizing state with
  | nil => rfl
  | cons store rest ih => rw [commit, List.foldl_cons, ← commit, ih, store_next]

@[simp] theorem started_next (state : State) (bound : List (Loc × List Write)) :
    (state.started bound).next = state.next + 1 := by
  simp [State.started]

theorem extends_started {bound : List (Loc × List Write)}
    (all : ∀ entry ∈ bound, ∀ store ∈ entry.2, store.effective →
      P (.write state.next store)) :
    state.Extends P (state.started bound) := by
  have entered : state.Extends P { state with next := state.next + 1 } :=
    ⟨[], rfl, rfl, Nat.le_succ _, by simp⟩
  refine entered.trans (extends_commit fun store mem => ?_)
  obtain ⟨entry, inBound, inEntry⟩ := List.mem_flatMap.mp mem
  exact all entry inBound store inEntry

/-! ### Operations -/

section Operations

variable {machine : Machine} {act : Activation} {invoke : Invoke}

private theorem extends_operateCopies {pairs : List (SliceDesc × SliceDesc)} {state : State}
    (observed : ∀ observation, P (.observe observation))
    (stores : ∀ pair ∈ pairs, ∀ store index, store.ToElement pair.1 index →
      store.effective → P (.write act.id store)) :
    state.Extends P (operateCopies machine act pairs state).1 := by
  induction pairs generalizing state with
  | nil => exact Extends.refl state
  | cons pair rest ih =>
    have first : state.Extends P
        (state.perform act.id (copySlice machine act pair.1 pair.2)).1 := by
      refine extends_perform (fun observation _ => observed observation)
        fun written returned store mem => ?_
      obtain ⟨index, _, toElement⟩ :=
        exists_of_forall₂_mem (copySlice_returns pair.1 pair.2 written returned) mem
      exact stores pair (by simp) store index toElement
    unfold operateCopies
    split
    · next next run =>
      rw [run] at first
      exact first.trans (ih fun other mem => stores other (by simp [mem]))
    · next next reason run =>
      rw [run] at first
      exact first

/-- **Operations other than calls**, after the event that starts them. -/
theorem extends_operate {operation : Operation} {state : State}
    (notCall : ∀ results function args, operation ≠ .call results function args)
    (observed : ∀ observation, P (.observe observation))
    (stores : ∀ store, operation.Stores machine act state.memory store → store.effective →
      P (.write act.id store)) :
    (state.reach act (.operation operation)).Extends P
      (operate machine act invoke operation state).1 := by
  unfold operate
  cases operation with
  | call results function args => exact absurd rfl (notCall results function args)
  | sliceCopy copies preflight =>
    simp only
    split
    · next evaluated pairs ran =>
      have held := @evalCopies_returns machine act state.memory copies preflight pairs
        (congrArg Prod.snd ran)
      refine (extends_of_run ran observed).trans
        (extends_operateCopies observed fun pair mem store index toElement => ?_)
      obtain ⟨copy, memCopy, isDestination, _⟩ := exists_of_forall₂_mem held mem
      exact stores store ⟨copy, memCopy, pair.1, index, isDestination, toElement⟩
    · next evaluated reason ran => exact extends_of_run ran observed
  | _ =>
    refine extends_perform (fun observation _ => observed observation)
      fun written returned store mem => ?_
    exact stores store (evalStores_returns _ written returned store mem)

variable {results : List LocalId}

/-- What a call does: its arguments are not bound, or the callee runs. -/
theorem operateCall_cases {results : List LocalId} {function : FunctionId}
    {args : List CallArgument} {state : State}
    (observed : ∀ observation, P (.observe observation)) :
    (∃ next reason, state.Extends P next ∧
      operateCall machine act invoke results function args state = (next, some reason)) ∨
    ∃ target bound entered, machine.program.functions[function]? = some target ∧
      Binds machine act state.memory state.next target.params args bound ∧
      state.Extends P entered ∧ entered.next = state.next ∧ entered.memory = state.memory ∧
      operateCall machine act invoke results function args state =
        finishCall machine act results
          (invoke (calleeActivation entered function target bound)
            (entered.started bound)) := by
  unfold operateCall
  split
  · exact Or.inl ⟨state, .stuck, Extends.refl state, rfl⟩
  · next target found =>
    split
    · next evaluated reason ran =>
      exact Or.inl ⟨evaluated, reason, extends_of_run ran observed, rfl⟩
    · next evaluated bound ran =>
      have binds := bindArguments_returns target.params args bound (congrArg Prod.snd ran)
      have sameNext := congrArg (fun result => result.1.next) ran
      have sameMemory := congrArg (fun result => result.1.memory) ran
      exact Or.inr ⟨target, bound, evaluated, found, binds, extends_of_run ran observed,
        sameNext.symm, sameMemory.symm, rfl⟩

/-- Returning from a call stores its results. -/
theorem extends_finishCall {results : List LocalId} (observed : ∀ observation,
      P (.observe observation))
    (stores : ∀ result loc data store, act.localLoc result = some loc → result ∈ results →
      store.Fills machine.program loc data false → store.effective →
      P (.write act.id store))
    (final : State) (outcome : Outcome (List Data) Stop) :
    final.Extends P (finishCall machine act results (final, outcome)).1 := by
  have resultStores (values : List Data) :
      final.Extends P
        (final.perform act.id (storeResults machine act results values)).1 := by
    refine extends_perform (fun observation _ => observed observation)
      fun written returned store mem => ?_
    obtain ⟨result, inResults, loc, found, fills⟩ :=
      exists_of_forall₂_mem (storeResults_returns results values written returned).2 mem
    exact stores result.1 loc result.2 store found (List.of_mem_zip inResults).1 fills
  cases outcome with
  | ret values => exact resultStores values
  | fall => exact resultStores []
  | brk | cont | stop => exact Extends.refl final

/-- **Calls.**  A call binds its parameters, runs the callee and stores the
results. -/
theorem extends_operateCall {function : FunctionId} {args : List CallArgument} {state : State}
    (observed : ∀ observation, P (.observe observation))
    (callee : ∀ target bound, machine.program.functions[function]? = some target →
      Binds machine act state.memory state.next target.params args bound →
      ∀ entered : State, entered.next = state.next → entered.memory = state.memory →
        entered.Extends P (invoke (calleeActivation entered function target bound)
          (entered.started bound)).1)
    (stores : ∀ result loc data store, act.localLoc result = some loc → result ∈ results →
      store.Fills machine.program loc data false → store.effective →
      P (.write act.id store)) :
    state.Extends P (operateCall machine act invoke results function args state).1 := by
  rcases @operateCall_cases P machine act invoke results function args state observed with
    ⟨next, reason, extended, ran⟩ |
    ⟨target, bound, entered, found, binds, extended, sameNext, sameMemory, ran⟩
  · rw [ran]
    exact extended
  · rw [ran]
    refine extended.trans ((callee target bound found binds entered sameNext sameMemory).trans ?_)
    exact extends_finishCall observed stores _ _

/-- What the operations of a block add to the trace, a run of the block adds. -/
theorem keeps_extends {start : State} {atoms : List (Atom Operation Value (List Value))}
    (steps : ∀ step memory, P (.step act.id act.functionId step memory))
    (observed : ∀ observation, P (.observe observation))
    (repeats : ∀ entry, P (.again act.id act.functionId entry))
    (operations : ∀ operation, .op operation ∈ atoms → ∀ now, start.Extends P now →
      now.Extends P (operate machine act invoke operation now).1) :
    (act.semantics machine invoke).Keeps (fun now => start.Extends P now) atoms where
  op operation mem now reached := reached.trans (operations operation mem now reached)
  cond _ _ now reached := reached.trans
    ((extends_reach now act _ (steps _ _)).trans
      (extends_run fun observation _ => observed observation))
  ret _ _ now reached := reached.trans
    ((extends_reach now act _ (steps _ _)).trans
      (extends_run fun observation _ => observed observation))
  again _ now _ reached := reached.trans (extends_note (fun _ => rfl) (repeats _) now)

/-- Operations only add to the trace, when calls do. -/
theorem grows_operate
    (invokes : ∀ callee (state : State),
      state.Extends (fun _ => True) (invoke callee state).1)
    (operation : Operation) (state : State) :
    state.Extends (fun _ => True) (operate machine act invoke operation state).1 := by
  refine (extends_reach state act (.operation operation) trivial).trans ?_
  by_cases isCall : ∃ results function args, operation = .call results function args
  · obtain ⟨results, function, args, rfl⟩ := isCall
    exact extends_operateCall (fun _ => trivial)
      (fun target bound _ _ entered _ _ =>
        (extends_started fun _ _ _ _ _ => trivial).trans (invokes _ _))
      fun _ _ _ _ _ _ _ _ => trivial
  · exact extends_operate (fun results function args same =>
      isCall ⟨results, function, args, same⟩) (fun _ => trivial) fun _ _ _ => trivial

end Operations

/-- **A run only adds to the trace.** -/
theorem grows_invoke (machine : Machine) (budget depth : Nat) (act : Activation)
    (state : State) :
    state.Extends (fun _ => True) (machine.invoke budget depth act state).1 := by
  induction depth generalizing act state with
  | zero => exact Extends.refl state
  | succ depth ih =>
    refine execBlock_keeps (keeps_extends (fun _ _ => trivial) (fun _ => trivial)
      (fun _ => trivial) ?_) (Extends.refl state)
    exact fun operation _ now _ => grows_operate (fun callee entered => ih callee entered)
      operation now

end State

end Onda.Mir
