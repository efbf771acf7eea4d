import Onda.Mir.CorrespondingRuns
import Onda.Mir.Stores

/-!
# Corresponding functions

Two programs with the same tables and other functions.  If the body of every
function matches the body of its counterpart, provided that the functions it calls
match, then so do all calls, by induction on the call depth.
-/

namespace Onda.Mir

open Structured Structured.Eval Simulation

/-! ### A new activation -/

namespace World

variable {world : World} {embedding : Embedding}

/-- One more activation has started. -/
def extend (world : World) (embedding : Embedding) : World where
  next := world.next + 1
  embedding activation :=
    if activation = world.next then embedding else world.embedding activation

@[simp] theorem extend_next : (world.extend embedding).next = world.next + 1 := rfl

@[simp] theorem extend_embedding :
    (world.extend embedding).embedding world.next = embedding := if_pos rfl

theorem le_extend (world : World) (embedding : Embedding) : world ≤ world.extend embedding :=
  ⟨Nat.le_succ _, fun _ old => if_neg old.ne⟩

/-- The objects of the world before and of the new activation. -/
theorem Objects.of_extend {object object' : Object}
    (objects : (world.extend embedding).Objects object object') :
    world.Objects object object' ∨ object.activation? = some world.next := by
  cases objects with
  | @localVar activation localId localId' started mapped =>
    rcases Nat.lt_succ_iff_lt_or_eq.mp started with old | rfl
    · rw [(le_extend world embedding).2 _ old] at mapped
      exact .inl (.localVar old mapped)
    · exact .inr rfl
  | @argument activation parameter parameter' started mapped =>
    rcases Nat.lt_succ_iff_lt_or_eq.mp started with old | rfl
    · rw [(le_extend world embedding).2 _ old] at mapped
      exact .inl (.argument old mapped)
    · exact .inr rfl
  | shared global => exact .inl (.shared global)

/-- Nothing is stored yet for the new activation. -/
theorem Memories.extend {memory memory' : Memory} (memories : world.Memories memory memory')
    (embedding : Embedding) : (world.extend embedding).Memories memory memory' where
  cells object object' path objects := by
    rcases objects.of_extend with before | owned
    · exact optionRel_imp (memories.cells object object' path before) fun _ _ leaves =>
        leaves.mono (le_extend world embedding)
    · rw [(memories.fresh object _ owned le_rfl path).1,
        (memories.fresh object' _ (objects.owner.trans owned) le_rfl path).2]
      exact .none
  fresh object activation owned later := memories.fresh object activation owned
    ((Nat.le_succ _).trans later)

variable {parameter : ParameterId}

theorem extend_argument {parameter' : ParameterId}
    (mapped : embedding.params parameter = some parameter') :
    (world.extend embedding).Objects (.argument world.next parameter)
      (.argument world.next parameter') :=
  .argument (Nat.lt_succ_self _) (by rwa [extend_embedding])

theorem extend_dropped (dropped : embedding.params parameter = none) (object : Object) :
    ¬(world.extend embedding).Objects (.argument world.next parameter) object := by
  intro objects
  cases objects with
  | argument _ mapped =>
    rw [extend_embedding, dropped] at mapped
    cases mapped
  | shared global => cases global

end World

/-! ### Counterparts -/

/-- A function of the other program: its declarations agree with the ones that are
mapped. -/
structure Counterpart (embedding : Embedding) (callee callee' : Function) : Prop where
  kind : callee'.kind = callee.kind
  locals : ∀ localId localId', embedding.writes localId = some localId' →
    (callee'.locals[localId']?).map Local.ty = (callee.locals[localId]?).map Local.ty
  params : Selected embedding.params
    (fun param param' => param'.mode = param.mode ∧ param'.ty = param.ty) (fun _ => True) 0 0
    callee.params callee'.params

section Calls

variable {machine : Machine} {functions : List Function} {excused : State → Prop}
  {world : World} {embedding : Embedding} {state state' : State} {memory memory' : Memory}
  {act act' : Activation} {callee callee' : Function}

/-- An argument whose evaluation nobody sees and that only escapes. -/
def CallArgument.Harmless (machine : Machine) (act : Activation) (argument : CallArgument) :
    Prop :=
  ∀ memory callee index param, observer.Quiet memory (fun _ => True)
    (bindArgument machine act callee index param argument)

/-- A parameter without a counterpart is bound to storage without one. -/
theorem harmless_bound {argument : CallArgument} (harmless : argument.Harmless machine act)
    {parameter : ParameterId} (dropped : embedding.params parameter = none)
    (param : FunctionParam) :
    observer.Quiet memory
      (fun bound => ∀ store ∈ bound.2, (world.extend embedding).Private store)
      (bindArgument machine act world.next parameter param argument) := by
  refine (harmless memory world.next parameter param).combine fun bound computed => ?_
  have known : Bound machine act memory world.next parameter param argument bound.1 bound.2 :=
    bindArgument_returns argument bound computed
  intro store mem
  generalize bound.1 = loc at known
  generalize bound.2 = stores at known mem
  cases known with
  | own fills =>
    obtain rfl := List.mem_singleton.mp mem
    have object : store.object = .argument world.next parameter := fills.into.object
    refine ⟨fun other objects => ?_, fun activation owned => ?_⟩
    · rw [object] at objects
      exact World.extend_dropped dropped other objects
    · rw [object] at owned
      cases owned
      exact Nat.lt_succ_self _
  | place | slice | bufferParam => cases mem

variable {function : FunctionId} {bound bound' : List (Loc × List Write)}
  {args args' : List CallArgument} {results results' : List LocalId}

theorem bindArguments_corresponds (memories : world.Memories memory memory')
    (acts : world.Activations act act') (counterpart : Counterpart embedding callee callee')
    (selected : Selected embedding.params
      (fun argument argument' =>
        rewriteCallArgument (world.mapping act) argument = some argument')
      (CallArgument.Harmless machine act) 0 0 args args') :
    Refines observer memory memory'
      (Selected embedding.params (world.extend embedding).Bounds
        (fun bound => ∀ store ∈ bound.2, (world.extend embedding).Private store) 0 0)
      (bindArguments machine act world.next callee.params args)
      (bindArguments (machine.withFunctions functions) act' world.next callee'.params args') := by
  have later := World.le_extend world embedding
  have extended := memories.extend embedding
  have extendedActs := acts.mono later
  have mapping : (world.extend embedding).mapping act = world.mapping act := by
    unfold World.mapping
    rw [later.2 _ acts.started]
  unfold bindArguments
  by_cases arity : callee.params.length = args.length
  · have arity' := counterpart.params.length selected arity
    rw [decide_eq_true arity, decide_eq_true arity']
    refine .bind (.require rfl) fun _ _ _ => ?_
    refine .mapM_selected (counterpart.params.zip selected) ?_ ?_
    · rintro ⟨param, argument⟩ ⟨param', argument'⟩ position position' kept ⟨⟨mode, ty⟩, rewritten⟩
      rw [← mapping] at rewritten
      exact bindArgument_corresponds extended extendedActs (World.extend_argument kept) mode ty
        rewritten
    · rintro ⟨param, argument⟩ position dropped ⟨-, harmless⟩
      exact harmless_bound harmless dropped param
  · rw [decide_eq_false arity]
    exact .unmet trivial

theorem storeResults_corresponds (acts : world.Activations act act')
    (rewritten : results.mapM (world.mapping act).writes = some results')
    {values values' : List Data} (datas : List.Forall₂ world.Datas values values') :
    Refines observer memory memory' (List.Forall₂ world.Writes)
      (storeResults machine act results values)
      (storeResults (machine.withFunctions functions) act' results' values') := by
  have each := forall₂_of_mapM rewritten
  unfold storeResults
  rw [each.length_eq, datas.length_eq]
  refine .bind (.require rfl) fun _ _ _ => ?_
  refine .mapM (forall₂_zip each datas) fun result result' paired => ?_
  exact .bind (.orThrow (resultLoc_corresponds acts paired.1)) fun _ _ locs =>
    storeLoc_corresponds locs paired.2 false false

/-! ### Starting the callee -/

theorem commit_bound {mapping : Nat → Option Nat} {i j : Nat}
    (selected : Selected mapping world.Bounds (fun bound => ∀ store ∈ bound.2, world.Private store)
      i j bound bound') (related : world.Related state state') (activation activation' : Nat) :
    world.Related (state.commit activation (bound.flatMap Prod.snd))
      (state'.commit activation' (bound'.flatMap Prod.snd)) := by
  induction selected generalizing state state' with
  | nil => exact related
  | keep _ bounds _ ih =>
    have first := related.commit bounds.stores activation activation'
    have rest := ih first
    unfold State.commit at rest ⊢
    rwa [List.flatMap_cons, List.flatMap_cons, List.foldl_append, List.foldl_append]
  | drop _ hidden _ ih =>
    have first := related.commit_left hidden activation
    have rest := ih first
    unfold State.commit at rest ⊢
    rwa [List.flatMap_cons, List.foldl_append]

theorem World.Related.started (related : world.Related state state')
    (selected : Selected embedding.params (world.extend embedding).Bounds
      (fun bound => ∀ store ∈ bound.2, (world.extend embedding).Private store) 0 0 bound bound') :
    (world.extend embedding).Related (state.started bound) (state'.started bound') := by
  have fresh : (world.extend embedding).Related { state with next := state.next + 1 }
      { state' with next := state'.next + 1 } := by
    refine ⟨related.memories.extend embedding, ?_, ?_, related.visible⟩
    · rw [related.next, World.extend_next]
    · rw [related.next', World.extend_next]
  exact commit_bound selected fresh _ _

theorem calleeActivation_corresponds (related : world.Related state state')
    (counterpart : Counterpart embedding callee callee') (function : FunctionId)
    (selected : Selected embedding.params (world.extend embedding).Bounds
      (fun bound => ∀ store ∈ bound.2, (world.extend embedding).Private store) 0 0 bound bound') :
    (world.extend embedding).Activations (calleeActivation state function callee bound)
      (calleeActivation state' function callee' bound') where
  id := related.next'.trans related.next.symm
  started := by
    change state.next < world.next + 1
    rw [related.next]
    exact Nat.lt_succ_self _
  kind := counterpart.kind
  locals localId localId' mapped := by
    change ((world.extend embedding).embedding state.next).writes localId = some localId' at mapped
    rw [related.next, World.extend_embedding] at mapped
    exact counterpart.locals localId localId' mapped
  params parameter parameter' mapped := by
    change ((world.extend embedding).embedding state.next).params parameter = some parameter'
      at mapped
    rw [related.next, World.extend_embedding] at mapped
    have found := selected.getElem? embedding.params_inj parameter parameter'
      (by rwa [Nat.zero_add, Nat.zero_add])
    change Option.Rel _ (bound.map Prod.fst)[parameter]? (bound'.map Prod.fst)[parameter']?
    rw [List.getElem?_map, List.getElem?_map]
    generalize bound[parameter]? = entry at found
    generalize bound'[parameter']? = entry' at found
    cases found with
    | none => exact .none
    | some bounds => exact .some bounds.loc

/-! ### Calls -/

/-- The two activations execute counterparts. -/
structure Executes (machine : Machine) (functions : List Function)
    (table : FunctionId → Embedding) (world : World) (act act' : Activation) : Prop where
  source : machine.program.functions[act.functionId]? = some act.function
  target : functions[act.functionId]? = some act'.function
  same : act'.functionId = act.functionId
  mapped : world.embedding act.id = table act.functionId

/-- Executions of counterparts match. -/
def InvokesAlike (machine : Machine) (functions : List Function)
    (table : FunctionId → Embedding) (excused : State → Prop) (invoke invoke' : Invoke) : Prop :=
  ∀ world act act' state state', Executes machine functions table world act act' →
    world.Related state state' → world.Activations act act' →
    (simulation excused (table act.functionId) act act').Ends world (invoke act state) (invoke' act' state')

theorem finishCall_corresponds {inner inner' : Activation} {other : Embedding}
    {run run' : State × Outcome (List Data) Stop}
    (ends : (simulation excused other inner inner').Ends world run run')
    (acts : world.Executing embedding act act')
    (rewritten : results.mapM embedding.writes = some results') :
    (simulation excused embedding act act').Ends world
      (ofOp (finishCall machine act results run))
      (ofOp (finishCall (machine.withFunctions functions) act' results' run')) := by
  have stores {later : World} {next next' : State} (after : world ≤ later)
      (related : later.Related next next') {values values' : List Data}
      (datas : List.Forall₂ later.Datas values values') :
      (simulation excused embedding act act').Ends world
        (ofOp (next.perform act.id (storeResults machine act results values)))
        (ofOp (next'.perform act'.id
          (storeResults (machine.withFunctions functions) act' results' values'))) := by
    have laterActs := acts.mono after
    refine (perform_corresponds related laterActs ?_ _ _).earlier after
    exact storeResults_corresponds laterActs.toActivations (by rwa [laterActs.mapping]) datas
  cases ends with
  | fall after related => exact stores after related.1 .nil
  | ret after related returned => exact stores after related.1 returned
  | brk | cont => exact .escape (.inl trivial)
  | stop stopped => exact .stop stopped
  | escape escapes => exact .escape escapes

/-- Binding the arguments, and where that succeeds the run of the callee. -/
theorem ofOp_operateCall (found : machine.program.functions[function]? = some callee)
    (invoke : Invoke) (results : List LocalId) (args : List CallArgument) (state : State) :
    (ofOp (operateCall machine act invoke results function args state)
        : State × Outcome (List Data) Stop)
      = ofEval (fun bound next => ofOp (finishCall machine act results
          (invoke (calleeActivation next function callee bound) (next.started bound))))
        (state.run (bindArguments machine act state.next callee.params args)) := by
  rcases computed : state.run (bindArguments machine act state.next callee.params args)
    with ⟨next, reason | bound⟩ <;>
    simp only [operateCall, found, computed, ofOp, ofEval]

theorem operateCall_corresponds {table : FunctionId → Embedding} {invoke invoke' : Invoke}
    (alike : InvokesAlike machine functions table excused invoke invoke')
    (found : machine.program.functions[function]? = some callee)
    (found' : functions[function]? = some callee')
    (counterpart : Counterpart (table function) callee callee')
    (related : world.Related state state') (acts : world.Executing embedding act act')
    (selected : Selected (table function).params
      (fun argument argument' =>
        rewriteCallArgument embedding.toMapping argument = some argument')
      (CallArgument.Harmless machine act) 0 0 args args')
    (rewritten : results.mapM embedding.writes = some results') :
    (simulation excused embedding act act').Ends world
      (ofOp (operateCall machine act invoke results function args state))
      (ofOp (operateCall (machine.withFunctions functions) act' invoke' results' function args'
        state')) := by
  have target : (machine.withFunctions functions).program.functions[function]? = some callee' :=
    found'
  rw [ofOp_operateCall found, ofOp_operateCall target]
  have bound : (simulation excused embedding act act').EvalEnds world
      (fun later => Selected (table function).params (later.extend (table function)).Bounds
        (fun bound => ∀ store ∈ bound.2, (later.extend (table function)).Private store) 0 0)
      (state.run (bindArguments machine act state.next callee.params args))
      (state'.run (bindArguments (machine.withFunctions functions) act' state'.next
        callee'.params args')) := by
    refine run_corresponds related acts ?_
    rw [related.next, related.next']
    exact bindArguments_corresponds related.memories acts.toActivations counterpart
      (by rwa [acts.mapping])
  refine bound.bind fun later next next' bound bound' after states bounds => ?_
  have extended := World.le_extend later (table function)
  have executes : Executes machine functions table (later.extend (table function))
      (calleeActivation next function callee bound)
      (calleeActivation next' function callee' bound') := by
    refine ⟨found, found', rfl, ?_⟩
    change (later.extend (table function)).embedding next.next = table function
    rw [states.1.next, World.extend_embedding]
  exact Ends.earlier extended (finishCall_corresponds
    (alike _ _ _ _ _ executes (states.1.started bounds)
      (calleeActivation_corresponds states.1 counterpart function bounds))
    (states.2.mono extended) rewritten)

end Calls

end Onda.Mir
