import Onda.Mir.CorrespondingFunctions
import Onda.Mir.Minimal

/-!
# Refinement of programs

The rules for the statements of two corresponding functions, the induction on the
call depth, and what follows for a call from the host: unless the source run loses
its meaning, the other program shows the same behaviour.
-/

namespace Onda.Mir

open Structured Structured.Eval Simulation

section Statements

variable {machine : Machine} {functions : List Function} {table : FunctionId → Embedding}
  {excused : State → Prop} {embedding : Embedding} {act act' : Activation}
  {invoke invoke' : Invoke} {budget : Nat}

theorem semantics_agrees :
    (simulation excused embedding act act').Agrees (act.semantics machine invoke)
      (act'.semantics (machine.withFunctions functions) invoke') where
  again _ _ _ _ _ states := ⟨states.1.note rfl rfl, states.2⟩
  spent := rfl
  stopped world _ _ states := ⟨world, states.1⟩

/-- Operations that evaluate to stores. -/
def Operation.Plain : Operation → Prop
  | .call .. | .sliceCopy .. => False
  | _ => True

variable {operation operation' : Operation}

theorem operate_plain (plain : operation.Plain) (state : State) :
    operate machine act invoke operation state
      = (state.reach act (.operation operation)).perform act.id
        (evalStores machine act operation) := by
  cases operation with
  | call | sliceCopy => exact plain.elim
  | _ => rfl

/-- Plain operations match if their evaluations do. -/
theorem runs_plain (plain : operation.Plain) (plain' : operation'.Plain)
    (stores : ∀ world memory memory', World.Memories world memory memory' →
      world.Executing embedding act act' →
      Refines observer memory memory' (List.Forall₂ world.Writes)
        (evalStores machine act operation)
        (evalStores (machine.withFunctions functions) act' operation')) :
    (simulation excused embedding act act').Runs
      (Stm.exec (act.semantics machine invoke) budget (.op operation))
      (Stm.exec (act'.semantics (machine.withFunctions functions) invoke') budget
        (.op operation')) := by
  refine runs_op fun world state state' states => ?_
  change (simulation excused embedding act act').Ends world
    (ofOp (operate machine act invoke operation state))
    (ofOp (operate (machine.withFunctions functions) act' invoke' operation' state'))
  rw [operate_plain plain, operate_plain plain']
  have reached := states.1.reach act act' (.operation operation) (.operation operation')
  exact perform_corresponds reached states.2
    (stores world _ _ reached.memories states.2) act.id act'.id

/-- An assignment of an rvalue that refines the one it replaces. -/
theorem runs_assign {destination destination' : Place} {value value' : Rvalue}
    (rewritten : rewriteDestination embedding.toMapping destination = some destination')
    (values : ∀ world memory memory', World.Memories world memory memory' →
      world.Executing embedding act act' →
      Refines observer memory memory' world.Datas (evalRvalue machine act value)
        (evalRvalue (machine.withFunctions functions) act' value')) :
    (simulation excused embedding act act').Runs
      (Stm.exec (act.semantics machine invoke) budget (.op (.assign destination value)))
      (Stm.exec (act'.semantics (machine.withFunctions functions) invoke') budget
        (.op (.assign destination' value'))) := by
  refine runs_plain trivial trivial fun world memory memory' memories acts => ?_
  refine .bind (lowerDestination_corresponds memories acts.toActivations
    (by rwa [acts.mapping])) fun loc loc' locs => ?_
  refine .bind (values world memory memory' memories acts) fun data data' datas => ?_
  exact single_corresponds (storeLoc_corresponds locs datas _ _)

/-- The pairs of a slice copy are evaluated before the first one is copied. -/
theorem ofOp_operate_sliceCopy (machine : Machine) (act : Activation) (invoke : Invoke)
    (copies : List SliceCopy) (preflight : SliceCopyPreflight) (state : State) :
    (ofOp (operate machine act invoke (.sliceCopy copies preflight) state)
        : State × Outcome (List Data) Stop)
      = ofEval (fun pairs state => ofOp (operateCopies machine act pairs state))
        ((state.reach act (.operation (.sliceCopy copies preflight))).run
          (evalCopies machine act copies preflight)) := by
  rcases computed : (state.reach act (.operation (.sliceCopy copies preflight))).run
    (evalCopies machine act copies preflight) with ⟨next, reason | pairs⟩ <;>
    simp only [operate, computed, ofOp, ofEval]

theorem runs_sliceCopy {copies copies' : List SliceCopy} {preflight : SliceCopyPreflight}
    (rewritten : copies.mapM (rewriteSliceCopy embedding.toMapping) = some copies') :
    (simulation excused embedding act act').Runs
      (Stm.exec (act.semantics machine invoke) budget (.op (.sliceCopy copies preflight)))
      (Stm.exec (act'.semantics (machine.withFunctions functions) invoke') budget
        (.op (.sliceCopy copies' preflight))) := by
  refine runs_op fun world state state' states => ?_
  have reached := states.1.reach act act' (.operation (.sliceCopy copies preflight))
    (.operation (.sliceCopy copies' preflight))
  have pairs : (simulation excused embedding act act').EvalEnds world
      (fun later => List.Forall₂ fun pair pair' =>
        later.Slices pair.1 pair'.1 ∧ later.Slices pair.2 pair'.2)
      ((state.reach act (.operation (.sliceCopy copies preflight))).run
        (evalCopies machine act copies preflight))
      ((state'.reach act' (.operation (.sliceCopy copies' preflight))).run
        (evalCopies (machine.withFunctions functions) act' copies' preflight)) :=
    run_corresponds reached states.2 (evalCopies_corresponds reached.memories
      states.2.toActivations (by rwa [states.2.mapping]) preflight)
  change (simulation excused embedding act act').Ends world
    (ofOp (operate machine act invoke (.sliceCopy copies preflight) state))
    (ofOp (operate (machine.withFunctions functions) act' invoke' (.sliceCopy copies' preflight)
      state'))
  rw [ofOp_operate_sliceCopy, ofOp_operate_sliceCopy]
  exact pairs.bind fun later next next' pairs pairs' _ nexts slices =>
    operateCopies_corresponds slices nexts.1 nexts.2

theorem runs_call
    (alike : InvokesAlike machine functions table excused invoke invoke')
    {function : FunctionId}
    (counterparts : Option.Rel (Counterpart (table function))
      machine.program.functions[function]? functions[function]?)
    {args args' : List CallArgument}
    (selected : ∀ callee, machine.program.functions[function]? = some callee →
      Selected (table function).params
        (fun argument argument' =>
          rewriteCallArgument embedding.toMapping argument = some argument')
        (CallArgument.Harmless machine act) 0 0 args args')
    {results results' : List LocalId}
    (rewritten : results.mapM embedding.writes = some results') :
    (simulation excused embedding act act').Runs
      (Stm.exec (act.semantics machine invoke) budget (.op (.call results function args)))
      (Stm.exec (act'.semantics (machine.withFunctions functions) invoke') budget
        (.op (.call results' function args'))) := by
  refine runs_op fun world state state' states => ?_
  have reached := states.1.reach act act' (.operation (.call results function args))
    (.operation (.call results' function args'))
  change (simulation excused embedding act act').Ends world
    (ofOp (operateCall machine act invoke results function args
      (state.reach act (.operation (.call results function args)))))
    (ofOp (operateCall (machine.withFunctions functions) act' invoke' results' function args'
      (state'.reach act' (.operation (.call results' function args')))))
  rcases found : machine.program.functions[function]? with _ | callee
  · -- A call of a function that does not exist has no meaning.
    have stuck : operateCall machine act invoke results function args
        (state.reach act (.operation (.call results function args)))
          = (state.reach act (.operation (.call results function args)), some .stuck) := by
      simp only [operateCall, found]
    rw [stuck]
    exact .escape (.inl trivial)
  · rw [found] at counterparts
    rcases found' : functions[function]? with _ | callee'
    · rw [found'] at counterparts
      cases counterparts
    · rw [found'] at counterparts
      cases counterparts with
      | some counterpart =>
        exact operateCall_corresponds alike found found' counterpart reached states.2
          (selected callee found) rewritten

theorem runs_condition {condition condition' : Value} {thenBlock elseBlock : Block}
    {thenBlock' elseBlock' : Block}
    (rewritten : rewriteValue embedding.toMapping condition = some condition')
    (thenRuns : (simulation excused embedding act act').Runs
      (execBlock (act.semantics machine invoke) budget thenBlock)
      (execBlock (act'.semantics (machine.withFunctions functions) invoke') budget thenBlock'))
    (elseRuns : (simulation excused embedding act act').Runs
      (execBlock (act.semantics machine invoke) budget elseBlock)
      (execBlock (act'.semantics (machine.withFunctions functions) invoke') budget elseBlock')) :
    (simulation excused embedding act act').Runs
      (Stm.exec (act.semantics machine invoke) budget (.ite condition thenBlock elseBlock))
      (Stm.exec (act'.semantics (machine.withFunctions functions) invoke') budget
        (.ite condition' thenBlock' elseBlock')) := by
  refine runs_ite (fun world state state' states => ?_) thenRuns elseRuns
  have reached := states.1.reach act act' (.condition condition) (.condition condition')
  exact run_corresponds reached states.2 (evalBool_corresponds reached.memories
    states.2.toActivations (by rwa [states.2.mapping]))

theorem runs_return {values values' : List Value}
    (rewritten : values.mapM (rewriteValue embedding.toMapping) = some values') :
    (simulation excused embedding act act').Runs
      (Stm.exec (act.semantics machine invoke) budget (.ret values))
      (Stm.exec (act'.semantics (machine.withFunctions functions) invoke') budget
        (.ret values')) := by
  refine runs_ret fun world state state' states => ?_
  have reached := states.1.reach act act' (.result values) (.result values')
  refine run_corresponds reached states.2 (.mapM (forall₂_of_mapM rewritten)
    fun value value' mapped => ?_)
  exact evalValue_corresponds reached.memories states.2.toActivations (by rwa [states.2.mapping])

/-- A rewritten operation has the form of the original. -/
theorem rewriteOperation_plain {mapping : Mapping}
    (rewritten : rewriteOperation mapping operation = some operation') (plain : operation.Plain)
    : operation'.Plain := by
  cases operation with
  | call | sliceCopy => exact plain.elim
  | publishDelegate | publishLog =>
    obtain ⟨_, _, rfl⟩ := Option.map_eq_some_iff.mp rewritten
    trivial
  | _ =>
    simp only [rewriteOperation, Option.bind_eq_bind, Option.bind_eq_some_iff,
      Option.some.injEq] at rewritten
    grind [Operation.Plain]

theorem runs_rewritten_plain (plain : operation.Plain)
    (rewritten : rewriteOperation embedding.toMapping operation = some operation') :
    (simulation excused embedding act act').Runs
      (Stm.exec (act.semantics machine invoke) budget (.op operation))
      (Stm.exec (act'.semantics (machine.withFunctions functions) invoke') budget
        (.op operation')) :=
  runs_plain plain (rewriteOperation_plain rewritten plain) fun _ _ _ memories acts =>
    evalStores_corresponds memories acts.toActivations (by rwa [acts.mapping])

/-- A rewritten operation, where callees keep their parameters. -/
theorem runs_rewritten (alike : InvokesAlike machine functions table excused invoke invoke')
    (counterparts : ∀ function, Option.Rel (Counterpart (table function))
      machine.program.functions[function]? functions[function]?)
    (keeps : ∀ function, (table function).params = some)
    (rewritten : rewriteOperation embedding.toMapping operation = some operation') :
    (simulation excused embedding act act').Runs
      (Stm.exec (act.semantics machine invoke) budget (.op operation))
      (Stm.exec (act'.semantics (machine.withFunctions functions) invoke') budget
        (.op operation')) := by
  cases operation with
  | call results function args =>
    simp only [rewriteOperation, Option.bind_eq_bind, Option.bind_eq_some_iff,
      Option.some.injEq] at rewritten
    obtain ⟨results', resultsRewritten, args', argsRewritten, rfl⟩ := rewritten
    refine runs_call alike (counterparts function) (fun callee _ => ?_) resultsRewritten
    rw [keeps function]
    exact .ofForall₂ (forall₂_of_mapM argsRewritten) 0
  | sliceCopy copies preflight =>
    obtain ⟨copies', copiesRewritten, rfl⟩ := Option.map_eq_some_iff.mp rewritten
    exact runs_sliceCopy copiesRewritten
  | _ => exact runs_rewritten_plain trivial rewritten

end Statements

/-! ### Functions -/

section Functions

variable {machine : Machine} {functions : List Function} {table : FunctionId → Embedding}
  {excused : State → Prop} {budget : Nat}

/-- The functions of the two programs correspond, and their bodies match if the
functions they call do. -/
structure Corresponds (machine : Machine) (functions : List Function)
    (table : FunctionId → Embedding) (excused : State → Prop) (budget : Nat) : Prop where
  counterparts : ∀ function, Option.Rel (Counterpart (table function))
    machine.program.functions[function]? functions[function]?
  bodies : ∀ function callee callee' invoke invoke' act act',
    machine.program.functions[function]? = some callee → functions[function]? = some callee' →
    InvokesAlike machine functions table excused invoke invoke' →
    act.functionId = function → act.function = callee →
    act'.functionId = function → act'.function = callee' →
    (simulation excused (table function) act act').Runs
      (execBlock (act.semantics machine invoke) budget callee.body)
      (execBlock (act'.semantics (machine.withFunctions functions) invoke') budget callee'.body)

/-- **Run lemma.**  By induction on the call depth, all calls match. -/
theorem Corresponds.invoke (corresponds : Corresponds machine functions table excused budget)
    (depth : Nat) :
    InvokesAlike machine functions table excused (machine.invoke budget depth)
      ((machine.withFunctions functions).invoke budget depth) := by
  induction depth with
  | zero =>
    intro world act act' state state' _ related _
    exact .stop ⟨world, related⟩
  | succ depth ih =>
    intro world act act' state state' executes related acts
    exact corresponds.bodies act.functionId act.function act'.function _ _ act act'
      executes.source executes.target ih rfl rfl executes.same rfl world state state'
      ⟨related, acts, executes.mapped⟩

/-! ### Calls from the host -/

/-- A cell of host storage does not refer to storage of an activation. -/
def Leaf.Global (leaf : Leaf) : Prop :=
  ∀ desc, leaf = .slice desc → desc.object.activation? = none

/-- What the host passes to a call. -/
structure HostData (memory : Memory) (args : List Data) : Prop where
  memory : ∀ object path leaf, memory object path = some leaf → leaf.Global
  args : ∀ data ∈ args, ∀ entry ∈ data, entry.2.Global

def observedOutcome : Outcome (List Data) Stop → Outcome (List (List (Path × Option Leaf))) Stop
  | .ret values => .ret (values.map Data.observed)
  | .stop reason => .stop reason
  | .fall => .fall
  | .brk => .brk
  | .cont => .cont

/-- The same publications and stores in the same order, the same results or failure,
and the same storage left behind. -/
structure SameBehavior (run run' : State × Outcome (List Data) Stop) : Prop where
  visible : run'.1.visible = run.1.visible
  outcome : observedOutcome run'.2 = observedOutcome run.2
  memory : ∀ object path, object.activation? = none →
    (run'.1.memory object path).map Leaf.observed = (run.1.memory object path).map Leaf.observed

theorem World.Leaves.refl (world : World) {leaf : Leaf} (global : leaf.Global) :
    world.Leaves leaf leaf := by
  cases leaf with
  | scalar value => exact .scalar value
  | slice desc => exact .slice (.shared (global desc rfl))
  | buffer buffer => exact .buffer buffer
  | span first len => exact .span first len

variable {embedding : Embedding} {memory : Memory}

theorem World.Memories.observed {world : World} {memory' : Memory}
    (memories : world.Memories memory memory') {object : Object}
    (global : object.activation? = none) (path : Path) :
    (memory' object path).map Leaf.observed = (memory object path).map Leaf.observed := by
  have cells := memories.cells object object path (.shared global)
  generalize memory object path = leaf at cells
  generalize memory' object path = leaf' at cells
  cases cells with
  | none => rfl
  | some leaves => rw [Option.map_some, Option.map_some, leaves.observed]

theorem SameBehavior.of_ends {act act' : Activation} {world : World}
    {run run' : State × Outcome (List Data) Stop}
    (ends : (simulation excused embedding act act').Ends world run run') :
    (∃ reason, run.2 = .stop reason ∧ (reason.Escapes ∨ excused run.1))
      ∨ SameBehavior run run' := by
  cases ends with
  | fall _ states | brk _ states | cont _ states =>
    exact .inr ⟨states.1.visible, rfl, fun object path global =>
      states.1.memories.observed global path⟩
  | ret _ states returned =>
    refine .inr ⟨states.1.visible, ?_, fun object path global =>
      states.1.memories.observed global path⟩
    simp only [observedOutcome, payload_observed returned]
  | stop stopped =>
    obtain ⟨later, related⟩ := stopped
    exact .inr ⟨related.visible, rfl, fun object path global =>
      related.memories.observed global path⟩
  | escape escapes => exact .inl ⟨_, rfl, escapes⟩

/-- The world a call from the host starts in. -/
def World.initial (embedding : Embedding) : World := ⟨1, fun _ => embedding⟩

theorem rootMemory_corresponds {args : List Data} (host : HostData memory args)
    (positions : ∀ parameter parameter', embedding.params parameter = some parameter' →
      parameter' = parameter) :
    (World.initial embedding).Memories (rootMemory memory args) (rootMemory memory args) where
  cells object object' path objects := by
    cases objects with
    | localVar => exact .none
    | @argument activation parameter parameter' started mapped =>
      obtain rfl := positions parameter parameter' mapped
      refine optionRel_same _ fun leaf found => World.Leaves.refl _ ?_
      cases activation with
      | zero =>
        obtain ⟨data, atArgs, atData⟩ := Option.bind_eq_some_iff.mp found
        obtain ⟨before, after, split, -⟩ := List.lookup_eq_some_iff.mp atData
        exact host.args data (List.mem_of_getElem? atArgs) (path, leaf) (by simp [split])
      | succ activation => cases found
    | shared global =>
      refine optionRel_same _ fun leaf found => World.Leaves.refl _ ?_
      cases object with
      | localVar | argument => cases global
      | _ => exact host.memory _ path leaf found
  fresh object activation owned later path := by
    cases object with
    | localVar => exact ⟨rfl, rfl⟩
    | argument other parameter =>
      cases owned
      cases activation with
      | zero => exact absurd later (Nat.not_succ_le_zero 0)
      | succ activation => exact ⟨rfl, rfl⟩
    | _ => cases owned

theorem rootActivation_corresponds (function : FunctionId) {callee callee' : Function}
    (counterpart : Counterpart embedding callee callee') :
    (World.initial embedding).Executing embedding (rootActivation function callee)
      (rootActivation function callee') where
  id := rfl
  started := Nat.zero_lt_one
  kind := counterpart.kind
  locals := counterpart.locals
  mapped := rfl
  params parameter parameter' mapped := by
    have found := counterpart.params.getElem? embedding.params_inj parameter parameter'
      (by rwa [Nat.zero_add, Nat.zero_add])
    change Option.Rel _ (callee.params.mapIdx _)[parameter]? (callee'.params.mapIdx _)[parameter']?
    rw [List.getElem?_mapIdx, List.getElem?_mapIdx]
    generalize callee.params[parameter]? = param at found
    generalize callee'.params[parameter']? = param' at found
    cases found with
    | none => exact .none
    | some same => exact .some ⟨.argument Nat.zero_lt_one mapped, rfl, rfl, same.2, rfl⟩

/-- **Refinement.**  Unless a call from the host loses its meaning, the other program
shows the same behaviour. -/
theorem Corresponds.enter (corresponds : Corresponds machine functions table excused budget)
    (depth : Nat) (function : FunctionId)
    (positions : ∀ parameter parameter', (table function).params parameter = some parameter' →
      parameter' = parameter) {args : List Data} (host : HostData memory args) :
    (∃ reason, (machine.enter budget depth function args memory).2 = .stop reason
      ∧ (reason.Escapes ∨ excused (machine.enter budget depth function args memory).1))
    ∨ SameBehavior (machine.enter budget depth function args memory)
        ((machine.withFunctions functions).enter budget depth function args memory) := by
  have counterparts := corresponds.counterparts function
  rcases found : machine.program.functions[function]? with _ | callee
  · refine .inl ⟨.stuck, ?_, .inl trivial⟩
    unfold Machine.enter
    rw [found]
  · rw [found] at counterparts
    rcases found' : functions[function]? with _ | callee'
    · rw [found'] at counterparts
      cases counterparts
    · rw [found'] at counterparts
      cases counterparts with
      | some counterpart =>
        have acts := rootActivation_corresponds function counterpart
        have related : (World.initial (table function)).Related
            { memory := rootMemory memory args, next := 1 }
            { memory := rootMemory memory args, next := 1 } :=
          ⟨rootMemory_corresponds host positions, rfl, rfl, rfl⟩
        have ends := corresponds.invoke depth (World.initial (table function))
          (rootActivation function callee) (rootActivation function callee')
          { memory := rootMemory memory args, next := 1 }
          { memory := rootMemory memory args, next := 1 }
          ⟨found, found', rfl, rfl⟩ related acts.toActivations
        have target : (machine.withFunctions functions).program.functions[function]?
            = some callee' := found'
        have enter : machine.enter budget depth function args memory
            = machine.invoke budget depth (rootActivation function callee)
              { memory := rootMemory memory args, next := 1 } := by
          unfold Machine.enter
          rw [found]
        have enter' : (machine.withFunctions functions).enter budget depth function args memory
            = (machine.withFunctions functions).invoke budget depth
              (rootActivation function callee')
              { memory := rootMemory memory args, next := 1 } := by
          unfold Machine.enter
          rw [target]
        rw [enter, enter']
        exact SameBehavior.of_ends ends

end Functions

/-- Scalars do not refer to storage. -/
theorem HostData.silent (arguments : List ScalarValue) :
    HostData .silent (arguments.map fun argument => .leaf (.scalar argument)) where
  memory object path leaf found := by
    cases object with
    | localVar | argument | constData => cases found
    | input | output | buffer | state | param | eventParam | payload =>
      cases found
      intro desc slice
      cases slice
  args data mem entry entryMem := by
    obtain ⟨argument, -, rfl⟩ := List.mem_map.mp mem
    cases List.mem_singleton.mp entryMem
    intro desc slice
    cases slice

/-! ### Passes that keep declarations -/

/-- Nothing is renamed. -/
def Embedding.identity : Embedding where
  toMapping := .identity
  writes_of_locals _ _ mapped := mapped
  writes_inj _ _ _ one two := by cases one; cases two; rfl
  params_inj _ _ _ one two := by cases one; cases two; rfl

/-- A function with another body. -/
theorem Counterpart.ofBody (callee : Function) (body : Block) :
    Counterpart .identity callee { callee with body := body } where
  kind := rfl
  locals localId localId' mapped := by
    cases mapped
    rfl
  params := .ofForall₂ (List.forall₂_same.mpr fun _ _ => ⟨rfl, rfl⟩) 0

theorem counterparts_ofBodies (functions : List Function) (pass : Function → Block)
    (function : FunctionId) :
    Option.Rel (Counterpart .identity) functions[function]?
      (functions.map fun callee => { callee with body := pass callee })[function]? := by
  rw [List.getElem?_map]
  cases functions[function]? with
  | none => exact .none
  | some callee => exact .some (.ofBody callee (pass callee))

/-- A pass over the bodies of all functions. -/
theorem Corresponds.ofBodies {machine : Machine} {excused : State → Prop} {budget : Nat}
    (pass : Function → Block)
    (bodies : ∀ callee invoke invoke' act act', act.function = callee →
      InvokesAlike machine (machine.program.functions.map fun callee =>
        { callee with body := pass callee }) (fun _ => .identity) excused invoke invoke' →
      (simulation excused .identity act act').Runs
        (execBlock (act.semantics machine invoke) budget callee.body)
        (execBlock (act'.semantics (machine.withFunctions
          (machine.program.functions.map fun callee => { callee with body := pass callee }))
          invoke') budget (pass callee))) :
    Corresponds machine
      (machine.program.functions.map fun callee => { callee with body := pass callee })
      (fun _ => .identity) excused budget where
  counterparts := counterparts_ofBodies machine.program.functions pass
  bodies function callee callee' invoke invoke' act act' found found' alike _ source _ _ := by
    rw [List.getElem?_map, found] at found'
    cases found'
    exact bodies callee invoke invoke' act act' source alike

/-! ### Chains of passes -/

theorem SameBehavior.trans {first second third : State × Outcome (List Data) Stop}
    (one : SameBehavior first second) (two : SameBehavior second third) :
    SameBehavior first third where
  visible := two.visible.trans one.visible
  outcome := two.outcome.trans one.outcome
  memory object path global :=
    (two.memory object path global).trans (one.memory object path global)

/-- A run that shows the same behaviour stops for the same reason. -/
theorem SameBehavior.stop {run run' : State × Outcome (List Data) Stop}
    (same : SameBehavior run run') {reason : Stop} (stopped : run'.2 = .stop reason) :
    run.2 = .stop reason := by
  have outcome := same.outcome
  rw [stopped] at outcome
  rcases ended : run.2 with _ | _ | _ | values | other
  all_goals
    rw [ended] at outcome
    cases outcome
  rfl

end Onda.Mir
