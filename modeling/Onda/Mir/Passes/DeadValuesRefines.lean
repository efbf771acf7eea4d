import Onda.Mir.Minimal
import Onda.Mir.Passes.DeadValues
import Onda.Mir.ProgramRefinement
import Onda.Mir.Validate.References

/-!
# Removal of dead values preserves behaviour

What a statement that stays reads is live, so the two runs need to agree on live
locals only.  The other locals that stay are still stored to; those that are gone
are neither read nor stored to.
-/

namespace Onda.Mir

open Structured Structured.Eval Simulation Renumber Analysis Validate

namespace DeadValues

/-! ### Liveness -/

section Liveness

variable {types : List MirType} {locals : List Local} {statements : List Statement}

/-- A statement that stays reads live locals. -/
theorem reads_live {statement : Statement} (mem : statement ∈ statements)
    (stays : isDead types locals (liveLocals types locals statements) statement = false) :
    ∀ localId ∈ statementReads statement, localId ∈ liveLocals types locals statements := by
  intro localId reads
  have closed (node : LocalId) : node ∈ liveLocals types locals statements ↔
      Reach.Reaches (dependencies types locals statements) (roots types locals statements) node :=
    Reach.mem_closure (dependencies_read types locals statements)
  rcases destination : discardableDestination types locals statement with _ | target
  · refine (closed localId).mpr (.root (List.mem_flatMap.mpr ⟨statement, mem, ?_⟩))
    rwa [if_pos destination]
  · have live : target ∈ liveLocals types locals statements := by
      simpa [isDead, destination] using stays
    refine (closed localId).mpr (.next ((closed target).mp live) (List.mem_flatMap.mpr ⟨statement, mem, ?_⟩))
    rwa [if_pos destination]

end Liveness

section Retained

theorem appendSubset {α : Type} {first first' second second' : List α} (one : first ⊆ first')
    (two : second ⊆ second') : first ++ second ⊆ first' ++ second' :=
  List.append_subset.mpr ⟨List.subset_append_of_subset_left _ one,
    List.subset_append_of_subset_right _ two⟩

variable {types : List MirType} {locals : List Local}

mutual

theorem retainStatement_references (live : List LocalId) : ∀ (statement : Statement),
    nestedWrites (retainStatement types locals live statement) ⊆ nestedWrites statement ∧
    nestedReads (retainStatement types locals live statement) ⊆ nestedReads statement
  | .op _ | .brk | .cont | .ret _ => ⟨List.Subset.refl _, List.Subset.refl _⟩
  | .loop body => retainLiveAssignments_references live body
  | .ite _ thenBlock elseBlock => by
    have first := retainLiveAssignments_references live thenBlock
    have second := retainLiveAssignments_references live elseBlock
    exact ⟨appendSubset first.1 second.1, appendSubset
      (List.Subset.refl _) (appendSubset first.2 second.2)⟩

/-- What is retained mentions nothing new. -/
theorem retainLiveAssignments_references (live : List LocalId) : ∀ (block : Block),
    blockWrites (retainLiveAssignments types locals live block) ⊆ blockWrites block ∧
    blockReads (retainLiveAssignments types locals live block) ⊆ blockReads block
  | [] => ⟨List.Subset.refl _, List.Subset.refl _⟩
  | statement :: rest => by
    have first := retainStatement_references live statement
    have second := retainLiveAssignments_references live rest
    unfold retainLiveAssignments
    split
    · exact ⟨List.subset_append_of_subset_right _ second.1,
        List.subset_append_of_subset_right _ second.2⟩
    · exact ⟨appendSubset first.1 second.1,
        appendSubset first.2 second.2⟩

end

variable {statements : List Statement}

mutual

theorem retainStatement_live : ∀ (statement : Statement),
    isDead types locals (liveLocals types locals statements) statement = false →
    nestedStatements statement ⊆ statements → ∀ localId ∈
      nestedReads (retainStatement types locals (liveLocals types locals statements) statement),
      localId ∈ liveLocals types locals statements
  | .op operation, stays, inside, localId, mem =>
    reads_live (inside (by simp [nestedStatements])) stays localId mem
  | .ret values, stays, inside, localId, mem =>
    reads_live (inside (by simp [nestedStatements])) stays localId mem
  | .brk, _, _, localId, mem | .cont, _, _, localId, mem => by simp [retainStatement, nestedReads] at mem
  | .loop body, _, inside, localId, mem =>
    retainLiveAssignments_live body (fun _ inner => inside (by simp [nestedStatements, inner]))
      localId mem
  | .ite condition thenBlock elseBlock, stays, inside, localId, mem => by
    rw [retainStatement, nestedReads, List.mem_append, List.mem_append] at mem
    rcases mem with mem | mem | mem
    · exact reads_live (inside (by simp [nestedStatements])) stays localId mem
    · exact retainLiveAssignments_live thenBlock
        (fun _ inner => inside (by simp [nestedStatements, inner])) localId mem
    · exact retainLiveAssignments_live elseBlock
        (fun _ inner => inside (by simp [nestedStatements, inner])) localId mem

/-- What is retained reads live locals. -/
theorem retainLiveAssignments_live : ∀ (block : Block), allStatements block ⊆ statements →
    ∀ localId ∈
      blockReads (retainLiveAssignments types locals (liveLocals types locals statements) block),
      localId ∈ liveLocals types locals statements
  | [], _, localId, mem => by simp [retainLiveAssignments, blockReads] at mem
  | statement :: rest, inside, localId, mem => by
    have head : nestedStatements statement ⊆ statements :=
      fun _ inner => inside (by simp [allStatements, inner])
    have tail : allStatements rest ⊆ statements :=
      fun _ inner => inside (by simp [allStatements, inner])
    unfold retainLiveAssignments at mem
    split at mem
    · exact retainLiveAssignments_live rest tail localId mem
    case isFalse stays =>
      rcases List.mem_append.mp mem with mem | mem
      · exact retainStatement_live statement (by simpa using stays) head localId mem
      · exact retainLiveAssignments_live rest tail localId mem

end

end Retained

/-! ### The embedding -/

section Embedding

variable (types : List MirType) (function : Function)

/-- The live locals of a function. -/
def live : List LocalId := liveLocals types function.locals (allStatements function.body)

/-- The locals that stay. -/
def mask : List Bool :=
  referencedMask function.locals.length (remove types function.locals function.body)

/-- Live locals correspond; the others that stay are only stored to. -/
def embedding : Embedding where
  locals localId := if localId ∈ live types function then position 0 (mask types function) localId
    else none
  writes := position 0 (mask types function)
  params := some
  writes_of_locals localId id found := by
    split at found
    · exact found
    · cases found
  writes_inj _ _ _ := position_inj
  params_inj _ _ _ one two := (Option.some.inj one).trans (Option.some.inj two).symm

end Embedding

variable {types : List MirType} {function : Function}

theorem mask_length : (mask types function).length = function.locals.length := by
  simp [mask, referencedMask]

theorem mask_referenced {localId : LocalId} (inside : localId < function.locals.length)
    (mem : localId ∈ referencedLocals (remove types function.locals function.body)) :
    (mask types function)[localId]? = some true := by
  simp [mask, referencedMask, inside, mem]

/-- The local keeps a place in the new function. -/
def Stays (types : List MirType) (function : Function) (localId : LocalId) : Prop :=
  (mask types function)[localId]? = some true

theorem Stays.writes {localId : LocalId} (stays : Stays types function localId) :
    Agree ((Mapping.ofLocals (numbers 0 (mask types function))).writes localId)
      ((embedding types function).writes localId) := by
  obtain ⟨id, found⟩ := Option.isSome_iff_exists.mp ((position_isSome 0 _ localId).mpr stays)
  exact ⟨id, found, found⟩

theorem Stays.locals {localId : LocalId} (stays : Stays types function localId)
    (alive : localId ∈ live types function) :
    Agree ((Mapping.ofLocals (numbers 0 (mask types function))).locals localId)
      ((embedding types function).locals localId) := by
  obtain ⟨id, found⟩ := Option.isSome_iff_exists.mp ((position_isSome 0 _ localId).mpr stays)
  exact ⟨id, found, (if_pos alive).trans found⟩

variable (types) in
/-- The rewrite of the new body is defined, and the embedding rewrites it alike. -/
theorem remove_agree {program : Program} {depth : Nat}
    (valid : validateBlock program function depth function.body = []) :
    Agree (rewriteBlock (.ofLocals (numbers 0 (mask types function)))
        (remove types function.locals function.body))
      (rewriteBlock (embedding types function).toMapping
        (remove types function.locals function.body)) := by
  have declared := validateBlock_declared function.body valid
  have kept := @retainLiveAssignments_references types function.locals
    (live types function) function.body
  refine Mapping.AgreeOn.block ⟨fun localId mem => ?_, fun parameter _ => .some parameter⟩
    fun localId mem => ?_
  · have stays : Stays types function localId := mask_referenced (declared.2 localId (kept.2 mem))
      (List.mem_append_right _ mem)
    exact stays.locals (retainLiveAssignments_live function.body (List.Subset.refl _) localId mem)
  · have stays : Stays types function localId := mask_referenced (declared.1 localId (kept.1 mem))
      (List.mem_append_left _ mem)
    exact stays.writes

end DeadValues

/-! ### Dropped statements -/

/-- The event executes a dropped statement that loads from a table without
elements. -/
def TraceEvent.DropsFailure (program : Program) : TraceEvent → Prop
  | .step _ functionId (.operation (.assign destination value)) _ =>
    value.LoadsEmpty program ∧ ∃ function, program.functions[functionId]? = some function ∧
      DeadValues.isDead program.types function.locals (DeadValues.live program.types function)
        (.op (.assign destination value)) = true
  | _ => False

/-- The run executes such a statement. -/
def State.DropsFailure (program : Program) (state : State) : Prop :=
  ∃ event ∈ state.trace, event.DropsFailure program

namespace DeadValues

theorem loadsEmpty_fails {machine : Machine} {act : Activation} {env : Memory} {value : Rvalue}
    (empty : value.LoadsEmpty machine.program) :
    ∃ reason, (evalRvalue machine act value env).2 = .error reason := by
  rcases evaluated : (evalRvalue machine act value env).2 with reason | data
  · exact ⟨reason, rfl⟩
  · cases value with
    | constDataLoad data index bounds =>
      cases bounds with
      | clamp =>
        obtain ⟨declared, found, none⟩ := empty
        obtain ⟨declared', found', evaluated⟩ := bind_ok evaluated
        obtain rfl : declared' = declared := Option.some.inj ((orThrow_ok found').symm.trans found)
        obtain ⟨position, -, evaluated⟩ := bind_ok evaluated
        obtain ⟨position', normalized, -⟩ := bind_ok evaluated
        simp [none, normalizeIndex, ofExcept] at normalized
      | checked | unchecked => exact empty.elim
    | _ => exact empty.elim

section Statements

variable {machine : Machine} {functions : List Function} {act act' : Activation}
  {invoke invoke' : Invoke} {budget : Nat}

/-- The stores of an assignment to a local without a counterpart are private. -/
theorem stores_private {world : World} {embedding : Embedding} {env : Memory}
    (acts : world.Executing embedding act act') {localId : LocalId}
    (unmapped : embedding.locals localId = none) (value : Rvalue) :
    Returns env (fun stores => ∀ store ∈ stores, world.Private store)
      (evalStores machine act (.assign ⟨.localVar localId, []⟩ value)) := by
  intro stores run store mem
  obtain ⟨root, loc, data, single, rfl, denotes, -, fills⟩ := evalAssign_returns _ value stores run
  obtain rfl := List.mem_singleton.mp mem
  obtain rfl := denotes.whole rfl
  obtain ⟨declared, -, rfl⟩ := Activation.localLoc_eq denotes.base
  have object : store.object = .localVar act.id localId := fills.into.object
  refine ⟨fun other objects => ?_, fun activation owned => ?_⟩
  · rw [object] at objects
    cases objects with
    | localVar started mapped =>
      rw [acts.mapped, unmapped] at mapped
      cases mapped
    | shared global => cases global
  · rw [object] at owned
    cases owned
    exact acts.started

/-- An assignment that cannot fail is not seen. -/
theorem assign_quiet (nonempty : machine.program.Nonempty) {env : Memory} {localId : LocalId}
    {value : Rvalue}
    (valid : validateOperation machine.program act.function (.assign ⟨.localVar localId, []⟩ value)
      = [])
    (filled : ¬value.LoadsEmpty machine.program)
    (total : rvalueMayFail machine.program.types act.function.locals value = false) :
    Quiet env (evalStores machine act (.assign ⟨.localVar localId, []⟩ value)) := by
  obtain ⟨rvalueValid, expected, matched⟩ := validateAssign_local valid
  refine .bind (lowerPlace_quiet nonempty rfl) fun loc => ?_
  refine .bind (rvalue_quiet nonempty rvalueValid matched filled total) fun data => ?_
  exact .bind (storeLoc_quiet loc data _) fun _ => .pure _

/-- The other run may leave out an assignment to a dead local. -/
theorem dropped_runs (nonempty : machine.program.Nonempty)
    (source : machine.program.functions[act.functionId]? = some act.function) {statement : Statement}
    {depth : Nat} (valid : validateStatement machine.program act.function depth statement = [])
    (dead : isDead machine.program.types act.function.locals
      (live machine.program.types act.function) statement = true) :
    (simulation (State.DropsFailure machine.program) (embedding machine.program.types act.function)
        act act').Runs
      (Stm.exec (act.semantics machine invoke) budget statement) fun state' => (state', .fall) := by
  obtain ⟨localId, value, rfl, total, notLive⟩ : ∃ localId value,
      statement = .op (.assign ⟨.localVar localId, []⟩ value) ∧
      rvalueMayFail machine.program.types act.function.locals value = false ∧
      localId ∉ live machine.program.types act.function := by
    unfold isDead discardableDestination at dead
    split at dead
    · split at dead
      · cases dead
      case isFalse localId value total =>
        exact ⟨localId, value, rfl, by simpa using total, by simpa using dead⟩
    · cases dead
  intro world state state' states
  rw [exec_op]
  change (simulation (State.DropsFailure machine.program)
    (embedding machine.program.types act.function) act act').Ends world
    (ofOp (operate machine act invoke (.assign ⟨.localVar localId, []⟩ value) state))
    (state', .fall)
  have plain : (Operation.assign ⟨.localVar localId, []⟩ value).Plain := trivial
  rw [operate_plain plain, ofOp_perform]
  have reached : world.Related
      (state.reach act (.operation (.assign ⟨.localVar localId, []⟩ value))) state' :=
    states.1.note_left rfl
  rcases ended : (evalStores machine act (.assign ⟨.localVar localId, []⟩ value) state.memory).2
    with reason | stores
  · -- The source fails: on a table without elements, or without a meaning.
    have run : (state.reach act (.operation (.assign ⟨.localVar localId, []⟩ value))).run
        (evalStores machine act (.assign ⟨.localVar localId, []⟩ value))
          = (_, .error reason) := Prod.ext rfl ended
    rw [run]
    refine .escape ?_
    by_cases empty : value.LoadsEmpty machine.program
    · refine .inr ⟨_, List.mem_append_right _ List.mem_cons_self, empty, act.function, source, dead⟩
    · exact .inl ((assign_quiet nonempty valid empty total).error (fun _ _ => trivial) reason ended)
  · have filled : ¬value.LoadsEmpty machine.program := by
      intro empty
      obtain ⟨reason, failed⟩ := @loadsEmpty_fails _ act state.memory _ empty
      obtain ⟨loc, -, evaluated⟩ := bind_ok ended
      obtain ⟨data, evaluated, -⟩ := bind_ok evaluated
      rw [failed] at evaluated
      cases evaluated
    have hidden : ∀ event ∈ (evalStores machine act (.assign ⟨.localVar localId, []⟩ value)
        state.memory).1, observer.visible event = none :=
      (assign_quiet nonempty valid filled total).events fun _ _ => trivial
    have run : (state.reach act (.operation (.assign ⟨.localVar localId, []⟩ value))).run
        (evalStores machine act (.assign ⟨.localVar localId, []⟩ value))
          = (_, .ok stores) := Prod.ext rfl ended
    rw [run]
    exact .fall le_rfl ⟨(reached.run_left hidden).commit_left
      (stores_private states.2 (if_neg notLive) value stores ended) act.id, states.2⟩

/-! ### Bodies -/

section Bodies

set_option linter.unusedSectionVars false

variable {table : FunctionId → Embedding} (nonempty : machine.program.Nonempty)
  (source : machine.program.functions[act.functionId]? = some act.function)
  (alike : InvokesAlike machine functions table (State.DropsFailure machine.program) invoke invoke')
  (counterparts : ∀ function : FunctionId, Option.Rel (Counterpart (table function))
    machine.program.functions[function]? functions[function]?)
  (keeps : ∀ function, (table function).params = some)
include nonempty source alike counterparts keeps

mutual

theorem retainStatement_runs : ∀ {depth : Nat} (statement statement' : Statement),
    validateStatement machine.program act.function depth statement = [] →
    rewriteStatement (embedding machine.program.types act.function).toMapping
      (retainStatement machine.program.types act.function.locals
        (live machine.program.types act.function) statement) = some statement' →
    (simulation (State.DropsFailure machine.program) (embedding machine.program.types act.function)
        act act').Runs
      (Stm.exec (act.semantics machine invoke) budget statement)
      (Stm.exec (act'.semantics (machine.withFunctions functions) invoke') budget statement')
  | _, .op operation, statement', valid, rewritten => by
    obtain ⟨operation', inner, rfl⟩ := Option.map_eq_some_iff.mp rewritten
    exact runs_rewritten alike counterparts keeps inner
  | _, .ite condition thenBlock elseBlock, statement', valid, rewritten => by
    simp only [retainStatement, rewriteStatement, Option.bind_eq_bind, Option.bind_eq_some_iff,
      Option.some.injEq] at rewritten
    obtain ⟨condition', conditionRewritten, thenBlock', thenRewritten, elseBlock', elseRewritten,
      rfl⟩ := rewritten
    simp only [validateStatement, List.append_eq_nil_iff] at valid
    exact runs_condition conditionRewritten
      (retainLiveAssignments_runs thenBlock thenBlock' valid.1.2 thenRewritten)
      (retainLiveAssignments_runs elseBlock elseBlock' valid.2 elseRewritten)
  | _, .loop body, statement', valid, rewritten => by
    obtain ⟨body', inner, rfl⟩ := Option.map_eq_some_iff.mp rewritten
    exact runs_loop semantics_agrees (retainLiveAssignments_runs body body' valid inner)
  | _, .brk, statement', _, rewritten => by
    cases rewritten
    exact runs_brk
  | _, .cont, statement', _, rewritten => by
    cases rewritten
    exact runs_cont
  | _, .ret values, statement', _, rewritten => by
    obtain ⟨values', inner, rfl⟩ := Option.map_eq_some_iff.mp rewritten
    exact runs_return inner

theorem retainLiveAssignments_runs : ∀ {depth : Nat} (block block' : Block),
    validateBlock machine.program act.function depth block = [] →
    rewriteBlock (embedding machine.program.types act.function).toMapping
      (retainLiveAssignments machine.program.types act.function.locals
        (live machine.program.types act.function) block) = some block' →
    (simulation (State.DropsFailure machine.program) (embedding machine.program.types act.function)
        act act').Runs
      (execBlock (act.semantics machine invoke) budget block)
      (execBlock (act'.semantics (machine.withFunctions functions) invoke') budget block')
  | _, [], block', _, rewritten => by
    cases rewritten
    exact runs_nil
  | _, statement :: rest, block', valid, rewritten => by
    simp only [validateBlock, List.append_eq_nil_iff] at valid
    unfold retainLiveAssignments at rewritten
    split at rewritten
    case isTrue dead =>
      exact runs_skip (dropped_runs nonempty source valid.1 dead)
        (retainLiveAssignments_runs rest block' valid.2 rewritten)
    case isFalse stays =>
      simp only [rewriteBlock, Option.bind_eq_bind, Option.bind_eq_some_iff,
        Option.some.injEq] at rewritten
      obtain ⟨statement', headRewritten, rest', tailRewritten, rfl⟩ := rewritten
      exact runs_cons (retainStatement_runs statement statement' valid.1 headRewritten)
        (retainLiveAssignments_runs rest rest' valid.2 tailRewritten)

end

end Bodies

end Statements

/-! ### Programs -/

/-- The correspondence of the locals of each function. -/
def embeddings (program : Program) (function : FunctionId) : Embedding :=
  match program.functions[function]? with
  | some callee => embedding program.types callee
  | none => .identity

theorem embeddings_params (program : Program) (function : FunctionId) :
    (embeddings program function).params = some := by
  unfold embeddings
  split <;> rfl

/-- A function after the pass. -/
structure Cleaned (types : List MirType) (callee callee' : Function) : Prop where
  counterpart : Counterpart (embedding types callee) callee callee'
  body : rewriteBlock (embedding types callee).toMapping (remove types callee.locals callee.body)
    = some callee'.body

theorem removeDeadPureLocals_cleaned {program : Program} (validated : program.Validated)
    {callee : Function} (mem : callee ∈ program.functions) :
    ∃ callee', callee.removeDeadPureLocals program.types = some callee' ∧
      Cleaned program.types callee callee' := by
  obtain ⟨body, renumbered, rewritten⟩ :=
    remove_agree program.types (validated.bodies callee mem)
  refine ⟨{ callee with
    locals := kept (mask program.types callee) callee.locals, body := body }, ?_, ?_, rewritten⟩
  · change (rewriteBlock (.ofLocals (numbers 0 (mask program.types callee)))
      (remove program.types callee.locals callee.body)).bind _ = _
    rw [renumbered]
    rfl
  · refine ⟨rfl, fun localId localId' found => ?_, ?_⟩
    · rw [kept_getElem? mask_length.symm found]
    · exact .ofForall₂ (List.forall₂_same.mpr fun _ _ => ⟨rfl, rfl⟩) 0

end DeadValues

/-- Every function survives the pass. -/
theorem Program.removeDeadPureLocals_some {program : Program} (validated : program.Validated) :
    ∃ functions, program.removeDeadPureLocals = some { program with functions := functions } ∧
      List.Forall₂ (DeadValues.Cleaned program.types) program.functions functions := by
  have each (callee : Function) (mem : callee ∈ program.functions) :=
    DeadValues.removeDeadPureLocals_cleaned validated mem
  have total : (program.functions.mapM fun callee : Function =>
      callee.removeDeadPureLocals program.types).isSome := by
    refine mapM_option_isSome fun callee mem => ?_
    obtain ⟨callee', cleaned, -⟩ := each callee mem
    rw [cleaned]
    rfl
  obtain ⟨functions, mapped⟩ := Option.isSome_iff_exists.mp total
  refine ⟨functions, by rw [Program.removeDeadPureLocals, mapped]; rfl, ?_⟩
  refine List.forall₂_iff_get.mpr ⟨(mapM_option_length mapped).symm, fun index inside inside' => ?_⟩
  obtain ⟨callee', cleaned, good⟩ := each _ (List.get_mem program.functions ⟨index, inside⟩)
  obtain ⟨result, same, found⟩ := mapM_option_get mapped (List.getElem?_eq_getElem inside)
  obtain rfl : result = callee' := Option.some.inj (same.symm.trans cleaned)
  rw [List.getElem?_eq_getElem inside', Option.some.injEq] at found
  rwa [List.get_eq_getElem, List.get_eq_getElem, found]

namespace DeadValues

theorem removeDeadPureLocals_corresponds {machine : Machine} {functions : List Function}
    (validated : machine.program.Validated)
    (cleaned : List.Forall₂ (Cleaned machine.program.types) machine.program.functions functions)
    (budget : Nat) :
    Corresponds machine functions (embeddings machine.program) (State.DropsFailure machine.program)
      budget := by
  have pairs (function : FunctionId) : Option.Rel (Cleaned machine.program.types)
      machine.program.functions[function]? functions[function]? := forall₂_getElem? cleaned function
  have counterparts (function : FunctionId) : Option.Rel
      (Counterpart (embeddings machine.program function))
      machine.program.functions[function]? functions[function]? := by
    have pair := pairs function
    unfold embeddings
    generalize machine.program.functions[function]? = callee at pair ⊢
    generalize functions[function]? = callee' at pair
    cases pair with
    | none => exact .none
    | some cleaned => exact .some cleaned.counterpart
  refine ⟨counterparts, ?_⟩
  intro function callee callee' invoke invoke' act act' found found' alike same source _ _
  subst same source
  have pair := pairs act.functionId
  rw [found, found'] at pair
  have table : embeddings machine.program act.functionId
      = embedding machine.program.types act.function := by
    unfold embeddings
    rw [found]
  rw [table]
  cases pair with
  | some cleaned =>
    exact retainLiveAssignments_runs validated.nonempty found alike counterparts
      (embeddings_params machine.program) act.function.body callee'.body
      (validated.bodies _ (List.mem_of_getElem? found)) cleaned.body

end DeadValues

/-- **Removal of dead values.**  The pass has a result, gives different locals of a
function different new ids, and unless a dropped statement fails on a table without
elements, every call from the host shows the same behaviour. -/
theorem Program.removeDeadPureLocals_preserves (program : Program) (validated : program.Validated)
    (host : Host) (budget depth : Nat) (function : FunctionId) (args : List Data) (memory : Memory)
    (data : HostData memory args) :
    ∃ program', program.removeDeadPureLocals = some program' ∧
      (∀ callee ∈ program.functions, ∀ first second id,
        position 0 (DeadValues.mask program.types callee) first = some id →
        position 0 (DeadValues.mask program.types callee) second = some id → first = second) ∧
      ((∀ event ∈ (Machine.enter ⟨program, host⟩ budget depth function args memory).1.trace,
          ¬event.DropsFailure program) →
        (∃ reason, (Machine.enter ⟨program, host⟩ budget depth function args memory).2
          = .stop reason ∧ reason.Escapes)
        ∨ SameBehavior (Machine.enter ⟨program, host⟩ budget depth function args memory)
            (Machine.enter ⟨program', host⟩ budget depth function args memory)) := by
  obtain ⟨functions, result, cleaned⟩ := Program.removeDeadPureLocals_some validated
  refine ⟨_, result, fun _ _ _ _ _ => position_inj, fun meets => ?_⟩
  have corresponds : Corresponds ⟨program, host⟩ functions (DeadValues.embeddings program)
      (State.DropsFailure program) budget :=
    DeadValues.removeDeadPureLocals_corresponds validated cleaned budget
  have positions (parameter parameter' : ParameterId)
      (mapped : (DeadValues.embeddings program function).params parameter = some parameter') :
      parameter' = parameter := by
    rw [DeadValues.embeddings_params] at mapped
    exact (Option.some.inj mapped).symm
  rcases corresponds.enter depth _ positions data with ⟨reason, stopped, escapes | excused⟩ | same
  · exact .inl ⟨reason, stopped, escapes⟩
  · obtain ⟨event, mem, drops⟩ := excused
    exact absurd drops (meets event mem)
  · exact .inr same

/-- A load from a table without elements, to a local that nothing reads. -/
def loadsEmptyTable : Program :=
  { Program.minimal [] {} [{ ty := 1 }]
      [.op (.assign ⟨.localVar 0, []⟩ (.constDataLoad 0 (.i32 0) .clamp))] with
    constData := [{ name := "table", element := .f32, values := [] }] }

theorem loadsEmptyTable_remove :
    DeadValues.remove loadsEmptyTable.types [{ ty := 1 }]
      [.op (.assign ⟨.localVar 0, []⟩ (.constDataLoad 0 (.i32 0) .clamp))] = [] := by
  have live : DeadValues.liveLocals loadsEmptyTable.types [{ ty := 1 }]
      (DeadValues.allStatements
        [.op (.assign ⟨.localVar 0, []⟩ (.constDataLoad 0 (.i32 0) .clamp))]) = [] :=
    Reach.loop_nil _ _
  unfold DeadValues.remove
  rw [live]
  rfl

theorem loadsEmptyTable_result :
    loadsEmptyTable.removeDeadPureLocals = some { loadsEmptyTable with
      functions := (Program.minimal [] {} [] []).functions } := by
  have process (function : Function) (locals : function.locals = [{ ty := 1 }])
      (body : function.body =
        [.op (.assign ⟨.localVar 0, []⟩ (.constDataLoad 0 (.i32 0) .clamp))]) :
      function.removeDeadPureLocals loadsEmptyTable.types
        = some { function with locals := [], body := [] } := by
    unfold Function.removeDeadPureLocals
    rw [locals, body, loadsEmptyTable_remove]
    rfl
  have second := process
    { name := "process", kind := .process, params := processParams, locals := [{ ty := 1 }],
      body := [.op (.assign ⟨.localVar 0, []⟩ (.constDataLoad 0 (.i32 0) .clamp))] } rfl rfl
  change (do
    let functions ← [_, _].mapM fun callee : Function =>
      callee.removeDeadPureLocals loadsEmptyTable.types
    some { loadsEmptyTable with functions := functions }) = _
  rw [List.mapM_cons, List.mapM_cons, second]
  rfl

/-- The load fails, and after the pass nothing does. -/
theorem Program.removeDeadPureLocals_losesFailure :
    loadsEmptyTable.Accepted ∧
    (loadsEmptyTable.onSilentHost.process 8 2).2 = .stop .failure ∧
    ∃ program', loadsEmptyTable.removeDeadPureLocals = some program' ∧
      (program'.onSilentHost.process 8 2).2 = .fall :=
  ⟨by decide +kernel, rfl, _, loadsEmptyTable_result, rfl⟩

/-- One dead local, and one that is stored. -/
def storesSum : Program :=
  { Program.minimal [] {} [{ ty := 0 }, { ty := 0 }]
      [.op (.assign ⟨.localVar 0, []⟩ (.binary .add (.i32 1) (.i32 1))),
       .op (.assign ⟨.localVar 1, []⟩ (.binary .add (.i32 2) (.i32 3))),
       .op (.assign ⟨.state 0, []⟩ (.use (.localVar 1)))] with
    state := [{ name := "sum", ty := 0, persistence := .snapshot }] }

theorem Program.removeDeadPureLocals_preserves_sum :
    ∃ program', storesSum.removeDeadPureLocals = some program' ∧
      ((∃ reason, (storesSum.onSilentHost.process 8 2).2 = .stop reason ∧ reason.Escapes)
        ∨ SameBehavior (storesSum.onSilentHost.process 8 2)
            (Machine.enter ⟨program', .silent⟩ 8 2 1
              [.leaf (.scalar (.i32 0)), .leaf (.scalar (.i32 16)), .leaf (.scalar (.i32 0))]
              .silent)) := by
  have accepted : storesSum.Accepted := by decide +kernel
  obtain ⟨program', result, -, preserves⟩ :=
    Program.removeDeadPureLocals_preserves storesSum accepted.validated .silent 8 2 1 _ .silent
      (.silent [.i32 0, .i32 16, .i32 0])
  refine ⟨program', result, preserves fun event _ drops => ?_⟩
  -- There are no tables.
  unfold TraceEvent.DropsFailure at drops
  split at drops
  case h_1 =>
    obtain ⟨empty, -⟩ := drops
    unfold Rvalue.LoadsEmpty at empty
    split at empty
    · obtain ⟨declared, found, -⟩ := empty
      cases found
    · exact empty
  case h_2 => exact drops

end Onda.Mir
