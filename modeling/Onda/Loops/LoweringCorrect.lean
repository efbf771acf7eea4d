import Onda.Lib.Refinement
import Onda.Loops.Lowering

/-!
# The structured lowering is right

Lowered statements do what the source does.  They leave the locals below `next` alone,
except that a `continue` of a `for` body has already run the latch.  A loop with a static
plan needs nothing for that; a guarded loop needs that no increment leaves the type.
-/

namespace Onda.Loops

open Structured Structured.Simulation

variable {S C E D F : Type}

/-! ### Locals -/

/-- The locals below `next` are the same. -/
def Same (next : Nat) (locals locals' : Nat → Int) : Prop := ∀ id < next, locals' id = locals id

theorem Same.refl (next : Nat) (locals : Nat → Int) : Same next locals locals := fun _ _ => rfl

theorem Same.trans {next : Nat} {locals middle locals' : Nat → Int} (first : Same next locals middle)
    (second : Same next middle locals') : Same next locals locals' :=
  fun id below => (second id below).trans (first id below)

theorem Same.mono {next later : Nat} {locals locals' : Nat → Int} (same : Same later locals locals')
    (le : next ≤ later) : Same next locals locals' :=
  fun id below => same id (by omega)

theorem Same.update (next : Nat) (locals : Nat → Int) {id : Nat} (value : Int) (above : next ≤ id) :
    Same next locals (Function.update locals id value) :=
  fun other below => Function.update_of_ne (by omega) _ _

def Value.Below (next : Nat) : Value → Prop
  | .constant _ => True
  | .localVar id => id < next

@[simp] theorem Value.eval_constant (locals : Nat → Int) (value : Int) :
    (Value.constant value).eval locals = value := rfl

theorem Value.Below.mono {value : Value} {next later : Nat} (below : value.Below next)
    (le : next ≤ later) : value.Below later := by
  cases value with
  | constant => trivial
  | localVar id => exact Nat.lt_of_lt_of_le below le

theorem Value.eval_same {value : Value} {next : Nat} {locals locals' : Nat → Int}
    (below : value.Below next) (same : Same next locals locals') :
    value.eval locals' = value.eval locals := by
  cases value with
  | constant value => rfl
  | localVar id => exact same id below

namespace ContinueMode

def Below (next : Nat) : ContinueMode → Prop
  | .plain => True
  | .forLoop index _ step last => index < next ∧ step.Below next ∧ ∀ value ∈ last, value.Below next

theorem Below.mono {mode : ContinueMode} {next later : Nat} (below : mode.Below next)
    (le : next ≤ later) : mode.Below later := by
  cases mode with
  | plain => trivial
  | forLoop index ty step last =>
    exact ⟨Nat.lt_of_lt_of_le below.1 le, below.2.1.mono le,
      fun value mem => (below.2.2 value mem).mono le⟩

/-- The latch, and what follows it if it does not leave the loop. -/
def again (mode : ContinueMode) (locals : Nat → Int) (data : D) (outcome : Outcome Unit (Halt F)) :
    ((Nat → Int) × D) × Outcome Unit (Halt F) :=
  match mode with
  | .plain => ((locals, data), outcome)
  | .forLoop index ty step none =>
    ((Function.update locals index (ty.wrap (locals index + step.eval locals)), data), outcome)
  | .forLoop index ty step (some last) =>
    if locals index = last.eval locals then ((locals, data), .brk)
    else ((Function.update locals index (ty.wrap (locals index + step.eval locals)), data), outcome)

end ContinueMode

section Running

variable {Y : Type} {lang : Lang S C E Y D F} {budget : Nat}

/-- A latch in front of a `continue` never falls through. -/
theorem again_cont_ne_fall (mode : ContinueMode) (locals : Nat → Int) (data : D) :
    (mode.again (F := F) locals data .cont).2 ≠ .fall := by
  cases mode with
  | plain => exact nofun
  | forLoop index ty step last =>
    cases last with
    | none => exact nofun
    | some last =>
      unfold ContinueMode.again
      dsimp only
      split <;> exact nofun

theorem again_last {index : Nat} {ty : InductionTy} {step last : Value} {locals : Nat → Int}
    {data : D} {outcome : Outcome Unit (Halt F)} :
    (ContinueMode.forLoop index ty step (some last)).again locals data outcome
      = if locals index = last.eval locals then ((locals, data), .brk)
        else ((Function.update locals index (ty.wrap (locals index + step.eval locals)), data),
          outcome) := rfl

theorem andThen_assign (destination : Nat) (value : Value)
    (rest : (Nat → Int) × D → ((Nat → Int) × D) × Outcome Unit (Halt F)) (locals : Nat → Int)
    (data : D) :
    andThen (Stm.exec (mirSem lang) budget (.op (.assign destination value))) rest (locals, data)
      = rest (Function.update locals destination (value.eval locals), data) := rfl

theorem exec_compare (op : CompareOp) (lhs rhs : Value) (thenBlock elseBlock : MirBlock S C E)
    (locals : Nat → Int) (data : D) :
    Stm.exec (mirSem lang) budget (.ite (.compare op lhs rhs) thenBlock elseBlock) (locals, data)
      = if op.Holds (lhs.eval locals) (rhs.eval locals)
        then execBlock (mirSem lang) budget thenBlock (locals, data)
        else execBlock (mirSem lang) budget elseBlock (locals, data) := by
  unfold Stm.exec
  simp only [mirSem]
  by_cases holds : op.Holds (lhs.eval locals) (rhs.eval locals)
  · rw [if_pos holds, decide_eq_true holds]
  · rw [if_neg holds, decide_eq_false holds]

theorem exec_latch (mode : ContinueMode) (locals : Nat → Int) (data : D) :
    execBlock (mirSem lang) budget mode.latch (locals, data) = mode.again locals data .fall := by
  cases mode with
  | plain => rfl
  | forLoop index ty step last =>
    cases last with
    | none => rfl
    | some last =>
      rw [ContinueMode.latch, emitForLatch, execBlock_singleton, exec_compare]
      rfl

theorem exec_latch_cont (mode : ContinueMode) (locals : Nat → Int) (data : D) :
    execBlock (mirSem lang) budget (mode.latch ++ [.cont]) (locals, data)
      = mode.again locals data .cont := by
  rw [execBlock_append, andThen, exec_latch]
  cases mode with
  | plain => rfl
  | forLoop index ty step last =>
    cases last with
    | none => rfl
    | some last =>
      unfold ContinueMode.again
      by_cases atLast : locals index = last.eval locals
      · simp [atLast]
      · simp [atLast]

/-- The guard falls through within the bound and leaves the loop otherwise. -/
theorem exec_guard {range : Range} {index : Nat} {stop step : Value} {locals : Nat → Int} (data : D)
    (stops : stop.eval locals = range.stop) (steps : step.eval locals = range.step) :
    execBlock (mirSem lang) budget (emitForGuard index stop step range.inclusive) (locals, data)
      = ((locals, data), if range.Within (locals index) then .fall else .brk) := by
  have passes : ∀ (op : CompareOp) (lhs rhs : Value),
      execBlock (mirSem lang) budget (pushGuardOrBreak (.compare op lhs rhs)) (locals, data)
        = ((locals, data), if op.Holds (lhs.eval locals) (rhs.eval locals) then .fall else .brk) := by
    intro op lhs rhs
    rw [pushGuardOrBreak, execBlock_singleton, exec_compare]
    split <;> rfl
  rw [emitForGuard, execBlock_singleton, exec_compare, passes, execBlock_singleton, exec_compare,
    passes, steps, stops]
  unfold Range.Within
  by_cases forward : 0 < range.step
  · have notBackward : ¬range.step < 0 := by omega
    by_cases inclusive : range.inclusive
    · simp [CompareOp.Holds, Value.eval, forward, notBackward, inclusive]
    · simp [CompareOp.Holds, Value.eval, forward, notBackward, inclusive]
  · by_cases backward : range.step < 0
    · by_cases inclusive : range.inclusive
      · simp [CompareOp.Holds, Value.eval, forward, backward, inclusive]
      · simp [CompareOp.Holds, Value.eval, forward, backward, inclusive]
    · simp [CompareOp.Holds, Value.eval, forward, backward]

end Running

/-! ### Correct code -/

/-- The variables of the loops are in the locals of the scope, and nothing that is read
lies above `next`. -/
structure Ready (mode : ContinueMode) (scope : List Nat) (next : Nat) (locals : Nat → Int)
    (env : List Int) : Prop where
  env_eq : env = scope.map locals
  scope_below : ∀ id ∈ scope, id < next
  mode_below : mode.Below next

theorem Ready.mono {mode : ContinueMode} {scope : List Nat} {next later : Nat}
    {locals locals' : Nat → Int} {env : List Int} (ready : Ready mode scope next locals env)
    (le : next ≤ later) (same : Same next locals locals') : Ready mode scope later locals' env where
  env_eq := ready.env_eq.trans
    (List.map_congr_left fun id mem => (same id (ready.scope_below id mem)).symm)
  scope_below id mem := Nat.lt_of_lt_of_le (ready.scope_below id mem) le
  mode_below := ready.mode_below.mono le

/-- How lowered code ends where the source ends: where the source continues, the latch has
run. -/
inductive Follows (mode : ContinueMode) (next : Nat) (locals : Nat → Int) :
    D × Outcome Unit (Halt F) → ((Nat → Int) × D) × Outcome Unit (Halt F) → Prop
  | fall {data : D} {locals' : Nat → Int} (same : Same next locals locals') :
      Follows mode next locals (data, .fall) ((locals', data), .fall)
  | brk {data : D} {locals' : Nat → Int} (same : Same next locals locals') :
      Follows mode next locals (data, .brk) ((locals', data), .brk)
  | cont {data : D} {locals' : Nat → Int} (same : Same next locals locals') :
      Follows mode next locals (data, .cont) (mode.again locals' data .cont)
  | ret {data : D} {locals' : Nat → Int} (same : Same next locals locals') :
      Follows mode next locals (data, .ret ()) ((locals', data), .ret ())
  | stop {data : D} {locals' : Nat → Int} {reason : Halt F} (same : Same next locals locals') :
      Follows mode next locals (data, .stop reason) ((locals', data), .stop reason)

theorem Follows.mono {mode : ContinueMode} {next later : Nat} {locals middle : Nat → Int}
    {spec : D × Outcome Unit (Halt F)} {run : ((Nat → Int) × D) × Outcome Unit (Halt F)}
    (follows : Follows mode later middle spec run) (le : next ≤ later)
    (before : Same next locals middle) : Follows mode next locals spec run := by
  cases follows with
  | fall same => exact .fall (before.trans (same.mono le))
  | brk same => exact .brk (before.trans (same.mono le))
  | cont same => exact .cont (before.trans (same.mono le))
  | ret same => exact .ret (before.trans (same.mono le))
  | stop same => exact .stop (before.trans (same.mono le))

/-- What is shown of every statement and every list of statements. -/
structure Correct (lang : Lang S C E Empty D F) (budget : Nat)
    (spec : List Int → D → D × Outcome Unit (Halt F))
    (lower : ContinueMode → List Nat → Nat → Lowered S C E) : Prop where
  next_le : ∀ mode scope next, next ≤ (lower mode scope next).next
  flow : ∀ mode scope next env data, (lower mode scope next).flow = .terminates →
    (spec env data).2 ≠ .fall
  follows : ∀ {mode scope next locals env} (data : D), Ready mode scope next locals env →
    (spec env data).2 ≠ .stop .refused →
    Follows mode next locals (spec env data)
      (execBlock (mirSem lang) budget (lower mode scope next).code (locals, data))

section Loops

variable {lang : Lang S C E Empty D F} {budget : Nat}
  {spec : List Int → D → D × Outcome Unit (Halt F)}
  {lower : ContinueMode → List Nat → Nat → Lowered S C E}

/-! ### Loops -/

theorem iterate_ne_cont {σ : Type} {body : σ → σ × Outcome Unit (Halt F)} {again : σ → σ}
    (budget : Nat) : ∀ state,
    (iterate .spent again body budget state).2 ≠ .cont
      ∧ (iterate .spent again body budget state).2 ≠ .brk := by
  induction budget with
  | zero =>
    intro state
    simp [iterate]
  | succ budget ih =>
    intro state
    rw [iterate]
    rcases body state with ⟨next, outcome⟩
    cases outcome with
    | fall => exact ih _
    | cont => exact ih _
    | brk => simp
    | ret => simp
    | stop => simp

theorem forEach_ne_cont {body : Int → D → D × Outcome Unit (Halt F)} (values : List Int) :
    ∀ data, (forEach body values data).2 ≠ .cont ∧ (forEach body values data).2 ≠ .brk := by
  induction values with
  | nil =>
    intro data
    simp [forEach]
  | cons value values ih =>
    intro data
    rw [forEach]
    rcases body value data with ⟨next, outcome⟩
    cases outcome with
    | fall => exact ih _
    | cont => exact ih _
    | brk => simp
    | ret => simp
    | stop => simp

/-- Code that lands where a loop of the source does. -/
theorem Follows.of_loop {mode : ContinueMode} {next : Nat} {locals locals' : Nat → Int}
    {run : D × Outcome Unit (Halt F)} (same : Same next locals locals')
    (loops : run.2 ≠ .cont ∧ run.2 ≠ .brk) :
    Follows mode next locals run ((locals', run.1), run.2) := by
  obtain ⟨data, outcome⟩ := run
  cases outcome with
  | fall => exact .fall same
  | brk => exact absurd rfl loops.2
  | cont => exact absurd rfl loops.1
  | ret => exact .ret same
  | stop => exact .stop same

/-- What a loop body does in a pass for the variables of `env`: where the source ends the
pass, the latch has run. -/
def Passes (mode : ContinueMode) (index : Nat) (spec : List Int → D → D × Outcome Unit (Halt F))
    (env : List Int) (base : Nat → Int)
    (body : (Nat → Int) × D → ((Nat → Int) × D) × Outcome Unit (Halt F)) : Prop :=
  ∀ (locals : Nat → Int) (data : D), Same index base locals →
    (spec (locals index :: env) data).2 ≠ .stop .refused →
    ∃ locals', Same (index + 1) locals locals'
      ∧ body (locals, data) = match spec (locals index :: env) data with
        | (data, .fall) => mode.again locals' data .fall
        | (data, .cont) => mode.again locals' data .cont
        | (data, outcome) => ((locals', data), outcome)

theorem Follows.lands {mode : ContinueMode} {next : Nat} {locals : Nat → Int}
    {spec : D × Outcome Unit (Halt F)} {run : ((Nat → Int) × D) × Outcome Unit (Halt F)}
    (follows : Follows mode next locals spec run) (loops : spec.2 ≠ .cont ∧ spec.2 ≠ .brk) :
    ∃ locals', Same next locals locals' ∧ run = ((locals', spec.1), spec.2) := by
  cases follows with
  | fall same => exact ⟨_, same, rfl⟩
  | brk same => exact ⟨_, same, rfl⟩
  | cont => exact absurd rfl loops.1
  | ret same => exact ⟨_, same, rfl⟩
  | stop same => exact ⟨_, same, rfl⟩

/-- **One pass.**  Behind the guard, a body that ends a pass runs the latch. -/
theorem pass_follows (correct : Correct lang budget spec lower) {index : Nat} {scope : List Nat}
    {ty : InductionTy} {step : Value} {last : Option Value} {base : Nat → Int} {env : List Int}
    (env_eq : env = scope.map base) (scope_below : ∀ id ∈ scope, id < index)
    (stepBelow : step.Below index) (lastBelow : ∀ value ∈ last, value.Below index) :
    Passes (.forLoop index ty step last) index spec env base (execBlock (mirSem lang) budget
      (forBody [] index ty step last
        (lower (.forLoop index ty step last) ((index + 1) :: scope) (index + 2)))) := by
  intro locals data started allowed
  have env_now : env = scope.map locals := by
    rw [env_eq]
    exact List.map_congr_left fun id mem => (started id (scope_below id mem)).symm
  generalize indexed : locals index = value at allowed ⊢
  have copied : Same (index + 1) locals (Function.update locals (index + 1) value) :=
    Same.update _ _ _ (Nat.le_refl _)
  have ready : Ready (.forLoop index ty step last) ((index + 1) :: scope) (index + 2)
      (Function.update locals (index + 1) value) (value :: env) := by
    refine ⟨?_, ?_, by omega, stepBelow.mono (by omega),
      fun value mem => (lastBelow value mem).mono (by omega)⟩
    · rw [List.map_cons, Function.update_self, env_now]
      refine congrArg _ (List.map_congr_left fun id mem => ?_)
      have below := scope_below id mem
      exact (copied id (by omega)).symm
    · intro id mem
      rcases List.mem_cons.mp mem with rfl | mem
      · omega
      · have below := scope_below id mem
        omega
  have follows := correct.follows data ready allowed
  have terminates := correct.flow (.forLoop index ty step last) ((index + 1) :: scope) (index + 2)
    (value :: env) data
  generalize lower (.forLoop index ty step last) ((index + 1) :: scope) (index + 2) = body at follows terminates ⊢
  have enters : execBlock (mirSem lang) budget (forBody [] index ty step last body) (locals, data)
      = andThen (execBlock (mirSem lang) budget body.code)
          (execBlock (mirSem lang) budget (body.flow.latch index ty step last))
          (Function.update locals (index + 1) value, data) := by
    rw [forBody, List.nil_append, execBlock_cons, andThen_assign, execBlock_append, Value.eval,
      indexed]
  rw [enters, andThen]
  generalize spec (value :: env) data = ended at follows terminates ⊢
  generalize execBlock (mirSem lang) budget body.code
    (Function.update locals (index + 1) value, data) = run at follows ⊢
  cases follows with
  | fall same =>
    refine ⟨_, copied.trans (same.mono (by omega)), ?_⟩
    cases flow : body.flow with
    | terminates => exact absurd rfl (terminates flow)
    | continues => exact exec_latch (.forLoop index ty step last) _ _
  | brk same => exact ⟨_, copied.trans (same.mono (by omega)), rfl⟩
  | ret same => exact ⟨_, copied.trans (same.mono (by omega)), rfl⟩
  | stop same => exact ⟨_, copied.trans (same.mono (by omega)), rfl⟩
  | @cont data locals' same =>
    refine ⟨_, copied.trans (same.mono (by omega)), ?_⟩
    cases last with
    | none => rfl
    | some last =>
      unfold ContinueMode.again
      by_cases atLast : locals' index = last.eval locals'
      · simp [atLast]
      · simp [atLast]

/-- Where a pass of the source is refused, the loop is. -/
theorem forEach_allowed {body : Int → D → D × Outcome Unit (Halt F)} {value : Int}
    {values : List Int} {data : D}
    (allowed : (forEach body (value :: values) data).2 ≠ .stop .refused) :
    (body value data).2 ≠ .stop .refused := by
  intro refused
  refine allowed ?_
  rw [forEach]
  generalize body value data = run at refused ⊢
  obtain ⟨next, outcome⟩ := run
  cases refused
  rfl

section Range

variable {range : Range} {index : Nat} {env : List Int} {step : Value} {base : Nat → Int}
  {body : (Nat → Int) × D → ((Nat → Int) × D) × Outcome Unit (Halt F)}
  (stepBelow : step.Below index) (steps : step.eval base = range.step)

include stepBelow steps

/-- **Static loops.**  The latch leaves the loop at the last value, in front of the
increment. -/
theorem staticLoop {last : Int} (isLast : range.IsLast last)
    (passes : Passes (.forLoop index range.ty step (some (.constant last))) index spec env base body)
    {value : Int} {values : List Int} (counts : range.Counts value values) :
    ∀ {locals : Nat → Int} {number count : Nat} (data : D), range.Within value →
      range.ty.Holds value → value = range.start + number * range.step → Same index base locals →
      locals index = value → values.length ≤ count →
      (forEach (fun value data => spec (value :: env) data) values data).2 ≠ .stop .refused →
      ∃ locals', Same index base locals'
        ∧ iterate .spent (fun state => state) body count (locals, data)
          = ((locals', (forEach (fun value data => spec (value :: env) data) values data).1),
              (forEach (fun value data => spec (value :: env) data) values data).2) := by
  induction counts with
  | done outside => exact fun _ within => absurd within outside
  | @next value later within counts ih =>
    intro locals number count data _ holds reached same indexed enough allowed
    obtain ⟨count, rfl⟩ := Nat.exists_eq_succ_of_ne_zero (show count ≠ 0 by
      rw [List.length_cons] at enough
      omega)
    rw [List.length_cons, Nat.succ_le_succ_iff] at enough
    obtain ⟨locals', kept, ended⟩ := passes locals data same
      (by rw [indexed]; exact forEach_allowed allowed)
    have kept' : Same index base locals' := same.trans (kept.mono (Nat.le_succ _))
    have indexed' : locals' index = value := (kept index (Nat.lt_succ_self _)).trans indexed
    have atLast := isLast.eq_iff reached within
    -- The latch, behind a body that ended its pass.
    have again : ∀ (data : D) (outcome : Outcome Unit (Halt F)),
        (ContinueMode.forLoop index range.ty step (some (.constant last))).again locals' data outcome
          = if range.Within (value + range.step)
            then ((Function.update locals' index (value + range.step), data), outcome)
            else ((locals', data), .brk) := by
      intro data outcome
      rw [again_last, indexed', Value.eval_same stepBelow kept', steps, Value.eval_constant]
      by_cases more : range.Within (value + range.step)
      · rw [if_pos more, if_neg fun isLast => atLast.mp isLast more,
          InductionTy.wrap_eq (Range.holds_next holds more)]
      · rw [if_neg more, if_pos (atLast.mpr more)]
    have onward := fun data => @ih (Function.update locals' index (value + range.step)) (number + 1)
      count data
    have finished : ¬range.Within (value + range.step) → later = [] := by
      intro outside
      cases counts with
      | done => rfl
      | next within => exact absurd within outside
    have moved : value + range.step = range.start + ((number + 1 : Nat) : Int) * range.step := by
      rw [reached]
      push_cast
      ring
    have keptOn : Same index base (Function.update locals' index (value + range.step)) :=
      kept'.trans (Same.update _ _ _ (Nat.le_refl _))
    rw [forEach] at allowed ⊢
    rw [iterate, ended, indexed]
    generalize spec (value :: env) data = run at allowed ⊢
    obtain ⟨next, outcome⟩ := run
    cases outcome with
    | fall =>
      dsimp only at allowed ⊢
      rw [again]
      by_cases more : range.Within (value + range.step)
      · rw [if_pos more]
        exact onward next more (Range.holds_next holds more) moved keptOn (Function.update_self ..)
          enough allowed
      · rw [if_neg more, finished more]
        exact ⟨locals', kept', rfl⟩
    | cont =>
      dsimp only at allowed ⊢
      rw [again]
      by_cases more : range.Within (value + range.step)
      · rw [if_pos more]
        exact onward next more (Range.holds_next holds more) moved keptOn (Function.update_self ..)
          enough allowed
      · rw [if_neg more, finished more]
        exact ⟨locals', kept', rfl⟩
    | brk => exact ⟨locals', kept', rfl⟩
    | ret => exact ⟨locals', kept', rfl⟩
    | stop => exact ⟨locals', kept', rfl⟩

/-- **Guarded loops.**  Where no increment leaves the type, the guard leaves the loop at the
first value outside the bound. -/
theorem guardedLoop {guard : (Nat → Int) × D → ((Nat → Int) × D) × Outcome Unit (Halt F)}
    (guards : ∀ locals data, Same index base locals →
      guard (locals, data) = ((locals, data), if range.Within (locals index) then .fall else .brk))
    (passes : Passes (.forLoop index range.ty step none) index spec env base body)
    {value : Int} {values : List Int} (counts : range.Counts value values)
    (fits : ∀ value ∈ values, range.ty.Holds (value + range.step)) :
    ∀ {locals : Nat → Int} {count : Nat} (data : D), Same index base locals →
      locals index = value → values.length < count →
      (forEach (fun value data => spec (value :: env) data) values data).2 ≠ .stop .refused →
      ∃ locals', Same index base locals'
        ∧ iterate .spent (fun state => state) (andThen guard body) count (locals, data)
          = ((locals', (forEach (fun value data => spec (value :: env) data) values data).1),
              (forEach (fun value data => spec (value :: env) data) values data).2) := by
  induction counts with
  | @done value outside =>
    intro locals count data same indexed enough _
    obtain ⟨count, rfl⟩ := Nat.exists_eq_succ_of_ne_zero (show count ≠ 0 by omega)
    rw [iterate, andThen, guards locals data same, indexed, if_neg outside]
    exact ⟨locals, same, rfl⟩
  | @next value later within counts ih =>
    intro locals count data same indexed enough allowed
    obtain ⟨count, rfl⟩ := Nat.exists_eq_succ_of_ne_zero (show count ≠ 0 by omega)
    rw [List.length_cons, Nat.succ_lt_succ_iff] at enough
    rw [List.forall_mem_cons] at fits
    obtain ⟨locals', kept, ended⟩ := passes locals data same
      (by rw [indexed]; exact forEach_allowed allowed)
    have kept' : Same index base locals' := same.trans (kept.mono (Nat.le_succ _))
    have indexed' : locals' index = value := (kept index (Nat.lt_succ_self _)).trans indexed
    have again : ∀ (data : D) (outcome : Outcome Unit (Halt F)),
        (ContinueMode.forLoop index range.ty step none).again locals' data outcome
          = ((Function.update locals' index (value + range.step), data), outcome) := by
      intro data outcome
      unfold ContinueMode.again
      dsimp only
      rw [indexed', Value.eval_same stepBelow kept', steps, InductionTy.wrap_eq fits.1]
    have onward := fun data => @ih fits.2 (Function.update locals' index (value + range.step)) count data
      (kept'.trans (Same.update _ _ _ (Nat.le_refl _))) (Function.update_self ..) enough
    rw [forEach] at allowed ⊢
    rw [iterate, andThen, guards locals data same, indexed, if_pos within]
    dsimp only
    rw [ended, indexed]
    generalize spec (value :: env) data = run at allowed ⊢
    obtain ⟨next, outcome⟩ := run
    cases outcome with
    | fall =>
      dsimp only at allowed ⊢
      rw [again]
      exact onward next allowed
    | cont =>
      dsimp only at allowed ⊢
      rw [again]
      exact onward next allowed
    | brk => exact ⟨locals', kept', rfl⟩
    | ret => exact ⟨locals', kept', rfl⟩
    | stop => exact ⟨locals', kept', rfl⟩

end Range

/-! ### Lowering a `for` -/

theorem exec_snapshot {ty : InductionTy} (operand : Operand ty E) (destination : Nat)
    {scope : List Nat} {locals : Nat → Int} {env : List Int} (env_eq : env = scope.map locals)
    (data : D) :
    execBlock (mirSem lang) budget (snapshot destination scope operand) (locals, data)
      = ((Function.update locals destination (operand.eval lang env data), data), .fall) := by
  subst env_eq
  cases operand <;> rfl

theorem staticForPlan_constant (ty : InductionTy) (start stop step : BitVec ty.bits)
    (inclusive : Bool) :
    staticForPlan (ty.constant start) (ty.constant stop) (ty.constant step) inclusive
      = staticForPlanOf ty start.toInt stop.toInt step.toInt inclusive := by
  cases ty <;> rfl

/-- A plan is about every evaluation of the range. -/
theorem RangeExpr.plan_spec (lang : Lang S C E Empty D F) (range : RangeExpr E) (env : List Int)
    (data : D) :
    range.plan = none
    ∨ (range.plan = some .empty
      ∧ ¬(range.eval lang env data).Within (range.eval lang env data).start)
    ∨ ∃ least greatest scalar last value, range.plan = some (.nonEmpty least greatest scalar)
      ∧ scalar.toInt? = some last ∧ (range.eval lang env data).IsLast last
      ∧ range.stepOperand = .constant value := by
  unfold RangeExpr.plan
  split
  case h_2 => exact .inl rfl
  case h_1 start stop step startEq stopEq stepEq =>
    have planned := Range.staticForPlanOf_spec (range.eval lang env data)
    have evaluated : staticForPlanOf (range.eval lang env data).ty (range.eval lang env data).start
        (range.eval lang env data).stop (range.eval lang env data).step
        (range.eval lang env data).inclusive
        = staticForPlan (range.ty.constant start) (range.ty.constant stop) (range.ty.constant step)
          range.inclusive := by
      rw [staticForPlan_constant]
      simp only [RangeExpr.eval, startEq, stopEq, stepEq, Operand.eval]
    rw [evaluated] at planned
    rcases planned with ⟨-, none⟩ | ⟨outside, empty⟩ | ⟨least, greatest, scalar, last, some, value, isLast⟩
    · rw [none]
      exact .inl rfl
    · rw [empty]
      exact .inr (.inl ⟨rfl, outside⟩)
    · rw [some]
      exact .inr (.inr ⟨least, greatest, scalar, last, step, rfl, value, isLast, stepEq⟩)

variable {allowed : RangeExpr E → Range → Bool}

/-- The source loop, given its body. -/
def forSpec (lang : Lang S C E Empty D F) (allowed : RangeExpr E → Range → Bool)
    (spec : List Int → D → D × Outcome Unit (Halt F)) (range : RangeExpr E) (env : List Int)
    (data : D) : D × Outcome Unit (Halt F) :=
  if allowed range (range.eval lang env data) then
    forEach (fun value data => spec (value :: env) data) (range.eval lang env data).values data
  else (data, .stop .refused)

/-- The code of a loop with a static plan. -/
theorem lowerFor_static {range : RangeExpr E} {scope : List Nat} {next : Nat} {last : Int}
    {least greatest scalar : Onda.Mir.ScalarValue} {value : BitVec range.ty.bits}
    (planned : range.plan = some (.nonEmpty least greatest scalar)) (lastEq : scalar.toInt? = some last)
    (stepEq : range.stepOperand = .constant value) :
    lowerFor range scope next lower
      = ⟨snapshot next scope range.start ++ [.loop (forBody [] next range.ty
            (.constant value.toInt) (some (.constant last))
            (lower (.forLoop next range.ty (.constant value.toInt) (some (.constant last)))
              ((next + 1) :: scope) (next + 2)))], .continues,
          (lower (.forLoop next range.ty (.constant value.toInt) (some (.constant last)))
            ((next + 1) :: scope) (next + 2)).next⟩ := by
  simp only [lowerFor, planned, lastEq, stepEq, Option.getD_some]

/-- The code of a loop without one. -/
theorem lowerFor_dynamic {range : RangeExpr E} {scope : List Nat} {next : Nat}
    (planned : range.plan = none) :
    lowerFor range scope next lower
      = ⟨snapshot next scope range.start ++ snapshot (next + 1) scope range.stop
          ++ snapshot (next + 2) scope range.stepOperand
          ++ [.op (.assign (next + 3) (.localVar next)),
            .loop (forBody (emitForGuard (next + 3) (.localVar (next + 1)) (.localVar (next + 2))
              range.inclusive) (next + 3) range.ty (.localVar (next + 2)) none
              (lower (.forLoop (next + 3) range.ty (.localVar (next + 2)) none)
                ((next + 4) :: scope) (next + 5)))], .continues,
          (lower (.forLoop (next + 3) range.ty (.localVar (next + 2)) none)
            ((next + 4) :: scope) (next + 5)).next⟩ := by
  simp only [lowerFor, planned]

theorem exec_loop (body : MirBlock S C E) (state : (Nat → Int) × D) :
    Stm.exec (mirSem lang) budget (.loop body) state
      = iterate .spent (fun state => state) (execBlock (mirSem lang) budget body) budget state := by
  rw [Stm.exec]
  rfl

section Evaluated

variable {range : RangeExpr E} {scope : List Nat} {next : Nat} {locals : Nat → Int} {env : List Int}
  (correct : Correct lang budget spec lower) (wide : 2 ^ 64 < budget) (data : D)
  (env_eq : env = scope.map locals) (scope_below : ∀ id ∈ scope, id < next)
  (notRefused : (forEach (fun value data => spec (value :: env) data)
    (range.eval lang env data).values data).2 ≠ .stop .refused)

include correct wide env_eq scope_below notRefused

theorem static_follows {mode : ContinueMode} {least greatest scalar : Onda.Mir.ScalarValue} {last : Int}
    {value : BitVec range.ty.bits} (planned : range.plan = some (.nonEmpty least greatest scalar))
    (lastEq : scalar.toInt? = some last) (stepEq : range.stepOperand = .constant value)
    (isLast : (range.eval lang env data).IsLast last) :
    Follows mode next locals
      (forEach (fun value data => spec (value :: env) data) (range.eval lang env data).values data)
      (execBlock (mirSem lang) budget (lowerFor range scope next lower).code (locals, data)) := by
  have step : (range.eval lang env data).step = value.toInt := by
    simp only [RangeExpr.eval, stepEq, Operand.eval]
  have begun : Same next locals
      (Function.update locals next (range.eval lang env data).start) :=
    Same.update _ _ _ (Nat.le_refl _)
  have env_begun : env = scope.map
      (Function.update locals next (range.eval lang env data).start) :=
    env_eq.trans (List.map_congr_left fun id mem => (begun id (scope_below id mem)).symm)
  have passes := @pass_follows S C E D F lang budget spec lower correct next scope range.ty
    (.constant value.toInt) (some (.constant last)) _ env env_begun scope_below trivial
    (fun value mem => by cases mem; trivial)
  obtain ⟨locals', kept, ended⟩ := @staticLoop D F spec (range.eval lang env data) next env
    (.constant value.toInt) _ _ trivial step.symm last isLast passes _ _
    (range.eval lang env data).counts_values _ 0 budget data isLast.start_within
    (range.eval lang env data).start_holds (by simp) (Same.refl _ _) (Function.update_self ..)
    ((range.eval lang env data).values_length.trans wide.le) notRefused
  rw [lowerFor_static planned lastEq stepEq, execBlock_append, andThen,
    exec_snapshot range.start next env_eq data]
  dsimp only
  rw [execBlock_singleton, exec_loop]
  refine Eq.mpr (congrArg _ ended) ?_
  exact .of_loop (begun.trans kept) (forEach_ne_cont _ _)

theorem dynamic_follows {mode : ContinueMode} (planned : range.plan = none)
    (fits : (range.eval lang env data).Fits) :
    Follows mode next locals
      (forEach (fun value data => spec (value :: env) data) (range.eval lang env data).values data)
      (execBlock (mirSem lang) budget (lowerFor range scope next lower).code (locals, data)) := by
  -- The locals after the three snapshots and the initialization of the index.
  generalize started : Function.update locals next (range.eval lang env data).start = first
  generalize stopped : Function.update first (next + 1) (range.eval lang env data).stop = second
  generalize stepped : Function.update second (next + 2) (range.eval lang env data).step = third
  generalize indexed : Function.update third (next + 3) (range.eval lang env data).start = base
  have below : ∀ id < next, first id = locals id ∧ second id = locals id ∧ third id = locals id
      ∧ base id = locals id := by
    intro id below
    subst indexed stepped stopped started
    refine ⟨?_, ?_, ?_, ?_⟩
    all_goals repeat rw [Function.update_of_ne (by omega)]
  have env_eq' : ∀ locals', (∀ id < next, locals' id = locals id) → env = scope.map locals' :=
    fun locals' same => env_eq.trans
      (List.map_congr_left fun id mem => (same id (scope_below id mem)).symm)
  have start_third : third next = (range.eval lang env data).start := by
    subst stepped stopped started
    repeat rw [Function.update_of_ne (by omega)]
    exact Function.update_self ..
  have stop_base : base (next + 1) = (range.eval lang env data).stop := by
    subst indexed stepped stopped
    repeat rw [Function.update_of_ne (by omega)]
    exact Function.update_self ..
  have step_base : base (next + 2) = (range.eval lang env data).step := by
    subst indexed stepped
    rw [Function.update_of_ne (by omega)]
    exact Function.update_self ..
  have index_base : base (next + 3) = (range.eval lang env data).start := by
    subst indexed
    exact Function.update_self ..
  have passes := @pass_follows S C E D F lang budget spec lower correct (next + 3) scope range.ty
    (.localVar (next + 2)) none base env (env_eq' base fun id lt => (below id lt).2.2.2)
    (fun id mem => Nat.lt_add_right 3 (scope_below id mem)) (Nat.lt_succ_self (next + 2))
    (fun value mem => by cases mem)
  obtain ⟨locals', kept, ended⟩ := @guardedLoop D F spec (range.eval lang env data) (next + 3) env
    (.localVar (next + 2)) base _ (Nat.lt_succ_self (next + 2)) step_base
    (execBlock (mirSem lang) budget (emitForGuard (next + 3) (.localVar (next + 1))
      (.localVar (next + 2)) (range.eval lang env data).inclusive))
    (fun locals data same => exec_guard data
      ((same (next + 1) (by omega)).trans stop_base) ((same (next + 2) (by omega)).trans step_base))
    passes _ _ (range.eval lang env data).counts_values fits base budget data (Same.refl _ _)
    index_base (Nat.lt_of_le_of_lt (range.eval lang env data).values_length wide) notRefused
  have snapshots : execBlock (mirSem lang) budget (snapshot next scope range.start
      ++ snapshot (next + 1) scope range.stop ++ snapshot (next + 2) scope range.stepOperand)
        (locals, data) = ((third, data), .fall) := by
    rw [List.append_assoc, execBlock_append, andThen, exec_snapshot range.start next env_eq data]
    dsimp only
    rw [execBlock_append, andThen, exec_snapshot range.stop (next + 1)
      (env_eq' _ fun id lt => started ▸ (below id lt).1) data]
    dsimp only
    rw [exec_snapshot range.stepOperand (next + 2) (env_eq' _ fun id lt => ?_) data]
    · subst stepped stopped started
      rfl
    · have same := (below id lt).2.1
      rw [← stopped, ← started] at same
      exact same
  have loops : execBlock (mirSem lang) budget (forBody (emitForGuard (next + 3) (.localVar (next + 1))
      (.localVar (next + 2)) range.inclusive) (next + 3) range.ty (.localVar (next + 2)) none
        (lower (.forLoop (next + 3) range.ty (.localVar (next + 2)) none) ((next + 4) :: scope) (next + 5)))
      = andThen (execBlock (mirSem lang) budget (emitForGuard (next + 3) (.localVar (next + 1))
          (.localVar (next + 2)) range.inclusive))
        (execBlock (mirSem lang) budget (forBody [] (next + 3) range.ty (.localVar (next + 2)) none
          (lower (.forLoop (next + 3) range.ty (.localVar (next + 2)) none) ((next + 4) :: scope)
            (next + 5)))) := by
    rw [forBody, forBody, List.nil_append, execBlock_append]
  rw [lowerFor_dynamic planned, execBlock_append, andThen, snapshots]
  dsimp only
  rw [execBlock_cons, andThen_assign, execBlock_singleton, exec_loop, loops, Value.eval, start_third,
    indexed]
  refine Eq.mpr (congrArg _ ended) ?_
  refine .of_loop (Same.trans (fun id lt => (below id lt).2.2.2) (kept.mono (by omega)))
    (forEach_ne_cont _ _)

end Evaluated

/-- **A `for` loop.**  Its lowering is right if that of its body is. -/
theorem lowerFor_correct (correct : Correct lang budget spec lower) (wide : 2 ^ 64 < budget)
    {range : RangeExpr E}
    (fits : ∀ evaluated, allowed range evaluated → range.plan = none → evaluated.Fits) :
    Correct lang budget (forSpec lang allowed spec range)
      (fun _ scope next => lowerFor range scope next lower) where
  next_le _ scope next := by
    unfold lowerFor
    split
    · exact Nat.le_refl _
    · exact (Nat.le_add_right _ _).trans (correct.next_le _ _ _)
    · exact (Nat.le_add_right _ _).trans (correct.next_le _ _ _)
  flow _ scope next env data terminates := by
    unfold lowerFor at terminates
    split at terminates <;> cases terminates
  follows {mode scope next locals env} data ready notRefused := by
    unfold forSpec at notRefused ⊢
    split at notRefused
    case isFalse => exact absurd rfl notRefused
    case isTrue isAllowed =>
      rw [if_pos isAllowed]
      rcases range.plan_spec lang env data with planned | ⟨planned, outside⟩ |
        ⟨least, greatest, scalar, last, value, planned, lastEq, isLast, stepEq⟩
      · exact dynamic_follows correct wide data ready.env_eq ready.scope_below notRefused planned
          (fits _ isAllowed planned)
      · have none : (range.eval lang env data).values = [] :=
          (range.eval lang env data).counts_values.unique (.done outside)
        simp only [none, lowerFor, planned]
        exact .fall (Same.refl _ _)
      · exact static_follows correct wide data ready.env_eq ready.scope_below notRefused planned
          lastEq stepEq isLast

/-! ### Statements -/

theorem exec_inner (condition : C) (scope : List Nat) (thenBlock elseBlock : MirBlock S C E)
    {locals : Nat → Int} {env : List Int} (env_eq : env = scope.map locals) (data : D) :
    Stm.exec (mirSem lang) budget (.ite (.inner condition scope) thenBlock elseBlock) (locals, data)
      = if lang.cond condition env data
        then execBlock (mirSem lang) budget thenBlock (locals, data)
        else execBlock (mirSem lang) budget elseBlock (locals, data) := by
  subst env_eq
  unfold Stm.exec
  simp only [mirSem]
  cases lang.cond condition (scope.map locals) data <;> rfl

/-- **`while` loops.**  Pass by pass, with the same budget. -/
theorem whileLoop_follows (correct : Correct lang budget spec lower) (condition : C)
    {scope : List Nat} {next : Nat} {base : Nat → Int} {env : List Int}
    (env_eq : env = scope.map base) (scope_below : ∀ id ∈ scope, id < next) (count : Nat) :
    ∀ {locals : Nat → Int} (data : D), Same next base locals →
      (iterate .spent id (fun data => if lang.cond condition env data then spec env data
        else (data, .brk)) count data).2 ≠ .stop .refused →
      ∃ locals', Same next base locals'
        ∧ iterate .spent (fun state => state) (Stm.exec (mirSem lang) budget
            (.ite (.inner condition scope) (lower .plain scope next).code [.brk])) count (locals, data)
          = ((locals', (iterate .spent id (fun data => if lang.cond condition env data
                then spec env data else (data, .brk)) count data).1),
              (iterate .spent id (fun data => if lang.cond condition env data
                then spec env data else (data, .brk)) count data).2) := by
  induction count with
  | zero => exact fun data same _ => ⟨_, same, rfl⟩
  | succ count ih =>
    intro locals data same allowed
    have env_now : env = scope.map locals :=
      env_eq.trans (List.map_congr_left fun id mem => (same id (scope_below id mem)).symm)
    rw [iterate] at allowed
    simp only [iterate]
    rw [exec_inner condition scope _ _ env_now data]
    by_cases holds : lang.cond condition env data
    · rw [if_pos holds] at allowed ⊢
      simp only [holds, if_true] at allowed ⊢
      have ready : Ready .plain scope next locals env := ⟨env_now, scope_below, trivial⟩
      have follows := correct.follows data ready
        (show (spec env data).2 ≠ .stop .refused by
          intro refused
          refine allowed ?_
          rw [show spec env data = ((spec env data).1, .stop .refused) from Prod.ext rfl refused])
      generalize spec env data = ended at follows allowed ⊢
      generalize execBlock (mirSem lang) budget (lower .plain scope next).code (locals, data) = run
        at follows ⊢
      cases follows with
      | fall kept => exact ih _ (same.trans kept) allowed
      | cont kept => exact ih _ (same.trans kept) allowed
      | brk kept => exact ⟨_, same.trans kept, rfl⟩
      | ret kept => exact ⟨_, same.trans kept, rfl⟩
      | stop kept => exact ⟨_, same.trans kept, rfl⟩
    · simp only [holds] at allowed ⊢
      exact ⟨_, same, rfl⟩

end Loops

section Statements

variable {lang : Lang S C E Empty D F} {budget : Nat} {allowed : RangeExpr E → Range → Bool}

mutual

/-- **Statements.**  A lowered statement ends where the statement does. -/
theorem Stmt.lower_correct (wide : 2 ^ 64 < budget)
    (fits : ∀ range evaluated, allowed range evaluated → range.plan = none → evaluated.Fits) :
    ∀ statement : Stmt S C E Empty,
      Correct lang budget (statement.exec lang allowed budget) statement.lower
  | .op statement => by
    refine ⟨fun _ _ next => Nat.le_refl _, nofun, fun {mode scope next locals env} data ready _ => ?_⟩
    obtain rfl := ready.env_eq
    simp only [Stmt.lower, Stmt.exec, execBlock_singleton, Stm.exec, mirSem]
    generalize lang.op statement (scope.map locals) data = run
    obtain ⟨data, failure⟩ := run
    cases failure with
    | none => exact .fall (Same.refl _ _)
    | some failure => exact .stop (Same.refl _ _)
  | .yield pause => nomatch pause
  | .ret => by
    refine ⟨fun _ _ next => Nat.le_refl _, fun _ _ _ env data _ => nofun,
      fun {mode scope next locals env} data ready _ => ?_⟩
    exact .ret (Same.refl _ _)
  | .ifElse condition thenBranch elseBranch => by
    have thens := lowerStatements_correct wide fits thenBranch
    have elses := lowerStatements_correct wide fits elseBranch
    refine ⟨fun mode scope next => (thens.next_le mode scope next).trans (elses.next_le _ _ _),
      fun mode scope next env data terminates => ?_,
      fun {mode scope next locals env} data ready notRefused => ?_⟩
    · simp only [Stmt.lower] at terminates
      split at terminates
      case isFalse => cases terminates
      case isTrue both =>
        rw [Stmt.exec]
        split
        · exact thens.flow _ _ _ _ _ both.1
        · exact elses.flow _ _ _ _ _ both.2
    · rw [Stmt.exec] at notRefused ⊢
      simp only [Stmt.lower]
      rw [execBlock_singleton, exec_inner condition scope _ _ ready.env_eq data]
      by_cases holds : lang.cond condition env data
      · rw [if_pos holds] at notRefused ⊢
        rw [if_pos holds]
        exact thens.follows data ready notRefused
      · rw [if_neg holds] at notRefused ⊢
        rw [if_neg holds]
        have le := thens.next_le mode scope next
        exact Follows.mono (elses.follows data (ready.mono le (Same.refl _ _)) notRefused) le
          (Same.refl _ _)
  | .whileLoop condition body => by
    have correct := lowerStatements_correct wide fits body
    refine ⟨fun _ scope next => correct.next_le .plain scope next, nofun,
      fun {mode scope next locals env} data ready notRefused => ?_⟩
    rw [Stmt.exec] at notRefused ⊢
    obtain ⟨locals', kept, ended⟩ := whileLoop_follows correct condition ready.env_eq
      ready.scope_below budget data (Same.refl _ _) notRefused
    simp only [Stmt.lower]
    rw [execBlock_singleton, exec_loop, execBlock_singleton, ended]
    exact .of_loop kept (iterate_ne_cont _ _)
  | .forLoop _ range body =>
    lowerFor_correct (lowerStatements_correct wide fits body) wide (fits range)
  | .brk => by
    refine ⟨fun _ _ next => Nat.le_refl _, fun _ _ _ env data _ => nofun,
      fun {mode scope next locals env} data ready _ => ?_⟩
    exact .brk (Same.refl _ _)
  | .cont => by
    refine ⟨fun _ _ next => Nat.le_refl _, fun _ _ _ env data _ => nofun,
      fun {mode scope next locals env} data ready _ => ?_⟩
    simp only [Stmt.lower, Stmt.exec]
    rw [exec_latch_cont]
    exact .cont (Same.refl _ _)

/-- **Lists.**  Nothing is lost behind a statement that terminates. -/
theorem lowerStatements_correct (wide : 2 ^ 64 < budget)
    (fits : ∀ range evaluated, allowed range evaluated → range.plan = none → evaluated.Fits) :
    ∀ statements : List (Stmt S C E Empty),
      Correct lang budget (execAll lang allowed budget statements) (lowerStatements statements)
  | [] => by
    refine ⟨fun _ _ next => Nat.le_refl _, nofun,
      fun {mode scope next locals env} data ready _ => ?_⟩
    exact .fall (Same.refl _ _)
  | statement :: rest => by
    have first := Stmt.lower_correct wide fits statement
    have others := lowerStatements_correct wide fits rest
    refine ⟨fun mode scope next => ?_, fun mode scope next env data terminates => ?_,
      fun {mode scope next locals env} data ready notRefused => ?_⟩
    · rw [lowerStatements]
      dsimp only
      split
      · exact first.next_le mode scope next
      · exact (first.next_le mode scope next).trans (others.next_le _ _ _)
    · have firstFlow := first.flow mode scope next env data
      rw [lowerStatements] at terminates
      rw [execAll]
      generalize statement.exec lang allowed budget env data = ended at firstFlow ⊢
      obtain ⟨data, outcome⟩ := ended
      cases outcome with
      | fall =>
        cases flow : (statement.lower mode scope next).flow with
        | terminates => exact absurd rfl (firstFlow flow)
        | continues =>
          simp only [flow] at terminates
          exact others.flow _ _ _ _ _ terminates
      | brk => exact nofun
      | cont => exact nofun
      | ret => exact nofun
      | stop => exact nofun
    · have firstFlow := first.flow mode scope next env data
      have firstFollows := first.follows data ready (fun refused => notRefused (by
        rw [execAll]
        generalize statement.exec lang allowed budget env data = ended at refused ⊢
        obtain ⟨data, outcome⟩ := ended
        cases refused
        rfl))
      rw [execAll] at notRefused ⊢
      rw [lowerStatements]
      dsimp only
      cases flow : (statement.lower mode scope next).flow with
      | terminates =>
        dsimp only
        have notFall := firstFlow flow
        generalize statement.exec lang allowed budget env data = ended
          at notFall firstFollows notRefused ⊢
        obtain ⟨data, outcome⟩ := ended
        cases outcome with
        | fall => exact absurd rfl notFall
        | brk => exact firstFollows
        | cont => exact firstFollows
        | ret => exact firstFollows
        | stop => exact firstFollows
      | continues =>
        dsimp only
        rw [execBlock_append, andThen]
        generalize statement.exec lang allowed budget env data = ended at firstFollows notRefused ⊢
        generalize execBlock (mirSem lang) budget (statement.lower mode scope next).code
          (locals, data) = run at firstFollows ⊢
        cases firstFollows with
        | fall same =>
          exact Follows.mono (others.follows _ (ready.mono (first.next_le _ _ _) same) notRefused)
            (first.next_le _ _ _) same
        | brk same => exact .brk same
        | ret same => exact .ret same
        | stop same => exact .stop same
        | @cont data locals' same =>
          have notFall := @again_cont_ne_fall D F mode locals' data
          have kept := @Follows.cont D F mode next locals data locals' same
          generalize mode.again locals' data .cont = run at notFall kept ⊢
          obtain ⟨state, outcome⟩ := run
          cases outcome with
          | fall => exact absurd rfl notFall
          | brk => exact kept
          | cont => exact kept
          | ret => exact kept
          | stop => exact kept

end

end Statements

end Onda.Loops
