import Onda.Loops.LoweringCorrect
import Onda.Loops.TaskCfgCorrect

/-!
# The lowerings of a `for` loop agree

The static plan, the guarded loop and the task graph run the body for the values of the
range and stop.  The guarded loop does so with ordinary integer arithmetic: it asks that no
increment leaves the induction type.  Where the last increment does, the wrapped value is
within the bound again, and the loop goes on.
-/

namespace Onda.Loops

open Structured Structured.Simulation

/-- A loop that the structured lowering gets right: it has a static plan, or no increment
leaves the type. -/
def Dependable {E : Type} (range : RangeExpr E) (evaluated : Range) : Bool :=
  range.plan.isSome || decide evaluated.Fits

section Allowed

variable {S C E Y D F : Type} {lang : Lang S C E Y D F} {allowed : RangeExpr E → Range → Bool}
  {budget : Nat}

theorem iterate_allowed {body body' : D → D × Outcome Unit (Halt F)}
    (same : ∀ data, (body data).2 ≠ .stop .refused → body' data = body data) (count : Nat) :
    ∀ data, (iterate .spent id body count data).2 ≠ .stop .refused →
      iterate .spent id body' count data = iterate .spent id body count data := by
  induction count with
  | zero => exact fun _ _ => rfl
  | succ count ih =>
    intro data notRefused
    have here := same data
    simp only [iterate] at notRefused ⊢
    generalize body data = run at here notRefused ⊢
    obtain ⟨next, outcome⟩ := run
    rw [here fun refused => notRefused (by cases refused; rfl)]
    cases outcome with
    | fall => exact ih _ notRefused
    | cont => exact ih _ notRefused
    | brk => rfl
    | ret => rfl
    | stop => rfl

theorem forEach_same {body body' : Int → D → D × Outcome Unit (Halt F)}
    (same : ∀ value data, (body value data).2 ≠ .stop .refused → body' value data = body value data)
    (values : List Int) : ∀ data, (forEach body values data).2 ≠ .stop .refused →
      forEach body' values data = forEach body values data := by
  induction values with
  | nil => exact fun _ _ => rfl
  | cons value values ih =>
    intro data notRefused
    have here := same value data
    simp only [forEach] at notRefused ⊢
    generalize body value data = run at here notRefused ⊢
    obtain ⟨next, outcome⟩ := run
    rw [here fun refused => notRefused (by cases refused; rfl)]
    cases outcome with
    | fall => exact ih _ notRefused
    | cont => exact ih _ notRefused
    | brk => rfl
    | ret => rfl
    | stop => rfl

mutual

/-- A run that is not refused enters allowed loops only; it is the run without refusals. -/
theorem Stmt.exec_allowed : ∀ (statement : Stmt S C E Y) (env : List Int) (data : D),
    (statement.exec lang allowed budget env data).2 ≠ .stop .refused →
      statement.exec lang (fun _ _ => true) budget env data = statement.exec lang allowed budget env data
  | .op statement, env, data, _ => by simp only [Stmt.exec]
  | .yield pause, env, data, _ => by simp only [Stmt.exec]
  | .ret, env, data, _ => by simp only [Stmt.exec]
  | .brk, env, data, _ => by simp only [Stmt.exec]
  | .cont, env, data, _ => by simp only [Stmt.exec]
  | .ifElse condition thenBranch elseBranch, env, data, notRefused => by
    simp only [Stmt.exec] at notRefused ⊢
    split
    · rw [if_pos ‹_›] at notRefused
      exact execAll_allowed thenBranch env data notRefused
    · rw [if_neg ‹_›] at notRefused
      exact execAll_allowed elseBranch env data notRefused
  | .whileLoop condition body, env, data, notRefused => by
    simp only [Stmt.exec] at notRefused ⊢
    refine iterate_allowed (fun data notRefused => ?_) budget data notRefused
    split
    · rw [if_pos ‹_›] at notRefused
      exact execAll_allowed body env data notRefused
    · rfl
  | .forLoop var range body, env, data, notRefused => by
    simp only [Stmt.exec] at notRefused ⊢
    split at notRefused
    case isFalse => exact absurd rfl notRefused
    case isTrue isAllowed =>
      rw [if_pos trivial, if_pos isAllowed]
      exact forEach_same (fun value data notRefused => execAll_allowed body _ data notRefused) _ data
        notRefused

theorem execAll_allowed : ∀ (statements : List (Stmt S C E Y)) (env : List Int) (data : D),
    (execAll lang allowed budget statements env data).2 ≠ .stop .refused →
      execAll lang (fun _ _ => true) budget statements env data
        = execAll lang allowed budget statements env data
  | [], env, data, _ => by simp only [execAll]
  | statement :: rest, env, data, notRefused => by
    have here := Stmt.exec_allowed statement env data
    simp only [execAll] at notRefused ⊢
    generalize statement.exec lang allowed budget env data = run at here notRefused ⊢
    obtain ⟨next, outcome⟩ := run
    rw [here fun refused => notRefused (by cases refused; rfl)]
    cases outcome with
    | fall => exact execAll_allowed rest env next notRefused
    | cont => rfl
    | brk => rfl
    | ret => rfl
    | stop => rfl

end

end Allowed

/-- **The lowerings of `for` agree.**  The values are the ones counted from the start while
they are within the bound.  The structured lowering runs the body for them, in every run
whose loops have a static plan or increments that stay in the type; the task graph does so
in every run.  A budget of more than `2 ^ 64` passes is spent by no range. -/
theorem for_lowerings_agree :
    (∀ range : Range, range.Counts range.start range.values)
    ∧ (∀ {S C E D F : Type} (lang : Lang S C E Empty D F) (var : String) (range : RangeExpr E)
        (body : List (Stmt S C E Empty)) (budget : Nat) (mode : ContinueMode) (scope : List Nat)
        (next : Nat) (locals : Nat → Int) (env : List Int) (data : D),
        2 ^ 64 < budget → Ready mode scope next locals env →
        ((Stmt.forLoop var range body).exec lang Dependable budget env data).2 ≠ .stop .refused →
        ∃ locals', Same next locals locals'
          ∧ execBlock (mirSem lang) budget ((Stmt.forLoop var range body).lower mode scope next).code
              (locals, data)
            = ((locals', (forEach (fun value data =>
                  execAll lang (fun _ _ => true) budget body (value :: env) data)
                (range.eval lang env data).values data).1),
              (forEach (fun value data =>
                  execAll lang (fun _ _ => true) budget body (value :: env) data)
                (range.eval lang env data).values data).2))
    ∧ ∀ {S C E Y D F : Type} (lang : Lang S C E Y D F) (var : String) (range : RangeExpr E)
        (body : List (Stmt S C E Y)) (budget : Nat) (scope : List String) (next exit again : Nat)
        (targets : Option (Nat × Nat)) (built blocks : List (TaskCfgBlock S C E Y)) (frame : Frame)
        (data : D), (Stmt.forLoop var range body).Fresh scope →
        Contains blocks built.length
          ((Stmt.forLoop var range body).lowerCfg scope next targets built).2 →
        Arrives lang blocks budget scope frame next exit again
          (((Stmt.forLoop var range body).lowerCfg scope next targets built).1, frame, data)
          (forEach (fun value data =>
              execAll lang (fun _ _ => true) budget body (value :: frame.vars scope) data)
            (range.eval lang (frame.vars scope) data).values data) := by
  refine ⟨Range.counts_values, ?_, ?_⟩
  · intro S C E D F lang var range body budget mode scope next locals env data wide ready notRefused
    have correct : Correct lang budget ((Stmt.forLoop var range body).exec lang Dependable budget)
        (Stmt.forLoop var range body).lower :=
      Stmt.lower_correct wide (fun range evaluated dependable planned => by
        simpa [Dependable, planned] using dependable) _
    have follows := correct.follows data ready notRefused
    rw [← Stmt.exec_allowed _ env data notRefused] at follows
    exact follows.lands (forEach_ne_cont _ _)
  · intro S C E Y D F lang var range body budget scope next exit again targets built blocks frame data
      fresh contains
    exact @Stmt.lowerCfg_arrives S C E Y D F lang blocks budget (.forLoop var range body) scope next
      exit again built frame data (frame.vars scope) rfl fresh contains

/-! ### The end of the type -/

/-- A body that counts its passes, in a loop from `i32::MAX` to `i32::MAX`. -/
def counting : Lang Unit Empty Unit Empty Nat Empty where
  op _ _ passes := (passes + 1, none)
  cond condition := nomatch condition
  expr _ _ _ := 2147483647
  pause pause := nomatch pause

/-- `i32::MAX..=i32::MAX`, with constant or with computed bounds. -/
def fromTheTop (bound : Operand .i32 Unit) : RangeExpr Unit := ⟨.i32, bound, bound, none, true⟩

/-- The wrapped index is within the bound again. -/
theorem topLoop_spent (budget count : Nat) : ∀ (locals : Nat → Int) (passes : Nat),
    locals 1 = 2147483647 → locals 2 = 1 → InductionTy.Holds .i32 (locals 3) →
    (iterate .spent (fun state => state) (execBlock (mirSem counting) budget
      (forBody (emitForGuard 3 (.localVar 1) (.localVar 2) true) 3 .i32 (.localVar 2) none
        ⟨[.op (.inner () [4])], .continues, 5⟩)) count (locals, passes)).2 = .stop .spent := by
  induction count with
  | zero => exact fun _ _ _ _ _ => rfl
  | succ count ih =>
    intro locals passes stop step holds
    have guard := @exec_guard Unit Empty Unit Nat Empty Empty counting budget
      ((fromTheTop (.computed ())).eval counting [] 0) 3 (.localVar 1) (.localVar 2) locals passes
      stop step
    rw [if_pos (.inl ⟨by decide, by
      have upper := holds.2
      show locals 3 ≤ 2147483647
      simp only [InductionTy.bits] at upper
      omega⟩)] at guard
    have pass : execBlock (mirSem counting) budget
        (forBody (emitForGuard 3 (.localVar 1) (.localVar 2) true) 3 .i32 (.localVar 2) none
          ⟨[.op (.inner () [4])], .continues, 5⟩) (locals, passes)
        = ((Function.update (Function.update locals 4 (locals 3)) 3
            (InductionTy.wrap .i32 (locals 3 + locals 2)), passes + 1), .fall) := by
      have falls : execBlock (mirSem counting) budget
          (emitForGuard 3 (.localVar 1) (.localVar 2) true) (locals, passes)
          = ((locals, passes), .fall) := guard
      rw [forBody, execBlock_append, andThen, falls]
      rfl
    rw [iterate, pass]
    refine ih _ _ stop step ?_
    rw [Function.update_self]
    exact InductionTy.wrap_holds _ _

/-- **The end of the type.**  With computed bounds the structured loop spends every budget;
the range has one value. -/
theorem guardedLoop_wraps :
    ((Stmt.forLoop "i" (fromTheTop (.computed ())) [.op ()]).exec counting (fun _ _ => true) 0 [] 0
      = (1, .fall))
    ∧ ∀ budget, (execBlock (mirSem counting) budget
        ((Stmt.forLoop "i" (fromTheTop (.computed ())) [.op ()]).lower .plain [] 0).code
        (fun _ => 0, 0)).2 = .stop .spent := by
  refine ⟨by decide, fun budget => ?_⟩
  have snapshots : execBlock (mirSem counting) budget
      (snapshot 0 [] (fromTheTop (.computed ())).start ++ snapshot 1 [] (fromTheTop (.computed ())).stop
        ++ snapshot 2 [] (fromTheTop (.computed ())).stepOperand) (fun _ => 0, 0)
      = ((Function.update (Function.update (Function.update (fun _ => 0) 0 2147483647) 1 2147483647)
          2 1, 0), .fall) := rfl
  rw [Stmt.lower, lowerFor_dynamic rfl, execBlock_append, andThen, snapshots]
  dsimp only
  rw [execBlock_cons, andThen_assign, execBlock_singleton, exec_loop]
  exact topLoop_spent budget budget _ _ rfl rfl (by decide)

/-- With constant bounds the same loop runs once. -/
theorem staticLoop_ends : ∃ locals', Same 0 (fun _ => 0) locals'
    ∧ execBlock (mirSem counting) (2 ^ 64 + 1)
        ((Stmt.forLoop "i" (fromTheTop (.constant 2147483647)) [.op ()]).lower .plain [] 0).code
        (fun _ => 0, 0)
      = ((locals', 1), .fall) :=
  for_lowerings_agree.2.1 counting "i" (fromTheTop (.constant 2147483647)) [.op ()] (2 ^ 64 + 1) .plain
    [] 0 (fun _ => 0) [] 0 (by decide) ⟨rfl, by simp, trivial⟩ (by decide)

end Onda.Loops
