import Onda.Tasks.Simulation

/-!
# Task controls keep the meaning of code

The lowering of task controls on source code, in a processor and at the top level.  Both are
inductions on the code; at the top level a loop needs the check that follows it, and the check is
there whenever the loop awaits.
-/

namespace Onda.Tasks

variable {V W : Type} {tasks : TaskDefs V W} {budget : Nat}

/-! ### Lists of statements -/

theorem replaceTaskAbort_append (marker : Stmt V W) (first second : List (Stmt V W)) :
    replaceTaskAbort marker (first ++ second) =
      replaceTaskAbort marker first ++ replaceTaskAbort marker second := by
  induction first with
  | nil => rfl
  | cons stmt stmts ih => simp [replaceTaskAbort, ih]

theorem propagateTaskAbortThroughLoops_append (first second : List (Stmt V W)) :
    propagateTaskAbortThroughLoops (first ++ second) =
      propagateTaskAbortThroughLoops first ++ propagateTaskAbortThroughLoops second := by
  induction first with
  | nil => rfl
  | cons stmt stmts ih => simp [propagateTaskAbortThroughLoops, ih]

theorem containsTaskAbort_append (first second : List (Stmt V W)) :
    containsTaskAbort (first ++ second) =
      (containsTaskAbort first || containsTaskAbort second) := by
  induction first with
  | nil => rfl
  | cons stmt stmts ih => simp [containsTaskAbort, ih, Bool.or_assoc]

/-- Code that leaves an unavailable activation. -/
def LeavesUnavailable (tasks : TaskDefs V W) (budget : Nat) (stop : Flow)
    (neutral : Store V W → Store V W) (code : List (Stmt V W)) : Prop :=
  ∀ machine, execAll tasks budget code machine =
    ({ machine with store := neutral machine.store, available := false }, stop)

section Await

variable {stop : Flow} {neutral : Store V W → Store V W} {unavailable : List (Stmt V W)}

/-- The branch on a resume call, in a processor. -/
theorem CodeFollows.await_returned (leaves : LeavesUnavailable tasks budget stop neutral unavailable)
    (task : String) :
    CodeFollows stop neutral ((Stmt.await task).exec tasks budget)
      (execAll tasks budget [.branch (.notResumed task) unavailable []]) := by
  intro machine machine' together
  rw [execAll_singleton, Stmt.exec, Stmt.exec]
  simp only [Guard.eval, together.store]
  rcases (tasks.resume task machine.store).1 with _ | _
  · refine ⟨fun _ => ?_, fun finished => absurd rfl finished⟩
    simp [leaves _]
  · exact Follows.same (by simp) ⟨rfl, together.available⟩

/-- The resume call and the branch on its result, at the top level. -/
theorem CodeFollows.await_runtimeField
    (leaves : LeavesUnavailable tasks budget stop neutral unavailable) (task : String) :
    CodeFollows stop neutral ((Stmt.await task).exec tasks budget)
      (execAll tasks budget [.resume task, .branch (.notResult task) unavailable []]) := by
  intro machine machine' together
  have resumes : (Stmt.resume task).exec tasks budget machine' =
      ({ machine' with
          store := (tasks.resume task machine.store).2
          result := Function.update machine'.result task (tasks.resume task machine.store).1 },
        .next) := by
    rw [Stmt.exec, together.store]
  rw [execAll_cons_next resumes, execAll_singleton, Stmt.exec, Stmt.exec]
  simp only [Guard.eval, Function.update_self]
  rcases (tasks.resume task machine.store).1 with _ | _
  · refine ⟨fun _ => ?_, fun finished => absurd rfl finished⟩
    simp [leaves _]
  · exact Follows.same (by simp) ⟨rfl, together.available⟩

end Await

/-! ### In a processor -/

section Returned

variable {neutral : Store V W → Store V W} {unavailable : List (Stmt V W)}

mutual

theorem Stmt.follows_returned
    (leaves : LeavesUnavailable tasks budget .ret neutral (materializeTaskAbort unavailable)) :
    ∀ stmt : Stmt V W, stmt.isSource = true →
      CodeFollows .ret neutral (stmt.exec tasks budget)
        (execAll tasks budget
          (materializeTaskAbort (stmt.rewriteTaskControls unavailable .returned)))
  | .await task, _ => CodeFollows.await_returned leaves task
  | .branch guard thenBranch elseBranch, source => by
    simp only [Stmt.isSource, Bool.and_eq_true] at source
    obtain ⟨⟨plain, thenSource⟩, elseSource⟩ := source
    cases guard with
    | source test =>
      intro machine machine' together
      rw [materializeTaskAbort, Stmt.rewriteTaskControls, replaceTaskAbort, replaceTaskAbort,
        execAll_singleton]
      exact CodeFollows.branch (execAll_follows_returned leaves thenBranch thenSource)
        (execAll_follows_returned leaves elseBranch elseSource) machine machine' together
    | available => cases plain
    | notAvailable => cases plain
    | notResumed task => cases plain
    | notResult task => cases plain
  | .loop head body, source => by
    intro machine machine' together
    rw [materializeTaskAbort, Stmt.rewriteTaskControls, replaceTaskAbort, replaceTaskAbort,
      execAll_singleton, Stmt.exec, Stmt.replaceTaskAbort, Stmt.exec, together.store]
    exact CodeFollows.iterate (.inr rfl) (execAll_follows_returned leaves body source) budget 0
      machine machine' together
  | .assign _ run, _ | .effect run, _ => CodeFollows.update run
  | .reset task, _ => CodeFollows.update (tasks.reset task)
  | .brk, _ | .cont, _ | .ret, _ => CodeFollows.jump (by simp)

/-- In a processor, code with lowered task controls follows its source. -/
theorem execAll_follows_returned
    (leaves : LeavesUnavailable tasks budget .ret neutral (materializeTaskAbort unavailable)) :
    ∀ stmts : List (Stmt V W), isSource stmts = true →
      CodeFollows .ret neutral (execAll tasks budget stmts)
        (execAll tasks budget
          (materializeTaskAbort (rewriteTaskControls unavailable .returned stmts)))
  | [], _ => CodeFollows.jump (by simp)
  | stmt :: stmts, source => by
    simp only [isSource, Bool.and_eq_true] at source
    rw [rewriteTaskControls, materializeTaskAbort, replaceTaskAbort_append]
    exact CodeFollows.cons (by simp) (Stmt.follows_returned leaves stmt source.1)
      (execAll_follows_returned leaves stmts source.2)

end

end Returned

/-! ### At the top level -/

section RuntimeField

variable {neutral : Store V W → Store V W} {unavailable : List (Stmt V W)}

/-- What makes the abort of an unavailable top level recognizable. -/
structure Abortable (tasks : TaskDefs V W) (budget : Nat) (neutral : Store V W → Store V W)
    (unavailable : List (Stmt V W)) : Prop where
  marked : containsTaskAbort (propagateTaskAbortThroughLoops unavailable) = true
  leaves : LeavesUnavailable tasks budget .brk neutral
    (lowerTaskAbort (propagateTaskAbortThroughLoops unavailable))

mutual

theorem Stmt.awaits_marked
    (marked : containsTaskAbort (propagateTaskAbortThroughLoops unavailable) = true) :
    ∀ stmt : Stmt V W, stmt.awaits = true →
      containsTaskAbort (propagateTaskAbortThroughLoops
        (stmt.rewriteTaskControls unavailable .runtimeField)) = true
  | .await task, _ => by
    simp [Stmt.rewriteTaskControls, propagateTaskAbortThroughLoops, Stmt.propagateTaskAbort,
      containsTaskAbort, Stmt.containsTaskAbort, marked]
  | .branch guard thenBranch elseBranch, here => by
    simp only [Stmt.awaits, Bool.or_eq_true] at here
    simp only [Stmt.rewriteTaskControls, propagateTaskAbortThroughLoops, Stmt.propagateTaskAbort,
      containsTaskAbort, Stmt.containsTaskAbort, List.cons_append, List.nil_append,
      Bool.or_false, Bool.or_eq_true]
    rcases here with here | here
    · exact .inl (awaits_marked marked thenBranch here)
    · exact .inr (awaits_marked marked elseBranch here)
  | .loop head body, here => by
    simp [Stmt.rewriteTaskControls, propagateTaskAbortThroughLoops, Stmt.propagateTaskAbort,
      containsTaskAbort, Stmt.containsTaskAbort, awaits_marked marked body here]

/-- An await leaves the abort marker, and no loop hides it. -/
theorem awaits_marked
    (marked : containsTaskAbort (propagateTaskAbortThroughLoops unavailable) = true) :
    ∀ stmts : List (Stmt V W), awaits stmts = true →
      containsTaskAbort (propagateTaskAbortThroughLoops
        (rewriteTaskControls unavailable .runtimeField stmts)) = true
  | stmt :: stmts, here => by
    simp only [awaits, Bool.or_eq_true] at here
    rw [rewriteTaskControls, propagateTaskAbortThroughLoops_append, containsTaskAbort_append,
      Bool.or_eq_true]
    rcases here with here | here
    · exact .inl (Stmt.awaits_marked marked stmt here)
    · exact .inr (awaits_marked marked stmts here)

end

/-- A loop that breaks when an await does not complete, and the check that follows it. -/
theorem CodeFollows.checked {loop loop' : Stmt V W}
    (follows : CodeFollows .next neutral (loop.exec tasks budget) (loop'.exec tasks budget)) :
    CodeFollows .brk neutral (loop.exec tasks budget)
      (execAll tasks budget [loop', .branch .notAvailable [.brk] []]) := by
  intro machine machine' together
  have follows := follows machine machine' together
  rcases source : loop.exec tasks budget machine with ⟨after, flow⟩
  rcases lowered : loop'.exec tasks budget machine' with ⟨after', flow'⟩
  rw [source, lowered] at follows
  by_cases stopped : flow = .unfinished
  · obtain ⟨flows, cleared, neutralized⟩ := follows.unfinished stopped
    obtain rfl : flow' = .next := flows
    have fires : (Guard.eval tasks .notAvailable after').1 = true := by
      rw [Guard.eval]
      exact congrArg not cleared
    rw [execAll_cons_next lowered, execAll_singleton, exec_branch_then fires, execAll_singleton]
    exact ⟨fun _ => ⟨rfl, cleared, neutralized⟩, fun finished => absurd stopped finished⟩
  · obtain ⟨flows, up, same⟩ := follows.finished stopped
    obtain rfl : flow' = flow := flows
    by_cases hands : flow' = .next
    · subst hands
      have passes : (Guard.eval tasks .notAvailable after').1 = false := by
        rw [Guard.eval]
        exact congrArg not up
      rw [execAll_cons_next lowered, execAll_singleton, exec_branch_else passes]
      exact Follows.same stopped ⟨same, up⟩
    · rw [execAll_cons_leave hands lowered]
      exact Follows.same stopped ⟨same, up⟩

/-- Code that always finishes does not depend on how an unfinished one would stop. -/
theorem CodeFollows.finishing {stop stop' : Flow} {neutral' : Store V W → Store V W}
    {source lowered : Machine V W → Machine V W × Flow}
    (finishes : ∀ machine, (source machine).2 ≠ .unfinished)
    (follows : CodeFollows stop neutral source lowered) :
    CodeFollows stop' neutral' source lowered := by
  intro machine machine' together
  exact ⟨fun stopped => absurd stopped (finishes machine),
    (follows machine machine' together).finished⟩

mutual

theorem Stmt.follows_runtimeField (abortable : Abortable tasks budget neutral unavailable) :
    ∀ stmt : Stmt V W, stmt.isSource = true →
      CodeFollows .brk neutral (stmt.exec tasks budget)
        (execAll tasks budget (lowerTaskAbort (propagateTaskAbortThroughLoops
          (stmt.rewriteTaskControls unavailable .runtimeField))))
  | .await task, _ => by
    have follows := CodeFollows.await_runtimeField abortable.leaves task
    simpa only [Stmt.rewriteTaskControls, propagateTaskAbortThroughLoops, Stmt.propagateTaskAbort,
      lowerTaskAbort, replaceTaskAbort, Stmt.replaceTaskAbort, List.cons_append,
      List.nil_append] using follows
  | .branch guard thenBranch elseBranch, source => by
    simp only [Stmt.isSource, Bool.and_eq_true] at source
    obtain ⟨⟨plain, thenSource⟩, elseSource⟩ := source
    cases guard with
    | source test =>
      intro machine machine' together
      simp only [Stmt.rewriteTaskControls, propagateTaskAbortThroughLoops,
        Stmt.propagateTaskAbort, lowerTaskAbort, replaceTaskAbort, Stmt.replaceTaskAbort,
        List.cons_append, List.nil_append, execAll_singleton]
      exact CodeFollows.branch (execAll_follows_runtimeField abortable thenBranch thenSource)
        (execAll_follows_runtimeField abortable elseBranch elseSource) machine machine' together
    | available => cases plain
    | notAvailable => cases plain
    | notResumed task => cases plain
    | notResult task => cases plain
  | .loop head body, source => by
    have body_follows := execAll_follows_runtimeField abortable body source
    have loop_follows : CodeFollows (Flow.afterLoop .brk) neutral
        ((Stmt.loop head body).exec tasks budget)
        ((Stmt.loop head (lowerTaskAbort (propagateTaskAbortThroughLoops
          (rewriteTaskControls unavailable .runtimeField body)))).exec tasks budget) := by
      intro machine machine' together
      rw [Stmt.exec, Stmt.exec, together.store]
      exact CodeFollows.iterate (.inl rfl) body_follows budget 0 machine machine' together
    by_cases marked : containsTaskAbort (propagateTaskAbortThroughLoops
        (rewriteTaskControls unavailable .runtimeField body)) = true
    · have follows := CodeFollows.checked loop_follows
      simpa only [Stmt.rewriteTaskControls, propagateTaskAbortThroughLoops,
        Stmt.propagateTaskAbort, if_pos marked, lowerTaskAbort, replaceTaskAbort,
        Stmt.replaceTaskAbort, List.cons_append, List.nil_append] using follows
    · have plain : awaits body = false := by
        by_contra here
        exact marked (awaits_marked abortable.marked body (by simpa using here))
      intro machine machine' together
      have follows : CodeFollows .brk neutral ((Stmt.loop head body).exec tasks budget) _ :=
        CodeFollows.finishing (Stmt.finishes (.loop head body) plain) loop_follows
      simpa only [Stmt.rewriteTaskControls, propagateTaskAbortThroughLoops,
        Stmt.propagateTaskAbort, if_neg marked, lowerTaskAbort, replaceTaskAbort,
        Stmt.replaceTaskAbort, List.cons_append, List.nil_append, execAll_singleton] using
        follows machine machine' together
  | .assign _ run, _ | .effect run, _ => CodeFollows.update run
  | .reset task, _ => CodeFollows.update (tasks.reset task)
  | .brk, _ | .cont, _ | .ret, _ => CodeFollows.jump (by simp)

/-- At the top level, code with lowered task controls follows its source. -/
theorem execAll_follows_runtimeField (abortable : Abortable tasks budget neutral unavailable) :
    ∀ stmts : List (Stmt V W), isSource stmts = true →
      CodeFollows .brk neutral (execAll tasks budget stmts)
        (execAll tasks budget (lowerTaskAbort (propagateTaskAbortThroughLoops
          (rewriteTaskControls unavailable .runtimeField stmts))))
  | [], _ => CodeFollows.jump (by simp)
  | stmt :: stmts, source => by
    simp only [isSource, Bool.and_eq_true] at source
    rw [rewriteTaskControls, propagateTaskAbortThroughLoops_append, lowerTaskAbort,
      replaceTaskAbort_append]
    exact CodeFollows.cons (by simp) (Stmt.follows_runtimeField abortable stmt source.1)
      (execAll_follows_runtimeField abortable stmts source.2)

end

end RuntimeField

end Onda.Tasks
