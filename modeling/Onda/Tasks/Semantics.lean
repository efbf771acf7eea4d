import Mathlib.Data.List.Basic

/-!
# Owner code with tasks

The code of a processor: assignments, calls, branches and loops over a store, and the two task
controls.  Expressions are shallow: an assignment is the target it names and its effect on the
store.

`await` resumes a task.  When the task does not complete, the activation of the code is over:
`Flow.unfinished` passes through every enclosing branch and loop.
-/

namespace Onda.Tasks

/-- The named cells of an owner (a scalar is cell 0) and everything else its code reads. -/
structure Store (V W : Type) where
  cells : String → Nat → V
  world : W

/-- `AssignTarget`, less its selectors. -/
inductive AssignTarget where
  | var (name : String)
  | index (base : String)
  | indexedMember (base : String)
  | slice (base : String)
  | tuple (names : List (Option String))
deriving DecidableEq

/-- The head of a loop: whether the pass with a number runs, and in which state, given the state
in which the loop was entered. -/
structure LoopHead (V W : Type) where
  pass : Store V W → Nat → Store V W → Option (Store V W)

namespace LoopHead

end LoopHead

/-- The conditions of branches.  All but the first are generated. -/
inductive Guard (V W : Type) where
  | source (test : Store V W → Bool)
  /-- The availability field. -/
  | available
  | notAvailable
  /-- `!task_resume(..)`. -/
  | notResumed (task : String)
  /-- `!task_result`. -/
  | notResult (task : String)

inductive Stmt (V W : Type) where
  | assign (target : AssignTarget) (run : Store V W → Store V W)
  /-- A print, or a call. -/
  | effect (run : Store V W → Store V W)
  | await (task : String)
  /-- `task.reset()`, also as the call of the reset function. -/
  | reset (task : String)
  | branch (guard : Guard V W) (thenBranch elseBranch : List (Stmt V W))
  | loop (head : LoopHead V W) (body : List (Stmt V W))
  | brk
  | cont
  | ret
  /-- Generated: the call of a resume function that leaves its result in the result field. -/
  | resume (task : String)
  /-- Generated: a write of the availability field. -/
  | setAvailable (available : Bool)
  /-- Generated: `TASK_ABORT_FN()`. -/
  | abort

/-- The compiled tasks: `resume` tells whether the body completed. -/
structure TaskDefs (V W : Type) where
  resume : String → Store V W → Bool × Store V W
  reset : String → Store V W → Store V W

/-- The store, with the fields that no source name can reach. -/
structure Machine (V W : Type) where
  store : Store V W
  available : Bool
  result : String → Bool

/-- How code hands control on. -/
inductive Flow where
  | next
  | brk
  | cont
  | ret
  /-- An awaited task did not complete. -/
  | unfinished
  /-- A loop used up its budget. -/
  | spent
deriving DecidableEq

section Execution

variable {V W : Type} (tasks : TaskDefs V W)

/-- The value of a guard; a resume call runs the task. -/
def Guard.eval : Guard V W → Machine V W → Bool × Machine V W
  | .source test, machine => (test machine.store, machine)
  | .available, machine => (machine.available, machine)
  | .notAvailable, machine => (!machine.available, machine)
  | .notResumed task, machine =>
    (!(tasks.resume task machine.store).1,
      { machine with store := (tasks.resume task machine.store).2 })
  | .notResult task, machine => (!machine.result task, machine)

/-- At most `budget` passes of a loop body. -/
def iterate (pass : Nat → Store V W → Option (Store V W))
    (body : Machine V W → Machine V W × Flow) :
    Nat → Nat → Machine V W → Machine V W × Flow
  | 0, _, machine => (machine, .spent)
  | budget + 1, number, machine =>
    match pass number machine.store with
    | none => (machine, .next)
    | some store =>
      match body { machine with store } with
      | (machine, .next) => iterate pass body budget (number + 1) machine
      | (machine, .cont) => iterate pass body budget (number + 1) machine
      | (machine, .brk) => (machine, .next)
      | (machine, .ret) => (machine, .ret)
      | (machine, .unfinished) => (machine, .unfinished)
      | (machine, .spent) => (machine, .spent)

mutual

/-- One statement; `budget` bounds the passes of each loop. -/
def Stmt.exec (budget : Nat) : Stmt V W → Machine V W → Machine V W × Flow
  | .assign _ run, machine => ({ machine with store := run machine.store }, .next)
  | .effect run, machine => ({ machine with store := run machine.store }, .next)
  | .await task, machine =>
    ({ machine with store := (tasks.resume task machine.store).2 },
      if (tasks.resume task machine.store).1 then .next else .unfinished)
  | .reset task, machine => ({ machine with store := tasks.reset task machine.store }, .next)
  | .branch guard thenBranch elseBranch, machine =>
    if (guard.eval tasks machine).1 then
      execAll budget thenBranch (guard.eval tasks machine).2
    else execAll budget elseBranch (guard.eval tasks machine).2
  | .loop head body, machine =>
    iterate (head.pass machine.store) (execAll budget body) budget 0 machine
  | .brk, machine => (machine, .brk)
  | .cont, machine => (machine, .cont)
  | .ret, machine => (machine, .ret)
  | .resume task, machine =>
    ({ machine with
        store := (tasks.resume task machine.store).2
        result := Function.update machine.result task (tasks.resume task machine.store).1 },
      .next)
  | .setAvailable available, machine => ({ machine with available }, .next)
  -- the marker has no body of its own: it is replaced before code is generated
  | .abort, machine => (machine, .next)

/-- Statements in order, until one of them does not hand on to the next. -/
def execAll (budget : Nat) : List (Stmt V W) → Machine V W → Machine V W × Flow
  | [], machine => (machine, .next)
  | stmt :: stmts, machine =>
    match Stmt.exec budget stmt machine with
    | (machine, .next) => execAll budget stmts machine
    | (machine, .brk) => (machine, .brk)
    | (machine, .cont) => (machine, .cont)
    | (machine, .ret) => (machine, .ret)
    | (machine, .unfinished) => (machine, .unfinished)
    | (machine, .spent) => (machine, .spent)

end

/-! ### Composition -/

variable {tasks}

@[simp] theorem execAll_nil (budget : Nat) (machine : Machine V W) :
    execAll tasks budget [] machine = (machine, .next) := rfl

variable {first second stmts : List (Stmt V W)} {machine machine' : Machine V W} {budget : Nat}

theorem execAll_cons_next {stmt : Stmt V W}
    (run : stmt.exec tasks budget machine = (machine', .next)) :
    execAll tasks budget (stmt :: stmts) machine = execAll tasks budget stmts machine' := by
  rw [execAll, run]

theorem execAll_cons_leave {stmt : Stmt V W} {flow : Flow} (leaves : flow ≠ .next)
    (run : stmt.exec tasks budget machine = (machine', flow)) :
    execAll tasks budget (stmt :: stmts) machine = (machine', flow) := by
  rw [execAll, run]
  cases flow with
  | next => exact absurd rfl leaves
  | brk | cont | ret | unfinished | spent => rfl

theorem execAll_append_next (run : execAll tasks budget first machine = (machine', .next)) :
    execAll tasks budget (first ++ second) machine = execAll tasks budget second machine' := by
  induction first generalizing machine with
  | nil =>
    obtain rfl : machine = machine' := congrArg Prod.fst run
    rfl
  | cons stmt stmts ih =>
    rcases head : stmt.exec tasks budget machine with ⟨between, flow⟩
    cases flow with
    | next =>
      rw [execAll_cons_next head] at run
      rw [List.cons_append, execAll_cons_next head, ih run]
    | brk | cont | ret | unfinished | spent =>
      rw [execAll_cons_leave (by simp) head] at run
      cases run

theorem execAll_append_leave {flow : Flow} (leaves : flow ≠ .next)
    (run : execAll tasks budget first machine = (machine', flow)) :
    execAll tasks budget (first ++ second) machine = (machine', flow) := by
  induction first generalizing machine with
  | nil => exact absurd (congrArg Prod.snd run).symm leaves
  | cons stmt stmts ih =>
    rcases head : stmt.exec tasks budget machine with ⟨between, flow'⟩
    cases flow' with
    | next =>
      rw [execAll_cons_next head] at run
      rw [List.cons_append, execAll_cons_next head, ih run]
    | brk | cont | ret | unfinished | spent =>
      rw [execAll_cons_leave (by simp) head] at run
      rw [List.cons_append, execAll_cons_leave (by simp) head, run]

theorem execAll_singleton (budget : Nat) (stmt : Stmt V W) (machine : Machine V W) :
    execAll tasks budget [stmt] machine = stmt.exec tasks budget machine := by
  rcases head : stmt.exec tasks budget machine with ⟨machine', flow⟩
  by_cases flows : flow = .next
  · subst flows
    rw [execAll_cons_next head, execAll_nil]
  · rw [execAll_cons_leave flows head]

end Execution

end Onda.Tasks
