import Onda.Lib.Reach
import Onda.Lib.Renumber
import Onda.Mir.MayFail
import Onda.Mir.References

/-!
# Removal of dead values

`dead_values.rs` drops the assignments to locals that no effect depends on.  A local
is live if a statement that stays reads it, or an assignment to a live local does;
locals are not in static single assignment form, so every assignment to a live local
counts.  Then `passes.rs` drops the locals that no statement mentions and renumbers
the others.
-/

namespace Onda.Mir

open Structured Analysis

namespace DeadValues

/-! ### Liveness -/

mutual

/-- A statement and those nested in it. -/
def nestedStatements : Statement → List Statement
  | .ite condition thenBlock elseBlock =>
    .ite condition thenBlock elseBlock :: (allStatements thenBlock ++ allStatements elseBlock)
  | .loop body => .loop body :: allStatements body
  | statement => [statement]

def allStatements : Block → List Statement
  | [] => []
  | statement :: rest => nestedStatements statement ++ allStatements rest

end

variable (types : List MirType) (locals : List Local)

/-- The local that a statement assigns to, if the statement can be dropped where
the local is dead. -/
def discardableDestination : Statement → Option LocalId
  | .op (.assign ⟨.localVar localId, []⟩ value) =>
    if rvalueMayFail types locals value then none else some localId
  | _ => none

/-- What the assignments to a local read, of those that can be dropped. -/
def dependencies (statements : List Statement) (localId : LocalId) : List LocalId :=
  statements.flatMap fun statement =>
    if discardableDestination types locals statement = some localId then statementReads statement
    else []

/-- What the statements read that stay in any case. -/
def roots (statements : List Statement) : List LocalId :=
  statements.flatMap fun statement =>
    if discardableDestination types locals statement = none then statementReads statement else []

theorem dependencies_read (statements : List Statement) (localId : LocalId) :
    ∀ dependency ∈ dependencies types locals statements localId,
      dependency ∈ statements.flatMap statementReads := by
  intro dependency mem
  obtain ⟨statement, inside, reads⟩ := List.mem_flatMap.mp mem
  split at reads
  · exact List.mem_flatMap.mpr ⟨statement, inside, reads⟩
  · cases reads

def liveLocals (statements : List Statement) : List LocalId :=
  Reach.closure (dependencies types locals statements) (statements.flatMap statementReads)
    (dependencies_read types locals statements) (roots types locals statements)

/-! ### Removal -/

/-- The statement assigns to a dead local. -/
def isDead (live : List LocalId) (statement : Statement) : Bool :=
  (discardableDestination types locals statement).any fun localId => decide (localId ∉ live)

mutual

def retainStatement (live : List LocalId) : Statement → Statement
  | .ite condition thenBlock elseBlock =>
    .ite condition (retainLiveAssignments live thenBlock) (retainLiveAssignments live elseBlock)
  | .loop body => .loop (retainLiveAssignments live body)
  | statement => statement

def retainLiveAssignments (live : List LocalId) : Block → Block
  | [] => []
  | statement :: rest =>
    if isDead types locals live statement then retainLiveAssignments live rest
    else retainStatement live statement :: retainLiveAssignments live rest

end

/-- `dead_values::remove` -/
def remove (body : Block) : Block :=
  retainLiveAssignments types locals (liveLocals types locals (allStatements body)) body

/-- The locals that a block mentions. -/
def referencedMask (count : Nat) (body : Block) : List Bool :=
  (List.range count).map fun localId => decide (localId ∈ referencedLocals body)

end DeadValues

open DeadValues Renumber

/-- `remove_dead_pure_locals`; there is no result where the source panics. -/
def Function.removeDeadPureLocals (types : List MirType) (function : Function) :
    Option Function := do
  let body := remove types function.locals function.body
  let mask := referencedMask function.locals.length body
  let renumbered ← rewriteBlock (.ofLocals (numbers 0 mask)) body
  some { function with locals := kept mask function.locals, body := renumbered }

def Program.removeDeadPureLocals (program : Program) : Option Program := do
  let functions ← program.functions.mapM (·.removeDeadPureLocals program.types)
  some { program with functions := functions }

end Onda.Mir
