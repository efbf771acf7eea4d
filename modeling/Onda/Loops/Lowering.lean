import Onda.Loops.Source

/-!
# Structured lowering of `for` loops

`lower_statements` turns the statements into structured MIR.  A `for` loop becomes an
unconditional loop over an induction local.  With a static plan the latch leaves it at
the last value; otherwise a guard in front of the body compares the local with the end,
and the latch increments it.  A `continue` of the body brings its own latch.

The comparison that a branch needs is written as the condition of the branch; in MIR it
is a temporary local.  New locals are numbered from `next` on.
-/

namespace Onda.Loops

open Structured

/-- An integer operand. -/
inductive Value where
  | constant (value : Int)
  | localVar (id : Nat)
deriving DecidableEq

inductive CompareOp where
  | greater
  | less
  | lessEqual
  | greaterEqual
  | equal
deriving DecidableEq

/-- Operations: the statements of the source with the locals of their loop variables, and
the integer assignments of the lowering. -/
inductive MirOp (S E : Type) where
  | inner (statement : S) (scope : List Nat)
  | assign (destination : Nat) (value : Value)
  | evaluate (destination : Nat) (ty : InductionTy) (expr : E) (scope : List Nat)
  | add (destination : Nat) (ty : InductionTy) (lhs rhs : Value)

inductive MirCond (C : Type) where
  | inner (condition : C) (scope : List Nat)
  | compare (op : CompareOp) (lhs rhs : Value)

abbrev MirBlock (S C E : Type) := List (Stm (MirOp S E) (MirCond C) Unit)

/-- `ContinueMode`, inside a loop. -/
inductive ContinueMode where
  | plain
  | forLoop (index : Nat) (ty : InductionTy) (step : Value) (last : Option Value)

/-- `StatementFlow`. -/
inductive StatementFlow where
  | continues
  | terminates
deriving DecidableEq

/-! ### Meaning -/

section Meaning

variable {S C E Y D F : Type}

def Value.eval (locals : Nat → Int) : Value → Int
  | .constant value => value
  | .localVar id => locals id

def CompareOp.Holds : CompareOp → Int → Int → Prop
  | .greater, lhs, rhs => rhs < lhs
  | .less, lhs, rhs => lhs < rhs
  | .lessEqual, lhs, rhs => lhs ≤ rhs
  | .greaterEqual, lhs, rhs => rhs ≤ lhs
  | .equal, lhs, rhs => lhs = rhs

instance : ∀ (op : CompareOp) (lhs rhs : Int), Decidable (op.Holds lhs rhs)
  | .greater, lhs, rhs => inferInstanceAs (Decidable (rhs < lhs))
  | .less, lhs, rhs => inferInstanceAs (Decidable (lhs < rhs))
  | .lessEqual, lhs, rhs => inferInstanceAs (Decidable (lhs ≤ rhs))
  | .greaterEqual, lhs, rhs => inferInstanceAs (Decidable (rhs ≤ lhs))
  | .equal, lhs, rhs => inferInstanceAs (Decidable (lhs = rhs))

/-- The machine: integer locals beside the data of the source. -/
def mirSem (lang : Lang S C E Y D F) :
    Sem ((Nat → Int) × D) (MirOp S E) (MirCond C) Unit Unit (Halt F) where
  op
    | .inner statement scope, (locals, data) =>
      ((locals, (lang.op statement (scope.map locals) data).1),
        (lang.op statement (scope.map locals) data).2.map .failed)
    | .assign destination value, (locals, data) =>
      ((Function.update locals destination (value.eval locals), data), none)
    | .evaluate destination ty expr scope, (locals, data) =>
      ((Function.update locals destination (ty.wrap (lang.expr expr (scope.map locals) data)), data),
        none)
    | .add destination ty lhs rhs, (locals, data) =>
      ((Function.update locals destination (ty.wrap (lhs.eval locals + rhs.eval locals)), data), none)
  cond
    | .inner condition scope, (locals, data) =>
      ((locals, data), .ok (lang.cond condition (scope.map locals) data))
    | .compare op lhs rhs, (locals, data) =>
      ((locals, data), .ok (decide (op.Holds (lhs.eval locals) (rhs.eval locals))))
  ret _ state := (state, .ok ())
  again _ state := state
  spent := .spent

end Meaning

/-! ### Lowering -/

section Lower

variable {S C E : Type}

/-- `push_guard_or_break`. -/
def pushGuardOrBreak (condition : MirCond C) : MirBlock S C E := [.ite condition [] [.brk]]

/-- `emit_for_guard`. -/
def emitForGuard (index : Nat) (stop step : Value) (inclusive : Bool) : MirBlock S C E :=
  [.ite (.compare .greater step (.constant 0))
    (pushGuardOrBreak (.compare (if inclusive then .lessEqual else .less) (.localVar index) stop))
    [.ite (.compare .less step (.constant 0))
      (pushGuardOrBreak
        (.compare (if inclusive then .greaterEqual else .greater) (.localVar index) stop))
      [.brk]]]

/-- `emit_for_latch`. -/
def emitForLatch (index : Nat) (ty : InductionTy) (step : Value) (last : Option Value) :
    MirBlock S C E :=
  match last with
  | none => [.op (.add index ty (.localVar index) step)]
  | some last =>
    [.ite (.compare .equal (.localVar index) last) [.brk]
      [.op (.add index ty (.localVar index) step)]]

/-- What a `continue` brings along. -/
def ContinueMode.latch : ContinueMode → MirBlock S C E
  | .plain => []
  | .forLoop index ty step last => emitForLatch index ty step last

/-- The code of some statements, whether control reaches its end, and the next new local. -/
structure Lowered (S C E : Type) where
  code : MirBlock S C E
  flow : StatementFlow
  next : Nat

/-- `snapshot` of a bound into a new local. -/
def snapshot {ty : InductionTy} (destination : Nat) (scope : List Nat) :
    Operand ty E → MirBlock S C E
  | .constant value => [.op (.assign destination (.constant value.toInt))]
  | .computed expr => [.op (.evaluate destination ty expr scope)]

/-- A constant as a MIR value. -/
def InductionTy.constant : (ty : InductionTy) → BitVec ty.bits → Onda.Mir.ScalarValue
  | .i32, value => .i32 value
  | .i64, value => .i64 value

/-- The static plan, for constant bounds and a constant step. -/
def RangeExpr.plan (range : RangeExpr E) : Option StaticForPlan :=
  match range.start, range.stop, range.stepOperand with
  | .constant start, .constant stop, .constant step =>
    (staticForPlan (range.ty.constant start) (range.ty.constant stop) (range.ty.constant step)
      range.inclusive).join
  | _, _, _ => none

/-- The latch behind a body, where its end is reached. -/
def StatementFlow.latch (flow : StatementFlow) (index : Nat) (ty : InductionTy) (step : Value)
    (last : Option Value) : MirBlock S C E :=
  match flow with
  | .continues => emitForLatch index ty step last
  | .terminates => []

/-- The loop of `lower_for`: the body gets a copy of the index, and the latch follows. -/
def forBody (guard : MirBlock S C E) (index : Nat) (ty : InductionTy) (step : Value)
    (last : Option Value) (body : Lowered S C E) : MirBlock S C E :=
  guard ++ .op (.assign (index + 1) (.localVar index)) ::
    (body.code ++ body.flow.latch index ty step last)

/-- `lower_for`. -/
def lowerFor (range : RangeExpr E) (scope : List Nat) (next : Nat)
    (lowerBody : ContinueMode → List Nat → Nat → Lowered S C E) : Lowered S C E :=
  match range.plan with
  | some .empty => ⟨[], .continues, next⟩
  | some (.nonEmpty _ _ last) =>
    let last := some (Value.constant (last.toInt?.getD 0))
    let step := match range.stepOperand with
      | .constant value => Value.constant value.toInt
      | .computed _ => Value.constant 0
    let body := lowerBody (.forLoop next range.ty step last) ((next + 1) :: scope) (next + 2)
    ⟨snapshot next scope range.start ++ [.loop (forBody [] next range.ty step last body)],
      .continues, body.next⟩
  | none =>
    let start := Value.localVar next
    let stop := Value.localVar (next + 1)
    let step := Value.localVar (next + 2)
    let body := lowerBody (.forLoop (next + 3) range.ty step none) ((next + 4) :: scope) (next + 5)
    ⟨snapshot next scope range.start ++ snapshot (next + 1) scope range.stop
        ++ snapshot (next + 2) scope range.stepOperand
        ++ [.op (.assign (next + 3) start),
          .loop (forBody (emitForGuard (next + 3) stop step range.inclusive) (next + 3) range.ty
            step none body)],
      .continues, body.next⟩

mutual

/-- One statement of `lower_statements`. -/
def Stmt.lower : Stmt S C E Empty → ContinueMode → List Nat → Nat → Lowered S C E
  | .op statement, _, scope, next => ⟨[.op (.inner statement scope)], .continues, next⟩
  | .yield pause, _, _, _ => nomatch pause
  | .ret, _, _, next => ⟨[.ret ()], .terminates, next⟩
  | .ifElse condition thenBranch elseBranch, mode, scope, next =>
    let thenBlock := lowerStatements thenBranch mode scope next
    let elseBlock := lowerStatements elseBranch mode scope thenBlock.next
    ⟨[.ite (.inner condition scope) thenBlock.code elseBlock.code],
      if thenBlock.flow = .terminates ∧ elseBlock.flow = .terminates then .terminates
      else .continues,
      elseBlock.next⟩
  | .whileLoop condition body, _, scope, next =>
    let body := lowerStatements body .plain scope next
    ⟨[.loop [.ite (.inner condition scope) body.code [.brk]]], .continues, body.next⟩
  | .forLoop _ range body, _, scope, next =>
    lowerFor range scope next fun mode scope next => lowerStatements body mode scope next
  | .brk, _, _, next => ⟨[.brk], .terminates, next⟩
  | .cont, mode, _, next => ⟨mode.latch ++ [.cont], .terminates, next⟩

/-- `lower_statements`; nothing is lowered behind a statement that terminates. -/
def lowerStatements : List (Stmt S C E Empty) → ContinueMode → List Nat → Nat → Lowered S C E
  | [], _, _, next => ⟨[], .continues, next⟩
  | statement :: rest, mode, scope, next =>
    let first := statement.lower mode scope next
    match first.flow with
    | .terminates => first
    | .continues =>
      let others := lowerStatements rest mode scope first.next
      ⟨first.code ++ others.code, others.flow, others.next⟩

end

end Lower

end Onda.Loops
