import Onda.Lib.Structured
import Onda.Loops.Range

/-!
# Statements with `for` loops

The source language of the lowerings.  Statements without control flow, conditions and
expressions are parameters; they read the variables of the enclosing loops, innermost
first, and assign none of them.  A `for` loop runs its body for the values of its range.

`allowed` refuses loops: a run that ends otherwise than with `refused` has entered
allowed loops only.
-/

namespace Onda.Loops

open Structured

/-- A bound or a step after its conversion to the induction type. -/
inductive Operand (ty : InductionTy) (E : Type) where
  | constant (value : BitVec ty.bits)
  | computed (expr : E)

/-- The range of a `for` loop; without a step it is one. -/
structure RangeExpr (E : Type) where
  ty : InductionTy
  start : Operand ty E
  stop : Operand ty E
  step : Option (Operand ty E)
  inclusive : Bool

/-- Statements; `S` are the ones without control flow, `Y` the suspension points. -/
inductive Stmt (S C E Y : Type) where
  | op (statement : S)
  | yield (pause : Y)
  | ret
  | ifElse (condition : C) (thenBranch elseBranch : List (Stmt S C E Y))
  | whileLoop (condition : C) (body : List (Stmt S C E Y))
  | forLoop (var : String) (range : RangeExpr E) (body : List (Stmt S C E Y))
  | brk
  | cont

/-- What the parameters mean for data `D`, given the variables of the enclosing loops. -/
structure Lang (S C E Y D F : Type) where
  op : S → List Int → D → D × Option F
  cond : C → List Int → D → Bool
  expr : E → List Int → D → Int
  pause : Y → D → D

/-- How a run stops. -/
inductive Halt (F : Type) where
  | spent
  | refused
  | failed (failure : F)
deriving DecidableEq

section Semantics

variable {S C E Y D F : Type} (lang : Lang S C E Y D F)

def Operand.eval {ty : InductionTy} (env : List Int) (data : D) : Operand ty E → Int
  | .constant value => value.toInt
  | .computed expr => ty.wrap (lang.expr expr env data)

theorem Operand.eval_holds {ty : InductionTy} (operand : Operand ty E) (env : List Int) (data : D) :
    ty.Holds (operand.eval lang env data) := by
  cases operand with
  | constant value => exact InductionTy.holds_toInt value
  | computed expr => exact InductionTy.wrap_holds _ _

/-- The step, one by default. -/
def RangeExpr.stepOperand (range : RangeExpr E) : Operand range.ty E :=
  range.step.getD (.constant 1)

def RangeExpr.eval (range : RangeExpr E) (env : List Int) (data : D) : Range where
  ty := range.ty
  start := range.start.eval lang env data
  stop := range.stop.eval lang env data
  step := range.stepOperand.eval lang env data
  inclusive := range.inclusive
  start_holds := range.start.eval_holds lang env data
  stop_holds := range.stop.eval_holds lang env data
  step_holds := range.stepOperand.eval_holds lang env data

/-- A body for some values in order; `break` ends the loop. -/
def forEach (body : Int → D → D × Outcome Unit (Halt F)) : List Int → D → D × Outcome Unit (Halt F)
  | [], data => (data, .fall)
  | value :: values, data =>
    match body value data with
    | (data, .fall) => forEach body values data
    | (data, .cont) => forEach body values data
    | (data, .brk) => (data, .fall)
    | (data, .ret result) => (data, .ret result)
    | (data, .stop reason) => (data, .stop reason)

variable (allowed : RangeExpr E → Range → Bool) (budget : Nat)

mutual

/-- One statement; `budget` bounds the passes of a `while` loop. -/
def Stmt.exec : Stmt S C E Y → List Int → D → D × Outcome Unit (Halt F)
  | .op statement, env, data =>
    match lang.op statement env data with
    | (data, none) => (data, .fall)
    | (data, some failure) => (data, .stop (.failed failure))
  | .yield pause, _, data => (lang.pause pause data, .fall)
  | .ret, _, data => (data, .ret ())
  | .ifElse condition thenBranch elseBranch, env, data =>
    if lang.cond condition env data then execAll thenBranch env data
    else execAll elseBranch env data
  | .whileLoop condition body, env, data =>
    iterate .spent id
      (fun data => if lang.cond condition env data then execAll body env data else (data, .brk))
      budget data
  | .forLoop _ range body, env, data =>
    if allowed range (range.eval lang env data) then
      forEach (fun value data => execAll body (value :: env) data)
        (range.eval lang env data).values data
    else (data, .stop .refused)
  | .brk, _, data => (data, .brk)
  | .cont, _, data => (data, .cont)

/-- Statements in order. -/
def execAll : List (Stmt S C E Y) → List Int → D → D × Outcome Unit (Halt F)
  | [], _, data => (data, .fall)
  | statement :: rest, env, data =>
    match statement.exec env data with
    | (data, .fall) => execAll rest env data
    | (data, .brk) => (data, .brk)
    | (data, .cont) => (data, .cont)
    | (data, .ret result) => (data, .ret result)
    | (data, .stop reason) => (data, .stop reason)

end

end Semantics

end Onda.Loops
