import Mathlib.Data.List.Basic

/-!
# Expressions

The expressions of the language as the parser builds them.  A float is its raw
encoding.
-/

namespace Onda.Frontend

/-! ### Leaves -/

structure SourceContext where
  file : Option String
  trace : List String
deriving DecidableEq, Repr

structure Span where
  line : Nat
  column : Nat
  endLineDelta : Nat
  endColumn : Nat
  context : Option SourceContext
deriving DecidableEq, Repr

def Span.ZERO : Span where
  line := 0
  column := 0
  endLineDelta := 0
  endColumn := 0
  context := none

inductive PrimitiveType where
  | f32 | f64 | i32 | i64 | bool
deriving DecidableEq, Repr

inductive ArrayElemType where
  | primitive (ty : PrimitiveType)
  | struct (name : String)
deriving DecidableEq, Repr

inductive CallTypeArg where
  | primitive (ty : PrimitiveType)
  | generic (name : String)
deriving DecidableEq, Repr

inductive BuiltinFn where
  | sin | cos | tan | tanh | atan | atan2 | exp | log | sqrt | pow | abs | floor | ceil | round
  | trunc | min | max | fma | rangeClamp | bindingCountClamp | bindingRangeClamp
  | bindingRangeInclusiveClamp | rangeWrap | bindingCountWrap | bindingRangeWrap
  | bindingRangeInclusiveWrap
deriving DecidableEq, Repr

inductive BinaryOp where
  | add | sub | mul | div | mod | bitAnd | bitOr | bitXor | shiftLeft | shiftRight
deriving DecidableEq, Repr

inductive LogicalOp where
  | and | or
deriving DecidableEq, Repr

inductive CmpOp where
  | eq | ne | lt | le | gt | ge
deriving DecidableEq, Repr

/-! ### Expressions -/

structure ArrayTypeSpec (E : Type) where
  elem : ArrayElemType
  size : E

structure CallArg (E : Type) where
  name : Option String
  expr : E

inductive Expr where
  | number (loc : Span) (value : BitVec 64)
  | int (loc : Span) (value : BitVec 64) (constTy : Option PrimitiveType)
  | bool (loc : Span) (value : Bool)
  | arrayLiteral (loc : Span) (values : List Expr)
  | var (loc : Span) (name : String)
  | index (loc : Span) (base : String) (index : Expr)
  | slice (loc : Span) (base : String) (selector channel start stop : Option Expr)
  | arrayCtor (loc : Span) (spec : ArrayTypeSpec Expr) (init : Option (List Expr))
      (initIsValue initializes : Bool)
  | compare (loc : Span) (op : CmpOp) (lhs rhs : Expr)
  | call (loc : Span) (func : BuiltinFn) (args : List Expr)
  | userCall (loc : Span) (name : String) (typeArgs : List CallTypeArg)
      (args : List (CallArg Expr))
  | cast (loc : Span) (target : PrimitiveType) (expr : Expr)
  | unaryNot (loc : Span) (expr : Expr)
  | unaryBitNot (loc : Span) (expr : Expr)
  | logical (loc : Span) (op : LogicalOp) (lhs rhs : Expr)
  | binary (loc : Span) (op : BinaryOp) (lhs rhs : Expr)
  | tuple (loc : Span) (values : List Expr)

namespace Expr

/-- An integer literal of the compiler. -/
def ofInt (value : BitVec 64) : Expr := .int Span.ZERO value none

end Expr

end Onda.Frontend
