import Onda.Frontend.Expr

/-!
# Statements

The statements of the language as the parser builds them, and the ones that the compiler
builds itself.
-/

namespace Onda.Frontend

inductive DeclType where
  | scalar (ty : PrimitiveType)
  | slice (elem : ArrayElemType)
  | generic (name : String)
  | arrayGeneric (elem : String) (size : Expr)
  | array (elem : PrimitiveType) (size : Expr)
  | tuple (elements : List PrimitiveType)

inductive TupleAssignTarget where
  | binding (name : String)
  | discard
deriving DecidableEq, Repr

/-- `TupleAssignTarget::binding`. -/
def TupleAssignTarget.name : TupleAssignTarget → Option String
  | .binding name => some name
  | .discard => none

inductive AssignTarget where
  | var (name : String)
  | index (base : String) (index : Expr)
  | indexedMember (base : String) (index : Expr) (member : String) (memberIndex : Option Expr)
  | slice (base : String) (selector channel start stop : Option Expr)
  | tuple (targets : List TupleAssignTarget)

/-- The selector expressions in source evaluation order. -/
def AssignTarget.selectors : AssignTarget → List Expr
  | .index _ position => [position]
  | .indexedMember _ position _ memberIndex => position :: memberIndex.toList
  | .slice _ selector channel start stop => [selector, channel, start, stop].filterMap id
  | .var _ | .tuple _ => []

/-- What an assignment declares. -/
structure Declaration where
  declTy : Option DeclType
  genericDeclTy : Option String
  isTypedDecl : Bool
  typedDeclTyLoc : Span

/-- An assignment that declares no type. -/
def Declaration.untyped : Declaration where
  declTy := none
  genericDeclTy := none
  isTypedDecl := false
  typedDeclTyLoc := Span.ZERO

structure PrintSourceOrigin where
  source : Span
  lexicalOwner : String
  declaration : String
deriving DecidableEq, Repr

inductive Stmt where
  | assign (loc targetLoc : Span) (target : AssignTarget) (declares : Declaration) (expr : Expr)
  | expr (loc : Span) (expr : Expr)
  | print (loc : Span) (label : Option String) (values : List Expr) (origin : Option PrintSourceOrigin)
  | ret (loc : Span) (expr : Expr)
  | ifElse (loc : Span) (cond : Expr) (thenBranch elseBranch : List Stmt)
  | forLoop (loc : Span) (var : String) (varTy : PrimitiveType) (step : Option Expr)
      (start stop : Expr) (stopInclusive : Bool) (body : List Stmt)
  | whileLoop (loc : Span) (cond : Expr) (body : List Stmt)
  | brk (loc : Span)
  | cont (loc : Span)

namespace Expr

/-- A variable of the compiler. -/
def ofVar (name : String) : Expr := .var Span.ZERO name

/-- `cast_expr_to_primitive`. -/
def castToPrimitive (expr : Expr) (ty : PrimitiveType) : Expr := .cast Span.ZERO ty expr

/-- `compare`. -/
def ofCompare (op : CmpOp) (lhs rhs : Expr) : Expr := .compare Span.ZERO op lhs rhs

/-- `logical`. -/
def ofLogical (op : LogicalOp) (lhs rhs : Expr) : Expr := .logical Span.ZERO op lhs rhs

/-- `zero_expr`. -/
def zero : PrimitiveType → Expr
  | .f32 | .f64 => .number Span.ZERO 0
  | .i32 | .i64 => ofInt 0
  | .bool => .bool Span.ZERO false

end Expr

namespace Stmt

/-- `assign_var`. -/
def assignVar (name : String) (expr : Expr) : Stmt :=
  .assign Span.ZERO Span.ZERO (.var name) Declaration.untyped expr

/-- `typed_assign`. -/
def typedAssign (name : String) (ty : PrimitiveType) (expr : Expr) : Stmt :=
  .assign Span.ZERO Span.ZERO (.var name)
    { Declaration.untyped with declTy := some (.scalar ty), isTypedDecl := true } expr

end Stmt

end Onda.Frontend
