import Onda.Frontend.Stmt

/-!
# Names in the statements of a task

What an expression uses, and how bindings are renamed.  A name is a path: a binding and,
behind periods, members of it.
-/

namespace Onda.TaskLocals

open Frontend

/-! ### Paths -/

/-- The binding that a path begins with. -/
def root (path : String) : String := String.ofList (path.toList.takeWhile (· ≠ '.'))

/-- `split_once('.')`: the binding of a path that has members. -/
def splitOnce (path : String) : Option String :=
  if '.' ∈ path.toList then some (root path) else none

/-- `rsplit_once('.')`: a path without its last member. -/
def parent (path : String) : Option String :=
  if '.' ∈ path.toList then
    some (String.ofList (path.toList.reverse.dropWhile (· ≠ '.')).tail.reverse)
  else none

/-- What bindings are renamed to. -/
abbrev Names := String → Option String

/-- The beginnings of a path that end at a period or at the end, the longest first, each with the rest. -/
def beginnings (path : List Char) : List (List Char × List Char) :=
  (List.range (path.length + 1)).reverse.filterMap fun position =>
    if position = path.length ∨ path[position]? = some '.' then
      some (path.take position, path.drop position)
    else none

/-- `rewrite_binding_path`: the longest beginning that has a name is renamed. -/
def rewritePath (names : Names) (path : String) : String :=
  ((beginnings path.toList).findSome? fun piece =>
    (names (String.ofList piece.1)).map (· ++ String.ofList piece.2)).getD path

/-! ### Uses -/

/-- `collect_callable_receiver_use`. -/
def receiverUses (name : String) : List String :=
  match parent name with
  | none => []
  | some receiver => [receiver, root receiver]

mutual

/-- `collect_expr_uses`. -/
def exprUses : Expr → List String
  | .var _ name => [name]
  | .index _ base position => base :: exprUses position
  | .slice _ base selector channel start stop =>
    base :: (optionUses selector ++ optionUses channel ++ optionUses start ++ optionUses stop)
  | .arrayLiteral _ values => listUses values
  | .tuple _ values => listUses values
  | .arrayCtor _ ⟨_, size⟩ init _ _ => exprUses size ++ optionListUses init
  | .compare _ _ lhs rhs => exprUses lhs ++ exprUses rhs
  | .logical _ _ lhs rhs => exprUses lhs ++ exprUses rhs
  | .binary _ _ lhs rhs => exprUses lhs ++ exprUses rhs
  | .call _ _ args => listUses args
  | .userCall _ name _ args => receiverUses name ++ argUses args
  | .cast _ _ expr => exprUses expr
  | .unaryNot _ expr => exprUses expr
  | .unaryBitNot _ expr => exprUses expr
  | .number .. => []
  | .int .. => []
  | .bool .. => []

def optionUses : Option Expr → List String
  | none => []
  | some expr => exprUses expr

def listUses : List Expr → List String
  | [] => []
  | expr :: exprs => exprUses expr ++ listUses exprs

def optionListUses : Option (List Expr) → List String
  | none => []
  | some exprs => listUses exprs

def argUses : List (CallArg Expr) → List String
  | [] => []
  | ⟨_, expr⟩ :: args => exprUses expr ++ argUses args

end

/-! ### Renaming -/

mutual

/-- `rewrite_binding_expr`. -/
def rewriteExpr (names : Names) : Expr → Expr
  | .var loc name => .var loc (rewritePath names name)
  | .index loc base position => .index loc (rewritePath names base) (rewriteExpr names position)
  | .slice loc base selector channel start stop =>
    .slice loc (rewritePath names base) (rewriteOption names selector) (rewriteOption names channel)
      (rewriteOption names start) (rewriteOption names stop)
  | .arrayLiteral loc values => .arrayLiteral loc (rewriteExprs names values)
  | .tuple loc values => .tuple loc (rewriteExprs names values)
  | .arrayCtor loc ⟨elem, size⟩ init initIsValue initializes =>
    .arrayCtor loc ⟨elem, rewriteExpr names size⟩ (rewriteOptionExprs names init) initIsValue initializes
  | .compare loc op lhs rhs => .compare loc op (rewriteExpr names lhs) (rewriteExpr names rhs)
  | .logical loc op lhs rhs => .logical loc op (rewriteExpr names lhs) (rewriteExpr names rhs)
  | .binary loc op lhs rhs => .binary loc op (rewriteExpr names lhs) (rewriteExpr names rhs)
  | .call loc func args => .call loc func (rewriteExprs names args)
  | .userCall loc name typeArgs args =>
    .userCall loc (rewritePath names name) typeArgs (rewriteArgs names args)
  | .cast loc target expr => .cast loc target (rewriteExpr names expr)
  | .unaryNot loc expr => .unaryNot loc (rewriteExpr names expr)
  | .unaryBitNot loc expr => .unaryBitNot loc (rewriteExpr names expr)
  | .number loc value => .number loc value
  | .int loc value constTy => .int loc value constTy
  | .bool loc value => .bool loc value

def rewriteOption (names : Names) : Option Expr → Option Expr
  | none => none
  | some expr => some (rewriteExpr names expr)

def rewriteExprs (names : Names) : List Expr → List Expr
  | [] => []
  | expr :: exprs => rewriteExpr names expr :: rewriteExprs names exprs

def rewriteOptionExprs (names : Names) : Option (List Expr) → Option (List Expr)
  | none => none
  | some exprs => some (rewriteExprs names exprs)

def rewriteArgs (names : Names) : List (CallArg Expr) → List (CallArg Expr)
  | [] => []
  | ⟨name, expr⟩ :: args => ⟨name, rewriteExpr names expr⟩ :: rewriteArgs names args

end

/-- `rewrite_binding_target`. -/
def rewriteTarget (names : Names) : AssignTarget → AssignTarget
  | .var name => .var (rewritePath names name)
  | .index base position => .index (rewritePath names base) (rewriteExpr names position)
  | .indexedMember base position member memberIndex =>
    .indexedMember (rewritePath names base) (rewriteExpr names position) member
      (rewriteOption names memberIndex)
  | .slice base selector channel start stop =>
    .slice (rewritePath names base) (rewriteOption names selector) (rewriteOption names channel)
      (rewriteOption names start) (rewriteOption names stop)
  | .tuple targets => .tuple (targets.map fun target =>
      match target with
      | .binding name => .binding ((names name).getD name)
      | .discard => .discard)

/-- The assignment of a binding that has its storage elsewhere declares nothing. -/
def rewriteDeclaration (taskLocals : String → Bool) : AssignTarget → Declaration → Declaration
  | .var name, declares =>
    if taskLocals name then
      { declares with declTy := none, genericDeclTy := none, isTypedDecl := false }
    else declares
  | _, declares => declares

mutual

/-- A statement of `rewrite_binding_stmts`. -/
def rewriteStmt (names : Names) (taskLocals : String → Bool) : Stmt → Stmt
  | .assign loc targetLoc target declares expr =>
    .assign loc targetLoc (rewriteTarget names target) (rewriteDeclaration taskLocals target declares)
      (rewriteExpr names expr)
  | .expr loc expr => .expr loc (rewriteExpr names expr)
  | .ret loc expr => .ret loc (rewriteExpr names expr)
  | .print loc label values origin => .print loc label (rewriteExprs names values) origin
  | .ifElse loc cond thenBranch elseBranch =>
    .ifElse loc (rewriteExpr names cond) (rewriteStmts names taskLocals thenBranch)
      (rewriteStmts names taskLocals elseBranch)
  | .forLoop loc var varTy step start stop stopInclusive body =>
    .forLoop loc ((names var).getD var) varTy (rewriteOption names step) (rewriteExpr names start)
      (rewriteExpr names stop) stopInclusive (rewriteStmts names taskLocals body)
  | .whileLoop loc cond body =>
    .whileLoop loc (rewriteExpr names cond) (rewriteStmts names taskLocals body)
  | .brk loc => .brk loc
  | .cont loc => .cont loc

/-- `rewrite_binding_stmts`. -/
def rewriteStmts (names : Names) (taskLocals : String → Bool) : List Stmt → List Stmt
  | [] => []
  | stmt :: stmts => rewriteStmt names taskLocals stmt :: rewriteStmts names taskLocals stmts

end

end Onda.TaskLocals
