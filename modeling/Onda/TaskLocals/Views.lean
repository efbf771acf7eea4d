import Mathlib.Data.List.Sort
import Mathlib.Data.Set.Finite.Basic
import Onda.TaskLocals.Reads

/-!
# Captured views

A view is a name for a place that is selected elsewhere.  Only the scalar selections are
stored: where a view is used, it is formed again, from its recipe, under a name of its own
in front of the use.  A recipe refers to storage and to views that were declared before.
-/

namespace Onda.TaskLocals

open Frontend

/-- How a view is formed again. -/
inductive Recipe where
  | selection (expr : Expr)
  | choice (condition : String) (left right : Recipe)

/-- `Recipe::uses`. -/
def Recipe.uses : Recipe → List String
  | .selection expr => exprUses expr
  | .choice condition left right => condition :: (left.uses ++ right.uses)

/-- The conditions of the choices in a recipe. -/
def Recipe.conditions : Recipe → List String
  | .selection _ => []
  | .choice condition left right => condition :: (left.conditions ++ right.conditions)

/-- Recipes of views, the prefix of the names that views are formed under, and the names
that are taken.  Each view has a rank above the views that its recipe refers to. -/
structure CapturedViews where
  recipes : String → Option Recipe
  stem : String
  occupied : Finset String
  rank : String → Nat
  depth : Nat
  stem_plain : '.' ∉ stem.toList
  rank_le : ∀ name recipe, recipes name = some recipe → rank name ≤ depth
  descends : ∀ name recipe, recipes name = some recipe →
    ∀ used ∈ recipe.uses, rank (root used) < rank name
  key_plain : ∀ name recipe, recipes name = some recipe → '.' ∉ name.toList
  condition_plain : ∀ name recipe, recipes name = some recipe →
    ∀ condition ∈ recipe.conditions, '.' ∉ condition.toList ∧ recipes condition = none

namespace CapturedViews

variable (views : CapturedViews)

/-! ### Names for uses -/

/-- The name of a use. -/
def useName (number : Nat) : String := views.stem ++ "_use_" ++ toString number

theorem useName_injective : Function.Injective views.useName := by
  intro left right same
  have digits := congrArg String.toList same
  simp only [useName, String.toList_append, List.append_cancel_left_eq] at digits
  have numbers := congrArg (fun digits => Nat.ofDigitChars 10 digits 0) digits
  simpa using numbers

theorem exists_free (next : Nat) : ∃ number, next ≤ number ∧ views.useName number ∉ views.occupied := by
  by_contra taken
  push Not at taken
  have infinite : (Set.range fun number => views.useName (next + number)).Infinite :=
    Set.infinite_range_of_injective fun left right same => by
      have numbers := views.useName_injective same
      omega
  refine infinite (views.occupied.finite_toSet.subset ?_)
  rintro _ ⟨number, rfl⟩
  exact taken _ (Nat.le_add_right _ _)

/-- The next name that is free, with the number after it. -/
def fresh (next : Nat) : String × Nat :=
  (views.useName (Nat.find (views.exists_free next)), Nat.find (views.exists_free next) + 1)

/-! ### Expansion -/

end CapturedViews

/-- `materialize`, over the expansion of what the recipe uses. -/
def Recipe.materialize (expandUses : List String → List Stmt → Nat → Names × List Stmt × Nat) :
    Recipe → String → List Stmt → Nat → List Stmt × Nat
  | .selection expr, name, body, next =>
    let (names, body, next) := expandUses (exprUses expr) body next
    (body ++ [.assignVar name (rewriteExpr names expr)], next)
  | .choice condition left right, name, body, next =>
    let (thenBranch, next) := left.materialize expandUses name [] next
    let (elseBranch, next) := right.materialize expandUses name [] next
    (body ++ [.ifElse Span.ZERO (Expr.ofVar condition) thenBranch elseBranch], next)

/-- The bindings of some uses, each once, in order. -/
def roots (uses : List String) : List String := (uses.map root).dedup.insertionSort (· ≤ ·)

namespace CapturedViews

variable (views : CapturedViews)

/-- One step of `materialize_uses`. -/
def materializeRoot (expandUses : List String → List Stmt → Nat → Names × List Stmt × Nat) :
    Names × List Stmt × Nat → String → Names × List Stmt × Nat
  | (names, body, next), view =>
    match views.recipes view with
    | none => (names, body, next)
    | some recipe =>
      let (name, next) := views.fresh next
      let (body, next) := recipe.materialize expandUses name body next
      (Function.update names view (some name), body, next)

/-- `materialize_uses`; the ranks bound the depth of the recursion. -/
def materializeUses : Nat → List String → List Stmt → Nat → Names × List Stmt × Nat
  | 0, _, body, next => (fun _ => none, body, next)
  | depth + 1, uses, body, next =>
    (roots uses).foldl (views.materializeRoot (materializeUses depth)) (fun _ => none, body, next)

/-- `materialize_uses` for a statement or a condition. -/
def expandUses (uses : List String) (body : List Stmt) (next : Nat) : Names × List Stmt × Nat :=
  views.materializeUses (views.depth + 1) uses body next

/-- `expand_expression`. -/
def expandExpression (expr : Expr) (body : List Stmt) (next : Nat) : Expr × List Stmt × Nat :=
  let (names, body, next) := views.expandUses (exprUses expr) body next
  (rewriteExpr names expr, body, next)

/-- What the target of an assignment uses of views. -/
def targetUses : AssignTarget → List String
  | .var name => [name]
  | .index base _ | .indexedMember base _ _ _ | .slice base _ _ _ _ => [base]
  | .tuple _ => []

/-- A statement behind the views that it uses. -/
def expandUsing (uses : List String) (stmt : Stmt) (result : List Stmt) (next : Nat) :
    List Stmt × Nat :=
  let (names, result, next) := views.expandUses uses result next
  (result ++ [rewriteStmt names (fun _ => false) stmt], next)

mutual

/-- A statement of `expand_statements`. -/
def expandStmt : Stmt → List Stmt → Nat → List Stmt × Nat
  | .assign loc targetLoc target declares expr, result, next =>
    views.expandUsing (exprUses expr ++ targetUses target ++ target.selectors.flatMap exprUses)
      (.assign loc targetLoc target declares expr) result next
  | .expr loc expr, result, next => views.expandUsing (exprUses expr) (.expr loc expr) result next
  | .ret loc expr, result, next => views.expandUsing (exprUses expr) (.ret loc expr) result next
  | .print loc label values origin, result, next =>
    views.expandUsing (values.flatMap exprUses) (.print loc label values origin) result next
  | .ifElse loc cond thenBranch elseBranch, result, next =>
    let (thenBranch, next) := expandStatements thenBranch [] next
    let (elseBranch, next) := expandStatements elseBranch [] next
    views.expandUsing (exprUses cond) (.ifElse loc cond thenBranch elseBranch) result next
  | .forLoop loc var varTy step start stop stopInclusive body, result, next =>
    let (body, next) := expandStatements body [] next
    views.expandUsing (exprUses start ++ exprUses stop ++ optionUses step)
      (.forLoop loc var varTy step start stop stopInclusive body) result next
  | .whileLoop loc cond body, result, next =>
    let (body, next) := expandStatements body [] next
    views.expandUsing (exprUses cond) (.whileLoop loc cond body) result next
  | .brk loc, result, next => views.expandUsing [] (.brk loc) result next
  | .cont loc, result, next => views.expandUsing [] (.cont loc) result next

/-- `expand_statements`. -/
def expandStatements : List Stmt → List Stmt → Nat → List Stmt × Nat
  | [], result, next => (result, next)
  | stmt :: stmts, result, next =>
    let (result, next) := expandStmt stmt result next
    expandStatements stmts result next

end

end CapturedViews

end Onda.TaskLocals
