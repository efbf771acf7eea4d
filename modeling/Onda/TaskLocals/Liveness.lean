import Onda.Lib.Liveness
import Onda.TaskLocals.Views

/-!
# Task locals that live across a pause

The body of a task becomes a control-flow graph, in which every statement without control
flow is a block of its own.  A local that is live where a task is resumed is kept between
the activations of the task; the others are initialized at each activation.
-/

namespace Onda.TaskLocals

open Frontend Liveness

/-! ### Control-flow graphs -/

/-- `TaskCfgTerminator`. -/
inductive TaskCfgTerminator where
  | jump (target : Nat)
  | branch (condition : Expr) (thenBlock elseBlock : Nat)
  | yield (target : Nat)
  | complete

def TaskCfgTerminator.successors : TaskCfgTerminator → List Nat
  | .jump target | .yield target => [target]
  | .branch _ thenBlock elseBlock => [thenBlock, elseBlock]
  | .complete => []

/-- Where the task is resumed. -/
def TaskCfgTerminator.resumes : TaskCfgTerminator → Option Nat
  | .yield target => some target
  | .jump _ | .branch .. | .complete => none

/-- `TaskCfgBlock`. -/
structure TaskCfgBlock where
  statements : List Stmt
  terminator : TaskCfgTerminator

/-- `TaskForFrameBinding`: the variables that keep the bounds of a loop. -/
structure TaskForFrameBinding where
  stop : String
  step : String
  ty : PrimitiveType
  persistent : Bool

/-- The frames of `for` loops, by variable. -/
abbrev ForFrames := String → Option TaskForFrameBinding

/-- The frame of a loop; without an entry its variables are named after the loop's. -/
def ForFrames.get (frames : ForFrames) (var : String) (ty : PrimitiveType) : TaskForFrameBinding :=
  (frames var).getD
    { stop := var ++ "__end", step := var ++ "__step", ty := ty, persistent := false }

/-- `is_yield`. -/
def isYield : Expr → Bool
  | .userCall _ name typeArgs args => name = "__onda_task_yield" ∧ typeArgs.isEmpty ∧ args.isEmpty
  | _ => false

/-- `TaskCfgBuilder::push`: the number of the block, and the blocks with it. -/
def push (blocks : List TaskCfgBlock) (statements : List Stmt) (terminator : TaskCfgTerminator) :
    Nat × List TaskCfgBlock :=
  (blocks.length, blocks ++ [⟨statements, terminator⟩])

/-- The variable of a loop after a step. -/
def advanced (var step : String) : Expr := .binary Span.ZERO .add (Expr.ofVar var) (Expr.ofVar step)

def positive (step : String) : Expr := Expr.ofCompare .gt (Expr.ofVar step) (Expr.ofInt 0)

def negative (step : String) : Expr := Expr.ofCompare .lt (Expr.ofVar step) (Expr.ofInt 0)

/-- The condition of the latch: the step does not wrap. -/
def latchCondition (var step : String) : Expr :=
  Expr.ofLogical .or
    (Expr.ofLogical .and (positive step) (Expr.ofCompare .gt (advanced var step) (Expr.ofVar var)))
    (Expr.ofLogical .and (negative step) (Expr.ofCompare .lt (advanced var step) (Expr.ofVar var)))

/-- The condition of the header: the variable is within the end bound. -/
def headerCondition (var stop step : String) (inclusive : Bool) : Expr :=
  Expr.ofLogical .or
    (Expr.ofLogical .and (positive step)
      (Expr.ofCompare (if inclusive then .le else .lt) (Expr.ofVar var) (Expr.ofVar stop)))
    (Expr.ofLogical .and (negative step)
      (Expr.ofCompare (if inclusive then .ge else .gt) (Expr.ofVar var) (Expr.ofVar stop)))

mutual

/-- `lower_stmt`: the block where the statement begins, with the blocks so far. -/
def lowerStmt (frames : ForFrames) : Stmt → Nat → Option (Nat × Nat) → List TaskCfgBlock →
    Nat × List TaskCfgBlock
  | .expr loc expr, next, _, blocks =>
    if isYield expr then push blocks [] (.yield next) else push blocks [.expr loc expr] (.jump next)
  | .ret .., _, _, blocks => push blocks [] .complete
  | .ifElse _ cond thenBranch elseBranch, next, targets, blocks =>
    let (thenBlock, blocks) := lowerList frames thenBranch next targets blocks
    let (elseBlock, blocks) := lowerList frames elseBranch next targets blocks
    push blocks [] (.branch cond thenBlock elseBlock)
  | .whileLoop _ cond body, next, _, blocks =>
    let (header, blocks) := push blocks [] .complete
    let (body, blocks) := lowerList frames body header (some (next, header)) blocks
    (header, blocks.set header ⟨[], .branch cond body next⟩)
  | .forLoop _ var varTy step start stop inclusive body, next, _, blocks =>
    let frame := frames.get var varTy
    let (header, blocks) := push blocks [] .complete
    let (increment, blocks) :=
      push blocks [.assignVar var (advanced var frame.step)] (.jump header)
    let (latch, blocks) := push blocks [] (.branch (latchCondition var frame.step) increment next)
    let (body, blocks) := lowerList frames body latch (some (next, latch)) blocks
    let blocks := blocks.set header
      ⟨[], .branch (headerCondition var frame.stop frame.step inclusive) body next⟩
    push blocks [.assignVar var (start.castToPrimitive varTy),
      .assignVar frame.stop (stop.castToPrimitive varTy),
      .assignVar frame.step ((step.getD (Expr.ofInt 1)).castToPrimitive varTy)] (.jump header)
  | .brk _, next, targets, blocks => push blocks [] (.jump ((targets.map Prod.fst).getD next))
  | .cont _, next, targets, blocks => push blocks [] (.jump ((targets.map Prod.snd).getD next))
  | .assign loc targetLoc target declares expr, next, _, blocks =>
    push blocks [.assign loc targetLoc target declares expr] (.jump next)
  | .print loc label values origin, next, _, blocks =>
    push blocks [.print loc label values origin] (.jump next)

/-- `lower_list`. -/
def lowerList (frames : ForFrames) : List Stmt → Nat → Option (Nat × Nat) → List TaskCfgBlock →
    Nat × List TaskCfgBlock
  | [], next, _, blocks => (next, blocks)
  | stmt :: stmts, next, targets, blocks =>
    let (next, blocks) := lowerList frames stmts next targets blocks
    lowerStmt frames stmt next targets blocks

end

/-- The graph of a task; its first block is where the task completes. -/
def taskCfg (frames : ForFrames) (body : List Stmt) : List TaskCfgBlock :=
  (lowerList frames body 0 none [⟨[], .complete⟩]).2

/-- `expand_task_views`. -/
def expandBlocks (views : CapturedViews) : List TaskCfgBlock → Nat → List TaskCfgBlock
  | [], _ => []
  | ⟨statements, .branch condition thenBlock elseBlock⟩ :: blocks, next =>
    let (statements, next) := views.expandStatements statements [] next
    let (condition, statements, next) := views.expandExpression condition statements next
    ⟨statements, .branch condition thenBlock elseBlock⟩ :: expandBlocks views blocks next
  | ⟨statements, terminator⟩ :: blocks, next =>
    let (statements, next) := views.expandStatements statements [] next
    ⟨statements, terminator⟩ :: expandBlocks views blocks next

/-! ### Uses and definitions -/

/-- Paths with the bindings that they are members of. -/
def withRoots (uses : List String) : List String := uses ++ uses.filterMap splitOnce

/-- What an assignment changes a part of. -/
def storeUses : AssignTarget → List String
  | .var name => (splitOnce name).toList
  | .index base _ | .indexedMember base _ _ _ | .slice base _ _ _ _ => [base]
  | .tuple _ => []

/-- What an assignment defines. -/
def targetDefs : AssignTarget → List String
  | .var name => if (splitOnce name).isSome then [] else [name]
  | .tuple targets => targets.filterMap TupleAssignTarget.name
  | .index .. | .indexedMember .. | .slice .. => []

mutual

/-- The uses of a statement in `block_uses_and_defs`. -/
def stmtUses : Stmt → List String
  | .assign _ _ target _ expr =>
    exprUses expr ++ storeUses target ++ target.selectors.flatMap exprUses
  | .expr _ expr => exprUses expr
  | .ret _ expr => exprUses expr
  | .print _ _ values _ => values.flatMap exprUses
  | .ifElse _ cond thenBranch elseBranch =>
    exprUses cond ++ withRoots (stmtsUses thenBranch) ++ withRoots (stmtsUses elseBranch)
  | .forLoop .. | .whileLoop .. | .brk _ | .cont _ => []

def stmtsUses : List Stmt → List String
  | [] => []
  | stmt :: stmts => stmtUses stmt ++ stmtsUses stmts

end

/-- The definitions of a statement in `block_uses_and_defs`. -/
def stmtDefs : Stmt → List String
  | .assign _ _ target _ _ => targetDefs target
  | .expr .. | .ret .. | .print .. | .ifElse .. | .forLoop .. | .whileLoop .. | .brk _ | .cont _ => []

def TaskCfgTerminator.uses : TaskCfgTerminator → List String
  | .branch condition _ _ => exprUses condition
  | .jump _ | .yield _ | .complete => []

/-- `block_uses_and_defs`. -/
def blockUsesAndDefs (block : TaskCfgBlock) : Finset String × Finset String :=
  ((withRoots (stmtsUses block.statements ++ block.terminator.uses)).toFinset,
    (block.statements.flatMap stmtDefs).toFinset)

/-- The flow of a graph. -/
def taskFlow (blocks : List TaskCfgBlock) : Flow String where
  size := blocks.length
  successors node := (blocks[node]?).elim [] (·.terminator.successors)
  uses node := (blocks[node]?).elim ∅ fun block => (blockUsesAndDefs block).1
  defs node := (blocks[node]?).elim ∅ fun block => (blockUsesAndDefs block).2

/-- `task_locals_live_across_yield`. -/
def taskLocalsLiveAcrossYield (body : List Stmt) (taskLocals : Finset String)
    (views : CapturedViews) : Finset String :=
  let blocks := expandBlocks views (taskCfg (fun _ => none) body) 0
  let liveIn := (taskFlow blocks).liveIn
  ((blocks.filterMap (·.terminator.resumes)).foldr (fun target names => liveIn.getD target ∅ ∪ names)
    ∅).filter (· ∈ taskLocals)

end Onda.TaskLocals
