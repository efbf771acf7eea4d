import Onda.Loops.Lowering

/-!
# Control-flow graphs of tasks

`TaskCfgBuilder` cuts the body of a task into blocks, so that it can be resumed at each
of them.  A list of statements is lowered from its end, each statement to the block
where control goes on.  A `for` loop becomes a block that initializes its variable, its
end and its step, a header, a latch and an increment; the latch leaves the loop in front
of an increment that would wrap.

This is the mode in which no statement is left structured; a statement that is left so
is one block, and is lowered by `lower_statements`.  Names are unique, so the variables of
the enclosing loops are the names of a scope.
-/

namespace Onda.Loops

/-- The variables of a `for` loop in the task: its own, and the two of its frame. -/
inductive Field where
  | var (name : String)
  | stop (name : String)
  | step (name : String)
deriving DecidableEq

/-- The integer expressions of a lowered loop. -/
inductive CfgExpr (E : Type) where
  | read (field : Field)
  | int (value : Int)
  | add (ty : InductionTy) (lhs rhs : CfgExpr E)
  | cast (ty : InductionTy) (operand : Operand ty E) (scope : List String)

inductive CfgCond (C E : Type) where
  | source (condition : C) (scope : List String)
  | compare (op : CompareOp) (lhs rhs : CfgExpr E)
  | and (lhs rhs : CfgCond C E)
  | or (lhs rhs : CfgCond C E)

inductive CfgStmt (S E : Type) where
  | source (statement : S) (scope : List String)
  | assignVar (field : Field) (value : CfgExpr E)

/-- `TaskCfgTerminator`. -/
inductive TaskCfgTerminator (C E Y : Type) where
  | jump (target : Nat)
  | branch (condition : CfgCond C E) (thenBlock elseBlock : Nat)
  | yield (pause : Y) (target : Nat)
  | complete

/-- `TaskCfgBlock`. -/
structure TaskCfgBlock (S C E Y : Type) where
  statements : List (CfgStmt S E)
  terminator : TaskCfgTerminator C E Y

section Builder

variable {S C E Y : Type}

/-- `TaskCfgBuilder::push`: the blocks with one more, and its number. -/
def push (blocks : List (TaskCfgBlock S C E Y)) (block : TaskCfgBlock S C E Y) :
    Nat × List (TaskCfgBlock S C E Y) :=
  (blocks.length, blocks ++ [block])

/-- The variable of a loop after a step. -/
def advanced (ty : InductionTy) (var : String) : CfgExpr E :=
  .add ty (.read (.var var)) (.read (.step var))

def positive (var : String) : CfgCond C E := .compare .greater (.read (.step var)) (.int 0)

def negative (var : String) : CfgCond C E := .compare .less (.read (.step var)) (.int 0)

/-- The condition of the latch: the step does not wrap. -/
def latchCondition (ty : InductionTy) (var : String) : CfgCond C E :=
  .or (.and (positive var) (.compare .greater (advanced ty var) (.read (.var var))))
    (.and (negative var) (.compare .less (advanced ty var) (.read (.var var))))

/-- The condition of the header: the variable is within the end bound. -/
def headerCondition (var : String) (inclusive : Bool) : CfgCond C E :=
  .or (.and (positive var) (.compare (if inclusive then .lessEqual else .less)
      (.read (.var var)) (.read (.stop var))))
    (.and (negative var) (.compare (if inclusive then .greaterEqual else .greater)
      (.read (.var var)) (.read (.stop var))))

mutual

/-- `lower_stmt`: the block where the statement begins, with the blocks so far. -/
def Stmt.lowerCfg : Stmt S C E Y → List String → Nat → Option (Nat × Nat) →
    List (TaskCfgBlock S C E Y) → Nat × List (TaskCfgBlock S C E Y)
  | .yield pause, _, next, _, blocks => push blocks ⟨[], .yield pause next⟩
  | .ret, _, _, _, blocks => push blocks ⟨[], .complete⟩
  | .ifElse condition thenBranch elseBranch, scope, next, targets, blocks =>
    let (thenBlock, blocks) := lowerList thenBranch scope next targets blocks
    let (elseBlock, blocks) := lowerList elseBranch scope next targets blocks
    push blocks ⟨[], .branch (.source condition scope) thenBlock elseBlock⟩
  | .whileLoop condition body, scope, next, _, blocks =>
    let (header, blocks) := push blocks ⟨[], .complete⟩
    let (body, blocks) := lowerList body scope header (some (next, header)) blocks
    (header, blocks.set header ⟨[], .branch (.source condition scope) body next⟩)
  | .forLoop var range body, scope, next, _, blocks =>
    let (header, blocks) := push blocks ⟨[], .complete⟩
    let (increment, blocks) :=
      push blocks ⟨[.assignVar (.var var) (advanced range.ty var)], .jump header⟩
    let (latch, blocks) := push blocks ⟨[], .branch (latchCondition range.ty var) increment next⟩
    let (body, blocks) := lowerList body (var :: scope) latch (some (next, latch)) blocks
    let blocks := blocks.set header ⟨[], .branch (headerCondition var range.inclusive) body next⟩
    push blocks ⟨[.assignVar (.var var) (.cast range.ty range.start scope),
      .assignVar (.stop var) (.cast range.ty range.stop scope),
      .assignVar (.step var) (.cast range.ty range.stepOperand scope)], .jump header⟩
  | .brk, _, next, targets, blocks => push blocks ⟨[], .jump ((targets.map Prod.fst).getD next)⟩
  | .cont, _, next, targets, blocks => push blocks ⟨[], .jump ((targets.map Prod.snd).getD next)⟩
  | .op statement, scope, next, _, blocks => push blocks ⟨[.source statement scope], .jump next⟩

/-- `lower_list`. -/
def lowerList : List (Stmt S C E Y) → List String → Nat → Option (Nat × Nat) →
    List (TaskCfgBlock S C E Y) → Nat × List (TaskCfgBlock S C E Y)
  | [], _, next, _, blocks => (next, blocks)
  | statement :: rest, scope, next, targets, blocks =>
    let (next, blocks) := lowerList rest scope next targets blocks
    statement.lowerCfg scope next targets blocks

end

mutual

/-- No loop reuses the name of an enclosing one. -/
def Stmt.Fresh : Stmt S C E Y → List String → Prop
  | .ifElse _ thenBranch elseBranch, scope => FreshAll thenBranch scope ∧ FreshAll elseBranch scope
  | .whileLoop _ body, scope => FreshAll body scope
  | .forLoop var _ body, scope => var ∉ scope ∧ FreshAll body (var :: scope)
  | .yield _, _ | .ret, _ | .brk, _ | .cont, _ | .op _, _ => True

def FreshAll : List (Stmt S C E Y) → List String → Prop
  | [], _ => True
  | statement :: rest, scope => statement.Fresh scope ∧ FreshAll rest scope

end

end Builder

/-! ### Meaning -/

/-- The variables of the loops. -/
abbrev Frame := Field → Int

section Meaning

variable {S C E Y D F : Type} (lang : Lang S C E Y D F)

/-- The values of the variables of a scope. -/
def Frame.vars (frame : Frame) (scope : List String) : List Int := scope.map fun name => frame (.var name)

def CfgExpr.eval (frame : Frame) (data : D) : CfgExpr E → Int
  | .read field => frame field
  | .int value => value
  | .add ty lhs rhs => ty.wrap (lhs.eval frame data + rhs.eval frame data)
  | .cast _ operand scope => operand.eval lang (frame.vars scope) data

def CfgCond.Holds (frame : Frame) (data : D) : CfgCond C E → Prop
  | .source condition scope => lang.cond condition (frame.vars scope) data
  | .compare op lhs rhs => op.Holds (lhs.eval lang frame data) (rhs.eval lang frame data)
  | .and lhs rhs => lhs.Holds frame data ∧ rhs.Holds frame data
  | .or lhs rhs => lhs.Holds frame data ∨ rhs.Holds frame data

instance CfgCond.decidableHolds (frame : Frame) (data : D) :
    ∀ condition : CfgCond C E, Decidable (condition.Holds lang frame data)
  | .source condition scope =>
    inferInstanceAs (Decidable (lang.cond condition (frame.vars scope) data = true))
  | .compare op lhs rhs =>
    inferInstanceAs (Decidable (op.Holds (lhs.eval lang frame data) (rhs.eval lang frame data)))
  | .and lhs rhs => @instDecidableAnd _ _ (decidableHolds frame data lhs) (decidableHolds frame data rhs)
  | .or lhs rhs => @instDecidableOr _ _ (decidableHolds frame data lhs) (decidableHolds frame data rhs)

def CfgStmt.run : CfgStmt S E → Frame × D → (Frame × D) × Option F
  | .source statement scope, (frame, data) =>
    ((frame, (lang.op statement (frame.vars scope) data).1),
      (lang.op statement (frame.vars scope) data).2)
  | .assignVar field value, (frame, data) =>
    ((Function.update frame field (value.eval lang frame data), data), none)

def runStatements : List (CfgStmt S E) → Frame × D → (Frame × D) × Option F
  | [], state => (state, none)
  | statement :: rest, state =>
    match statement.run lang state with
    | (state, none) => runStatements rest state
    | (state, some failure) => (state, some failure)

/-- Where control goes after a block. -/
inductive Goes (F : Type) where
  | to (target : Nat)
  | completes
  | fails (failure : F)

/-- One block; a task that yields is resumed at the target. -/
def TaskCfgBlock.run (block : TaskCfgBlock S C E Y) (state : Frame × D) : (Frame × D) × Goes F :=
  match runStatements lang block.statements state with
  | (state, some failure) => (state, .fails failure)
  | (state, none) =>
    match block.terminator with
    | .jump target => (state, .to target)
    | .branch condition thenBlock elseBlock =>
      (state, .to (if condition.Holds lang state.1 state.2 then thenBlock else elseBlock))
    | .yield pause target => ((state.1, lang.pause pause state.2), .to target)
    | .complete => (state, .completes)

end Meaning

end Onda.Loops
