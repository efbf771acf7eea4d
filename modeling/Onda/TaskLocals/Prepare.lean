import Mathlib.Data.List.Sort
import Onda.TaskLocals.NeededLocals

/-!
# Storage of task locals

`prepare_task`, from where the bindings of the body are unique and its views are captured.
A live local becomes a field of the owner, which is initialized once and pinned; every
occurrence in the body becomes one of the field.  The other locals are declared at the
beginning of each activation.
-/

namespace Onda.TaskLocals

open Frontend

/-! ### Storage -/

inductive DataType where
  | struct (name : String)
  | array (element : ArrayElemType) (len : Nat)

inductive BindingStorage where
  | scalar (ty : PrimitiveType)
  | data (ty : DataType)
  | tuple (types : List PrimitiveType)

namespace BindingStorage

/-- `tuple_zero_expr`. -/
def tupleZeroExpr (types : List PrimitiveType) : Expr :=
  .tuple Span.ZERO (types.map fun ty =>
    match ty with
    | .bool => .bool Span.ZERO false
    | ty => (Expr.zero ty).castToPrimitive ty)

/-- `storage_stmt`. -/
def storageStmt (storage : BindingStorage) (name : String) (initializes : Bool) : Stmt :=
  let declares : Option DeclType × Option String × Expr :=
    match storage with
    | .scalar ty => (some (.scalar ty), none, Expr.zero ty)
    | .data (.struct structName) => (none, some structName, .userCall Span.ZERO structName [] [])
    | .data (.array element len) =>
      (none, none, .arrayCtor Span.ZERO ⟨element, Expr.ofInt (BitVec.ofNat 64 len)⟩ none false initializes)
    | .tuple types => (some (.tuple types), none, tupleZeroExpr types)
  .assign Span.ZERO Span.ZERO (.var name)
    { declTy := declares.1, genericDeclTy := declares.2.1, isTypedDecl := true, typedDeclTyLoc := Span.ZERO }
    declares.2.2

def initStmt (storage : BindingStorage) (name : String) : Stmt := storage.storageStmt name true

def declarationStmt (storage : BindingStorage) (name : String) : Stmt := storage.storageStmt name false

end BindingStorage

/-! ### Names of fields -/

/-- `task_symbol_stem`. -/
def taskSymbolStem (task : String) : String :=
  "__onda_task_" ++ toString task.utf8ByteSize ++ "_" ++ task

/-- `task_pc_field`. -/
def taskPcField (task : String) : String := taskSymbolStem task ++ "_pc"

/-- `task_local_field`. -/
def taskLocalField (task binding : String) : String :=
  taskSymbolStem task ++ "_local_" ++ toString binding.utf8ByteSize ++ "_" ++ binding

def forFrameField (task : String) (id : Nat) (bound : String) : String :=
  taskSymbolStem task ++ "_for_" ++ toString id ++ bound

/-! ### Frames of loops -/

mutual

/-- Whether a statement makes `task_stmts_contain_resume_terminator` true. -/
def containsResumeTerminator : Stmt → Bool
  | .ret .. => true
  | .expr _ expr => isYield expr
  | .ifElse _ _ thenBranch elseBranch => anyResumeTerminator thenBranch || anyResumeTerminator elseBranch
  | .forLoop _ _ _ _ _ _ _ body | .whileLoop _ _ body => anyResumeTerminator body
  | .assign .. | .print .. | .brk _ | .cont _ => false

/-- `task_stmts_contain_resume_terminator`. -/
def anyResumeTerminator : List Stmt → Bool
  | [] => false
  | stmt :: stmts => containsResumeTerminator stmt || anyResumeTerminator stmts

end

mutual

/-- Whether a statement makes `task_stmts_contain_yield` true. -/
def containsYield : Stmt → Bool
  | .expr _ expr => isYield expr
  | .ifElse _ _ thenBranch elseBranch => anyYield thenBranch || anyYield elseBranch
  | .forLoop _ _ _ _ _ _ _ body | .whileLoop _ _ body => anyYield body
  | .ret .. | .assign .. | .print .. | .brk _ | .cont _ => false

/-- `task_stmts_contain_yield`. -/
def anyYield : List Stmt → Bool
  | [] => false
  | stmt :: stmts => containsYield stmt || anyYield stmts

end

/-- Frames by variable, as `collect_for_frame_bindings` inserts them. -/
abbrev FrameEntries := List (String × TaskForFrameBinding)

def FrameEntries.insert (fields : FrameEntries) (var : String) (frame : TaskForFrameBinding) : FrameEntries :=
  fields.filter (·.1 ≠ var) ++ [(var, frame)]

mutual

/-- A statement of `collect_for_frame_bindings`, with the next id and the frames so far. -/
def collectStmtFrames (task : String) : Stmt → Nat × FrameEntries → Nat × FrameEntries
  | .ifElse _ _ thenBranch elseBranch, fields =>
    collectForFrameBindings task elseBranch (collectForFrameBindings task thenBranch fields)
  | .forLoop _ var varTy _ _ _ _ body, (nextId, fields) =>
    collectForFrameBindings task body
      (if anyResumeTerminator body then
        (nextId + 1, fields.insert var
          { stop := forFrameField task nextId "_end", step := forFrameField task nextId "_step"
            ty := varTy, persistent := anyYield body })
      else (nextId, fields))
  | .whileLoop _ _ body, fields => collectForFrameBindings task body fields
  | .assign .., fields | .expr .., fields | .print .., fields | .ret .., fields
  | .brk _, fields | .cont _, fields => fields

/-- `collect_for_frame_bindings`. -/
def collectForFrameBindings (task : String) : List Stmt → Nat × FrameEntries → Nat × FrameEntries
  | [], fields => fields
  | stmt :: stmts, fields => collectForFrameBindings task stmts (collectStmtFrames task stmt fields)

end

/-! ### Preparation -/

/-- `Recipe::rewrite`. -/
def Recipe.rewrite (names : Names) : Recipe → Recipe
  | .selection expr => .selection (rewriteExpr names expr)
  | .choice condition left right =>
    .choice (rewritePath names condition) (left.rewrite names) (right.rewrite names)

/-- `PreparedTask`. -/
structure PreparedTask where
  name : String
  body : List Stmt
  resumeLocalInitializers : List Stmt
  initStmts : List Stmt
  resetStmts : List Stmt
  pinnedFields : List String
  forFrameBindings : FrameEntries
  recipes : String → Option Recipe
  errors : List String

/-- What is known of a task before its locals are placed: its bindings with the names they
have in the source, the storage that the analysis found for them, and its views. -/
structure TaskBindings where
  name : String
  sourceNames : List (String × String)
  storage : String → Option BindingStorage
  views : CapturedViews

namespace TaskBindings

variable (task : TaskBindings) (body : List Stmt)

/-- `task_binding_names`. -/
def bindings : Finset String := (task.sourceNames.map Prod.fst).toFinset

def live : Finset String := taskLocalsLiveAcrossYield body task.bindings task.views

/-- `collect_task_locals`: the locals with their storage, in order. -/
def locals : List (String × BindingStorage) :=
  ((task.sourceNames.map Prod.fst).insertionSort (· ≤ ·)).filterMap fun name =>
    (task.storage name).map fun storage => (name, storage)

/-- The errors of `collect_task_locals`. -/
def localErrors : List String :=
  task.sourceNames.filterMap fun entry =>
    if (task.storage entry.1).isNone ∧ entry.1 ∈ task.live body then
      some ("task local '" ++ entry.2 ++ "' is live across a yield in task '" ++ task.name
        ++ "' but has no fixed data storage or surviving view")
    else none

/-- The fields of the live locals. -/
def names : Names := fun name =>
  if name ∈ task.bindings ∧ (task.storage name).isSome ∧ name ∈ task.live body then
    some (taskLocalField task.name name)
  else none

def localNames (name : String) : Bool := name ∈ task.bindings ∧ (task.storage name).isSome

/-- The body with fields for the live locals. -/
def placedBody : List Stmt := rewriteStmts (task.names body) task.localNames body

/-- The frames of the loops, if the task suspends. -/
def frames : FrameEntries :=
  if anyYield (task.placedBody body) then
    (collectForFrameBindings task.name (task.placedBody body) (0, [])).2
  else []

/-- The variables of frames, in the order of their ends. -/
def frameFields : List (String × PrimitiveType × Bool) :=
  (((task.frames body).map Prod.snd).insertionSort fun lhs rhs => lhs.stop ≤ rhs.stop).flatMap
    fun frame => [(frame.stop, frame.ty, frame.persistent), (frame.step, frame.ty, frame.persistent)]

/-- The locals that are live across a pause, and the others. -/
def liveLocals : List (String × BindingStorage) := task.locals.filter (·.1 ∈ task.live body)

def resumeLocals : List (String × BindingStorage) := task.locals.filter (·.1 ∉ task.live body)

/-- `prepare_task`. -/
def prepareTask : PreparedTask where
  name := task.name
  body := task.placedBody body
  resumeLocalInitializers :=
    (task.resumeLocals body).map (fun entry => entry.2.declarationStmt entry.1)
      ++ ((task.frameFields body).filter (!·.2.2)).map fun entry =>
        .typedAssign entry.1 entry.2.1 (Expr.ofInt 0)
  initStmts :=
    .typedAssign (taskPcField task.name) .i32 (Expr.ofInt 0)
      :: (task.liveLocals body).map (fun entry => entry.2.initStmt (taskLocalField task.name entry.1))
      ++ ((task.frameFields body).filter (·.2.2)).map fun entry =>
        .typedAssign entry.1 entry.2.1 (Expr.ofInt 0)
  resetStmts := [.assignVar (taskPcField task.name) (Expr.ofInt 0)]
  pinnedFields :=
    taskPcField task.name :: (task.liveLocals body).map (fun entry => taskLocalField task.name entry.1)
      ++ ((task.frameFields body).filter (·.2.2)).map Prod.fst
  forFrameBindings := task.frames body
  recipes := fun view => (task.views.recipes view).map (Recipe.rewrite (task.names body))
  errors := task.localErrors body

end TaskBindings

end Onda.TaskLocals
