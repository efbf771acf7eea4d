import Onda.TaskLocals.Prepare

/-!
# Task locals persist

What it means that a local which is needed after a pause is kept, and when it is.
-/

namespace Onda.TaskLocals

open Frontend Liveness

/-! ### Reads -/

/-- The bindings that a recipe selects from. -/
def Recipe.bases : Recipe → List String
  | .selection expr => (ownUses expr).map root
  | .choice _ left right => left.bases ++ right.bases

/-- A recipe reads a binding to find its place. -/
def Recipe.Selects (binding : String) : Recipe → Prop
  | .selection expr => ∃ child ∈ expr.children, TaskLocals.Reads binding child
  | .choice condition left right => root condition = binding ∨ left.Selects binding ∨ right.Selects binding

namespace CapturedViews

variable (views : CapturedViews)

/-- Storage that is read to find the place of a view. -/
inductive Locates (binding : String) : String → Prop where
  | coordinate {view used : String} {recipe : Recipe} : views.recipes view = some recipe →
      recipe.Selects used → views.Reaches binding used → Locates binding view
  | base {view base : String} {recipe : Recipe} : views.recipes view = some recipe →
      base ∈ recipe.bases → Locates binding base → Locates binding view

/-- A statement reads storage, through views or to find the place that it assigns. -/
def ReadsThrough (binding : String) (stmt : Stmt) : Prop :=
  (∃ used, StmtReads used stmt ∧ views.Reaches binding used)
    ∨ ∃ path, storePath stmt = some path ∧ views.Locates binding (root path)

/-- Statements, and then the end of their block, read storage before they assign all of it. -/
def ReadsFirst (binding : String) (last : Prop) : List Stmt → Prop
  | [] => last
  | stmt :: stmts => views.ReadsThrough binding stmt ∨ ¬Assigns binding stmt ∧ ReadsFirst binding last stmts

/-- A block reads storage before it assigns all of it. -/
def ReadBy (binding : String) (block : TaskCfgBlock) : Prop :=
  views.ReadsFirst binding (views.Decides binding block) block.statements

end CapturedViews

/-! ### Occurrences -/

/-- The bindings that an assignment names. -/
def targetBindings : AssignTarget → List String
  | .var path | .index path _ | .indexedMember path _ _ _ | .slice path _ _ _ _ => [root path]
  | .tuple targets => targets.filterMap TupleAssignTarget.name

/-- The bindings in some expressions. -/
def exprBindings (exprs : List Expr) : List String := (exprs.flatMap exprUses).map root

mutual

/-- The occurrences of bindings in a statement, in order. -/
def stmtBindings : Stmt → List String
  | .assign _ _ target _ expr =>
    targetBindings target ++ exprBindings target.selectors ++ exprBindings [expr]
  | .expr _ expr | .ret _ expr => exprBindings [expr]
  | .print _ _ values _ => exprBindings values
  | .ifElse _ cond thenBranch elseBranch =>
    exprBindings [cond] ++ stmtsBindings thenBranch ++ stmtsBindings elseBranch
  | .forLoop _ var _ step start stop _ body =>
    var :: exprBindings (start :: stop :: step.toList) ++ stmtsBindings body
  | .whileLoop _ cond body => exprBindings [cond] ++ stmtsBindings body
  | .brk _ | .cont _ => []

def stmtsBindings : List Stmt → List String
  | [] => []
  | stmt :: stmts => stmtBindings stmt ++ stmtsBindings stmts

end

theorem exprBindings_rewrite {names : Names} (plain : names.Plain) (exprs : List Expr) :
    exprBindings (exprs.map (rewriteExpr names)) = (exprBindings exprs).map names.rename := by
  induction exprs with
  | nil => rfl
  | cons expr exprs ih =>
    rw [exprBindings, exprBindings] at ih ⊢
    rw [List.map_cons, List.flatMap_cons, List.flatMap_cons, List.map_append, List.map_append,
      List.map_append, ih, exprUses_rewriteExpr plain, List.map_map, List.map_map]
    rfl

theorem targetBindings_rewrite {names : Names} (plain : names.Plain) (target : AssignTarget) :
    targetBindings (rewriteTarget names target) = (targetBindings target).map names.rename := by
  cases target with
  | var | index | indexedMember | slice => simp [rewriteTarget, targetBindings, root_rewritePath plain]
  | tuple targets =>
    rw [rewriteTarget, targetBindings, targetBindings, List.filterMap_map, List.map_filterMap]
    refine List.filterMap_congr fun target _ => ?_
    cases target <;> rfl

mutual

theorem stmtBindings_rewrite {names : Names} (plain : names.Plain) (taskLocals : String → Bool) :
    ∀ stmt, stmtBindings (rewriteStmt names taskLocals stmt) = (stmtBindings stmt).map names.rename
  | .assign _ _ target _ expr => by
    rw [rewriteStmt, stmtBindings, stmtBindings, targetBindings_rewrite plain,
      CapturedViews.selectors_rewriteTarget, exprBindings_rewrite plain, List.map_append, List.map_append,
      ← exprBindings_rewrite plain [expr], List.map_singleton]
  | .expr _ expr => exprBindings_rewrite plain [expr]
  | .ret _ expr => exprBindings_rewrite plain [expr]
  | .print _ _ values _ => by
    rw [rewriteStmt, stmtBindings, stmtBindings, rewriteExprs_eq, exprBindings_rewrite plain]
  | .ifElse _ cond thenBranch elseBranch => by
    rw [rewriteStmt, stmtBindings, stmtBindings, stmtsBindings_rewrite plain taskLocals thenBranch,
      stmtsBindings_rewrite plain taskLocals elseBranch, List.map_append, List.map_append,
      ← exprBindings_rewrite plain [cond], List.map_singleton]
  | .forLoop _ var _ step start stop _ body => by
    have bounds : (start :: stop :: step.toList).map (rewriteExpr names)
        = rewriteExpr names start :: rewriteExpr names stop :: (rewriteOption names step).toList := by
      cases step <;> rfl
    rw [rewriteStmt, stmtBindings, stmtBindings, stmtsBindings_rewrite plain taskLocals body, ← bounds,
      exprBindings_rewrite plain, List.map_append, List.map_cons]
    rfl
  | .whileLoop _ cond body => by
    rw [rewriteStmt, stmtBindings, stmtBindings, stmtsBindings_rewrite plain taskLocals body,
      List.map_append, ← exprBindings_rewrite plain [cond], List.map_singleton]
  | .brk _ => rfl
  | .cont _ => rfl

/-- **Occurrences.**  Each occurrence of a binding is renamed. -/
theorem stmtsBindings_rewrite {names : Names} (plain : names.Plain) (taskLocals : String → Bool) :
    ∀ stmts, stmtsBindings (rewriteStmts names taskLocals stmts) = (stmtsBindings stmts).map names.rename
  | [] => rfl
  | stmt :: stmts => by
    rw [rewriteStmts, stmtsBindings, stmtsBindings, stmtBindings_rewrite plain taskLocals stmt,
      stmtsBindings_rewrite plain taskLocals stmts, List.map_append]

end

/-! ### Fields -/

theorem notMem_digits {char : Char} (other : char.isDigit = false) (number : Nat) :
    char ∉ (toString number).toList := by
  intro mem
  have digit : char.isDigit = true :=
    Nat.isDigit_of_mem_toDigits (b := 10) (by decide) (by decide) (n := number) (by simpa using mem)
  rw [digit] at other
  cases other

theorem taskLocalField_plain {task binding : String} (taskPlain : '.' ∉ task.toList)
    (plain : '.' ∉ binding.toList) : '.' ∉ (taskLocalField task binding).toList := by
  simp only [taskLocalField, taskSymbolStem, String.toList_append, List.mem_append, taskPlain, plain,
    notMem_digits (rfl : Char.isDigit '.' = false), or_false, not_or]
  exact ⟨⟨⟨by decide, by decide⟩, by decide⟩, by decide⟩

/-- The rest of two lists behind the first occurrence of a separator. -/
theorem append_cons_inj_of_free {α : Type} {sep : α} {left right rest rest' : List α}
    (freeLeft : sep ∉ left) (freeRight : sep ∉ right)
    (same : left ++ sep :: rest = right ++ sep :: rest') : rest = rest' := by
  rcases List.append_eq_append_iff.mp same with ⟨middle, rfl, whole⟩ | ⟨middle, rfl, whole⟩
  · cases middle with
    | nil => exact List.tail_eq_of_cons_eq whole
    | cons char middle =>
      rw [List.cons_append, List.cons.injEq] at whole
      exact absurd (whole.1 ▸ List.mem_append_right _ List.mem_cons_self) freeRight
  · cases middle with
    | nil => exact (List.tail_eq_of_cons_eq whole).symm
    | cons char middle =>
      rw [List.cons_append, List.cons.injEq] at whole
      exact absurd (whole.1 ▸ List.mem_append_right _ List.mem_cons_self) freeLeft

theorem taskLocalField_injective (task : String) : Function.Injective (taskLocalField task) := by
  intro left right same
  have chars := congrArg String.toList same
  simp only [taskLocalField, String.toList_append, List.append_assoc, List.append_cancel_left_eq] at chars
  exact String.toList_injective (append_cons_inj_of_free (notMem_digits rfl _)
    (notMem_digits rfl _) chars)

/-- The field of a local is no variable of a frame. -/
theorem taskLocalField_ne_frame (task binding : String) (id : Nat) (bound : String) :
    taskLocalField task binding ≠ forFrameField task id bound := by
  intro same
  have chars := congrArg String.toList same
  simp only [taskLocalField, forFrameField, String.toList_append, List.append_assoc,
    List.append_cancel_left_eq] at chars
  have second := congrArg (fun chars => chars[1]?) chars
  revert second
  simp only [show "_local_".toList = ['_', 'l', 'o', 'c', 'a', 'l', '_'] from rfl,
    show "_for_".toList = ['_', 'f', 'o', 'r', '_'] from rfl]
  simp

namespace TaskBindings

variable (task : TaskBindings) (body : List Stmt)

/-- What the bindings of a task are when its locals are placed: identifiers with storage of
their own, none of which is a field of a local. -/
structure WellNamed : Prop where
  taskPlain : '.' ∉ task.name.toList
  storage : ∀ binding ∈ task.bindings, task.views.Storage binding
  apart : ∀ binding ∈ task.bindings, taskLocalField task.name binding ∉ stmtsBindings body
    ∧ taskLocalField task.name binding ∉ task.bindings

variable {task body}

theorem WellNamed.plain (named : task.WellNamed body) : (task.names body).Plain where
  source key new renamed := by
    rw [names] at renamed
    split at renamed
    case isTrue placed => exact (named.storage key placed.1).plain
    case isFalse => cases renamed
  target key new renamed := by
    rw [names] at renamed
    split at renamed
    case isTrue placed =>
      cases renamed
      exact taskLocalField_plain named.taskPlain (named.storage key placed.1).plain
    case isFalse => cases renamed

variable (task body) in
/-- A local is kept between activations: in a field that is initialized once, that no
activation initializes again, and that stands for every occurrence of the local, and of no
other binding. -/
structure Persists (binding : String) (storage : BindingStorage) : Prop where
  initialized : storage.initStmt (taskLocalField task.name binding) ∈ (task.prepareTask body).initStmts
  pinned : taskLocalField task.name binding ∈ (task.prepareTask body).pinnedFields
  kept : ∀ stmt ∈ (task.prepareTask body).resumeLocalInitializers,
    ¬Assigns (taskLocalField task.name binding) stmt
  moved : stmtsBindings (task.prepareTask body).body
    = (stmtsBindings body).map (task.names body).rename
  field : ∀ other ∈ stmtsBindings body,
    (task.names body).rename other = taskLocalField task.name binding ↔ other = binding

variable (task body) in
/-- The error for a local that needs storage and has none. -/
def Refused (binding : String) : Prop :=
  ∃ source, (binding, source) ∈ task.sourceNames
    ∧ "task local '" ++ source ++ "' is live across a yield in task '" ++ task.name
        ++ "' but has no fixed data storage or surviving view" ∈ (task.prepareTask body).errors

/-- The frames are named by their ids. -/
def Numbered (name : String) (fields : FrameEntries) : Prop :=
  ∀ entry ∈ fields, ∃ id, entry.2.stop = forFrameField name id "_end"
    ∧ entry.2.step = forFrameField name id "_step"

mutual

theorem collectStmtFrames_numbered (name : String) : ∀ (stmt : Stmt) {fields : Nat × FrameEntries},
    Numbered name fields.2 → Numbered name (collectStmtFrames name stmt fields).2
  | .ifElse _ _ thenBranch elseBranch, _, numbered =>
    collectFrames_numbered name elseBranch (collectFrames_numbered name thenBranch numbered)
  | .forLoop _ var varTy _ _ _ _ body, (nextId, fields), numbered => by
    refine collectFrames_numbered name body ?_
    split
    case isFalse => exact numbered
    case isTrue =>
      intro entry mem
      rcases List.mem_append.mp mem with old | new
      · exact numbered entry (List.mem_of_mem_filter old)
      · rw [List.mem_singleton.mp new]
        exact ⟨nextId, rfl, rfl⟩
  | .whileLoop _ _ body, _, numbered => collectFrames_numbered name body numbered
  | .assign .., _, numbered | .expr .., _, numbered | .print .., _, numbered | .ret .., _, numbered
  | .brk _, _, numbered | .cont _, _, numbered => numbered

theorem collectFrames_numbered (name : String) : ∀ (stmts : List Stmt) {fields : Nat × FrameEntries},
    Numbered name fields.2 → Numbered name (collectForFrameBindings name stmts fields).2
  | [], _, numbered => numbered
  | stmt :: stmts, _, numbered =>
    collectFrames_numbered name stmts (collectStmtFrames_numbered name stmt numbered)

end

theorem frameFields_numbered {entry : String × PrimitiveType × Bool}
    (mem : entry ∈ task.frameFields body) : ∃ id bound, entry.1 = forFrameField task.name id bound := by
  have numbered : Numbered task.name (task.frames body) := by
    rw [frames]
    split
    case isTrue => exact collectFrames_numbered task.name _ (by simp [Numbered])
    case isFalse => simp [Numbered]
  rw [frameFields, List.mem_flatMap] at mem
  obtain ⟨frame, inside, either⟩ := mem
  rw [List.mem_insertionSort, List.mem_map] at inside
  obtain ⟨field, member, rfl⟩ := inside
  obtain ⟨id, stop, step⟩ := numbered field member
  simp only [List.mem_cons, List.not_mem_nil, or_false] at either
  rcases either with rfl | rfl
  · exact ⟨id, _, stop⟩
  · exact ⟨id, _, step⟩

theorem names_of_live {binding : String} (isLocal : binding ∈ task.bindings)
    (live : binding ∈ task.live body) {storage : BindingStorage}
    (stored : task.storage binding = some storage) :
    task.names body binding = some (taskLocalField task.name binding) := by
  rw [names, if_pos ⟨isLocal, by simp [stored], live⟩]

/-- **Placement.**  A live local with storage persists. -/
theorem persists_of_live (named : task.WellNamed body) {binding : String} (isLocal : binding ∈ task.bindings)
    (live : binding ∈ task.live body) {storage : BindingStorage}
    (stored : task.storage binding = some storage) : task.Persists body binding storage := by
  have placed : (binding, storage) ∈ task.liveLocals body := by
    rw [liveLocals, List.mem_filter, locals, List.mem_filterMap]
    refine ⟨⟨binding, ?_, by rw [stored, Option.map_some]⟩, by simpa using live⟩
    rw [List.mem_insertionSort]
    exact List.mem_toFinset.mp isLocal
  refine ⟨?_, ?_, fun stmt mem assigns => ?_, stmtsBindings_rewrite named.plain _ body,
    fun other occurs => ⟨fun same => ?_, ?_⟩⟩
  · rw [prepareTask]
    exact List.mem_append_left _ (List.mem_cons_of_mem _ (List.mem_map.mpr ⟨_, placed, rfl⟩))
  · rw [prepareTask]
    exact List.mem_append_left _ (List.mem_cons_of_mem _ (List.mem_map.mpr ⟨_, placed, rfl⟩))
  · rw [prepareTask] at mem
    rcases List.mem_append.mp mem with fromLocal | fromFrame
    · obtain ⟨entry, inside, rfl⟩ := List.mem_map.mp fromLocal
      have same : entry.1 = taskLocalField task.name binding := assigns
      rw [resumeLocals, List.mem_filter, locals, List.mem_filterMap] at inside
      obtain ⟨⟨name, sorted, declared⟩, -⟩ := inside
      obtain ⟨_, -, rfl⟩ := Option.map_eq_some_iff.mp declared
      rw [List.mem_insertionSort] at sorted
      exact (named.apart binding isLocal).2 (same ▸ List.mem_toFinset.mpr sorted)
    · obtain ⟨entry, inside, rfl⟩ := List.mem_map.mp fromFrame
      have same : entry.1 = taskLocalField task.name binding := assigns
      obtain ⟨id, bound, framed⟩ := frameFields_numbered (List.mem_of_mem_filter inside)
      exact taskLocalField_ne_frame task.name binding id bound (same ▸ framed)
  · rw [Names.rename] at same
    cases renamed : task.names body other with
    | none =>
      rw [renamed, Option.getD_none] at same
      exact absurd (same ▸ occurs) (named.apart binding isLocal).1
    | some field =>
      rw [renamed, Option.getD_some] at same
      rw [names] at renamed
      split at renamed
      case isTrue =>
        cases renamed
        exact taskLocalField_injective task.name same
      case isFalse => cases renamed
  · rintro rfl
    rw [Names.rename, names_of_live isLocal live stored, Option.getD_some]

theorem refused_of_live {binding : String} (isLocal : binding ∈ task.bindings)
    (live : binding ∈ task.live body) (unstored : task.storage binding = none) :
    task.Refused body binding := by
  obtain ⟨⟨_, source⟩, entry, rfl⟩ := List.mem_map.mp (List.mem_toFinset.mp isLocal)
  refine ⟨source, entry, List.mem_filterMap.mpr ⟨_, entry, ?_⟩⟩
  rw [if_pos ⟨by simp [unstored], live⟩]

/-! ### The result -/

variable (task) in
/-- A variable that is no binding of the task and no view. -/
def Apart (name : String) : Prop := root name ∉ task.bindings ∧ task.views.recipes (root name) = none

variable (task body) in
/-- Some path from a pause reaches a block that reads a local, and no block before assigns
all of it.  The bounds of `for` loops are kept in variables of their own. -/
def ReadAfterPause (binding : String) : Prop :=
  ∃ frames : ForFrames,
    (∀ var ty, task.Apart (frames.get var ty).stop ∧ task.Apart (frames.get var ty).step)
      ∧ NeededAfterPause (taskCfg frames body) (task.views.ReadBy binding) (AssignedBy binding)

variable (task body) in
/-- Every local that is read after a pause is live and persists, or the task is refused. -/
def KeepsLocals : Prop :=
  ∀ binding ∈ task.bindings, task.ReadAfterPause body binding → binding ∈ task.live body
    ∧ ((∃ storage, task.storage binding = some storage ∧ task.Persists body binding storage)
      ∨ task.Refused body binding)

variable (task body) in
/-- Every local that is read after a pause is needed there also if the bounds of each loop
over `v` are variables `v__end` and `v__step`, which the loop assigns and tests. -/
def NeededBesideBounds : Prop :=
  ∀ binding ∈ task.bindings, task.ReadAfterPause body binding →
    NeededAfterPause (taskCfg (fun _ => none) body) (task.views.TouchedBy binding) (AssignedBy binding)

/-- **Locals across pauses.**  The iteration reaches the least solution on every graph.  The
locals that are read after a pause persist if and only if the names of loop bounds hide none of
them. -/
theorem locals_persist_iff (named : task.WellNamed body) :
    (∀ blocks, (taskFlow blocks).Least (taskFlow blocks).liveIn)
      ∧ (task.KeepsLocals body ↔ task.NeededBesideBounds body) := by
  refine ⟨fun blocks => (taskFlow blocks).liveIn_least, fun keeps binding isLocal reads => ?_,
    fun needed binding isLocal reads => ?_⟩
  · have live := (keeps binding isLocal reads).1
    exact ((mem_taskLocalsLiveAcrossYield (named.storage binding isLocal) body).mp live).2
  · have live : binding ∈ task.live body :=
      (mem_taskLocalsLiveAcrossYield (named.storage binding isLocal) body).mpr
        ⟨isLocal, needed binding isLocal reads⟩
    refine ⟨live, ?_⟩
    cases stored : task.storage binding with
    | none => exact .inr (refused_of_live isLocal live stored)
    | some storage => exact .inl ⟨storage, rfl, persists_of_live named isLocal live stored⟩

end TaskBindings

/-! ### A hidden local -/

/-- A task without views. -/
def CapturedViews.empty : CapturedViews where
  recipes _ := none
  stem := ""
  occupied := ∅
  rank _ := 0
  depth := 0
  stem_plain := by decide
  rank_le := nofun
  descends := nofun
  key_plain := nofun
  condition_plain := nofun

def boundTask : TaskBindings where
  name := "t"
  sourceNames := [("i__end", "i__end"), ("i", "i")]
  storage _ := some (.scalar .i32)
  views := .empty

def yieldStmt : Stmt := .expr Span.ZERO (.userCall Span.ZERO "__onda_task_yield" [] [])

/-- A local that is named like the bound of a loop, which is entered between a pause and a read. -/
def boundBody : List Stmt :=
  [.assignVar "i__end" (Expr.ofInt 5), yieldStmt,
    .forLoop Span.ZERO "i" .i32 none (Expr.ofInt 0) (Expr.ofInt 3) false [],
    .expr Span.ZERO (Expr.ofVar "i__end")]

def hiddenFrames : ForFrames := fun _ =>
  some { stop := "__onda_end", step := "__onda_step", ty := .i32, persistent := false }

theorem boundTask_wellNamed : boundTask.WellNamed boundBody where
  taskPlain := by decide
  storage := by
    have all : ∀ binding ∈ boundTask.bindings, '.' ∉ binding.toList := by decide
    exact fun binding mem => ⟨all binding mem, rfl, nofun⟩
  apart := by decide

theorem boundTask_reads : boundTask.ReadAfterPause boundBody "i__end" := by
  refine ⟨hiddenFrames, fun _ _ => ?_, ?_⟩
  · exact ⟨⟨show root "__onda_end" ∉ boundTask.bindings by decide, rfl⟩,
      ⟨show root "__onda_step" ∉ boundTask.bindings by decide, rfl⟩⟩
  · -- From the pause through the loop, which is left at its header, to the read.
    have reads : boundTask.views.ReadBy "i__end" ⟨[.expr Span.ZERO (Expr.ofVar "i__end")], .jump 0⟩ :=
      .inl (.inl ⟨"i__end", .var (by decide), .storage rfl⟩)
    have read : Needed (taskCfg hiddenFrames boundBody) (boundTask.views.ReadBy "i__end")
        (AssignedBy "i__end") 1 := .here rfl reads
    have header : Needed (taskCfg hiddenFrames boundBody) (boundTask.views.ReadBy "i__end")
        (AssignedBy "i__end") 2 :=
      .later rfl (by simp [AssignedBy]) (by decide) read
    have enters : Needed (taskCfg hiddenFrames boundBody) (boundTask.views.ReadBy "i__end")
        (AssignedBy "i__end") 5 := by
      refine .later rfl ?_ (by decide) header
      simp [AssignedBy, Stmt.assignVar, Assigns, hiddenFrames, ForFrames.get]
    have pause : (taskCfg hiddenFrames boundBody)[6]? = some ⟨[], .yield 5⟩ := rfl
    exact ⟨_, List.mem_of_getElem? pause, 5, rfl, enters⟩

/-- **A lost local.**  The loop counts as an assignment of the local, so nothing keeps it. -/
theorem boundTask_loses : ¬boundTask.KeepsLocals boundBody := by
  intro keeps
  have live := (keeps "i__end" (by decide) boundTask_reads).1
  obtain ⟨-, block, mem, target, resumes, needed⟩ :=
    (mem_taskLocalsLiveAcrossYield (boundTask_wellNamed.storage "i__end" (by decide)) boundBody).mp live
  have pauses : ∀ block ∈ taskCfg (fun _ => none) boundBody,
      block.terminator.resumes = none ∨ block.terminator.resumes = some 5 := by decide
  obtain rfl : target = 5 := by
    rcases pauses block mem with none_left | found
    · rw [none_left] at resumes
      cases resumes
    · rw [found] at resumes
      exact (Option.some.inj resumes).symm
  have loop : (taskCfg (fun _ => none) boundBody)[5]? = some
      ⟨[.assignVar "i" ((Expr.ofInt 0).castToPrimitive .i32),
        .assignVar "i__end" ((Expr.ofInt 3).castToPrimitive .i32),
        .assignVar "i__step" ((Expr.ofInt 1).castToPrimitive .i32)], .jump 2⟩ := rfl
  cases needed with
  | here there touched =>
    rw [loop, Option.some.injEq] at there
    subst there
    have constant : ∀ name, ∀ value : BitVec 64, boundTask.views.Touches "i__end"
        (.assignVar name ((Expr.ofInt value).castToPrimitive .i32)) → root name = "i__end" ∧ name ≠ "i__end" := by
      rintro name value (⟨used, reads | ⟨selector, mem, -⟩, -⟩ | ⟨path, stored, reaches, partly⟩)
      · exact absurd ((reads_iff _).mp reads) List.not_mem_nil
      · cases mem
      · cases stored
        exact ⟨((boundTask_wellNamed.storage "i__end" (by decide)).reaches_iff rfl).mp reaches, partly⟩
    rcases touched with ⟨stmt, mem, touches⟩ | ⟨condition, mem, -⟩
    · simp only [List.mem_cons, List.not_mem_nil, or_false] at mem
      rcases mem with rfl | rfl | rfl
      · exact absurd (constant _ _ touches).1 (by decide)
      · exact (constant _ _ touches).2 rfl
      · exact absurd (constant _ _ touches).1 (by decide)
    · cases mem
  | later there free =>
    rw [loop, Option.some.injEq] at there
    subst there
    exact free ⟨.assignVar "i__end" ((Expr.ofInt 3).castToPrimitive .i32), by simp, rfl⟩

theorem boundTask_persist_iff :
    (∀ blocks, (taskFlow blocks).Least (taskFlow blocks).liveIn)
      ∧ (boundTask.KeepsLocals boundBody ↔ boundTask.NeededBesideBounds boundBody) :=
  TaskBindings.locals_persist_iff boundTask_wellNamed

end Onda.TaskLocals
