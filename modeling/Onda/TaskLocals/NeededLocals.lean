import Onda.TaskLocals.ViewUses

/-!
# Locals that are needed after a pause

A local is needed at a block if some path from there reaches a block that uses it and no
block before assigns all of it.  Uses go through views.  The live locals of a task are
those that are needed where the task is resumed.
-/

namespace Onda.TaskLocals

open Frontend Liveness

/-! ### Blocks -/

/-- The condition of a branch. -/
def TaskCfgTerminator.condition : TaskCfgTerminator → Option Expr
  | .branch condition _ _ => some condition
  | .jump _ | .yield _ | .complete => none

/-- The condition at the end of a block reads storage. -/
def CapturedViews.Decides (views : CapturedViews) (binding : String) (block : TaskCfgBlock) : Prop :=
  ∃ condition ∈ block.terminator.condition, ∃ used, Reads used condition ∧ views.Reaches binding used

/-- A block reads storage, or assigns a part of it. -/
def CapturedViews.TouchedBy (views : CapturedViews) (binding : String) (block : TaskCfgBlock) : Prop :=
  (∃ stmt ∈ block.statements, views.Touches binding stmt) ∨ views.Decides binding block

/-- A block assigns all of a binding. -/
def AssignedBy (binding : String) (block : TaskCfgBlock) : Prop :=
  ∃ stmt ∈ block.statements, Assigns binding stmt

/-- A use is reached before a block that kills. -/
inductive Needed (blocks : List TaskCfgBlock) (uses kills : TaskCfgBlock → Prop) : Nat → Prop where
  | here {node : Nat} {block : TaskCfgBlock} : blocks[node]? = some block → uses block →
      Needed blocks uses kills node
  | later {node successor : Nat} {block : TaskCfgBlock} : blocks[node]? = some block → ¬kills block →
      successor ∈ block.terminator.successors → Needed blocks uses kills successor →
      Needed blocks uses kills node

/-- A use is reached from where the task is resumed. -/
def NeededAfterPause (blocks : List TaskCfgBlock) (uses kills : TaskCfgBlock → Prop) : Prop :=
  ∃ block ∈ blocks, ∃ target ∈ block.terminator.resumes, Needed blocks uses kills target

namespace CapturedViews

variable {views : CapturedViews} {binding : String}

/-- A block with its views expanded. -/
structure Expands (views : CapturedViews) (block block' : TaskCfgBlock) : Prop where
  successors : block'.terminator.successors = block.terminator.successors
  resumes : block'.terminator.resumes = block.terminator.resumes
  used : ∀ binding, views.Storage binding →
    (binding ∈ (blockUsesAndDefs block').1 ↔ views.TouchedBy binding block)
  defined : ∀ binding, views.Storage binding →
    (binding ∈ (blockUsesAndDefs block').2 ↔ AssignedBy binding block)

theorem mem_stmtDefs (storage : views.Storage binding) {stmt : Stmt} :
    binding ∈ stmtDefs stmt ↔ Assigns binding stmt := by
  cases stmt with
  | assign loc targetLoc target =>
    rw [stmtDefs, mem_targetDefs storage]
    cases target <;> simp [Assigns]
  | expr | print | ret | ifElse | forLoop | whileLoop | brk | cont => simp [stmtDefs, Assigns]

theorem expandStatements_spec (storage : views.Storage binding) (stmts : List Stmt)
    (straight : ∀ stmt ∈ stmts, Straight stmt) :
    ∀ result next,
      (binding ∈ (stmtsUses (views.expandStatements stmts result next).1).map root
          ↔ binding ∈ (stmtsUses result).map root ∨ ∃ stmt ∈ stmts, views.Touches binding stmt)
        ∧ (binding ∈ (views.expandStatements stmts result next).1.flatMap stmtDefs
          ↔ binding ∈ result.flatMap stmtDefs ∨ ∃ stmt ∈ stmts, Assigns binding stmt) := by
  induction stmts with
  | nil => simp [expandStatements]
  | cons stmt stmts ih =>
    intro result next
    rw [List.forall_mem_cons] at straight
    have first := expandStmt_spec storage straight.1 result next
    have rest := ih straight.2 (views.expandStmt stmt result next).1 (views.expandStmt stmt result next).2
    rw [expandStatements]
    rw [first.1] at rest
    rw [first.2, mem_stmtDefs storage] at rest
    simpa only [List.exists_mem_cons_iff, or_assoc] using rest

theorem mem_withRoots_plain (plain : '.' ∉ binding.toList) {uses : List String} :
    binding ∈ withRoots uses ↔ binding ∈ uses.map root := by
  rw [← mem_withRoots]
  constructor
  · intro mem
    exact List.mem_map.mpr ⟨binding, mem, root_eq_self plain⟩
  · intro mem
    obtain ⟨path, used, same⟩ := List.mem_map.mp (mem_withRoots.mp mem)
    rw [withRoots, List.mem_append]
    by_cases dotted : '.' ∈ path.toList
    · exact .inr (List.mem_filterMap.mpr ⟨path, used, by rw [splitOnce, if_pos dotted, same]⟩)
    · rw [root_eq_self dotted] at same
      exact .inl (same ▸ used)

/-- A block with a condition, which is expanded behind the statements. -/
theorem expandBlocks_branch (statements : List Stmt) (condition : Expr) (thenBlock elseBlock : Nat)
    (blocks : List TaskCfgBlock) (next : Nat) (out : Names × List Stmt × Nat)
    (expanded : views.expandUses (exprUses condition) (views.expandStatements statements [] next).1
      (views.expandStatements statements [] next).2 = out) :
    expandBlocks views (⟨statements, .branch condition thenBlock elseBlock⟩ :: blocks) next
      = ⟨out.2.1, .branch (rewriteExpr out.1 condition) thenBlock elseBlock⟩
        :: expandBlocks views blocks out.2.2 := by
  subst expanded
  rfl

/-- **Blocks.**  An expanded block uses and defines what the block touches and assigns. -/
theorem expandBlocks_spec (blocks : List TaskCfgBlock)
    (straight : ∀ block ∈ blocks, ∀ stmt ∈ block.statements, Straight stmt) :
    ∀ next, List.Forall₂ views.Expands blocks (expandBlocks views blocks next) := by
  induction blocks with
  | nil => exact fun _ => .nil
  | cons block blocks ih =>
    intro next
    rw [List.forall_mem_cons] at straight
    obtain ⟨statements, terminator⟩ := block
    have expanded := fun (binding : String) (storage : views.Storage binding) =>
      expandStatements_spec storage statements straight.1 [] next
    simp only [stmtsUses, List.map_nil, List.not_mem_nil, false_or, List.flatMap_nil] at expanded
    -- Without a condition nothing comes behind the statements.
    have unconditional : terminator.condition = none → terminator.uses = [] →
        views.Expands ⟨statements, terminator⟩
          ⟨(views.expandStatements statements [] next).1, terminator⟩ := by
      intro none_left no_uses
      refine ⟨rfl, rfl, fun binding storage => ?_, fun binding storage => ?_⟩
      · rw [blockUsesAndDefs, List.mem_toFinset, mem_withRoots_plain storage.plain, no_uses,
          List.append_nil, (expanded binding storage).1, TouchedBy, Decides, none_left, or_iff_left]
        rintro ⟨_, mem, -⟩
        cases mem
      · rw [blockUsesAndDefs, List.mem_toFinset, (expanded binding storage).2, AssignedBy]
    cases terminator with
    | jump | yield | complete => exact .cons (unconditional rfl rfl) (ih straight.2 _)
    | branch condition thenBlock elseBlock =>
      have materialized : views.Materialized (exprUses condition) _ _ :=
        expandUses_spec (exprUses condition) (views.expandStatements statements [] next).1
          (views.expandStatements statements [] next).2
      generalize formed : views.expandUses (exprUses condition)
        (views.expandStatements statements [] next).1
        (views.expandStatements statements [] next).2 = out at materialized
      rw [expandBlocks_branch statements condition thenBlock elseBlock blocks next out formed]
      refine .cons ⟨rfl, rfl, fun binding storage => ?_, fun binding storage => ?_⟩ (ih straight.2 _)
      · rw [blockUsesAndDefs, List.mem_toFinset, mem_withRoots_plain storage.plain]
        simp only [TaskCfgTerminator.uses, List.map_append, List.mem_append,
          materialized.used binding storage, materialized.reads_iff storage,
          (expanded binding storage).1]
        rw [TouchedBy, or_assoc]
        refine or_congr_right ?_
        rw [or_comm, ← storage.reached_by]
        simp only [Decides, TaskCfgTerminator.condition, Option.mem_some_iff, exists_eq_left',
          TaskLocals.reads_iff]
      · rw [blockUsesAndDefs, List.mem_toFinset]
        simp only [materialized.defined binding storage, (expanded binding storage).2, AssignedBy]

end CapturedViews

/-! ### Graphs -/

/-- Blocks whose statements have no control flow. -/
def AllStraight (blocks : List TaskCfgBlock) : Prop :=
  ∀ block ∈ blocks, ∀ stmt ∈ block.statements, Straight stmt

theorem straight_nil : ∀ stmt ∈ ([] : List Stmt), Straight stmt := by simp

theorem straight_singleton {stmt : Stmt} (straight : Straight stmt) : ∀ other ∈ [stmt], Straight other := by
  simpa using straight

variable {views : CapturedViews} {blocks : List TaskCfgBlock}

theorem AllStraight.push (straight : AllStraight blocks) {statements : List Stmt}
    (simple : ∀ stmt ∈ statements, Straight stmt) (terminator : TaskCfgTerminator)
    : AllStraight (push blocks statements terminator).2 := by
  intro block mem
  rcases List.mem_append.mp mem with old | new
  · exact straight block old
  · rw [List.mem_singleton.mp new]
    exact simple

theorem AllStraight.set (straight : AllStraight blocks) (node : Nat)
    (terminator : TaskCfgTerminator) : AllStraight (blocks.set node ⟨[], terminator⟩) := by
  intro block mem
  rcases List.mem_or_eq_of_mem_set mem with old | rfl
  · exact straight block old
  · exact straight_nil

mutual

theorem lowerStmt_straight (frames : ForFrames) : ∀ (stmt : Stmt) (next : Nat)
    (targets : Option (Nat × Nat)) {blocks : List TaskCfgBlock}, AllStraight blocks →
    AllStraight (lowerStmt frames stmt next targets blocks).2
  | .expr loc expr, next, targets, blocks, straight => by
    rw [lowerStmt]
    split
    · exact straight.push straight_nil _
    · exact straight.push (straight_singleton (by trivial)) _
  | .ret .., _, _, _, straight => straight.push straight_nil _
  | .ifElse _ _ thenBranch elseBranch, next, targets, _, straight =>
    (lowerList_straight frames elseBranch next targets
      (lowerList_straight frames thenBranch next targets straight)).push straight_nil _
  | .whileLoop _ _ body, _, _, _, straight =>
    (lowerList_straight frames body _ _ (straight.push straight_nil _)).set _ _
  | .forLoop _ var _ _ _ _ _ body, _, _, _, straight =>
    have increments : ∀ value, ∀ stmt ∈ [Stmt.assignVar var value], Straight stmt :=
      fun _ => straight_singleton (by trivial)
    have prepared := ((straight.push straight_nil .complete).push (increments _) _).push straight_nil _
    have looped := lowerList_straight frames body _ _ prepared
    (looped.set _ _).push
      (List.forall_mem_cons.mpr ⟨by trivial, List.forall_mem_cons.mpr ⟨by trivial, straight_singleton (by trivial)⟩⟩) _
  | .brk _, _, _, _, straight => straight.push straight_nil _
  | .cont _, _, _, _, straight => straight.push straight_nil _
  | .assign .., _, _, _, straight => straight.push (straight_singleton (by trivial)) _
  | .print .., _, _, _, straight => straight.push (straight_singleton (by trivial)) _

theorem lowerList_straight (frames : ForFrames) : ∀ (stmts : List Stmt) (next : Nat)
    (targets : Option (Nat × Nat)) {blocks : List TaskCfgBlock}, AllStraight blocks →
    AllStraight (lowerList frames stmts next targets blocks).2
  | [], _, _, _, straight => straight
  | stmt :: stmts, next, targets, _, straight =>
    lowerStmt_straight frames stmt _ targets (lowerList_straight frames stmts next targets straight)

end

theorem taskCfg_straight (frames : ForFrames) (body : List Stmt) : AllStraight (taskCfg frames body) :=
  lowerList_straight frames body 0 none (by simp [AllStraight])

/-! ### Live locals -/

theorem forall₂_getElem? {α β : Type} {related : α → β → Prop} {left : List α} {right : List β}
    (all : List.Forall₂ related left right) : ∀ position : Nat,
    left[position]? = none ∧ right[position]? = none
      ∨ ∃ first second, left[position]? = some first ∧ right[position]? = some second
        ∧ related first second := by
  induction all with
  | nil => exact fun _ => .inl ⟨rfl, rfl⟩
  | cons first _ ih =>
    intro position
    cases position with
    | zero => exact .inr ⟨_, _, rfl, rfl, first⟩
    | succ position => simpa using ih position

theorem taskFlow_at {node : Nat} {block : TaskCfgBlock} (there : blocks[node]? = some block) :
    node < (taskFlow blocks).size ∧ (taskFlow blocks).successors node = block.terminator.successors
      ∧ (taskFlow blocks).uses node = (blockUsesAndDefs block).1
      ∧ (taskFlow blocks).defs node = (blockUsesAndDefs block).2 :=
  ⟨(List.getElem?_eq_some_iff.mp there).1, by simp [taskFlow, there], by simp [taskFlow, there],
    by simp [taskFlow, there]⟩

/-- The names that are needed in the flow of an expanded graph. -/
theorem needed_taskFlow {binding : String} (storage : views.Storage binding)
    {blocks' : List TaskCfgBlock} (expands : List.Forall₂ views.Expands blocks blocks') {node : Nat}
    : (taskFlow blocks').Needed binding node
      ↔ Needed blocks (views.TouchedBy binding) (AssignedBy binding) node := by
  constructor
  · intro needed
    induction needed with
    | @here node inside used =>
      rcases forall₂_getElem? expands node with ⟨-, missing⟩ | ⟨block, block', there, there', same⟩
      · exact absurd inside (Nat.not_lt_of_le (List.getElem?_eq_none_iff.mp missing))
      · rw [(taskFlow_at there').2.2.1, same.used binding storage] at used
        exact .here there used
    | @later node successor inside free next _ ih =>
      rcases forall₂_getElem? expands node with ⟨-, missing⟩ | ⟨block, block', there, there', same⟩
      · exact absurd inside (Nat.not_lt_of_le (List.getElem?_eq_none_iff.mp missing))
      · rw [(taskFlow_at there').2.2.2, same.defined binding storage] at free
        rw [(taskFlow_at there').2.1, same.successors] at next
        exact .later there free next ih
  · intro needed
    induction needed with
    | @here node block there used =>
      rcases forall₂_getElem? expands node with ⟨missing, -⟩ | ⟨block₁, block', there₁, there', same⟩
      · rw [there] at missing
        cases missing
      · rw [there, Option.some.injEq] at there₁
        subst there₁
        obtain ⟨inside, -, uses, -⟩ := taskFlow_at there'
        exact .here inside (uses ▸ (same.used binding storage).mpr used)
    | @later node successor block there free next _ ih =>
      rcases forall₂_getElem? expands node with ⟨missing, -⟩ | ⟨block₁, block', there₁, there', same⟩
      · rw [there] at missing
        cases missing
      · rw [there, Option.some.injEq] at there₁
        subst there₁
        obtain ⟨inside, successors, -, defs⟩ := taskFlow_at there'
        refine .later inside ?_ ?_ ih
        · rw [defs, same.defined binding storage]
          exact free
        · rw [successors, same.successors]
          exact next

/-- **Live locals.**  They are the locals that are needed where the task is resumed. -/
theorem mem_taskLocalsLiveAcrossYield {binding : String} (storage : views.Storage binding)
    {taskLocals : Finset String} (body : List Stmt) :
    binding ∈ taskLocalsLiveAcrossYield body taskLocals views ↔ binding ∈ taskLocals
      ∧ NeededAfterPause (taskCfg (fun _ => none) body) (views.TouchedBy binding) (AssignedBy binding) := by
  have expands := views.expandBlocks_spec (taskCfg (fun _ => none) body) (taskCfg_straight _ body) 0
  rw [taskLocalsLiveAcrossYield, Finset.mem_filter, and_comm]
  refine and_congr_right fun _ => ?_
  generalize expandBlocks views (taskCfg (fun _ => none) body) 0 = blocks' at expands
  have gathered : ∀ targets : List Nat,
      binding ∈ targets.foldr (fun target names => (taskFlow blocks').liveIn.getD target ∅ ∪ names) ∅
        ↔ ∃ target ∈ targets, binding ∈ (taskFlow blocks').liveIn.getD target ∅ := by
    intro targets
    induction targets with
    | nil => simp
    | cons target targets ih =>
      simp only [List.foldr_cons, Finset.mem_union, ih, List.exists_mem_cons_iff]
  rw [gathered, NeededAfterPause]
  have needed : ∀ target, binding ∈ (taskFlow blocks').liveIn.getD target ∅
      ↔ Needed (taskCfg (fun _ => none) body) (views.TouchedBy binding) (AssignedBy binding) target :=
    fun target => (Flow.liveIn_solved (taskFlow blocks')).2.mem_iff.trans (needed_taskFlow storage expands)
  simp only [List.mem_filterMap, needed]
  constructor
  · rintro ⟨target, ⟨block', mem, resumes⟩, reached⟩
    obtain ⟨node, there'⟩ := List.mem_iff_getElem?.mp mem
    rcases forall₂_getElem? expands node with ⟨-, missing⟩ | ⟨block, block₁, there, there₁, same⟩
    · rw [there'] at missing
      cases missing
    · rw [there', Option.some.injEq] at there₁
      subst there₁
      exact ⟨block, List.mem_of_getElem? there, target, same.resumes ▸ resumes, reached⟩
  · rintro ⟨block, mem, target, resumes, reached⟩
    obtain ⟨node, there⟩ := List.mem_iff_getElem?.mp mem
    rcases forall₂_getElem? expands node with ⟨missing, -⟩ | ⟨block₁, block', there₁, there', same⟩
    · rw [there] at missing
      cases missing
    · rw [there, Option.some.injEq] at there₁
      subst there₁
      exact ⟨target, ⟨block', List.mem_of_getElem? there', same.resumes.trans resumes⟩, reached⟩

end Onda.TaskLocals
