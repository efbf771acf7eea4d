import Onda.TaskLocals.Liveness

/-!
# What expanded views use

A use of a view uses the storage that the recipe reads, through other views to any depth.
An expansion puts statements in front of a use that use just that, and define names that
belong to nothing else.
-/

namespace Onda.TaskLocals

open Frontend

/-- A recipe reads a binding. -/
def Recipe.Reads (binding : String) : Recipe → Prop
  | .selection expr => TaskLocals.Reads binding expr
  | .choice condition left right => root condition = binding ∨ left.Reads binding ∨ right.Reads binding

theorem Recipe.reads_iff {binding : String} (recipe : Recipe) :
    recipe.Reads binding ↔ binding ∈ recipe.uses.map root := by
  induction recipe with
  | selection expr => exact TaskLocals.reads_iff expr
  | choice condition left right leftReads rightReads =>
    rw [Recipe.Reads, Recipe.uses, leftReads, rightReads, List.map_cons, List.map_append,
      List.mem_cons, List.mem_append]
    exact or_congr_left eq_comm

namespace CapturedViews

variable (views : CapturedViews)

/-- The storage that is behind a binding. -/
inductive Reaches (binding : String) : String → Prop where
  | storage : views.recipes binding = none → Reaches binding binding
  | view {view used : String} {recipe : Recipe} : views.recipes view = some recipe →
      recipe.Reads used → Reaches binding used → Reaches binding view

/-- A binding with storage of its own, which no name of a use takes. -/
structure Storage (binding : String) : Prop where
  plain : '.' ∉ binding.toList
  recipe : views.recipes binding = none
  taken : ∀ view recipe, views.recipes view = some recipe → binding ∈ views.occupied

variable {views} {binding : String}

theorem Storage.reaches_iff (storage : views.Storage binding) {used : String}
    (direct : views.recipes used = none) : views.Reaches binding used ↔ used = binding := by
  constructor
  · intro reaches
    cases reaches with
    | storage => rfl
    | view found => rw [direct] at found; cases found
  · rintro rfl
    exact .storage storage.recipe

/-- Some bindings reach storage if a view among them does, or the storage is among them. -/
theorem Storage.reached_by (storage : views.Storage binding) (used : List String) :
    (∃ name ∈ used, views.Reaches binding name)
      ↔ binding ∈ used ∨ ∃ view ∈ used, views.recipes view ≠ none ∧ views.Reaches binding view := by
  constructor
  · rintro ⟨name, mem, reaches⟩
    by_cases direct : views.recipes name = none
    · exact .inl ((storage.reaches_iff direct).mp reaches ▸ mem)
    · exact .inr ⟨name, mem, direct, reaches⟩
  · rintro (mem | ⟨view, mem, -, reaches⟩)
    · exact ⟨binding, mem, .storage storage.recipe⟩
    · exact ⟨view, mem, reaches⟩

/-! ### Uses of lists -/

variable {body : List Stmt} {uses : List String}
  {expandUses : List String → List Stmt → Nat → Names × List Stmt × Nat}
  {out : Names × List Stmt × Nat}

theorem mem_withRoots : binding ∈ (withRoots uses).map root ↔ binding ∈ uses.map root := by
  rw [withRoots, List.map_append, List.mem_append, or_iff_left_of_imp]
  intro mem
  obtain ⟨_, inside, rfl⟩ := List.mem_map.mp mem
  obtain ⟨path, used, split⟩ := List.mem_filterMap.mp inside
  rw [splitOnce] at split
  split at split
  case isFalse => cases split
  case isTrue =>
    cases split
    rw [root_root]
    exact List.mem_map_of_mem used

theorem stmtsUses_append (first second : List Stmt) :
    stmtsUses (first ++ second) = stmtsUses first ++ stmtsUses second := by
  induction first with
  | nil => rfl
  | cons stmt first ih => rw [List.cons_append, stmtsUses, ih, stmtsUses, List.append_assoc]

theorem splitOnce_plain {path : String} (plain : '.' ∉ path.toList) : splitOnce path = none :=
  if_neg plain

/-! ### Expansion -/

variable (views) in
/-- What an expansion of uses in front of a body does. -/
structure Materialized (uses : List String) (body : List Stmt) (out : Names × List Stmt × Nat) :
    Prop where
  named : ∀ view new, out.1 view = some new →
    (∃ recipe, views.recipes view = some recipe) ∧ new ∉ views.occupied ∧ '.' ∉ new.toList
  total : ∀ view ∈ uses.map root, views.recipes view ≠ none → out.1 view ≠ none
  used : ∀ binding, views.Storage binding → (binding ∈ (stmtsUses out.2.1).map root
    ↔ binding ∈ (stmtsUses body).map root
      ∨ ∃ view ∈ uses.map root, views.recipes view ≠ none ∧ views.Reaches binding view)
  defined : ∀ binding, views.Storage binding →
    (binding ∈ out.2.1.flatMap stmtDefs ↔ binding ∈ body.flatMap stmtDefs)

theorem Materialized.plain (materialized : views.Materialized uses body out) : out.1.Plain where
  source view _ named :=
    have ⟨⟨recipe, found⟩, _, _⟩ := materialized.named view _ named
    views.key_plain view recipe found
  target view new named := (materialized.named view new named).2.2

/-- Names of uses leave storage as it is, and are no storage. -/
theorem Materialized.rename_iff (materialized : views.Materialized uses body out)
    (storage : views.Storage binding) (before : String) :
    out.1.rename before = binding ↔ before = binding := by
  have free : out.1 binding = none := by
    cases named : out.1 binding with
    | none => rfl
    | some new =>
      obtain ⟨⟨recipe, found⟩, -⟩ := materialized.named binding new named
      rw [storage.recipe] at found
      cases found
  rw [Names.rename]
  cases named : out.1 before with
  | none => rfl
  | some new =>
    obtain ⟨⟨recipe, found⟩, unoccupied, -⟩ := materialized.named before new named
    constructor
    · rintro rfl
      exact absurd (storage.taken before recipe found) unoccupied
    · rintro rfl
      rw [free] at named
      cases named

theorem Materialized.reads_iff (materialized : views.Materialized uses body out)
    (storage : views.Storage binding) (expr : Expr) :
    binding ∈ (exprUses (rewriteExpr out.1 expr)).map root ↔ binding ∈ (exprUses expr).map root := by
  rw [← TaskLocals.reads_iff, ← TaskLocals.reads_iff, reads_rewriteExpr materialized.plain]
  constructor
  · rintro ⟨before, reads, same⟩
    exact (materialized.rename_iff storage before).mp same ▸ reads
  · exact fun reads => ⟨binding, reads, (materialized.rename_iff storage binding).mpr rfl⟩

/-- **A recipe.**  The statements that form a view use the storage behind it. -/
theorem materialize_spec (storage : views.Storage binding) {name : String}
    (plain : '.' ∉ name.toList) (apart : binding ≠ name) (recipe : Recipe)
    (conditions : ∀ condition ∈ recipe.conditions,
      '.' ∉ condition.toList ∧ views.recipes condition = none)
    (expands : ∀ uses, uses ⊆ recipe.uses → ∀ body next,
      views.Materialized uses body (expandUses uses body next)) :
    ∀ body next,
      (binding ∈ (stmtsUses (recipe.materialize expandUses name body next).1).map root
        ↔ binding ∈ (stmtsUses body).map root ∨ ∃ used, recipe.Reads used ∧ views.Reaches binding used)
      ∧ (binding ∈ (recipe.materialize expandUses name body next).1.flatMap stmtDefs
        ↔ binding ∈ body.flatMap stmtDefs) := by
  have reached : ∀ recipe : Recipe, (∃ used, recipe.Reads used ∧ views.Reaches binding used)
      ↔ ∃ used ∈ recipe.uses.map root, views.Reaches binding used := by
    intro recipe
    exact exists_congr fun used => and_congr_left fun _ => recipe.reads_iff
  induction recipe with
  | selection expr =>
    intro body next
    have materialized := expands (exprUses expr) (fun _ mem => mem) body next
    rw [Recipe.materialize]
    constructor
    · rw [reached, Recipe.uses, storage.reached_by]
      simp only [stmtsUses_append, stmtsUses, Stmt.assignVar, stmtUses, storeUses,
        splitOnce_plain plain, AssignTarget.selectors, Option.toList_none, List.append_nil,
        List.flatMap_nil, List.map_append, List.mem_append, materialized.used binding storage,
        materialized.reads_iff storage]
      rw [or_assoc, or_comm (a := ∃ view ∈ _, _)]
    · rw [List.flatMap_append, List.mem_append, materialized.defined binding storage,
        or_iff_left]
      simp [Stmt.assignVar, stmtDefs, targetDefs, splitOnce_plain plain, apart]
  | choice condition left right leftSpec rightSpec =>
    intro body next
    rw [Recipe.conditions, List.forall_mem_cons, List.forall_mem_append] at conditions
    obtain ⟨⟨conditionPlain, direct⟩, leftConditions, rightConditions⟩ := conditions
    have fromLeft := leftSpec leftConditions (fun uses inside =>
      expands uses fun used mem => List.mem_cons_of_mem _ (List.mem_append_left _ (inside mem))) [] next
    have fromRight := rightSpec rightConditions (fun uses inside =>
      expands uses fun used mem => List.mem_cons_of_mem _ (List.mem_append_right _ (inside mem))) []
        (left.materialize expandUses name [] next).2
    rw [Recipe.materialize]
    constructor
    · simp only [stmtsUses_append, stmtsUses, stmtUses, Expr.ofVar, exprUses, List.append_nil,
        List.map_append, List.mem_append, mem_withRoots, fromLeft.1, fromRight.1, List.map_nil,
        List.not_mem_nil, false_or, List.map_cons, List.mem_singleton, Recipe.Reads,
        root_eq_self conditionPlain]
      constructor
      · rintro (old | (rfl | ⟨used, reads, reaches⟩) | ⟨used, reads, reaches⟩)
        · exact .inl old
        · exact .inr ⟨_, .inl rfl, .storage direct⟩
        · exact .inr ⟨used, .inr (.inl reads), reaches⟩
        · exact .inr ⟨used, .inr (.inr reads), reaches⟩
      · rintro (old | ⟨used, rfl | reads | reads, reaches⟩)
        · exact .inl old
        · exact .inr (.inl (.inl ((storage.reaches_iff direct).mp reaches).symm))
        · exact .inr (.inl (.inr ⟨used, reads, reaches⟩))
        · exact .inr (.inr ⟨used, reads, reaches⟩)
    · rw [List.flatMap_append, List.mem_append, or_iff_left]
      simp [stmtDefs]

theorem fresh_spec (views : CapturedViews) (next : Nat) :
    (views.fresh next).1 ∉ views.occupied ∧ '.' ∉ (views.fresh next).1.toList := by
  refine ⟨(Nat.find_spec (views.exists_free next)).2, ?_⟩
  rw [fresh, useName, String.toList_append, String.toList_append, List.mem_append, List.mem_append]
  rintro ((inStem | inMiddle) | inDigits)
  · exact views.stem_plain inStem
  · revert inMiddle
    decide
  · have digit : Char.isDigit '.' = true := by
      refine Nat.isDigit_of_mem_toDigits (b := 10) (by decide) (by decide)
        (n := Nat.find (views.exists_free next)) ?_
      simpa using inDigits
    exact absurd digit (by decide)

theorem Storage.reaches_view (storage : views.Storage binding) {view : String} {recipe : Recipe}
    (found : views.recipes view = some recipe) :
    views.Reaches binding view ↔ ∃ used, recipe.Reads used ∧ views.Reaches binding used := by
  constructor
  · intro reaches
    cases reaches with
    | storage => rw [storage.recipe] at found; cases found
    | view found' reads reaches =>
      rw [found] at found'
      cases found'
      exact ⟨_, reads, reaches⟩
  · rintro ⟨used, reads, reaches⟩
    exact .view found reads reaches

/-- One view more. -/
theorem materializeRoot_spec (materialized : views.Materialized uses body out) {view : String}
    (plain : root view = view)
    (expands : ∀ recipe, views.recipes view = some recipe → ∀ inner, inner ⊆ recipe.uses →
      ∀ body next, views.Materialized inner body (expandUses inner body next)) :
    views.Materialized (uses ++ [view]) body (views.materializeRoot expandUses out view) := by
  obtain ⟨names, before, next⟩ := out
  rw [materializeRoot]
  cases found : views.recipes view with
  | none =>
    refine ⟨materialized.named, fun other mem some_recipe => ?_, fun binding storage => ?_,
      materialized.defined⟩
    · rw [List.map_append, List.mem_append, List.map_singleton, List.mem_singleton, plain] at mem
      rcases mem with mem | rfl
      · exact materialized.total other mem some_recipe
      · exact absurd found some_recipe
    · rw [materialized.used binding storage]
      refine or_congr_right ⟨fun ⟨other, mem, rest⟩ => ⟨other, ?_, rest⟩, ?_⟩
      · rw [List.map_append]
        exact List.mem_append_left _ mem
      · rintro ⟨other, mem, some_recipe, reaches⟩
        rw [List.map_append, List.mem_append, List.map_singleton, List.mem_singleton, plain] at mem
        rcases mem with mem | rfl
        · exact ⟨other, mem, some_recipe, reaches⟩
        · exact absurd found some_recipe
  | some recipe =>
    obtain ⟨unoccupied, freshPlain⟩ := fresh_spec views next
    have formed : ∀ binding, views.Storage binding → _ := fun binding storage =>
      materialize_spec storage freshPlain
        (fun same => unoccupied (same ▸ storage.taken view recipe found)) recipe
        (views.condition_plain view recipe found) (expands recipe found) before (views.fresh next).2
    refine ⟨fun other new named => ?_, fun other mem some_recipe => ?_, fun binding storage => ?_,
      fun binding storage => ?_⟩
    · dsimp only at named
      rw [Function.update_apply] at named
      split at named
      case isTrue same =>
        cases named
        exact ⟨⟨recipe, same ▸ found⟩, unoccupied, freshPlain⟩
      case isFalse => exact materialized.named other new named
    · dsimp only
      rw [Function.update_apply]
      split
      case isTrue => exact nofun
      case isFalse differs =>
        rw [List.map_append, List.mem_append, List.map_singleton, List.mem_singleton, plain] at mem
        exact materialized.total other (mem.resolve_right differs) some_recipe
    · refine (formed binding storage).1.trans ?_
      rw [materialized.used binding storage, ← storage.reaches_view found, or_assoc]
      refine or_congr_right ⟨?_, ?_⟩
      · rintro (⟨other, mem, rest⟩ | reaches)
        · exact ⟨other, by rw [List.map_append]; exact List.mem_append_left _ mem, rest⟩
        · exact ⟨view, by simp [plain], by simp [found], reaches⟩
      · rintro ⟨other, mem, some_recipe, reaches⟩
        rw [List.map_append, List.mem_append, List.map_singleton, List.mem_singleton, plain] at mem
        rcases mem with mem | rfl
        · exact .inl ⟨other, mem, some_recipe, reaches⟩
        · exact .inr reaches
    · exact (formed binding storage).2.trans (materialized.defined binding storage)

/-- The views of a list, one after another. -/
theorem materializeRoots_spec (expanded : List String) (plain : ∀ view ∈ expanded, root view = view)
    (expands : ∀ view ∈ expanded, ∀ recipe, views.recipes view = some recipe →
      ∀ inner, inner ⊆ recipe.uses → ∀ body next,
        views.Materialized inner body (expandUses inner body next)) :
    ∀ {uses : List String} {out : Names × List Stmt × Nat}, views.Materialized uses body out →
      views.Materialized (uses ++ expanded) body
        (expanded.foldl (views.materializeRoot expandUses) out) := by
  induction expanded with
  | nil =>
    intro uses out materialized
    rwa [List.append_nil]
  | cons view expanded ih =>
    intro uses out materialized
    rw [List.forall_mem_cons] at plain expands
    rw [List.foldl_cons, List.append_cons]
    exact ih plain.2 expands.2 (materializeRoot_spec materialized plain.1 expands.1)

theorem mem_roots : binding ∈ roots uses ↔ binding ∈ uses.map root := by
  rw [roots, List.mem_insertionSort, List.mem_dedup]

theorem roots_plain : ∀ view ∈ roots uses, root view = view := by
  intro view mem
  obtain ⟨path, -, rfl⟩ := List.mem_map.mp (mem_roots.mp mem)
  exact root_root path

theorem Materialized.of_same_roots {first second : List String}
    (materialized : views.Materialized first body out)
    (same : ∀ view, view ∈ first.map root ↔ view ∈ second.map root) :
    views.Materialized second body out where
  named := materialized.named
  total view mem := materialized.total view ((same view).mpr mem)
  used binding storage := by
    rw [materialized.used binding storage]
    exact or_congr_right (exists_congr fun view => and_congr_left fun _ => same view)
  defined := materialized.defined

theorem materializeUses_spec (depth : Nat) : ∀ uses : List String,
    (∀ used ∈ uses, views.recipes (root used) ≠ none → views.rank (root used) < depth) →
    ∀ body next, views.Materialized uses body (views.materializeUses depth uses body next) := by
  have nothing : ∀ (body : List Stmt) (next : Nat),
      views.Materialized [] body (fun _ => none, body, next) := by
    intro body next
    exact ⟨nofun, nofun, by simp, by simp⟩
  induction depth with
  | zero =>
    intro uses shallow body next
    have absent : ∀ view ∈ uses.map root, views.recipes view = none := by
      intro view mem
      obtain ⟨used, inside, rfl⟩ := List.mem_map.mp mem
      by_contra some_recipe
      exact Nat.not_lt_zero _ (shallow used inside some_recipe)
    refine ⟨nofun, fun view mem some_recipe => absurd (absent view mem) some_recipe,
      fun binding _ => ?_, fun _ _ => Iff.rfl⟩
    refine (or_iff_left ?_).symm
    rintro ⟨view, mem, some_recipe, -⟩
    exact some_recipe (absent view mem)
  | succ depth ih =>
    intro uses shallow body next
    have expanded : views.Materialized ([] ++ roots uses) body
        ((roots uses).foldl (views.materializeRoot (views.materializeUses depth))
          (fun _ => none, body, next)) :=
      materializeRoots_spec (roots uses) roots_plain
        (fun view mem recipe found inner inside body next => ?_) (nothing body next)
    · refine expanded.of_same_roots fun view => ?_
      rw [List.nil_append, List.map_congr_left roots_plain, List.map_id', mem_roots]
    · refine ih inner (fun used mem' _ => ?_) body next
      obtain ⟨path, inUses, rfl⟩ := List.mem_map.mp (mem_roots.mp mem)
      have below := shallow path inUses (by simp [found])
      have lower := views.descends _ recipe found used (inside mem')
      omega

/-- **Expansion.**  The ranks bound the recursion, so every view that is used is formed. -/
theorem expandUses_spec (uses : List String) (body : List Stmt) (next : Nat) :
    views.Materialized uses body (views.expandUses uses body next) := by
  refine materializeUses_spec _ uses (fun used _ some_recipe => ?_) body next
  obtain ⟨recipe, found⟩ := Option.ne_none_iff_exists'.mp some_recipe
  exact Nat.lt_succ_of_le (views.rank_le _ recipe found)

/-! ### Statements -/

end CapturedViews

/-- A statement reads a binding, itself. -/
def StmtReads (binding : String) : Stmt → Prop
  | .assign _ _ target _ expr => Reads binding expr ∨ ∃ selector ∈ target.selectors, Reads binding selector
  | .expr _ expr | .ret _ expr => Reads binding expr
  | .print _ _ values _ => ∃ value ∈ values, Reads binding value
  | .ifElse _ cond _ _ | .whileLoop _ cond _ => Reads binding cond
  | .forLoop _ _ _ step start stop _ _ =>
    Reads binding start ∨ Reads binding stop ∨ ∃ value ∈ step, Reads binding value
  | .brk _ | .cont _ => False

/-- The path that a statement assigns to. -/
def storePath : Stmt → Option String
  | .assign _ _ (.var path) _ _ | .assign _ _ (.index path _) _ _
  | .assign _ _ (.indexedMember path _ _ _) _ _ | .assign _ _ (.slice path _ _ _ _) _ _ => some path
  | _ => none

/-- A statement assigns all of a binding. -/
def Assigns (binding : String) : Stmt → Prop
  | .assign _ _ (.var name) _ _ => name = binding
  | .assign _ _ (.tuple targets) _ _ => .binding binding ∈ targets
  | _ => False

/-- A statement without control flow. -/
def Straight : Stmt → Prop
  | .assign .. | .expr .. | .print .. => True
  | .ret .. | .ifElse .. | .forLoop .. | .whileLoop .. | .brk _ | .cont _ => False

namespace CapturedViews

/-- A statement reads storage, or assigns a part of it. -/
def Touches (views : CapturedViews) (binding : String) (stmt : Stmt) : Prop :=
  (∃ used, StmtReads used stmt ∧ views.Reaches binding used)
    ∨ ∃ path, storePath stmt = some path ∧ views.Reaches binding (root path) ∧ ¬Assigns binding stmt

variable {views : CapturedViews} {binding : String}

theorem mem_flatMap_uses {exprs : List Expr} :
    binding ∈ (exprs.flatMap exprUses).map root ↔ ∃ expr ∈ exprs, Reads binding expr := by
  simp only [List.map_flatMap, List.mem_flatMap, TaskLocals.reads_iff]

theorem selectors_rewriteTarget (names : Names) (target : AssignTarget) :
    (rewriteTarget names target).selectors = target.selectors.map (rewriteExpr names) := by
  cases target with
  | var | index | tuple => rfl
  | indexedMember base position member memberIndex => cases memberIndex <;> rfl
  | slice base selector channel start stop =>
    cases selector <;> cases channel <;> cases start <;> cases stop <;> rfl

variable {target : AssignTarget} {body : List Stmt} {uses : List String}
  {out : Names × List Stmt × Nat}

theorem mem_storeUses (storage : views.Storage binding) :
    binding ∈ (storeUses target).map root
      ↔ ∃ path ∈ targetUses target, root path = binding ∧ target ≠ .var binding := by
  cases target with
  | var name =>
    by_cases dotted : '.' ∈ name.toList
    · have differs : name ≠ binding := fun same => storage.plain (same ▸ dotted)
      simp only [storeUses, targetUses, splitOnce, dotted, if_true, Option.toList_some,
        List.map_singleton, List.mem_singleton, root_root, exists_eq_left]
      exact ⟨fun same => ⟨same.symm, fun whole => differs (AssignTarget.var.inj whole)⟩,
        fun both => both.1.symm⟩
    · simp [storeUses, targetUses, splitOnce, dotted, root_eq_self dotted]
  | index | indexedMember | slice => simp [storeUses, targetUses, eq_comm]
  | tuple => simp [storeUses, targetUses]

theorem mem_targetDefs (storage : views.Storage binding) :
    binding ∈ targetDefs target ↔ target = .var binding
      ∨ ∃ targets, target = .tuple targets ∧ .binding binding ∈ targets := by
  cases target with
  | var name =>
    by_cases dotted : '.' ∈ name.toList
    · have differs : name ≠ binding := fun same => storage.plain (same ▸ dotted)
      simp [targetDefs, splitOnce, dotted, differs]
    · simp [targetDefs, splitOnce, dotted, eq_comm]
  | index | indexedMember | slice => simp [targetDefs]
  | tuple targets =>
    simp only [targetDefs, List.mem_filterMap, AssignTarget.tuple.injEq, reduceCtorEq, false_or]
    constructor
    · rintro ⟨target, mem, named⟩
      cases target with
      | binding name =>
        cases named
        exact ⟨targets, rfl, mem⟩
      | discard => cases named
    · rintro ⟨_, rfl, mem⟩
      exact ⟨_, mem, rfl⟩

/-- Storage keeps its name in a renamed path. -/
theorem Materialized.rewritePath_iff (materialized : views.Materialized uses body out)
    (storage : views.Storage binding) (path : String) :
    rewritePath out.1 path = binding ↔ path = binding := by
  have renamed : rewritePath out.1 binding = binding := by
    rw [rewritePath_eq materialized.plain, root_eq_self storage.plain,
      (materialized.rename_iff storage binding).mpr rfl]
    conv_rhs => rw [← root_append_members binding, root_eq_self storage.plain]
  constructor
  · intro same
    have undotted : '.' ∉ path.toList := by
      rw [← dot_mem_rewritePath materialized.plain, same]
      exact storage.plain
    have base := congrArg root same
    rw [root_rewritePath materialized.plain, root_eq_self storage.plain,
      materialized.rename_iff storage, root_eq_self undotted] at base
    exact base
  · rintro rfl
    exact renamed

theorem rewriteTarget_uses (materialized : views.Materialized uses body out)
    (storage : views.Storage binding) (target : AssignTarget) :
    (binding ∈ (storeUses (rewriteTarget out.1 target)).map root ↔ binding ∈ (storeUses target).map root)
      ∧ (binding ∈ targetDefs (rewriteTarget out.1 target) ↔ binding ∈ targetDefs target) := by
  rw [mem_storeUses storage, mem_storeUses storage, mem_targetDefs storage, mem_targetDefs storage]
  cases target with
  | var name =>
    simp [rewriteTarget, targetUses, root_rewritePath materialized.plain,
      materialized.rename_iff storage, materialized.rewritePath_iff storage]
  | index | indexedMember | slice =>
    simp [rewriteTarget, targetUses, root_rewritePath materialized.plain,
      materialized.rename_iff storage]
  | tuple targets =>
    refine ⟨by simp [rewriteTarget, targetUses], ?_⟩
    simp only [rewriteTarget, reduceCtorEq, false_or, AssignTarget.tuple.injEq, exists_eq_left',
      List.mem_map]
    constructor
    · rintro ⟨target, mem, same⟩
      cases target with
      | discard => cases same
      | binding name =>
        rw [TupleAssignTarget.binding.injEq] at same
        exact (materialized.rename_iff storage name).mp same ▸ mem
    · intro mem
      exact ⟨_, mem, congrArg _ ((materialized.rename_iff storage binding).mpr rfl)⟩

/-- A straight statement uses the same storage under the names of views. -/
theorem rewriteStmt_uses (materialized : views.Materialized uses body out)
    (storage : views.Storage binding) {stmt : Stmt} (straight : Straight stmt)
    (taskLocals : String → Bool) :
    (binding ∈ (stmtUses (rewriteStmt out.1 taskLocals stmt)).map root
        ↔ binding ∈ (stmtUses stmt).map root)
      ∧ (binding ∈ stmtDefs (rewriteStmt out.1 taskLocals stmt) ↔ binding ∈ stmtDefs stmt) := by
  have lists : ∀ exprs : List Expr,
      binding ∈ ((exprs.map (rewriteExpr out.1)).flatMap exprUses).map root
        ↔ binding ∈ (exprs.flatMap exprUses).map root := by
    intro exprs
    induction exprs with
    | nil => rfl
    | cons expr exprs ih =>
      rw [List.map_cons, List.flatMap_cons, List.flatMap_cons, List.map_append, List.map_append,
        List.mem_append, List.mem_append, ih, materialized.reads_iff storage]
  cases stmt with
  | assign loc targetLoc target declares expr =>
    have targets := rewriteTarget_uses materialized storage target
    refine ⟨?_, targets.2⟩
    simp only [rewriteStmt, stmtUses, List.map_append, List.mem_append, selectors_rewriteTarget,
      lists, targets.1, materialized.reads_iff storage]
  | expr => exact ⟨materialized.reads_iff storage _, Iff.rfl⟩
  | print loc label values origin =>
    refine ⟨?_, Iff.rfl⟩
    rw [rewriteStmt, stmtUses, stmtUses, rewriteExprs_eq, lists]
  | ret | ifElse | forLoop | whileLoop | brk | cont => exact straight.elim

/-- What an assignment touches by its target. -/
theorem touches_target (storage : views.Storage binding) (loc targetLoc : Span)
    (target : AssignTarget) (declares : Declaration) (expr : Expr) :
    (∃ path, storePath (.assign loc targetLoc target declares expr) = some path
        ∧ views.Reaches binding (root path)
        ∧ ¬Assigns binding (.assign loc targetLoc target declares expr))
      ↔ binding ∈ (storeUses target).map root
        ∨ ∃ view ∈ (targetUses target).map root, views.recipes view ≠ none ∧ views.Reaches binding view := by
  have path_iff : ∀ path, storePath (.assign loc targetLoc target declares expr) = some path
      ↔ path ∈ targetUses target := by
    intro path
    cases target <;> simp [storePath, targetUses, eq_comm]
  have assigns_iff : ∀ path ∈ targetUses target,
      Assigns binding (.assign loc targetLoc target declares expr) ↔ target = .var binding := by
    intro path mem
    cases target <;> simp [Assigns, targetUses] at mem ⊢
  simp only [path_iff]
  rw [mem_storeUses storage]
  constructor
  · rintro ⟨path, mem, reaches, partly⟩
    rw [assigns_iff path mem] at partly
    by_cases direct : views.recipes (root path) = none
    · exact .inl ⟨path, mem, (storage.reaches_iff direct).mp reaches, partly⟩
    · exact .inr ⟨root path, List.mem_map_of_mem mem, direct, reaches⟩
  · rintro (⟨path, mem, rfl, partly⟩ | ⟨view, mem, some_recipe, reaches⟩)
    · exact ⟨path, mem, .storage storage.recipe, fun assigns => partly ((assigns_iff path mem).mp assigns)⟩
    · obtain ⟨path, inside, rfl⟩ := List.mem_map.mp mem
      refine ⟨path, inside, reaches, fun assigns => ?_⟩
      -- A target that is all of the storage is no view.
      rw [assigns_iff path inside] at assigns
      subst assigns
      obtain rfl := List.mem_singleton.mp inside
      rw [root_eq_self storage.plain] at some_recipe
      exact some_recipe storage.recipe

/-- **A statement.**  Behind the views that it uses, a straight statement touches and defines
the storage that it did. -/
theorem expandStmt_spec (storage : views.Storage binding) {stmt : Stmt} (straight : Straight stmt)
    (result : List Stmt) (next : Nat) :
    (binding ∈ (stmtsUses (views.expandStmt stmt result next).1).map root
        ↔ binding ∈ (stmtsUses result).map root ∨ views.Touches binding stmt)
      ∧ (binding ∈ (views.expandStmt stmt result next).1.flatMap stmtDefs
        ↔ binding ∈ result.flatMap stmtDefs ∨ binding ∈ stmtDefs stmt) := by
  -- What a statement uses directly, and through the views of `uses`.
  have behind : ∀ uses : List String,
      (binding ∈ (stmtsUses (views.expandUsing uses stmt result next).1).map root
          ↔ binding ∈ (stmtsUses result).map root ∨ binding ∈ (stmtUses stmt).map root
            ∨ ∃ view ∈ uses.map root, views.recipes view ≠ none ∧ views.Reaches binding view)
        ∧ (binding ∈ (views.expandUsing uses stmt result next).1.flatMap stmtDefs
          ↔ binding ∈ result.flatMap stmtDefs ∨ binding ∈ stmtDefs stmt) := by
    intro uses
    have materialized : views.Materialized uses result _ := expandUses_spec uses result next
    have renamed := rewriteStmt_uses materialized storage straight fun _ => false
    rw [expandUsing]
    constructor
    · simp only [stmtsUses_append, stmtsUses, List.append_nil, List.map_append, List.mem_append,
        materialized.used binding storage, renamed.1]
      rw [or_assoc, or_comm (a := ∃ view ∈ _, _)]
    · simp only [List.flatMap_append, List.mem_append, List.flatMap_cons, List.flatMap_nil,
        List.append_nil, materialized.defined binding storage, renamed.2]
  have reading : ∀ exprs : List Expr,
      (∃ used, (∃ expr ∈ exprs, Reads used expr) ∧ views.Reaches binding used)
        ↔ binding ∈ (exprs.flatMap exprUses).map root
          ∨ ∃ view ∈ (exprs.flatMap exprUses).map root,
            views.recipes view ≠ none ∧ views.Reaches binding view := by
    intro exprs
    rw [← storage.reached_by]
    exact exists_congr fun used => and_congr_left fun _ => mem_flatMap_uses.symm
  cases stmt with
  | assign loc targetLoc target declares expr =>
    refine ⟨(behind _).1.trans (or_congr_right ?_), (behind _).2⟩
    have reads := reading (expr :: target.selectors)
    simp only [List.exists_mem_cons_iff, List.flatMap_cons] at reads
    rw [Touches, touches_target storage]
    simp only [StmtReads, reads, stmtUses, List.map_append, List.mem_append]
    grind
  | expr loc expr =>
    refine ⟨(behind _).1.trans (or_congr_right ?_), (behind _).2⟩
    have reads := reading [expr]
    simp only [List.mem_singleton, exists_eq_left, List.flatMap_singleton] at reads
    simp only [Touches, StmtReads, storePath, reads, stmtUses]
    simp
  | print loc label values origin =>
    refine ⟨(behind _).1.trans (or_congr_right ?_), (behind _).2⟩
    simp only [Touches, StmtReads, storePath, reading values, stmtUses]
    simp
  | ret | ifElse | forLoop | whileLoop | brk | cont => exact straight.elim

end CapturedViews

end Onda.TaskLocals
