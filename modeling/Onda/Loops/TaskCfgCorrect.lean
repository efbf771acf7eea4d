import Mathlib.Data.List.Infix
import Onda.Loops.TaskCfg

/-!
# The task lowering is right

From the block where a statement begins, control arrives where the statement ends, with
the same data.  A source run that spends its budget is a path of the graph that is at
least as long, so the graph runs forever exactly where the source does.
-/

namespace Onda.Loops

open Structured

variable {S C E Y D F : Type}

/-! ### Paths -/

/-- Control passes through so many blocks. -/
inductive Path (lang : Lang S C E Y D F) (blocks : List (TaskCfgBlock S C E Y)) :
    Nat → Nat × Frame × D → Nat × Frame × D → Prop
  | refl (config : Nat × Frame × D) : Path lang blocks 0 config config
  | step {id target count : Nat} {state next : Frame × D} {last : Nat × Frame × D}
      {block : TaskCfgBlock S C E Y} (found : blocks[id]? = some block)
      (runs : block.run lang state = (next, .to target))
      (rest : Path lang blocks count (target, next) last) :
      Path lang blocks (count + 1) (id, state) last

variable {lang : Lang S C E Y D F} {blocks : List (TaskCfgBlock S C E Y)}

theorem Path.trans {first second : Nat} {config middle last : Nat × Frame × D}
    (path : Path lang blocks first config middle) (path' : Path lang blocks second middle last) :
    Path lang blocks (second + first) config last := by
  induction path with
  | refl => exact path'
  | step found runs _ ih => exact .step found runs (ih path')

variable {base frame : Frame} {built : List (TaskCfgBlock S C E Y)} {scope : List String}
  {block : TaskCfgBlock S C E Y}

theorem Path.one {id target : Nat} {state next : Frame × D} (found : blocks[id]? = some block)
    (runs : block.run lang state = (next, .to target)) :
    Path lang blocks 1 (id, state) (target, next) :=
  .step found runs (.refl _)

/-- The variables of the enclosing loops are the same. -/
def Keeps (scope : List String) (base frame : Frame) : Prop :=
  ∀ name ∈ scope, frame (.var name) = base (.var name) ∧ frame (.stop name) = base (.stop name)
    ∧ frame (.step name) = base (.step name)

theorem Keeps.refl (scope : List String) (frame : Frame) : Keeps scope frame frame :=
  fun _ _ => ⟨rfl, rfl, rfl⟩

theorem Keeps.trans {middle : Frame} (first : Keeps scope base middle)
    (second : Keeps scope middle frame) : Keeps scope base frame := by
  intro name mem
  obtain ⟨var, stop, step⟩ := first name mem
  obtain ⟨var', stop', step'⟩ := second name mem
  exact ⟨var'.trans var, stop'.trans stop, step'.trans step⟩

theorem Keeps.tail {var : String} (keeps : Keeps (var :: scope) base frame)
    : Keeps scope base frame :=
  fun name mem => keeps name (List.mem_cons_of_mem _ mem)

theorem Keeps.vars (keeps : Keeps scope base frame) :
    frame.vars scope = base.vars scope :=
  List.map_congr_left fun name mem => (keeps name mem).1

theorem Keeps.update {var : String} {field : Field} (value : Int) (fresh : var ∉ scope)
    (own : field = .var var ∨ field = .stop var ∨ field = .step var) :
    Keeps scope frame (Function.update frame field value) := by
  intro name mem
  have other : name ≠ var := fun same => fresh (same ▸ mem)
  rcases own with rfl | rfl | rfl
  all_goals
    refine ⟨?_, ?_, ?_⟩
    all_goals exact Function.update_of_ne (by simp [other]) _ _

/-- Control arrives where a source run ends: at the next block, at a target of the loop, at
the end of the task, at a failure, or after `budget` blocks somewhere. -/
inductive Arrives (lang : Lang S C E Y D F) (blocks : List (TaskCfgBlock S C E Y)) (budget : Nat)
    (scope : List String) (base : Frame) (next exit again : Nat) (config : Nat × Frame × D) :
    D × Outcome Unit (Halt F) → Prop
  | fall {count : Nat} {frame : Frame} {data : D}
      (path : Path lang blocks count config (next, frame, data)) (keeps : Keeps scope base frame) :
      Arrives lang blocks budget scope base next exit again config (data, .fall)
  | brk {count : Nat} {frame : Frame} {data : D}
      (path : Path lang blocks count config (exit, frame, data))
      (keeps : Keeps scope base frame) :
      Arrives lang blocks budget scope base next exit again config (data, .brk)
  | cont {count : Nat} {frame : Frame} {data : D}
      (path : Path lang blocks count config (again, frame, data))
      (keeps : Keeps scope base frame) :
      Arrives lang blocks budget scope base next exit again config (data, .cont)
  | ret {count id : Nat} {state : Frame × D} {frame : Frame} {data : D}
      {block : TaskCfgBlock S C E Y} (path : Path lang blocks count config (id, state))
      (found : blocks[id]? = some block)
      (completes : block.run lang state = ((frame, data), .completes)) :
      Arrives lang blocks budget scope base next exit again config (data, .ret ())
  | failed {count id : Nat} {state : Frame × D} {frame : Frame} {data : D} {failure : F}
      {block : TaskCfgBlock S C E Y} (path : Path lang blocks count config (id, state))
      (found : blocks[id]? = some block)
      (fails : block.run lang state = ((frame, data), .fails failure)) :
      Arrives lang blocks budget scope base next exit again config (data, .stop (.failed failure))
  | spent {count id : Nat} {frame : Frame} {data : D}
      (path : Path lang blocks count config (id, frame, data)) (long : budget ≤ count) :
      Arrives lang blocks budget scope base next exit again config (data, .stop .spent)

section Arriving

variable {budget : Nat} {scope : List String} {base : Frame} {next exit again : Nat}
  {config : Nat × Frame × D} {spec : D × Outcome Unit (Halt F)}

/-- What is passed before counts. -/
theorem Arrives.after {count more : Nat} {middle : Nat × Frame × D} {start : Frame}
    (arrives : Arrives lang blocks budget scope start next exit again middle spec)
    (path : Path lang blocks count config middle) (keeps : Keeps scope base start)
    (enough : more ≤ budget + count) :
    Arrives lang blocks more scope base next exit again config spec := by
  cases arrives with
  | fall path' kept => exact .fall (path.trans path') (keeps.trans kept)
  | brk path' kept => exact .brk (path.trans path') (keeps.trans kept)
  | cont path' kept => exact .cont (path.trans path') (keeps.trans kept)
  | ret path' found completes => exact .ret (path.trans path') found completes
  | failed path' found fails => exact .failed (path.trans path') found fails
  | spent path' long => exact .spent (path.trans path') (by omega)

end Arriving

/-! ### Blocks -/

/-- The blocks from one number on are in the graph. -/
def Contains (blocks : List (TaskCfgBlock S C E Y)) (first : Nat) (built : List (TaskCfgBlock S C E Y)) :
    Prop :=
  ∀ id, first ≤ id → id < built.length → blocks[id]? = built[id]?

theorem Contains.mono {first later : Nat} {fewer : List (TaskCfgBlock S C E Y)}
    (contains : Contains blocks first built) (le : first ≤ later) (part : fewer <+: built) :
    Contains blocks later fewer := by
  intro id above below
  obtain ⟨rest, rfl⟩ := part
  rw [contains id (by omega) (by rw [List.length_append]; omega), List.getElem?_append_left below]

theorem prefix_set {blocks : List (TaskCfgBlock S C E Y)} {id : Nat} (part : blocks <+: built)
    (above : blocks.length ≤ id) : blocks <+: built.set id block := by
  obtain ⟨rest, rfl⟩ := part
  rw [List.set_append_right _ _ above]
  exact List.prefix_append _ _

mutual

/-- Lowering adds blocks. -/
theorem Stmt.lowerCfg_extends : ∀ (statement : Stmt S C E Y) (scope : List String) (next : Nat)
    (targets : Option (Nat × Nat)) (blocks : List (TaskCfgBlock S C E Y)),
    blocks <+: (statement.lowerCfg scope next targets blocks).2
  | .yield _, _, _, _, _ => List.prefix_append _ _
  | .ret, _, _, _, _ => List.prefix_append _ _
  | .ifElse _ thenBranch elseBranch, scope, next, targets, blocks =>
    ((lowerList_extends thenBranch scope next targets blocks).trans
      (lowerList_extends elseBranch scope next targets _)).trans (List.prefix_append _ _)
  | .whileLoop _ body, scope, _, _, _ =>
    prefix_set ((List.prefix_append _ _).trans (lowerList_extends body scope _ _ _)) (Nat.le_refl _)
  | .forLoop var _ body, scope, _, _, _ =>
    (prefix_set (((List.prefix_append _ _).trans (List.prefix_append _ _)).trans
      ((List.prefix_append _ _).trans (lowerList_extends body (var :: scope) _ _ _)))
        (Nat.le_refl _)).trans (List.prefix_append _ _)
  | .brk, _, _, _, _ => List.prefix_append _ _
  | .cont, _, _, _, _ => List.prefix_append _ _
  | .op _, _, _, _, _ => List.prefix_append _ _

theorem lowerList_extends : ∀ (statements : List (Stmt S C E Y)) (scope : List String) (next : Nat)
    (targets : Option (Nat × Nat)) (blocks : List (TaskCfgBlock S C E Y)),
    blocks <+: (lowerList statements scope next targets blocks).2
  | [], _, _, _, _ => List.prefix_refl _
  | statement :: rest, scope, next, targets, blocks =>
    (lowerList_extends rest scope next targets blocks).trans
      (statement.lowerCfg_extends scope _ targets _)

end

/-! ### Loops -/

section Loops

variable {budget : Nat} {scope : List String} {base : Frame} {next exit again : Nat}
  {env : List Int} {spec : List Int → D → D × Outcome Unit (Halt F)}

variable {condition : CfgCond C E} {data : D} {frame : Frame} {elseBlock thenBlock : Nat}
  {range : Range} {var : String}

/-- A branch goes on where its condition says. -/
theorem Path.branch {id : Nat}
    (found : blocks[id]? = some ⟨[], .branch condition thenBlock elseBlock⟩) :
    Path lang blocks 1 (id, frame, data)
      (if condition.Holds lang frame data then thenBlock else elseBlock, frame, data) :=
  .one found rfl

theorem Path.branch_then {id : Nat}
    (found : blocks[id]? = some ⟨[], .branch condition thenBlock elseBlock⟩)
    (holds : condition.Holds lang frame data) :
    Path lang blocks 1 (id, frame, data) (thenBlock, frame, data) := by
  have path : Path lang blocks 1 (id, frame, data)
      (if condition.Holds lang frame data then thenBlock else elseBlock, frame, data) := .branch found
  rwa [if_pos holds] at path

theorem Path.branch_else {id : Nat}
    (found : blocks[id]? = some ⟨[], .branch condition thenBlock elseBlock⟩)
    (fails : ¬condition.Holds lang frame data) :
    Path lang blocks 1 (id, frame, data) (elseBlock, frame, data) := by
  have path : Path lang blocks 1 (id, frame, data)
      (if condition.Holds lang frame data then thenBlock else elseBlock, frame, data) := .branch found
  rwa [if_neg fails] at path

/-- **`while` loops.**  Every pass goes through the header. -/
theorem whileLoop_arrives {condition : C} {header entry : Nat}
    (found : blocks[header]? = some ⟨[], .branch (.source condition scope) entry next⟩)
    (env_eq : env = base.vars scope)
    (body : ∀ frame data, Keeps scope base frame →
      Arrives lang blocks budget scope frame header next header (entry, frame, data)
        (spec env data))
    (count : Nat) : ∀ {frame : Frame} {data : D}, count ≤ budget → Keeps scope base frame →
      Arrives lang blocks count scope base next exit again (header, frame, data)
        (iterate .spent id (fun data => if lang.cond condition env data then spec env data
          else (data, .brk)) count data) := by
  induction count with
  | zero => exact fun _ _ => .spent (.refl _) (Nat.le_refl _)
  | succ count ih =>
    intro frame data enough keeps
    have vars : frame.vars scope = env := keeps.vars.trans env_eq.symm
    simp only [iterate]
    by_cases holds : lang.cond condition env data
    · have enters : Path lang blocks 1 (header, frame, data) (entry, frame, data) :=
        .branch_then found (show lang.cond condition (frame.vars scope) data by rw [vars, holds])
      rw [if_pos holds]
      have passed := body frame data keeps
      generalize spec env data = ended at passed ⊢
      cases passed with
      | fall path kept =>
        exact (ih (by omega) (keeps.trans kept)).after (enters.trans path) (Keeps.refl _ _)
          (by omega)
      | cont path kept =>
        exact (ih (by omega) (keeps.trans kept)).after (enters.trans path) (Keeps.refl _ _)
          (by omega)
      | brk path kept => exact .fall (enters.trans path) (keeps.trans kept)
      | ret path found completes => exact .ret (enters.trans path) found completes
      | failed path found fails => exact .failed (enters.trans path) found fails
      | spent path long => exact .spent (enters.trans path) (by omega)
    · rw [if_neg holds]
      refine .fall (.branch_else found ?_) keeps
      show ¬lang.cond condition (frame.vars scope) data = true
      rw [vars]
      exact holds

/-- The header goes on within the bound. -/
theorem headerCondition_holds (stops : frame (.stop var) = range.stop)
    (steps : frame (.step var) = range.step) :
    (headerCondition var range.inclusive : CfgCond C E).Holds lang frame data
      ↔ range.Within (frame (.var var)) := by
  unfold Range.Within
  by_cases inclusive : range.inclusive
  · simp only [headerCondition, positive, negative, CfgCond.Holds, CfgExpr.eval, steps, stops,
      inclusive, if_true, CompareOp.Holds]
  · simp only [headerCondition, positive, negative, CfgCond.Holds, CfgExpr.eval, steps, stops,
      inclusive, CompareOp.Holds]
    rfl

/-- A sum that leaves the type comes back on the other side. -/
theorem wrap_wraps {ty : InductionTy} {value step : Int} (value_holds : ty.Holds value)
    (step_holds : ty.Holds step) (leaves : ¬ty.Holds (value + step)) :
    (0 < step → ty.wrap (value + step) < value) ∧ (step < 0 → value < ty.wrap (value + step)) := by
  obtain ⟨lower, upper⟩ := value_holds
  obtain ⟨lower', upper'⟩ := step_holds
  unfold InductionTy.Holds at leaves
  unfold InductionTy.wrap
  cases ty
  all_goals
    simp only [InductionTy.bits] at *
    rw [BitVec.toInt_ofInt, Int.bmod_def]
    constructor <;> intro sign <;> split <;> omega

/-- The latch goes on if the step stays in the type. -/
theorem latchCondition_holds {value : Int} (at_value : frame (.var var) = value)
    (steps : frame (.step var) = range.step) (holds : range.ty.Holds value)
    (within : range.Within value) :
    (latchCondition range.ty var : CfgCond C E).Holds lang frame data
      ↔ range.ty.Holds (value + range.step) := by
  simp only [latchCondition, positive, negative, advanced, CfgCond.Holds, CfgExpr.eval, steps,
    at_value, CompareOp.Holds]
  by_cases stays : range.ty.Holds (value + range.step)
  · rw [InductionTy.wrap_eq stays]
    refine iff_of_true ?_ stays
    rcases within with ⟨forward, -⟩ | ⟨backward, -⟩
    · exact .inl ⟨forward, by omega⟩
    · exact .inr ⟨backward, by omega⟩
  · have wraps := wrap_wraps holds range.step_holds stays
    refine iff_of_false ?_ stays
    rintro (⟨forward, more⟩ | ⟨backward, less⟩)
    · exact absurd more (not_lt_of_gt (wraps.1 forward))
    · exact absurd less (not_lt_of_gt (wraps.2 backward))

/-- **`for` loops.**  The header counts, and the latch leaves the loop where the next value
would wrap: it is outside the bound. -/
theorem forLoop_arrives {range : Range} {var : String} {header increment latch entry : Nat}
    (fresh : var ∉ scope)
    (headers : blocks[header]?
      = some ⟨[], .branch (headerCondition var range.inclusive) entry next⟩)
    (increments : blocks[increment]?
      = some ⟨[.assignVar (.var var) (advanced range.ty var)], .jump header⟩)
    (latches : blocks[latch]? = some ⟨[], .branch (latchCondition range.ty var) increment next⟩)
    (body : ∀ frame data, Keeps scope base frame →
      Arrives lang blocks budget (var :: scope) frame latch next latch (entry, frame, data)
        (spec (frame (.var var) :: env) data))
    {value : Int} {values : List Int} (counts : range.Counts value values) :
    ∀ {frame : Frame} {data : D}, Keeps scope base frame → frame (.var var) = value →
      frame (.stop var) = range.stop → frame (.step var) = range.step → range.ty.Holds value →
      Arrives lang blocks budget scope base next exit again (header, frame, data)
        (forEach (fun value data => spec (value :: env) data) values data) := by
  induction counts with
  | done outside =>
    intro frame data keeps at_value stops steps _
    refine .fall (.branch_else headers ?_) keeps
    rw [headerCondition_holds stops steps, at_value]
    exact outside
  | @next value later within counts ih =>
    intro frame data keeps at_value stops steps holds
    have enters : Path lang blocks 1 (header, frame, data) (entry, frame, data) := by
      refine .branch_then headers ?_
      rw [headerCondition_holds stops steps, at_value]
      exact within
    -- From the latch to the next value, or out of the loop.
    have onward : ∀ {frame' : Frame} (data : D), Keeps (var :: scope) frame frame' →
        Arrives lang blocks budget scope base next exit again (latch, frame', data)
          (forEach (fun value data => spec (value :: env) data) later data) := by
      intro frame' data kept
      obtain ⟨sameVar, sameStop, sameStep⟩ := kept var List.mem_cons_self
      have latched : (latchCondition range.ty var).Holds lang frame' data
          ↔ range.ty.Holds (value + range.step) :=
        latchCondition_holds (sameVar.trans at_value) (sameStep.trans steps) holds within
      by_cases stays : range.ty.Holds (value + range.step)
      · have path : Path lang blocks 2 (latch, frame', data)
            (header, Function.update frame' (.var var) (value + range.step), data) := by
          refine .step latches (by rw [TaskCfgBlock.run]; rfl) ?_
          rw [if_pos (latched.mpr stays)]
          refine .one increments ?_
          simp only [TaskCfgBlock.run, runStatements, CfgStmt.run, advanced, CfgExpr.eval]
          rw [sameVar, sameStep, at_value, steps, InductionTy.wrap_eq stays]
        refine (ih (keeps.trans (kept.tail.trans (Keeps.update _ fresh (.inl rfl))))
          (Function.update_self ..) ?_ ?_ stays).after path (Keeps.refl _ _) (Nat.le_add_right _ _)
        · rw [Function.update_of_ne (by simp), sameStop, stops]
        · rw [Function.update_of_ne (by simp), sameStep, steps]
      · have none : later = [] := by
          cases counts with
          | done => rfl
          | next within => exact absurd (Range.holds_next holds within) stays
        rw [none]
        exact .fall (.branch_else latches fun holds => stays (latched.mp holds))
          (keeps.trans kept.tail)
    have passed := body frame data keeps
    rw [at_value] at passed
    rw [forEach]
    generalize spec (value :: env) data = ended at passed ⊢
    cases passed with
    | fall path kept =>
      exact (onward _ kept).after (enters.trans path) (Keeps.refl _ _) (Nat.le_add_right _ _)
    | cont path kept =>
      exact (onward _ kept).after (enters.trans path) (Keeps.refl _ _) (Nat.le_add_right _ _)
    | brk path kept => exact .fall (enters.trans path) (keeps.trans kept.tail)
    | ret path found completes => exact .ret (enters.trans path) found completes
    | failed path found fails => exact .failed (enters.trans path) found fails
    | spent path long => exact .spent (enters.trans path) (by omega)

end Loops

/-! ### Statements -/

section Statements

variable {budget : Nat}

theorem Path.jump {id target : Nat} {state : Frame × D}
    (found : blocks[id]? = some ⟨[], .jump target⟩) :
    Path lang blocks 1 (id, state) (target, state) :=
  .one found rfl

/-- The block that `push` adds is in the graph. -/
theorem Contains.pushed {built : List (TaskCfgBlock S C E Y)} {first : Nat}
    {block : TaskCfgBlock S C E Y} (contains : Contains blocks first (built ++ [block]))
    (le : first ≤ built.length) : blocks[built.length]? = some block := by
  rw [contains built.length le (by simp), List.getElem?_concat_length]

mutual

/-- **Statements.**  From its first block, control arrives where a statement ends. -/
theorem Stmt.lowerCfg_arrives : ∀ (statement : Stmt S C E Y) {scope : List String} {next exit again : Nat}
    {built : List (TaskCfgBlock S C E Y)} {frame : Frame} {data : D}
    {env : List Int}, env = frame.vars scope → statement.Fresh scope →
    Contains blocks built.length (statement.lowerCfg scope next (some (exit, again)) built).2 →
    Arrives lang blocks budget scope frame next exit again
      ((statement.lowerCfg scope next (some (exit, again)) built).1, frame, data)
      (statement.exec lang (fun _ _ => true) budget env data)
  | .op statement, scope, next, exit, again, built, frame, data, env, env_eq, fresh, contains => by
    have found := contains.pushed (Nat.le_refl _)
    subst env_eq
    simp only [Stmt.exec]
    have runs : TaskCfgBlock.run lang (⟨[.source statement scope], .jump next⟩ : TaskCfgBlock S C E Y)
        (frame, data) = match lang.op statement (frame.vars scope) data with
          | (data, none) => ((frame, data), .to next)
          | (data, some failure) => ((frame, data), .fails failure) := by
      simp only [TaskCfgBlock.run, runStatements, CfgStmt.run]
      generalize lang.op statement (frame.vars scope) data = run
      obtain ⟨data, failure⟩ := run
      cases failure <;> rfl
    generalize lang.op statement (frame.vars scope) data = run at runs ⊢
    obtain ⟨data, failure⟩ := run
    cases failure with
    | none => exact .fall (.one found runs) (Keeps.refl _ _)
    | some failure => exact .failed (.refl _) found runs
  | .yield pause, scope, next, exit, again, built, frame, data, env, env_eq, fresh, contains =>
    .fall (.one (contains.pushed (Nat.le_refl _)) rfl) (Keeps.refl _ _)
  | .ret, scope, next, exit, again, built, frame, data, env, env_eq, fresh, contains =>
    .ret (.refl _) (contains.pushed (Nat.le_refl _)) rfl
  | .brk, scope, next, exit, again, built, frame, data, env, env_eq, fresh, contains =>
    .brk (.jump (contains.pushed (Nat.le_refl _))) (Keeps.refl _ _)
  | .cont, scope, next, exit, again, built, frame, data, env, env_eq, fresh, contains =>
    .cont (.jump (contains.pushed (Nat.le_refl _))) (Keeps.refl _ _)
  | .ifElse condition thenBranch elseBranch, scope, next, exit, again, built, frame, data, env, env_eq,
      fresh, contains => by
    have thenPart := lowerList_extends thenBranch scope next (some (exit, again)) built
    have elsePart := lowerList_extends elseBranch scope next (some (exit, again))
      (lowerList thenBranch scope next (some (exit, again)) built).2
    have found := contains.pushed (thenPart.length_le.trans elsePart.length_le)
    rw [Stmt.exec]
    by_cases holds : lang.cond condition env data
    · rw [if_pos holds]
      have enters : Path lang blocks 1 _ _ :=
        Path.branch_then found (show lang.cond condition (frame.vars scope) data by rw [← env_eq, holds])
      exact (lowerList_arrives thenBranch env_eq fresh.1 (contains.mono (Nat.le_refl _)
        (elsePart.trans (List.prefix_append _ _)))).after enters (Keeps.refl _ _) (Nat.le_add_right _ _)
    · rw [if_neg holds]
      have enters : Path lang blocks 1 _ _ :=
        Path.branch_else found (show ¬lang.cond condition (frame.vars scope) data = true by
          rw [← env_eq]
          exact holds)
      exact (lowerList_arrives elseBranch env_eq fresh.2 (contains.mono thenPart.length_le
        (List.prefix_append _ _))).after enters (Keeps.refl _ _) (Nat.le_add_right _ _)
  | .whileLoop condition body, scope, next, exit, again, built, frame, data, env, env_eq, fresh,
      contains => by
    generalize part_eq : lowerList body scope built.length (some (next, built.length))
      (built ++ [⟨[], .complete⟩]) = lowered
    have part : built ++ [⟨[], .complete⟩] <+: lowered.2 :=
      part_eq ▸ lowerList_extends body scope _ _ _
    have length := part.length_le
    rw [List.length_append, List.length_singleton] at length
    have whole : (Stmt.whileLoop condition body).lowerCfg scope next (some (exit, again)) built
        = (built.length, lowered.2.set built.length
          ⟨[], .branch (.source condition scope) lowered.1 next⟩) := by
      rw [← part_eq]
      rfl
    rw [whole] at contains ⊢
    have header : blocks[built.length]? = some ⟨[], .branch (.source condition scope) lowered.1 next⟩ := by
      rw [contains built.length (Nat.le_refl _) (by rw [List.length_set]; omega),
        List.getElem?_set_self (by omega)]
    have inside : Contains blocks (built ++ [(⟨[], .complete⟩ : TaskCfgBlock S C E Y)]).length
        lowered.2 := by
      intro id above below
      rw [List.length_append, List.length_singleton] at above
      rw [contains id (by omega) (by rw [List.length_set]; exact below),
        List.getElem?_set_ne (by omega)]
    rw [Stmt.exec]
    refine whileLoop_arrives header env_eq (fun frame' data' keeps => ?_) budget (Nat.le_refl _)
      (Keeps.refl _ _)
    subst part_eq
    exact lowerList_arrives body (env_eq.trans keeps.vars.symm) fresh inside
  | .forLoop var range body, scope, next, exit, again, built, frame, data, env, env_eq, fresh,
      contains => by
    -- The three blocks in front of the body, and what the body adds.
    generalize one_eq : built ++ [(⟨[], .complete⟩ : TaskCfgBlock S C E Y)] = one
    generalize two_eq : one ++ [(⟨[.assignVar (.var var) (advanced range.ty var)],
      .jump built.length⟩ : TaskCfgBlock S C E Y)] = two
    generalize three_eq : two ++ [(⟨[], .branch (latchCondition range.ty var) one.length next⟩ :
      TaskCfgBlock S C E Y)] = three
    generalize part_eq : lowerList body (var :: scope) two.length (some (next, two.length)) three
      = lowered
    have part : three <+: lowered.2 := part_eq ▸ lowerList_extends body _ _ _ _
    have length := part.length_le
    have oneLength : one.length = built.length + 1 := by rw [← one_eq, List.length_append]; rfl
    have twoLength : two.length = built.length + 2 := by
      rw [← two_eq, List.length_append, oneLength]; rfl
    have threeLength : three.length = built.length + 3 := by
      rw [← three_eq, List.length_append, twoLength]; rfl
    have whole : (Stmt.forLoop var range body).lowerCfg scope next (some (exit, again)) built
        = push (lowered.2.set built.length
            ⟨[], .branch (headerCondition var range.inclusive) lowered.1 next⟩)
          ⟨[.assignVar (.var var) (.cast range.ty range.start scope),
            .assignVar (.stop var) (.cast range.ty range.stop scope),
            .assignVar (.step var) (.cast range.ty range.stepOperand scope)], .jump built.length⟩ := by
      rw [← part_eq, ← three_eq, ← two_eq, ← one_eq]
      rfl
    rw [whole] at contains ⊢
    have initial := contains.pushed (by rw [List.length_set]; omega)
    have kept : ∀ id, built.length < id → id < lowered.2.length → blocks[id]? = lowered.2[id]? := by
      intro id above below
      rw [contains id (by omega) (by rw [push, List.length_append, List.length_set]; omega), push,
        List.getElem?_append_left (by rw [List.length_set]; exact below),
        List.getElem?_set_ne (by omega)]
    have header : blocks[built.length]?
        = some ⟨[], .branch (headerCondition var range.inclusive) lowered.1 next⟩ := by
      rw [contains built.length (Nat.le_refl _)
        (by rw [push, List.length_append, List.length_set]; omega), push,
        List.getElem?_append_left (by rw [List.length_set]; omega),
        List.getElem?_set_self (by omega)]
    have early : ∀ id, id < three.length → lowered.2[id]? = three[id]? := by
      intro id below
      obtain ⟨rest, eq⟩ := part
      rw [← eq, List.getElem?_append_left below]
    have increment : blocks[one.length]?
        = some ⟨[.assignVar (.var var) (advanced range.ty var)], .jump built.length⟩ := by
      rw [kept _ (by omega) (by omega), early _ (by omega), ← three_eq,
        List.getElem?_append_left (by omega), ← two_eq, List.getElem?_concat_length]
    have latch : blocks[two.length]?
        = some ⟨[], .branch (latchCondition range.ty var) one.length next⟩ := by
      rw [kept _ (by omega) (by omega), early _ (by omega), ← three_eq, List.getElem?_concat_length]
    have inside : Contains blocks three.length lowered.2 :=
      fun id above below => kept id (by omega) below
    -- The block that initializes the loop.
    generalize begun : Function.update frame (.var var) (range.start.eval lang env data) = first
    generalize ended : Function.update first (.stop var) (range.stop.eval lang env data) = second
    generalize stepped : Function.update second (.step var) (range.stepOperand.eval lang env data)
      = third
    have keepsFirst : Keeps scope frame first := begun ▸ Keeps.update _ fresh.1 (.inl rfl)
    have keepsSecond : Keeps scope frame second :=
      keepsFirst.trans (ended ▸ Keeps.update _ fresh.1 (.inr (.inl rfl)))
    have keepsThird : Keeps scope frame third :=
      keepsSecond.trans (stepped ▸ Keeps.update _ fresh.1 (.inr (.inr rfl)))
    have enters : Path lang blocks 1 ((lowered.2.set built.length
        ⟨[], .branch (headerCondition var range.inclusive) lowered.1 next⟩).length, frame, data)
        (built.length, third, data) := by
      refine .one initial ?_
      simp only [TaskCfgBlock.run, runStatements, CfgStmt.run, CfgExpr.eval]
      rw [← env_eq, begun, keepsFirst.vars, ← env_eq, ended, keepsSecond.vars, ← env_eq, stepped]
    have arrives := @forLoop_arrives S C E Y D F lang blocks budget scope third next exit again env
      (fun env data => execAll lang (fun _ _ => true) budget body env data)
      (range.eval lang env data) var built.length one.length two.length lowered.1 fresh.1 header
      increment latch (fun frame' data' keeps => by
        subst part_eq
        refine lowerList_arrives body ?_ fresh.2 inside
        rw [Frame.vars, List.map_cons]
        exact congrArg _ (env_eq.trans (keepsThird.trans keeps).vars.symm))
      _ _ (range.eval lang env data).counts_values third data (Keeps.refl _ _)
      (by
        rw [← stepped, Function.update_of_ne (by simp), ← ended, Function.update_of_ne (by simp),
          ← begun, Function.update_self]
        rfl)
      (by
        rw [← stepped, Function.update_of_ne (by simp), ← ended, Function.update_self]
        rfl)
      (by
        rw [← stepped, Function.update_self]
        rfl)
      (range.eval lang env data).start_holds
    rw [Stmt.exec, if_pos rfl]
    exact arrives.after enters keepsThird (Nat.le_add_right _ _)

/-- **Lists.**  The statements of a list, one after the other. -/
theorem lowerList_arrives : ∀ (statements : List (Stmt S C E Y)) {scope : List String} {next exit again : Nat}
    {built : List (TaskCfgBlock S C E Y)} {frame : Frame} {data : D}
    {env : List Int}, env = frame.vars scope → FreshAll statements scope →
    Contains blocks built.length (lowerList statements scope next (some (exit, again)) built).2 →
    Arrives lang blocks budget scope frame next exit again
      ((lowerList statements scope next (some (exit, again)) built).1, frame, data)
      (execAll lang (fun _ _ => true) budget statements env data)
  | [], scope, next, exit, again, built, frame, data, env, env_eq, fresh, contains =>
    .fall (.refl _) (Keeps.refl _ _)
  | statement :: rest, scope, next, exit, again, built, frame, data, env, env_eq, fresh, contains => by
    have restPart := lowerList_extends rest scope next (some (exit, again)) built
    have part := statement.lowerCfg_extends scope (lowerList rest scope next (some (exit, again)) built).1 (some (exit, again))
      (lowerList rest scope next (some (exit, again)) built).2
    have first := @Stmt.lowerCfg_arrives statement scope
      (lowerList rest scope next (some (exit, again)) built).1 exit again
      (lowerList rest scope next (some (exit, again)) built).2 frame data env env_eq fresh.1
      (contains.mono restPart.length_le (List.prefix_refl _))
    rw [execAll]
    generalize statement.exec lang (fun _ _ => true) budget env data = ended at first ⊢
    cases first with
    | fall path kept =>
      exact (lowerList_arrives rest (env_eq.trans kept.vars.symm) fresh.2
        (contains.mono (Nat.le_refl _) part)).after path kept (Nat.le_add_right _ _)
    | brk path kept => exact .brk path kept
    | cont path kept => exact .cont path kept
    | ret path found completes => exact .ret path found completes
    | failed path found fails => exact .failed path found fails
    | spent path long => exact .spent path long

end

end Statements

end Onda.Loops
