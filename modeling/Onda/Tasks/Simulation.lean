import Onda.Tasks.Lowering

/-!
# Lowered code follows source code

`Follows` relates a run of source code to a run of its lowering: the runs agree while every await
completes, and where the source run is unfinished the lowered one has left its code with neutral
outputs and the availability field cleared.  The proofs are by induction on the code, with one
case per statement; a loop needs an induction on its passes.
-/

namespace Onda.Tasks

variable {V W : Type} {tasks : TaskDefs V W} {budget : Nat}

/-- How a lowered run relates to the source run that it stands for. -/
structure Follows (stop : Flow) (neutral : Store V W → Store V W)
    (source lowered : Machine V W × Flow) : Prop where
  unfinished : source.2 = .unfinished →
    lowered.2 = stop ∧ lowered.1.available = false ∧ lowered.1.store = neutral source.1.store
  finished : source.2 ≠ .unfinished →
    lowered.2 = source.2 ∧ lowered.1.available = true ∧ lowered.1.store = source.1.store

/-- The states from which a source run and a lowered run are compared. -/
structure Together (machine machine' : Machine V W) : Prop where
  store : machine'.store = machine.store
  available : machine'.available = true

/-- Code whose lowered runs follow its source runs. -/
def CodeFollows (stop : Flow) (neutral : Store V W → Store V W)
    (source lowered : Machine V W → Machine V W × Flow) : Prop :=
  ∀ machine machine', Together machine machine' →
    Follows stop neutral (source machine) (lowered machine')

section Rules

variable {stop : Flow} {neutral : Store V W → Store V W}

variable {guard : Guard V W} {elseBranch thenBranch : List (Stmt V W)} {machine : Machine V W}

theorem Follows.same {machine' : Machine V W} {flow : Flow} (finished : flow ≠ .unfinished)
    (together : Together machine machine') :
    Follows stop neutral (machine, flow) (machine', flow) :=
  ⟨fun stopped => absurd stopped finished, fun _ => ⟨rfl, together.available, together.store⟩⟩

/-- A statement that changes the store and hands on. -/
theorem CodeFollows.update (change : Store V W → Store V W) :
    CodeFollows stop neutral
      (fun machine => ({ machine with store := change machine.store }, .next))
      (fun machine => ({ machine with store := change machine.store }, .next)) := by
  intro machine machine' together
  exact Follows.same (by simp) ⟨congrArg change together.store, together.available⟩

theorem CodeFollows.jump {flow : Flow} (finished : flow ≠ .unfinished) :
    CodeFollows stop neutral (fun machine => (machine, flow)) fun machine => (machine, flow) :=
  fun _ _ together => Follows.same finished together

theorem exec_branch_then {guard : Guard V W} {thenBranch elseBranch : List (Stmt V W)}
    {machine : Machine V W} (holds : (guard.eval tasks machine).1 = true) :
    (Stmt.branch guard thenBranch elseBranch).exec tasks budget machine =
      execAll tasks budget thenBranch (guard.eval tasks machine).2 := by
  rw [Stmt.exec, if_pos holds]

theorem exec_branch_else {guard : Guard V W} {thenBranch elseBranch : List (Stmt V W)}
    {machine : Machine V W} (fails : (guard.eval tasks machine).1 = false) :
    (Stmt.branch guard thenBranch elseBranch).exec tasks budget machine =
      execAll tasks budget elseBranch (guard.eval tasks machine).2 := by
  rw [Stmt.exec, if_neg (by simp [fails])]

/-- A branch on a source condition. -/
theorem CodeFollows.branch {test : Store V W → Bool}
    {thenSource elseSource thenLowered elseLowered : List (Stmt V W)}
    (thenFollows : CodeFollows stop neutral (execAll tasks budget thenSource)
      (execAll tasks budget thenLowered))
    (elseFollows : CodeFollows stop neutral (execAll tasks budget elseSource)
      (execAll tasks budget elseLowered)) :
    CodeFollows stop neutral
      ((Stmt.branch (.source test) thenSource elseSource).exec tasks budget)
      ((Stmt.branch (.source test) thenLowered elseLowered).exec tasks budget) := by
  intro machine machine' together
  have same : test machine'.store = test machine.store := congrArg test together.store
  rcases holds : test machine.store with _ | _
  · rw [@exec_branch_else V W tasks budget (.source test) _ _ _ holds,
      @exec_branch_else V W tasks budget (.source test) _ _ _ (same.trans holds)]
    exact elseFollows machine machine' together
  · rw [@exec_branch_then V W tasks budget (.source test) _ _ _ holds,
      @exec_branch_then V W tasks budget (.source test) _ _ _ (same.trans holds)]
    exact thenFollows machine machine' together

/-- One statement after another. -/
theorem CodeFollows.cons {stmt : Stmt V W} {stmts first second : List (Stmt V W)}
    (leaves : stop ≠ .next)
    (head : CodeFollows stop neutral (stmt.exec tasks budget) (execAll tasks budget first))
    (tail : CodeFollows stop neutral (execAll tasks budget stmts) (execAll tasks budget second)) :
    CodeFollows stop neutral (execAll tasks budget (stmt :: stmts))
      (execAll tasks budget (first ++ second)) := by
  intro machine machine' together
  have follows := head machine machine' together
  rcases source : stmt.exec tasks budget machine with ⟨between, flow⟩
  rcases lowered : execAll tasks budget first machine' with ⟨between', flow'⟩
  rw [source, lowered] at follows
  by_cases stopped : flow = .unfinished
  · obtain ⟨flows, cleared, neutralized⟩ := follows.unfinished stopped
    have flows : flow' = stop := flows
    subst stopped flows
    rw [execAll_cons_leave (by simp) source, execAll_append_leave leaves lowered]
    exact follows
  · obtain ⟨flows, up, same⟩ := follows.finished stopped
    have flows : flow' = flow := flows
    subst flows
    by_cases hands : flow' = .next
    · subst hands
      rw [execAll_cons_next source, execAll_append_next lowered]
      exact tail between between' ⟨same, up⟩
    · rw [execAll_cons_leave hands source, execAll_append_leave hands lowered]
      exact follows

/-- How a loop ends when its body stops. -/
def Flow.afterLoop : Flow → Flow
  | .brk => .next
  | flow => flow

/-- The passes of a loop; the induction is on the budget. -/
theorem CodeFollows.iterate {pass : Nat → Store V W → Option (Store V W)}
    {source lowered : Machine V W → Machine V W × Flow} (stops : stop = .brk ∨ stop = .ret)
    (body : CodeFollows stop neutral source lowered) (budget number : Nat) :
    CodeFollows stop.afterLoop neutral (iterate pass source budget number)
      (Tasks.iterate pass lowered budget number) := by
  induction budget generalizing number with
  | zero => exact CodeFollows.jump (by simp)
  | succ budget ih =>
    intro machine machine' together
    unfold Tasks.iterate
    rw [together.store]
    cases pass number machine.store with
    | none => exact Follows.same (by simp) together
    | some store =>
      have follows := body { machine with store } { machine' with store }
        ⟨rfl, together.available⟩
      dsimp only
      rcases runs : source { machine with store } with ⟨after, flow⟩
      rcases runs' : lowered { machine' with store } with ⟨after', flow'⟩
      rw [runs, runs'] at follows
      by_cases stopped : flow = .unfinished
      · obtain ⟨flows, cleared, neutralized⟩ := follows.unfinished stopped
        have flows : flow' = stop := flows
        subst stopped flows
        rcases stops with rfl | rfl
        · exact ⟨fun _ => ⟨rfl, cleared, neutralized⟩, fun finished => absurd rfl finished⟩
        · exact ⟨fun _ => ⟨rfl, cleared, neutralized⟩, fun finished => absurd rfl finished⟩
      · obtain ⟨flows, up, same⟩ := follows.finished stopped
        have flows : flow' = flow := flows
        subst flows
        cases flow' with
        | next => exact ih (number + 1) after after' ⟨same, up⟩
        | cont => exact ih (number + 1) after after' ⟨same, up⟩
        | brk => exact Follows.same (by simp) ⟨same, up⟩
        | ret => exact Follows.same (by simp) ⟨same, up⟩
        | unfinished => exact absurd rfl stopped
        | spent => exact Follows.same (by simp) ⟨same, up⟩

end Rules

/-! ### Code without an await is never unfinished -/

theorem iterate_finishes {pass : Nat → Store V W → Option (Store V W)}
    {body : Machine V W → Machine V W × Flow}
    (finishes : ∀ machine, (body machine).2 ≠ .unfinished) (budget number : Nat)
    (machine : Machine V W) : (iterate pass body budget number machine).2 ≠ .unfinished := by
  induction budget generalizing number machine with
  | zero => simp [iterate]
  | succ budget ih =>
    unfold iterate
    cases pass number machine.store with
    | none => simp
    | some store =>
      have here := finishes { machine with store }
      dsimp only
      rcases runs : body { machine with store } with ⟨after, flow⟩
      rw [runs] at here
      cases flow with
      | next => exact ih _ _
      | cont => exact ih _ _
      | unfinished => exact absurd rfl here
      | brk | ret | spent => simp

mutual

theorem Stmt.finishes : ∀ (stmt : Stmt V W), stmt.awaits = false → ∀ machine,
    (stmt.exec tasks budget machine).2 ≠ .unfinished
  | .await task, plain, _ => by simp [Stmt.awaits] at plain
  | .branch guard thenBranch elseBranch, plain, machine => by
    simp only [Stmt.awaits, Bool.or_eq_false_iff] at plain
    rw [Stmt.exec]
    split
    · exact execAll_finishes thenBranch plain.1 _
    · exact execAll_finishes elseBranch plain.2 _
  | .loop head body, plain, machine => by
    rw [Stmt.exec]
    exact iterate_finishes (execAll_finishes body plain) _ _ _
  | .assign _ _, _, _ | .effect _, _, _ | .reset _, _, _ | .brk, _, _ | .cont, _, _
  | .ret, _, _ | .resume _, _, _ | .setAvailable _, _, _ | .abort, _, _ => by simp [Stmt.exec]

theorem execAll_finishes : ∀ (stmts : List (Stmt V W)), awaits stmts = false → ∀ machine,
    (execAll tasks budget stmts machine).2 ≠ .unfinished
  | [], _, _ => by simp
  | stmt :: stmts, plain, machine => by
    simp only [awaits, Bool.or_eq_false_iff] at plain
    have here := Stmt.finishes stmt plain.1 machine
    rcases head : stmt.exec tasks budget machine with ⟨after, flow⟩
    rw [head] at here
    by_cases hands : flow = .next
    · subst hands
      rw [execAll_cons_next head]
      exact execAll_finishes stmts plain.2 after
    · rw [execAll_cons_leave hands head]
      exact here

end

/-! ### Outputs that are neutral -/

theorem Store.neutralize_cons [Zero V] (name : String) (names : List String)
    (declarations : List (String × PortType)) (store : Store V W) :
    Store.neutralize (name :: names) declarations store =
      Store.neutralize names declarations
        (Store.clear name (declaredCells declarations name) store) := by
  unfold Store.neutralize Store.clear
  congr 1
  funext other cell
  by_cases same : other = name
  · subst same
    by_cases inside : cell < declaredCells declarations other
    · simp [inside]
    · simp [inside]
  · simp [same]

theorem Store.clear_zero [Zero V] (name : String) (store : Store V W) :
    Store.clear name 0 store = store := by
  simp [Store.clear]

theorem execAll_neutralOutputStmts [Zero V] (name : String) (ty : Option PortType)
    (machine : Machine V W) :
    execAll tasks budget (neutralOutputStmts name ty) machine =
      ({ machine with store := Store.clear name (ty.getD .scalar).cells machine.store }, .next) := by
  match ty with
  | none => rfl
  | some .scalar => rfl
  | some (.array len) =>
    by_cases empty : 0 < len
    · rw [neutralOutputStmts, if_pos empty]
      rfl
    · obtain rfl : len = 0 := by omega
      rw [neutralOutputStmts, if_neg empty]
      exact congrArg (fun store => ({ machine with store }, Flow.next))
        (Store.clear_zero name machine.store).symm

/-- The generated code of neutral outputs. -/
theorem execAll_collectNeutralOutputs [Zero V] (names : List String)
    (declarations : List (String × PortType)) (machine : Machine V W) :
    execAll tasks budget (collectNeutralOutputs names declarations) machine =
      ({ machine with store := Store.neutralize names declarations machine.store }, .next) := by
  induction names generalizing machine with
  | nil => simp [collectNeutralOutputs, Store.neutralize]
  | cons name names ih =>
    rw [collectNeutralOutputs, List.flatMap_cons,
      execAll_append_next (execAll_neutralOutputStmts name _ machine)]
    rw [Store.neutralize_cons]
    exact ih _

end Onda.Tasks
