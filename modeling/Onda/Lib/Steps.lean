import Mathlib.Tactic.Common

/-!
# Runs of a step function

A system takes actions, one at a time; an action that is not possible in a state has no step.  The
actions of several parties in one list are an interleaving of these parties.
-/

namespace Onda.Steps

variable {σ α : Type} (step : σ → α → Option σ)

/-- The state after some actions. -/
def run : σ → List α → Option σ
  | state, [] => some state
  | state, action :: actions => (step state action).bind fun next => run next actions

/-- Every step of a run meets a condition on the state before it. -/
def Meets (condition : σ → α → Prop) : σ → List α → Prop
  | _, [] => True
  | state, action :: actions =>
    condition state action ∧ ∀ next ∈ step state action, Meets condition next actions

variable {step}

variable {actions : List α} {last state : σ} {holds : σ → Prop} {condition : σ → α → Prop}

theorem run_cons {action : α} :
    run step state (action :: actions) = some last ↔
      ∃ next, step state action = some next ∧ run step next actions = some last :=
  Option.bind_eq_some_iff

theorem meets_cons {next : σ} {action : α} (here : condition state action)
    (stepped : step state action = some next) (rest : Meets step condition next actions) :
    Meets step condition state (action :: actions) := by
  refine ⟨here, fun other mem => ?_⟩
  obtain rfl := Option.some.inj (stepped.symm.trans mem)
  exact rest

theorem meets_of_forall (all : ∀ action ∈ actions, ∀ state, condition state action) (state : σ) :
    Meets step condition state actions := by
  induction actions generalizing state with
  | nil => trivial
  | cons action actions ih =>
    refine ⟨all action List.mem_cons_self state, fun next _ => ?_⟩
    exact ih (fun other mem => all other (List.mem_cons_of_mem _ mem)) next

theorem run_append {first second : List α} :
    run step state (first ++ second) = some last ↔
      ∃ next, run step state first = some next ∧ run step next second = some last := by
  induction first generalizing state with
  | nil => simp [run]
  | cons action first ih =>
    rw [List.cons_append, run_cons]
    constructor
    · rintro ⟨next, stepped, rest⟩
      obtain ⟨middle, before, after⟩ := ih.mp rest
      exact ⟨middle, run_cons.mpr ⟨next, stepped, before⟩, after⟩
    · rintro ⟨middle, before, after⟩
      obtain ⟨next, stepped, before⟩ := run_cons.mp before
      exact ⟨next, stepped, ih.mpr ⟨middle, before, after⟩⟩

/-- What every step keeps under a condition, every run keeps whose steps meet it. -/
theorem invariant (kept : ∀ state action next, holds state → condition state action →
      step state action = some next → holds next) (start : holds state)
    (meets : Meets step condition state actions) (ran : run step state actions = some last) :
    holds last := by
  induction actions generalizing state with
  | nil =>
    obtain rfl := Option.some.inj ran
    exact start
  | cons action actions ih =>
    obtain ⟨next, stepped, rest⟩ := run_cons.mp ran
    exact ih (kept state action next start meets.1 stepped) (meets.2 next stepped) rest

/-- What every step keeps, every run keeps. -/
theorem stable
    (kept : ∀ state action next, holds state → step state action = some next → holds next)
    (start : holds state) (ran : run step state actions = some last) : holds last := by
  induction actions generalizing state with
  | nil =>
    obtain rfl := Option.some.inj ran
    exact start
  | cons action actions ih =>
    obtain ⟨next, stepped, rest⟩ := run_cons.mp ran
    exact ih (kept state action next start stepped) rest

end Onda.Steps
