import Onda.Lib.Eval
import Onda.Lib.Structured
import Mathlib.Data.List.Forall2
import Mathlib.Data.Option.Basic
import Mathlib.Order.Defs.PartialOrder

/-!
# Refinement

A target refines a source if every run of the source that has a meaning is
matched by the run of the target: they end alike, with related values, and an
observer sees the same events.  Some ways of stopping give the source no meaning;
they `escape`, and then nothing is asked of the target.

The first part is about evaluations, the second about structured programs.  What
relates the states of two programs grows with the run, since storage is created;
the relation is therefore indexed by a *world*, a run goes from a world to a
later one, and a fact that is kept by later worlds need not be proved again after
every step.
-/

namespace Structured

/-! ## Evaluations -/

/-- What an observer sees of the events of an evaluation, and which errors give
it no meaning. -/
structure Observer (E X O : Type) where
  visible : E → Option O
  escapes : X → Prop

namespace Observer

variable {E X O : Type} (observer : Observer E X O)

/-- An observer cannot tell the events of two runs apart. -/
def Same (events events' : List E) : Prop :=
  events.filterMap observer.visible = events'.filterMap observer.visible

variable {observer}

theorem Same.refl (events : List E) : observer.Same events events := rfl

theorem Same.append {first first' second second' : List E} (same : observer.Same first first')
    (rest : observer.Same second second') :
    observer.Same (first ++ second) (first' ++ second') := by
  unfold Same at *
  rw [List.filterMap_append, List.filterMap_append, same, rest]

/-- Events that are not visible do not matter. -/
theorem Same.hidden {events events' : List E} (left : ∀ event ∈ events, observer.visible event = none)
    (right : ∀ event ∈ events', observer.visible event = none) : observer.Same events events' := by
  unfold Same
  rw [List.filterMap_eq_nil_iff.mpr left, List.filterMap_eq_nil_iff.mpr right]

/-- Nobody sees the evaluation, and it only escapes. -/
def Quiet {M α : Type} (observer : Observer E X O) (env : M) (Q : α → Prop)
    (action : Eval M E X α) : Prop :=
  Eval.Sat env (fun _ => True) (fun event => observer.visible event = none) observer.escapes Q
    action

end Observer

variable {α : Type} {option : Option α} {α' : Type} {option' : Option α'} {R : α → α' → Prop}

theorem optionRel_imp {R' : α → α' → Prop} (related : Option.Rel R option option')
    (weaker : ∀ value value', R value value' → R' value value') :
    Option.Rel R' option option' := by
  cases related with
  | some related => exact .some (weaker _ _ related)
  | none => exact .none

theorem optionRel_isSome (related : Option.Rel R option option') :
    option.isSome = option'.isSome := by
  cases related <;> rfl

theorem optionRel_same {R : α → α → Prop} (option : Option α)
    (same : ∀ value, option = some value → R value value) : Option.Rel R option option := by
  cases option with
  | none => exact .none
  | some value => exact .some (same value rfl)

/-- Related lists are related position by position. -/
theorem forall₂_getElem? {list : List α} {list' : List α'} (related : List.Forall₂ R list list')
    (position : Nat) :
    Option.Rel R list[position]? list'[position]? := by
  induction related generalizing position with
  | nil => exact .none
  | cons head _ ih =>
    cases position with
    | zero => exact .some head
    | succ position => exact ih position

theorem forall₂_zip {β β' : Type} {S : β → β' → Prop} {first : List α} {first' : List α'}
    {second : List β} {second' : List β'} (one : List.Forall₂ R first first')
    (two : List.Forall₂ S second second') :
    List.Forall₂ (fun pair pair' => R pair.1 pair'.1 ∧ S pair.2 pair'.2)
      (first.zip second) (first'.zip second') := by
  induction one generalizing second second' with
  | nil => exact .nil
  | cons head _ ih =>
    cases two with
    | nil => exact .nil
    | cons head' rest => exact .cons ⟨head, head'⟩ (ih rest)

namespace Eval

variable {M E X O α α' β β' : Type}

/-- The target evaluation matches the source evaluation, each in its own
environment. -/
structure Refines (observer : Observer E X O) (env env' : M) (R : α → α' → Prop)
    (source : Eval M E X α) (target : Eval M E X α') : Prop where
  error : ∀ reason, (source env).2 = .error reason → observer.escapes reason
    ∨ (target env').2 = .error reason ∧ observer.Same (source env).1 (target env').1
  value : ∀ value, (source env).2 = .ok value → ∃ value', (target env').2 = .ok value'
    ∧ R value value' ∧ observer.Same (source env).1 (target env').1

namespace Refines

variable {observer : Observer E X O} {env env' : M} {R : α → α' → Prop} {S : β → β' → Prop}

variable {first : Eval M E X α} {target : Eval M E X α'} {γ : Type} {list : List γ} {γ' : Type}
  {list' : List γ'} {reason : X} {next : α → Eval M E X β} {Q : γ → γ' → Prop}

theorem mono {R' : α → α' → Prop} {source : Eval M E X α}
    (refines : Refines observer env env' R source target)
    (weaker : ∀ value value', R value value' → R' value value') :
    Refines observer env env' R' source target where
  error := refines.error
  value value run := by
    obtain ⟨value', run', related, same⟩ := refines.value value run
    exact ⟨value', run', weaker value value' related, same⟩

theorem pure {value : α} {value' : α'} (related : R value value') :
    Refines observer env env' R (Pure.pure value : Eval M E X α)
      (Pure.pure value' : Eval M E X α') where
  error := by simp
  value := by
    rintro _ ⟨⟩
    exact ⟨value', rfl, related, .refl _⟩

theorem throw :
    Refines observer env env' R (Eval.throw reason : Eval M E X α)
      (Eval.throw reason : Eval M E X α') where
  error := by
    rintro _ ⟨⟩
    exact .inr ⟨rfl, .refl _⟩
  value := by simp

/-- A source that escapes is refined by every target. -/
theorem escape (escapes : observer.escapes reason) :
    Refines observer env env' R (Eval.throw reason : Eval M E X α) target where
  error := by
    rintro _ ⟨⟩
    exact .inl escapes
  value := by simp

/-- Nothing is asked of what follows a failed condition that escapes. -/
theorem unmet (escapes : observer.escapes reason) {next : Unit → Eval M E X α} :
    Refines observer env env' R (Eval.require false reason >>= next) target where
  error := by
    rintro _ ⟨⟩
    exact .inl escapes
  value := by
    rintro _ ⟨⟩

/-- Nothing is asked of what follows a failure that escapes. -/
theorem missed (escapes : observer.escapes reason) {next : β → Eval M E X α} :
    Refines observer env env' R (Eval.orThrow reason none >>= next) target where
  error := by
    rintro _ ⟨⟩
    exact .inl escapes
  value := by
    rintro _ ⟨⟩

theorem ask : Refines observer env env' (fun memory memory' => memory = env ∧ memory' = env')
    (Eval.ask : Eval M E X M) (Eval.ask : Eval M E X M) where
  error := by simp [Eval.ask]
  value := by
    rintro _ ⟨⟩
    exact ⟨env', rfl, ⟨rfl, rfl⟩, .refl _⟩

theorem orThrow {option : Option α} {option' : Option α'} (related : Option.Rel R option option') :
    Refines observer env env' R (Eval.orThrow reason option : Eval M E X α)
      (Eval.orThrow reason option' : Eval M E X α') := by
  cases related with
  | some related => exact pure related
  | none => exact throw

/-- A look-up in what both sides share. -/
theorem lookup (option : Option α) :
    Refines observer env env' (fun value value' => value = value' ∧ option = some value)
      (Eval.orThrow reason option : Eval M E X α) (Eval.orThrow reason option : Eval M E X α) := by
  cases option with
  | none => exact throw
  | some value => exact pure ⟨rfl, rfl⟩

theorem require {condition condition' : Bool} (same : condition = condition') :
    Refines observer env env' (fun _ _ => condition = true)
      (Eval.require condition reason : Eval M E X Unit)
      (Eval.require condition' reason : Eval M E X Unit) := by
  subst same
  cases condition with
  | false => exact throw
  | true => exact pure rfl

theorem emit {event event' : E} (same : observer.visible event = observer.visible event') :
    Refines observer env env' (fun _ _ => True) (Eval.emit event : Eval M E X Unit)
      (Eval.emit event' : Eval M E X Unit) where
  error := by simp [Eval.emit]
  value := by
    rintro _ ⟨⟩
    refine ⟨(), rfl, trivial, ?_⟩
    unfold Observer.Same
    simp [Eval.emit, List.filterMap_cons, same]

theorem bind {first' : Eval M E X α'} {next' : α' → Eval M E X β'}
    (head : Refines observer env env' R first first') (tail : ∀ value value', R value value' →
      Refines observer env env' S (next value) (next' value')) :
    Refines observer env env' S (first >>= next) (first' >>= next') := by
  rcases run : first env with ⟨events, reason | value⟩
  · have whole : (first >>= next) env = (events, .error reason) := by rw [run_bind, run]
    refine ⟨fun other stopped => ?_, fun value ended => by rw [whole] at ended; cases ended⟩
    rw [whole] at stopped
    cases stopped
    rcases head.error reason (by rw [run]) with escapes | ⟨run', same⟩
    · exact .inl escapes
    · rcases target : first' env' with ⟨events', outcome⟩
      rw [target] at run' same
      cases run'
      refine .inr ⟨by rw [run_bind, target], ?_⟩
      rw [whole, run_bind, target]
      rwa [run] at same
  · have whole : (first >>= next) env = (events ++ (next value env).1, (next value env).2) := by
      rw [run_bind, run]
    obtain ⟨value', run', related, same⟩ := head.value value (by rw [run])
    rcases target : first' env' with ⟨events', outcome⟩
    rw [target] at run' same
    rw [run] at same
    cases run'
    have whole' : (first' >>= next') env'
        = (events' ++ (next' value' env').1, (next' value' env').2) := by
      rw [run_bind, target]
    have rest := tail value value' related
    refine ⟨fun reason stopped => ?_, fun result ended => ?_⟩
    · rw [whole] at stopped
      rw [whole, whole']
      exact (rest.error reason stopped).imp_right fun ⟨run'', more⟩ => ⟨run'', same.append more⟩
    · rw [whole] at ended
      rw [whole, whole']
      obtain ⟨result', run'', held, more⟩ := rest.value result ended
      exact ⟨result', run'', held, same.append more⟩

/-- The target may leave out an evaluation that nobody sees and that only escapes. -/
theorem drop {Q : α → Prop} {first : Eval M E X α} {next : α → Eval M E X β}
    {target : Eval M E X β'} (quiet : observer.Quiet env Q first)
    (rest : ∀ value, Q value → Refines observer env env' S (next value) target) :
    Refines observer env env' S (first >>= next) target := by
  have relied : ∀ event ∈ (first env).1, True := fun _ _ => trivial
  rcases run : first env with ⟨events, reason | value⟩
  · have whole : (first >>= next) env = (events, .error reason) := by rw [run_bind, run]
    refine ⟨fun other stopped => ?_, fun value ended => by rw [whole] at ended; cases ended⟩
    rw [whole] at stopped
    cases stopped
    exact .inl (quiet.error relied reason (by rw [run]))
  · have whole : (first >>= next) env = (events ++ (next value env).1, (next value env).2) := by
      rw [run_bind, run]
    have hidden := quiet.events relied
    rw [run] at hidden
    have unseen : observer.Same (events ++ (next value env).1) (next value env).1 := by
      have none : observer.Same events [] := .hidden hidden (by simp)
      exact none.append (.refl (next value env).1)
    have after := rest value (quiet.value relied value (by rw [run]))
    refine ⟨fun reason stopped => ?_, fun result ended => ?_⟩
    · rw [whole] at stopped ⊢
      exact (after.error reason stopped).imp_right fun ⟨run', same⟩ => ⟨run', unseen.trans same⟩
    · rw [whole] at ended ⊢
      obtain ⟨result', run', held, same⟩ := after.value result ended
      exact ⟨result', run', held, unseen.trans same⟩

theorem map {f : α → β} {f' : α' → β'} {action : Eval M E X α} {action' : Eval M E X α'}
    (refines : Refines observer env env' R action action')
    (values : ∀ value value', R value value' → S (f value) (f' value')) :
    Refines observer env env' S (f <$> action) (f' <$> action') := by
  rw [← bind_pure_comp, ← bind_pure_comp]
  exact bind refines fun value value' related => pure (values value value' related)

theorem mapM {f : γ → Eval M E X α} {f' : γ' → Eval M E X α'} (related : List.Forall₂ Q list list')
    (each : ∀ element element', Q element element' →
      Refines observer env env' R (f element) (f' element')) :
    Refines observer env env' (List.Forall₂ R) (list.mapM f) (list'.mapM f') := by
  induction related with
  | nil => exact pure .nil
  | cons head _ ih =>
    rw [List.mapM_cons, List.mapM_cons]
    refine bind (each _ _ head) fun first first' firstRelated => ?_
    exact bind ih fun rest rest' restRelated => pure (.cons firstRelated restRelated)

theorem foldlM {f : α → γ → Eval M E X α} {f' : α' → γ' → Eval M E X α'}
    (related : List.Forall₂ Q list list')
    (step : ∀ value value' element element', R value value' → Q element element' →
      Refines observer env env' R (f value element) (f' value' element')) :
    ∀ {start : α} {start' : α'}, R start start' →
      Refines observer env env' R (list.foldlM f start) (list'.foldlM f' start') := by
  induction related with
  | nil => exact pure
  | cons head _ ih =>
    intro start start' started
    rw [List.foldlM_cons, List.foldlM_cons]
    exact bind (step _ _ _ _ started head) fun _ _ => ih

theorem forM {f : γ → Eval M E X Unit} {f' : γ' → Eval M E X Unit}
    (related : List.Forall₂ Q list list') (each : ∀ element element', Q element element' →
      Refines observer env env' (fun _ _ => True) (f element) (f' element')) :
    Refines observer env env' (fun _ _ => True) (list.forM f) (list'.forM f') := by
  induction related with
  | nil => exact pure trivial
  | @cons element element' rest rest' head _ ih =>
    change Refines observer env env' (fun _ _ => True) (f element >>= fun _ => rest.forM f)
      (f' element' >>= fun _ => rest'.forM f')
    exact bind (each _ _ head) fun _ _ _ => ih

end Refines

end Eval

/-! ### Selections

A target may evaluate some elements of a list only, at other positions. -/

/-- `list'` has the elements of `list` that `mapping` keeps, in order, where the
positions start at `i` and at `j`.  `Q` relates a kept element to its image, `D`
holds of the elements that are left out. -/
inductive Selected {α α' : Type} (mapping : Nat → Option Nat) (Q : α → α' → Prop)
    (D : α → Prop) : Nat → Nat → List α → List α' → Prop
  | nil {i j : Nat} : Selected mapping Q D i j [] []
  | keep {i j : Nat} {element : α} {element' : α'} {rest : List α} {rest' : List α'}
      (kept : mapping i = some j) (related : Q element element')
      (tail : Selected mapping Q D (i + 1) (j + 1) rest rest') :
      Selected mapping Q D i j (element :: rest) (element' :: rest')
  | drop {i j : Nat} {element : α} {rest : List α} {rest' : List α'}
      (dropped : mapping i = none) (holds : D element)
      (tail : Selected mapping Q D (i + 1) j rest rest') :
      Selected mapping Q D i j (element :: rest) rest'

namespace Selected

variable {α α' β β' : Type} {mapping : Nat → Option Nat} {Q : α → α' → Prop} {D : α → Prop}
  {S : β → β' → Prop} {P : β → Prop}

variable {list : List α} {first' list' : List α'} {second' : List β'} {i j : Nat}

/-- Nothing is left out. -/
theorem ofForall₂ (related : List.Forall₂ Q list list') (i : Nat)
    : Selected some Q D i i list list' := by
  induction related generalizing i with
  | nil => exact .nil
  | cons head _ ih => exact .keep rfl head (ih (i + 1))

/-- An element is found at its new position. -/
theorem getElem? (selected : Selected mapping Q D i j list list')
    (injective : ∀ first second id, mapping first = some id → mapping second = some id →
      first = second) :
    ∀ (position position' : Nat), mapping (i + position) = some (j + position') →
      Option.Rel Q list[position]? list'[position']? := by
  induction selected with
  | nil => exact fun _ _ _ => .none
  | @keep i j element element' rest rest' kept related _ ih =>
    intro position position' mapped
    cases position with
    | zero =>
      obtain rfl : position' = 0 := by
        have := Option.some.inj (kept.symm.trans mapped)
        omega
      exact .some related
    | succ position =>
      cases position' with
      | zero =>
        have := injective _ _ _ kept mapped
        omega
      | succ position' =>
        exact ih position position' (by
          rw [Nat.add_right_comm, Nat.add_assoc i, mapped, Nat.add_right_comm, Nat.add_assoc j])
  | @drop i j element rest rest' dropped holds _ ih =>
    intro position position' mapped
    cases position with
    | zero => rw [Nat.add_zero, dropped] at mapped; cases mapped
    | succ position =>
      exact ih position position' (by rw [Nat.add_right_comm, Nat.add_assoc i, mapped])

/-- Two lists of one length of which the same positions are kept. -/
theorem zip {first : List α} {second : List β} (one : Selected mapping Q D i j first first')
    (two : Selected mapping S P i j second second') :
    Selected mapping (fun pair pair' => Q pair.1 pair'.1 ∧ S pair.2 pair'.2)
      (fun pair => D pair.1 ∧ P pair.2) i j (first.zip second) (first'.zip second') := by
  induction one generalizing second second' with
  | nil => simpa using .nil
  | @keep i j element element' rest rest' kept related _ ih =>
    cases two with
    | nil => simpa using .nil
    | keep _ related' tail => exact .keep kept ⟨related, related'⟩ (ih tail)
    | drop dropped => rw [kept] at dropped; cases dropped
  | @drop i j element rest rest' dropped holds _ ih =>
    cases two with
    | nil => simpa using .nil
    | keep kept => rw [dropped] at kept; cases kept
    | drop _ holds' tail => exact .drop dropped ⟨holds, holds'⟩ (ih tail)

theorem length {first : List α} {second : List β} (one : Selected mapping Q D i j first first')
    (two : Selected mapping S P i j second second') (same : first.length = second.length) :
    first'.length = second'.length := by
  induction one generalizing second second' with
  | nil =>
    cases two with
    | nil => rfl
    | keep | drop => simp at same
  | @keep i j element element' rest rest' kept related _ ih =>
    cases two with
    | nil => simp at same
    | keep _ _ tail => simpa using ih tail (by simpa using same)
    | drop dropped => rw [kept] at dropped; cases dropped
  | @drop i j element rest rest' dropped holds _ ih =>
    cases two with
    | nil => simp at same
    | keep kept => rw [dropped] at kept; cases kept
    | drop _ _ tail => exact ih tail (by simpa using same)

end Selected

/-- The positions are part of what is evaluated; an element that is left out is not
seen and only escapes. -/
theorem Eval.Refines.mapM_selected {M E X O β β' : Type} {observer : Observer E X O} {env env' : M}
    {mapping : Nat → Option Nat} {Q : α → α' → Prop} {D : α → Prop} {R : β → β' → Prop}
    {P : β → Prop} {i j : Nat} {list : List α} {list' : List α'} {f : α × Nat → Eval M E X β}
    {f' : α' × Nat → Eval M E X β'} (selected : Selected mapping Q D i j list list')
    (keep : ∀ element element' position position', mapping position = some position' →
      Q element element' → Refines observer env env' R (f (element, position))
        (f' (element', position')))
    (drop : ∀ element position, mapping position = none → D element →
      observer.Quiet env P (f (element, position))) :
    Refines observer env env' (Selected mapping R P i j) ((list.zipIdx i).mapM f)
      ((list'.zipIdx j).mapM f') := by
  induction selected with
  | nil => exact .pure .nil
  | keep kept related _ ih =>
    rw [List.zipIdx_cons, List.zipIdx_cons, List.mapM_cons, List.mapM_cons]
    refine .bind (keep _ _ _ _ kept related) fun value value' values => ?_
    exact .bind ih fun rest rest' rests => .pure (.keep kept values rests)
  | @drop i j element rest rest' dropped holds _ ih =>
    rw [List.zipIdx_cons, List.mapM_cons]
    refine .drop (drop element i dropped holds) fun value holds => ?_
    have after : Refines observer env env' (Selected mapping R P i j)
        ((fun rest => value :: rest) <$> (rest.zipIdx (i + 1)).mapM f)
        (id <$> (rest'.zipIdx j).mapM f') :=
      .map ih fun rest rest' rests => .drop dropped holds rests
    rw [id_map] at after
    simpa only [map_eq_pure_bind] using after

/-! ## Structured programs -/

/-- What relates the runs of two programs.  `states` and `values` are indexed by
the world, `stopped` relates states that a run can only be left in. -/
structure Simulation (W σ σ' V V' E : Type) where
  states : W → σ → σ' → Prop
  values : W → V → V' → Prop
  stopped : σ → σ' → Prop
  escapes : σ → E → Prop

namespace Simulation

variable {W σ σ' S S' C C' R R' V V' E : Type} [Preorder W]

/-- The end of a target run matches the end of a source run that started in the
world `world`. -/
inductive Ends (sim : Simulation W σ σ' V V' E) (world : W) :
    σ × Outcome V E → σ' × Outcome V' E → Prop
  | fall {later : W} {state : σ} {state' : σ'} (after : world ≤ later)
      (related : sim.states later state state') : Ends sim world (state, .fall) (state', .fall)
  | brk {later : W} {state : σ} {state' : σ'} (after : world ≤ later)
      (related : sim.states later state state') : Ends sim world (state, .brk) (state', .brk)
  | cont {later : W} {state : σ} {state' : σ'} (after : world ≤ later)
      (related : sim.states later state state') : Ends sim world (state, .cont) (state', .cont)
  | ret {later : W} {state : σ} {state' : σ'} {value : V} {value' : V'} (after : world ≤ later)
      (related : sim.states later state state') (returned : sim.values later value value') :
      Ends sim world (state, .ret value) (state', .ret value')
  | stop {state : σ} {state' : σ'} {reason : E} (related : sim.stopped state state') :
      Ends sim world (state, .stop reason) (state', .stop reason)
  | escape {state : σ} {reason : E} {run' : σ' × Outcome V' E}
      (escapes : sim.escapes state reason) :
      Ends sim world (state, .stop reason) run'

/-- From related states the target matches the source. -/
def Runs (sim : Simulation W σ σ' V V' E) (source : σ → σ × Outcome V E)
    (target : σ' → σ' × Outcome V' E) : Prop :=
  ∀ world state state', sim.states world state state' →
    sim.Ends world (source state) (target state')

variable {sim : Simulation W σ σ' V V' E}

variable {statement : Stm S C R} {world : W} {first rest : σ → σ × Outcome V E}
  {first' rest' : σ' → σ' × Outcome V' E}

theorem Ends.earlier {later : W} {run : σ × Outcome V E} {run' : σ' × Outcome V' E}
    (before : world ≤ later) (ends : sim.Ends later run run') : sim.Ends world run run' := by
  cases ends with
  | fall after related => exact .fall (le_trans before after) related
  | brk after related => exact .brk (le_trans before after) related
  | cont after related => exact .cont (le_trans before after) related
  | ret after related returned => exact .ret (le_trans before after) related returned
  | stop related => exact .stop related
  | escape escapes => exact .escape escapes

/-- The outcome of an operation. -/
def ofOp : σ × Option E → σ × Outcome V E
  | (state, none) => (state, .fall)
  | (state, some reason) => (state, .stop reason)

/-- The outcome of an evaluation that hands its value on to `next`. -/
def ofEval {α : Type} (next : α → σ → σ × Outcome V E) : σ × Except E α → σ × Outcome V E
  | (state, .ok value) => next value state
  | (state, .error reason) => (state, .stop reason)

/-- Evaluations match: they fail alike, or end with related values in related
states. -/
inductive EvalEnds (sim : Simulation W σ σ' V V' E) (world : W) {α α' : Type}
    (related : W → α → α' → Prop) : σ × Except E α → σ' × Except E α' → Prop
  | ok {later : W} {state : σ} {state' : σ'} {value : α} {value' : α'} (after : world ≤ later)
      (states : sim.states later state state') (values : related later value value') :
      EvalEnds sim world related (state, .ok value) (state', .ok value')
  | error {state : σ} {state' : σ'} {reason : E} (stopped : sim.stopped state state') :
      EvalEnds sim world related (state, .error reason) (state', .error reason)
  | escape {state : σ} {reason : E} {run' : σ' × Except E α'}
      (escapes : sim.escapes state reason) :
      EvalEnds sim world related (state, .error reason) run'

/-- What follows an evaluation matches if it does so for related values. -/
theorem EvalEnds.bind {α α' : Type} {related : W → α → α' → Prop} {run : σ × Except E α}
    {run' : σ' × Except E α'} (ends : sim.EvalEnds world related run run')
    {next : α → σ → σ × Outcome V E} {next' : α' → σ' → σ' × Outcome V' E}
    (rest : ∀ later state state' value value', world ≤ later → sim.states later state state' →
      related later value value' → sim.Ends later (next value state) (next' value' state')) :
    sim.Ends world (ofEval next run) (ofEval next' run') := by
  cases ends with
  | ok after states values => exact (rest _ _ _ _ _ after states values).earlier after
  | error stopped => exact .stop stopped
  | escape escapes => exact .escape escapes

/-- What two meanings have to agree on besides their atoms. -/
structure Agrees (sim : Simulation W σ σ' V V' E) (sem : Sem σ S C R V E)
    (sem' : Sem σ' S' C' R' V' E) : Prop where
  again : ∀ world entry entry' state state', sim.states world state state' →
    sim.states world (sem.again entry state) (sem'.again entry' state')
  spent : sem'.spent = sem.spent
  stopped : ∀ world state state', sim.states world state state' → sim.stopped state state'

variable {sem : Sem σ S C R V E} {sem' : Sem σ' S' C' R' V' E} {budget : Nat}

theorem exec_op (operation : S) (state : σ) :
    Stm.exec sem budget (.op operation) state = ofOp (sem.op operation state) := by
  unfold Stm.exec
  rcases sem.op operation state with ⟨next, _ | reason⟩ <;> rfl

theorem exec_ite (condition : C) (thenBlock elseBlock : List (Stm S C R)) (state : σ) :
    Stm.exec sem budget (.ite condition thenBlock elseBlock) state
      = ofEval (fun value => execBlock sem budget (if value then thenBlock else elseBlock))
        (sem.cond condition state) := by
  unfold Stm.exec
  rcases sem.cond condition state with ⟨next, reason | _ | _⟩ <;> rfl

theorem exec_ret (result : R) (state : σ) :
    Stm.exec sem budget (.ret result) state
      = ofEval (fun value state => (state, .ret value)) (sem.ret result state) := by
  unfold Stm.exec
  rcases sem.ret result state with ⟨next, reason | value⟩ <;> rfl

theorem runs_op {operation : S} {operation' : S'}
    (ops : ∀ world state state', sim.states world state state' →
      sim.Ends world (ofOp (sem.op operation state)) (ofOp (sem'.op operation' state'))) :
    sim.Runs (Stm.exec sem budget (.op operation)) (Stm.exec sem' budget (.op operation')) := by
  intro world state state' related
  rw [exec_op, exec_op]
  exact ops world state state' related

theorem runs_ite {condition : C} {condition' : C'} {thenBlock elseBlock : List (Stm S C R)}
    {thenBlock' elseBlock' : List (Stm S' C' R')}
    (conds : ∀ world state state', sim.states world state state' →
      sim.EvalEnds world (fun _ => Eq) (sem.cond condition state) (sem'.cond condition' state'))
    (thenRuns : sim.Runs (execBlock sem budget thenBlock) (execBlock sem' budget thenBlock'))
    (elseRuns : sim.Runs (execBlock sem budget elseBlock) (execBlock sem' budget elseBlock')) :
    sim.Runs (Stm.exec sem budget (.ite condition thenBlock elseBlock))
      (Stm.exec sem' budget (.ite condition' thenBlock' elseBlock')) := by
  intro world state state' related
  rw [exec_ite, exec_ite]
  refine (conds world state state' related).bind
    fun later state state' value value' _ states same => ?_
  subst same
  cases value with
  | true => exact thenRuns later state state' states
  | false => exact elseRuns later state state' states

theorem runs_ret {result : R} {result' : R'}
    (rets : ∀ world state state', sim.states world state state' →
      sim.EvalEnds world sim.values (sem.ret result state) (sem'.ret result' state')) :
    sim.Runs (Stm.exec sem budget (.ret result)) (Stm.exec sem' budget (.ret result')) := by
  intro world state state' related
  rw [exec_ret, exec_ret]
  exact (rets world state state' related).bind
    fun later state state' value value' _ states values => .ret le_rfl states values

theorem runs_brk : sim.Runs (Stm.exec sem budget .brk) (Stm.exec sem' budget .brk) :=
  fun _ _ _ related => .brk le_rfl related

theorem runs_cont : sim.Runs (Stm.exec sem budget .cont) (Stm.exec sem' budget .cont) :=
  fun _ _ _ related => .cont le_rfl related

theorem runs_nil : sim.Runs (execBlock sem budget []) (execBlock sem' budget []) :=
  fun _ _ _ related => .fall le_rfl related

/-- A run, and where it falls through what follows. -/
def andThen (first : σ → σ × Outcome V E) (rest : σ → σ × Outcome V E) (state : σ) :
    σ × Outcome V E :=
  match first state with
  | (next, .fall) => rest next
  | ended => ended

theorem execBlock_cons (statement : Stm S C R) (rest : List (Stm S C R)) :
    execBlock sem budget (statement :: rest)
      = andThen (Stm.exec sem budget statement) (execBlock sem budget rest) := by
  funext state
  rw [execBlock, andThen]
  rcases Stm.exec sem budget statement state with ⟨next, outcome⟩
  cases outcome <;> rfl

@[simp] theorem execBlock_singleton (statement : Stm S C R) :
    execBlock sem budget [statement] = Stm.exec sem budget statement := by
  funext state
  rw [execBlock_cons, andThen]
  rcases Stm.exec sem budget statement state with ⟨next, outcome⟩
  cases outcome <;> rfl

theorem execBlock_append (first rest : List (Stm S C R)) :
    execBlock sem budget (first ++ rest)
      = andThen (execBlock sem budget first) (execBlock sem budget rest) := by
  induction first with
  | nil => rfl
  | cons statement first ih =>
    rw [List.cons_append, execBlock_cons, execBlock_cons, ih]
    funext state
    unfold andThen
    rcases Stm.exec sem budget statement state with ⟨next, outcome⟩
    cases outcome <;> rfl

theorem Ends.andThen {state : σ} {state' : σ'} (head : sim.Ends world (first state) (first' state'))
    (tail : ∀ later next next', world ≤ later → sim.states later next next' →
      sim.Ends later (rest next) (rest' next')) :
    sim.Ends world (Simulation.andThen first rest state)
      (Simulation.andThen first' rest' state') := by
  unfold Simulation.andThen
  generalize first state = run at head
  generalize first' state' = run' at head
  cases head with
  | fall after states => exact (tail _ _ _ after states).earlier after
  | brk after states => exact .brk after states
  | cont after states => exact .cont after states
  | ret after states values => exact .ret after states values
  | stop stopped => exact .stop stopped
  | escape escapes => exact .escape escapes

theorem runs_andThen (head : sim.Runs first first') (tail : sim.Runs rest rest') :
    sim.Runs (Simulation.andThen first rest) (Simulation.andThen first' rest') :=
  fun world state state' related => (head world state state' related).andThen
    fun later next next' _ states => tail later next next' states

theorem runs_cons {statement' : Stm S' C' R'} {rest : List (Stm S C R)}
    {rest' : List (Stm S' C' R')}
    (head : sim.Runs (Stm.exec sem budget statement) (Stm.exec sem' budget statement'))
    (tail : sim.Runs (execBlock sem budget rest) (execBlock sem' budget rest')) :
    sim.Runs (execBlock sem budget (statement :: rest))
      (execBlock sem' budget (statement' :: rest')) := by
  rw [execBlock_cons, execBlock_cons]
  exact runs_andThen head tail

/-- The target may leave out a statement that changes nothing related. -/
theorem runs_skip {rest : List (Stm S C R)} {target : σ' → σ' × Outcome V' E}
    (head : sim.Runs (Stm.exec sem budget statement) fun state' => (state', .fall))
    (tail : sim.Runs (execBlock sem budget rest) target) :
    sim.Runs (execBlock sem budget (statement :: rest)) target := by
  rw [execBlock_cons]
  exact runs_andThen head tail

/-- Loops with the same budget repeat together. -/
theorem runs_loop (agrees : sim.Agrees sem sem') {body : List (Stm S C R)}
    {body' : List (Stm S' C' R')}
    (bodyRuns : sim.Runs (execBlock sem budget body) (execBlock sem' budget body')) :
    sim.Runs (Stm.exec sem budget (.loop body)) (Stm.exec sem' budget (.loop body')) := by
  have passes : ∀ (passes : Nat) (entry : σ) (entry' : σ'),
      sim.Runs (iterate sem.spent (sem.again entry) (execBlock sem budget body) passes)
        (iterate sem'.spent (sem'.again entry') (execBlock sem' budget body') passes) := by
    intro passes entry entry'
    induction passes with
    | zero =>
      intro world state state' related
      rw [iterate, iterate, agrees.spent]
      exact .stop (agrees.stopped world state state' related)
    | succ passes ih =>
      intro world state state' related
      have ends := bodyRuns world state state' related
      rw [iterate, iterate]
      generalize execBlock sem budget body state = run at ends
      generalize execBlock sem' budget body' state' = run' at ends
      cases ends with
      | fall after states | cont after states =>
        exact (ih _ _ _ (agrees.again _ entry entry' _ _ states)).earlier after
      | brk after states => exact .fall after states
      | ret after states values => exact .ret after states values
      | stop stopped => exact .stop stopped
      | escape escapes => exact .escape escapes
  intro world state state' related
  unfold Stm.exec
  exact passes budget state state' world state state' related

end Simulation

end Structured
