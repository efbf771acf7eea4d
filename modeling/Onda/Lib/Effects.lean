import Mathlib.Data.List.Basic

/-!
# Calls that change a state and may fail

A call takes a state to a result or an error, and to a state.  The state survives an error:
what a failing call has already changed stays changed, as in a method with a mutable receiver
that returns a `Result`.

`Holds` is the triple for such calls, with one postcondition for results and one for errors.
-/

namespace Effects

/-- A call on a state `σ` with results in `α` and errors in `ε`. -/
def Call (σ ε α : Type) := σ → Except ε α × σ

namespace Call

variable {σ τ ε α β : Type}

instance : Monad (Call σ ε) where
  pure value := fun state => (.ok value, state)
  bind first next := fun state =>
    match first state with
    | (.ok value, state') => next value state'
    | (.error error, state') => (.error error, state')

/-- Ends with an error. -/
def fail (error : ε) : Call σ ε α := fun state => (.error error, state)

/-- Reads from the state. -/
def read (view : σ → α) : Call σ ε α := fun state => (.ok (view state), state)

/-- Changes the state. -/
def update (change : σ → σ) : Call σ ε Unit := fun state => (.ok (), change state)

/-- A result that does not depend on the state. -/
def lift (result : Except ε α) : Call σ ε α := fun state => (result, state)

/-- Fails if the test for a refusal is true. -/
def refuseIf (refused : Prop) [Decidable refused] (error : ε) : Call σ ε Unit :=
  if refused then fail error else pure ()

/-- A call on a component of the state. -/
def within (get : σ → τ) (put : τ → σ → σ) (call : Call τ ε α) : Call σ ε α := fun state =>
  ((call (get state)).1, put (call (get state)).2 state)

/-- A call on each element in order. -/
def each (call : α → Call σ ε Unit) : List α → Call σ ε Unit
  | [] => pure ()
  | item :: items => do
    call item
    each call items

end Call

/-- A sequence of checks that succeeds passed its first one. -/
theorem ok_of_bind {ε α β : Type} {first : Except ε α} {next : α → Except ε β} {result : β}
    (succeeds : first >>= next = .ok result) :
    ∃ value, first = .ok value ∧ next value = .ok result := by
  cases first with
  | error error => cases succeeds
  | ok value => exact ⟨value, rfl, succeeds⟩

/-! ### Triples -/

section Triples

variable {σ τ ε α β : Type} {P P' : σ → Prop} {Q : α → σ → Prop} {F : ε → σ → Prop}

/-- Called in a state with `P`, the call gives a result with `Q` or an error with `F`. -/
def Holds (P : σ → Prop) (call : Call σ ε α) (Q : α → σ → Prop) (F : ε → σ → Prop) : Prop :=
  ∀ state, P state →
    (∀ value, (call state).1 = .ok value → Q value (call state).2) ∧
      ∀ error, (call state).1 = .error error → F error (call state).2

theorem Holds.pure {value : α} (holds : ∀ state, P state → Q value state) :
    Holds P (pure value : Call σ ε α) Q F := by
  intro state before
  refine ⟨?_, fun error failed => (by cases failed)⟩
  intro value' same
  obtain rfl := Except.ok.inj same
  exact holds state before

variable {call first : Call σ ε α} {refused : Prop} {next : α → Call σ ε β} {error : ε}
  {state state' : σ}

theorem Holds.fail (holds : ∀ state, P state → F error state) :
    Holds P (Call.fail error : Call σ ε α) Q F := by
  intro state before
  refine ⟨fun value same => (by cases same), ?_⟩
  intro error' same
  obtain rfl := Except.error.inj same
  exact holds state before

theorem Holds.update {change : σ → σ} {Q : Unit → σ → Prop}
    (holds : ∀ state, P state → Q () (change state)) : Holds P (Call.update change) Q F :=
  fun state before => ⟨fun _ _ => holds state before, fun error failed => (by cases failed)⟩

theorem Holds.read {view : σ → α} (holds : ∀ state, P state → Q (view state) state) :
    Holds P (Call.read view) Q F := by
  intro state before
  refine ⟨?_, fun error failed => (by cases failed)⟩
  intro value same
  obtain rfl := Except.ok.inj same
  exact holds state before

theorem Holds.lift {result : Except ε α} (ok : ∀ value, result = .ok value → ∀ state, P state →
    Q value state) (failed : ∀ error, result = .error error → ∀ state, P state → F error state) :
    Holds P (Call.lift result) Q F :=
  fun state before =>
    ⟨fun value same => ok value same state before, fun error same => failed error same state before⟩

theorem Call.bind_ok {value : α} (run : first state = (.ok value, state'))
    : (first >>= next) state = next value state' := by
  show (match first state with
    | (.ok value, state') => next value state'
    | (.error error, state') => (.error error, state')) = _
  rw [run]

theorem Call.bind_error (run : first state = (.error error, state')) :
    (first >>= next) state = (.error error, state') := by
  show (match first state with
    | (.ok value, state') => next value state'
    | (.error error, state') => (.error error, state')) = _
  rw [run]

/-- A call that reads first. -/
theorem Call.read_bind (view : σ → α) (next : α → Call σ ε β) (state : σ) :
    (Call.read view >>= next) state = next (view state) state :=
  rfl

/-- Calls that begin alike and go on alike. -/
theorem Call.bind_eq {first' : Call σ ε α} (begins : first state = first' state')
    (next : α → Call σ ε β) :
    (first >>= next) state = (first' >>= next) state' := by
  show (match first state with
    | (.ok value, state') => next value state'
    | (.error error, state') => (.error error, state')) = _
  rw [begins]
  rfl

theorem Call.refuseIf_refused [Decidable refused] (test : refused) (error : ε) (state : σ)
    : Call.refuseIf refused error state = (.error error, state) := by
  rw [Call.refuseIf, if_pos test]
  rfl

theorem Call.refuseIf_passed [Decidable refused] (test : ¬refused) (error : ε) (state : σ)
    : Call.refuseIf refused error state = (.ok (), state) := by
  rw [Call.refuseIf, if_neg test]
  rfl

/-- One call after another. -/
theorem Holds.bind {R : β → σ → Prop} (begins : Holds P first Q F)
    (continues : ∀ value, Holds (Q value) (next value) R F) :
    Holds P (first >>= next) R F := by
  intro state before
  obtain ⟨ok, failed⟩ := begins state before
  rcases run : first state with ⟨result, state'⟩
  rw [run] at ok failed
  cases result with
  | ok value =>
    rw [Call.bind_ok run]
    exact continues value state' (ok value rfl)
  | error error =>
    rw [Call.bind_error run]
    refine ⟨fun value same => (by cases same), ?_⟩
    intro error' same
    obtain rfl := Except.error.inj same
    exact failed error rfl

theorem Holds.imp {Q' : α → σ → Prop} {F' : ε → σ → Prop} (holds : Holds P call Q F)
    (before : ∀ state, P' state → P state) (ok : ∀ value state, Q value state → Q' value state)
    (failed : ∀ error state, F error state → F' error state) : Holds P' call Q' F' := by
  intro state begun
  obtain ⟨results, errors⟩ := holds state (before state begun)
  exact ⟨fun value same => ok _ _ (results value same),
    fun error same => failed _ _ (errors error same)⟩

theorem Holds.refuseIf [Decidable refused] {Q : Unit → σ → Prop}
    (passes : ¬refused → ∀ state, P state → Q () state)
    (fails : refused → ∀ state, P state → F error state) :
    Holds P (Call.refuseIf refused error) Q F := by
  unfold Call.refuseIf
  by_cases test : refused
  · rw [if_pos test]
    exact Holds.fail (fails test)
  · rw [if_neg test]
    exact Holds.pure (passes test)

theorem Holds.ite {test : Prop} [Decidable test] {yes no : Call σ ε α}
    (holdsYes : test → Holds P yes Q F) (holdsNo : ¬test → Holds P no Q F) :
    Holds P (if test then yes else no) Q F := by
  by_cases here : test
  · rw [if_pos here]
    exact holdsYes here
  · rw [if_neg here]
    exact holdsNo here

/-- A triple for each state. -/
theorem Holds.of_state (holds : ∀ state, P state → ∃ P' : σ → Prop, P' state ∧ Holds P' call Q F)
    : Holds P call Q F := by
  intro state before
  obtain ⟨P', here, holds⟩ := holds state before
  exact holds state here

/-- What is known of a component holds of the state around it. -/
theorem Holds.within {get : σ → τ} {put : τ → σ → σ} {call : Call τ ε α} {P' : τ → Prop}
    {Q' : α → τ → Prop} {F' : ε → τ → Prop} (holds : Holds P' call Q' F')
    (before : ∀ state, P state → P' (get state))
    (ok : ∀ state value part, P state → Q' value part → Q value (put part state))
    (failed : ∀ state error part, P state → F' error part → F error (put part state)) :
    Holds P (Call.within get put call) Q F := by
  intro state begun
  obtain ⟨results, errors⟩ := holds (get state) (before state begun)
  exact ⟨fun value same => ok _ _ _ begun (results value same),
    fun error same => failed _ _ _ begun (errors error same)⟩

/-- A condition that each call of a row keeps. -/
theorem Holds.each {call : α → Call σ ε Unit} {items : List α}
    (holds : ∀ item ∈ items, Holds P (call item) (fun _ => P) F) :
    Holds P (Call.each call items) (fun _ => P) F := by
  induction items with
  | nil => exact Holds.pure fun _ before => before
  | cons item items ih =>
    exact Holds.bind (holds item (by simp)) fun _ => ih fun item mem => holds item (by simp [mem])

end Triples

end Effects
