import Mathlib.Data.List.Forall2
import Mathlib.Tactic.Common

/-!
# Observed evaluation

`Eval M E X α` reads an environment of type `M` it cannot change, emits events
of type `E` in order and ends with a value or an error of type `X`.  It is the
evaluation half of an operation: what is read and in which order, before
anything is written.

`Sat` is its logic: a triple of conditions on the events, the error and the
value.  The rules follow the constructors, so a proof about a `do` block walks
down the block.
-/

namespace Structured

/-- Related lists: every element on the right is related to one on the left. -/
theorem exists_of_forall₂_mem {α β : Type} {R : α → β → Prop} {left : List α}
    {right : List β} {element : β} (related : List.Forall₂ R left right)
    (mem : element ∈ right) : ∃ source ∈ left, R source element := by
  induction related with
  | nil => simp at mem
  | cons head _ ih =>
    rcases List.mem_cons.mp mem with rfl | later
    · exact ⟨_, by simp, head⟩
    · obtain ⟨source, memLeft, holds⟩ := ih later
      exact ⟨source, by simp [memLeft], holds⟩

/-- Every element of a mapped list is the image of its own element. -/
theorem forall₂_of_mapM {α β : Type} {f : α → Option β} {list : List α} {results : List β}
    (mapped : list.mapM f = some results) :
    List.Forall₂ (fun element result => f element = some result) list results := by
  induction list generalizing results with
  | nil => cases mapped; exact .nil
  | cons head tail ih =>
    simp only [List.mapM_cons, Option.bind_eq_bind, Option.bind_eq_some_iff, Option.pure_def,
      Option.some.injEq] at mapped
    obtain ⟨first, found, rest, mappedRest, rfl⟩ := mapped
    exact .cons found (ih mappedRest)

/-- A computation that reads `M`, emits `E`s and may fail with `X`. -/
def Eval (M E X α : Type) : Type := M → List E × Except X α

namespace Eval

variable {M E X α β : Type}

def pure (value : α) : Eval M E X α := fun _ => ([], .ok value)

def bind (first : Eval M E X α) (next : α → Eval M E X β) : Eval M E X β := fun env =>
  match first env with
  | (events, .ok value) => (events ++ (next value env).1, (next value env).2)
  | (events, .error error) => (events, .error error)

instance : Monad (Eval M E X) where
  pure := Eval.pure
  bind := Eval.bind

/-- Fails without an event. -/
def throw (error : X) : Eval M E X α := fun _ => ([], .error error)

/-- Reads the environment. -/
def ask : Eval M E X M := fun env => ([], .ok env)

def emit (event : E) : Eval M E X Unit := fun _ => ([event], .ok ())

/-- The value of an option, or `error`. -/
def orThrow (error : X) : Option α → Eval M E X α
  | some value => Eval.pure value
  | none => throw error

/-- `action` under a condition that has to hold. -/
def require (condition : Bool) (error : X) : Eval M E X Unit :=
  if condition then Eval.pure () else throw error

/-! ### Running -/

@[simp] theorem run_pure (value : α) (env : M) :
    (Pure.pure value : Eval M E X α) env = ([], .ok value) := rfl

@[simp] theorem run_throw (error : X) (env : M) :
    (throw error : Eval M E X α) env = ([], .error error) := rfl

theorem run_bind (first : Eval M E X α) (next : α → Eval M E X β) (env : M) :
    (first >>= next) env =
      match first env with
      | (events, .ok value) => (events ++ (next value env).1, (next value env).2)
      | (events, .error error) => (events, .error error) := rfl

/-- A successful sequence splits into its two successful halves. -/
theorem bind_ok {first : Eval M E X α} {next : α → Eval M E X β} {env : M} {value : β}
    (run : ((first >>= next) env).2 = .ok value) :
    ∃ middle, (first env).2 = .ok middle ∧ (next middle env).2 = .ok value := by
  rw [run_bind] at run
  rcases head : first env with ⟨events, result⟩
  rw [head] at run
  cases result with
  | ok middle => exact ⟨middle, rfl, run⟩
  | error error => simp at run

private theorem bind_assoc {γ : Type} (action : Eval M E X α) (next : α → Eval M E X β)
    (last : β → Eval M E X γ) :
    action >>= next >>= last = action >>= fun value => next value >>= last := by
  funext env
  rcases run : action env with ⟨events, _ | value⟩
  · simp [run_bind, run]
  · rcases middle : next value env with ⟨more, _ | result⟩ <;>
      simp [run_bind, run, middle]

private theorem map_id (action : Eval M E X α) : id <$> action = action := by
  funext env
  rcases run : action env with ⟨events, _ | value⟩ <;>
    simp [Functor.map, Eval.bind, Eval.pure, run]

private theorem pure_bind (value : α) (next : α → Eval M E X β) :
    (Pure.pure value >>= next) = next value := by
  funext env
  simp [run_bind]

instance : LawfulMonad (Eval M E X) := LawfulMonad.mk' _ map_id pure_bind bind_assoc

/-! ### The logic -/

/-- If every event of `action` satisfies `rely`, then every event satisfies
`guarantee`, an error satisfies `R` and a value satisfies `Q`. -/
structure Sat (env : M) (rely guarantee : E → Prop) (R : X → Prop) (Q : α → Prop)
    (action : Eval M E X α) : Prop where
  events : (∀ event ∈ (action env).1, rely event) →
    ∀ event ∈ (action env).1, guarantee event
  error : (∀ event ∈ (action env).1, rely event) →
    ∀ error, (action env).2 = .error error → R error
  value : (∀ event ∈ (action env).1, rely event) →
    ∀ value, (action env).2 = .ok value → Q value

/-- A condition on the value alone. -/
def Returns (env : M) (Q : α → Prop) (action : Eval M E X α) : Prop :=
  ∀ value, (action env).2 = .ok value → Q value

section Rules

variable {env : M} {rely guarantee : E → Prop} {R : X → Prop} {Q Q' : α → Prop}

namespace Sat

variable {action : Eval M E X α} {γ : Type} {list : List γ} {error : X}

/-- Only the condition on the value changes. -/
theorem mono (sat : Sat env rely guarantee R Q action) (values : ∀ value, Q value → Q' value)
    : Sat env rely guarantee R Q' action :=
  ⟨sat.events, sat.error, fun relied value run => values value (sat.value relied value run)⟩

theorem pure {value : α} (holds : Q value) :
    Sat env rely guarantee R Q (Pure.pure value : Eval M E X α) :=
  ⟨by simp, by simp, by rintro _ _ ⟨⟩; exact holds⟩

theorem throw (allowed : R error) :
    Sat env rely guarantee R Q (Eval.throw error : Eval M E X α) :=
  ⟨by simp, by rintro _ _ ⟨⟩; exact allowed, by simp⟩

theorem ask : Sat env rely guarantee R (fun value => value = env)
    (Eval.ask : Eval M E X M) :=
  ⟨by simp [Eval.ask], by simp [Eval.ask], by rintro _ _ ⟨⟩; rfl⟩

/-- What is relied on for an emitted event is known afterwards. -/
theorem emit {event : E} (allowed : rely event → guarantee event) :
    Sat env rely guarantee R (fun _ => rely event)
      (Eval.emit event : Eval M E X Unit) :=
  ⟨by simpa [Eval.emit] using allowed, by simp [Eval.emit],
    by simp [Eval.emit]⟩

theorem orThrow {option : Option α} (allowed : option = none → R error) :
    Sat env rely guarantee R (fun value => option = some value)
      (Eval.orThrow error option : Eval M E X α) := by
  cases option with
  | none => exact throw (allowed rfl)
  | some value => exact pure rfl

theorem require {condition : Bool} (allowed : condition = false → R error) :
    Sat env rely guarantee R (fun _ => condition = true)
      (Eval.require condition error : Eval M E X Unit) := by
  cases condition with
  | false => exact throw (allowed rfl)
  | true => exact pure rfl

theorem bind {first : Eval M E X α} {next : α → Eval M E X β} {Q' : β → Prop}
    (head : Sat env rely guarantee R Q first)
    (tail : ∀ value, Q value → Sat env rely guarantee R Q' (next value)) :
    Sat env rely guarantee R Q' (first >>= next) := by
  rcases run : first env with ⟨events, error | value⟩
  · -- The sequence ends with the error of its first half.
    have whole : (first >>= next) env = (events, .error error) := by rw [run_bind, run]
    refine ⟨?_, ?_, ?_⟩ <;> rw [whole] <;> intro relied
    · simpa only [run] using head.events (by simpa only [run] using relied)
    · intro other same
      obtain rfl : error = other := by simpa using same
      exact head.error (by simpa only [run] using relied) error (by rw [run])
    · simp
  · have whole : (first >>= next) env
        = (events ++ (next value env).1, (next value env).2) := by rw [run_bind, run]
    have early (relied : ∀ event ∈ events ++ (next value env).1, rely event) :
        ∀ event ∈ (first env).1, rely event := by
      intro event mem
      exact relied event (List.mem_append_left _ (by rwa [run] at mem))
    have late (relied : ∀ event ∈ events ++ (next value env).1, rely event) :
        ∀ event ∈ (next value env).1, rely event := fun event mem =>
      relied event (List.mem_append_right _ mem)
    have rest (relied : ∀ event ∈ events ++ (next value env).1, rely event) :
        Sat env rely guarantee R Q' (next value) :=
      tail value (head.value (early relied) value (by rw [run]))
    refine ⟨?_, ?_, ?_⟩ <;> rw [whole] <;> intro relied
    · intro event mem
      rcases List.mem_append.mp mem with first | second
      · exact head.events (early relied) event (by rwa [run])
      · exact (rest relied).events (late relied) event second
    · exact (rest relied).error (late relied)
    · exact (rest relied).value (late relied)

/-- The elements of a list are evaluated in order; every result keeps the
condition of its element. -/
theorem mapM {f : γ → Eval M E X α} {Q : γ → α → Prop}
    (each : ∀ element ∈ list, Sat env rely guarantee R (Q element) (f element)) :
    Sat env rely guarantee R (fun results => List.Forall₂ Q list results)
      (list.mapM f) := by
  induction list with
  | nil => exact pure List.Forall₂.nil
  | cons head tail ih =>
    rw [List.mapM_cons]
    refine bind (each head (by simp)) fun first holds => ?_
    refine bind (ih fun element mem => each element (by simp [mem])) fun rest all => ?_
    exact pure (List.Forall₂.cons holds all)

theorem foldlM {f : α → γ → Eval M E X α} {start : α} (holds : Q start)
    (step : ∀ value element, element ∈ list → Q value →
      Sat env rely guarantee R Q (f value element)) :
    Sat env rely guarantee R Q (list.foldlM f start) := by
  induction list generalizing start with
  | nil => simpa using pure holds
  | cons head tail ih =>
    rw [List.foldlM_cons]
    refine bind (step start head (by simp) holds) fun value kept => ?_
    exact ih kept fun value element mem => step value element (by simp [mem])

theorem map {f : α → β} {Q' : β → Prop} (sat : Sat env rely guarantee R Q action)
    (values : ∀ value, Q value → Q' (f value)) :
    Sat env rely guarantee R Q' (f <$> action) := by
  rw [← bind_pure_comp]
  exact bind sat fun value holds => pure (values value holds)

/-- What is known of the value is added to a condition on the other parts. -/
theorem combine (sat : Sat env rely guarantee R (fun _ => True) action)
    (known : Returns env Q action) :
    Sat env rely guarantee R Q action :=
  ⟨sat.events, sat.error, fun _ => known⟩

end Sat

namespace Returns

variable {action : Eval M E X α} {error : X}

theorem mono (returns : Returns env Q action) (values : ∀ value, Q value → Q' value)
    : Returns env Q' action :=
  fun value run => values value (returns value run)

theorem any : Returns env (fun _ => True) action :=
  fun _ _ => trivial

/-- A value that is returned is the value that is returned. -/
theorem self :
    Returns env (fun value => (action env).2 = .ok value) action :=
  fun _ run => run

theorem pure {value : α} (holds : Q value) :
    Returns env Q (Pure.pure value : Eval M E X α) := by
  rintro _ ⟨⟩
  exact holds

theorem throw : Returns env Q (Eval.throw error : Eval M E X α) := by
  rintro _ ⟨⟩

theorem ask : Returns env (fun value => value = env) (Eval.ask : Eval M E X M) := by
  rintro _ ⟨⟩
  rfl

theorem orThrow {option : Option α} :
    Returns env (fun value => option = some value)
      (Eval.orThrow error option : Eval M E X α) := by
  cases option with
  | none => exact throw
  | some value => exact pure rfl

theorem require {condition : Bool} :
    Returns env (fun _ => condition = true)
      (Eval.require condition error : Eval M E X Unit) := by
  cases condition with
  | false => exact throw
  | true => exact pure rfl

theorem bind {first : Eval M E X α} {next : α → Eval M E X β} {Q' : β → Prop}
    (head : Returns env Q first) (tail : ∀ value, Q value → Returns env Q' (next value)) :
    Returns env Q' (first >>= next) := by
  intro value run
  obtain ⟨middle, early, late⟩ := bind_ok run
  exact tail middle (head middle early) value late

theorem mapM {γ : Type} {list : List γ} {f : γ → Eval M E X α} {Q : γ → α → Prop}
    (each : ∀ element ∈ list, Returns env (Q element) (f element)) :
    Returns env (fun results => List.Forall₂ Q list results) (list.mapM f) := by
  induction list with
  | nil => exact pure List.Forall₂.nil
  | cons head tail ih =>
    rw [List.mapM_cons]
    refine bind (each head (by simp)) fun first holds => ?_
    refine bind (ih fun element mem => each element (by simp [mem])) fun rest all => ?_
    exact pure (List.Forall₂.cons holds all)

theorem foldlM {γ : Type} {list : List γ} {f : α → γ → Eval M E X α} {start : α}
    (holds : Q start)
    (step : ∀ value element, element ∈ list → Q value →
      Returns env Q (f value element)) :
    Returns env Q (list.foldlM f start) := by
  induction list generalizing start with
  | nil => simpa using pure holds
  | cons head tail ih =>
    rw [List.foldlM_cons]
    refine bind (step start head (by simp) holds) fun value kept => ?_
    exact ih kept fun value element mem => step value element (by simp [mem])

end Returns

end Rules

end Eval

end Structured
