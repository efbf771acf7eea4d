import Onda.Mir.History
import Onda.Mir.Validate.Facts

/-!
# Runs against the assignment checker

A relation between what the checker believes and the state of a run that every
operation maintains is maintained by a whole run.  The checker visits a loop body
once, so the relation has to survive a repetition by itself: `AssignmentSound.again`
is the one obligation that is not about a single operation.
-/

namespace Onda.Mir

open Structured Validate

namespace Validate

/-! ### Sizes of assignment states -/

section Sizes

variable {program : Program} {function : Function}

@[simp] theorem updateLocal_length (state : AssignmentState) (localId : LocalId)
    (update : LocalInitialization → LocalInitialization) :
    (updateLocal state localId update).length = state.length := by
  simp [updateLocal]

@[simp] theorem assignmentWriteLocal_length (localId : LocalId) (processFrame : Bool)
    (state : AssignmentState) :
    (assignmentWriteLocal localId processFrame state).length = state.length :=
  updateLocal_length ..

@[simp] theorem assignmentWritePlace_length (place : Place) (processFrame : Bool)
    (state : AssignmentState) :
    (assignmentWritePlace program function place processFrame state).length =
      state.length := by
  unfold assignmentWritePlace
  split
  · split <;> simp
  · rfl

theorem assignmentWriteFullSlice_length (slice : Value) (state : AssignmentState) :
    (assignmentWriteFullSlice slice state).length = state.length := by
  unfold assignmentWriteFullSlice
  split
  · split <;> simp
  · rfl

theorem assignmentWriteArgument_length (state : AssignmentState)
    (argument : CallArgument × FunctionParam) :
    (assignmentWriteArgument program function state argument).length = state.length := by
  unfold assignmentWriteArgument assignmentInvalidateReadWriteArgument
  split
  · simp
  · split <;> simp
  · rfl

theorem foldl_length {α : Type} {step : AssignmentState → α → AssignmentState}
    (keeps : ∀ state element, (step state element).length = state.length)
    (elements : List α) (state : AssignmentState) :
    (elements.foldl step state).length = state.length := by
  induction elements generalizing state with
  | nil => rfl
  | cons element rest ih => rw [List.foldl_cons, ih, keeps]

theorem validateAssignmentStatement_length (operation : Operation)
    (state : AssignmentState) :
    (validateAssignmentStatement program function operation state).2.length =
      state.length := by
  cases operation with
  | assign destination value =>
    simp only [validateAssignmentStatement, assignmentAssign]
    split <;> simp
  | call results callee args =>
    simp only [validateAssignmentStatement]
    rw [foldl_length fun state result => assignmentWriteLocal_length result false state,
      foldl_length fun state argument => assignmentWriteArgument_length state argument]
  | sliceFill destination value => exact assignmentWriteFullSlice_length destination state
  | sliceCopy copies preflight =>
    exact foldl_length (fun state copy =>
      assignmentWriteFullSlice_length copy.destination state) copies state
  | _ => rfl

theorem intersect_length {lhs rhs : AssignmentState} {size : Nat}
    (left : lhs.length = size) (right : rhs.length = size) :
    (intersectTwoAssignmentStates program function lhs rhs).length = size := by
  simp [intersectTwoAssignmentStates, left, right]

/-- Every state of a flow has an entry for each of `size` locals. -/
structure AssignmentFlow.Sized (size : Nat) (flow : AssignmentFlow) : Prop where
  fall : ∀ state, flow.fallthrough = some state → state.length = size
  brk : ∀ state ∈ flow.breaks, state.length = size
  cont : ∀ state ∈ flow.continues, state.length = size

mutual

theorem validateAssignmentFlow_sized : ∀ (statement : Statement) (state : AssignmentState),
    (validateAssignmentFlow program function statement state).2.Sized state.length
  | .op operation, state => by
    refine ⟨fun next falls => ?_, by simp [validateAssignmentFlow],
      by simp [validateAssignmentFlow]⟩
    simp only [validateAssignmentFlow, Option.some.injEq] at falls
    rw [← falls]
    exact validateAssignmentStatement_length operation state
  | .ite condition thenBlock elseBlock, state => by
    have thenSized := validateAssignmentBlock_sized thenBlock state
    have elseSized := validateAssignmentBlock_sized elseBlock state
    refine ⟨fun next falls => ?_, fun next mem => ?_, fun next mem => ?_⟩
    · simp only [validateAssignmentFlow] at falls
      revert falls
      generalize atThen : (validateAssignmentBlock program function thenBlock
        state).2.fallthrough = left
      generalize atElse : (validateAssignmentBlock program function elseBlock
        state).2.fallthrough = right
      intro falls
      cases left with
      | none =>
        cases right with
        | none => simp [mergeAssignmentFallthrough] at falls
        | some right =>
          obtain rfl := Option.some.inj falls
          exact elseSized.fall _ atElse
      | some left =>
        cases right with
        | none =>
          obtain rfl := Option.some.inj falls
          exact thenSized.fall _ atThen
        | some right =>
          obtain rfl := Option.some.inj falls
          exact intersect_length (thenSized.fall _ atThen) (elseSized.fall _ atElse)
    · exact (List.mem_append.mp mem).elim (thenSized.brk next) (elseSized.brk next)
    · exact (List.mem_append.mp mem).elim (thenSized.cont next) (elseSized.cont next)
  | .loop body, state => by
    have sized := validateAssignmentBlock_sized body state
    refine ⟨fun next falls => ?_, by simp [validateAssignmentFlow],
      by simp [validateAssignmentFlow]⟩
    simp only [validateAssignmentFlow] at falls
    have breaks := sized.brk
    revert falls breaks
    generalize (validateAssignmentBlock program function body state).2.breaks = breaks
    intro falls each
    cases breaks with
    | nil => simp [intersectAssignmentStates] at falls
    | cons first rest =>
      obtain rfl := Option.some.inj falls
      have joined : ∀ (rest : List AssignmentState) (first : AssignmentState),
          first.length = state.length → (∀ other ∈ rest, other.length = state.length) →
          (rest.foldl (intersectTwoAssignmentStates program function) first).length =
            state.length := by
        intro rest
        induction rest with
        | nil => exact fun _ same _ => same
        | cons other rest ih =>
          intro first same all
          exact ih _ (intersect_length same (all other (by simp)))
            fun state mem => all state (by simp [mem])
      exact joined rest first (each first (by simp)) fun other mem => each other (by simp [mem])
  | .brk, state => ⟨by simp [validateAssignmentFlow], by simp [validateAssignmentFlow],
      by simp [validateAssignmentFlow]⟩
  | .cont, state => ⟨by simp [validateAssignmentFlow], by simp [validateAssignmentFlow],
      by simp [validateAssignmentFlow]⟩
  | .ret values, state => ⟨by simp [validateAssignmentFlow], by simp [validateAssignmentFlow],
      by simp [validateAssignmentFlow]⟩

theorem validateAssignmentBlock_sized : ∀ (block : List Statement) (state : AssignmentState),
    (validateAssignmentBlock program function block state).2.Sized state.length
  | [], state => ⟨by simp [validateAssignmentBlock], by simp [validateAssignmentBlock],
      by simp [validateAssignmentBlock]⟩
  | statement :: rest, state => by
    have head := validateAssignmentFlow_sized statement state
    rcases flow : validateAssignmentFlow program function statement state
      with ⟨errors, headFlow⟩
    rw [flow] at head
    simp only [validateAssignmentBlock, flow]
    cases falls : headFlow.fallthrough with
    | none => simpa only [falls] using head
    | some next =>
      have tail := validateAssignmentBlock_sized rest next
      rw [head.fall next falls] at tail
      exact ⟨tail.fall,
        fun other mem => (List.mem_append.mp mem).elim (head.brk other) (tail.brk other),
        fun other mem => (List.mem_append.mp mem).elim (head.cont other) (tail.cont other)⟩

end

end Sizes

end Validate

/-- What every step of an activation has to keep, for a belief `Rel` of the
checker about a state of the run. -/
structure AssignmentSound (machine : Machine) (act : Activation) (invoke : Invoke)
    (Rel : AssignmentState → State → Prop) (Returned : State → Prop)
    (Stopped : Stop → State → Prop) : Prop where
  grows : ∀ operation (state : State),
    state.Extends (fun _ => True) (operate machine act invoke operation state).1
  operation : ∀ operation belief state, .op operation ∈ blockAtoms act.function.body →
    (validateAssignmentStatement machine.program act.function operation belief).1 = [] →
    Rel belief state →
    match operate machine act invoke operation state with
    | (next, none) =>
      Rel (validateAssignmentStatement machine.program act.function operation belief).2 next
    | (next, some reason) => Stopped reason next
  condition : ∀ condition belief state,
    assignmentReadValue act.function belief condition = [] → Rel belief state →
    match (act.semantics machine invoke).cond condition state with
    | (next, .ok _) => Rel belief next
    | (next, .error reason) => Stopped reason next
  result : ∀ values belief state,
    values.flatMap (assignmentReadValue act.function belief) = [] → Rel belief state →
    match (act.semantics machine invoke).ret values state with
    | (next, .ok _) => Returned next
    | (next, .error reason) => Stopped reason next
  joinLeft : ∀ lhs rhs state, lhs.length = rhs.length → Rel lhs state →
    Rel (intersectTwoAssignmentStates machine.program act.function lhs rhs) state
  joinRight : ∀ lhs rhs state, lhs.length = rhs.length → Rel rhs state →
    Rel (intersectTwoAssignmentStates machine.program act.function lhs rhs) state
  again : ∀ belief entry other now, Rel belief entry →
    entry.Extends (fun _ => True) now → Rel other now →
    Rel belief ((act.semantics machine invoke).again entry now)
  spent : ∀ belief state, Rel belief state → Stopped .outOfFuel state

namespace AssignmentSound

variable {machine : Machine} {act : Activation} {invoke : Invoke} {budget : Nat}
  {Rel : AssignmentState → State → Prop} {Returned : State → Prop}
  {Stopped : Stop → State → Prop}

/-- A state is described by one of the beliefs of a flow. -/
def flowPost (Rel : AssignmentState → State → Prop) (Returned : State → Prop)
    (Stopped : Stop → State → Prop) (flow : AssignmentFlow) :
    Post State (List Data) Stop where
  fall state := ∃ belief, flow.fallthrough = some belief ∧ Rel belief state
  brk state := ∃ belief ∈ flow.breaks, Rel belief state
  cont state := ∃ belief ∈ flow.continues, Rel belief state
  ret _ state := Returned state
  stop := Stopped

variable {belief : AssignmentState} {lhs rhs : Option AssignmentState} {state : State}

private theorem merge_left (sound : AssignmentSound machine act invoke Rel Returned Stopped)
    (sized : ∀ other, rhs = some other → belief.length = other.length) (found : lhs = some belief)
    (holds : Rel belief state) :
    ∃ merged, mergeAssignmentFallthrough machine.program act.function lhs rhs = some merged ∧
      Rel merged state := by
  subst found
  cases rhs with
  | none => exact ⟨belief, rfl, holds⟩
  | some other => exact ⟨_, rfl, sound.joinLeft belief other state (sized other rfl) holds⟩

private theorem merge_right (sound : AssignmentSound machine act invoke Rel Returned Stopped)
    (sized : ∀ other, lhs = some other → other.length = belief.length) (found : rhs = some belief)
    (holds : Rel belief state) :
    ∃ merged, mergeAssignmentFallthrough machine.program act.function lhs rhs = some merged ∧
      Rel merged state := by
  subst found
  cases lhs with
  | none => exact ⟨belief, rfl, holds⟩
  | some other => exact ⟨_, rfl, sound.joinRight other belief state (sized other rfl) holds⟩

private theorem foldl_join (sound : AssignmentSound machine act invoke Rel Returned Stopped)
    {states : List AssignmentState} {first : AssignmentState}
    (sized : ∀ other ∈ states, other.length = first.length)
    (holds : Rel first state ∨ ∃ belief ∈ states, Rel belief state) :
    Rel (states.foldl (intersectTwoAssignmentStates machine.program act.function) first)
      state := by
  induction states generalizing first with
  | nil => simpa using holds
  | cons head rest ih =>
    rw [List.foldl_cons]
    have sameLength := (sized head (by simp)).symm
    refine ih (fun other mem => ?_) ?_
    · rw [sized other (by simp [mem]), intersect_length rfl sameLength.symm]
    · rcases holds with atFirst | ⟨belief, mem, atBelief⟩
      · exact Or.inl (sound.joinLeft first head state sameLength atFirst)
      · rcases List.mem_cons.mp mem with rfl | later
        · exact Or.inl (sound.joinRight first belief state sameLength atBelief)
        · exact Or.inr ⟨belief, later, atBelief⟩

/-- Leaving a loop by a break joins the beliefs of all its breaks. -/
private theorem breaks_join (sound : AssignmentSound machine act invoke Rel Returned Stopped)
    {breaks : List AssignmentState} {size : Nat} (sized : ∀ other ∈ breaks, other.length = size)
    (mem : belief ∈ breaks) (holds : Rel belief state) :
    ∃ joined, intersectAssignmentStates machine.program act.function breaks = some joined ∧
      Rel joined state := by
  cases breaks with
  | nil => simp at mem
  | cons first rest =>
    refine ⟨_, rfl, sound.foldl_join (fun other mem => ?_) ?_⟩
    · rw [sized other (by simp [mem]), sized first (by simp)]
    · rcases List.mem_cons.mp mem with rfl | later
      · exact Or.inl holds
      · exact Or.inr ⟨belief, later, holds⟩

/-- Running a part of a body only extends the trace. -/
private theorem extends_block
    (sound : AssignmentSound machine act invoke Rel Returned Stopped) (budget : Nat)
    (block : List Statement) (state : State) :
    state.Extends (fun _ => True)
      (execBlock (act.semantics machine invoke) budget block state).1 := by
  exact execBlock_keeps (State.keeps_extends (fun _ _ => trivial) (fun _ => trivial)
    (fun _ => trivial) fun operation _ now _ => sound.grows operation now)
    (State.Extends.refl state)

mutual

theorem flow_ends (sound : AssignmentSound machine act invoke Rel Returned Stopped) :
    ∀ (statement : Statement) (belief : AssignmentState),
      (∀ atom ∈ statement.atoms, atom ∈ blockAtoms act.function.body) →
      (validateAssignmentFlow machine.program act.function statement belief).1 = [] →
      Stm.Ends (act.semantics machine invoke) budget (Rel belief) statement
        (flowPost Rel Returned Stopped
          (validateAssignmentFlow machine.program act.function statement belief).2)
  | .op operation, belief, inside, checked => by
    have step := fun state => sound.operation operation belief state
      (inside _ (by simp [Stm.atoms])) (by simpa [validateAssignmentFlow] using checked)
    refine ends_op (fun state next holds ran => ?_) fun state next reason holds ran => ?_
    · have after := step state holds
      rw [show operate machine act invoke operation state = _ from ran] at after
      exact ⟨_, rfl, after⟩
    · have after := step state holds
      rw [show operate machine act invoke operation state = _ from ran] at after
      exact after
  | .ite condition thenBlock elseBlock, belief, inside, checked => by
    simp only [validateAssignmentFlow, List.append_eq_nil_iff] at checked
    have read := fun state => sound.condition condition belief state checked.1.1
    refine ends_ite (fun _ => Rel belief) (fun state next value holds ran => ?_)
      (fun state next reason holds ran => ?_) ?_ ?_
    · have after := read state holds
      rwa [ran] at after
    · have after := read state holds
      rwa [ran] at after
    · refine (block_ends sound thenBlock belief
        (fun atom mem => inside atom (by simp [Stm.atoms, mem])) checked.1.2).weaken ?_
      refine ⟨?_, ?_, ?_, fun _ _ => id, fun _ _ => id⟩
      · rintro state ⟨after, found, holds⟩
        refine sound.merge_left (fun other atElse => ?_) found holds
        rw [(validateAssignmentBlock_sized thenBlock belief).fall _ found,
          (validateAssignmentBlock_sized elseBlock belief).fall _ atElse]
      · rintro state ⟨after, mem, holds⟩
        exact ⟨after, List.mem_append_left _ mem, holds⟩
      · rintro state ⟨after, mem, holds⟩
        exact ⟨after, List.mem_append_left _ mem, holds⟩
    · refine (block_ends sound elseBlock belief
        (fun atom mem => inside atom (by simp [Stm.atoms, mem])) checked.2).weaken ?_
      refine ⟨?_, ?_, ?_, fun _ _ => id, fun _ _ => id⟩
      · rintro state ⟨after, found, holds⟩
        refine sound.merge_right (fun other atThen => ?_) found holds
        rw [(validateAssignmentBlock_sized thenBlock belief).fall _ atThen,
          (validateAssignmentBlock_sized elseBlock belief).fall _ found]
      · rintro state ⟨after, mem, holds⟩
        exact ⟨after, List.mem_append_right _ mem, holds⟩
      · rintro state ⟨after, mem, holds⟩
        exact ⟨after, List.mem_append_right _ mem, holds⟩
  | .loop body, belief, inside, checked => by
    simp only [validateAssignmentFlow] at checked
    have pass := block_ends sound body belief
      (fun atom mem => inside atom (by simp [Stm.atoms, mem])) checked
    -- The invariant keeps the belief of the entry: the checker visits the body once.
    refine ends_loop (fun entry now => Rel belief now ∧ entry.Extends (fun _ => True) now)
      (fun entry holds => ⟨holds, State.Extends.refl entry⟩) (fun entry atEntry => ?_)
      fun entry state _ holds => sound.spent belief state holds.1
    rintro now ⟨holds, reached⟩
    have ended := pass now holds
    have grown := reached.trans (sound.extends_block budget body now)
    rcases ran : execBlock (act.semantics machine invoke) budget body now
      with ⟨next, outcome⟩
    rw [ran] at ended grown
    have repeats {other : AssignmentState} (after : Rel other next) :
        Rel belief ((act.semantics machine invoke).again entry next) ∧
          entry.Extends (fun _ => True) ((act.semantics machine invoke).again entry next) :=
      ⟨sound.again belief entry other next atEntry grown after,
        grown.trans (State.extends_note (fun _ => rfl) trivial next)⟩
    cases outcome with
    | fall =>
      obtain ⟨other, _, after⟩ := ended
      exact repeats after
    | cont =>
      obtain ⟨other, _, after⟩ := ended
      exact repeats after
    | brk =>
      obtain ⟨other, mem, after⟩ := ended
      exact sound.breaks_join (validateAssignmentBlock_sized body belief).brk mem after
    | ret | stop => exact ended
  | .brk, belief, _, _ => ends_brk fun state holds => ⟨belief, by simp [validateAssignmentFlow],
      holds⟩
  | .cont, belief, _, _ => ends_cont fun state holds =>
      ⟨belief, by simp [validateAssignmentFlow], holds⟩
  | .ret values, belief, _, checked => by
    have read := fun state => sound.result values belief state
      (by simpa [validateAssignmentFlow] using checked)
    refine ends_ret (fun state next value holds ran => ?_)
      fun state next reason holds ran => ?_
    · have after := read state holds
      rwa [ran] at after
    · have after := read state holds
      rwa [ran] at after

theorem block_ends (sound : AssignmentSound machine act invoke Rel Returned Stopped) :
    ∀ (block : List Statement) (belief : AssignmentState),
      (∀ atom ∈ blockAtoms block, atom ∈ blockAtoms act.function.body) →
      (validateAssignmentBlock machine.program act.function block belief).1 = [] →
      BlockEnds (act.semantics machine invoke) budget (Rel belief) block
        (flowPost Rel Returned Stopped
          (validateAssignmentBlock machine.program act.function block belief).2)
  | [], belief, _, _ => ends_nil fun state holds =>
      ⟨belief, by simp [validateAssignmentBlock], holds⟩
  | statement :: rest, belief, inside, checked => by
    have headInside : ∀ atom ∈ statement.atoms, atom ∈ blockAtoms act.function.body :=
      fun atom mem => inside atom (by simp [blockAtoms, mem])
    rcases flow : validateAssignmentFlow machine.program act.function statement belief
      with ⟨errors, head⟩
    have headEnds (accepted : errors = []) := flow_ends sound
      statement belief headInside (by rw [flow]; exact accepted)
    rw [flow] at headEnds
    simp only [validateAssignmentBlock, flow] at checked ⊢
    cases falls : head.fallthrough with
    | none =>
      -- The head never falls through, so the unchecked rest is never reached.
      simp only [falls] at checked ⊢
      refine ends_cons (fun _ => False) ((headEnds checked).weaken ?_)
        (fun _ impossible => impossible.elim)
      exact ⟨fun state ⟨_, found, _⟩ => by simp [falls] at found, fun _ => id, fun _ => id,
        fun _ _ => id, fun _ _ => id⟩
    | some next =>
      simp only [falls, List.append_eq_nil_iff] at checked ⊢
      refine ends_cons (Rel next) ((headEnds checked.1).weaken ?_) ?_
      · refine ⟨?_, ?_, ?_, fun _ _ => id, fun _ _ => id⟩
        · rintro state ⟨after, found, holds⟩
          obtain rfl : next = after := Option.some.inj (falls.symm.trans found)
          exact holds
        · rintro state ⟨after, mem, holds⟩
          exact ⟨after, List.mem_append_left _ mem, holds⟩
        · rintro state ⟨after, mem, holds⟩
          exact ⟨after, List.mem_append_left _ mem, holds⟩
      · refine (block_ends sound rest next
          (fun atom mem => inside atom (by simp [blockAtoms, mem])) checked.2).weaken ?_
        refine ⟨fun _ => id, ?_, ?_, fun _ _ => id, fun _ _ => id⟩
        · rintro state ⟨after, mem, holds⟩
          exact ⟨after, List.mem_append_right _ mem, holds⟩
        · rintro state ⟨after, mem, holds⟩
          exact ⟨after, List.mem_append_right _ mem, holds⟩

end

end AssignmentSound

end Onda.Mir
