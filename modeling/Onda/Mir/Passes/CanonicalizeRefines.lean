import Onda.Mir.Passes.Canonicalize
import Onda.Mir.Minimal

/-!
# Canonicalization preserves behaviour

Dropping unreachable statements changes no run at all.  Folding and the algebraic
identities change which operands are read; what is no longer read could only have
failed in a run without meaning.
-/

namespace Onda.Mir

open Structured Structured.Eval Simulation

namespace Canonicalize

/-! ### Unreachable statements -/

section Reachable

variable {σ V E : Type} {sem : Sem σ Operation Value (List Value) V E} {budget : Nat}

variable {again : σ → σ} {body : σ → σ × Outcome V E}

/-- A repetition never breaks further out. -/
theorem iterate_ne_brk {spent : E} (passes : Nat) (state : σ)
    : (iterate spent again body passes state).2 ≠ .brk := by
  induction passes generalizing state with
  | zero => simp [iterate]
  | succ passes ih =>
    unfold iterate
    rcases body state with ⟨next, outcome⟩
    cases outcome with
    | fall | cont => exact ih _
    | brk | ret | stop => simp

/-- A repetition whose body never breaks is not left. -/
theorem iterate_ne_fall {spent : E} (keeps : ∀ state, (body state).2 ≠ .brk) (passes : Nat)
    (state : σ) :
    (iterate spent again body passes state).2 ≠ .fall := by
  induction passes generalizing state with
  | zero => simp [iterate]
  | succ passes ih =>
    have unbroken := keeps state
    unfold iterate
    rcases ended : body state with ⟨next, outcome⟩
    rw [ended] at unbroken
    cases outcome with
    | fall | cont => exact ih _
    | brk => exact absurd rfl unbroken
    | ret | stop => simp

mutual

/-- A statement that does not fall through is the last one to run. -/
theorem statement_ne_fall : ∀ (statement : Statement), statementFallsThrough statement = false →
    ∀ state, (Stm.exec sem budget statement state).2 ≠ .fall
  | .op operation, stays, _ => by simp [statementFallsThrough] at stays
  | .brk, _, _ | .cont, _, _ => by simp
  | .ret values, _, state => by
    rw [exec_ret]
    rcases sem.ret values state with ⟨next, reason | value⟩ <;> simp [ofEval]
  | .ite condition thenBlock elseBlock, stays, state => by
    simp only [statementFallsThrough, Bool.or_eq_false_iff] at stays
    rw [exec_ite]
    rcases sem.cond condition state with ⟨next, reason | _ | _⟩
    · simp [ofEval]
    · exact block_ne_fall elseBlock stays.2 next
    · exact block_ne_fall thenBlock stays.1 next
  | .loop body, stays, state => by
    unfold Stm.exec
    exact iterate_ne_fall (block_ne_brk body stays) budget state

theorem block_ne_fall : ∀ (block : Block), blockFallsThrough block = false →
    ∀ state, (execBlock sem budget block state).2 ≠ .fall
  | [], stays, _ => by simp [blockFallsThrough] at stays
  | statement :: rest, stays, state => by
    rw [execBlock_cons]
    simp only [blockFallsThrough, Bool.and_eq_false_iff] at stays
    intro ended
    unfold andThen at ended
    rcases run : Stm.exec sem budget statement state with ⟨next, outcome⟩
    rw [run] at ended
    cases outcome with
    | fall =>
      rcases stays with first | later
      · exact statement_ne_fall statement first state (by rw [run])
      · exact block_ne_fall rest later next ended
    | brk | cont | ret | stop => cases ended

theorem statement_ne_brk : ∀ (statement : Statement), statementBreaks statement = false →
    ∀ state, (Stm.exec sem budget statement state).2 ≠ .brk
  | .op operation, _, state => by
    rw [exec_op]
    rcases sem.op operation state with ⟨next, _ | reason⟩ <;> simp [ofOp]
  | .brk, keeps, _ => by simp [statementBreaks] at keeps
  | .cont, _, _ => by simp
  | .ret values, _, state => by
    rw [exec_ret]
    rcases sem.ret values state with ⟨next, reason | value⟩ <;> simp [ofEval]
  | .ite condition thenBlock elseBlock, keeps, state => by
    simp only [statementBreaks, Bool.or_eq_false_iff] at keeps
    rw [exec_ite]
    rcases sem.cond condition state with ⟨next, reason | _ | _⟩
    · simp [ofEval]
    · exact block_ne_brk elseBlock keeps.2 next
    · exact block_ne_brk thenBlock keeps.1 next
  | .loop body, _, state => by
    unfold Stm.exec
    exact iterate_ne_brk budget state

theorem block_ne_brk : ∀ (block : Block), blockContainsReachableBreak block = false →
    ∀ state, (execBlock sem budget block state).2 ≠ .brk
  | [], _, _ => by simp
  | statement :: rest, keeps, state => by
    rw [execBlock_cons]
    simp only [blockContainsReachableBreak, Bool.or_eq_false_iff, Bool.and_eq_false_iff] at keeps
    intro ended
    unfold andThen at ended
    rcases run : Stm.exec sem budget statement state with ⟨next, outcome⟩
    rw [run] at ended
    cases outcome with
    | fall =>
      rcases keeps.2 with first | later
      · exact statement_ne_fall statement first state (by rw [run])
      · exact block_ne_brk rest later next ended
    | brk => exact statement_ne_brk statement keeps.1 state (by rw [run])
    | cont | ret | stop => cases ended

end

/-- What follows a run that never falls through does not run. -/
theorem andThen_of_ne_fall {first rest : σ → σ × Outcome V E}
    (stays : ∀ state, (first state).2 ≠ .fall) : andThen first rest = first := by
  funext state
  have ended := stays state
  unfold andThen
  rcases run : first state with ⟨next, outcome⟩
  rw [run] at ended
  cases outcome with
  | fall => exact absurd rfl ended
  | brk | cont | ret | stop => rfl

theorem execBlock_reachablePrefix (block : Block) :
    execBlock sem budget (reachablePrefix block) = execBlock sem budget block := by
  induction block with
  | nil => rfl
  | cons statement rest ih =>
    rw [reachablePrefix, execBlock_cons]
    split
    · rw [execBlock_cons, ih]
    case isFalse stays =>
      have last : ∀ state, (Stm.exec sem budget statement state).2 ≠ .fall :=
        statement_ne_fall statement (by simpa using stays)
      rw [execBlock_cons, andThen_of_ne_fall last, andThen_of_ne_fall last]

/-- Dropping what is unreachable changes no run. -/
theorem execBlock_cut (first rest : Block) :
    execBlock sem budget (cut first rest)
      = andThen (execBlock sem budget first) (execBlock sem budget rest) := by
  unfold cut
  rw [execBlock_append, execBlock_reachablePrefix]
  split
  · rfl
  case isFalse stays =>
    have last : ∀ state, (execBlock sem budget first state).2 ≠ .fall :=
      block_ne_fall first (by simpa using stays)
    rw [andThen_of_ne_fall last, andThen_of_ne_fall last]

end Reachable

/-! ### Algebraic identities -/

section Algebra

open ConstantEval (integerBinary)

variable {floats : FloatOps}

/-- An operation gives `result`, unless its operands are of different types. -/
def Yields (floats : FloatOps) (op : BinaryOp) (lhs rhs result : ScalarValue) : Prop :=
  ConstantEval.binary floats op lhs rhs = some result
    ∨ ConstantEval.binary floats op lhs rhs = none ∧ binaryStop op rhs = .stuck

variable {op : BinaryOp} {narrow : BitVec 32} {scalar : ScalarType} {lhs rhs : ScalarValue}
  {value : Value}

theorem zero_of_scalarValueIsZero (zero : scalarValueIsZero value) :
    value = .constant (.i32 0) ∨ value = .constant (.i64 0) := by
  unfold scalarValueIsZero at zero
  split at zero <;> simp_all

theorem one_of_scalarValueIsOne (one : scalarValueIsOne value) :
    value = .constant (.i32 1) ∨ value = .constant (.i64 1) := by
  unfold scalarValueIsOne at one
  split at one <;> simp_all

theorem allOnes_of_scalarValueIsAllOnes (ones : scalarValueIsAllOnes value) :
    value = .constant (.i32 (-1)) ∨ value = .constant (.i64 (-1)) := by
  unfold scalarValueIsAllOnes at ones
  split at ones <;> simp_all

/-- `op` has `unit` as its neutral element on the right. -/
theorem yields_left {wide : BitVec 64} (narrowUnit : ∀ x, integerBinary op x narrow = some x)
    (wideUnit : ∀ x, integerBinary op x wide = some x)
    (narrowStop : binaryStop op (.i32 narrow) = .stuck)
    (wideStop : binaryStop op (.i64 wide) = .stuck) (unit : rhs = .i32 narrow ∨ rhs = .i64 wide)
    (lhs : ScalarValue) :
    Yields floats op lhs rhs lhs := by
  rcases unit with rfl | rfl <;> cases lhs <;>
    simp [Yields, ConstantEval.binary, narrowUnit, wideUnit, narrowStop, wideStop]

/-- `op` has `unit` as its neutral element on the left. -/
theorem yields_right {wide : BitVec 64} (narrowUnit : ∀ x, integerBinary op narrow x = some x)
    (wideUnit : ∀ x, integerBinary op wide x = some x) (stop : ∀ rhs, binaryStop op rhs = .stuck)
    (unit : lhs = .i32 narrow ∨ lhs = .i64 wide) (rhs : ScalarValue) :
    Yields floats op lhs rhs rhs := by
  rcases unit with rfl | rfl <;> cases rhs <;>
    simp [Yields, ConstantEval.binary, narrowUnit, wideUnit, stop]

/-- Operands of one type give zero. -/
theorem yields_zero (integer : scalar.isInteger) (typed : lhs.ty = scalar)
    (narrow : ∀ x y, lhs = .i32 x → rhs = .i32 y → integerBinary op x y = some 0)
    (wide : ∀ x y, lhs = .i64 x → rhs = .i64 y → integerBinary op x y = some 0)
    (stop : binaryStop op rhs = .stuck) : Yields floats op lhs rhs (.zero scalar) := by
  subst typed
  cases lhs with
  | f32 | f64 | bool => simp [ScalarValue.ty, ScalarType.isInteger] at integer
  | i32 x =>
    cases rhs with
    | i32 y => exact .inl (by simp [ConstantEval.binary, narrow x y rfl rfl, ScalarValue.ty,
        ScalarValue.zero])
    | f32 | f64 | i64 | bool => exact .inr ⟨rfl, stop⟩
  | i64 x =>
    cases rhs with
    | i64 y => exact .inl (by simp [ConstantEval.binary, wide x y rfl rfl, ScalarValue.ty,
        ScalarValue.zero])
    | f32 | f64 | i32 | bool => exact .inr ⟨rfl, stop⟩

/-- Zero absorbs the other operand. -/
theorem yields_absorbed (integer : scalar.isInteger) (typed : lhs.ty = scalar)
    (onLeft : ∀ (width : Nat) (x : BitVec width), integerBinary op 0 x = some 0)
    (onRight : ∀ (width : Nat) (x : BitVec width), integerBinary op x 0 = some 0)
    (stop : ∀ rhs, binaryStop op rhs = .stuck)
    (zero : (lhs = .i32 0 ∨ lhs = .i64 0) ∨ (rhs = .i32 0 ∨ rhs = .i64 0)) :
    Yields floats op lhs rhs (.zero scalar) := by
  refine yields_zero integer typed ?_ ?_ (stop rhs)
  · rintro x y rfl rfl
    rcases zero with (zero | zero) | (zero | zero) <;> cases zero
    · exact onLeft 32 y
    · exact onRight 32 x
  · rintro x y rfl rfl
    rcases zero with (zero | zero) | (zero | zero) <;> cases zero
    · exact onLeft 64 y
    · exact onRight 64 x

theorem zero_operand {scalar : ScalarValue} (zero : scalarValueIsZero value)
    (known : ∀ number, value = .constant number → scalar = number) :
    scalar = .i32 0 ∨ scalar = .i64 0 :=
  (zero_of_scalarValueIsZero zero).imp (known _) (known _)

theorem one_operand {scalar : ScalarValue} (one : scalarValueIsOne value)
    (known : ∀ number, value = .constant number → scalar = number) :
    scalar = .i32 1 ∨ scalar = .i64 1 :=
  (one_of_scalarValueIsOne one).imp (known _) (known _)

theorem allOnes_operand {scalar : ScalarValue} (ones : scalarValueIsAllOnes value)
    (known : ∀ number, value = .constant number → scalar = number) :
    scalar = .i32 (-1) ∨ scalar = .i64 (-1) :=
  (allOnes_of_scalarValueIsAllOnes ones).imp (known _) (known _)

theorem bitAnd_ones {width : Nat} (x : BitVec width) :
    integerBinary .bitAnd x (-1) = some x := by
  have ones : (-1 : BitVec width) = BitVec.allOnes width := BitVec.neg_one_eq_allOnes
  simp only [integerBinary, ones, BitVec.and_allOnes]

theorem ones_bitAnd {width : Nat} (x : BitVec width) :
    integerBinary .bitAnd (-1) x = some x := by
  have ones : (-1 : BitVec width) = BitVec.allOnes width := BitVec.neg_one_eq_allOnes
  simp only [integerBinary, ones, BitVec.allOnes_and]

variable (floats) in
/-- The operand that replaces an operation holds its result. -/
theorem simplifyBinary_sound {lhs rhs replacement : Value} (integer : scalar.isInteger)
    (simplified : simplifyBinary op lhs rhs scalar = some replacement) {left right : ScalarValue}
    (atLeft : ∀ number, lhs = .constant number → left = number)
    (atRight : ∀ number, rhs = .constant number → right = number) (same : lhs = rhs → left = right)
    (typed : left.ty = scalar) :
    ∃ result, Yields floats op left right result
      ∧ (replacement = lhs ∧ result = left ∨ replacement = rhs ∧ result = right
        ∨ replacement = integerZero scalar ∧ result = .zero scalar) := by
  have zeroRight (zero : scalarValueIsZero rhs) := zero_operand zero atRight
  have zeroLeft (zero : scalarValueIsZero lhs) := zero_operand zero atLeft
  have oneRight (one : scalarValueIsOne rhs) := one_operand one atRight
  cases op with
  | add =>
    simp only [simplifyBinary] at simplified
    split_ifs at simplified with onRight onLeft <;> cases simplified
    · exact ⟨left, yields_left (by simp [integerBinary]) (by simp [integerBinary]) rfl rfl
        (zeroRight onRight) left, .inl ⟨rfl, rfl⟩⟩
    · exact ⟨right, yields_right (by simp [integerBinary]) (by simp [integerBinary])
        (fun _ => rfl) (zeroLeft onLeft) right, .inr (.inl ⟨rfl, rfl⟩)⟩
  | subtract =>
    simp only [simplifyBinary] at simplified
    split_ifs at simplified with onRight identical <;> cases simplified
    · exact ⟨left, yields_left (by simp [integerBinary]) (by simp [integerBinary]) rfl rfl
        (zeroRight onRight) left, .inl ⟨rfl, rfl⟩⟩
    · obtain rfl := same identical
      exact ⟨_, yields_zero integer typed (by rintro x _ rfl ⟨⟩; simp [integerBinary])
        (by rintro x _ rfl ⟨⟩; simp [integerBinary]) rfl, .inr (.inr ⟨rfl, rfl⟩)⟩
  | multiply =>
    simp only [simplifyBinary, Bool.or_eq_true] at simplified
    split_ifs at simplified with onRight onLeft either <;> cases simplified
    · exact ⟨left, yields_left (by simp [integerBinary]) (by simp [integerBinary]) rfl rfl
        (oneRight onRight) left, .inl ⟨rfl, rfl⟩⟩
    · exact ⟨right, yields_right (by simp [integerBinary]) (by simp [integerBinary])
        (fun _ => rfl) (one_operand onLeft atLeft) right, .inr (.inl ⟨rfl, rfl⟩)⟩
    · exact ⟨_, yields_absorbed integer typed (by simp [integerBinary]) (by simp [integerBinary])
        (fun _ => rfl) (either.imp zeroLeft zeroRight), .inr (.inr ⟨rfl, rfl⟩)⟩
  | divide =>
    simp only [simplifyBinary] at simplified
    split_ifs at simplified with onRight
    cases simplified
    exact ⟨left, yields_left (by simp [integerBinary, BitVec.sdiv_one])
      (by simp [integerBinary, BitVec.sdiv_one]) rfl rfl (oneRight onRight) left, .inl ⟨rfl, rfl⟩⟩
  | remainder =>
    simp only [simplifyBinary] at simplified
    split_ifs at simplified with onRight
    cases simplified
    have one := oneRight onRight
    refine ⟨_, yields_zero integer typed (fun x y _ atY => ?_) (fun x y _ atY => ?_) ?_,
      .inr (.inr ⟨rfl, rfl⟩)⟩
    · rcases one with one | one <;> simp_all [integerBinary]
    · rcases one with one | one <;> simp_all [integerBinary]
    · rcases one with rfl | rfl <;> rfl
  | bitAnd =>
    simp only [simplifyBinary, Bool.or_eq_true] at simplified
    split_ifs at simplified with either onRight onLeft <;> cases simplified
    · exact ⟨_, yields_absorbed integer typed (by simp [integerBinary]) (by simp [integerBinary])
        (fun _ => rfl) (either.imp zeroLeft zeroRight), .inr (.inr ⟨rfl, rfl⟩)⟩
    · exact ⟨left, yields_left bitAnd_ones bitAnd_ones rfl rfl (allOnes_operand onRight atRight) left,
        .inl ⟨rfl, rfl⟩⟩
    · exact ⟨right, yields_right ones_bitAnd ones_bitAnd (fun _ => rfl)
        (allOnes_operand onLeft atLeft) right, .inr (.inl ⟨rfl, rfl⟩)⟩
  | bitOr =>
    simp only [simplifyBinary] at simplified
    split_ifs at simplified with onRight onLeft <;> cases simplified
    · exact ⟨left, yields_left (by simp [integerBinary]) (by simp [integerBinary]) rfl rfl
        (zeroRight onRight) left, .inl ⟨rfl, rfl⟩⟩
    · exact ⟨right, yields_right (by simp [integerBinary]) (by simp [integerBinary])
        (fun _ => rfl) (zeroLeft onLeft) right, .inr (.inl ⟨rfl, rfl⟩)⟩
  | bitXor =>
    simp only [simplifyBinary] at simplified
    split_ifs at simplified with onRight onLeft identical <;> cases simplified
    · exact ⟨left, yields_left (by simp [integerBinary]) (by simp [integerBinary]) rfl rfl
        (zeroRight onRight) left, .inl ⟨rfl, rfl⟩⟩
    · exact ⟨right, yields_right (by simp [integerBinary]) (by simp [integerBinary])
        (fun _ => rfl) (zeroLeft onLeft) right, .inr (.inl ⟨rfl, rfl⟩)⟩
    · obtain rfl := same identical
      exact ⟨_, yields_zero integer typed (by rintro x _ rfl ⟨⟩; simp [integerBinary])
        (by rintro x _ rfl ⟨⟩; simp [integerBinary]) rfl, .inr (.inr ⟨rfl, rfl⟩)⟩
  | shiftLeft | shiftRight =>
    simp only [simplifyBinary] at simplified
    split_ifs at simplified with onRight
    cases simplified
    exact ⟨left, yields_left (by simp [integerBinary]) (by simp [integerBinary]) rfl rfl
      (zeroRight onRight) left, .inl ⟨rfl, rfl⟩⟩

theorem integerZero_eq (integer : scalar.isInteger) :
    integerZero scalar = .constant (.zero scalar) := by
  cases scalar with
  | i32 | i64 => rfl
  | f32 | f64 | bool => cases integer

/-- Integers and booleans equal themselves; booleans are not ordered. -/
theorem compare_identical (op : CompareOp) {value : ScalarValue} (notF32 : value.ty ≠ .f32)
    (notF64 : value.ty ≠ .f64) :
    ConstantEval.compare op value value = some (compareIdentical op)
      ∨ ConstantEval.compare op value value = none := by
  cases value with
  | f32 => exact absurd rfl notF32
  | f64 => exact absurd rfl notF64
  | i32 x | i64 x =>
    left
    cases op <;> simp [ConstantEval.compare, ConstantEval.integerCompare, compareIdentical,
      BitVec.slt, BitVec.sle]
  | bool truth =>
    cases op with
    | equal | notEqual => exact .inl (by simp [ConstantEval.compare, compareIdentical])
    | less | lessEqual | greater | greaterEqual => exact .inr rfl

end Algebra

/-! ### Rvalues -/

section Rvalues

variable {machine : Machine} {functions : List Function} {world : World} {memory memory' : Memory}
  {act act' : Activation}

variable {folded number : ScalarValue}

theorem evalScalar_constant {value : Value} {result : ScalarValue}
    (isConstant : value = .constant number)
    (run : (evalScalar machine act value memory).2 = .ok result) : result = number := by
  subst isConstant
  cases run
  rfl

theorem evalScalar_ofConstant (number : ScalarValue) :
    evalScalar machine act (.constant number) = Pure.pure number := rfl

theorem scalarResult_orThrow {reason : Stop} {result : Option ScalarValue}
    (computed : result = some folded) :
    scalarResult <$> (Eval.orThrow reason result : Run ScalarValue) = Pure.pure (scalarResult folded) := by
  subst computed
  exact map_pure _ _

theorem eq_constant {operand : Value} (known : constant operand = some number)
    : operand = .constant number := by
  cases operand with
  | constant value => cases known; rfl
  | localVar => cases known

theorem evalScalars_ofConstants {args : List Value} {numbers : List ScalarValue}
    (known : args.mapM constant = some numbers) :
    args.mapM (evalScalar machine act) = Pure.pure numbers := by
  have each := forall₂_of_mapM known
  clear known
  induction each with
  | nil => rfl
  | cons head _ ih =>
    rw [List.mapM_cons, eq_constant head, evalScalar_ofConstant, ih, LawfulMonad.pure_bind,
      LawfulMonad.pure_bind]

/-- Folding evaluates the operation. -/
theorem foldRvalue_evaluates {value : Rvalue}
    (folds : foldRvalue machine.host.floats value = some folded) :
    evalRvalue machine act value = Pure.pure (scalarResult folded) := by
  cases value with
  | unary op operand =>
    obtain ⟨number, known, computed⟩ := Option.bind_eq_some_iff.mp folds
    rw [eq_constant known, evalRvalue, evalScalar_ofConstant, LawfulMonad.pure_bind]
    exact scalarResult_orThrow computed
  | binary op lhs rhs =>
    obtain ⟨left, knownLeft, rest⟩ := Option.bind_eq_some_iff.mp folds
    obtain ⟨right, knownRight, computed⟩ := Option.bind_eq_some_iff.mp rest
    rw [eq_constant knownLeft, eq_constant knownRight, evalRvalue, evalScalar_ofConstant,
      evalScalar_ofConstant, LawfulMonad.pure_bind, LawfulMonad.pure_bind]
    exact scalarResult_orThrow computed
  | compare op lhs rhs =>
    obtain ⟨left, knownLeft, rest⟩ := Option.bind_eq_some_iff.mp folds
    obtain ⟨right, knownRight, computed⟩ := Option.bind_eq_some_iff.mp rest
    obtain ⟨holds, compared, rfl⟩ := Option.map_eq_some_iff.mp computed
    rw [eq_constant knownLeft, eq_constant knownRight, evalRvalue, evalScalar_ofConstant,
      evalScalar_ofConstant, LawfulMonad.pure_bind, LawfulMonad.pure_bind, compared]
    exact LawfulMonad.pure_bind _ _
  | cast value target =>
    obtain ⟨number, known, computed⟩ := Option.bind_eq_some_iff.mp folds
    rw [eq_constant known, evalRvalue, evalScalar_ofConstant, LawfulMonad.pure_bind]
    exact scalarResult_orThrow computed
  | intrinsic intrinsic args =>
    obtain ⟨numbers, known, computed⟩ := Option.bind_eq_some_iff.mp folds
    unfold foldIntrinsic at computed
    split at computed
    · cases computed
    · rw [evalRvalue, evalScalars_ofConstants known, LawfulMonad.pure_bind]
      exact scalarResult_orThrow computed
  | _ => cases folds

variable (memories : world.Memories memory memory') (acts : world.Activations act act')
  (identity : world.mapping act = .identity)
include memories acts identity

theorem foldedRvalue_corresponds (value : Rvalue) :
    Refines observer memory memory' world.Datas (evalRvalue machine act value)
      (evalRvalue (machine.withFunctions functions) act'
        (foldedRvalue machine.host.floats value)) := by
  unfold foldedRvalue
  split
  case h_1 folded folds =>
    rw [foldRvalue_evaluates folds]
    exact .pure (.scalar folded)
  · exact evalRvalue_corresponds memories acts (by rw [identity, rewriteRvalue_identity])

/-- The operand that replaces an operation, once its operands have been evaluated. -/
theorem operand_corresponds {value : Value}
    (evaluated : (evalScalar machine act value memory).2 = .ok number) :
    Refines observer memory memory' world.Datas (Pure.pure (scalarResult number) : Run Data)
      (evalValue (machine.withFunctions functions) act' value) :=
  evaluated_corresponds memories acts (by rw [identity, rewriteValue_identity])
    (evalScalar_ok evaluated)

omit memories acts identity in
/-- Both operands are evaluated, and what they hold is known. -/
theorem operands_corresponds {lhs rhs : Value} {next : ScalarValue → ScalarValue → Run Data}
    {target : Run Data}
    (rest : ∀ left right, (evalScalar machine act lhs memory).2 = .ok left →
      (evalScalar machine act rhs memory).2 = .ok right →
      Refines observer memory memory' world.Datas (next left right) target) :
    Refines observer memory memory' world.Datas
      (do
        let left ← evalScalar machine act lhs
        let right ← evalScalar machine act rhs
        next left right) target :=
  .drop ((evalScalar_quiet lhs).combine Returns.self) fun left atLeft =>
    .drop ((evalScalar_quiet rhs).combine Returns.self) fun right atRight =>
      rest left right atLeft atRight

theorem simplifyRvalue_corresponds (value : Rvalue) :
    Refines observer memory memory' world.Datas (evalRvalue machine act value)
      (evalRvalue (machine.withFunctions functions) act'
        (simplifyRvalue machine.program.types act.function.locals value)) := by
  unfold simplifyRvalue
  split
  case h_2 => exact evalRvalue_corresponds memories acts (by rw [identity, rewriteRvalue_identity])
  case h_1 replacement simplified =>
    cases value with
    | binary op lhs rhs =>
      obtain ⟨scalar, declared, chosen⟩ := Option.bind_eq_some_iff.mp simplified
      split at chosen
      case isFalse => cases chosen
      case isTrue integer =>
        refine operands_corresponds fun left right atLeft atRight => ?_
        have same : lhs = rhs → left = right := by
          rintro rfl
          exact Except.ok.inj (atLeft.symm.trans atRight)
        obtain ⟨result, yields, replaced⟩ := simplifyBinary_sound machine.host.floats
          integer chosen (fun _ known => evalScalar_constant known atLeft)
          (fun _ known => evalScalar_constant known atRight) same
          (evalScalar_type declared left atLeft)
        rcases yields with computed | ⟨failed, stuck⟩
        · rw [scalarResult_orThrow computed]
          rcases replaced with ⟨rfl, rfl⟩ | ⟨rfl, rfl⟩ | ⟨rfl, rfl⟩
          · exact operand_corresponds memories acts identity atLeft
          · exact operand_corresponds memories acts identity atRight
          · rw [integerZero_eq integer]
            exact .pure (.scalar _)
        · rw [failed, stuck]
          exact .escape trivial
    | compare op lhs rhs =>
      simp only [simplifyRvalueAlgebra] at simplified
      split at simplified
      case isFalse => cases simplified
      case isTrue identical =>
        subst identical
        obtain ⟨scalar, declared, chosen⟩ := Option.bind_eq_some_iff.mp simplified
        refine operands_corresponds fun left right atLeft atRight => ?_
        obtain rfl : left = right := Except.ok.inj (atLeft.symm.trans atRight)
        have typed := evalScalar_type declared left atLeft
        split at chosen
        · cases chosen
        · cases chosen
        case h_3 notF32 notF64 =>
          cases chosen
          rcases compare_identical op (typed ▸ notF32) (typed ▸ notF64) with holds | failed
          · rw [holds]
            exact .pure (.scalar _)
          · rw [failed]
            exact .missed trivial
    | _ => cases simplified

end Rvalues

/-! ### Statements -/

section Statements

set_option linter.unusedSectionVars false

variable {machine : Machine} {functions : List Function} {act act' : Activation}
  {invoke invoke' : Invoke} {budget : Nat}
  (alike : InvokesAlike machine functions (fun _ => .identity) (fun _ => False) invoke invoke')
  (counterparts : ∀ function : FunctionId, Option.Rel (Counterpart .identity)
    machine.program.functions[function]? functions[function]?)
include alike counterparts

theorem unchanged_runs (operation : Operation) :
    (simulation (fun _ => False) .identity act act').Runs
      (Stm.exec (act.semantics machine invoke) budget (.op operation))
      (Stm.exec (act'.semantics (machine.withFunctions functions) invoke') budget
        (.op operation)) :=
  runs_rewritten alike counterparts (fun _ => rfl) (rewriteOperation_identity operation)

omit alike counterparts in
theorem returns_runs (values : List Value) :
    (simulation (fun _ => False) .identity act act').Runs
      (Stm.exec (act.semantics machine invoke) budget (.ret values))
      (Stm.exec (act'.semantics (machine.withFunctions functions) invoke') budget
        (.ret values)) :=
  runs_return (mapM_eq_some_self rewriteValue_identity values)

mutual

theorem simplifyStatementAlgebra_runs : ∀ (statement : Statement),
    (simulation (fun _ => False) .identity act act').Runs
      (Stm.exec (act.semantics machine invoke) budget statement)
      (Stm.exec (act'.semantics (machine.withFunctions functions) invoke') budget
        (simplifyStatementAlgebra machine.program.types act.function.locals statement))
  | .op (.assign destination value) => runs_assign (rewriteDestination_identity destination)
      fun _ _ _ memories acts => simplifyRvalue_corresponds memories acts.toActivations
        acts.mapping value
  | .op (.call ..) | .op (.publishDelegate ..) | .op (.publishLog ..) | .op (.outputStore ..)
  | .op (.controlOutputStore ..) | .op (.bufferStore ..) | .op (.bufferParamStore ..)
  | .op (.sliceStore ..) | .op (.sliceFill ..) | .op (.sliceCopy ..) =>
    unchanged_runs alike counterparts _
  | .ite condition thenBlock elseBlock => runs_condition (rewriteValue_identity condition)
      (simplifyBlockAlgebra_runs thenBlock) (simplifyBlockAlgebra_runs elseBlock)
  | .loop body => runs_loop semantics_agrees (simplifyBlockAlgebra_runs body)
  | .brk => runs_brk
  | .cont => runs_cont
  | .ret values => returns_runs values

theorem simplifyBlockAlgebra_runs : ∀ (block : Block),
    (simulation (fun _ => False) .identity act act').Runs
      (execBlock (act.semantics machine invoke) budget block)
      (execBlock (act'.semantics (machine.withFunctions functions) invoke') budget
        (simplifyBlockAlgebra machine.program.types act.function.locals block))
  | [] => runs_nil
  | statement :: rest =>
    runs_cons (simplifyStatementAlgebra_runs statement) (simplifyBlockAlgebra_runs rest)

end

omit alike counterparts in
/-- The branch that a constant selects. -/
theorem constantBranch_runs {selection : Bool} {thenBlock elseBlock : Block} {target : Block}
    (selected : (simulation (fun _ => False) .identity act act').Runs
      (execBlock (act.semantics machine invoke) budget
        (if selection then thenBlock else elseBlock))
      (execBlock (act'.semantics (machine.withFunctions functions) invoke') budget target)) :
    (simulation (fun _ => False) .identity act act').Runs
      (Stm.exec (act.semantics machine invoke) budget
        (.ite (.constant (.bool selection)) thenBlock elseBlock))
      (execBlock (act'.semantics (machine.withFunctions functions) invoke') budget target) := by
  intro world state state' states
  rw [exec_ite]
  exact selected world _ state' ⟨states.1.note_left rfl, states.2⟩

omit alike counterparts in
/-- An operation other than an assignment is kept. -/
theorem canonicalizeStatement_op (floats : FloatOps) {operation : Operation}
    (kept : ∀ destination value, operation ≠ .assign destination value) :
    canonicalizeStatement floats (.op operation) = [.op operation] := by
  rw [canonicalizeStatement]
  · intro destination value same
    cases same
    exact kept destination value rfl
  all_goals nofun

omit alike counterparts in
/-- A condition that is not a constant is kept. -/
theorem canonicalizeStatement_ite (floats : FloatOps) {condition : Value}
    (kept : ∀ selection, condition ≠ .constant (.bool selection)) (thenBlock elseBlock : Block) :
    canonicalizeStatement floats (.ite condition thenBlock elseBlock)
      = [.ite condition (canonicalizeBlock floats thenBlock)
          (canonicalizeBlock floats elseBlock)] := by
  rw [canonicalizeStatement]
  exact kept

mutual

theorem canonicalizeStatement_runs : ∀ (statement : Statement),
    (simulation (fun _ => False) .identity act act').Runs
      (Stm.exec (act.semantics machine invoke) budget statement)
      (execBlock (act'.semantics (machine.withFunctions functions) invoke') budget
        (canonicalizeStatement machine.host.floats statement))
  | .op (.assign destination value) => by
    rw [canonicalizeStatement, execBlock_singleton]
    exact runs_assign (rewriteDestination_identity destination) fun _ _ _ memories acts =>
      foldedRvalue_corresponds memories acts.toActivations acts.mapping value
  | .op (.call ..) | .op (.publishDelegate ..) | .op (.publishLog ..) | .op (.outputStore ..)
  | .op (.controlOutputStore ..) | .op (.bufferStore ..) | .op (.bufferParamStore ..)
  | .op (.sliceStore ..) | .op (.sliceFill ..) | .op (.sliceCopy ..) => by
    rw [canonicalizeStatement_op _ (by simp), execBlock_singleton]
    exact unchanged_runs alike counterparts _
  | .ite (.constant (.bool selection)) thenBlock elseBlock => by
    rw [canonicalizeStatement]
    refine constantBranch_runs ?_
    cases selection with
    | true => exact canonicalizeBlock_runs thenBlock
    | false => exact canonicalizeBlock_runs elseBlock
  | .ite (.constant (.f32 _)) thenBlock elseBlock
  | .ite (.constant (.f64 _)) thenBlock elseBlock
  | .ite (.constant (.i32 _)) thenBlock elseBlock
  | .ite (.constant (.i64 _)) thenBlock elseBlock
  | .ite (.localVar _) thenBlock elseBlock => by
    rw [canonicalizeStatement_ite _ (by simp), execBlock_singleton]
    exact runs_condition (rewriteValue_identity _) (canonicalizeBlock_runs thenBlock)
      (canonicalizeBlock_runs elseBlock)
  | .loop body => by
    rw [canonicalizeStatement, execBlock_singleton]
    exact runs_loop semantics_agrees (canonicalizeBlock_runs body)
  | .brk => by
    have kept : canonicalizeStatement machine.host.floats .brk = [.brk] := by
      simp [canonicalizeStatement]
    rw [kept, execBlock_singleton]
    exact runs_brk
  | .cont => by
    have kept : canonicalizeStatement machine.host.floats .cont = [.cont] := by
      simp [canonicalizeStatement]
    rw [kept, execBlock_singleton]
    exact runs_cont
  | .ret values => by
    have kept : canonicalizeStatement machine.host.floats (.ret values) = [.ret values] := by
      simp [canonicalizeStatement]
    rw [kept, execBlock_singleton]
    exact returns_runs values

theorem canonicalizeBlock_runs : ∀ (block : Block),
    (simulation (fun _ => False) .identity act act').Runs
      (execBlock (act.semantics machine invoke) budget block)
      (execBlock (act'.semantics (machine.withFunctions functions) invoke') budget
        (canonicalizeBlock machine.host.floats block))
  | [] => runs_nil
  | statement :: rest => by
    rw [canonicalizeBlock, execBlock_cut, execBlock_cons]
    exact runs_andThen (canonicalizeStatement_runs statement) (canonicalizeBlock_runs rest)

end

end Statements

/-! ### Programs -/

/-- The identities change no behaviour. -/
theorem simplify_corresponds (machine : Machine) (budget : Nat) :
    Corresponds machine
      (machine.program.functions.map fun callee =>
        { callee with
          body := simplifyBlockAlgebra machine.program.types callee.locals callee.body })
      (fun _ => .identity) (fun _ => False) budget := by
  refine .ofBodies _ fun callee invoke invoke' act act' source alike => ?_
  subst source
  exact simplifyBlockAlgebra_runs alike (counterparts_ofBodies _ _) _

/-- Folding and dropping what is unreachable change no behaviour. -/
theorem canonicalize_corresponds (machine : Machine) (budget : Nat) :
    Corresponds machine
      (machine.program.functions.map fun callee =>
        { callee with body := canonicalizeBlock machine.host.floats callee.body })
      (fun _ => .identity) (fun _ => False) budget :=
  .ofBodies _ fun _ _ _ _ _ _ alike =>
    canonicalizeBlock_runs alike (counterparts_ofBodies _ _) _

end Canonicalize

theorem Program.canonicalize_functions (floats : FloatOps) (program : Program) :
    (program.canonicalize floats).functions
      = (program.functions.map fun callee =>
          { callee with
            body := Canonicalize.simplifyBlockAlgebra program.types callee.locals callee.body }).map
        fun callee =>
          { callee with body := Canonicalize.canonicalizeBlock floats callee.body } := by
  rw [List.map_map]
  rfl

/-- Canonicalization, folding and algebraic simplification preserve the behaviour of
every call from the host. -/
theorem Program.canonicalize_preserves (program : Program) (host : Host) (budget depth : Nat)
    (function : FunctionId) (args : List Data) (memory : Memory) (data : HostData memory args) :
    (∃ reason, (Machine.enter ⟨program, host⟩ budget depth function args memory).2 = .stop reason
      ∧ reason.Escapes)
    ∨ SameBehavior (Machine.enter ⟨program, host⟩ budget depth function args memory)
        (Machine.enter ⟨program.canonicalize host.floats, host⟩ budget depth function args
          memory) := by
  have simplified := (Canonicalize.simplify_corresponds ⟨program, host⟩ budget).enter depth
    function (fun _ _ mapped => (Option.some.inj mapped).symm) data
  have canonical := (Canonicalize.canonicalize_corresponds
    (Machine.withFunctions ⟨program, host⟩ (program.functions.map fun callee =>
      { callee with
        body := Canonicalize.simplifyBlockAlgebra program.types callee.locals callee.body }))
    budget).enter depth function
    (fun _ _ mapped => (Option.some.inj mapped).symm) data
  rcases simplified with ⟨reason, stopped, escapes | excused⟩ | same
  · exact .inl ⟨reason, stopped, escapes⟩
  · exact excused.elim
  rcases canonical with ⟨reason, stopped, escapes | excused⟩ | same'
  · exact .inl ⟨reason, same.stop stopped, escapes⟩
  · exact excused.elim
  refine .inr (same.trans ?_)
  have result : (⟨program.canonicalize host.floats, host⟩ : Machine)
      = Machine.withFunctions ⟨program, host⟩ (program.canonicalize host.floats).functions := rfl
  rw [result, Program.canonicalize_functions]
  exact same'

/-- `2 + 3` is folded, and the branch of a constant condition selected. -/
def foldingProgram : Program :=
  { Program.minimal [] {} [{ ty := 0 }]
      [.op (.assign ⟨.localVar 0, []⟩ (.binary .add (.i32 2) (.i32 3))),
       .ite (.constant (.bool true))
         [.op (.assign ⟨.state 0, []⟩ (.use (.localVar 0)))] []] with
    state := [{ name := "sum", ty := 0, persistence := .snapshot }] }

theorem Program.canonicalize_preserves_folding :
    HostData .silent [.leaf (.scalar (.i32 0)), .leaf (.scalar (.i32 16)), .leaf (.scalar (.i32 0))]
    ∧ ((∃ reason, (foldingProgram.onSilentHost.process 8 2).2 = .stop reason ∧ reason.Escapes)
      ∨ SameBehavior (foldingProgram.onSilentHost.process 8 2)
          ((foldingProgram.canonicalize .silent).onSilentHost.process 8 2)) :=
  ⟨.silent [.i32 0, .i32 16, .i32 0],
    Program.canonicalize_preserves foldingProgram .silent 8 2 1 _ .silent
      (.silent [.i32 0, .i32 16, .i32 0])⟩

end Onda.Mir
