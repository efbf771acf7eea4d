import Onda.Mir.Minimal
import Onda.Mir.RangeSoundness
import Onda.Mir.Validate.Facts

/-!
# Ranges of rvalues

`rangeOfRvalue` against `evalRvalue`: whenever the operands of an rvalue hold
values of their ranges, the value it evaluates to is in the computed range.

There is one exception.  A checked `NormalizeIndex` compares its index with its
length as unsigned numbers, so a negative length admits negative indices, while
the analysis takes every normalized index for a nonnegative one.
`CheckedNegative` is that case and `rangeOfRvalue_sound_iff` says that it is the
only one.
-/

namespace Onda.Mir

open Structured Set

/-! ### What the analysis relies on -/

/-- The storage at a location, when it is read, holds a value of the range. -/
def Loc.HoldsRange (machine : Machine) (memory : Memory) (loc : Loc) (range : IntegerRange) :
    Prop :=
  ∀ data, (fetch machine loc memory).2 = .ok data →
    ∃ value, data = scalarResult value ∧ range.Holds value

/-- Every storage the environment bounds holds a value of its range. -/
structure RangesHold (machine : Machine) (act : Activation) (memory : Memory)
    (parameters environment : RangeEnvironment) : Prop where
  locals : ∀ localId range loc, environment.at localId = some range →
    act.localLoc localId = some loc → loc.HoldsRange machine memory range
  parameters : ∀ parameter range loc, parameters.at parameter = some range →
    act.params[parameter]? = some loc → loc.HoldsRange machine memory range
  states : ∀ (state : StateId) slot invariant range, machine.program.state[state]? = some slot →
    slot.integerRange = some invariant → integerRangeFromInvariant invariant = some range →
    Loc.HoldsRange machine memory
      { object := .state state, path := [], view := .whole, ty := slot.ty } range

/-- What the host promises about a call, and how long a slice can be. -/
structure RangeContract (machine : Machine) (act : Activation) (memory : Memory) : Prop where
  segment : machine.host.startFrame.toNat + machine.host.frames.toNat
    ≤ machine.program.config.blockSize
  slices : ∀ value desc, (evalSlice machine act value memory).2 = .ok desc → desc.len < 2 ^ 31

/-- A checked index normalization with a negative index and a negative
length. -/
def CheckedNegative (machine : Machine) (act : Activation) (memory : Memory)
    (rvalue : Rvalue) : Prop :=
  ∃ index length i n, rvalue = .normalizeIndex index length .checked
    ∧ (evalI32 machine act index memory).2 = .ok i
    ∧ (evalI32 machine act length memory).2 = .ok n ∧ i.toInt < 0 ∧ n.toInt < 0

/-! ### Operands -/

section Operands

variable {machine : Machine} {act : Activation} {memory : Memory}
  {parameters environment : RangeEnvironment}

variable {data : Data} {range : IntegerRange} {memory : Memory}

theorem ofExcept_ok {α : Type} {result : Except Stop α} {value : α}
    (run : (ofExcept result memory).2 = .ok value) : result = .ok value := by
  cases result with
  | ok other => exact run
  | error reason => cases run

theorem orThrow_ok {α : Type} {reason : Stop} {option : Option α} {value : α}
    (run : ((Eval.orThrow reason option : Run α) memory).2 = .ok value) :
    option = some value := by
  cases option with
  | none => cases run
  | some other => cases run; rfl

theorem require_ok {condition : Bool} {reason : Stop} {value : Unit}
    (run : ((Eval.require condition reason : Run Unit) memory).2 = .ok value) :
    condition = true := by
  cases condition with
  | false => cases run
  | true => rfl

theorem scalarResult_map_ok {action : Run ScalarValue}
    (run : ((scalarResult <$> action) memory).2 = .ok data) :
    ∃ value, (action memory).2 = .ok value ∧ data = scalarResult value := by
  rw [← bind_pure_comp] at run
  obtain ⟨value, first, last⟩ := Eval.bind_ok run
  cases last
  exact ⟨value, first, rfl⟩

/-- The scalar an operand evaluates to is all of its value. -/
theorem evalScalar_ok {value : Value} {scalar : ScalarValue}
    (run : (evalScalar machine act value memory).2 = .ok scalar) :
    (evalValue machine act value memory).2 = .ok (scalarResult scalar) := by
  obtain ⟨leaf, evaluated, known⟩ := Eval.bind_ok run
  obtain ⟨data, fetched, single⟩ := Eval.bind_ok evaluated
  split at single
  · cases single
    split at known
    · cases known
      exact fetched
    · cases known
  · cases single

/-- An operand holds a value of its range. -/
theorem RangesHold.value (holds : RangesHold machine act memory parameters environment)
    {value : Value} (known : rangeOfValue environment value = some range)
    (run : (evalValue machine act value memory).2 = .ok data) :
    ∃ scalar, data = scalarResult scalar ∧ range.Holds scalar := by
  cases value with
  | constant value =>
    cases run
    exact ⟨value, rfl, IntegerRange.holds_singleton known⟩
  | localVar localId =>
    obtain ⟨loc, found, fetched⟩ := Eval.bind_ok run
    exact holds.locals localId range loc known (orThrow_ok found) data fetched

theorem RangesHold.scalar (holds : RangesHold machine act memory parameters environment)
    {value : Value} {range : IntegerRange} {scalar : ScalarValue}
    (known : rangeOfValue environment value = some range)
    (run : (evalScalar machine act value memory).2 = .ok scalar) : range.Holds scalar := by
  obtain ⟨other, same, within⟩ := holds.value known (evalScalar_ok run)
  obtain rfl : scalar = other := by
    simpa [scalarResult, Data.leaf] using same
  exact within

/-- Reading a whole storage gives what fetching it gives. -/
theorem readLoc_fetch {loc : Loc} (run : (readLoc machine act loc memory).2 = .ok data) :
    (fetch machine loc memory).2 = .ok data := by
  obtain ⟨shape, known, rest⟩ := Eval.bind_ok run
  obtain ⟨-, -, read⟩ := Eval.bind_ok rest
  simp only [fetch, Eval.run_bind]
  rw [orThrow_ok known]
  exact read

/-- A plain place holds a value of its range. -/
theorem RangesHold.load (holds : RangesHold machine act memory parameters environment)
    {place : Place} (plain : place.projections = [])
    (known : rangeOfPlainPlace machine.program parameters environment place.base = some range)
    (run : (evalRvalue machine act (.load place) memory).2 = .ok data) :
    ∃ scalar, data = scalarResult scalar ∧ range.Holds scalar := by
  obtain ⟨loc, lowered, read⟩ := Eval.bind_ok run
  obtain ⟨root, storage, projected⟩ := Eval.bind_ok lowered
  rw [plain] at projected
  cases projected
  have fetched := readLoc_fetch read
  have based := orThrow_ok storage
  cases base : place.base with
  | localVar localId =>
    rw [base] at based known
    exact holds.locals localId range loc known based data fetched
  | parameter parameter =>
    rw [base] at based known
    exact holds.parameters parameter range loc known based data fetched
  | state state =>
    rw [base] at based known
    simp only [rangeOfPlainPlace, Activation.baseStorage, Option.bind_eq_bind,
      Option.bind_eq_some_iff, Option.pure_def, Option.some.injEq] at known based
    obtain ⟨slot, found, rfl⟩ := based
    obtain ⟨other, found', invariant, declared, converted⟩ := known
    obtain rfl : slot = other := by rw [found] at found'; exact Option.some.inj found'
    exact holds.states state slot invariant range found declared converted data fetched
  | param param => rw [base] at known; cases known
  | eventParam param => rw [base] at known; cases known

end Operands

/-! ### Scalar operations -/

section Scalars

variable {floats : FloatOps}

theorem encloses_unary {op : UnaryOp} {operand : IntegerRange} :
    Encloses (rangeOfUnary op operand)
      fun result => ∃ x, operand.Holds x ∧ ConstantEval.unary op x = some result := by
  cases op with
  | logicalNot => exact encloses_none
  | bitNot =>
    refine encloses_full ?_
    rintro value ⟨x, ⟨typed, number, known, _⟩, computed⟩
    cases x <;> simp only [ScalarValue.toInt?, reduceCtorEq] at known <;>
      simp only [ConstantEval.unary, Option.some.injEq] at computed
    all_goals
      subst computed
      exact ⟨typed, _, rfl⟩
  | negate =>
    have low := operand.min_mem.1
    have high := operand.max_mem.2
    have ordered := operand.ordered
    simp only [rangeOfUnary, Arith.neg, Arith.i128_of_small (-operand.max) (by omega) (by omega),
      Arith.i128_of_small (-operand.min) (by omega) (by omega)]
    refine .of_some fun range found value => ?_
    rintro ⟨x, ⟨typed, number, known, lower, upper⟩, computed⟩
    have wraps : Wraps value operand.scalar (-number) := by
      cases x <;> simp only [ScalarValue.toInt?, reduceCtorEq, Option.some.injEq] at known <;>
        simp only [ConstantEval.unary, Option.some.injEq] at computed
      all_goals
        subst computed known
        rw [← typed]
        exact ⟨rfl, congrArg some BitVec.toInt_neg⟩
    exact checkedRange_holds found wraps (by omega) (by omega)

variable {pick : Int → Int → Int} {range : IntegerRange} {op : Intrinsic}
  {lhs rhs : Option IntegerRange} {result x : ScalarValue}

theorem rangeOfCast_holds {source : IntegerRange} {target : ScalarType}
    (found : rangeOfCast source target = some range) (holds : source.Holds x)
    (computed : ConstantEval.cast floats x target = some result) :
    range.Holds result := by
  obtain ⟨typed, number, known, lower, upper⟩ := holds
  cases x with
  | f32 | f64 | bool => simp [ScalarValue.toInt?] at known
  | i32 bits =>
    simp only [ScalarValue.ty] at typed
    cases known
    cases target <;>
      simp only [rangeOfCast, ← typed, reduceCtorEq, if_false, if_true, Option.some.injEq] at found
    · cases computed
      subst found
      exact ⟨typed, _, rfl, lower, upper⟩
    · cases computed
      refine IntegerRange.holds_of_new found rfl rfl ?_ ?_
      · rwa [BitVec.toInt_signExtend_of_le (by decide)]
      · rwa [BitVec.toInt_signExtend_of_le (by decide)]
  | i64 bits =>
    simp only [ScalarValue.ty] at typed
    cases known
    cases target <;>
      simp only [rangeOfCast, ← typed, reduceCtorEq, if_false, if_true, Option.some.injEq] at found
    · -- A range that fits `i32` is not changed by truncation.
      cases computed
      cases narrow : IntegerRange.new .i32 source.min source.max with
      | none =>
        rw [narrow, Option.none_or] at found
        exact IntegerRange.holds_full found rfl rfl
      | some made =>
        rw [narrow] at found
        obtain rfl : made = range := Option.some.inj found
        obtain ⟨scalar, least, greatest⟩ := IntegerRange.new_eq_some narrow
        obtain ⟨⟨typeMin, typeMax⟩, bounds, low, high⟩ := made.fits
        rw [scalar] at bounds
        cases bounds
        have kept : (bits.setWidth 32).toInt = bits.toInt := by
          have twice := Int.bmod_bmod_of_dvd (a := bits.toNat) (show 2 ^ 32 ∣ 2 ^ 64 by decide)
          rw [BitVec.toInt_setWidth, ← twice, ← BitVec.toInt_eq_toNat_bmod]
          simp only at low high
          exact Int.bmod_eq_of_le (by omega) (by omega)
        refine IntegerRange.holds_of_new narrow rfl rfl ?_ ?_
        · rwa [BitVec.truncate_eq_setWidth, kept]
        · rwa [BitVec.truncate_eq_setWidth, kept]
    · cases computed
      subst found
      exact ⟨typed, _, rfl, lower, upper⟩

/-- The integers behind the operands of an intrinsic: all of one type. -/
def Integers (scalar : ScalarType) {width : Nat} (args : List ScalarValue)
    (values : List (BitVec width)) : Prop :=
  List.Forall₂ (fun arg value => arg.ty = scalar ∧ arg.toInt? = some value.toInt) args values

/-- An intrinsic with an integer operand is an operation on integers of one
width. -/
theorem intrinsic_integer {args : List ScalarValue} {arg : ScalarValue} {a : Int} (mem : arg ∈ args)
    (known : arg.toInt? = some a) (computed : ConstantEval.intrinsic floats op args = some result) :
    ∃ (width : Nat) (values : List (BitVec width)) (r : BitVec width),
      (width = 32 ∨ width = 64) ∧ Integers arg.ty args values ∧ result.ty = arg.ty
        ∧ result.toInt? = some r.toInt ∧ ConstantEval.integerIntrinsic op values = some r := by
  -- The first operand picks the type all operands have to have.
  unfold ConstantEval.intrinsic at computed
  split at computed
  case h_5 => cases computed
  all_goals
    simp only [Option.bind_eq_bind, Option.bind_eq_some_iff, Option.pure_def,
      Option.some.injEq] at computed
    obtain ⟨values, mapped, r, operated, rfl⟩ := computed
    have each := forall₂_of_mapM mapped
    obtain ⟨value, -, extracted⟩ := exists_of_forall₂_mem each.flip mem
    cases arg <;> simp only [reduceCtorEq] at extracted
  · cases known
  · cases known
  · refine ⟨32, values, r, .inl rfl, each.imp fun other number found => ?_, rfl, rfl, operated⟩
    cases other <;> simp only [reduceCtorEq, Option.some.injEq] at found
    subst found
    exact ⟨rfl, rfl⟩
  · refine ⟨64, values, r, .inr rfl, each.imp fun other number found => ?_, rfl, rfl, operated⟩
    cases other <;> simp only [reduceCtorEq, Option.some.injEq] at found
    subst found
    exact ⟨rfl, rfl⟩

theorem signedMin_toInt {width : Nat} (x y : BitVec width) :
    (ConstantEval.signedMin x y).toInt = min x.toInt y.toInt := by
  unfold ConstantEval.signedMin
  by_cases less : x.toInt < y.toInt
  · simp [BitVec.slt, less, less.le]
  · simp [BitVec.slt, less, not_lt.mp less]

theorem signedMax_toInt {width : Nat} (x y : BitVec width) :
    (ConstantEval.signedMax x y).toInt = max x.toInt y.toInt := by
  unfold ConstantEval.signedMax
  by_cases less : x.toInt < y.toInt
  · simp [BitVec.slt, less, less.le]
  · simp [BitVec.slt, less, not_lt.mp less]

/-- The known operand of a pair decides what is taken for the other. -/
theorem rangeOfExtremum_holds {y : ScalarValue} {a b : Int}
    (monotone : ∀ p q p' q', p ≤ p' → q ≤ q' → pick p q ≤ pick p' q')
    (found : rangeOfExtremum pick lhs rhs = some range)
    (left : ∀ known, lhs = some known → known.Holds x)
    (right : ∀ known, rhs = some known → known.Holds y) (same : y.ty = x.ty)
    (numX : x.toInt? = some a) (numY : y.toInt? = some b) (typed : result.ty = x.ty)
    (numR : result.toInt? = some (pick a b)) : range.Holds result := by
  simp only [rangeOfExtremum, Option.bind_eq_bind, Option.bind_eq_some_iff] at found
  obtain ⟨either, which, lhs', atLeft, rhs', atRight, found⟩ := found
  have scalar : either.scalar = x.ty := by
    cases lhs with
    | some known =>
      obtain rfl : known = either := Option.some.inj which
      exact (left known rfl).1.symm
    | none => exact (right either which).1.symm.trans same
  have holdsX : lhs'.Holds x := by
    cases lhs with
    | some known =>
      obtain rfl : known = lhs' := Option.some.inj atLeft
      exact left known rfl
    | none =>
      rw [Option.none_or] at atLeft
      exact IntegerRange.holds_full atLeft scalar.symm numX
  have holdsY : rhs'.Holds y := by
    cases rhs with
    | some known =>
      obtain rfl : known = rhs' := Option.some.inj atRight
      exact right known rfl
    | none =>
      rw [Option.none_or] at atRight
      exact IntegerRange.holds_full atRight (same.trans scalar.symm) numY
  split at found
  · cases found
  · obtain ⟨typedX, a', known, lowerX, upperX⟩ := holdsX
    obtain ⟨-, b', known', lowerY, upperY⟩ := holdsY
    obtain rfl : a = a' := by rw [numX] at known; exact Option.some.inj known
    obtain rfl : b = b' := by rw [numY] at known'; exact Option.some.inj known'
    exact IntegerRange.holds_of_new found (typed.trans typedX) numR
      (monotone _ _ _ _ lowerX lowerY) (monotone _ _ _ _ upperX upperY)

theorem extremum_holds {y : ScalarValue} (which : op = .min ∧ pick = min ∨ op = .max ∧ pick = max)
    (found : rangeOfExtremum pick lhs rhs = some range)
    (left : ∀ known, lhs = some known → known.Holds x)
    (right : ∀ known, rhs = some known → known.Holds y)
    (computed : ConstantEval.intrinsic floats op [x, y] = some result) : range.Holds result := by
  -- One of the operands has a range, so both are integers of its type.
  obtain ⟨arg, a, mem, known⟩ : ∃ arg a, arg ∈ [x, y] ∧ arg.toInt? = some a := by
    cases lhs with
    | some range =>
      obtain ⟨-, a, known, -⟩ := left range rfl
      exact ⟨x, a, by simp, known⟩
    | none =>
      cases rhs with
      | some range =>
        obtain ⟨-, a, known, -⟩ := right range rfl
        exact ⟨y, a, by simp, known⟩
      | none => cases found
  obtain ⟨width, values, r, -, integers, typed, numR, operated⟩ :=
    intrinsic_integer mem known computed
  obtain ⟨p, q, rfl, atX, atY⟩ : ∃ p q, values = [p, q]
      ∧ (x.ty = arg.ty ∧ x.toInt? = some p.toInt) ∧ y.ty = arg.ty ∧ y.toInt? = some q.toInt := by
    cases integers with
    | cons atX more =>
      cases more with
      | cons atY more =>
        cases more
        exact ⟨_, _, rfl, atX, atY⟩
  have picked : r.toInt = pick p.toInt q.toInt := by
    rcases which with ⟨rfl, rfl⟩ | ⟨rfl, rfl⟩
    · cases operated
      exact signedMin_toInt p q
    · cases operated
      exact signedMax_toInt p q
  have monotone : ∀ p q p' q', p ≤ p' → q ≤ q' → pick p q ≤ pick p' q' := by
    rcases which with ⟨-, rfl⟩ | ⟨-, rfl⟩
    · exact fun _ _ _ _ => min_le_min
    · exact fun _ _ _ _ => max_le_max
  exact rangeOfExtremum_holds monotone found left right (atY.1.trans atX.1.symm) atX.2 atY.2
    (typed.trans atX.1.symm) (by rw [numR, picked])

/-- A normalization to a nonempty constant range ends in it. -/
theorem rangeOfNormalization_holds {lower upper : Option IntegerRange} {low high : ScalarValue}
    (normalization : op = .rangeClamp ∨ op = .rangeWrap)
    (found : rangeOfNormalization lower upper = some range)
    (atLow : ∀ known, lower = some known → known.Holds low)
    (atHigh : ∀ known, upper = some known → known.Holds high)
    (computed : ConstantEval.intrinsic floats op [x, low, high] = some result) :
    range.Holds result := by
  simp only [rangeOfNormalization, Option.bind_eq_bind, Option.bind_eq_some_iff] at found
  obtain ⟨lower, rfl, upper, rfl, found⟩ := found
  obtain ⟨typedLow, l, knownLow, lowerLow, upperLow⟩ := atLow lower rfl
  obtain ⟨-, h, knownHigh, lowerHigh, upperHigh⟩ := atHigh upper rfl
  obtain ⟨width, values, r, power, integers, typed, numR, operated⟩ :=
    intrinsic_integer (by simp : low ∈ [x, low, high]) knownLow computed
  obtain ⟨p, q, s, rfl, numLow, numHigh⟩ : ∃ p q s, values = [p, q, s]
      ∧ low.toInt? = some q.toInt ∧ high.toInt? = some s.toInt := by
    cases integers with
    | cons _ more =>
      cases more with
      | cons atLow more =>
        cases more with
        | cons atHigh more =>
          cases more
          exact ⟨_, _, _, rfl, atLow.2, atHigh.2⟩
  obtain rfl : l = q.toInt := by rw [knownLow] at numLow; exact Option.some.inj numLow
  obtain rfl : h = s.toInt := by rw [knownHigh] at numHigh; exact Option.some.inj numHigh
  split at found
  · cases found
  case isFalse single =>
    simp only [not_or, not_not, not_lt] at single
    obtain ⟨-, single, single', ordered⟩ := single
    refine IntegerRange.holds_of_new found (typed.trans typedLow) numR ?_ ?_
    all_goals
      rcases normalization with rfl | rfl
      · cases operated
        rw [signedMin_toInt, signedMax_toInt]
        omega
      · simp only [ConstantEval.integerIntrinsic] at operated
        split at operated
        · cases operated
        · cases operated
          have reduced := Int.emod_nonneg (p.toInt - q.toInt)
            (show s.toInt - q.toInt + 1 ≠ 0 by omega)
          have below := Int.emod_lt_of_pos (p.toInt - q.toInt)
            (show 0 < s.toInt - q.toInt + 1 by omega)
          have low := q.le_toInt
          have high := s.toInt_lt
          rw [BitVec.toInt_ofInt, Int.bmod_eq_of_le]
          · omega
          · rcases power with rfl | rfl <;> norm_num at low high ⊢ <;> omega
          · rcases power with rfl | rfl <;> norm_num at low high ⊢ <;> omega

end Scalars

/-! ### Rvalues -/

section Rvalues

variable {machine : Machine} {act : Activation} {memory : Memory}
  {parameters environment : RangeEnvironment} {data : Data}

/-- A range was found, and its storage holds a value. -/
def InRange (range : IntegerRange) (data : Data) : Prop :=
  ∃ value, data = scalarResult value ∧ range.Holds value

theorem Encloses.inRange {computed : Arith (Option IntegerRange)} {P : ScalarValue → Prop}
    {value : ScalarValue} (encloses : Encloses computed P) (holds : P value) :
    ∃ found, computed = some found ∧
      ∀ range, found = some range → InRange range (scalarResult value) := by
  obtain ⟨found, same, each⟩ := encloses
  exact ⟨found, same, fun range known => ⟨value, rfl, each range known value holds⟩⟩

variable {bounds : BoundsMode} {range : IntegerRange} {operands : List ScalarValue}
  {args : List Value} {selected : SelectedBuffer}

/-- A nonnegative `i32` is in the range of indices. -/
theorem indexRange_holds {bits : BitVec 32} (found : indexRange = some range)
    (nonneg : 0 ≤ bits.toInt) :
    InRange range (scalarResult (.i32 bits)) := by
  have below := bits.toInt_lt
  exact ⟨_, rfl, IntegerRange.holds_of_new found rfl rfl nonneg (by omega)⟩

theorem indexRange_holds_count {count : Nat} (found : indexRange = some range)
    (small : count < 2 ^ 31) :
    InRange range (scalarResult (.i32 (BitVec.ofNat 32 count))) := by
  refine indexRange_holds found ?_
  rw [BitVec.toInt_eq_toNat_cond, BitVec.toNat_ofNat, Nat.mod_eq_of_lt (by omega),
    if_pos (by omega)]
  exact Int.natCast_nonneg count

/-- The operands of an intrinsic are evaluated one by one. -/
theorem operands_ok (run : ((args.mapM (evalScalar machine act)) memory).2 = .ok operands) :
    List.Forall₂ (fun arg operand => (evalScalar machine act arg memory).2 = .ok operand)
      args operands :=
  (Eval.Returns.mapM fun _ _ => Eval.Returns.self) operands run

theorem pair_ok {lhs rhs : Value}
    (run : (([lhs, rhs].mapM (evalScalar machine act)) memory).2 = .ok operands) :
    ∃ x y, operands = [x, y] ∧ (evalScalar machine act lhs memory).2 = .ok x
      ∧ (evalScalar machine act rhs memory).2 = .ok y := by
  cases operands_ok run with
  | cons first more =>
    cases more with
    | cons second more =>
      cases more
      exact ⟨_, _, rfl, first, second⟩

theorem triple_ok {value lower upper : Value}
    (run : (([value, lower, upper].mapM (evalScalar machine act)) memory).2 = .ok operands) :
    ∃ x low high, operands = [x, low, high]
      ∧ (evalScalar machine act lower memory).2 = .ok low
      ∧ (evalScalar machine act upper memory).2 = .ok high := by
  cases operands_ok run with
  | cons _ more =>
    cases more with
    | cons second more =>
      cases more with
      | cons third more =>
        cases more
        exact ⟨_, _, _, rfl, second, third⟩

theorem intrinsic_inRange (holds : RangesHold machine act memory parameters environment)
    {op : Intrinsic} (found : rangeOfIntrinsic environment op args = some range)
    (run : (evalRvalue machine act (.intrinsic op args) memory).2 = .ok data) :
    InRange range data := by
  obtain ⟨operands, evaluated, rest⟩ := Eval.bind_ok run
  obtain ⟨result, computed, rfl⟩ := scalarResult_map_ok rest
  have computed := orThrow_ok computed
  refine ⟨result, rfl, ?_⟩
  unfold rangeOfIntrinsic at found
  split at found
  case h_5 => cases found
  · obtain ⟨x, y, rfl, runX, runY⟩ := pair_ok evaluated
    exact extremum_holds (.inl ⟨rfl, rfl⟩) found (fun known bounded => holds.scalar bounded runX)
      (fun known bounded => holds.scalar bounded runY) computed
  · obtain ⟨x, y, rfl, runX, runY⟩ := pair_ok evaluated
    exact extremum_holds (.inr ⟨rfl, rfl⟩) found (fun known bounded => holds.scalar bounded runX)
      (fun known bounded => holds.scalar bounded runY) computed
  · obtain ⟨x, low, high, rfl, runLow, runHigh⟩ := triple_ok evaluated
    exact rangeOfNormalization_holds (.inl rfl) found
      (fun known bounded => holds.scalar bounded runLow) (fun known bounded => holds.scalar bounded runHigh)
      computed
  · obtain ⟨x, low, high, rfl, runLow, runHigh⟩ := triple_ok evaluated
    exact rangeOfNormalization_holds (.inr rfl) found
      (fun known bounded => holds.scalar bounded runLow) (fun known bounded => holds.scalar bounded runHigh)
      computed

theorem unary_inRange (holds : RangesHold machine act memory parameters environment)
    {op : UnaryOp} {operand : Value}
    (run : (evalRvalue machine act (.unary op operand) memory).2 = .ok data) :
    ∃ found, rangeOfRvalue machine.program parameters environment (.unary op operand) = some found
      ∧ ∀ range, found = some range → InRange range data := by
  simp only [rangeOfRvalue]
  cases known : rangeOfValue environment operand with
  | none => exact ⟨none, rfl, by simp⟩
  | some range =>
    obtain ⟨x, evaluated, rest⟩ := Eval.bind_ok run
    obtain ⟨result, computed, rfl⟩ := scalarResult_map_ok rest
    exact encloses_unary.inRange ⟨x, holds.scalar known evaluated, orThrow_ok computed⟩

theorem binary_inRange (holds : RangesHold machine act memory parameters environment)
    {op : BinaryOp} {lhs rhs : Value}
    (run : (evalRvalue machine act (.binary op lhs rhs) memory).2 = .ok data) :
    ∃ found, rangeOfRvalue machine.program parameters environment (.binary op lhs rhs) = some found
      ∧ ∀ range, found = some range → InRange range data := by
  simp only [rangeOfRvalue]
  cases left : rangeOfValue environment lhs with
  | none => exact ⟨none, rfl, by simp⟩
  | some range =>
    cases right : rangeOfValue environment rhs with
    | none => exact ⟨none, rfl, by simp⟩
    | some range' =>
      obtain ⟨x, atLeft, rest⟩ := Eval.bind_ok run
      obtain ⟨y, atRight, rest⟩ := Eval.bind_ok rest
      obtain ⟨result, computed, rfl⟩ := scalarResult_map_ok rest
      exact encloses_binary.inRange
        ⟨x, y, holds.scalar left atLeft, holds.scalar right atRight, orThrow_ok computed⟩

theorem processFrame_inRange (contract : RangeContract machine act memory) {offset : Value}
    (found : IntegerRange.new .i32 0 ((machine.program.config.blockSize - 1 : Nat) : Int)
      = some range) (run : (evalRvalue machine act (.processFrame offset) memory).2 = .ok data) :
    InRange range data := by
  obtain ⟨bits, -, rest⟩ := Eval.bind_ok run
  obtain ⟨_, inside, rest⟩ := Eval.bind_ok rest
  cases rest
  have below : bits.toNat < machine.host.frames.toNat := by
    simpa [BitVec.ult] using require_ok inside
  -- The bound of the range is an `i32`, so the frame is one.
  obtain ⟨scalar, -, greatest⟩ := IntegerRange.new_eq_some found
  obtain ⟨⟨typeMin, typeMax⟩, bounds, -, high⟩ := range.fits
  rw [scalar] at bounds
  cases bounds
  have segment := contract.segment
  simp only at high
  rw [greatest] at high
  have frame : (machine.host.startFrame + bits).toNat
      = machine.host.startFrame.toNat + bits.toNat := by
    rw [BitVec.toNat_add, Nat.mod_eq_of_lt (by omega)]
  refine ⟨_, rfl, IntegerRange.holds_of_new found rfl rfl ?_ ?_⟩
  · rw [BitVec.toInt_eq_toNat_cond, frame, if_pos (by omega)]
    omega
  · rw [BitVec.toInt_eq_toNat_cond, frame, if_pos (by omega)]
    omega

/-! ### Lengths and counts -/

/-- The static channel counts an accepted program declares are `i32`s. -/
theorem channels_small {channels : BufferChannels} {element : ScalarType} {count : Nat}
    (valid : Validate.channelsValidationError channels element = none)
    (static : channels = .static count) : count < 2 ^ 31 := by
  subst static
  have width : 1 ≤ element.logicalByteWidth := by cases element <;> decide
  have most : Validate.i32Max / element.logicalByteWidth ≤ Validate.i32Max :=
    Nat.div_le_self _ _
  have limit : Validate.i32Max < 2 ^ 31 := by decide
  simp only [Validate.channelsValidationError, Validate.bufferStaticChannelValidationError] at valid
  split at valid
  · cases valid
  · split at valid
    · cases valid
    · omega

theorem errorOf_eq_nil {reason : Option String} {message : String → String}
    (silent : Validate.errorOf reason message = []) : reason = none := by
  cases reason with
  | none => rfl
  | some reason => cases silent

theorem channelCount_small (static : ∀ count, selected.channels = .static count → count < 2 ^ 31) :
    channelCount machine selected.buffer selected.channels < 2 ^ 31 := by
  unfold channelCount
  cases channels : selected.channels with
  | mono => norm_num
  | static count => exact static count channels
  | dynamic =>
    have binding := machine.host.buffers selected.buffer
    calc (machine.host.buffers selected.buffer).channels
        ≤ (machine.host.buffers selected.buffer).frames
          * (machine.host.buffers selected.buffer).channels :=
          Nat.le_mul_of_pos_left _ (machine.host.buffers selected.buffer).frames_pos
      _ < 2 ^ 31 := (machine.host.buffers selected.buffer).extent

theorem frames_small (buffer : BufferId) : (machine.host.buffers buffer).frames < 2 ^ 31 :=
  calc (machine.host.buffers buffer).frames
      ≤ (machine.host.buffers buffer).frames * (machine.host.buffers buffer).channels :=
        Nat.le_mul_of_pos_right _ (machine.host.buffers buffer).channels_pos
    _ < 2 ^ 31 := (machine.host.buffers buffer).extent

theorem selectBuffer_channels (accepted : machine.program.Accepted) {ref : BufferRef}
    (run : (selectBuffer machine act ref memory).2 = .ok selected) :
    ∀ count, selected.channels = .static count → count < 2 ^ 31 := by
  obtain ⟨declared, found, rest⟩ := Eval.bind_ok run
  have found := orThrow_ok found
  simp only [Program.Accepted, validate, List.append_eq_nil_iff, Validate.programErrors_eq_nil,
    and_assoc, List.flatMap_eq_nil_iff] at accepted
  have valid : Validate.validateBuffer declared = [] := by
    have mem := List.mem_of_getElem? found
    obtain ⟨-, -, -, -, -, -, -, -, -, -, -, -, buffers, -⟩ := accepted
    exact buffers declared mem
  have same : selected.channels = declared.channels := by
    cases ref with
    | direct buffer => cases rest; rfl
    | arrayElement first len selector bounds =>
      obtain ⟨position, -, rest⟩ := Eval.bind_ok rest
      obtain ⟨offset, -, rest⟩ := Eval.bind_ok rest
      cases rest
      rfl
  intro count static
  exact channels_small (errorOf_eq_nil valid) (same ▸ static)

theorem selectBufferParam_channels (accepted : machine.program.Accepted) {ref : BufferParamRef}
    (run : (selectBufferParam machine act ref memory).2 = .ok selected) :
    ∀ count, selected.channels = .static count → count < 2 ^ 31 := by
  obtain ⟨loc, -, rest⟩ := Eval.bind_ok run
  obtain ⟨declared, found, rest⟩ := Eval.bind_ok rest
  have found := orThrow_ok found
  simp only [Program.Accepted, validate, List.append_eq_nil_iff, Validate.programErrors_eq_nil,
    and_assoc, List.flatMap_eq_nil_iff] at accepted
  have valid : Validate.validateType machine.program loc.ty declared = [] := by
    obtain ⟨-, -, types, -⟩ := accepted
    exact types (declared, loc.ty) (List.mem_zipIdx_iff_getElem?.mpr found)
  split at rest
  · obtain ⟨data, -, rest⟩ := Eval.bind_ok rest
    split at rest
    · cases rest
      intro count static
      exact channels_small (errorOf_eq_nil valid) static
    · cases rest
  · obtain ⟨position, -, rest⟩ := Eval.bind_ok rest
    obtain ⟨offset, -, rest⟩ := Eval.bind_ok rest
    obtain ⟨data, -, rest⟩ := Eval.bind_ok rest
    split at rest
    · cases rest
      intro count static
      simp only [Validate.validateType, List.append_eq_nil_iff] at valid
      exact channels_small (errorOf_eq_nil valid.2) static
    · cases rest
  · cases rest

/-! ### Normalized indices -/

/-- A normalized index is nonnegative, unless an unsigned comparison let a
negative one pass. -/
theorem normalizeDynamicIndex_nonneg_iff {index length result : BitVec 32}
    (run : normalizeDynamicIndex index length bounds = .ok result) :
    0 ≤ result.toInt ↔ ¬(bounds = .checked ∧ index.toInt < 0 ∧ length.toInt < 0) := by
  cases bounds with
  | clamp =>
    simp only [normalizeDynamicIndex] at run
    split at run
    · cases run
    case isFalse positive =>
      cases run
      have above := length.toInt_lt
      have exact_ : (length - 1).toInt = length.toInt - 1 := by
        rw [BitVec.toInt_sub, Int.bmod_eq_of_le]
        · rfl
        · change _ ≤ length.toInt - 1
          omega
        · change length.toInt - 1 < _
          omega
      rw [signedMin_toInt, signedMax_toInt, exact_]
      simp
      omega
  | checked =>
    simp only [normalizeDynamicIndex] at run
    split at run
    case isTrue below =>
      cases run
      have below : index.toNat < length.toNat := by simpa [BitVec.ult] using below
      rw [BitVec.toInt_eq_toNat_cond, BitVec.toInt_eq_toNat_cond]
      have limit := length.isLt
      split <;> split <;> simp <;> omega
    case isFalse => cases run
  | unchecked =>
    simp only [normalizeDynamicIndex] at run
    split at run
    case isTrue inside =>
      cases run
      simp
      exact inside.1
    case isFalse => cases run

theorem normalizeIndex_inRange_iff {index length : Value}
    (run : (evalRvalue machine act (.normalizeIndex index length bounds) memory).2 = .ok data) :
    (∀ range, indexRange = some range → InRange range data)
      ↔ ¬CheckedNegative machine act memory (.normalizeIndex index length bounds) := by
  obtain ⟨i, atIndex, rest⟩ := Eval.bind_ok run
  obtain ⟨n, atLength, rest⟩ := Eval.bind_ok rest
  obtain ⟨result, normalized, rest⟩ := Eval.bind_ok rest
  cases rest
  have sign := normalizeDynamicIndex_nonneg_iff (ofExcept_ok normalized)
  constructor
  · rintro within ⟨_, _, i', n', same, atIndex', atLength', negative⟩
    cases same
    obtain rfl : i = i' := by rw [atIndex] at atIndex'; exact Except.ok.inj atIndex'
    obtain rfl : n = n' := by rw [atLength] at atLength'; exact Except.ok.inj atLength'
    obtain ⟨value, same, -, number, known, lower, -⟩ := within _ rfl
    obtain rfl : ScalarValue.i32 result = value := by
      simpa [scalarResult, Data.leaf] using same
    cases known
    exact sign.mp lower ⟨rfl, negative⟩
  · intro regular range found
    refine indexRange_holds found (sign.mpr fun ⟨checked, negative⟩ => regular ?_)
    subst checked
    exact ⟨index, length, i, n, rfl, atIndex, atLength, negative⟩

/-- No transfer function overflows. -/
theorem rangeOfRvalue_total (program : Program) (parameters environment : RangeEnvironment)
    (rvalue : Rvalue) :
    ∃ found, rangeOfRvalue program parameters environment rvalue = some found := by
  cases rvalue with
  | unary op operand =>
    simp only [rangeOfRvalue]
    cases rangeOfValue environment operand with
    | none => exact ⟨_, rfl⟩
    | some range =>
      obtain ⟨found, known, -⟩ := @encloses_unary op range
      exact ⟨found, known⟩
  | binary op lhs rhs =>
    simp only [rangeOfRvalue]
    cases rangeOfValue environment lhs with
    | none => exact ⟨_, rfl⟩
    | some left =>
      cases rangeOfValue environment rhs with
      | none => exact ⟨_, rfl⟩
      | some right =>
        obtain ⟨found, known, -⟩ := @encloses_binary .silent op left right
        exact ⟨found, known⟩
  | _ => exact ⟨_, rfl⟩

/-- Every rvalue but an index normalization evaluates to a value of its range. -/
theorem rangeOfRvalue_inRange (accepted : machine.program.Accepted)
    (holds : RangesHold machine act memory parameters environment)
    (contract : RangeContract machine act memory) {rvalue : Rvalue}
    (other : ∀ index length bounds, rvalue ≠ .normalizeIndex index length bounds)
    {found : Option IntegerRange}
    (computed : rangeOfRvalue machine.program parameters environment rvalue = some found)
    (run : (evalRvalue machine act rvalue memory).2 = .ok data) :
    ∀ range, found = some range → InRange range data := by
  cases rvalue with
  | normalizeIndex index length bounds => exact absurd rfl (other index length bounds)
  | use value =>
    cases computed
    exact fun range known => holds.value known run
  | load place =>
    cases computed
    intro range known
    cases plain : place.projections with
    | nil =>
      rw [plain] at known
      exact holds.load plain known run
    | cons projection more =>
      rw [plain] at known
      cases known
  | unary op operand =>
    obtain ⟨found', known, within⟩ := unary_inRange holds run
    obtain rfl : found' = found := by rw [known] at computed; exact Option.some.inj computed
    exact within
  | binary op lhs rhs =>
    obtain ⟨found', known, within⟩ := binary_inRange holds run
    obtain rfl : found' = found := by rw [known] at computed; exact Option.some.inj computed
    exact within
  | cast value target =>
    cases computed
    intro range known
    split at known
    · cases known
    case h_2 source bounded =>
      obtain ⟨x, evaluated, rest⟩ := Eval.bind_ok run
      obtain ⟨result, converted, rfl⟩ := scalarResult_map_ok rest
      exact ⟨result, rfl,
        rangeOfCast_holds known (holds.scalar bounded evaluated) (orThrow_ok converted)⟩
  | intrinsic op args =>
    cases computed
    exact fun range known => intrinsic_inRange holds known run
  | processFrame offset =>
    cases computed
    exact fun range known => processFrame_inRange contract known run
  | bufferLen buffer | bufferParamLen buffer =>
    cases computed
    obtain ⟨selected, -, rest⟩ := Eval.bind_ok run
    cases rest
    exact fun range known => indexRange_holds_count known (frames_small _)
  | bufferChannels buffer =>
    cases computed
    obtain ⟨selected, chosen, rest⟩ := Eval.bind_ok run
    cases rest
    exact fun range known => indexRange_holds_count known
      (channelCount_small (selectBuffer_channels accepted chosen))
  | bufferParamChannels buffer =>
    cases computed
    obtain ⟨selected, chosen, rest⟩ := Eval.bind_ok run
    cases rest
    exact fun range known => indexRange_holds_count known
      (channelCount_small (selectBufferParam_channels accepted chosen))
  | sliceLen slice =>
    cases computed
    obtain ⟨desc, evaluated, rest⟩ := Eval.bind_ok run
    cases rest
    exact fun range known => indexRange_holds_count known (contract.slices slice desc evaluated)
  | _ =>
    cases computed
    simp

end Rvalues

/-- **Transfer functions.**  For an accepted program and any rvalue, the range is
computed without overflow, and in every state whose storage is within the ranges
of the environment the value of the rvalue is in the computed range exactly
unless it is a checked index normalization of a negative index by a negative
length. -/
theorem rangeOfRvalue_holds_iff {machine : Machine} (accepted : machine.program.Accepted)
    (parameters environment : RangeEnvironment) (rvalue : Rvalue) :
    ∃ found, rangeOfRvalue machine.program parameters environment rvalue = some found ∧
      ∀ act memory data, RangesHold machine act memory parameters environment →
        RangeContract machine act memory →
        (evalRvalue machine act rvalue memory).2 = .ok data →
        ((∀ range, found = some range → InRange range data)
          ↔ ¬CheckedNegative machine act memory rvalue) := by
  obtain ⟨found, computed⟩ :=
    rangeOfRvalue_total machine.program parameters environment rvalue
  refine ⟨found, computed, fun act memory data holds contract run => ?_⟩
  by_cases normalizes : ∃ index length bounds, rvalue = .normalizeIndex index length bounds
  · obtain ⟨index, length, bounds, rfl⟩ := normalizes
    cases computed
    exact normalizeIndex_inRange_iff run
  · push Not at normalizes
    refine iff_of_true
      (rangeOfRvalue_inRange accepted holds contract normalizes computed run) ?_
    rintro ⟨index, length, -, -, same, -⟩
    exact normalizes index length .checked same

/-! ### An empty process -/

/-- A program whose functions do nothing. -/
def Program.idle : Program := .minimal [] {} [] []

/-- The activation of the process entry of the empty program. -/
def Activation.idle : Activation :=
  { id := 0, functionId := 1,
    function := { name := "process", kind := .process, params := processParams }, params := [] }

theorem Program.idle_accepted : Program.idle.Accepted := by decide +kernel

theorem RangesHold.idle : RangesHold Program.idle.onSilentHost .idle .silent [] [] where
  locals localId range loc known := by cases known
  parameters parameter range loc known := by cases known
  states state slot invariant range found := by cases found

/-- The empty process has no slice operand. -/
theorem RangeContract.idle : RangeContract Program.idle.onSilentHost .idle .silent where
  segment := by decide
  slices value desc run := by
    cases value with
    | constant value => cases run
    | localVar localId => cases run

theorem rangeOfRvalue_holds_iff_idle :
    ∃ found, rangeOfRvalue Program.idle [] [] (.binary .add (.i32 1) (.i32 2)) = some found ∧
      ((∀ range, found = some range → InRange range (scalarResult (.i32 3)))
        ↔ ¬CheckedNegative Program.idle.onSilentHost .idle .silent
          (.binary .add (.i32 1) (.i32 2))) := by
  obtain ⟨found, computed, holds⟩ := @rangeOfRvalue_holds_iff Program.idle.onSilentHost
    Program.idle_accepted [] [] (.binary .add (.i32 1) (.i32 2))
  exact ⟨found, computed,
    holds .idle .silent (scalarResult (.i32 3)) .idle .idle rfl⟩

/-- A checked normalization of `-2` by `-1` passes `-2` on. -/
def negativeNormalization : Rvalue :=
  .normalizeIndex (.constant (.i32 (-2))) (.constant (.i32 (-1))) .checked

/-- **A negative index gets through.**  The operands are constants, the
evaluation succeeds, and its value is not in the range of the analysis. -/
theorem rangeOfRvalue_not_holds :
    RangesHold Program.idle.onSilentHost .idle .silent [] []
      ∧ RangeContract Program.idle.onSilentHost .idle .silent
      ∧ (evalRvalue Program.idle.onSilentHost .idle negativeNormalization .silent).2
        = .ok (scalarResult (.i32 (-2)))
      ∧ ∃ range, rangeOfRvalue Program.idle [] [] negativeNormalization = some (some range)
        ∧ ¬InRange range (scalarResult (.i32 (-2))) := by
  refine ⟨.idle, .idle, rfl, _, rfl, ?_⟩
  rintro ⟨value, same, -, number, known, lower, -⟩
  obtain rfl : ScalarValue.i32 (-2) = value := by simpa [scalarResult, Data.leaf] using same
  cases known
  exact absurd lower (by decide)

end Onda.Mir
