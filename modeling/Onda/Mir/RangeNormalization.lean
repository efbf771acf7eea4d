import Onda.Mir.RangeRvalues

/-!
# Range normalization

`RangeWrap` and `RangeClamp` bring an integer into a range.  Both are exact for
every value and every nonempty range of `i32` and of `i64`: a wrapped value lies
in the range and is congruent to the value modulo the width of the range, which can
be `2^64`; a clamped value is the point of the range nearest to the value.

The optimizer removes a normalization whose operand is known to be inside; there
the evaluated normalization is the operand.
-/

namespace Onda.Mir

open IntegerRange

/-! ### Wrapping -/

namespace ConstantEval

/-- The steps of `RangeWrap`, each of which has to be an `i128`. -/
def rangeWrapSteps (value lower upper : Int) : Arith Int := do
  let width ← Arith.add (← Arith.sub upper lower) 1
  let offset ← Arith.sub value lower
  Arith.add lower (offset % width)

/-- No step of `RangeWrap` overflows on `i64` operands. -/
theorem rangeWrapSteps_eq {value lower upper : Int} (ordered : lower ≤ upper)
    (low : -2 ^ 63 ≤ lower) (high : upper < 2 ^ 63) (least : -2 ^ 63 ≤ value)
    (greatest : value < 2 ^ 63) :
    rangeWrapSteps value lower upper
      = some (lower + (value - lower) % (upper - lower + 1)) := by
  have reduced := Int.emod_nonneg (value - lower) (show upper - lower + 1 ≠ 0 by omega)
  have below := Int.emod_lt_of_pos (value - lower) (show 0 < upper - lower + 1 by omega)
  have small (step : Int) (least : -2 ^ 126 ≤ step) (greatest : step ≤ 2 ^ 126) :=
    Arith.i128_of_small step least greatest
  simp only [rangeWrapSteps, Arith.add, Arith.sub, Option.bind_eq_bind]
  rw [small (upper - lower) (by omega) (by omega), Option.bind_some,
    small (upper - lower + 1) (by omega) (by omega), Option.bind_some,
    small (value - lower) (by omega) (by omega), Option.bind_some]
  exact small _ (by omega) (by omega)

/-- **Wrapping is exact.** -/
theorem integerIntrinsic_rangeWrap {width : Nat} (positive : 0 < width) (x low high : BitVec width)
    (ordered : low.toInt ≤ high.toInt) :
    ∃ wrapped, integerIntrinsic .rangeWrap [x, low, high] = some wrapped
      ∧ wrapped.toInt = low.toInt + (x.toInt - low.toInt) % (high.toInt - low.toInt + 1) := by
  have reduced := Int.emod_nonneg (x.toInt - low.toInt)
    (show high.toInt - low.toInt + 1 ≠ 0 by omega)
  have below := Int.emod_lt_of_pos (x.toInt - low.toInt)
    (show 0 < high.toInt - low.toInt + 1 by omega)
  refine ⟨_, by simp only [integerIntrinsic]; rw [if_neg (by omega)], ?_⟩
  have least := low.le_toInt
  have greatest := high.toInt_lt
  rw [BitVec.toInt_ofInt]
  have half : ((2 ^ width : Nat) : Int) = 2 * 2 ^ (width - 1) := by
    obtain ⟨shorter, rfl⟩ := Nat.exists_eq_add_of_lt positive
    push_cast
    rw [zero_add, pow_succ, mul_comm]
  refine Int.bmod_eq_of_le ?_ ?_ <;> omega

/-! ### Clamping -/

theorem integerIntrinsic_rangeClamp {width : Nat} (x low high : BitVec width) :
    ∃ clamped, integerIntrinsic .rangeClamp [x, low, high] = some clamped
      ∧ clamped.toInt = min (max x.toInt low.toInt) high.toInt :=
  ⟨_, rfl, by rw [signedMin_toInt, signedMax_toInt]⟩

/-- The clamped value is the nearest point. -/
theorem clamp_nearest (value : Int) {lower upper : Int} (ordered : lower ≤ upper) :
    lower ≤ min (max value lower) upper ∧ min (max value lower) upper ≤ upper
      ∧ ∀ point, lower ≤ point → point ≤ upper →
        |value - min (max value lower) upper| ≤ |value - point| := by
  refine ⟨by omega, by omega, fun point above below => ?_⟩
  rcases le_total value lower with small | large
  · rw [max_eq_right small, min_eq_left ordered, abs_of_nonpos (by omega),
      abs_of_nonpos (by omega)]
    omega
  · rw [max_eq_left large]
    rcases le_total value upper with inside | outside
    · rw [min_eq_left inside, sub_self, abs_zero]
      exact abs_nonneg _
    · rw [min_eq_right outside, abs_of_nonneg (by omega), abs_of_nonneg (by omega)]
      omega

/-! ### Scalar operands -/

/-- A normalization of three integers of one type is one of their bits. -/
theorem intrinsic_normalization (floats : FloatOps) (op : Intrinsic) {x low high : ScalarValue}
    {value lower upper : Int} (atX : x.toInt? = some value) (atLow : low.toInt? = some lower)
    (atHigh : high.toInt? = some upper) (typedLow : low.ty = x.ty) (typedHigh : high.ty = x.ty) :
    ∃ (width : Nat) (bits lowBits highBits : BitVec width) (make : BitVec width → ScalarValue),
      (width = 32 ∨ width = 64) ∧ bits.toInt = value ∧ lowBits.toInt = lower
        ∧ highBits.toInt = upper ∧ (∀ result, (make result).ty = x.ty)
        ∧ (∀ result, (make result).toInt? = some result.toInt) ∧ make bits = x
        ∧ intrinsic floats op [x, low, high]
          = (integerIntrinsic op [bits, lowBits, highBits]).map make := by
  cases x with
  | f32 | f64 | bool => cases atX
  | i32 bits =>
    cases low <;> cases typedLow
    cases high <;> cases typedHigh
    cases atX
    cases atLow
    cases atHigh
    exact ⟨32, _, _, _, .i32, .inl rfl, rfl, rfl, rfl, fun _ => rfl, fun _ => rfl, rfl,
      Option.map_eq_bind.symm⟩
  | i64 bits =>
    cases low <;> cases typedLow
    cases high <;> cases typedHigh
    cases atX
    cases atLow
    cases atHigh
    exact ⟨64, _, _, _, .i64, .inr rfl, rfl, rfl, rfl, fun _ => rfl, fun _ => rfl, rfl,
      Option.map_eq_bind.symm⟩

/-- What a wrapped value is. -/
structure Wrapped (value lower upper wrapped : Int) : Prop where
  above : lower ≤ wrapped
  below : wrapped ≤ upper
  congruent : wrapped ≡ value [ZMOD upper - lower + 1]
  steps : rangeWrapSteps value lower upper = some wrapped

/-- What a clamped value is. -/
structure Clamped (value lower upper clamped : Int) : Prop where
  above : lower ≤ clamped
  below : clamped ≤ upper
  nearest : ∀ point, lower ≤ point → point ≤ upper → |value - clamped| ≤ |value - point|

section Normalized

variable (floats : FloatOps) {x low high : ScalarValue} {value lower upper : Int}
  (atX : x.toInt? = some value) (atLow : low.toInt? = some lower)
  (atHigh : high.toInt? = some upper) (typedLow : low.ty = x.ty) (typedHigh : high.ty = x.ty)
  (ordered : lower ≤ upper)
include atX atLow atHigh typedLow typedHigh ordered

theorem intrinsic_rangeWrap :
    ∃ result wrapped, intrinsic floats .rangeWrap [x, low, high] = some result
      ∧ result.ty = x.ty ∧ result.toInt? = some wrapped ∧ Wrapped value lower upper wrapped
      ∧ (lower ≤ value → value ≤ upper → result = x) := by
  obtain ⟨width, bits, lowBits, highBits, make, power, rfl, rfl, rfl, typed, number, same,
    computed⟩ := intrinsic_normalization floats .rangeWrap atX atLow atHigh typedLow typedHigh
  obtain ⟨wrapped, operated, eq⟩ := integerIntrinsic_rangeWrap (by omega) bits lowBits highBits
    ordered
  have reduced := Int.emod_nonneg (bits.toInt - lowBits.toInt)
    (show highBits.toInt - lowBits.toInt + 1 ≠ 0 by omega)
  have short := Int.emod_lt_of_pos (bits.toInt - lowBits.toInt)
    (show 0 < highBits.toInt - lowBits.toInt + 1 by omega)
  refine ⟨make wrapped, wrapped.toInt, by rw [computed, operated, Option.map_some],
    typed wrapped, number wrapped, ⟨by omega, by omega, ?_, ?_⟩, fun above below => ?_⟩
  · rw [eq, Int.ModEq, Int.add_emod_emod, add_sub_cancel]
  · have fits : ∀ number : BitVec width, -2 ^ 63 ≤ number.toInt ∧ number.toInt < 2 ^ 63 := by
      intro number
      have least := number.le_toInt
      have greatest := number.toInt_lt
      rcases power with rfl | rfl <;> norm_num at least greatest ⊢ <;> omega
    rw [eq]
    exact rangeWrapSteps_eq ordered (fits lowBits).1 (fits highBits).2 (fits bits).1 (fits bits).2
  · rw [Int.emod_eq_of_lt (by omega) (by omega), add_sub_cancel] at eq
    rw [BitVec.eq_of_toInt_eq eq, same]

theorem intrinsic_rangeClamp :
    ∃ result clamped, intrinsic floats .rangeClamp [x, low, high] = some result
      ∧ result.ty = x.ty ∧ result.toInt? = some clamped ∧ Clamped value lower upper clamped
      ∧ (lower ≤ value → value ≤ upper → result = x) := by
  obtain ⟨width, bits, lowBits, highBits, make, -, rfl, rfl, rfl, typed, number, same, computed⟩ :=
    intrinsic_normalization floats .rangeClamp atX atLow atHigh typedLow typedHigh
  obtain ⟨clamped, operated, eq⟩ := integerIntrinsic_rangeClamp bits lowBits highBits
  obtain ⟨above, below, nearest⟩ := clamp_nearest bits.toInt ordered
  rw [← eq] at above below nearest
  refine ⟨make clamped, clamped.toInt, by rw [computed, operated, Option.map_some],
    typed clamped, number clamped, ⟨above, below, nearest⟩, fun above below => ?_⟩
  rw [max_eq_left above, min_eq_left below] at eq
  rw [BitVec.eq_of_toInt_eq eq, same]

end Normalized

end ConstantEval

/-! ### Redundant normalizations -/

namespace BoundsProofs

/-- What is known about an operand. -/
def valueRange (ranges : RangeEnvironment) : Value → Option IntegerRange
  | .constant (.i32 value) => IntegerRange.new .i32 value.toInt value.toInt
  | .constant (.i64 value) => IntegerRange.new .i64 value.toInt value.toInt
  | .constant _ => none
  | .localVar localId => ranges.at localId

def redundantNormalizationOperand (ranges : RangeEnvironment) : Rvalue → Option Value
  | .intrinsic intrinsic args =>
    if (intrinsic = .rangeClamp ∨ intrinsic = .rangeWrap) ∧ args.length = 3 then do
      let original ← args[0]?
      let operand ← valueRange ranges original
      let lower ← valueRange ranges (← args[1]?)
      let upper ← valueRange ranges (← args[2]?)
      if operand.scalar = lower.scalar ∧ lower.scalar = upper.scalar
          ∧ lower.min = lower.max ∧ upper.min = upper.max
          ∧ lower.min ≤ operand.min ∧ operand.max ≤ upper.max then some original
      else none
    else none
  | _ => none

/-- A value is in the range that is known about an operand. -/
def Known (ranges : RangeEnvironment) (operand : Value) (value : ScalarValue) : Prop :=
  ∀ range, valueRange ranges operand = some range → range.Holds value

/-- A removed normalization is the identity. -/
theorem redundantNormalizationOperand_identity (floats : FloatOps) {ranges : RangeEnvironment}
    {op : Intrinsic} {args : List Value} {original : Value}
    (redundant : redundantNormalizationOperand ranges (.intrinsic op args) = some original) :
    ∃ lower upper, args = [original, lower, upper] ∧ ∀ x low high, Known ranges original x →
      Known ranges lower low → Known ranges upper high →
      ConstantEval.intrinsic floats op [x, low, high] = some x := by
  unfold redundantNormalizationOperand at redundant
  simp only at redundant
  split at redundant
  case isFalse => cases redundant
  case isTrue shape =>
    obtain ⟨normalizes, three⟩ := shape
    obtain ⟨original', lower, upper, rfl⟩ := List.length_eq_three.mp three
    simp only [List.getElem?_cons_zero, List.getElem?_cons_succ, Option.bind_eq_bind,
      Option.bind_some, Option.bind_eq_some_iff] at redundant
    obtain ⟨operandRange, atOperand, lowerRange, atLower, upperRange, atUpper, chosen⟩ := redundant
    split at chosen
    case isFalse => cases chosen
    case isTrue inside =>
      cases chosen
      refine ⟨lower, upper, rfl, fun x low high inX inLow inHigh => ?_⟩
      obtain ⟨typedX, value, known, above, below⟩ := inX _ atOperand
      obtain ⟨typedLow, least, knownLow, aboveLow, belowLow⟩ := inLow _ atLower
      obtain ⟨typedHigh, greatest, knownHigh, aboveHigh, belowHigh⟩ := inHigh _ atUpper
      have sameLow : low.ty = x.ty := by rw [typedLow, typedX, inside.1]
      have sameHigh : high.ty = x.ty := by rw [typedHigh, typedX, inside.1, inside.2.1]
      have ordered := operandRange.ordered
      rcases normalizes with rfl | rfl
      · obtain ⟨result, _, computed, -, -, -, identity⟩ := ConstantEval.intrinsic_rangeClamp floats
          known knownLow knownHigh sameLow sameHigh (by omega)
        rw [computed, identity (by omega) (by omega)]
      · obtain ⟨result, _, computed, -, -, -, identity⟩ := ConstantEval.intrinsic_rangeWrap floats
          known knownLow knownHigh sameLow sameHigh (by omega)
        rw [computed, identity (by omega) (by omega)]

end BoundsProofs

/-- **Normalization.**  On every value and every nonempty range of an integer type a
wrap and a clamp are exact, and a normalization that is removed is the identity on the
values that its operand can have. -/
theorem range_normalization_exact (floats : FloatOps) :
    (∀ (x low high : ScalarValue) (value lower upper : Int), x.toInt? = some value →
      low.toInt? = some lower → high.toInt? = some upper → low.ty = x.ty → high.ty = x.ty →
      lower ≤ upper →
      (∃ result wrapped, ConstantEval.intrinsic floats .rangeWrap [x, low, high] = some result
        ∧ result.ty = x.ty ∧ result.toInt? = some wrapped
        ∧ ConstantEval.Wrapped value lower upper wrapped)
      ∧ ∃ result clamped, ConstantEval.intrinsic floats .rangeClamp [x, low, high] = some result
        ∧ result.ty = x.ty ∧ result.toInt? = some clamped
        ∧ ConstantEval.Clamped value lower upper clamped)
    ∧ ∀ ranges op args original,
      BoundsProofs.redundantNormalizationOperand ranges (.intrinsic op args) = some original →
      ∃ lower upper, args = [original, lower, upper] ∧ ∀ x low high,
        BoundsProofs.Known ranges original x → BoundsProofs.Known ranges lower low →
        BoundsProofs.Known ranges upper high →
        ConstantEval.intrinsic floats op [x, low, high] = some x := by
  refine ⟨fun x low high value lower upper atX atLow atHigh typedLow typedHigh ordered => ⟨?_, ?_⟩,
    fun ranges op args original => BoundsProofs.redundantNormalizationOperand_identity floats⟩
  · obtain ⟨result, wrapped, computed, typed, number, wraps, -⟩ :=
      ConstantEval.intrinsic_rangeWrap floats atX atLow atHigh typedLow typedHigh ordered
    exact ⟨result, wrapped, computed, typed, number, wraps⟩
  · obtain ⟨result, clamped, computed, typed, number, clamps, -⟩ :=
      ConstantEval.intrinsic_rangeClamp floats atX atLow atHigh typedLow typedHigh ordered
    exact ⟨result, clamped, computed, typed, number, clamps⟩

/-- The width of all of `i64` is no `i64`, and wrapping to it changes nothing. -/
theorem range_normalization_exact_full : ∃ result wrapped,
    ConstantEval.intrinsic .silent .rangeWrap [.i64 5, .i64 (.intMin 64), .i64 (.intMax 64)]
      = some result
    ∧ result.ty = .i64 ∧ result.toInt? = some wrapped
    ∧ ConstantEval.Wrapped 5 (BitVec.intMin 64).toInt (BitVec.intMax 64).toInt wrapped :=
  ((range_normalization_exact .silent).1 (.i64 5) (.i64 (.intMin 64)) (.i64 (.intMax 64))
    5 (BitVec.intMin 64).toInt (BitVec.intMax 64).toInt rfl rfl rfl rfl rfl (by decide)).1

end Onda.Mir
