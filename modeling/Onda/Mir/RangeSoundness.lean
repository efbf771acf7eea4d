import Onda.Mir.IntegerRange

/-!
# Soundness of the integer transfer functions

The result of an integer operation is the exact result wrapped to the width of
its type (`Wraps`), except for the bitwise operations.  A transfer function
encloses the exact results of all operands of its ranges; where that enclosure
leaves the type it gives up to the full range, and otherwise nothing wraps.

No transfer function overflows: the bounds of a range are `i64`s, so sums and
products of two of them are far from the ends of `i128`.
-/

namespace Onda.Mir

open Set

/-! ### Ranges -/

namespace IntegerRange

variable {scalar : ScalarType}

theorem new_eq_some {min max : Int} {range : IntegerRange}
    (made : new scalar min max = some range) :
    range.scalar = scalar ∧ range.min = min ∧ range.max = max := by
  unfold new at made
  split at made
  · cases made
  · split at made
    · cases made
      exact ⟨rfl, rfl, rfl⟩
    · cases made

theorem full_eq {min max : Int} (bounds : integerTypeBounds scalar = some (min, max)) :
    ∃ range, full scalar = some range ∧ range.scalar = scalar ∧ range.min = min
      ∧ range.max = max := by
  cases scalar <;> simp only [integerTypeBounds, Option.some.injEq, Prod.mk.injEq,
    reduceCtorEq] at bounds
  all_goals
    obtain ⟨rfl, rfl⟩ := bounds
    exact ⟨_, rfl, rfl, rfl, rfl⟩

/-- The scalar of a range is an integer type, and its bounds are `i64`s. -/
theorem bounds_i64 (range : IntegerRange) : -2 ^ 63 ≤ range.min ∧ range.max ≤ 2 ^ 63 - 1 := by
  obtain ⟨⟨typeMin, typeMax⟩, bounds, lower, upper⟩ := range.fits
  cases scalar : range.scalar <;> rw [scalar] at bounds <;>
    simp only [integerTypeBounds, Option.some.injEq, Prod.mk.injEq, reduceCtorEq] at bounds
  all_goals
    obtain ⟨rfl, rfl⟩ := bounds
    simp only at lower upper
    omega

theorem isInteger (range : IntegerRange) : range.scalar = .i32 ∨ range.scalar = .i64 := by
  obtain ⟨bounds, known, -⟩ := range.fits
  cases scalar : range.scalar <;> rw [scalar] at known <;> simp [integerTypeBounds] at known ⊢

end IntegerRange

variable {floats : FloatOps} {number : Int} {range : IntegerRange} {width : Nat}
  {scalar : ScalarType} {lhs result rhs value : ScalarValue} {P : ScalarValue → Prop}

/-- An integer value lies within its type. -/
theorem ScalarValue.within_type {value : ScalarValue} {number min max : Int}
    (known : value.toInt? = some number) (bounds : integerTypeBounds value.ty = some (min, max)) :
    min ≤ number ∧ number ≤ max := by
  cases value with
  | i32 bits | i64 bits =>
    simp only [toInt?, Option.some.injEq, integerTypeBounds, ty, Prod.mk.injEq] at known bounds
    obtain ⟨rfl, rfl⟩ := bounds
    subst known
    have lower := bits.le_toInt
    have upper := bits.toInt_lt
    norm_num at lower upper ⊢
    omega
  | f32 | f64 | bool => simp [toInt?] at known

/-- **The full range holds every value of the type.** -/
theorem IntegerRange.holds_full (full : IntegerRange.full scalar = some range)
    (typed : value.ty = scalar) (known : value.toInt? = some number) : range.Holds value := by
  subst typed
  cases bounds : integerTypeBounds value.ty with
  | none => simp [IntegerRange.full, bounds] at full
  | some ends =>
    obtain ⟨made, eq, scalar, min, max⟩ := full_eq bounds
    obtain rfl : made = range := by simpa [eq] using full
    have within := ScalarValue.within_type known bounds
    exact ⟨scalar.symm, number, known, by rw [min]; exact within.1, by rw [max]; exact within.2⟩

theorem IntegerRange.holds_singleton (single : IntegerRange.singleton value = some range)
    : range.Holds value := by
  cases value with
  | i32 | i64 =>
    obtain ⟨scalar, min, max⟩ := new_eq_some (by rwa [singleton] at single)
    exact ⟨scalar.symm, _, rfl, min.le, max.ge⟩
  | f32 | f64 | bool => simp [singleton] at single

/-! ### Wrapped results -/

def integerWidth : ScalarType → Nat
  | .i32 => 32
  | _ => 64

/-- A value of an integer type is an exact result wrapped to the width. -/
def Wraps (value : ScalarValue) (scalar : ScalarType) (exact : Int) : Prop :=
  value.ty = scalar ∧ value.toInt? = some (exact.bmod (2 ^ integerWidth scalar))

/-- A result that fits the type is not changed by wrapping. -/
theorem bmod_of_fits {scalar : ScalarType} {min max exact : Int}
    (bounds : integerTypeBounds scalar = some (min, max)) (lower : min ≤ exact)
    (upper : exact ≤ max) : exact.bmod (2 ^ integerWidth scalar) = exact := by
  cases scalar <;> simp only [integerTypeBounds, Option.some.injEq, Prod.mk.injEq,
    reduceCtorEq] at bounds
  all_goals
    obtain ⟨rfl, rfl⟩ := bounds
    exact Int.bmod_eq_of_le (by simp only [integerWidth]; omega)
      (by simp only [integerWidth]; omega)

theorem asI64_of_fits {value : Int} (lower : -2 ^ 63 ≤ value) (upper : value ≤ 2 ^ 63 - 1) :
    Arith.asI64 value = value :=
  @bmod_of_fits .i64 _ _ _ rfl lower upper

/-- **Enclosure.**  A checked range around an exact result holds the wrapped
result. -/
theorem checkedRange_holds {min max exact : Int}
    (checked : checkedRange scalar min max = some range) (wraps : Wraps value scalar exact)
    (lower : min ≤ exact) (upper : exact ≤ max) : range.Holds value := by
  unfold checkedRange at checked
  cases bounds : integerTypeBounds scalar with
  | none => simp [bounds] at checked
  | some ends =>
    obtain ⟨typeMin, typeMax⟩ := ends
    simp only [bounds] at checked
    split at checked
    · exact IntegerRange.holds_full checked wraps.1 wraps.2
    case isFalse inside =>
      rw [not_or, not_lt, not_lt] at inside
      obtain ⟨same, least, greatest⟩ := IntegerRange.new_eq_some checked
      have whole : -2 ^ 63 ≤ typeMin ∧ typeMax ≤ 2 ^ 63 - 1 := by
        cases scalar <;> simp only [integerTypeBounds, Option.some.injEq, Prod.mk.injEq,
          reduceCtorEq] at bounds <;> omega
      rw [asI64_of_fits (by omega) (by omega)] at least greatest
      have known := wraps.2
      rw [bmod_of_fits bounds (by omega) (by omega)] at known
      exact ⟨wraps.1.trans same.symm, exact, known, by rw [least]; exact lower,
        by rw [greatest]; exact upper⟩

/-- Candidates around an exact result enclose the wrapped result. -/
theorem rangeOfCandidates_holds {p q r s exact : Int}
    (found : rangeOfCandidates scalar [p, q, r, s] = some range) (wraps : Wraps value scalar exact)
    (between : min (min (min p q) r) s ≤ exact ∧ exact ≤ max (max (max p q) r) s) :
    range.Holds value :=
  checkedRange_holds found wraps between.1 between.2

/-- The exact result of an operation that is not bitwise, before wrapping. -/
def exactBinary (width : Nat) (op : BinaryOp) (lhs rhs : Int) : Option Int :=
  match op with
  | .add => some (lhs + rhs)
  | .subtract => some (lhs - rhs)
  | .multiply => some (lhs * rhs)
  | .divide => some (lhs.tdiv rhs)
  | .remainder => some (lhs.tmod rhs)
  | .shiftLeft => some (lhs * 2 ^ (rhs % width).toNat)
  | .shiftRight => some (lhs / 2 ^ (rhs % width).toNat)
  | .bitAnd | .bitOr | .bitXor => none

/-- The shift count is the value of the operand modulo the width. -/
theorem shiftCount_eq (count : BitVec width) (divides : width ∣ 2 ^ width) :
    count.toNat % width = (count.toInt % (width : Int)).toNat := by
  have same : count.toInt % (width : Int) = (count.toNat : Int) % (width : Int) := by
    rw [BitVec.toInt_eq_toNat_bmod, ← Int.emod_emod_of_dvd _ (by exact_mod_cast divides :
      (width : Int) ∣ ((2 ^ width : Nat) : Int)), Int.bmod_emod,
      Int.emod_emod_of_dvd _ (by exact_mod_cast divides)]
  rw [same]
  omega

theorem toInt_shiftLeft_eq (value : BitVec width) (count : Nat) :
    (value <<< count).toInt = (value.toInt * 2 ^ count).bmod (2 ^ width) := by
  rw [BitVec.toInt_shiftLeft, Nat.shiftLeft_eq, BitVec.toInt_eq_toNat_bmod value]
  push_cast
  exact Int.bmod_mul_bmod.symm

theorem toInt_sshiftRight_eq (value : BitVec width) (count : Nat) :
    (value.sshiftRight count).toInt = value.toInt / 2 ^ count := by
  rw [BitVec.toInt_sshiftRight, Int.shiftRight_eq_div_pow]
  push_cast
  rfl

theorem toInt_bmod_self (value : BitVec width) :
    value.toInt.bmod (2 ^ width) = value.toInt := by
  rw [BitVec.toInt_eq_toNat_bmod, Int.bmod_bmod]

/-- A machine operation computes the wrapped exact result. -/
theorem integerBinary_toInt {op : BinaryOp} {lhs rhs result : BitVec width} {exact : Int}
    (divides : width ∣ 2 ^ width) (computed : ConstantEval.integerBinary op lhs rhs = some result)
    (known : exactBinary width op lhs.toInt rhs.toInt = some exact) :
    result.toInt = exact.bmod (2 ^ width) := by
  cases op with
  | bitAnd | bitOr | bitXor => simp [exactBinary] at known
  | add | subtract | multiply =>
    simp only [ConstantEval.integerBinary, Option.some.injEq, exactBinary] at computed known
    subst computed known
    simp
  | divide =>
    simp only [ConstantEval.integerBinary, exactBinary, Option.some.injEq] at computed known
    split at computed
    · cases computed
    · cases computed
      rw [← known, BitVec.toInt_sdiv]
  | remainder =>
    simp only [ConstantEval.integerBinary, exactBinary, Option.some.injEq] at computed known
    split at computed
    · cases computed
    · cases computed
      rw [← known, ← BitVec.toInt_srem, toInt_bmod_self]
  | shiftLeft =>
    simp only [ConstantEval.integerBinary, exactBinary, Option.some.injEq] at computed known
    rw [← computed, ← known, toInt_shiftLeft_eq, shiftCount_eq rhs divides]
  | shiftRight =>
    simp only [ConstantEval.integerBinary, exactBinary, Option.some.injEq] at computed known
    rw [← computed, ← known, ← shiftCount_eq rhs divides, ← toInt_sshiftRight_eq, toInt_bmod_self]

/-- Operands and result of an integer operation have one type. -/
theorem binary_typed {op : BinaryOp} {x : Int}
    (computed : ConstantEval.binary floats op lhs rhs = some result) (left : lhs.toInt? = some x) :
    rhs.ty = lhs.ty ∧ result.ty = lhs.ty ∧ ∃ z, result.toInt? = some z := by
  cases lhs <;> simp only [ScalarValue.toInt?, reduceCtorEq] at left <;>
    cases rhs <;> simp only [ConstantEval.binary, reduceCtorEq, Option.map_eq_some_iff] at computed
  all_goals
    obtain ⟨bits, -, rfl⟩ := computed
    exact ⟨rfl, rfl, _, rfl⟩

theorem binary_wraps {op : BinaryOp} {x y exact : Int}
    (computed : ConstantEval.binary floats op lhs rhs = some result) (left : lhs.toInt? = some x)
    (right : rhs.toInt? = some y) (known : exactBinary (integerWidth lhs.ty) op x y = some exact) :
    Wraps result lhs.ty exact := by
  cases lhs <;> simp only [ScalarValue.toInt?, reduceCtorEq, Option.some.injEq] at left <;>
    cases rhs <;> simp only [ConstantEval.binary, reduceCtorEq, Option.map_eq_some_iff,
      ScalarValue.toInt?, Option.some.injEq] at computed right
  all_goals
    obtain ⟨bits, operated, rfl⟩ := computed
    subst left right
    exact ⟨rfl, congrArg some (integerBinary_toInt (by decide) operated known)⟩

/-! ### No overflow -/

section Corners

variable {lhs rhs : IntegerRange}

theorem Arith.i128_of_small (value : Int) (lower : -2 ^ 126 ≤ value) (upper : value ≤ 2 ^ 126) :
    Arith.i128 value = some value :=
  if_pos ⟨by omega, by omega⟩

variable {x : Int} {counts : Nat × Nat}

/-- A product of two `i64`s is an `i128`. -/
theorem Arith.mul_of_i64 {y : Int} (memX : x ∈ Icc (-2 ^ 63) (2 ^ 63 - 1))
    (memY : y ∈ Icc (-2 ^ 63) (2 ^ 63 - 1)) : Arith.mul x y = some (x * y) := by
  have product : |x * y| ≤ 2 ^ 63 * 2 ^ 63 := by
    rw [abs_mul]
    exact mul_le_mul (abs_le.mpr ⟨memX.1, by have := memX.2; omega⟩)
      (abs_le.mpr ⟨memY.1, by have := memY.2; omega⟩) (abs_nonneg y) (by norm_num)
  rw [abs_le] at product
  exact i128_of_small _ (by omega) (by omega)

theorem Arith.div_of_i64 {y : Int} (memX : x ∈ Icc (-2 ^ 63) (2 ^ 63 - 1)) (nonzero : y ≠ 0)
    : Arith.div x y = some (x.tdiv y) := by
  have quotient : (x.tdiv y).natAbs ≤ x.natAbs := by
    rw [Int.natAbs_tdiv]
    exact Nat.div_le_self _ _
  obtain ⟨lower, upper⟩ := memX
  rw [Arith.div, if_neg nonzero]
  exact i128_of_small _ (by omega) (by omega)

theorem Arith.shl_of_i64 {n : Nat} (memX : x ∈ Icc (-2 ^ 63) (2 ^ 63 - 1)) (short : n < 64)
    : Arith.shl x n = some (x * 2 ^ n) := by
  have power : (2 : Int) ^ n ≤ 2 ^ 63 := Interval.two_pow_le_two_pow (by omega)
  have product : |x * 2 ^ n| ≤ 2 ^ 63 * 2 ^ 63 := by
    rw [abs_mul]
    exact mul_le_mul (abs_le.mpr ⟨memX.1, by have := memX.2; omega⟩)
      (by rw [abs_of_nonneg (by positivity)]; exact power) (abs_nonneg _) (by norm_num)
  rw [abs_le] at product
  rw [Arith.shl, if_pos (by omega), Int.bmod_eq_of_le (by omega) (by omega)]

theorem Arith.shr_of_short {n : Nat} (short : n < 64) :
    Arith.shr x n = some (x / 2 ^ n) :=
  if_pos (by omega)

theorem IntegerRange.min_mem (range : IntegerRange) :
    range.min ∈ Icc (-2 ^ 63) (2 ^ 63 - 1) :=
  ⟨range.bounds_i64.1, range.ordered.trans range.bounds_i64.2⟩

theorem IntegerRange.max_mem (range : IntegerRange) :
    range.max ∈ Icc (-2 ^ 63) (2 ^ 63 - 1) :=
  ⟨range.bounds_i64.1.trans range.ordered, range.bounds_i64.2⟩

theorem atCorners_mul :
    atCorners Arith.mul (lhs.min, lhs.max) (rhs.min, rhs.max)
      = some [lhs.min * rhs.min, lhs.min * rhs.max, lhs.max * rhs.min, lhs.max * rhs.max] := by
  simp only [atCorners, Arith.mul_of_i64 lhs.min_mem rhs.min_mem,
    Arith.mul_of_i64 lhs.min_mem rhs.max_mem, Arith.mul_of_i64 lhs.max_mem rhs.min_mem,
    Arith.mul_of_i64 lhs.max_mem rhs.max_mem]
  rfl

/-- A range that does not contain zero lies on one side of it. -/
theorem IntegerRange.away_of_not_contains {range : IntegerRange}
    (absent : range.contains 0 = false) : 0 < range.min ∨ range.max < 0 := by
  simp only [contains, Bool.and_eq_false_imp, decide_eq_true_eq, decide_eq_false_iff_not,
    not_le] at absent
  rcases lt_or_ge 0 range.min with positive | nonpositive
  · exact .inl positive
  · exact .inr (absent nonpositive)

theorem atCorners_div (away : 0 < rhs.min ∨ rhs.max < 0) :
    atCorners Arith.div (lhs.min, lhs.max) (rhs.min, rhs.max)
      = some [lhs.min.tdiv rhs.min, lhs.min.tdiv rhs.max, lhs.max.tdiv rhs.min,
          lhs.max.tdiv rhs.max] := by
  have ordered := rhs.ordered
  have low : rhs.min ≠ 0 := by omega
  have high : rhs.max ≠ 0 := by omega
  simp only [atCorners, Arith.div_of_i64 lhs.min_mem low, Arith.div_of_i64 lhs.min_mem high,
    Arith.div_of_i64 lhs.max_mem low, Arith.div_of_i64 lhs.max_mem high]
  rfl

/-- Shift counts are below the width, and enclose the count of every operand of
the range. -/
theorem shiftCounts_spec {scalar : ScalarType} (integer : scalar = .i32 ∨ scalar = .i64)
    (known : shiftCounts scalar rhs = some counts) :
    counts.1 < 64 ∧ counts.2 < 64
      ∧ ∀ y, rhs.min ≤ y → y ≤ rhs.max →
        (y % (integerWidth scalar : Int)).toNat ∈ Icc counts.1 counts.2 := by
  have masked (low : Int) (bits : Nat) (power : bits = 32 ∨ bits = 64) :
      Arith.asU32 low &&& (bits - 1) = (low % (bits : Int)).toNat := by
    rcases power with rfl | rfl
    · rw [show 32 - 1 = 2 ^ 5 - 1 from rfl, Nat.and_two_pow_sub_one_eq_mod, Arith.asU32]
      omega
    · rw [show 64 - 1 = 2 ^ 6 - 1 from rfl, Nat.and_two_pow_sub_one_eq_mod, Arith.asU32]
      omega
  have width : (if scalar = .i32 then 32 else 64) = integerWidth scalar := by
    rcases integer with rfl | rfl <;> rfl
  have power : integerWidth scalar = 32 ∨ integerWidth scalar = 64 := by
    rcases integer with rfl | rfl <;> simp [integerWidth]
  unfold shiftCounts at known
  rw [width] at known
  clear width
  have ordered := rhs.ordered
  generalize integerWidth scalar = bits at known power ⊢
  simp only at known
  split at known
  · -- One count, masked to the width.
    cases known
    simp only [masked rhs.min _ power]
    refine ⟨?_, ?_, fun y lower upper => ?_⟩
    · rcases power with rfl | rfl <;> omega
    · rcases power with rfl | rfl <;> omega
    · obtain rfl : y = rhs.min := by omega
      exact ⟨le_rfl, le_rfl⟩
  · split at known
    case isTrue inside =>
      cases known
      simp only [Arith.asU32, mem_Icc]
      refine ⟨?_, ?_, fun y lower upper => ?_⟩
      · rcases power with rfl | rfl <;> omega
      · rcases power with rfl | rfl <;> omega
      · rcases power with rfl | rfl <;> omega
    case isFalse => cases known

theorem atCorners_shl (low : counts.1 < 64) (high : counts.2 < 64) :
    atCorners Arith.shl (lhs.min, lhs.max) counts
      = some [lhs.min * 2 ^ counts.1, lhs.min * 2 ^ counts.2, lhs.max * 2 ^ counts.1,
          lhs.max * 2 ^ counts.2] := by
  simp only [atCorners, Arith.shl_of_i64 lhs.min_mem low, Arith.shl_of_i64 lhs.min_mem high,
    Arith.shl_of_i64 lhs.max_mem low, Arith.shl_of_i64 lhs.max_mem high]
  rfl

theorem atCorners_shr (low : counts.1 < 64) (high : counts.2 < 64) :
    atCorners Arith.shr (lhs.min, lhs.max) counts
      = some [lhs.min / 2 ^ counts.1, lhs.min / 2 ^ counts.2, lhs.max / 2 ^ counts.1,
          lhs.max / 2 ^ counts.2] := by
  simp only [atCorners, Arith.shr_of_short low, Arith.shr_of_short high]
  rfl

end Corners

/-! ### Operations -/

/-- The analysis computes without overflow, and a range it finds holds every
value with `P`. -/
def Encloses (computed : Arith (Option IntegerRange)) (P : ScalarValue → Prop) : Prop :=
  ∃ found, computed = some found ∧
    ∀ range, found = some range → ∀ value, P value → range.Holds value

theorem encloses_none : Encloses (some none) P :=
  ⟨none, rfl, by simp⟩

theorem Encloses.of_some {found : Option IntegerRange}
    (holds : ∀ range, found = some range → ∀ value, P value → range.Holds value) :
    Encloses (some found) P :=
  ⟨found, rfl, holds⟩

theorem IntegerRange.holds_of_new {min max : Int} (made : new scalar min max = some range)
    (typed : value.ty = scalar) (known : value.toInt? = some number) (lower : min ≤ number)
    (upper : number ≤ max) : range.Holds value := by
  obtain ⟨same, least, greatest⟩ := new_eq_some made
  exact ⟨typed.trans same.symm, number, known, by rw [least]; exact lower,
    by rw [greatest]; exact upper⟩

/-- Every value of the type is enclosed by the full range. -/
theorem encloses_full
    (typed : ∀ value, P value → value.ty = scalar ∧ ∃ number, value.toInt? = some number) :
    Encloses (some (IntegerRange.full scalar)) P := by
  refine .of_some fun range full value holds => ?_
  obtain ⟨same, number, known⟩ := typed value holds
  exact IntegerRange.holds_full full same known

/-- The results of an operation on operands of two ranges. -/
def ResultOf (floats : FloatOps) (op : BinaryOp) (lhs rhs : IntegerRange)
    (result : ScalarValue) : Prop :=
  ∃ x y, lhs.Holds x ∧ rhs.Holds y ∧ ConstantEval.binary floats op x y = some result

section Operations

variable {floats : FloatOps} {op : BinaryOp} {lhs rhs : IntegerRange} {result : ScalarValue}

theorem ResultOf.typed (of : ResultOf floats op lhs rhs result) :
    result.ty = lhs.scalar ∧ ∃ number, result.toInt? = some number := by
  obtain ⟨x, y, ⟨typedX, a, knownX, -⟩, -, computed⟩ := of
  obtain ⟨-, typed, known⟩ := binary_typed computed knownX
  exact ⟨typed.trans typedX, known⟩

/-- The result is the wrapped exact result of two numbers of the ranges. -/
theorem ResultOf.exact (of : ResultOf floats op lhs rhs result) :
    ∃ a ∈ Icc lhs.min lhs.max, ∃ b ∈ Icc rhs.min rhs.max,
      ∀ exact, exactBinary (integerWidth lhs.scalar) op a b = some exact →
        Wraps result lhs.scalar exact := by
  obtain ⟨x, y, ⟨typedX, a, knownX, lowerX, upperX⟩, ⟨-, b, knownY, lowerY, upperY⟩,
    computed⟩ := of
  refine ⟨a, ⟨lowerX, upperX⟩, b, ⟨lowerY, upperY⟩, fun exact known => ?_⟩
  rw [← typedX] at known ⊢
  exact binary_wraps computed knownX knownY known

theorem encloses_add : Encloses (rangeOfBinary .add lhs rhs) (ResultOf floats .add lhs rhs) := by
  unfold rangeOfBinary
  split
  · exact encloses_none
  · have low := lhs.min_mem.1
    have high := lhs.max_mem.2
    have low' := rhs.min_mem.1
    have high' := rhs.max_mem.2
    have ordered := lhs.ordered
    have ordered' := rhs.ordered
    simp only [Arith.add, Arith.i128_of_small (lhs.min + rhs.min) (by omega) (by omega),
      Arith.i128_of_small (lhs.max + rhs.max) (by omega) (by omega)]
    refine .of_some fun range found value of => ?_
    obtain ⟨a, memA, b, memB, wraps⟩ := of.exact
    exact checkedRange_holds found (wraps _ rfl) (add_le_add memA.1 memB.1)
      (add_le_add memA.2 memB.2)

theorem encloses_subtract :
    Encloses (rangeOfBinary .subtract lhs rhs) (ResultOf floats .subtract lhs rhs) := by
  unfold rangeOfBinary
  split
  · exact encloses_none
  · have low := lhs.min_mem.1
    have high := lhs.max_mem.2
    have low' := rhs.min_mem.1
    have high' := rhs.max_mem.2
    have ordered := lhs.ordered
    have ordered' := rhs.ordered
    simp only [Arith.sub, Arith.i128_of_small (lhs.min - rhs.max) (by omega) (by omega),
      Arith.i128_of_small (lhs.max - rhs.min) (by omega) (by omega)]
    refine .of_some fun range found value of => ?_
    obtain ⟨a, memA, b, memB, wraps⟩ := of.exact
    exact checkedRange_holds found (wraps _ rfl) (sub_le_sub memA.1 memB.2)
      (sub_le_sub memA.2 memB.1)

theorem encloses_multiply :
    Encloses (rangeOfBinary .multiply lhs rhs) (ResultOf floats .multiply lhs rhs) := by
  unfold rangeOfBinary
  split
  · exact encloses_none
  · simp only [atCorners_mul]
    refine .of_some fun range found value of => ?_
    obtain ⟨a, memA, b, memB, wraps⟩ := of.exact
    exact rangeOfCandidates_holds found (wraps _ rfl) (Interval.mul_between memA memB)

theorem encloses_divide :
    Encloses (rangeOfBinary .divide lhs rhs) (ResultOf floats .divide lhs rhs) := by
  unfold rangeOfBinary
  split
  · exact encloses_none
  · cases zero : rhs.contains 0 with
    | true => exact encloses_full fun value of => of.typed
    | false =>
      have away := IntegerRange.away_of_not_contains zero
      simp only [Bool.false_eq_true, if_false, atCorners_div away]
      refine .of_some fun range found value of => ?_
      obtain ⟨a, memA, b, memB, wraps⟩ := of.exact
      exact rangeOfCandidates_holds found (wraps _ rfl) (Interval.tdiv_between away memA memB)

/-- A truncated remainder has the sign of the dividend, and neither its
magnitude nor the divisor's is exceeded. -/
theorem tmod_between {a b : Int} (bound : Nat) (nonzero : b ≠ 0) (within : b.natAbs ≤ bound) :
    max (min a 0) (-((bound - 1 : Nat) : Int)) ≤ a.tmod b
      ∧ a.tmod b ≤ min (max a 0) ((bound - 1 : Nat) : Int) := by
  have smaller : (a.tmod b).natAbs < b.natAbs := by
    rw [Int.natAbs_tmod]
    exact Nat.mod_lt _ (Int.natAbs_pos.mpr nonzero)
  have notLarger : (a.tmod b).natAbs ≤ a.natAbs := by
    rw [Int.natAbs_tmod]
    exact Nat.mod_le _ _
  rcases le_total 0 a with nonneg | nonpos
  · have sign := Int.tmod_nonneg b nonneg
    omega
  · have sign := Int.tmod_nonneg b (a := -a) (by omega)
    rw [Int.neg_tmod] at sign
    omega

theorem encloses_remainder :
    Encloses (rangeOfBinary .remainder lhs rhs) (ResultOf floats .remainder lhs rhs) := by
  unfold rangeOfBinary
  split
  · exact encloses_none
  · cases zero : rhs.contains 0 with
    | true => exact encloses_full fun value of => of.typed
    | false =>
      have away := IntegerRange.away_of_not_contains zero
      simp only [Bool.false_eq_true, if_false, rangeOfRemainder]
      split
      · rw [Arith.negI64, if_pos (by omega)]
        refine .of_some fun range found value of => ?_
        obtain ⟨a, memA, b, memB, wraps⟩ := of.exact
        obtain ⟨lowerB, upperB⟩ := memB
        have between := tmod_between (a := a) (b := b)
          (max rhs.min.natAbs rhs.max.natAbs) (by omega) (by omega)
        -- The dividend fits its type, so the remainder does.
        obtain ⟨typed, known⟩ := wraps _ rfl
        obtain ⟨⟨typeMin, typeMax⟩, bounds, low, high⟩ := lhs.fits
        obtain ⟨lowerA, upperA⟩ := memA
        have signs : typeMin ≤ 0 ∧ 0 ≤ typeMax := by
          rcases lhs.isInteger with scalar | scalar <;> rw [scalar] at bounds <;>
            cases bounds <;> constructor <;> norm_num
        simp only at low high
        rw [bmod_of_fits bounds (by omega) (by omega)] at known
        exact IntegerRange.holds_of_new found typed known (by omega) (by omega)
      · exact encloses_none

/-! ### Bitwise operations -/

variable {width : Nat} {value : BitVec width}

theorem toNat_of_nonneg {width : Nat} {value : BitVec width} (nonneg : 0 ≤ value.toInt) :
    (value.toNat : Int) = value.toInt := by
  rw [BitVec.toInt_eq_toNat_cond] at nonneg ⊢
  have bound := value.isLt
  split at nonneg
  case isTrue small => rw [if_pos small]
  case isFalse => omega

/-- A pattern no larger than that of a nonnegative value is nonnegative. -/
theorem toInt_of_toNat_le {other : BitVec width} (nonneg : 0 ≤ other.toInt)
    (le : value.toNat ≤ other.toNat) :
    value.toInt = value.toNat := by
  have same := toNat_of_nonneg nonneg
  rw [BitVec.toInt_eq_toNat_cond] at same ⊢
  split
  · rfl
  · split at same <;> omega

theorem and_between (x y : BitVec width) :
    (0 ≤ x.toInt → 0 ≤ (x &&& y).toInt ∧ (x &&& y).toInt ≤ x.toInt)
      ∧ (0 ≤ y.toInt → 0 ≤ (x &&& y).toInt ∧ (x &&& y).toInt ≤ y.toInt) := by
  constructor
  · intro nonneg
    have le : (x &&& y).toNat ≤ x.toNat := by
      rw [BitVec.toNat_and]
      exact Nat.and_le_left
    have same := toNat_of_nonneg nonneg
    rw [toInt_of_toNat_le nonneg le]
    omega
  · intro nonneg
    have le : (x &&& y).toNat ≤ y.toNat := by
      rw [BitVec.toNat_and]
      exact Nat.and_le_right
    have same := toNat_of_nonneg nonneg
    rw [toInt_of_toNat_le nonneg le]
    omega

/-- The operands of an integer operation at one width. -/
theorem binary_integer {x y : ScalarValue} {a : Int}
    (computed : ConstantEval.binary floats op x y = some result) (known : x.toInt? = some a) :
    ∃ (width : Nat) (p q r : BitVec width), (width = 32 ∨ width = 64)
      ∧ x.toInt? = some p.toInt ∧ y.toInt? = some q.toInt ∧ result.toInt? = some r.toInt
      ∧ ConstantEval.integerBinary op p q = some r := by
  cases x <;> simp only [ScalarValue.toInt?, reduceCtorEq] at known <;>
    cases y <;> simp only [ConstantEval.binary, reduceCtorEq, Option.map_eq_some_iff] at computed
  all_goals
    obtain ⟨bits, operated, rfl⟩ := computed
    exact ⟨_, _, _, bits, by simp, rfl, rfl, rfl, operated⟩

theorem encloses_bitAnd :
    Encloses (rangeOfBinary .bitAnd lhs rhs) (ResultOf floats .bitAnd lhs rhs) := by
  unfold rangeOfBinary
  split
  · exact encloses_none
  · simp only
    split
    case isTrue someNonneg =>
      refine .of_some fun range found value of => ?_
      have typed := of.typed.1
      obtain ⟨x, y, ⟨-, a, knownX, lowerX, upperX⟩, ⟨-, b, knownY, lowerY, upperY⟩,
        computed⟩ := of
      obtain ⟨width, p, q, r, -, numX, numY, numR, operated⟩ := binary_integer computed knownX
      obtain rfl : a = p.toInt := by rw [knownX] at numX; exact Option.some.inj numX
      obtain rfl : b = q.toInt := by rw [knownY] at numY; exact Option.some.inj numY
      obtain rfl : p &&& q = r := Option.some.inj operated
      obtain ⟨left, right⟩ := and_between p q
      unfold rangeOfBitAnd at found
      refine IntegerRange.holds_of_new found typed numR ?_ ?_
      · rcases someNonneg with nonneg | nonneg
        · exact (left (by omega)).1
        · exact (right (by omega)).1
      · cases nonnegX : decide (0 ≤ lhs.min) <;> cases nonnegY : decide (0 ≤ rhs.min) <;>
          simp only [decide_eq_true_eq, decide_eq_false_iff_not] at nonnegX nonnegY ⊢
        · omega
        · have := (right (by omega)).2
          omega
        · have := (left (by omega)).2
          omega
        · have := (right (by omega)).2
          have := (left (by omega)).2
          omega
    case isFalse => exact encloses_full fun value of => of.typed

/-- A bitwise or, or exclusive or, of nonnegative numbers has no higher bit
than they have. -/
theorem or_xor_between {x y : BitVec width} (bits : Nat) (nonnegX : 0 ≤ x.toInt)
    (nonnegY : 0 ≤ y.toInt) (smallX : x.toNat < 2 ^ bits) (smallY : y.toNat < 2 ^ bits) :
    (0 ≤ (x ||| y).toInt ∧ (x ||| y).toInt < 2 ^ bits)
      ∧ 0 ≤ (x ^^^ y).toInt ∧ (x ^^^ y).toInt < 2 ^ bits := by
  have msbX : x.msb = false := by
    rwa [BitVec.msb_eq_toInt, decide_eq_false_iff_not, not_lt]
  have msbY : y.msb = false := by
    rwa [BitVec.msb_eq_toInt, decide_eq_false_iff_not, not_lt]
  have or_msb : (x ||| y).msb = false := by simp [msbX, msbY]
  have xor_msb : (x ^^^ y).msb = false := by simp [msbX, msbY]
  rw [BitVec.toInt_eq_toNat_of_msb or_msb, BitVec.toInt_eq_toNat_of_msb xor_msb,
    BitVec.toNat_or, BitVec.toNat_xor]
  have or_small := Nat.or_lt_two_pow smallX smallY
  have xor_small := Nat.xor_lt_two_pow smallX smallY
  exact ⟨⟨by positivity, by exact_mod_cast or_small⟩, by positivity, by exact_mod_cast xor_small⟩

/-- The computed bound has all bits up to the highest bit of either operand. -/
theorem rangeOfBitOr_eq :
    rangeOfBitOr lhs rhs = some (IntegerRange.new lhs.scalar 0
      (((2 ^ (lhs.max.toNat ||| rhs.max.toNat).size - 1 : Nat)) : Int)) := by
  have high := lhs.max_mem.2
  have high' := rhs.max_mem.2
  have highest : (lhs.max.toNat ||| rhs.max.toNat) < 2 ^ 63 :=
    Nat.or_lt_two_pow (by omega) (by omega)
  have short : (lhs.max.toNat ||| rhs.max.toNat).size ≤ 63 := Nat.size_le.mpr highest
  have power : 2 ^ (lhs.max.toNat ||| rhs.max.toNat).size ≤ 2 ^ 63 :=
    Nat.pow_le_pow_right (by decide) short
  have positive : 1 ≤ 2 ^ (lhs.max.toNat ||| rhs.max.toNat).size := Nat.one_le_two_pow
  unfold rangeOfBitOr
  simp only
  split
  case isTrue zero => simp [zero, Arith.asI64]
  case isFalse =>
    rw [Arith.lowOnesU64, Arith.bitLengthU64, if_pos (by omega)]
    simp only [Option.bind_eq_bind, Option.bind_some, Option.pure_def]
    rw [asI64_of_fits (by omega) (by omega)]

theorem encloses_bitOr_of {value : ScalarValue} {range : IntegerRange}
    (xor : op = .bitOr ∨ op = .bitXor) (nonnegX : 0 ≤ lhs.min) (nonnegY : 0 ≤ rhs.min)
    (found : IntegerRange.new lhs.scalar 0
      (((2 ^ (lhs.max.toNat ||| rhs.max.toNat).size - 1 : Nat)) : Int) = some range)
    (of : ResultOf floats op lhs rhs value) : range.Holds value := by
  have typed := of.typed.1
  obtain ⟨x, y, ⟨-, a, knownX, lowerX, upperX⟩, ⟨-, b, knownY, lowerY, upperY⟩, computed⟩ := of
  obtain ⟨width, p, q, r, -, numX, numY, numR, operated⟩ := binary_integer computed knownX
  obtain rfl : a = p.toInt := by rw [knownX] at numX; exact Option.some.inj numX
  obtain rfl : b = q.toInt := by rw [knownY] at numY; exact Option.some.inj numY
  have below : lhs.max.toNat ||| rhs.max.toNat < 2 ^ (lhs.max.toNat ||| rhs.max.toNat).size :=
    Nat.lt_size_self _
  have left : lhs.max.toNat ≤ lhs.max.toNat ||| rhs.max.toNat := Nat.left_le_or
  have right : rhs.max.toNat ≤ lhs.max.toNat ||| rhs.max.toNat := Nat.right_le_or
  have sameX := @toNat_of_nonneg _ p (by omega)
  have sameY := @toNat_of_nonneg _ q (by omega)
  obtain ⟨⟨lowOr, highOr⟩, lowXor, highXor⟩ :=
    or_xor_between (x := p) (y := q) (lhs.max.toNat ||| rhs.max.toNat).size
      (by omega) (by omega) (by omega) (by omega)
  have cast : (((2 ^ (lhs.max.toNat ||| rhs.max.toNat).size - 1 : Nat)) : Int)
      = 2 ^ (lhs.max.toNat ||| rhs.max.toNat).size - 1 := by
    rw [Nat.cast_sub Nat.one_le_two_pow]
    norm_num
  rw [cast] at found
  rcases xor with rfl | rfl
  · obtain rfl : p ||| q = r := Option.some.inj operated
    exact IntegerRange.holds_of_new found typed numR lowOr (by omega)
  · obtain rfl : p ^^^ q = r := Option.some.inj operated
    exact IntegerRange.holds_of_new found typed numR lowXor (by omega)

theorem encloses_bitOr (xor : op = .bitOr ∨ op = .bitXor) :
    Encloses (rangeOfBinary op lhs rhs) (ResultOf floats op lhs rhs) := by
  have shape : rangeOfBinary op lhs rhs
      = if lhs.scalar ≠ rhs.scalar then pure none
        else if 0 ≤ lhs.min ∧ 0 ≤ rhs.min then rangeOfBitOr lhs rhs
        else pure (IntegerRange.full lhs.scalar) := by
    rcases xor with rfl | rfl <;> rfl
  rw [shape]
  split
  · exact encloses_none
  · split
    case isTrue nonneg =>
      rw [rangeOfBitOr_eq]
      exact .of_some fun range found value of =>
        encloses_bitOr_of xor nonneg.1 nonneg.2 found of
    case isFalse => exact encloses_full fun value of => of.typed

/-! ### Shifts -/

theorem encloses_shiftLeft :
    Encloses (rangeOfBinary .shiftLeft lhs rhs) (ResultOf floats .shiftLeft lhs rhs) := by
  unfold rangeOfBinary
  split
  · exact encloses_none
  · simp only [rangeOfShift]
    cases known : shiftCounts lhs.scalar rhs with
    | none => exact encloses_full fun value of => of.typed
    | some counts =>
      obtain ⟨low, high, encloses⟩ := shiftCounts_spec lhs.isInteger known
      simp only [atCorners_shl low high]
      refine .of_some fun range found value of => ?_
      obtain ⟨a, memA, b, memB, wraps⟩ := of.exact
      exact rangeOfCandidates_holds found (wraps _ rfl)
        (Interval.shiftLeft_between memA (encloses b memB.1 memB.2))

theorem encloses_shiftRight :
    Encloses (rangeOfBinary .shiftRight lhs rhs) (ResultOf floats .shiftRight lhs rhs) := by
  unfold rangeOfBinary
  split
  · exact encloses_none
  · simp only [rangeOfShift]
    cases known : shiftCounts lhs.scalar rhs with
    | none => exact encloses_full fun value of => of.typed
    | some counts =>
      obtain ⟨low, high, encloses⟩ := shiftCounts_spec lhs.isInteger known
      simp only [atCorners_shr low high]
      refine .of_some fun range found value of => ?_
      obtain ⟨a, memA, b, memB, wraps⟩ := of.exact
      exact rangeOfCandidates_holds found (wraps _ rfl)
        (Interval.shiftRight_between memA (encloses b memB.1 memB.2))

/-- **Binary operations.**  The computed range holds the wrapped result of all
operands of the two ranges, and computing it does not overflow. -/
theorem encloses_binary :
    Encloses (rangeOfBinary op lhs rhs) (ResultOf floats op lhs rhs) := by
  cases op with
  | add => exact encloses_add
  | subtract => exact encloses_subtract
  | multiply => exact encloses_multiply
  | divide => exact encloses_divide
  | remainder => exact encloses_remainder
  | bitAnd => exact encloses_bitAnd
  | bitOr => exact encloses_bitOr (.inl rfl)
  | bitXor => exact encloses_bitOr (.inr rfl)
  | shiftLeft => exact encloses_shiftLeft
  | shiftRight => exact encloses_shiftRight

end Operations

end Onda.Mir
