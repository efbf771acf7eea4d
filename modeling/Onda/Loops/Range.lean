import Mathlib.Tactic.Linarith
import Mathlib.Tactic.Ring
import Onda.Mir.Types

/-!
# Integer ranges of `for` loops

A range counts from its start in steps, as long as the mathematical value is within the
end bound.  `static_for_plan` computes the last value of a constant range with 128-bit
integers; it fits the induction type, and it is the value that no step within the bound
follows.
-/

namespace Onda.Loops

open Onda.Mir (ScalarValue)

/-- The types of induction variables. -/
inductive InductionTy where
  | i32
  | i64
deriving DecidableEq

namespace InductionTy

def bits : InductionTy → Nat
  | i32 => 32
  | i64 => 64

/-- The values of the type. -/
def Holds (ty : InductionTy) (value : Int) : Prop :=
  -2 ^ (ty.bits - 1) ≤ value ∧ value < 2 ^ (ty.bits - 1)

instance (ty : InductionTy) (value : Int) : Decidable (ty.Holds value) :=
  inferInstanceAs (Decidable (_ ∧ _))

/-- Two's complement. -/
def wrap (ty : InductionTy) (value : Int) : Int := (BitVec.ofInt ty.bits value).toInt

/-- A value of the type as a MIR constant; `expect` panics on another one. -/
def scalar? (ty : InductionTy) (value : Int) : Option ScalarValue :=
  if ty.Holds value then
    match ty with
    | i32 => some (.i32 (BitVec.ofInt 32 value))
    | i64 => some (.i64 (BitVec.ofInt 64 value))
  else none

theorem wrap_eq {ty : InductionTy} {value : Int} (holds : ty.Holds value) : ty.wrap value = value := by
  obtain ⟨lower, upper⟩ := holds
  cases ty
  all_goals
    simp only [wrap, bits] at *
    rw [BitVec.toInt_ofInt]
    exact Int.bmod_eq_of_le (by omega) (by omega)

theorem wrap_holds (ty : InductionTy) (value : Int) : ty.Holds (ty.wrap value) := by
  cases ty
  all_goals exact ⟨BitVec.le_toInt _, BitVec.toInt_lt⟩

theorem holds_toInt {ty : InductionTy} (value : BitVec ty.bits) : ty.Holds value.toInt := by
  cases ty
  all_goals exact ⟨BitVec.le_toInt _, BitVec.toInt_lt⟩

/-- The value of a constant that was made from one. -/
theorem toInt?_scalar {ty : InductionTy} {value : Int} (holds : ty.Holds value) :
    ∃ scalar, ty.scalar? value = some scalar ∧ scalar.toInt? = some value := by
  have kept := wrap_eq holds
  unfold scalar?
  rw [if_pos holds]
  cases ty
  · exact ⟨_, rfl, congrArg some kept⟩
  · exact ⟨_, rfl, congrArg some kept⟩

end InductionTy

/-! ### Ranges -/

/-- A range whose bounds and step are evaluated. -/
structure Range where
  ty : InductionTy
  start : Int
  stop : Int
  step : Int
  inclusive : Bool
  start_holds : ty.Holds start
  stop_holds : ty.Holds stop
  step_holds : ty.Holds step

namespace Range

variable (range : Range)

/-- The value is within the end bound; a step of zero reaches no bound. -/
def Within (value : Int) : Prop :=
  0 < range.step ∧ (if range.inclusive then value ≤ range.stop else value < range.stop)
    ∨ range.step < 0 ∧ (if range.inclusive then range.stop ≤ value else range.stop < value)

instance (value : Int) : Decidable (range.Within value) := inferInstanceAs (Decidable (_ ∨ _))

/-- The values from one on, at most so many. -/
def valuesFrom : Nat → Int → List Int
  | 0, _ => []
  | count + 1, value =>
    if range.Within value then value :: valuesFrom count (value + range.step) else []

/-- `start`, `start + step`, ... within the bound; a type has no more values. -/
def values : List Int := range.valuesFrom (2 ^ range.ty.bits) range.start

/-- The list of the values from one on, until the first outside the bound. -/
inductive Counts : Int → List Int → Prop
  | done {value : Int} (outside : ¬range.Within value) : Counts value []
  | next {value : Int} {later : List Int} (within : range.Within value)
      (counts : Counts (value + range.step) later) : Counts value (value :: later)

/-- No increment leaves the induction type. -/
def Fits : Prop := ∀ value ∈ range.values, range.ty.Holds (value + range.step)

instance : Decidable range.Fits := inferInstanceAs (Decidable (∀ _ ∈ _, _))

variable {range}

/-- The values left in the direction of the step. -/
def room (range : Range) (value : Int) : Nat :=
  if 0 < range.step then (2 ^ (range.ty.bits - 1) - value).toNat
  else (value + 2 ^ (range.ty.bits - 1) + 1).toNat

theorem room_next {value : Int} (within : range.Within value) :
    range.room (value + range.step) < range.room value := by
  have below := range.stop_holds.2
  have above := range.stop_holds.1
  unfold room
  rcases within with ⟨forward, bound⟩ | ⟨backward, bound⟩
  · rw [if_pos forward, if_pos forward]
    split at bound <;> omega
  · rw [if_neg (by omega), if_neg (by omega)]
    split at bound <;> omega

theorem counts_valuesFrom {count : Nat} : ∀ {value : Int}, range.room value ≤ count →
    range.Counts value (range.valuesFrom count value) := by
  induction count with
  | zero =>
    intro value enough
    refine .done fun within => ?_
    have less := room_next within
    omega
  | succ count ih =>
    intro value enough
    rw [valuesFrom]
    split
    case isTrue within =>
      have less := room_next within
      exact .next within (ih (by omega))
    case isFalse outside => exact .done outside

/-- **The specification counts.** -/
theorem counts_values (range : Range) : range.Counts range.start range.values := by
  refine counts_valuesFrom ?_
  have bounds := range.start_holds
  unfold room
  generalize range.ty = ty at bounds ⊢
  cases ty
  all_goals
    simp only [InductionTy.Holds, InductionTy.bits] at *
    split <;> omega

theorem valuesFrom_length (count : Nat) : ∀ value, (range.valuesFrom count value).length ≤ count := by
  induction count with
  | zero => exact fun _ => Nat.le_refl 0
  | succ count ih =>
    intro value
    rw [valuesFrom]
    split
    · rw [List.length_cons]
      exact Nat.succ_le_succ (ih _)
    · exact Nat.zero_le _

/-- No range has more values than the widest type. -/
theorem values_length (range : Range) : range.values.length ≤ 2 ^ 64 := by
  refine (valuesFrom_length _ _).trans ?_
  cases range.ty
  · exact Nat.pow_le_pow_right (by decide) (by decide)
  · exact Nat.le_refl _

theorem Counts.unique {value : Int} {values other : List Int} (counts : range.Counts value values)
    (counts' : range.Counts value other) : values = other := by
  induction counts generalizing other with
  | done outside =>
    cases counts' with
    | done => rfl
    | next within => exact absurd within outside
  | next within _ ih =>
    cases counts' with
    | done outside => exact absurd within outside
    | next _ later => rw [ih later]

/-- A step within the bound stays in the type. -/
theorem holds_next {value : Int} (holds : range.ty.Holds value)
    (within : range.Within (value + range.step)) : range.ty.Holds (value + range.step) := by
  have bounds := range.stop_holds
  obtain ⟨lower, upper⟩ := holds
  unfold InductionTy.Holds at *
  rcases within with ⟨forward, bound⟩ | ⟨backward, bound⟩
  · split at bound <;> constructor <;> omega
  · split at bound <;> constructor <;> omega

end Range

/-! ### Constant ranges -/

/-- `StaticForPlan`. -/
inductive StaticForPlan where
  | empty
  | nonEmpty (min max last : ScalarValue)

/-- The plan for a last value. -/
def planTo (ty : InductionTy) (start last : Int) : Option (Option StaticForPlan) := do
  let min ← ty.scalar? (min start last)
  let max ← ty.scalar? (max start last)
  let last ← ty.scalar? last
  return some (.nonEmpty min max last)

/-- `static_for_plan` on values of one type. -/
def staticForPlanOf (ty : InductionTy) (start stop step : Int) (inclusive : Bool) :
    Option (Option StaticForPlan) :=
  if step = 0 then some none
  else if 0 < step then
    let upper := if inclusive then stop else stop - 1
    if upper < start then some (some .empty)
    else planTo ty start (start + (upper - start) / step * step)
  else
    let lower := if inclusive then stop else stop + 1
    if start < lower then some (some .empty)
    else planTo ty start (start - (start - lower) / -step * -step)

/-- `static_for_plan`; nothing if it panics. -/
def staticForPlan (start stop step : ScalarValue) (inclusive : Bool) :
    Option (Option StaticForPlan) :=
  match start, stop, step with
  | .i32 start, .i32 stop, .i32 step =>
    staticForPlanOf .i32 start.toInt stop.toInt step.toInt inclusive
  | .i64 start, .i64 stop, .i64 step =>
    staticForPlanOf .i64 start.toInt stop.toInt step.toInt inclusive
  | _, _, _ => some none

namespace Range

variable {range : Range}

/-- The value that no step within the bound follows. -/
structure IsLast (range : Range) (last : Int) : Prop where
  within : range.Within last
  outside : ¬range.Within (last + range.step)
  reached : ∃ passes : Nat, last = range.start + passes * range.step

/-- Of the values counted, only the last is followed by none. -/
theorem IsLast.eq_iff {last value : Int} (isLast : range.IsLast last) {passes : Nat}
    (reached : value = range.start + passes * range.step) (within : range.Within value) :
    value = last ↔ ¬range.Within (value + range.step) := by
  obtain ⟨lastWithin, outside, others, eq⟩ := isLast
  constructor
  · rintro rfl
    exact outside
  · intro valueOutside
    -- Both are the greatest number of steps within the bound.
    have same : (passes : Int) = others := by
      unfold Within at *
      rcases lt_trichotomy range.step 0 with backward | zero | forward
      · have notForward : ¬0 < range.step := by omega
        simp only [notForward, backward, false_and, true_and, false_or] at *
        split at lastWithin
        all_goals
          rename_i inclusive
          simp only [inclusive, if_true, if_false, Bool.false_eq_true, not_le, not_lt] at *
          subst eq reached
          nlinarith
      · simp [zero] at within
      · have notBackward : ¬range.step < 0 := by omega
        simp only [notBackward, forward, false_and, true_and, or_false] at *
        split at lastWithin
        all_goals
          rename_i inclusive
          simp only [inclusive, if_true, if_false, Bool.false_eq_true, not_le, not_lt] at *
          subst eq reached
          nlinarith
    rw [reached, eq, same]

/-- What reaches a value within the bound starts within it. -/
theorem IsLast.start_within {last : Int} (isLast : range.IsLast last) : range.Within range.start := by
  obtain ⟨within, -, passes, eq⟩ := isLast
  unfold Within at *
  rcases within with ⟨forward, bound⟩ | ⟨backward, bound⟩
  · have nonneg : 0 ≤ (passes : Int) * range.step := Int.mul_nonneg (by omega) (by omega)
    refine .inl ⟨forward, ?_⟩
    split at bound
    · rw [if_pos ‹_›]
      omega
    · rw [if_neg ‹_›]
      omega
  · have nonpos : (passes : Int) * range.step ≤ 0 :=
      Int.mul_nonpos_of_nonneg_of_nonpos (by omega) (by omega)
    refine .inr ⟨backward, ?_⟩
    split at bound
    · rw [if_pos ‹_›]
      omega
    · rw [if_neg ‹_›]
      omega

theorem planTo_eq {start last : Int} (start_holds : range.ty.Holds start)
    (last_holds : range.ty.Holds last) :
    ∃ least greatest scalar, planTo range.ty start last = some (some (.nonEmpty least greatest scalar))
      ∧ scalar.toInt? = some last := by
  have min_holds : range.ty.Holds (min start last) := by
    rcases min_choice start last with same | same <;> rwa [same]
  have max_holds : range.ty.Holds (max start last) := by
    rcases max_choice start last with same | same <;> rwa [same]
  obtain ⟨least, leastEq, -⟩ := InductionTy.toInt?_scalar min_holds
  obtain ⟨greatest, greatestEq, -⟩ := InductionTy.toInt?_scalar max_holds
  obtain ⟨scalar, scalarEq, value⟩ := InductionTy.toInt?_scalar last_holds
  refine ⟨least, greatest, scalar, ?_, value⟩
  unfold planTo
  rw [leastEq, greatestEq, scalarEq]
  rfl

/-- **The static plan.**  It does not panic; without it the step is zero, an empty plan is
an empty range, and otherwise the last value is the one no other follows. -/
theorem staticForPlanOf_spec (range : Range) :
    (range.step = 0 ∧ staticForPlanOf range.ty range.start range.stop range.step range.inclusive
        = some none)
    ∨ (¬range.Within range.start
      ∧ staticForPlanOf range.ty range.start range.stop range.step range.inclusive = some (some .empty))
    ∨ ∃ least greatest scalar last,
      staticForPlanOf range.ty range.start range.stop range.step range.inclusive
        = some (some (.nonEmpty least greatest scalar))
      ∧ scalar.toInt? = some last ∧ range.IsLast last := by
  unfold staticForPlanOf
  rcases lt_trichotomy range.step 0 with backward | zero | forward
  · have notForward : ¬0 < range.step := by omega
    rw [if_neg backward.ne, if_neg notForward]
    generalize bound : (if range.inclusive then range.stop else range.stop + 1) = lower
    have inside : ∀ value, range.Within value ↔ lower ≤ value := by
      intro value
      simp only [Within, notForward, backward, false_and, true_and, false_or, ← bound]
      split <;> omega
    have least : range.stop ≤ lower := by
      rw [← bound]
      split <;> omega
    dsimp only
    split
    case isTrue empty => exact .inr (.inl ⟨by rw [inside]; omega, rfl⟩)
    case isFalse nonempty =>
      have quotient := Int.ediv_nonneg (show 0 ≤ range.start - lower by omega)
        (show 0 ≤ -range.step by omega)
      have below := Int.ediv_mul_le (range.start - lower) (show -range.step ≠ 0 by omega)
      have above := Int.lt_ediv_add_one_mul_self (range.start - lower) (show 0 < -range.step by omega)
      generalize (range.start - lower) / -range.step = passes at quotient below above ⊢
      have lastHolds : range.ty.Holds (range.start - passes * -range.step) := by
        have nonneg := Int.mul_nonneg quotient (show 0 ≤ -range.step by omega)
        have bounds := range.stop_holds.1
        have top := range.start_holds.2
        constructor <;> omega
      obtain ⟨min, max, scalar, planned, value⟩ := planTo_eq range.start_holds lastHolds
      refine .inr (.inr ⟨min, max, scalar, _, planned, value, ?_, ?_, passes.toNat, ?_⟩)
      · rw [inside]
        omega
      · rw [inside]
        linarith
      · rw [Int.toNat_of_nonneg quotient]
        ring
  · exact .inl ⟨zero, if_pos zero⟩
  · have notBackward : ¬range.step < 0 := by omega
    rw [if_neg forward.ne', if_pos forward]
    generalize bound : (if range.inclusive then range.stop else range.stop - 1) = upper
    have inside : ∀ value, range.Within value ↔ value ≤ upper := by
      intro value
      simp only [Within, notBackward, forward, false_and, true_and, or_false, ← bound]
      split <;> omega
    have greatest : upper ≤ range.stop := by
      rw [← bound]
      split <;> omega
    dsimp only
    split
    case isTrue empty => exact .inr (.inl ⟨by rw [inside]; omega, rfl⟩)
    case isFalse nonempty =>
      have quotient := Int.ediv_nonneg (show 0 ≤ upper - range.start by omega)
        (show 0 ≤ range.step by omega)
      have below := Int.ediv_mul_le (upper - range.start) (show range.step ≠ 0 by omega)
      have above := Int.lt_ediv_add_one_mul_self (upper - range.start) forward
      generalize (upper - range.start) / range.step = passes at quotient below above ⊢
      have lastHolds : range.ty.Holds (range.start + passes * range.step) := by
        have nonneg := Int.mul_nonneg quotient (show 0 ≤ range.step by omega)
        have bounds := range.stop_holds.2
        have bottom := range.start_holds.1
        constructor <;> omega
      obtain ⟨min, max, scalar, planned, value⟩ := planTo_eq range.start_holds lastHolds
      refine .inr (.inr ⟨min, max, scalar, _, planned, value, ?_, ?_, passes.toNat, ?_⟩)
      · rw [inside]
        omega
      · rw [inside]
        linarith
      · rw [Int.toNat_of_nonneg quotient]

end Range

end Onda.Loops
