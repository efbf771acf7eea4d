import Onda.Lib.Interval
import Onda.Mir.Evaluation

/-!
# Integer ranges and their transfer functions

An `IntegerRange` is an inclusive interval of one integer scalar type;
`rangeOfRvalue` and `rangeOfBinary` compute the range of a result from the
ranges of the operands.

The bounds of a range are `i64`s and the transfer functions compute with `i128`,
`u64` and `u32` intermediates.  An addition, a product or a conversion that does
not fit its type would panic or wrap there, so each machine operation is a
definition of its own here and the functions return `none` where one of them
overflows.  The inner `Option` is the result: no range is known.
-/

namespace Onda.Mir

/-- The least and the greatest value of an integer type. -/
def integerTypeBounds : ScalarType → Option (Int × Int)
  | .i32 => some (-2 ^ 31, 2 ^ 31 - 1)
  | .i64 => some (-2 ^ 63, 2 ^ 63 - 1)
  | _ => none

/-- Inclusive integer interval with an explicit scalar width. -/
structure IntegerRange where
  scalar : ScalarType
  min : Int
  max : Int
  ordered : min ≤ max
  fits : ∃ bounds, integerTypeBounds scalar = some bounds ∧ bounds.1 ≤ min ∧ max ≤ bounds.2

namespace IntegerRange

def new (scalar : ScalarType) (min max : Int) : Option IntegerRange :=
  match bounds : integerTypeBounds scalar with
  | none => none
  | some (typeMin, typeMax) =>
    if h : min ≤ max ∧ typeMin ≤ min ∧ max ≤ typeMax then
      some { scalar, min, max, ordered := h.1, fits := ⟨_, bounds, h.2.1, h.2.2⟩ }
    else none

def contains (range : IntegerRange) (value : Int) : Bool :=
  decide (range.min ≤ value) && decide (value ≤ range.max)

/-- Every value of an integer type. -/
def full (scalar : ScalarType) : Option IntegerRange :=
  match integerTypeBounds scalar with
  | none => none
  | some (min, max) => new scalar min max

def singleton : ScalarValue → Option IntegerRange
  | .i32 value => new .i32 value.toInt value.toInt
  | .i64 value => new .i64 value.toInt value.toInt
  | _ => none

/-- A scalar value is one of the values of a range. -/
def Holds (range : IntegerRange) (value : ScalarValue) : Prop :=
  value.ty = range.scalar ∧ ∃ number, value.toInt? = some number
    ∧ range.min ≤ number ∧ number ≤ range.max

end IntegerRange

/-! ### Machine arithmetic -/

/-- A computation of the analysis; `none` is an arithmetic overflow. -/
abbrev Arith := Option

namespace Arith

/-- A result that has to be an `i128`. -/
def i128 (value : Int) : Arith Int :=
  if -2 ^ 127 ≤ value ∧ value < 2 ^ 127 then some value else none

def add (lhs rhs : Int) : Arith Int := i128 (lhs + rhs)

def sub (lhs rhs : Int) : Arith Int := i128 (lhs - rhs)

def mul (lhs rhs : Int) : Arith Int := i128 (lhs * rhs)

def neg (value : Int) : Arith Int := i128 (-value)

def div (lhs rhs : Int) : Arith Int :=
  if rhs = 0 then none else i128 (lhs.tdiv rhs)

/-- Bits that are shifted out are lost without an overflow. -/
def shl (value : Int) (shift : Nat) : Arith Int :=
  if shift < 128 then some ((value * 2 ^ shift).bmod (2 ^ 128)) else none

def shr (value : Int) (shift : Nat) : Arith Int :=
  if shift < 128 then some (value / 2 ^ shift) else none

/-- `value as i64` -/
def asI64 (value : Int) : Int := value.bmod (2 ^ 64)

/-- `value as u32` -/
def asU32 (value : Int) : Nat := (value % 2 ^ 32).toNat

/-- Negation of an `i64`. -/
def negI64 (value : Int) : Arith Int :=
  if -2 ^ 63 < value then some (-value) else none

/-- `(1_u64 << shift) - 1` -/
def lowOnesU64 (shift : Nat) : Arith Nat :=
  if shift < 64 then some (2 ^ shift - 1) else none

/-- `64 - value.leading_zeros()` of a `u64`. -/
def bitLengthU64 (value : Nat) : Nat := value.size

end Arith

/-! ### Binary operations -/

def checkedRange (scalar : ScalarType) (min max : Int) : Option IntegerRange :=
  match integerTypeBounds scalar with
  | none => none
  | some (typeMin, typeMax) =>
    if min < typeMin ∨ typeMax < max then IntegerRange.full scalar
    else IntegerRange.new scalar (Arith.asI64 min) (Arith.asI64 max)

/-- The range between the least and the greatest of some candidates. -/
def rangeOfCandidates (scalar : ScalarType) (candidates : List Int) : Option IntegerRange :=
  match candidates.min?, candidates.max? with
  | some min, some max => checkedRange scalar min max
  | _, _ => none

/-- One operation at the four pairs of ends, the first operand slowest. -/
def atCorners {β : Type} (operate : Int → β → Arith Int) (lhs : Int × Int) (rhs : β × β) :
    Arith (List Int) := do
  let first ← operate lhs.1 rhs.1
  let second ← operate lhs.1 rhs.2
  let third ← operate lhs.2 rhs.1
  let fourth ← operate lhs.2 rhs.2
  pure [first, second, third, fourth]

def rangeOfRemainder (lhs rhs : IntegerRange) : Arith (Option IntegerRange) := do
  let magnitude := max rhs.min.natAbs rhs.max.natAbs
  let maximum := magnitude - 1
  if maximum < 2 ^ 63 then
    let lowest ← Arith.negI64 maximum
    pure (IntegerRange.new lhs.scalar (max (min lhs.min 0) lowest)
      (min (max lhs.max 0) maximum))
  else pure none

def rangeOfBitAnd (lhs rhs : IntegerRange) : Option IntegerRange :=
  let maximum :=
    match decide (0 ≤ lhs.min), decide (0 ≤ rhs.min) with
    | true, true => min lhs.max rhs.max
    | true, false => lhs.max
    | _, _ => rhs.max
  IntegerRange.new lhs.scalar 0 maximum

/-- The range of a bitwise or, or exclusive or, of nonnegative operands. -/
def rangeOfBitOr (lhs rhs : IntegerRange) : Arith (Option IntegerRange) := do
  let highest := lhs.max.toNat ||| rhs.max.toNat
  let maximum ← if highest = 0 then pure 0 else Arith.lowOnesU64 (Arith.bitLengthU64 highest)
  pure (IntegerRange.new lhs.scalar 0 (Arith.asI64 maximum))

/-- The least and the greatest shift count, where the operands tell. -/
def shiftCounts (scalar : ScalarType) (rhs : IntegerRange) : Option (Nat × Nat) :=
  let bits := if scalar = .i32 then 32 else 64
  if rhs.min = rhs.max then
    let shift := Arith.asU32 rhs.min &&& (bits - 1)
    some (shift, shift)
  else if 0 ≤ rhs.min ∧ rhs.max < bits then
    some (Arith.asU32 rhs.min, Arith.asU32 rhs.max)
  else none

def rangeOfShift (shift : Int → Nat → Arith Int) (lhs rhs : IntegerRange) :
    Arith (Option IntegerRange) :=
  match shiftCounts lhs.scalar rhs with
  | none => pure (IntegerRange.full lhs.scalar)
  | some counts => do
    let shifted ← atCorners shift (lhs.min, lhs.max) counts
    pure (rangeOfCandidates lhs.scalar shifted)

def rangeOfBinary (op : BinaryOp) (lhs rhs : IntegerRange) : Arith (Option IntegerRange) :=
  if lhs.scalar ≠ rhs.scalar then pure none
  else
    match op with
    | .add => do
      pure (checkedRange lhs.scalar (← Arith.add lhs.min rhs.min)
        (← Arith.add lhs.max rhs.max))
    | .subtract => do
      pure (checkedRange lhs.scalar (← Arith.sub lhs.min rhs.max)
        (← Arith.sub lhs.max rhs.min))
    | .multiply => do
      let products ← atCorners Arith.mul (lhs.min, lhs.max) (rhs.min, rhs.max)
      pure (rangeOfCandidates lhs.scalar products)
    | .remainder =>
      if rhs.contains 0 then pure (IntegerRange.full lhs.scalar)
      else rangeOfRemainder lhs rhs
    | .divide =>
      if rhs.contains 0 then pure (IntegerRange.full lhs.scalar)
      else do
        let quotients ← atCorners Arith.div (lhs.min, lhs.max) (rhs.min, rhs.max)
        pure (rangeOfCandidates lhs.scalar quotients)
    | .bitAnd =>
      if 0 ≤ lhs.min ∨ 0 ≤ rhs.min then pure (rangeOfBitAnd lhs rhs)
      else pure (IntegerRange.full lhs.scalar)
    | .bitOr | .bitXor =>
      if 0 ≤ lhs.min ∧ 0 ≤ rhs.min then rangeOfBitOr lhs rhs
      else pure (IntegerRange.full lhs.scalar)
    | .shiftLeft => rangeOfShift Arith.shl lhs rhs
    | .shiftRight => rangeOfShift Arith.shr lhs rhs

/-! ### Operands -/

def integerRangeFromValueRange (range : ValueRange) : Option IntegerRange :=
  match range.min, range.max with
  | .i32 min, .i32 max => IntegerRange.new .i32 min.toInt max.toInt
  | .i64 min, .i64 max => IntegerRange.new .i64 min.toInt max.toInt
  | _, _ => none

def integerRangeFromInvariant (range : IntegerRangeInvariant) : Option IntegerRange :=
  integerRangeFromValueRange { min := range.min, max := range.max }

/-- What is known about the parameters or the locals of a function. -/
abbrev RangeEnvironment := List (Option IntegerRange)

def RangeEnvironment.at (environment : RangeEnvironment) (index : Nat) : Option IntegerRange :=
  environment[index]?.join

def rangeOfValue (environment : RangeEnvironment) : Value → Option IntegerRange
  | .constant value => IntegerRange.singleton value
  | .localVar localId => environment.at localId

/-- Interface parameters and event payloads contain raw host values. -/
def rangeOfPlainPlace (program : Program) (parameters environment : RangeEnvironment) :
    PlaceBase → Option IntegerRange
  | .localVar localId => environment.at localId
  | .parameter parameter => parameters.at parameter
  | .state state => do integerRangeFromInvariant (← (← program.state[state]?).integerRange)
  | .param _ | .eventParam _ => none

/-! ### Rvalues -/

def rangeOfUnary (op : UnaryOp) (operand : IntegerRange) : Arith (Option IntegerRange) :=
  match op with
  | .negate => do
    pure (checkedRange operand.scalar (← Arith.neg operand.max) (← Arith.neg operand.min))
  | .bitNot => pure (IntegerRange.full operand.scalar)
  | .logicalNot => pure none

def rangeOfCast (source : IntegerRange) (target : ScalarType) : Option IntegerRange :=
  match source.scalar, target with
  | .i32, .i64 => IntegerRange.new target source.min source.max
  | .i64, .i32 =>
    (IntegerRange.new target source.min source.max).or (IntegerRange.full target)
  | scalar, target => if scalar = target then some source else none

/-- The range of `Min` or `Max`; one known operand still bounds the result. -/
def rangeOfExtremum (pick : Int → Int → Int) (lhs rhs : Option IntegerRange) :
    Option IntegerRange := do
  let scalar := (← lhs.or rhs).scalar
  let lhs ← lhs.or (IntegerRange.full scalar)
  let rhs ← rhs.or (IntegerRange.full scalar)
  if lhs.scalar ≠ rhs.scalar then none
  else IntegerRange.new lhs.scalar (pick lhs.min rhs.min) (pick lhs.max rhs.max)

def rangeOfNormalization (lower upper : Option IntegerRange) : Option IntegerRange := do
  let lower ← lower
  let upper ← upper
  if lower.scalar ≠ upper.scalar ∨ lower.min ≠ lower.max ∨ upper.min ≠ upper.max
      ∨ upper.min < lower.min then none
  else IntegerRange.new lower.scalar lower.min upper.max

def rangeOfIntrinsic (environment : RangeEnvironment) (intrinsic : Intrinsic)
    (args : List Value) : Option IntegerRange :=
  match intrinsic, args with
  | .min, [lhs, rhs] =>
    rangeOfExtremum min (rangeOfValue environment lhs) (rangeOfValue environment rhs)
  | .max, [lhs, rhs] =>
    rangeOfExtremum max (rangeOfValue environment lhs) (rangeOfValue environment rhs)
  | .rangeClamp, [_, lower, upper] | .rangeWrap, [_, lower, upper] =>
    rangeOfNormalization (rangeOfValue environment lower) (rangeOfValue environment upper)
  | _, _ => none

/-- Lengths, counts and normalized indices: a nonnegative `i32`. -/
def indexRange : Option IntegerRange := IntegerRange.new .i32 0 (2 ^ 31 - 1)

def rangeOfRvalue (program : Program) (parameters environment : RangeEnvironment) :
    Rvalue → Arith (Option IntegerRange)
  | .use value => pure (rangeOfValue environment value)
  | .load place =>
    pure (if place.projections.isEmpty then
      rangeOfPlainPlace program parameters environment place.base else none)
  | .unary op operand =>
    match rangeOfValue environment operand with
    | none => pure none
    | some operand => rangeOfUnary op operand
  | .binary op lhs rhs =>
    match rangeOfValue environment lhs, rangeOfValue environment rhs with
    | some lhs, some rhs => rangeOfBinary op lhs rhs
    | _, _ => pure none
  | .cast value target =>
    pure (match rangeOfValue environment value with
      | none => none
      | some source => rangeOfCast source target)
  | .intrinsic intrinsic args => pure (rangeOfIntrinsic environment intrinsic args)
  | .processFrame _ =>
    pure (IntegerRange.new .i32 0 ((program.config.blockSize - 1 : Nat) : Int))
  | .normalizeIndex .. | .bufferLen _ | .bufferChannels _ | .bufferParamLen _
  | .bufferParamChannels _ | .sliceLen _ => pure indexRange
  | _ => pure none

end Onda.Mir
