import Mathlib.Data.Int.Notation
import Onda.Mir.Ir

/-!
# Scalar operations

The operations on concrete scalars, shared by constant folding and by the
evaluator of `Onda.Mir.Semantics`.  Operands must already have the same type;
an operation that does not apply, including an integer division by zero,
yields `none`.

Rounding float arithmetic is the one thing this development does not compute:
`FloatOps` supplies it as functions on encodings.  Comparison, negation and
conversion to integers are exact and are computed on the encoding.
-/

namespace Onda.Mir

/-- The rounding operations of one float width, as functions on encodings. -/
structure FloatArith (width : Nat) where
  add : BitVec width → BitVec width → BitVec width
  subtract : BitVec width → BitVec width → BitVec width
  multiply : BitVec width → BitVec width → BitVec width
  divide : BitVec width → BitVec width → BitVec width
  remainder : BitVec width → BitVec width → BitVec width
  intrinsic : Intrinsic → List (BitVec width) → BitVec width
  /-- The nearest encoding of an integer. -/
  ofInt : Int → BitVec width

/-- The float arithmetic a program is evaluated with. -/
structure FloatOps where
  single : FloatArith 32
  double : FloatArith 64
  widen : BitVec 32 → BitVec 64
  narrow : BitVec 64 → BitVec 32

/-- Operand count of an intrinsic. -/
def intrinsicArity : Intrinsic → Nat
  | .sin | .cos | .tan | .tanh | .atan | .exp | .log | .sqrt | .abs | .floor
  | .ceil | .round | .trunc => 1
  | .atan2 | .pow | .min | .max => 2
  | .fma | .rangeClamp | .rangeWrap => 3

namespace FloatFormat

/-- The integer part of a finite encoding, rounded toward zero. -/
def truncate (format : FloatFormat) (bits : Nat) : Int :=
  let fraction := bits % 2 ^ format.mantissa
  let exponent := format.magnitude bits / 2 ^ format.mantissa
  let significand := if exponent = 0 then fraction else 2 ^ format.mantissa + fraction
  let bias := 2 ^ (format.exponent - 1) - 1 + format.mantissa
  let whole :=
    if bias ≤ max exponent 1 then significand * 2 ^ (max exponent 1 - bias)
    else significand / 2 ^ (bias - max exponent 1)
  if format.isNegative bits then -(whole : Int) else whole

/-- Conversion to a signed integer of `width` bits: saturating, `0` for NaN. -/
def toSigned (format : FloatFormat) (width : Nat) (bits : Nat) : BitVec width :=
  let lowest : Int := -(2 ^ (width - 1) : Nat)
  let highest : Int := (2 ^ (width - 1) : Nat) - 1
  if format.isNaN bits then 0
  else if !format.isFinite bits then
    BitVec.ofInt width (if format.isNegative bits then lowest else highest)
  else BitVec.ofInt width (min highest (max lowest (format.truncate bits)))

end FloatFormat

namespace ConstantEval

/-! ### Integers -/

def integerBinary {width : Nat} (op : BinaryOp) (lhs rhs : BitVec width) :
    Option (BitVec width) :=
  match op with
  | .add => some (lhs + rhs)
  | .subtract => some (lhs - rhs)
  | .multiply => some (lhs * rhs)
  | .divide => if rhs = 0 then none else some (lhs.sdiv rhs)
  | .remainder => if rhs = 0 then none else some (lhs.srem rhs)
  | .bitAnd => some (lhs &&& rhs)
  | .bitOr => some (lhs ||| rhs)
  | .bitXor => some (lhs ^^^ rhs)
  | .shiftLeft => some (lhs <<< (rhs.toNat % width))
  | .shiftRight => some (lhs.sshiftRight (rhs.toNat % width))

def signedMin {width : Nat} (lhs rhs : BitVec width) : BitVec width :=
  if lhs.slt rhs then lhs else rhs

def signedMax {width : Nat} (lhs rhs : BitVec width) : BitVec width :=
  if lhs.slt rhs then rhs else lhs

def integerIntrinsic {width : Nat} (op : Intrinsic) :
    List (BitVec width) → Option (BitVec width)
  | [x] => if op = .abs then some x.abs else none
  | [x, y] =>
    match op with
    | .min => some (signedMin x y)
    | .max => some (signedMax x y)
    | _ => none
  | [x, low, high] =>
    match op with
    | .rangeClamp => some (signedMin (signedMax x low) high)
    | .rangeWrap =>
      let lower := low.toInt
      let extent := high.toInt - lower + 1
      if extent ≤ 0 then none
      else some (BitVec.ofInt width (lower + (x.toInt - lower) % extent))
    | _ => none
  | _ => none

def integerCompare {width : Nat} (op : CompareOp) (lhs rhs : BitVec width) : Bool :=
  match op with
  | .equal => lhs == rhs
  | .notEqual => lhs != rhs
  | .less => lhs.slt rhs
  | .lessEqual => lhs.sle rhs
  | .greater => rhs.slt lhs
  | .greaterEqual => rhs.sle lhs

/-! ### Floats -/

def floatBinary {width : Nat} (arith : FloatArith width) (op : BinaryOp)
    (lhs rhs : BitVec width) : Option (BitVec width) :=
  match op with
  | .add => some (arith.add lhs rhs)
  | .subtract => some (arith.subtract lhs rhs)
  | .multiply => some (arith.multiply lhs rhs)
  | .divide => some (arith.divide lhs rhs)
  | .remainder => some (arith.remainder lhs rhs)
  | _ => none

def floatIntrinsic {width : Nat} (arith : FloatArith width) (op : Intrinsic)
    (args : List (BitVec width)) : Option (BitVec width) :=
  if op = .rangeWrap then none
  else if args.length = intrinsicArity op then some (arith.intrinsic op args)
  else none

/-- Flips the sign bit. -/
def floatNegate {width : Nat} (bits : BitVec width) : BitVec width :=
  bits ^^^ BitVec.twoPow width (width - 1)

def floatCompare (format : FloatFormat) (op : CompareOp) (lhs rhs : Nat) : Bool :=
  match op with
  | .equal => format.equal lhs rhs
  | .notEqual => !format.equal lhs rhs
  | .less => format.less lhs rhs
  | .lessEqual => format.less lhs rhs || format.equal lhs rhs
  | .greater => format.less rhs lhs
  | .greaterEqual => format.less rhs lhs || format.equal lhs rhs

/-! ### Scalars -/

def unary (op : UnaryOp) (value : ScalarValue) : Option ScalarValue :=
  match op, value with
  | .negate, .f32 value => some (.f32 (floatNegate value))
  | .negate, .f64 value => some (.f64 (floatNegate value))
  | .negate, .i32 value => some (.i32 (-value))
  | .negate, .i64 value => some (.i64 (-value))
  | .logicalNot, .bool value => some (.bool !value)
  | .bitNot, .i32 value => some (.i32 (~~~value))
  | .bitNot, .i64 value => some (.i64 (~~~value))
  | _, _ => none

def binary (floats : FloatOps) (op : BinaryOp) (lhs rhs : ScalarValue) :
    Option ScalarValue :=
  match lhs, rhs with
  | .i32 lhs, .i32 rhs => (integerBinary op lhs rhs).map .i32
  | .i64 lhs, .i64 rhs => (integerBinary op lhs rhs).map .i64
  | .f32 lhs, .f32 rhs => (floatBinary floats.single op lhs rhs).map .f32
  | .f64 lhs, .f64 rhs => (floatBinary floats.double op lhs rhs).map .f64
  | _, _ => none

def compare (op : CompareOp) (lhs rhs : ScalarValue) : Option Bool :=
  match lhs, rhs with
  | .f32 lhs, .f32 rhs => some (floatCompare binary32 op lhs.toNat rhs.toNat)
  | .f64 lhs, .f64 rhs => some (floatCompare binary64 op lhs.toNat rhs.toNat)
  | .i32 lhs, .i32 rhs => some (integerCompare op lhs rhs)
  | .i64 lhs, .i64 rhs => some (integerCompare op lhs rhs)
  | .bool lhs, .bool rhs =>
    match op with
    | .equal => some (lhs == rhs)
    | .notEqual => some (lhs != rhs)
    | _ => none
  | _, _ => none

/-- Numeric casts; a conversion from or to `bool` is not a cast. -/
def cast (floats : FloatOps) (value : ScalarValue) (target : ScalarType) :
    Option ScalarValue :=
  match value, target with
  | _, .bool => none
  | .bool _, _ => none
  | .f32 bits, .f32 => some (.f32 bits)
  | .f32 bits, .f64 => some (.f64 (floats.widen bits))
  | .f32 bits, .i32 => some (.i32 (binary32.toSigned 32 bits.toNat))
  | .f32 bits, .i64 => some (.i64 (binary32.toSigned 64 bits.toNat))
  | .f64 bits, .f32 => some (.f32 (floats.narrow bits))
  | .f64 bits, .f64 => some (.f64 bits)
  | .f64 bits, .i32 => some (.i32 (binary64.toSigned 32 bits.toNat))
  | .f64 bits, .i64 => some (.i64 (binary64.toSigned 64 bits.toNat))
  | .i32 value, .f32 => some (.f32 (floats.single.ofInt value.toInt))
  | .i32 value, .f64 => some (.f64 (floats.double.ofInt value.toInt))
  | .i32 value, .i32 => some (.i32 value)
  | .i32 value, .i64 => some (.i64 (value.signExtend 64))
  | .i64 value, .f32 => some (.f32 (floats.single.ofInt value.toInt))
  | .i64 value, .f64 => some (.f64 (floats.double.ofInt value.toInt))
  | .i64 value, .i32 => some (.i32 (value.truncate 32))
  | .i64 value, .i64 => some (.i64 value)

/-- An intrinsic on operands of one type. -/
def intrinsic (floats : FloatOps) (op : Intrinsic) (args : List ScalarValue) :
    Option ScalarValue :=
  match args with
  | .f32 _ :: _ => do
    let bits ← args.mapM fun | .f32 bits => some bits | _ => none
    return .f32 (← floatIntrinsic floats.single op bits)
  | .f64 _ :: _ => do
    let bits ← args.mapM fun | .f64 bits => some bits | _ => none
    return .f64 (← floatIntrinsic floats.double op bits)
  | .i32 _ :: _ => do
    let values ← args.mapM fun | .i32 value => some value | _ => none
    return .i32 (← integerIntrinsic op values)
  | .i64 _ :: _ => do
    let values ← args.mapM fun | .i64 value => some value | _ => none
    return .i64 (← integerIntrinsic op values)
  | _ => none

end ConstantEval

end Onda.Mir
