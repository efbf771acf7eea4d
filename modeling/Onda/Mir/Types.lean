import Mathlib

/-!
# MIR types and scalar values

The type table of a program is a list of `MirType`s that refer to one another
by `TypeId`, so a type is a position in the table and recursion over types is
recursion over paths or over explicit fuel.

Scalars are bit patterns.  Integers are two's-complement `BitVec`s, floats are
the raw IEEE encodings: comparisons are decided on the encoding here, and the
rounding operations are a parameter of the evaluator
(`Onda.Mir.ConstantEval`), so no result below depends on how a float is
rounded.
-/

namespace Onda.Mir

/-! ### Identifiers

Every identifier is an index into one of the program's tables. -/

abbrev TypeId := Nat
abbrev StructId := Nat
abbrev FieldId := Nat
abbrev FunctionId := Nat
abbrev ParameterId := Nat
abbrev LocalId := Nat
abbrev StateId := Nat
abbrev InputId := Nat
abbrev OutputId := Nat
abbrev ControlOutputId := Nat
abbrev ParamId := Nat
abbrev BufferId := Nat
abbrev EventId := Nat
abbrev EventParamId := Nat
abbrev DelegateId := Nat
abbrev LogSiteId := Nat
abbrev ConstDataId := Nat

/-! ### Scalar types -/

inductive ScalarType where
  | f32 | f64 | i32 | i64 | bool
deriving DecidableEq, Repr

namespace ScalarType

def name : ScalarType → String
  | .f32 => "f32"
  | .f64 => "f64"
  | .i32 => "i32"
  | .i64 => "i64"
  | .bool => "bool"

def isNumeric : ScalarType → Bool
  | .bool => false
  | _ => true

def isInteger : ScalarType → Bool
  | .i32 | .i64 => true
  | _ => false

/-- Logical storage width used by fixed MIR aggregates. -/
def logicalByteWidth : ScalarType → Nat
  | .f32 | .i32 => 4
  | .f64 | .i64 => 8
  | .bool => 1

end ScalarType

inductive AccessMode where
  | readOnly | readWrite
deriving DecidableEq, Repr

inductive BufferChannels where
  | mono
  | static (channels : Nat)
  | dynamic
deriving DecidableEq, Repr

/-- A logical MIR type; aggregates refer to their parts by table index. -/
inductive MirType where
  | scalar (scalar : ScalarType)
  | tuple (elements : List TypeId)
  | array (element : TypeId) (len : Nat)
  | struct (definition : StructId)
  | slice (element : ScalarType) (access : AccessMode)
  | buffer (element : ScalarType) (channels : BufferChannels) (access : AccessMode)
  | bufferSpan (element : ScalarType) (channels : BufferChannels)
      (access : AccessMode) (len : Nat)
deriving DecidableEq, Repr

/-! ### Scalar values -/

/-- A scalar constant, floats as raw encodings. -/
inductive ScalarValue where
  | f32 (bits : BitVec 32)
  | f64 (bits : BitVec 64)
  | i32 (value : BitVec 32)
  | i64 (value : BitVec 64)
  | bool (value : Bool)
deriving DecidableEq, Repr

namespace ScalarValue

def ty : ScalarValue → ScalarType
  | .f32 _ => .f32
  | .f64 _ => .f64
  | .i32 _ => .i32
  | .i64 _ => .i64
  | .bool _ => .bool

/-- The mathematical value of an integer scalar. -/
def toInt? : ScalarValue → Option Int
  | .i32 value => some value.toInt
  | .i64 value => some value.toInt
  | _ => none

/-- The all-zero encoding of a scalar type: what unbound and unwritten host
storage reads as. -/
def zero : ScalarType → ScalarValue
  | .f32 => .f32 0
  | .f64 => .f64 0
  | .i32 => .i32 0
  | .i64 => .i64 0
  | .bool => .bool false

@[simp] theorem ty_zero (scalar : ScalarType) : (zero scalar).ty = scalar := by
  cases scalar <;> rfl

end ScalarValue

/-! ### Float encodings

An IEEE encoding with `exponent` exponent bits and `mantissa` fraction bits is
ordered by sign and magnitude, except for the NaNs, which are unordered. -/

structure FloatFormat where
  exponent : Nat
  mantissa : Nat

def binary32 : FloatFormat := ⟨8, 23⟩
def binary64 : FloatFormat := ⟨11, 52⟩

namespace FloatFormat

/-- Exponent and fraction bits, without the sign. -/
def magnitude (format : FloatFormat) (bits : Nat) : Nat :=
  bits % 2 ^ (format.exponent + format.mantissa)

def isNegative (format : FloatFormat) (bits : Nat) : Bool :=
  bits / 2 ^ (format.exponent + format.mantissa) % 2 == 1

/-- The magnitude of an infinity: all exponent bits set, no fraction bits. -/
def infinity (format : FloatFormat) : Nat :=
  (2 ^ format.exponent - 1) * 2 ^ format.mantissa

def isNaN (format : FloatFormat) (bits : Nat) : Bool :=
  format.infinity < format.magnitude bits

def isFinite (format : FloatFormat) (bits : Nat) : Bool :=
  format.magnitude bits < format.infinity

/-- Position of an encoding on the extended line; both zeros are `0`. -/
def rank (format : FloatFormat) (bits : Nat) : Int :=
  if format.isNegative bits then -(format.magnitude bits : Int)
  else format.magnitude bits

def ordered (format : FloatFormat) (lhs rhs : Nat) : Bool :=
  !format.isNaN lhs && !format.isNaN rhs

def less (format : FloatFormat) (lhs rhs : Nat) : Bool :=
  format.ordered lhs rhs && decide (format.rank lhs < format.rank rhs)

def equal (format : FloatFormat) (lhs rhs : Nat) : Bool :=
  format.ordered lhs rhs && decide (format.rank lhs = format.rank rhs)

end FloatFormat

/-! ### Constants and ranges -/

/-- A default or initial value of an interface item. -/
inductive ConstantValue where
  | scalar (value : ScalarValue)
  | aggregate (elements : List ConstantValue)

/-- Inclusive range metadata of a numeric interface value. -/
structure ValueRange where
  min : ScalarValue
  max : ScalarValue
deriving DecidableEq, Repr

inductive IntegerRangeMode where
  | clamp | wrap
deriving DecidableEq, Repr

/-- A producer's promise about every value written to an integer storage. -/
structure IntegerRangeInvariant where
  min : ScalarValue
  max : ScalarValue
  mode : IntegerRangeMode
deriving DecidableEq, Repr

end Onda.Mir
