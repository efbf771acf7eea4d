import Onda.Project.Paths

/-!
# Project constants

The values a project binds to the constants of its entry source.
-/

namespace Onda.Project

/-- `serde_json::Number`.  Negative integers are negative and floats are finite,
so that no number has two forms. -/
inductive JsonNumber where
  | posInt (value : UInt64)
  | negInt (value : Int) (range : -2 ^ 63 ≤ value ∧ value < 0)
  | float (bits : UInt64) (finite : (bits >>> 52) &&& 0x7FF ≠ 0x7FF)
deriving DecidableEq

/-- `ProjectConstValue`. -/
inductive ProjectConstValue where
  | bool (value : Bool)
  | number (value : JsonNumber)
  | i64 (value : Text)
  | array (values : List ProjectConstValue)

/-- The digits of `str::parse::<i64>`: at least one, and nothing else. -/
def parseDigits (digits : Bytes) : Option Nat :=
  if digits ≠ [] ∧ digits.all isAsciiDigit then some (digitsValue digits) else none

/-- `value.parse::<i64>()`: an optional sign and digits, within range. -/
def parseI64 (value : Bytes) : Option Int := do
  let magnitude ← match value with
    | 43 :: digits => (parseDigits digits).map fun digits => (digits : Int)
    | 45 :: digits => (parseDigits digits).map fun digits => -(digits : Int)
    | digits => (parseDigits digits).map fun digits => (digits : Int)
  if -2 ^ 63 ≤ magnitude ∧ magnitude < 2 ^ 63 then some magnitude else none

namespace ProjectConstValue

/-- `matches!(value, Self::Array(_))`. -/
def isArray : ProjectConstValue → Bool
  | array _ => true
  | _ => false

mutual

/-- `ProjectConstValue::validate`. -/
def validate : ProjectConstValue → Checked Unit
  | i64 value =>
    match parseI64 value.bytes with
    | some _ => .ok ()
    | none => reject (ascii "project i64 constant value '" ++ value.bytes ++
        ascii "' is outside the signed 64-bit range")
  | array values => do
    refuseIf (values.any isArray)
      (ascii "project constant arrays must contain primitive scalar values")
    validateAll values
  | bool _ | number _ => .ok ()

/-- `values.iter().try_for_each(Self::validate)`. -/
def validateAll : List ProjectConstValue → Checked Unit
  | [] => .ok ()
  | value :: values => do
    validate value
    validateAll values

end

end ProjectConstValue

/-- `validate_project_constant_name`. -/
def validateProjectConstantName (name : Text) (limits : ProjectLimits) : Checked Unit := do
  refuseIf (name.bytes = []) (ascii "project constant names must not be empty")
  refuseIf (name.bytes.length > limits.maxPathComponentBytes)
    (ascii "project constant name exceeds the " ++ decimal limits.maxPathComponentBytes ++
      ascii " byte limit")
  refuseIf (name.bytes.contains 0) (ascii "project constant names must not contain NUL")

/-- The loop of `validate_project_constants`. -/
def validateConstantEntries (limits : ProjectLimits) :
    List (Text × ProjectConstValue) → Checked Unit
  | [] => .ok ()
  | (name, value) :: entries => do
    validateProjectConstantName name limits
    value.validate
    validateConstantEntries limits entries

/-- `validate_project_constants`. -/
def validateProjectConstants (constants : OrderedMap Text ProjectConstValue)
    (limits : ProjectLimits) : Checked Unit := do
  refuseIf (constants.entries.length > limits.maxConstantBindings)
    (ascii "project contains " ++ decimal constants.entries.length ++
      ascii " constant bindings, exceeding the " ++ decimal limits.maxConstantBindings ++
      ascii " binding limit")
  validateConstantEntries limits constants.entries

end Onda.Project
