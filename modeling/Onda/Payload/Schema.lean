import Onda.Lib.Wire

/-!
# Payload schemas

The message schemas of the processor ABI and the shapes the planner finds in
them.  A call ends with a value, with a `PayloadError` its caller handles, or
with a panic.

### Types
-/

namespace Onda.Payload

abbrev Bytes := List UInt8

inductive PayloadError where
  | invalidSchema
  | invalidValue
  | invalidRange
  | overflow
  | negativeLength
  | truncated
  | trailingBytes
  | insufficientCapacity
  | misalignedWorkspace
  | invalidLengths
deriving DecidableEq

inductive Failure where
  | rejected (error : PayloadError)
  | panicked
deriving DecidableEq

/-- A call of the payload code. -/
abbrev Checked (α : Type) := Except Failure α

def reject {α : Type} (error : PayloadError) : Checked α := .error (.rejected error)

/-- `ok_or(error)`. -/
def okOr {α : Type} (error : PayloadError) : Option α → Checked α
  | some value => .ok value
  | none => reject error

/-- An access whose failure is a panic. -/
def expect {α : Type} : Option α → Checked α
  | some value => .ok value
  | none => .error .panicked

/-- Passes when the source's test for a refusal is false. -/
def refuseIf (refused : Prop) [Decidable refused] (error : PayloadError) : Checked Unit :=
  if refused then reject error else .ok ()

inductive ScalarEncoding where
  | f32
  | f64
  | i32
  | i64
  | bool
deriving DecidableEq

namespace ScalarEncoding

def byteSize : ScalarEncoding → Nat
  | .bool => 1
  | .f32 | .i32 => 4
  | .f64 | .i64 => 8

theorem byteSize_pos (encoding : ScalarEncoding) : 0 < encoding.byteSize := by
  cases encoding <;> decide

end ScalarEncoding

structure IntegerRangeEndpoint where
  scalar : String
  value : String
deriving DecidableEq

structure IntegerRangeMetadata where
  min : IntegerRangeEndpoint
  max : IntegerRangeEndpoint
  mode : String
deriving DecidableEq

inductive PayloadDefault where
  | scalar (text : String)
  | aggregate (values : List PayloadDefault)

mutual

inductive PayloadType where
  | scalar (encoding : ScalarEncoding) (integerRange : Option IntegerRangeMetadata)
  | tuple (elements : List PayloadType)
  | struct (name : String) (fields : List PayloadField)
  | array (element : PayloadType) (len : Nat)
  | slice (element : PayloadType)

inductive PayloadField where
  | mk (name : String) (ty : PayloadType) (default : Option PayloadDefault)

end

namespace PayloadField

def name : PayloadField → String
  | mk name _ _ => name

def ty : PayloadField → PayloadType
  | mk _ ty _ => ty

def default : PayloadField → Option PayloadDefault
  | mk _ _ default => default

end PayloadField

structure PayloadSchema where
  params : List PayloadField

/-! ### Checked extents -/

/-- `i32::MAX as usize`. -/
def i32Max : Nat := 2 ^ 31 - 1

def checkedAdd (a b : Nat) : Checked Nat :=
  if a + b ≤ i32Max then .ok (a + b) else reject .overflow

def checkedMul (a b : Nat) : Checked Nat :=
  if a * b ≤ i32Max then .ok (a * b) else reject .overflow

/-- `aligned`: the alignments are powers of two, so masking the low bits rounds down. -/
def aligned (offset alignment : Nat) : Checked Nat := do
  let padded ← checkedAdd offset (alignment - 1)
  .ok (padded / alignment * alignment)

/-! ### Host values -/

/-- `PayloadSource`: how the code reads values that belong to the host. -/
structure PayloadSource (V : Type) where
  sequenceLen : V → Option Nat
  structLen : V → Option Nat
  member : V → Nat → Option String → Option V
  writeScalar : V → ScalarEncoding → Checked Bytes

/-- `leaf_count` of `visit_values`. -/
def leafCount : PayloadType → Nat
  | .scalar _ _ => 1
  | .tuple elements => elements.length
  | .struct _ fields => fieldsLeafCount fields
  | .array element _ => leafCount element
  | .slice element => leafCount element
where
  fieldsLeafCount : List PayloadField → Nat
    | [] => 0
    | .mk _ ty _ :: fields => leafCount ty + fieldsLeafCount fields

section Visit

variable {V σ : Type} (source : PayloadSource V)
  (visit : Nat → ScalarEncoding → V → σ → Checked σ)

mutual

/-- `walk` of `visit_values`.  An array visits the leaves of its element once for each
element. -/
def visitValues : PayloadType → V → Nat → σ → Checked (Nat × σ)
  | .scalar encoding _, value, start, state => do
    let state ← visit start encoding value state
    .ok (start + 1, state)
  | .struct _ fields, value, start, state => do
    refuseIf (source.structLen value ≠ some fields.length) .invalidValue
    visitFields fields value 0 start state
  | .tuple elements, value, start, state => do
    refuseIf (source.sequenceLen value ≠ some elements.length) .invalidValue
    visitElements elements value 0 start state
  | .array element expected, value, start, state => do
    let len ← okOr .invalidValue (source.sequenceLen value)
    refuseIf (len ≠ expected) .invalidValue
    (List.range len).foldlM (fun (step : Nat × σ) index => do
      let member ← okOr .invalidValue (source.member value index none)
      visitValues element member start step.2) (start + leafCount element, state)
  | .slice element, value, start, state => do
    let len ← okOr .invalidValue (source.sequenceLen value)
    (List.range len).foldlM (fun (step : Nat × σ) index => do
      let member ← okOr .invalidValue (source.member value index none)
      visitValues element member start step.2) (start + leafCount element, state)

def visitFields : List PayloadField → V → Nat → Nat → σ → Checked (Nat × σ)
  | [], _, _, next, state => .ok (next, state)
  | .mk name ty _ :: fields, value, index, next, state => do
    let member ← okOr .invalidValue (source.member value index (some name))
    let step ← visitValues ty member next state
    visitFields fields value (index + 1) step.1 step.2

def visitElements : List PayloadType → V → Nat → Nat → σ → Checked (Nat × σ)
  | [], _, _, next, state => .ok (next, state)
  | ty :: elements, value, index, next, state => do
    let member ← okOr .invalidValue (source.member value index none)
    let step ← visitValues ty member next state
    visitElements elements value (index + 1) step.1 step.2

end

end Visit

/-! ### Defaults -/

/-- `str::parse` for a signed integer of `bits` bits. -/
def parseInteger (bits : Nat) (text : String) : Option Int :=
  let digits (negative : Bool) (chars : List Char) : Option Int :=
    if chars ≠ [] ∧ chars.all Char.isDigit then
      let magnitude : Int :=
        chars.foldl (fun value char => 10 * value + (char.toNat - '0'.toNat)) 0
      let value := if negative then -magnitude else magnitude
      if -2 ^ (bits - 1) ≤ value ∧ value < 2 ^ (bits - 1) then some value else none
    else none
  match text.toList with
  | '+' :: chars => digits false chars
  | '-' :: chars => digits true chars
  | chars => digits false chars

/-- `str::parse` for the floating-point types, as bit patterns. -/
structure FloatText where
  f32 : String → Option (BitVec 32)
  f64 : String → Option (BitVec 64)

namespace PayloadDefault

def sequenceLen : PayloadDefault → Option Nat
  | aggregate values => some values.length
  | scalar _ => none

def member : PayloadDefault → Nat → Option String → Option PayloadDefault
  | aggregate values, index, _ => values[index]?
  | scalar _, _, _ => none

def writeScalar (floats : FloatText) : PayloadDefault → ScalarEncoding → Checked Bytes
  | aggregate _, _ => reject .invalidValue
  | scalar text, .bool =>
    if text = "true" then .ok [1] else if text = "false" then .ok [0] else reject .invalidValue
  | scalar text, .i32 => do
    let value ← okOr .invalidValue (parseInteger 32 text)
    .ok (Wire.wordBytes 4 (BitVec.ofInt 32 value))
  | scalar text, .i64 => do
    let value ← okOr .invalidValue (parseInteger 64 text)
    .ok (Wire.wordBytes 8 (BitVec.ofInt 64 value))
  | scalar text, .f32 => do
    let value ← okOr .invalidValue (floats.f32 text)
    .ok (Wire.wordBytes 4 value)
  | scalar text, .f64 => do
    let value ← okOr .invalidValue (floats.f64 text)
    .ok (Wire.wordBytes 8 value)

/-- `impl PayloadSource for PayloadDefault`. -/
def source (floats : FloatText) : PayloadSource PayloadDefault where
  sequenceLen := sequenceLen
  structLen := sequenceLen
  member := member
  writeScalar := writeScalar floats

end PayloadDefault

/-! ### Walking over a schema

The source keeps the types still to be visited on a stack.  A visit puts at most the
children of a type on it, so the number of nodes bounds the visits. -/

mutual

/-- The nodes of a type. -/
def PayloadType.nodes : PayloadType → Nat
  | .scalar _ _ => 1
  | .tuple elements => 1 + elementsNodes elements
  | .struct _ fields => 1 + fieldsNodes fields
  | .array element _ => 1 + element.nodes
  | .slice element => 1 + element.nodes

def elementsNodes : List PayloadType → Nat
  | [] => 0
  | element :: elements => element.nodes + elementsNodes elements

def fieldsNodes : List PayloadField → Nat
  | [] => 0
  | .mk _ ty _ :: fields => ty.nodes + fieldsNodes fields

end

/-- `unique_fields`. -/
def uniqueFields (fields : List PayloadField) : Checked Unit :=
  refuseIf (fields.any (fun field => field.name = "") ∨ ¬(fields.map PayloadField.name).Nodup)
    .invalidSchema

/-- `array_element`. -/
def arrayElement : PayloadType → Bool
  | .scalar _ _ | .struct _ _ => true
  | _ => false

def PayloadType.isScalar : PayloadType → Bool
  | .scalar _ _ => true
  | _ => false

/-- `child_path`. -/
def childPath (parent child : String) : String :=
  if parent = "" then child else parent ++ "." ++ child

structure PayloadLeaf where
  path : String
  encoding : ScalarEncoding
  shape : List Nat
  integerRange : Option IntegerRangeMetadata

/-- A type that `leaves` still has to visit, the path that leads to it and the extents
around it. -/
structure PendingShape where
  ty : PayloadType
  path : String
  shape : List Nat

/-- The loop of `PayloadType::leaves`.  The top of the stack is the head of `pending`. -/
def leavesLoop : Nat → List PendingShape → List PayloadLeaf → Checked (List PayloadLeaf)
  | _, [], leaves => .ok leaves
  | 0, _ :: _, _ => .error .panicked
  | fuel + 1, ⟨.scalar encoding integerRange, path, shape⟩ :: pending, leaves =>
    leavesLoop fuel pending (leaves ++ [⟨path, encoding, shape, integerRange⟩])
  | fuel + 1, ⟨.tuple elements, path, shape⟩ :: pending, leaves => do
    refuseIf (elements = [] ∨ elements.any (fun ty => !ty.isScalar)) .invalidSchema
    leavesLoop fuel (elements.zipIdx.map (fun (element, index) =>
      ⟨element, childPath path ("__" ++ toString index), shape⟩) ++ pending) leaves
  | fuel + 1, ⟨.struct name fields, path, shape⟩ :: pending, leaves => do
    refuseIf (name = "" ∨ fields = []) .invalidSchema
    uniqueFields fields
    leavesLoop fuel (fields.map (fun field =>
      ⟨field.ty, childPath path field.name, shape⟩) ++ pending) leaves
  | fuel + 1, ⟨.array element len, path, shape⟩ :: pending, leaves => do
    refuseIf (len = 0 ∨ ¬arrayElement element) .invalidSchema
    leavesLoop fuel (⟨element, path, shape ++ [len]⟩ :: pending) leaves
  | _ + 1, ⟨.slice _, _, _⟩ :: _, _ => reject .invalidSchema

/-- `PayloadType::leaves`. -/
def PayloadType.leaves (ty : PayloadType) : Checked (List PayloadLeaf) :=
  leavesLoop ty.nodes [⟨ty, "", []⟩] []

/-- The names that `validate_defaults_and_extents` accepts. -/
def plainNames (fields : List PayloadField) : Checked Unit :=
  refuseIf (fields.any fun field =>
    field.name.toList.any fun char => char = '.' || char = '[' || char = ']') .invalidSchema

structure PendingDefault where
  ty : PayloadType
  default : Option PayloadDefault
  outer : Nat

/-- The loop of `validate_defaults_and_extents`. -/
def validateLoop (floats : FloatText) : Nat → List PendingDefault → Checked Unit
  | _, [] => .ok ()
  | 0, _ :: _ => .error .panicked
  | fuel + 1, ⟨ty, default, outer⟩ :: pending => do
    checkDefault ty default
    match ty with
    | .array element len => do
      let extent ← checkedMul outer len
      validateLoop floats fuel (⟨element, none, extent⟩ :: pending)
    | .slice element => validateLoop floats fuel (⟨element, none, outer⟩ :: pending)
    | .struct _ fields => do
      plainNames fields
      validateLoop floats fuel ((fields.map fun field =>
        ⟨field.ty, field.default, outer⟩).reverse ++ pending)
    | .tuple elements =>
      validateLoop floats fuel ((elements.map fun element =>
        ⟨element, none, outer⟩).reverse ++ pending)
    | .scalar _ _ => validateLoop floats fuel pending
where
  /-- A default is written once, into a scratch buffer. -/
  checkDefault (ty : PayloadType) : Option PayloadDefault → Checked Unit
    | none => .ok ()
    | some default =>
      match ty with
      | .slice _ => reject .invalidValue
      | ty => do
        let _ ← visitValues (PayloadDefault.source floats) (fun _ encoding value _ => do
          let _ ← (PayloadDefault.source floats).writeScalar value encoding
          .ok ()) ty default 0 ()
        .ok ()

/-- `validate_defaults_and_extents`. -/
def validateDefaultsAndExtents (floats : FloatText) (fields : List PayloadField) :
    Checked Unit := do
  plainNames fields
  validateLoop floats (fieldsNodes fields)
    (fields.map fun field => ⟨field.ty, field.default, 1⟩).reverse

end Onda.Payload
