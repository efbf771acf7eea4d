import Onda.Payload.Schema

/-!
# Payload plans

`PayloadPlan::new` and the walk over the regions of a payload that every
operation of a plan repeats.

### Plans
-/

namespace Onda.Payload

structure IntegerDomain where
  min : Int
  max : Int
  wrap : Bool
deriving DecidableEq

/-- A half-open range of positions. -/
structure Span where
  start : Nat
  stop : Nat
deriving DecidableEq

structure PayloadTensor where
  path : String
  parameter : Nat
  lengthPrefix : Bool
  encoding : ScalarEncoding
  shape : List Nat
  elements : Nat
  domain : Option IntegerDomain

structure ParameterPlan where
  dynamic : Bool
  lengthParameter : Option Nat
  tensors : Span

structure PayloadPlan where
  schema : PayloadSchema
  params : List ParameterPlan
  tensors : List PayloadTensor

structure TensorRegion where
  tensor : Nat
  logicalLen : Nat
  elements : Nat
  wire : Span
  workspace : Span

inductive Region where
  | length (wire workspace : Span)
  | tensor (region : TensorRegion)

/-! ### The walk -/

section Walk

variable {σ : Type} (tensors : List PayloadTensor)
  (length : Nat → Nat → σ → Checked (Nat × σ)) (visit : Region → σ → Checked σ)

/-- Where a walk has got to: the two offsets and what its closures keep. -/
structure Walked (σ : Type) where
  wire : Nat
  workspace : Nat
  state : σ

/-- The inner loop of `walk`. -/
def walkTensors (len : Nat) : List Nat → Walked σ → Checked (Walked σ)
  | [], at' => .ok at'
  | index :: indices, at' => do
    let leaf ← expect tensors[index]?
    let elements ← checkedMul leaf.elements len
    let bytes ← checkedMul elements leaf.encoding.byteSize
    let prepared ← aligned at'.workspace leaf.encoding.byteSize
    let wireStop ← checkedAdd at'.wire bytes
    let workspaceStop ← checkedAdd prepared bytes
    let state ← visit (.tensor ⟨index, len, elements, ⟨at'.wire, wireStop⟩,
      ⟨prepared, workspaceStop⟩⟩) at'.state
    walkTensors len indices ⟨wireStop, workspaceStop, state⟩

/-- The region of a length. -/
def walkLength (at' : Walked σ) : Checked (Nat × Walked σ) := do
  let prepared ← aligned at'.workspace 4
  let found ← length at'.wire prepared at'.state
  let wireStop ← checkedAdd at'.wire 4
  let workspaceStop ← checkedAdd prepared 4
  let state ← visit (.length ⟨at'.wire, wireStop⟩ ⟨prepared, workspaceStop⟩) found.2
  .ok (found.1, ⟨wireStop, workspaceStop, state⟩)

/-- A dynamic parameter begins with its length; a fixed one counts once. -/
def walkHead (param : ParameterPlan) (at' : Walked σ) : Checked (Nat × Walked σ) :=
  if param.dynamic then walkLength length visit at' else .ok (1, at')

/-- The outer loop of `walk`. -/
def walkParams : List ParameterPlan → Walked σ → Checked (Walked σ)
  | [], at' => .ok at'
  | param :: params, at' => do
    let begun ← walkHead length visit param at'
    let at' ← walkTensors tensors visit begun.1
      (List.range' param.tensors.start (param.tensors.stop - param.tensors.start)) begun.2
    walkParams params at'

/-- `PayloadPlan::walk`. -/
def PayloadPlan.walk (plan : PayloadPlan) (state : σ) : Checked (Walked σ) :=
  walkParams plan.tensors length visit plan.params ⟨0, 0, state⟩

end Walk

/-- `i32::from_le_bytes`. -/
def i32OfWire (bytes : Bytes) : Int := (Wire.bytesWord 4 bytes).toInt

/-- `bytes.get(start..stop)`. -/
def getRange (bytes : Bytes) (start stop : Nat) : Option Bytes :=
  if start ≤ stop ∧ stop ≤ bytes.length then some ((bytes.drop start).take (stop - start))
  else none

/-- `usize::try_from` on an `i32`. -/
def usizeOfI32 (value : Int) : Checked Nat :=
  if 0 ≤ value then .ok value.toNat else reject .negativeLength

/-- `read_length`. -/
def readLength (bytes : Bytes) (offset : Nat) : Checked Nat := do
  let stop ← checkedAdd offset 4
  let field ← okOr .truncated (getRange bytes offset stop)
  usizeOfI32 (i32OfWire field)

namespace PayloadPlan

def dynamicParameters (plan : PayloadPlan) : Nat :=
  (plan.params.filter ParameterPlan.dynamic).length

/-- The length closure of `sizes`. -/
def nextLength : List Int → Checked (Nat × List Int)
  | [] => reject .invalidLengths
  | len :: lengths => do
    let len ← usizeOfI32 len
    .ok (len, lengths)

/-- `PayloadPlan::sizes`: the wire and the workspace size at these lengths. -/
def sizes (plan : PayloadPlan) (lengths : List Int) : Checked (Nat × Nat) := do
  let ends ← plan.walk (fun _ _ => nextLength) (fun _ lengths => .ok lengths) lengths
  refuseIf (ends.state ≠ []) .invalidLengths
  .ok (ends.wire, ends.workspace)

/-- `PayloadPlan::required_workspace`. -/
def requiredWorkspace (plan : PayloadPlan) (input : Bytes) : Checked Nat := do
  let ends ← plan.walk (fun offset _ (_ : Unit) => do
    let len ← readLength input offset
    .ok (len, ())) (fun _ _ => .ok ()) ()
  refuseIf (ends.wire > input.length) .truncated
  refuseIf (ends.wire < input.length) .trailingBytes
  .ok ends.workspace

end PayloadPlan

/-! ### Planning -/

/-- The name and the limits of an integer type. -/
def integerLimits : ScalarEncoding → Checked (String × Int × Int)
  | .i32 => .ok ("i32", -2 ^ 31, 2 ^ 31 - 1)
  | .i64 => .ok ("i64", -2 ^ 63, 2 ^ 63 - 1)
  | _ => reject .invalidRange

/-- Whether a range mode wraps. -/
def rangeWraps (mode : String) : Checked Bool :=
  if mode = "clamp" then .ok false
  else if mode = "wrap" then .ok true
  else reject .invalidRange

/-- `prepare_domain`. -/
def prepareDomain (encoding : ScalarEncoding) (range : IntegerRangeMetadata) :
    Checked IntegerDomain := do
  let limits ← integerLimits encoding
  let min ← okOr .invalidRange (parseInteger 64 range.min.value)
  let max ← okOr .invalidRange (parseInteger 64 range.max.value)
  refuseIf (range.min.scalar ≠ limits.1 ∨ range.max.scalar ≠ limits.1 ∨ min < limits.2.1 ∨
    max > limits.2.2 ∨ min > max) .invalidRange
  let wrap ← rangeWraps range.mode
  .ok ⟨min, max, wrap⟩

/-- The domain of a leaf that has a range. -/
def leafDomain (leaf : PayloadLeaf) : Checked (Option IntegerDomain) :=
  match leaf.integerRange with
  | none => .ok none
  | some range => do
    let domain ← prepareDomain leaf.encoding range
    .ok (some domain)

/-- The tensor of a leaf. -/
def planTensor (name : String) (parameter : Nat) (lengthPrefix : Bool) (leaf : PayloadLeaf) :
    Checked PayloadTensor := do
  let elements ← leaf.shape.foldlM checkedMul 1
  let domain ← leafDomain leaf
  .ok {
    path := if leaf.path = "" then name else name ++ "." ++ leaf.path
    parameter
    lengthPrefix
    encoding := leaf.encoding
    shape := leaf.shape
    elements
    domain }

/-- The tensors of one parameter; each is an executable parameter of its own. -/
def planTensors (name : String) (lengthPrefix : Bool) :
    List PayloadLeaf → Nat → Checked (List PayloadTensor)
  | [], _ => .ok []
  | leaf :: leaves, parameter => do
    let tensor ← planTensor name parameter lengthPrefix leaf
    let tensors ← planTensors name lengthPrefix leaves (parameter + 1)
    .ok (tensor :: tensors)

/-- The type whose leaves a parameter carries, and whether it carries a run of them. -/
def PayloadType.carried : PayloadType → PayloadType × Bool
  | .slice element => (element, true)
  | ty => (ty, false)

def PayloadType.isStruct : PayloadType → Bool
  | .struct _ _ => true
  | _ => false

/-- What `PayloadPlan::new` has planned so far. -/
structure Planning where
  params : List ParameterPlan
  tensors : List PayloadTensor
  abiParameter : Nat

/-- One round of the loop of `PayloadPlan::new`. -/
def planField (planned : Planning) (field : PayloadField) : Checked Planning := do
  let start := planned.tensors.length
  let ty := field.ty.carried.1
  let dynamic := field.ty.carried.2
  refuseIf (dynamic ∧ ¬arrayElement ty) .invalidSchema
  let shared := dynamic && ty.isStruct
  let lengthParameter := if shared then some planned.abiParameter else none
  let first := if shared then planned.abiParameter + 1 else planned.abiParameter
  let leaves ← ty.leaves
  refuseIf (leaves = []) .invalidSchema
  let tensors ← planTensors field.name (dynamic && !shared) leaves first
  .ok {
    params := planned.params ++
      [⟨dynamic, lengthParameter, ⟨start, start + tensors.length⟩⟩]
    tensors := planned.tensors ++ tensors
    abiParameter := first + tensors.length }

/-- `PayloadPlan::new`. -/
def PayloadPlan.new (floats : FloatText) (schema : PayloadSchema) : Checked PayloadPlan := do
  uniqueFields schema.params
  validateDefaultsAndExtents floats schema.params
  let planned ← schema.params.foldlM planField ⟨[], [], 0⟩
  let plan : PayloadPlan := ⟨schema, planned.params, planned.tensors⟩
  -- The sizes at length zero reject fixed shapes that overflow.
  let _ ← plan.sizes (List.replicate plan.dynamicParameters 0)
  .ok plan

end Onda.Payload
