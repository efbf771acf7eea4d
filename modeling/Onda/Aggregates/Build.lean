import Mathlib.Data.List.Lex
import Mathlib.Data.List.Sort
import Onda.Aggregates.Shape
import Onda.Aggregates.Tensor
import Onda.Lib.Effects

/-!
# Building layouts

The builder resolves the structs in the order of their names.  It keeps the layouts that it has
built, and it resolves a struct within another one first.
-/

namespace Onda.Aggregates

open Effects (Call)
open Onda.Frontend (PrimitiveType)
open Onda.Project (Platform)

/-- `AggregateLeafLayout`, without the resolved components of its path. -/
structure AggregateLeafLayout where
  id : Nat
  storagePath : Name
  scalar : PrimitiveType
  tensor : AggregateTensorLayout
  scalarOffset : Nat

/-- `AggregateLayout`. -/
structure AggregateLayout where
  id : Nat
  structName : Name
  leaves : List AggregateLeafLayout
  scalarWidth : Nat
  shape : PayloadType

/-- `AggregateLayoutTable`. -/
structure AggregateLayoutTable where
  layouts : List AggregateLayout
  idsByStructName : Name → Option Nat

inductive VisitState where
  | visiting
  | built
deriving DecidableEq

/-- Ends that are no results: a panic, and a recursion that is out of fuel. -/
inductive Stop where
  | panic
  | fuel

/-- What ends a call of the builder early. -/
inductive Failure where
  | error (error : AggregateLayoutError)
  | stop (stop : Stop)

/-- What `LayoutBuilder` keeps as it is. -/
structure LayoutBuilder where
  definitions : Name → Option TypedStruct
  sortedNames : List Name

/-- What `LayoutBuilder` changes. -/
structure Progress where
  states : Name → Option VisitState
  stack : List Name
  built : Name → Option AggregateLayout

abbrev Build := Call Progress Failure

/-- `ids`: the place in the order of the names. -/
def LayoutBuilder.ids (builder : LayoutBuilder) (name : Name) : Option Nat :=
  if builder.sortedNames.contains name then some (builder.sortedNames.idxOf name) else none

/-- The largest `u32`. -/
def u32Max : Nat := 4294967295

/-! ### Fields -/

section Fields

variable (platform : Platform) (builder : LayoutBuilder) (buildOne : Name → Build Unit)
  (owner : TypedStruct)

/-- `malformed`. -/
def malformed (field : TypedStructField) (reason : String) : Failure :=
  .error (.malformedField owner.name field.name reason)

/-- `require_no_aggregate_metadata`. -/
def requireNoAggregateMetadata (field : TypedStructField) : Build Unit :=
  Call.refuseIf
    (field.structName.isSome ∨ field.arrayElemTy.isSome ∨ field.arrayElemStruct.isSome)
    (malformed owner field "scalar/tuple field has aggregate metadata")

/-- `nested_shape`. -/
def nestedShape (field : TypedStructField) (name : Name) : Build PayloadType := do
  Call.refuseIf (builder.ids name = none) (.error (.unknownStruct owner.name field.name name))
  buildOne name
  let built ← Call.read fun progress => progress.built name
  match built with
  | none => Call.fail (.stop .panic)
  | some layout => pure layout.shape

/-- The element of an array in `build_field`. -/
def buildElement (field : TypedStructField) : Build PayloadType :=
  match field.arrayElemTy, field.arrayElemStruct with
  | some ty, none => pure (.scalar ty)
  | none, some name => nestedShape builder buildOne owner field name
  | none, none => Call.fail (malformed owner field "array element type is missing")
  | some _, some _ =>
    Call.fail (malformed owner field "array has both primitive and struct element types")

/-- `build_field`. -/
def buildField (field : TypedStructField) : Build PayloadType :=
  match field.ty with
  | .scalar ty => do
    requireNoAggregateMetadata owner field
    pure (.scalar ty)
  | .tuple types => do
    requireNoAggregateMetadata owner field
    pure (.tuple (types.map .scalar))
  | .struct => do
    Call.refuseIf (field.arrayElemTy.isSome ∨ field.arrayElemStruct.isSome)
      (malformed owner field "struct field has array metadata")
    match field.structName with
    | none => Call.fail (malformed owner field "struct target is missing")
    | some name => nestedShape builder buildOne owner field name
  | .array len => do
    Call.refuseIf field.structName.isSome (malformed owner field "array field has struct metadata")
    let element ← buildElement builder buildOne owner field
    pure (.array element len)

/-- The loop of `build_fields` over the fields. -/
def buildShapes : List Name → List TypedStructField → Build (List (Name × PayloadType))
  | _, [] => pure []
  | seen, field :: fields => do
    Call.refuseIf (seen.contains field.name) (.error (.duplicateField owner.name field.name))
    let ty ← buildField builder buildOne owner field
    let rest ← buildShapes (field.name :: seen) fields
    pure ((field.name, ty) :: rest)

/-- The loop of `build_fields` over the planned leaves, which also numbers them. -/
def placeLeaves : List PayloadLeaf → Nat → Nat →
    Except AggregateLayoutError (List AggregateLeafLayout × Nat)
  | [], _, scalarWidth => .ok ([], scalarWidth)
  | leaf :: planned, id, scalarWidth =>
    match AggregateTensorLayout.fromShape platform leaf.shape with
    | none => .error (.sizeOverflow owner.name leaf.path leaf.shape)
    | some tensor =>
      match platform.checkedAdd scalarWidth tensor.elementCount with
      | none => .error (.sizeOverflow owner.name leaf.path tensor.shape)
      | some after =>
        (placeLeaves planned (id + 1) after).map fun rest =>
          (⟨id, leaf.path, leaf.encoding, tensor, scalarWidth⟩ :: rest.1, rest.2)

/-- The leaves of `build_fields`.  A struct without fields is erased. -/
def plannedLeaves (fields : List (Name × PayloadType)) : Build (List PayloadLeaf) :=
  if fields = [] then pure []
  else
    match (PayloadType.struct owner.name fields).leaves with
    | none => Call.fail (.stop .fuel)
    | some none => Call.fail (.error (.malformedField owner.name [] "invalid payload schema"))
    | some (some planned) => pure planned

/-- `build_fields`. -/
def buildFields : Build (List AggregateLeafLayout × Nat × PayloadType) := do
  let fields ← buildShapes builder buildOne owner [] (aggregateFields owner)
  let planned ← plannedLeaves owner fields
  let placed ← Call.lift ((placeLeaves platform owner planned 0 0).mapError Failure.error)
  pure (placed.1, placed.2, .struct owner.name fields)

end Fields

/-! ### Structs -/

section Structs

variable (platform : Platform) (builder : LayoutBuilder)

/-- `cycle_start`. -/
def cycleStart (stack : List Name) (name : Name) : Nat :=
  if stack.contains name then stack.idxOf name else 0

/-- The end of `build_one` for fields that are built. -/
def finish (name : Name) (built : List AggregateLeafLayout × Nat × PayloadType) : Build Unit :=
  if u32Max + 1 < built.1.length then Call.fail (.stop .panic)
  else
    match builder.ids name with
    | none => Call.fail (.stop .panic)
    | some id =>
      Call.update fun progress =>
        { progress with
          states := Function.update progress.states name (some .built)
          built := Function.update progress.built name (some ⟨id, name, built.1, built.2.1, built.2.2⟩) }

/-- `build_one`, with a bound on the depth of the recursion. -/
def buildOne : Nat → Name → Build Unit
  | 0, _ => Call.fail (.stop .fuel)
  | fuel + 1, name => fun progress =>
    match progress.states name with
    | some .built => (.ok (), progress)
    | some .visiting =>
      (.error (.error (.recursiveAggregate
        (progress.stack.drop (cycleStart progress.stack name) ++ [name]))), progress)
    | none =>
      match builder.definitions name with
      | none => (.error (.stop .panic), progress)
      | some definition =>
        let entered :=
          { progress with
            states := Function.update progress.states name (some .visiting)
            stack := progress.stack ++ [name] }
        let ended := buildFields platform builder (buildOne fuel) definition entered
        let left := { ended.2 with stack := ended.2.stack.dropLast }
        match ended.1 with
        | .ok built => finish builder name built left
        | .error failure =>
          (.error failure, { left with states := Function.update left.states name none })

/-- The loop of `build`: the errors of all structs. -/
def buildNames (fuel : Nat) : List Name → Progress →
    Except Stop (List AggregateLayoutError × Progress)
  | [], progress => .ok ([], progress)
  | name :: names, progress =>
    match buildOne platform builder fuel name progress with
    | (.ok (), progress') => buildNames fuel names progress'
    | (.error (.error error), progress') =>
      (buildNames fuel names progress').map fun rest => (error :: rest.1, rest.2)
    | (.error (.stop stop), _) => .error stop

/-- `LayoutBuilder::build`. -/
def LayoutBuilder.build : Except Stop (Except (List AggregateLayoutError) AggregateLayoutTable) :=
  match buildNames platform builder (builder.sortedNames.length + 1) builder.sortedNames
      ⟨fun _ => none, [], fun _ => none⟩ with
  | .error stop => .error stop
  | .ok (errors, progress) =>
    if errors = [] then
      match builder.sortedNames.mapM progress.built with
      | none => .error .panic
      | some layouts => .ok (.ok ⟨layouts, builder.ids⟩)
    else .ok (.error errors)

end Structs

/-! ### Tables -/

/-- The order of names, byte by byte. -/
def Before (left right : Name) : Prop := left.map UInt8.toNat ≤ right.map UInt8.toNat

instance : DecidableRel Before := fun left right =>
  inferInstanceAs (Decidable (left.map UInt8.toNat ≤ right.map UInt8.toNat))

/-- The names that are declared again. -/
def duplicates : List Name → List Name → List Name
  | _, [] => []
  | seen, name :: names =>
    if seen.contains name then name :: duplicates seen names else duplicates (name :: seen) names

/-- `LayoutBuilder::new`. -/
def LayoutBuilder.new (structs : List TypedStruct) :
    Except (List AggregateLayoutError) LayoutBuilder :=
  if u32Max < structs.length then .error [.tooManyLayouts structs.length]
  else if duplicates [] (structs.map TypedStruct.name) ≠ [] then
    .error ((duplicates [] (structs.map TypedStruct.name)).map .duplicateStruct)
  else
    .ok
      { definitions := fun name => structs.find? fun definition => definition.name = name
        sortedNames := (structs.map TypedStruct.name).insertionSort Before }

/-- `AggregateLayoutTable::build`. -/
def AggregateLayoutTable.build (platform : Platform) (structs : List TypedStruct) :
    Except Stop (Except (List AggregateLayoutError) AggregateLayoutTable) :=
  match validateAggregateStructure structs platform with
  | none => .error .fuel
  | some (.error error) => .ok (.error [error])
  | some (.ok ()) =>
    match LayoutBuilder.new structs with
    | .error errors => .ok (.error errors)
    | .ok builder => builder.build platform

end Onda.Aggregates
