import Onda.Payload.Transfer

/-!
# Values of a schema

The host values a type describes, and the columns of scalars they are on the wire.  A type
determines the shapes of its columns, and every family of columns with these shapes comes from
one value.

### Values
-/

namespace Onda.Payload

/-- A host value.  A scalar is known by its little-endian bytes. -/
inductive HostValue where
  | scalar (bytes : Bytes)
  | aggregate (members : List HostValue)

namespace HostValue

def bytes : HostValue → Bytes
  | scalar bytes => bytes
  | aggregate _ => []

def members : HostValue → List HostValue
  | scalar _ => []
  | aggregate members => members

end HostValue

mutual

/-- The value has the form of the type. -/
def PayloadType.Matches : PayloadType → HostValue → Prop
  | .scalar encoding _, value =>
    value = .scalar value.bytes ∧ value.bytes.length = encoding.byteSize
  | .tuple elements, value =>
    value = .aggregate value.members ∧ elementsMatch elements value.members
  | .struct _ fields, value => value = .aggregate value.members ∧ fieldsMatch fields value.members
  | .array element len, value =>
    value = .aggregate value.members ∧ value.members.length = len ∧
      ∀ member ∈ value.members, element.Matches member
  | .slice element, value =>
    value = .aggregate value.members ∧ ∀ member ∈ value.members, element.Matches member

def elementsMatch : List PayloadType → List HostValue → Prop
  | [], members => members = []
  | ty :: elements, members =>
    ∃ member rest, members = member :: rest ∧ ty.Matches member ∧ elementsMatch elements rest

def fieldsMatch : List PayloadField → List HostValue → Prop
  | [], members => members = []
  | .mk _ ty _ :: fields, members =>
    ∃ member rest, members = member :: rest ∧ ty.Matches member ∧ fieldsMatch fields rest

end

/-! ### Shapes and columns -/

/-- A column of a type: how its scalars are encoded, how many there are, and their range. -/
structure LeafShape where
  encoding : ScalarEncoding
  extent : Nat
  range : Option IntegerRangeMetadata

def LeafShape.scale (count : Nat) (shape : LeafShape) : LeafShape :=
  { shape with extent := shape.extent * count }

mutual

/-- The columns of a type in leaf order.  For a slice they are those of one element. -/
def PayloadType.shapes : PayloadType → List LeafShape
  | .scalar encoding range => [⟨encoding, 1, range⟩]
  | .tuple elements => elementsShapes elements
  | .struct _ fields => fieldsShapes fields
  | .array element len => element.shapes.map (LeafShape.scale len)
  | .slice element => element.shapes

def elementsShapes : List PayloadType → List LeafShape
  | [] => []
  | ty :: elements => ty.shapes ++ elementsShapes elements

def fieldsShapes : List PayloadField → List LeafShape
  | [] => []
  | .mk _ ty _ :: fields => ty.shapes ++ fieldsShapes fields

end

/-- The columns of several values: each column of the first, continued by the others. -/
def joinColumns (count : Nat) : List (List (List Bytes)) → List (List Bytes)
  | [] => List.replicate count []
  | columns :: rest => List.zipWith (· ++ ·) columns (joinColumns count rest)

mutual

/-- **Struct of arrays.** The scalars of a value, column by column. -/
def PayloadType.columns : PayloadType → HostValue → List (List Bytes)
  | .scalar _ _, value => [[value.bytes]]
  | .tuple elements, value => elementsColumns elements value.members
  | .struct _ fields, value => fieldsColumns fields value.members
  | .array element _, value =>
    joinColumns element.shapes.length (value.members.map fun member => element.columns member)
  | .slice element, value =>
    joinColumns element.shapes.length (value.members.map fun member => element.columns member)

def elementsColumns : List PayloadType → List HostValue → List (List Bytes)
  | ty :: elements, member :: members => ty.columns member ++ elementsColumns elements members
  | _, _ => []

def fieldsColumns : List PayloadField → List HostValue → List (List Bytes)
  | .mk _ ty _ :: fields, member :: members => ty.columns member ++ fieldsColumns fields members
  | _, _ => []

end

/-! ### Canonical values -/

/-- The domain of a scalar whose range is valid. -/
def domainOf (encoding : ScalarEncoding) (range : Option IntegerRangeMetadata) :
    Option IntegerDomain :=
  range.bind fun range =>
    match prepareDomain encoding range with
    | .ok domain => some domain
    | .error _ => none

/-- A scalar in its canonical form: a bool is zero or one, a ranged integer in its domain. -/
def LeafShape.normalize (shape : LeafShape) (scalar : Bytes) : Bytes :=
  normalizeScalar false shape.encoding (domainOf shape.encoding shape.range) scalar

mutual

/-- A value with every scalar in its canonical form. -/
def PayloadType.normalize : PayloadType → HostValue → HostValue
  | .scalar encoding range, value => .scalar (LeafShape.normalize ⟨encoding, 1, range⟩ value.bytes)
  | .tuple elements, value => .aggregate (normalizeElements elements value.members)
  | .struct _ fields, value => .aggregate (normalizeFields fields value.members)
  | .array element _, value =>
    .aggregate (value.members.map fun member => element.normalize member)
  | .slice element, value => .aggregate (value.members.map fun member => element.normalize member)

def normalizeElements : List PayloadType → List HostValue → List HostValue
  | ty :: elements, member :: members => ty.normalize member :: normalizeElements elements members
  | _, _ => []

def normalizeFields : List PayloadField → List HostValue → List HostValue
  | .mk _ ty _ :: fields, member :: members => ty.normalize member :: normalizeFields fields members
  | _, _ => []

end

/-- No slice occurs in the type, no array is empty, and tuples have scalar elements. -/
inductive PayloadType.Plain : PayloadType → Prop where
  | scalar (encoding range) : Plain (.scalar encoding range)
  | tuple (elements : List PayloadType) (scalars : ∀ ty ∈ elements, ty.isScalar) :
    Plain (.tuple elements)
  | struct (name : String) (fields : List PayloadField)
    (plain : ∀ field ∈ fields, Plain field.ty) : Plain (.struct name fields)
  | array (element : PayloadType) (len : Nat) (nonempty : len ≠ 0) (plain : Plain element) :
    Plain (.array element len)

/-! ### Rows of types

The members of a tuple and of a struct are rows of values along a row of types. -/

theorem elementsMatch_iff {elements : List PayloadType} {members : List HostValue} :
    elementsMatch elements members ↔ List.Forall₂ PayloadType.Matches elements members := by
  induction elements generalizing members with
  | nil => simp [elementsMatch]
  | cons ty elements ih =>
    simp only [elementsMatch, ih, List.forall₂_cons_left_iff]
    constructor
    · rintro ⟨member, rest, rfl, here, later⟩
      exact ⟨member, rest, here, later, rfl⟩
    · rintro ⟨member, rest, here, later, rfl⟩
      exact ⟨member, rest, rfl, here, later⟩

theorem fieldsMatch_iff {fields : List PayloadField} {members : List HostValue} :
    fieldsMatch fields members ↔
      List.Forall₂ PayloadType.Matches (fields.map PayloadField.ty) members := by
  induction fields generalizing members with
  | nil => simp [fieldsMatch]
  | cons field fields ih =>
    cases field with
    | mk name ty default =>
      simp only [fieldsMatch, ih, List.map_cons, List.forall₂_cons_left_iff]
      constructor
      · rintro ⟨member, rest, rfl, here, later⟩
        exact ⟨member, rest, here, later, rfl⟩
      · rintro ⟨member, rest, here, later, rfl⟩
        exact ⟨member, rest, rfl, here, later⟩

theorem elementsShapes_eq (elements : List PayloadType) :
    elementsShapes elements = elements.flatMap PayloadType.shapes := by
  induction elements with
  | nil => rfl
  | cons ty elements ih => rw [elementsShapes, ih, List.flatMap_cons]

theorem fieldsShapes_eq (fields : List PayloadField) :
    fieldsShapes fields = (fields.map PayloadField.ty).flatMap PayloadType.shapes := by
  induction fields with
  | nil => rfl
  | cons field fields ih =>
    cases field with
    | mk name ty default => rw [fieldsShapes, ih, List.map_cons, List.flatMap_cons]; rfl

theorem fieldsColumns_eq (fields : List PayloadField) (members : List HostValue) :
    fieldsColumns fields members = elementsColumns (fields.map PayloadField.ty) members := by
  induction fields generalizing members with
  | nil => simp [fieldsColumns, elementsColumns]
  | cons field fields ih =>
    cases field with
    | mk name ty default =>
      cases members with
      | nil => simp [fieldsColumns, elementsColumns]
      | cons member members =>
        rw [fieldsColumns, List.map_cons, elementsColumns, ih]
        rfl

theorem normalizeFields_eq (fields : List PayloadField) (members : List HostValue) :
    normalizeFields fields members = normalizeElements (fields.map PayloadField.ty) members := by
  induction fields generalizing members with
  | nil => simp [normalizeFields, normalizeElements]
  | cons field fields ih =>
    cases field with
    | mk name ty default =>
      cases members with
      | nil => simp [normalizeFields, normalizeElements]
      | cons member members =>
        rw [normalizeFields, List.map_cons, normalizeElements, ih]
        rfl

end Onda.Payload
