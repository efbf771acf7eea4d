import Onda.Payload.Visits

/-!
# Traces and columns

The scalars of a visit, leaf by leaf, are the columns of the value.

### Matching
-/

namespace Onda.Payload

section Matching

variable {V : Type} {source : PayloadSource V}

/-- `write_scalar` fills the slice it is given. -/
def PayloadSource.Fills (source : PayloadSource V) : Prop :=
  ∀ value encoding scalar, source.writeScalar value encoding = .ok scalar →
    scalar.length = encoding.byteSize

/-- What a value of the type reads as matches the type. -/
def Readable (source : PayloadSource V) (ty : PayloadType) : Prop :=
  ∀ value tree, ty.Reads source value tree → ty.Matches tree

variable {members : List HostValue} {element : PayloadType} {value : V}

theorem readable_run (readable : Readable source element) {indices : List Nat}
    (reads : List.Forall₂ (fun index member => ∃ part,
      source.member value index none = some part ∧ element.Reads source part member)
      indices members) : ∀ member ∈ members, element.Matches member := by
  induction reads with
  | nil => simp
  | cons here _ ih =>
    obtain ⟨part, -, reads⟩ := here
    intro member mem
    rcases List.mem_cons.mp mem with rfl | mem
    · exact readable part _ reads
    · exact ih member mem

theorem readable_elements {elements : List PayloadType}
    (readable : ∀ ty ∈ elements, Readable source ty) {index : Nat}
    (reads : elementsRead source elements value index members) :
    elementsMatch elements members := by
  induction elements generalizing index members with
  | nil => exact reads
  | cons ty elements ih =>
    obtain ⟨part, member, rest, rfl, -, here, later⟩ := reads
    exact ⟨member, rest, rfl, readable ty (by simp) part member here,
      ih (fun ty mem => readable ty (by simp [mem])) later⟩

theorem readable_fields {fields : List PayloadField}
    (readable : ∀ field ∈ fields, Readable source field.ty) {index : Nat}
    (reads : fieldsRead source fields value index members) :
    fieldsMatch fields members := by
  induction fields generalizing index members with
  | nil => exact reads
  | cons field fields ih =>
    obtain ⟨name, ty, default⟩ := field
    obtain ⟨part, member, rest, rfl, -, here, later⟩ := reads
    exact ⟨member, rest, rfl, readable (.mk name ty default) (by simp) part member here,
      ih (fun field mem => readable field (by simp [mem])) later⟩

theorem PayloadType.Plain.readable (fills : source.Fills) {ty : PayloadType} (plain : ty.Plain) :
    Readable source ty := by
  induction plain with
  | scalar encoding range =>
    rintro value tree ⟨spelled, written⟩
    exact ⟨spelled, fills value encoding _ written⟩
  | tuple elements scalars =>
    rintro value tree ⟨spelled, -, reads⟩
    refine ⟨spelled, readable_elements (fun ty mem => ?_) reads⟩
    have scalar := scalars ty mem
    cases ty with
    | scalar encoding range =>
      rintro value tree ⟨spelled, written⟩
      exact ⟨spelled, fills value encoding _ written⟩
    | tuple | struct | array | slice => cases scalar
  | struct name fields plain readable =>
    rintro value tree ⟨spelled, -, reads⟩
    exact ⟨spelled, readable_fields readable reads⟩
  | array element len nonempty plain readable =>
    rintro value tree ⟨spelled, -, reads⟩
    exact ⟨spelled, by rw [← reads.length_eq, List.length_range], readable_run readable reads⟩

theorem readable_slice (fills : source.Fills) (plain : element.Plain) :
    Readable source (.slice element) := by
  rintro value tree ⟨spelled, -, reads⟩
  exact ⟨spelled, readable_run (plain.readable fills) reads⟩

end Matching

/-! ### Columns by leaf -/

/-- The scalars of one leaf. -/
def columnOf (items : List Stored) (leaf : Nat) : List Bytes :=
  (items.filter fun item => item.leaf = leaf).map Stored.scalar

@[simp] theorem columnOf_nil (leaf : Nat) : columnOf [] leaf = [] := rfl

theorem columnOf_append (left right : List Stored) (leaf : Nat) :
    columnOf (left ++ right) leaf = columnOf left leaf ++ columnOf right leaf := by
  simp [columnOf]

theorem columnOf_cons_self (item : Stored) (items : List Stored) :
    columnOf (item :: items) item.leaf = item.scalar :: columnOf items item.leaf := by
  simp [columnOf]

theorem columnOf_cons_ne {item : Stored} {leaf : Nat} (other : item.leaf ≠ leaf)
    (items : List Stored) : columnOf (item :: items) leaf = columnOf items leaf := by
  simp [columnOf, other]

/-- The column of a leaf in a family whose first leaf is `start`. -/
def cell (columns : List (List Bytes)) (start leaf : Nat) : List Bytes :=
  if start ≤ leaf then columns.getD (leaf - start) [] else []

theorem cell_append (left right : List (List Bytes)) (start leaf : Nat) :
    cell (left ++ right) start leaf =
      cell left start leaf ++ cell right (start + left.length) leaf := by
  unfold cell
  by_cases before : start ≤ leaf
  · rw [if_pos before, if_pos before]
    by_cases inLeft : leaf - start < left.length
    · rw [if_neg (by omega), List.getD_append _ _ _ _ inLeft, List.append_nil]
    · rw [if_pos (by omega), List.getD_append_right _ _ _ _ (by omega),
        List.getD_eq_default left _ (by omega), List.nil_append, Nat.sub_add_eq]
  · rw [if_neg before, if_neg before, if_neg (by omega), List.nil_append]

theorem cell_join {left right : List (List Bytes)} (sameLength : left.length = right.length)
    (start leaf : Nat) : cell (List.zipWith (· ++ ·) left right) start leaf =
      cell left start leaf ++ cell right start leaf := by
  unfold cell
  split
  · generalize leaf - start = position
    induction left generalizing right position with
    | nil =>
      cases right with
      | nil => simp
      | cons => cases sameLength
    | cons column left ih =>
      cases right with
      | nil => cases sameLength
      | cons other right =>
        cases position with
        | zero => simp
        | succ position =>
          simpa using @ih right (by simpa using sameLength) position
  · rfl

theorem cell_replicate (count start leaf : Nat) : cell (List.replicate count []) start leaf = [] := by
  unfold cell
  split
  · rw [List.getD_eq_getElem?_getD, List.getElem?_replicate]
    split <;> rfl
  · rfl

/-! ### Traces -/

/-- The items are scalars of these columns, in some order that keeps every column. -/
structure Tracks (shapes : List LeafShape) (columns : List (List Bytes)) (start : Nat)
    (items : List Stored) : Prop where
  known : ∀ item ∈ items, ∃ position shape, shapes[position]? = some shape ∧
    item.leaf = start + position ∧ item.encoding = shape.encoding ∧
    item.scalar.length = shape.encoding.byteSize
  columns : ∀ leaf, columnOf items leaf = cell columns start leaf

namespace Tracks

variable {start : Nat}

theorem scalar {encoding : ScalarEncoding} {range : Option IntegerRangeMetadata} {scalar : Bytes}
    (wide : scalar.length = encoding.byteSize) :
    Tracks [⟨encoding, 1, range⟩] [[scalar]] start [⟨start, encoding, scalar⟩] where
  known item mem := by
    rw [List.mem_singleton.mp mem]
    exact ⟨0, _, rfl, rfl, rfl, wide⟩
  columns leaf := by
    unfold cell
    by_cases here : start = leaf
    · subst here
      simp [columnOf]
    · rw [columnOf_cons_ne here, columnOf_nil]
      split
      · obtain ⟨position, far⟩ : ∃ position, leaf - start = position + 1 :=
          ⟨leaf - start - 1, by omega⟩
        rw [far]
        rfl
      · rfl

theorem nil : Tracks [] [] start [] where
  known item mem := by cases mem
  columns leaf := by simp [cell]

variable {columns columns' : List (List Bytes)} {shapes : List LeafShape}
  {items items' : List Stored}

theorem append {shapes' : List LeafShape} (first : Tracks shapes columns start items)
    (counted : columns.length = shapes.length)
    (second : Tracks shapes' columns' (start + shapes.length) items') :
    Tracks (shapes ++ shapes') (columns ++ columns') start (items ++ items') where
  known item mem := by
    rcases List.mem_append.mp mem with early | late
    · obtain ⟨position, shape, found, rest⟩ := first.known item early
      obtain ⟨inside, -⟩ := List.getElem?_eq_some_iff.mp found
      exact ⟨position, shape, by rw [List.getElem?_append_left inside, found], rest⟩
    · obtain ⟨position, shape, found, leaf, rest⟩ := second.known item late
      exact ⟨shapes.length + position, shape, by
        rw [List.getElem?_append_right (Nat.le_add_right _ _), Nat.add_sub_cancel_left, found],
        by omega, rest⟩
  columns leaf := by
    rw [columnOf_append, first.columns, second.columns, cell_append, counted]

theorem empty (shapes : List LeafShape) :
    Tracks shapes (List.replicate shapes.length []) start [] where
  known item mem := by cases mem
  columns leaf := by rw [cell_replicate, columnOf_nil]

theorem join (first : Tracks shapes columns start items)
    (second : Tracks shapes columns' start items') (sameLength : columns.length = columns'.length) :
    Tracks shapes (List.zipWith (· ++ ·) columns columns') start (items ++ items') where
  known item mem := by
    rcases List.mem_append.mp mem with early | late
    · exact first.known item early
    · exact second.known item late
  columns leaf := by
    rw [columnOf_append, first.columns, second.columns, cell_join sameLength]

theorem scale (tracks : Tracks shapes columns start items) (count : Nat) :
    Tracks (shapes.map (LeafShape.scale count)) columns start items where
  known item mem := by
    obtain ⟨position, shape, found, rest⟩ := tracks.known item mem
    exact ⟨position, shape.scale count, by rw [List.getElem?_map, found]; rfl, rest⟩
  columns := tracks.columns

end Tracks

/-- The visits of a type track its columns. -/
def Trackable (ty : PayloadType) : Prop :=
  leafCount ty = ty.shapes.length ∧
    ∀ tree start, ty.Matches tree → Tracks ty.shapes (ty.columns tree) start (trace ty tree start)

variable {members : List HostValue}

theorem tracks_run {element : PayloadType} (plain : element.Plain) (trackable : Trackable element)
    (fits : ∀ member ∈ members, element.Matches member) (start : Nat) :
    Tracks element.shapes
      (joinColumns element.shapes.length (members.map fun member => element.columns member)) start
      (members.flatMap fun member => trace element member start) := by
  induction members with
  | nil => exact Tracks.empty _
  | cons member members ih =>
    have here := plain.faithful.columned member (fits member (by simp))
    have later := columned_run plain.faithful fun other mem => fits other (List.mem_cons_of_mem member mem)
    exact (trackable.2 member start (fits member (by simp))).join
      (ih fun other mem => fits other (by simp [mem])) (by rw [here.length_eq, later.length_eq])

theorem trackable_scalar {ty : PayloadType} (scalar : ty.isScalar) : Trackable ty := by
  cases ty with
  | tuple | struct | array | slice => cases scalar
  | scalar encoding range =>
    refine ⟨rfl, ?_⟩
    rintro tree start ⟨-, wide⟩
    exact Tracks.scalar wide

theorem tracks_elements {elements : List PayloadType} (faithful : ∀ ty ∈ elements, ty.Faithful)
    (trackable : ∀ ty ∈ elements, Trackable ty)
    (fits : List.Forall₂ PayloadType.Matches elements members) (start : Nat) :
    Tracks (elements.flatMap PayloadType.shapes) (elementsColumns elements members) start
      (elementsTrace elements members start) := by
  induction fits generalizing start with
  | nil => simpa [elementsColumns, elementsTrace] using Tracks.nil
  | @cons ty member elements members here _ ih =>
    obtain ⟨counted, tracks⟩ := trackable ty (by simp)
    rw [List.flatMap_cons, elementsColumns, elementsTrace]
    refine (tracks member start here).append
      ((faithful ty (by simp)).columned member here).length_eq ?_
    rw [← counted]
    exact ih (fun ty mem => faithful ty (by simp [mem])) (fun ty mem => trackable ty (by simp [mem]))
      _

theorem fieldsTrace_eq (fields : List PayloadField) (members : List HostValue) (start : Nat) :
    fieldsTrace fields members start =
      elementsTrace (fields.map PayloadField.ty) members start := by
  induction fields generalizing members start with
  | nil => simp [fieldsTrace, elementsTrace]
  | cons field fields ih =>
    obtain ⟨name, ty, default⟩ := field
    cases members with
    | nil => simp [fieldsTrace, elementsTrace]
    | cons member members =>
      rw [fieldsTrace, List.map_cons, elementsTrace, ih]
      rfl

theorem PayloadType.Plain.trackable {ty : PayloadType} (plain : ty.Plain) : Trackable ty := by
  induction plain with
  | scalar encoding range => exact trackable_scalar rfl
  | tuple elements scalars =>
    have faithful : ∀ ty ∈ elements, ty.Faithful := fun ty mem => faithful_scalar (scalars ty mem)
    have trackable : ∀ ty ∈ elements, Trackable ty := fun ty mem => trackable_scalar (scalars ty mem)
    refine ⟨?_, ?_⟩
    · show elements.length = (elementsShapes elements).length
      rw [elementsShapes_eq]
      clear faithful trackable
      induction elements with
      | nil => rfl
      | cons ty elements ih =>
        have one := (trackable_scalar (scalars ty (by simp))).1
        have scalar := scalars ty (by simp)
        rw [List.flatMap_cons, List.length_append, ← one, List.length_cons,
          ih fun ty mem => scalars ty (by simp [mem])]
        cases ty with
        | scalar encoding range => rw [leafCount, Nat.add_comm]
        | tuple | struct | array | slice => cases scalar
    · rintro tree start ⟨-, fits⟩
      rw [PayloadType.shapes, elementsShapes_eq]
      exact tracks_elements faithful trackable (elementsMatch_iff.mp fits) start
  | struct name fields plain trackable =>
    have faithfulTypes : ∀ ty ∈ fields.map PayloadField.ty, ty.Faithful := by
      intro ty mem
      obtain ⟨field, inFields, rfl⟩ := List.mem_map.mp mem
      exact (plain field inFields).faithful
    have trackableTypes : ∀ ty ∈ fields.map PayloadField.ty, Trackable ty := by
      intro ty mem
      obtain ⟨field, inFields, rfl⟩ := List.mem_map.mp mem
      exact trackable field inFields
    refine ⟨?_, ?_⟩
    · show leafCount.fieldsLeafCount fields = (fieldsShapes fields).length
      clear faithfulTypes trackableTypes plain
      induction fields with
      | nil => rfl
      | cons field fields ih =>
        obtain ⟨fieldName, ty, default⟩ := field
        have here : leafCount ty = ty.shapes.length :=
          (trackable (.mk fieldName ty default) (by simp)).1
        rw [leafCount.fieldsLeafCount, fieldsShapes, List.length_append,
          ih fun field mem => trackable field (by simp [mem]), ← here]
    · rintro tree start ⟨-, fits⟩
      rw [PayloadType.shapes, fieldsShapes_eq, PayloadType.columns, fieldsColumns_eq, trace,
        fieldsTrace_eq]
      exact tracks_elements faithfulTypes trackableTypes (fieldsMatch_iff.mp fits) start
  | array element len nonempty plain trackable =>
    refine ⟨?_, ?_⟩
    · rw [leafCount, PayloadType.shapes, List.length_map, trackable.1]
    · rintro tree start ⟨-, counted, fits⟩
      exact (tracks_run plain trackable fits start).scale len

end Onda.Payload
