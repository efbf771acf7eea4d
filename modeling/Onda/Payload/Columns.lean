import Onda.Payload.Pieces
import Onda.Payload.Values

/-!
# Values and their columns

A value has columns of the shapes of its type, every family of such columns is the family of
one value, and the canonical value has the canonical columns.

### Families of columns
-/

namespace Onda.Payload

/-- What is related to a concatenation is one. -/
theorem forall₂_append_left_iff {α β : Type} {R : α → β → Prop} {left right : List α}
    {whole : List β} : List.Forall₂ R (left ++ right) whole ↔
      ∃ front back, List.Forall₂ R left front ∧ List.Forall₂ R right back ∧
        whole = front ++ back := by
  induction left generalizing whole with
  | nil => simp
  | cons item left ih =>
    simp only [List.cons_append, List.forall₂_cons_left_iff, ih]
    constructor
    · rintro ⟨other, whole, here, ⟨front, back, early, late, rfl⟩, rfl⟩
      exact ⟨other :: front, back, ⟨other, front, here, early, rfl⟩, late, rfl⟩
    · rintro ⟨_, back, ⟨other, front, here, early, rfl⟩, late, rfl⟩
      exact ⟨other, front ++ back, here, ⟨front, back, early, late, rfl⟩, rfl⟩

/-- One column for each shape, with the scalars of `count` values. -/
def Columned (count : Nat) (shapes : List LeafShape) (columns : List (List Bytes)) : Prop :=
  List.Forall₂ (fun shape column =>
    column.length = shape.extent * count ∧ Even shape.encoding.byteSize column) shapes columns

/-- Every scalar of every column in its canonical form. -/
def normalizeColumns (shapes : List LeafShape) (columns : List (List Bytes)) :
    List (List Bytes) :=
  List.zipWith (fun shape column => column.map shape.normalize) shapes columns

section Families

variable {shapes : List LeafShape} {count : Nat}

theorem Even.append {size : Nat} {left right : List Bytes} (even : Even size left)
    (even' : Even size right) : Even size (left ++ right) := by
  intro scalar mem
  rcases List.mem_append.mp mem with early | late
  · exact even scalar early
  · exact even' scalar late

theorem columned_zero (shapes : List LeafShape) :
    Columned 0 shapes (List.replicate shapes.length []) := by
  induction shapes with
  | nil => exact .nil
  | cons shape shapes ih => exact .cons ⟨rfl, fun _ mem => by cases mem⟩ ih

variable {columns : List (List Bytes)}

theorem Columned.eq_replicate (columned : Columned 0 shapes columns) :
    columns = List.replicate shapes.length [] := by
  induction columned with
  | nil => rfl
  | cons here _ ih =>
    rw [List.eq_nil_of_length_eq_zero here.1, ih]
    rfl

theorem Columned.join {heads tails : List (List Bytes)} (first : Columned 1 shapes heads)
    (later : Columned count shapes tails) :
    Columned (count + 1) shapes (List.zipWith (· ++ ·) heads tails) := by
  induction first generalizing tails with
  | nil => cases later; exact .nil
  | @cons shape column shapes heads here _ ih =>
    cases later with
    | @cons _ tail _ tails there later =>
      refine .cons ⟨?_, here.2.append there.2⟩ (ih later)
      rw [List.length_append, here.1, there.1]
      ring

/-- Columns of several values begin with the columns of the first. -/
theorem Columned.split (columned : Columned (count + 1) shapes columns) :
    ∃ heads tails, Columned 1 shapes heads ∧ Columned count shapes tails ∧
      columns = List.zipWith (· ++ ·) heads tails := by
  induction columned with
  | nil => exact ⟨[], [], .nil, .nil, rfl⟩
  | @cons shape column shapes columns here _ ih =>
    obtain ⟨heads, tails, first, later, rfl⟩ := ih
    have wide : shape.extent ≤ column.length := by
      rw [here.1]
      exact Nat.le_mul_of_pos_right _ (Nat.succ_pos _)
    refine ⟨column.take shape.extent :: heads, column.drop shape.extent :: tails,
      .cons ⟨?_, fun scalar mem => here.2 scalar (List.mem_of_mem_take mem)⟩ first,
      .cons ⟨?_, fun scalar mem => here.2 scalar (List.mem_of_mem_drop mem)⟩ later, ?_⟩
    · rw [List.length_take, Nat.mul_one]
      omega
    · rw [List.length_drop, here.1]
      rw [Nat.mul_succ]
      omega
    · rw [List.zipWith_cons_cons, List.take_append_drop]

theorem columned_scale {len : Nat} :
    Columned count (shapes.map (LeafShape.scale len)) columns ↔
      Columned (len * count) shapes columns := by
  unfold Columned
  rw [List.forall₂_map_left_iff]
  simp only [LeafShape.scale, Nat.mul_assoc]

theorem normalizeColumns_scale (len : Nat) (columns : List (List Bytes)) :
    normalizeColumns (shapes.map (LeafShape.scale len)) columns =
      normalizeColumns shapes columns := by
  rw [normalizeColumns, List.zipWith_map_left]
  rfl

theorem normalizeColumns_join (shapes : List LeafShape) (heads tails : List (List Bytes)) :
    normalizeColumns shapes (List.zipWith (· ++ ·) heads tails) =
      List.zipWith (· ++ ·) (normalizeColumns shapes heads) (normalizeColumns shapes tails) := by
  induction shapes generalizing heads tails with
  | nil => simp [normalizeColumns]
  | cons shape shapes ih =>
    cases heads with
    | nil => simp [normalizeColumns]
    | cons head heads =>
      cases tails with
      | nil => simp [normalizeColumns]
      | cons tail tails =>
        have later := ih heads tails
        unfold normalizeColumns at later ⊢
        simp only [List.zipWith_cons_cons, List.map_append, later]

theorem normalizeColumns_empty (shapes : List LeafShape) :
    normalizeColumns shapes (List.replicate shapes.length []) =
      List.replicate shapes.length [] := by
  induction shapes with
  | nil => rfl
  | cons shape shapes ih =>
    unfold normalizeColumns at ih ⊢
    rw [List.length_cons, List.replicate_succ, List.zipWith_cons_cons, ih, List.map_nil]

end Families

/-! ### One value -/

/-- The columns of a type stand for its values. -/
structure PayloadType.Faithful (ty : PayloadType) : Prop where
  columned : ∀ value, ty.Matches value → Columned 1 ty.shapes (ty.columns value)
  onto : ∀ columns, Columned 1 ty.shapes columns → ∃ value, ty.Matches value ∧
    ty.columns value = columns
  normal : ∀ value, ty.Matches value → ty.Matches (ty.normalize value) ∧
    ty.columns (ty.normalize value) = normalizeColumns ty.shapes (ty.columns value)

section Runs

variable {element : PayloadType} (faithful : element.Faithful)

include faithful

variable {members : List HostValue}

/-- The columns of a run of values. -/
theorem columned_run (fits : ∀ member ∈ members, element.Matches member) :
    Columned members.length element.shapes
      (joinColumns element.shapes.length (members.map fun member => element.columns member)) := by
  induction members with
  | nil => exact columned_zero _
  | cons member members ih =>
    exact (faithful.columned member (fits member (by simp))).join
      (ih fun later mem => fits later (by simp [mem]))

theorem onto_run {count : Nat} {columns : List (List Bytes)}
    (columned : Columned count element.shapes columns) :
    ∃ members : List HostValue, members.length = count ∧
      (∀ member ∈ members, element.Matches member) ∧
      joinColumns element.shapes.length (members.map fun member => element.columns member) =
        columns := by
  induction count generalizing columns with
  | zero => exact ⟨[], rfl, by simp, columned.eq_replicate.symm⟩
  | succ count ih =>
    obtain ⟨heads, tails, first, later, rfl⟩ := columned.split
    obtain ⟨member, here, rfl⟩ := faithful.onto heads first
    obtain ⟨members, counted, fits, rfl⟩ := ih later
    refine ⟨member :: members, by rw [List.length_cons, counted], ?_, rfl⟩
    intro other mem
    rcases List.mem_cons.mp mem with rfl | mem
    · exact here
    · exact fits other mem

theorem normal_run (fits : ∀ member ∈ members, element.Matches member) :
    joinColumns element.shapes.length ((members.map fun member => element.normalize member).map
        fun member => element.columns member) =
      normalizeColumns element.shapes
        (joinColumns element.shapes.length (members.map fun member => element.columns member)) := by
  induction members with
  | nil => exact (normalizeColumns_empty _).symm
  | cons member members ih =>
    simp only [List.map_cons, joinColumns]
    rw [(faithful.normal member (fits member (by simp))).2,
      ih fun later mem => fits later (by simp [mem]), normalizeColumns_join]

theorem matches_run (fits : ∀ member ∈ members, element.Matches member) :
    ∀ member ∈ members.map fun member => element.normalize member, element.Matches member := by
  intro member mem
  obtain ⟨source, inMembers, rfl⟩ := List.mem_map.mp mem
  exact (faithful.normal source (fits source inMembers)).1

end Runs

section Rows

variable {columns : List (List Bytes)} {members : List HostValue}

theorem Columned.length_eq {count : Nat} {shapes : List LeafShape}
    (columned : Columned count shapes columns) : columns.length = shapes.length :=
  (List.Forall₂.length_eq columned).symm

variable {types : List PayloadType} (faithful : ∀ ty ∈ types, ty.Faithful)

include faithful

/-- The columns of a row of values are those of its members, one family behind the other. -/
theorem columned_row (fits : List.Forall₂ PayloadType.Matches types members) :
    Columned 1 (types.flatMap PayloadType.shapes) (elementsColumns types members) := by
  induction fits with
  | nil => exact .nil
  | @cons ty member types members here _ ih =>
    rw [List.flatMap_cons, elementsColumns]
    exact List.rel_append ((faithful ty (by simp)).columned member here)
      (ih fun ty mem => faithful ty (by simp [mem]))

theorem onto_row (columned : Columned 1 (types.flatMap PayloadType.shapes) columns) :
    ∃ members, List.Forall₂ PayloadType.Matches types members ∧
      elementsColumns types members = columns := by
  induction types generalizing columns with
  | nil =>
    cases columned
    exact ⟨[], .nil, by simp [elementsColumns]⟩
  | cons ty types ih =>
    rw [List.flatMap_cons] at columned
    obtain ⟨front, back, early, late, rfl⟩ := forall₂_append_left_iff.mp columned
    obtain ⟨member, here, rfl⟩ := (faithful ty (by simp)).onto front early
    obtain ⟨members, fits, rfl⟩ := ih (fun ty mem => faithful ty (by simp [mem])) late
    exact ⟨member :: members, .cons here fits, rfl⟩

theorem normal_row (fits : List.Forall₂ PayloadType.Matches types members) :
    List.Forall₂ PayloadType.Matches types (normalizeElements types members) ∧
      elementsColumns types (normalizeElements types members) =
        normalizeColumns (types.flatMap PayloadType.shapes) (elementsColumns types members) := by
  induction fits with
  | nil => exact ⟨by simp [normalizeElements], by simp [elementsColumns, normalizeColumns]⟩
  | @cons ty member types members here fits ih =>
    obtain ⟨matched, same⟩ := (faithful ty (by simp)).normal member here
    obtain ⟨matchedLater, sameLater⟩ := ih fun ty mem => faithful ty (by simp [mem])
    have lengths := ((faithful ty (by simp)).columned member here).length_eq
    refine ⟨by rw [normalizeElements]; exact .cons matched matchedLater, ?_⟩
    rw [normalizeElements, elementsColumns, elementsColumns, same, sameLater, List.flatMap_cons,
      normalizeColumns, normalizeColumns, normalizeColumns, List.zipWith_append lengths.symm]

end Rows

theorem faithful_scalar {ty : PayloadType} (scalar : ty.isScalar) : ty.Faithful := by
  cases ty with
  | tuple | struct | array | slice => cases scalar
  | scalar encoding range =>
    refine ⟨?_, ?_, ?_⟩
    · rintro value ⟨-, wide⟩
      refine .cons ⟨rfl, ?_⟩ .nil
      intro scalar mem
      rw [List.mem_singleton.mp mem]
      exact wide
    · rintro columns (_ | ⟨⟨one, even⟩, ⟨⟩⟩)
      obtain ⟨scalar, rfl⟩ := List.length_eq_one_iff.mp one
      exact ⟨.scalar scalar, ⟨rfl, even scalar (by simp)⟩, rfl⟩
    · rintro value ⟨-, wide⟩
      exact ⟨⟨rfl, length_normalizeScalar wide⟩, rfl⟩

/-- **Columns stand for values**, whatever the type, as long as no slice occurs in it. -/
theorem PayloadType.Plain.faithful {ty : PayloadType} (plain : ty.Plain) : ty.Faithful := by
  induction plain with
  | scalar encoding range => exact faithful_scalar rfl
  | tuple elements scalars =>
    have faithful : ∀ ty ∈ elements, ty.Faithful := fun ty mem => faithful_scalar (scalars ty mem)
    refine ⟨?_, ?_, ?_⟩
    · rintro value ⟨-, fits⟩
      rw [PayloadType.shapes, elementsShapes_eq]
      exact columned_row faithful (elementsMatch_iff.mp fits)
    · intro columns columned
      rw [PayloadType.shapes, elementsShapes_eq] at columned
      obtain ⟨members, fits, rfl⟩ := onto_row faithful columned
      exact ⟨.aggregate members, ⟨rfl, elementsMatch_iff.mpr fits⟩, rfl⟩
    · rintro value ⟨-, fits⟩
      obtain ⟨matched, same⟩ := normal_row faithful (elementsMatch_iff.mp fits)
      rw [PayloadType.shapes, elementsShapes_eq]
      exact ⟨⟨rfl, elementsMatch_iff.mpr matched⟩, same⟩
  | struct name fields plain faithful =>
    have faithfulTypes : ∀ ty ∈ fields.map PayloadField.ty, ty.Faithful := by
      intro ty mem
      obtain ⟨field, inFields, rfl⟩ := List.mem_map.mp mem
      exact faithful field inFields
    refine ⟨?_, ?_, ?_⟩
    · rintro value ⟨-, fits⟩
      rw [PayloadType.shapes, fieldsShapes_eq, PayloadType.columns, fieldsColumns_eq]
      exact columned_row faithfulTypes (fieldsMatch_iff.mp fits)
    · intro columns columned
      rw [PayloadType.shapes, fieldsShapes_eq] at columned
      obtain ⟨members, fits, rfl⟩ := onto_row faithfulTypes columned
      exact ⟨.aggregate members, ⟨rfl, fieldsMatch_iff.mpr fits⟩, fieldsColumns_eq _ _⟩
    · rintro value ⟨-, fits⟩
      obtain ⟨matched, same⟩ := normal_row faithfulTypes (fieldsMatch_iff.mp fits)
      rw [PayloadType.shapes, fieldsShapes_eq, PayloadType.columns, PayloadType.columns,
        fieldsColumns_eq, fieldsColumns_eq, PayloadType.normalize, normalizeFields_eq]
      exact ⟨⟨rfl, fieldsMatch_iff.mpr matched⟩, same⟩
  | array element len nonempty plain faithful =>
    refine ⟨?_, ?_, ?_⟩
    · rintro value ⟨-, counted, fits⟩
      rw [PayloadType.shapes, columned_scale, Nat.mul_one, ← counted]
      exact columned_run faithful fits
    · intro columns columned
      rw [PayloadType.shapes, columned_scale, Nat.mul_one] at columned
      obtain ⟨members, counted, fits, rfl⟩ := onto_run faithful columned
      exact ⟨.aggregate members, ⟨rfl, counted, fits⟩, rfl⟩
    · rintro value ⟨-, counted, fits⟩
      rw [PayloadType.shapes, normalizeColumns_scale]
      exact ⟨⟨rfl, by rw [← counted]; exact List.length_map _, matches_run faithful fits⟩,
        normal_run faithful fits⟩

end Onda.Payload
