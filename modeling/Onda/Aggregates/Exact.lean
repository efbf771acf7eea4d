import Onda.Aggregates.Build

/-!
# Layouts are exact

The leaves of a layout fill it without gaps, and their paths are different.
-/

namespace Onda.Aggregates

open Effects (Call Holds)
open Onda.Frontend (PrimitiveType)
open Onda.Project (Platform)

/-- A scalar slot of a leaf. -/
def AggregateLeafLayout.Occupies (leaf : AggregateLeafLayout) (slot : Nat) : Prop :=
  leaf.scalarOffset ≤ slot ∧ slot < leaf.scalarOffset + leaf.tensor.elementCount

/-- The leaf that the planner listed. -/
def AggregateLeafLayout.planned (leaf : AggregateLeafLayout) : PayloadLeaf :=
  ⟨leaf.storagePath, leaf.scalar, leaf.tensor.shape⟩

/-- An exact layout: its leaves are the planned ones, they share no slot and no path, they fill all
slots, and the elements of each are row-major. -/
structure AggregateLayout.Exact (layout : AggregateLayout) : Prop where
  planned : layout.shape = .struct layout.structName [] ∧ layout.leaves = []
    ∨ layout.shape.leaves = some (some (layout.leaves.map AggregateLeafLayout.planned))
  disjoint : layout.leaves.Pairwise fun first second =>
    ∀ slot, first.Occupies slot → ¬second.Occupies slot
  covers : ∀ slot, slot < layout.scalarWidth ↔ ∃ leaf ∈ layout.leaves, leaf.Occupies slot
  rowMajor : ∀ leaf ∈ layout.leaves, leaf.tensor.RowMajor
  paths : (layout.leaves.map AggregateLeafLayout.storagePath).Nodup
  ids : layout.leaves.map AggregateLeafLayout.id = List.range layout.leaves.length

/-! ### Placing leaves -/

/-- Leaves that are placed from a slot on. -/
structure Placed (planned : List PayloadLeaf) (id start : Nat) (leaves : List AggregateLeafLayout)
    (scalarWidth : Nat) : Prop where
  planned : leaves.map AggregateLeafLayout.planned = planned
  disjoint : leaves.Pairwise fun first second => ∀ slot, first.Occupies slot → ¬second.Occupies slot
  covers : ∀ slot, start ≤ slot ∧ slot < scalarWidth ↔ ∃ leaf ∈ leaves, leaf.Occupies slot
  rowMajor : ∀ leaf ∈ leaves, leaf.tensor.RowMajor
  ids : leaves.map AggregateLeafLayout.id = List.range' id leaves.length
  start_le : start ≤ scalarWidth

variable {placed : List AggregateLeafLayout × Nat × PayloadType} {name : Name}
  {built later : Name → Option AggregateLayout} {platform : Platform} {progress : Progress}

theorem placeLeaves_placed {platform : Platform} {owner : TypedStruct} {planned : List PayloadLeaf}
    {id start scalarWidth : Nat} {leaves : List AggregateLeafLayout}
    (placed : placeLeaves platform owner planned id start = .ok (leaves, scalarWidth)) :
    Placed planned id start leaves scalarWidth := by
  induction planned generalizing id start leaves with
  | nil =>
    cases placed
    refine ⟨rfl, .nil, fun slot => ⟨fun inside => absurd (Nat.lt_of_le_of_lt inside.1 inside.2)
      (Nat.lt_irrefl _), ?_⟩, fun _ mem => absurd mem List.not_mem_nil, rfl, Nat.le_refl _⟩
    rintro ⟨leaf, mem, -⟩
    exact absurd mem List.not_mem_nil
  | cons leaf planned ih =>
    unfold placeLeaves at placed
    split at placed
    · cases placed
    rename_i tensor shaped
    split at placed
    · cases placed
    rename_i after added
    cases rest : placeLeaves platform owner planned (id + 1) after with
    | error error =>
      rw [rest] at placed
      cases placed
    | ok inner =>
      rw [rest] at placed
      obtain ⟨rfl, rfl⟩ := Prod.mk.inj (Except.ok.inj placed)
      obtain ⟨sameShape, rowMajor⟩ := AggregateTensorLayout.fromShape_rowMajor shaped
      have later := ih rest
      have afterEq : after = start + tensor.elementCount := by
        unfold Platform.checkedAdd at added
        split at added
        · exact (Option.some.inj added).symm
        · cases added
      have startLe := later.start_le
      refine ⟨?_, List.pairwise_cons.2 ⟨?_, later.disjoint⟩, fun slot => ?_,
        List.forall_mem_cons.2 ⟨rowMajor, later.rowMajor⟩, ?_, by omega⟩
      · rw [List.map_cons, later.planned, AggregateLeafLayout.planned]
        dsimp only
        rw [sameShape]
      · -- The leaves behind lie from the end of this leaf on.
        intro other mem slot here there
        have behind := ((later.covers slot).2 ⟨other, mem, there⟩).1
        have before : slot < start + tensor.elementCount := here.2
        omega
      · rw [List.exists_mem_cons_iff, ← later.covers slot]
        show start ≤ slot ∧ slot < inner.2
          ↔ (start ≤ slot ∧ slot < start + tensor.elementCount) ∨ after ≤ slot ∧ slot < inner.2
        omega
      · rw [List.map_cons, later.ids, List.length_cons, List.range'_succ]

/-! ### What the builder keeps -/

/-- The type of a field, where the structs that it names have `shapes`. -/
def FieldShaped (shapes : Name → Option PayloadType) (field : TypedStructField) (ty : PayloadType) :
    Prop :=
  match field.ty with
  | .scalar encoding => ty = .scalar encoding
  | .tuple elements => ty = .tuple (elements.map .scalar)
  | .struct => ∃ name, field.structName = some name ∧ shapes name = some ty
  | .array len =>
    (∃ encoding, field.arrayElemTy = some encoding ∧ field.arrayElemStruct = none
        ∧ ty = .array (.scalar encoding) len)
      ∨ ∃ name element, field.arrayElemStruct = some name ∧ shapes name = some element
        ∧ ty = .array element len

/-- The leaves of a field, where the structs that it names have `counts`. -/
def fieldLeaves (counts : Name → Nat) (field : TypedStructField) : Nat :=
  match field.ty with
  | .scalar _ => 1
  | .tuple elements => elements.length
  | .struct => (field.structName.map counts).getD 1
  | .array _ => (field.arrayElemStruct.map counts).getD 1

/-- How many leaves the structs have, as far as the limit lets them. -/
structure Counted (builder : LayoutBuilder) (counts : Name → Nat) : Prop where
  sum : ∀ name definition, builder.definitions name = some definition →
    counts name = ((aggregateFields definition).map (fieldLeaves counts)).sum
  limit : ∀ name definition, builder.definitions name = some definition →
    counts name ≤ MAX_AGGREGATE_LAYOUT_LEAVES

/-- The shapes of the layouts that are built. -/
def shapes (built : Name → Option AggregateLayout) (name : Name) : Option PayloadType :=
  (built name).map AggregateLayout.shape

/-- A layout of a declared struct: it is exact, and its fields have the shapes of the structs that
they name. -/
structure LayoutOf (builder : LayoutBuilder) (counts : Name → Nat)
    (built : Name → Option AggregateLayout) (name : Name) (layout : AggregateLayout) : Prop where
  exact : layout.Exact
  id : builder.ids name = some layout.id
  structName : layout.structName = name
  clean : Clean layout.shape
  count : layout.shape.leafCount = counts name
  shaped : ∃ definition fields, builder.definitions name = some definition
    ∧ layout.shape = .struct name fields
    ∧ List.Forall₂ (fun field entry => entry.1 = field.name ∧ FieldShaped (shapes built) field entry.2)
      (aggregateFields definition) fields

/-- Names lead to the definitions of these names. -/
structure LayoutBuilder.Valid (builder : LayoutBuilder) : Prop where
  name : ∀ name definition, builder.definitions name = some definition → definition.name = name
  mem : ∀ name, name ∈ builder.sortedNames ↔ ∃ definition, builder.definitions name = some definition

/-- A state of the builder inside of the structs `around`, with at least the layouts `known`. -/
structure Within (builder : LayoutBuilder) (counts : Name → Nat) (around : List Name)
    (known : Name → Option AggregateLayout) (progress : Progress) : Prop where
  stack : progress.stack = around
  visiting : ∀ name, progress.states name = some .visiting ↔ name ∈ around
  done : ∀ name, progress.states name = some .built ↔ ∃ layout, progress.built name = some layout
  grows : ∀ name layout, known name = some layout → progress.built name = some layout
  layouts : ∀ name layout, progress.built name = some layout →
    LayoutOf builder counts progress.built name layout

variable {builder : LayoutBuilder} {counts : Name → Nat} {around : List Name}
  {known : Name → Option AggregateLayout}

/-- No layout is known. -/
def nothing : Name → Option AggregateLayout := fun _ => none

theorem Within.restart (within : Within builder counts around known progress) :
    Within builder counts around progress.built progress :=
  { within with grows := fun _ _ same => same }

theorem Within.since {earlier : Name → Option AggregateLayout}
    (within : Within builder counts around known progress)
    (grows : ∀ name layout, earlier name = some layout → known name = some layout) :
    Within builder counts around earlier progress :=
  { within with grows := fun name layout same => within.grows name layout (grows name layout same) }

theorem Within.forget (within : Within builder counts around known progress) :
    Within builder counts around nothing progress :=
  within.since fun _ _ same => (by cases same)

/-- The builder reports an error, in a state that it has kept. -/
def Reports (builder : LayoutBuilder) (counts : Name → Nat) (around : List Name) (failure : Failure)
    (progress : Progress) : Prop :=
  (∃ error, failure = .error error) ∧ Within builder counts around nothing progress

theorem shapes_mono (grows : ∀ name layout, built name = some layout → later name = some layout)
    {ty : PayloadType} (same : shapes built name = some ty) : shapes later name = some ty := by
  obtain ⟨layout, here, rfl⟩ := Option.map_eq_some_iff.1 same
  rw [shapes, grows name layout here]
  rfl

theorem FieldShaped.mono {field : TypedStructField} {ty : PayloadType}
    (shaped : FieldShaped (shapes built) field ty)
    (grows : ∀ name layout, built name = some layout → later name = some layout) :
    FieldShaped (shapes later) field ty := by
  unfold FieldShaped at shaped ⊢
  cases kind : field.ty with
  | scalar encoding =>
    rw [kind] at shaped
    exact shaped
  | tuple elements =>
    rw [kind] at shaped
    exact shaped
  | struct =>
    rw [kind] at shaped
    obtain ⟨name, target, same⟩ := shaped
    exact ⟨name, target, shapes_mono grows same⟩
  | array len =>
    rw [kind] at shaped
    rcases shaped with primitive | ⟨name, element, target, same, rfl⟩
    · exact .inl primitive
    · exact .inr ⟨name, element, target, shapes_mono grows same, rfl⟩

theorem LayoutOf.mono {layout : AggregateLayout} (of : LayoutOf builder counts built name layout)
    (grows : ∀ name layout, built name = some layout → later name = some layout) :
    LayoutOf builder counts later name layout := by
  obtain ⟨definition, fields, declared, shape, each⟩ := of.shaped
  exact { of with shaped := ⟨definition, fields, declared, shape,
    each.imp fun _ _ both => ⟨both.1, both.2.mono grows⟩⟩ }

/-! ### Fields -/

/-- What is known of a type that is built for a field. -/
structure FieldBuilt (counts : Name → Nat) (built : Name → Option AggregateLayout)
    (field : TypedStructField) (ty : PayloadType) : Prop where
  shaped : FieldShaped (shapes built) field ty
  clean : Clean ty
  count : ty.leafCount = fieldLeaves counts field

theorem ids_eq_none : builder.ids name = none ↔ name ∉ builder.sortedNames := by
  unfold LayoutBuilder.ids
  split
  · rename_i contained
    exact ⟨fun same => (by cases same), fun outside => absurd (List.contains_iff_mem.1 contained) outside⟩
  · rename_i outside
    exact ⟨fun _ mem => outside (List.contains_iff_mem.2 mem), fun _ => rfl⟩

/-- What the fields need from the structs within. -/
def Resolves (builder : LayoutBuilder) (counts : Name → Nat) (around : List Name)
    (buildOne : Name → Build Unit) : Prop :=
  ∀ name ∈ builder.sortedNames, ∀ known, Holds (Within builder counts around known) (buildOne name)
    (fun _ progress => Within builder counts around known progress
      ∧ ∃ layout, progress.built name = some layout)
    (Reports builder counts around)

section Fields

variable {buildOne : Name → Build Unit} {owner : TypedStruct}
  (resolves : Resolves builder counts around buildOne)

include resolves

theorem nestedShape_holds (field : TypedStructField) (name : Name) :
    Holds (Within builder counts around known) (nestedShape builder buildOne owner field name)
      (fun ty progress => Within builder counts around known progress
        ∧ shapes progress.built name = some ty ∧ Clean ty ∧ ty.leafCount = counts name)
      (Reports builder counts around) := by
  refine Holds.bind
    (Q := fun _ progress => name ∈ builder.sortedNames ∧ Within builder counts around known progress)
    (Holds.refuseIf (fun found progress within => ⟨?_, within⟩)
      fun _ progress within => ⟨⟨_, rfl⟩, within.forget⟩) fun _ =>
        Holds.of_state fun progress here => ?_
  · by_contra outside
    exact found (ids_eq_none.2 outside)
  obtain ⟨listed, within⟩ := here
  refine ⟨_, within, Holds.bind (resolves name listed known) fun _ => Holds.bind
    (Q := fun built progress => built = progress.built name
      ∧ Within builder counts around known progress ∧ ∃ layout, progress.built name = some layout)
    (Holds.read fun progress both => ⟨rfl, both⟩) fun built => Holds.of_state fun progress here => ?_⟩
  obtain ⟨rfl, within, layout, resolved⟩ := here
  rw [resolved]
  have of := within.layouts name layout resolved
  refine ⟨fun state => state = progress, rfl, Holds.pure ?_⟩
  rintro state rfl
  refine ⟨within, ?_, of.clean, of.count⟩
  rw [shapes, resolved]
  rfl

theorem buildField_holds (field : TypedStructField) :
    Holds (Within builder counts around known) (buildField builder buildOne owner field)
      (fun ty progress => Within builder counts around known progress
        ∧ FieldBuilt counts progress.built field ty)
      (Reports builder counts around) := by
  have refuses : ∀ (refused : Prop) [Decidable refused] (reason : String),
      Holds (Within builder counts around known)
        (Call.refuseIf refused (malformed owner field reason))
        (fun _ => Within builder counts around known) (Reports builder counts around) :=
    fun refused _ reason => Holds.refuseIf (fun _ _ within => within)
      fun _ _ within => ⟨⟨_, rfl⟩, within.forget⟩
  have fails : ∀ {α : Type} (reason : String) (Q : α → Progress → Prop),
      Holds (Within builder counts around known) (Call.fail (malformed owner field reason)) Q
        (Reports builder counts around) :=
    fun reason Q => Holds.fail fun _ within => ⟨⟨_, rfl⟩, within.forget⟩
  unfold buildField
  cases kind : field.ty with
  | scalar encoding =>
    refine Holds.bind (refuses _ _) fun _ => Holds.pure fun progress within => ⟨within, ?_, .scalar _, ?_⟩
    · rw [FieldShaped, kind]
    · rw [fieldLeaves, kind, PayloadType.leafCount]
  | tuple elements =>
    refine Holds.bind (refuses _ _) fun _ => Holds.pure fun progress within => ⟨within, ?_, ?_, ?_⟩
    · rw [FieldShaped, kind]
    · refine .tuple fun element mem => ?_
      obtain ⟨encoding, -, rfl⟩ := List.mem_map.1 mem
      exact .scalar encoding
    · have each : PayloadType.leafCount ∘ PayloadType.scalar = fun _ => 1 := by
        funext encoding
        exact PayloadType.leafCount.eq_1 encoding
      rw [fieldLeaves, kind, PayloadType.leafCount, leafCountOfElements_eq, List.map_map, each,
        List.map_const', List.sum_replicate, Nat.nsmul_eq_mul, Nat.mul_one]
  | struct =>
    refine Holds.bind (refuses _ _) fun _ => ?_
    cases target : field.structName with
    | none => exact fails _ _
    | some name =>
      refine (nestedShape_holds resolves field name).imp (fun _ within => within) ?_
        fun _ _ reports => reports
      rintro ty progress ⟨within, shaped, clean, count⟩
      refine ⟨within, ?_, clean, ?_⟩
      · rw [FieldShaped, kind]
        exact ⟨name, target, shaped⟩
      · rw [fieldLeaves, kind, target, count]
        rfl
  | array len =>
    refine Holds.bind (refuses _ _) fun _ => Holds.bind
      (Q := fun element progress => Within builder counts around known progress
        ∧ FieldBuilt counts progress.built field (.array element len)) ?_
      fun element => Holds.pure fun _ both => both
    unfold buildElement
    cases primitive : field.arrayElemTy with
    | none =>
      cases target : field.arrayElemStruct with
      | none => exact fails _ _
      | some name =>
        refine (nestedShape_holds resolves field name).imp (fun _ within => within) ?_
          fun _ _ reports => reports
        rintro ty progress ⟨within, shaped, clean, count⟩
        refine ⟨within, ?_, .array clean, ?_⟩
        · rw [FieldShaped, kind]
          exact .inr ⟨name, ty, target, shaped, rfl⟩
        · rw [fieldLeaves, kind, target, PayloadType.leafCount, count]
          rfl
    | some encoding =>
      cases target : field.arrayElemStruct with
      | some name => exact fails _ _
      | none =>
        refine Holds.pure fun progress within => ⟨within, ?_, .array (.scalar _), ?_⟩
        · rw [FieldShaped, kind]
          exact .inl ⟨encoding, primitive, target, rfl⟩
        · rw [fieldLeaves, kind, target, PayloadType.leafCount, PayloadType.leafCount]
          rfl

/-- What is known of the fields of a struct. -/
structure FieldsBuilt (counts : Name → Nat) (built : Name → Option AggregateLayout)
    (fields : List TypedStructField) (types : List (Name × PayloadType)) : Prop where
  shaped : List.Forall₂
    (fun field entry => entry.1 = field.name ∧ FieldShaped (shapes built) field entry.2) fields types
  clean : ∀ entry ∈ types, Clean entry.2
  count : (types.map fun entry => entry.2.leafCount).sum = (fields.map (fieldLeaves counts)).sum

theorem buildShapes_holds (fields : List TypedStructField) (seen : List Name)
    (known : Name → Option AggregateLayout) :
    Holds (Within builder counts around known) (buildShapes builder buildOne owner seen fields)
      (fun types progress => Within builder counts around known progress
        ∧ FieldsBuilt counts progress.built fields types)
      (Reports builder counts around) := by
  induction fields generalizing seen known with
  | nil =>
    refine Holds.pure fun progress within => ⟨within, .nil, fun _ mem => absurd mem List.not_mem_nil, rfl⟩
  | cons field fields ih =>
    refine Holds.bind (Q := fun _ => Within builder counts around known)
      (Holds.refuseIf (fun _ _ within => within) fun _ _ within => ⟨⟨_, rfl⟩, within.forget⟩)
      fun _ => Holds.bind (buildField_holds resolves field) fun ty =>
        Holds.of_state fun progress here => ?_
    obtain ⟨within, first⟩ := here
    -- What is built for this field stays while the rest is built.
    refine ⟨_, within.restart, Holds.bind (ih (field.name :: seen) progress.built) fun rest =>
      Holds.pure fun later both => ?_⟩
    obtain ⟨after, others⟩ := both
    refine ⟨after.since within.grows, .cons ⟨rfl, first.shaped.mono after.grows⟩ others.shaped,
      List.forall_mem_cons.2 ⟨first.clean, others.clean⟩, ?_⟩
    rw [List.map_cons, List.sum_cons, List.map_cons, List.sum_cons, others.count, first.count]

/-- What is known of the fields of a struct that are placed. -/
structure StructBuilt (builder : LayoutBuilder) (counts : Name → Nat)
    (built : Name → Option AggregateLayout) (name : Name)
    (placed : List AggregateLeafLayout × Nat × PayloadType) : Prop where
  exact : ∀ id, AggregateLayout.Exact ⟨id, name, placed.1, placed.2.1, placed.2.2⟩
  clean : Clean placed.2.2
  count : placed.2.2.leafCount = counts name
  few : placed.1.length ≤ MAX_AGGREGATE_LAYOUT_LEAVES
  shaped : ∃ definition fields, builder.definitions name = some definition
    ∧ placed.2.2 = .struct name fields
    ∧ List.Forall₂ (fun field entry => entry.1 = field.name ∧ FieldShaped (shapes built) field entry.2)
      (aggregateFields definition) fields

omit resolves in
theorem FieldsBuilt.clean_struct {built : Name → Option AggregateLayout}
    {types : List (Name × PayloadType)} (fields : FieldsBuilt counts built (aggregateFields owner) types) :
    Clean (.struct owner.name types) := by
  refine .struct (fun entry mem => ?_) fields.clean
  obtain ⟨place, inside, rfl⟩ := List.mem_iff_getElem.1 mem
  have named := (List.forall₂_iff_get.1 fields.shaped).2 place
    (fields.shaped.length_eq ▸ inside) inside
  have listed := List.getElem_mem (fields.shaped.length_eq ▸ inside)
  have dotless := (List.mem_filter.1 listed).2
  rw [← List.contains_iff_mem, show types[place].1 = _ from named.1]
  simpa using dotless

omit resolves in
theorem plannedLeaves_holds {types : List (Name × PayloadType)} (clean : Clean (.struct owner.name types)) :
    Holds (Within builder counts around known) (plannedLeaves owner types)
      (fun planned progress => Within builder counts around known progress
        ∧ (types = [] ∧ planned = [] ∨ (PayloadType.struct owner.name types).leaves = some (some planned))
        ∧ (planned.map PayloadLeaf.path).Nodup
        ∧ planned.length = (PayloadType.struct owner.name types).leafCount)
      (Reports builder counts around) := by
  unfold plannedLeaves
  refine Holds.ite (fun erased => ?_) fun _ => ?_
  · subst erased
    exact Holds.pure fun progress within => ⟨within, .inl ⟨rfl, rfl⟩, .nil, by
      rw [PayloadType.leafCount, leafCountOfFields_eq]
      rfl⟩
  · obtain ⟨result, ran, planned⟩ := PayloadType.leaves_spec clean
    rw [ran]
    cases result with
    | none => exact Holds.fail fun progress within => ⟨⟨_, rfl⟩, within.forget⟩
    | some planned' => exact Holds.pure fun progress within => ⟨within, .inr rfl, planned.1, planned.2⟩

theorem buildFields_holds (platform : Platform) {name : Name} (valid : builder.Valid)
    (counted : Counted builder counts) (declared : builder.definitions name = some owner) :
    Holds (Within builder counts around known) (buildFields platform builder buildOne owner)
      (fun placed progress => Within builder counts around known progress
        ∧ StructBuilt builder counts progress.built name placed)
      (Reports builder counts around) := by
  have named := valid.name name owner declared
  refine Holds.bind (buildShapes_holds resolves (aggregateFields owner) [] known) fun types =>
    Holds.of_state fun progress here => ?_
  obtain ⟨within, fields⟩ := here
  refine ⟨_, within.restart, Holds.bind (plannedLeaves_holds fields.clean_struct) fun planned =>
    Holds.of_state fun next there => ?_⟩
  obtain ⟨after, leaves, distinct, many⟩ := there
  refine ⟨_, after.restart, Holds.bind (Q := fun placed state => Within builder counts around next.built state
    ∧ Placed planned 0 0 placed.1 placed.2) (Holds.lift ?_ ?_) fun placed => Holds.pure ?_⟩
  · intro placed same state inside
    refine ⟨inside, @placeLeaves_placed platform owner planned 0 0 placed.2 placed.1 ?_⟩
    cases run : placeLeaves platform owner planned 0 0 with
    | error error =>
      rw [run] at same
      cases same
    | ok result =>
      rw [run] at same
      exact congrArg Except.ok (Except.ok.inj same)
  · intro failure same state inside
    refine ⟨?_, inside.forget⟩
    cases run : placeLeaves platform owner planned 0 0 with
    | error error =>
      rw [run] at same
      exact ⟨error, (Except.error.inj same).symm⟩
    | ok result =>
      rw [run] at same
      cases same
  · rintro state ⟨last, filled⟩
    have grows : ∀ name layout, progress.built name = some layout → state.built name = some layout :=
      fun name layout same => last.grows name layout (after.grows name layout same)
    have count : (PayloadType.struct owner.name types).leafCount = counts name := by
      rw [PayloadType.leafCount, leafCountOfFields_eq, fields.count, counted.sum name owner declared]
    have length : placed.1.length = planned.length := by
      rw [← filled.planned, List.length_map]
    refine ⟨last.since fun name layout same => after.grows name layout (within.grows name layout same),
      fun id => ⟨?_, filled.disjoint, fun slot => ?_, filled.rowMajor, ?_, ?_⟩, fields.clean_struct, count,
      ?_, owner, types, declared, by rw [named], fields.shaped.imp fun _ _ both => ⟨both.1, both.2.mono grows⟩⟩
    · rcases leaves with ⟨rfl, rfl⟩ | leaves
      · exact .inl ⟨by rw [named], List.map_eq_nil_iff.1 filled.planned⟩
      · exact .inr (by rw [filled.planned]; exact leaves)
    · rw [← filled.covers slot]
      exact ⟨fun lt => ⟨Nat.zero_le _, lt⟩, fun both => both.2⟩
    · have same : placed.1.map AggregateLeafLayout.storagePath = planned.map PayloadLeaf.path := by
        rw [← filled.planned, List.map_map]
        rfl
      rw [same]
      exact distinct
    · rw [filled.ids, List.range_eq_range']
    · have limit := counted.limit name owner declared
      show placed.1.length ≤ _
      omega

end Fields

/-! ### Structs -/

theorem finish_eq (few : placed.1.length ≤ MAX_AGGREGATE_LAYOUT_LEAVES)
    (listed : name ∈ builder.sortedNames) :
    ∃ id, builder.ids name = some id ∧ finish builder name placed = Call.update fun progress =>
      { progress with
        states := Function.update progress.states name (some .built)
        built := Function.update progress.built name (some ⟨id, name, placed.1, placed.2.1, placed.2.2⟩) } := by
  have small : ¬u32Max + 1 < placed.1.length := by
    have : MAX_AGGREGATE_LAYOUT_LEAVES = 512 := rfl
    have : u32Max = 4294967295 := rfl
    omega
  cases found : builder.ids name with
  | none => exact absurd listed (ids_eq_none.1 found)
  | some id =>
    refine ⟨id, rfl, ?_⟩
    rw [finish, if_neg small, found]

/-- The builder enters a struct. -/
theorem Within.enter (within : Within builder counts around known progress)
    (fresh : progress.states name = none) :
    Within builder counts (around ++ [name]) known
      { progress with
        states := Function.update progress.states name (some .visiting)
        stack := progress.stack ++ [name] } := by
  refine ⟨by rw [within.stack], fun other => ?_, fun other => ?_, within.grows, within.layouts⟩
  · dsimp only
    rw [List.mem_append, List.mem_singleton, ← within.visiting other]
    by_cases same : other = name
    · subst same
      rw [Function.update_self]
      exact ⟨fun _ => .inr rfl, fun _ => rfl⟩
    · rw [Function.update_of_ne same]
      exact ⟨.inl, fun both => both.elim (fun inside => inside) fun here => absurd here same⟩
  · dsimp only
    rw [← within.done other]
    by_cases same : other = name
    · subst same
      rw [Function.update_self, fresh]
      exact ⟨fun absurd => (by cases absurd), fun absurd => (by cases absurd)⟩
    · rw [Function.update_of_ne same]

/-- The builder leaves a struct. -/
theorem Within.leave (within : Within builder counts (around ++ [name]) known progress)
    (fresh : name ∉ around) :
    Within builder counts around known
      { progress with
        states := Function.update progress.states name none
        stack := progress.stack.dropLast } := by
  have entered : progress.states name = some .visiting := (within.visiting name).2 (by simp)
  refine ⟨by rw [within.stack, List.dropLast_concat], fun other => ?_, fun other => ?_, within.grows,
    within.layouts⟩
  · dsimp only
    by_cases same : other = name
    · subst same
      rw [Function.update_self]
      exact ⟨fun absurd => (by cases absurd), fun mem => absurd mem fresh⟩
    · rw [Function.update_of_ne same, within.visiting other, List.mem_append, List.mem_singleton]
      exact ⟨fun both => both.elim (fun inside => inside) fun here => absurd here same, .inl⟩
  · dsimp only
    rw [← within.done other]
    by_cases same : other = name
    · subst same
      rw [Function.update_self, entered]
      exact ⟨fun absurd => (by cases absurd), fun absurd => (by cases absurd)⟩
    · rw [Function.update_of_ne same]

/-- The builder keeps the layout of the struct that it leaves. -/
theorem Within.keep {progress : Progress} {name : Name} {id : Nat}
    {placed : List AggregateLeafLayout × Nat × PayloadType}
    (within : Within builder counts (around ++ [name]) known progress) (fresh : name ∉ around)
    (found : builder.ids name = some id) (struct : StructBuilt builder counts progress.built name placed) :
    Within builder counts around known
      { progress with
        states := Function.update progress.states name (some .built)
        stack := progress.stack.dropLast
        built := Function.update progress.built name (some ⟨id, name, placed.1, placed.2.1, placed.2.2⟩) } := by
  have entered : progress.states name = some .visiting := (within.visiting name).2 (by simp)
  have unbuilt : ∀ layout, progress.built name ≠ some layout := by
    intro layout built
    rw [(within.done name).2 ⟨layout, built⟩] at entered
    cases entered
  have grows : ∀ other layout, progress.built other = some layout →
      Function.update progress.built name (some ⟨id, name, placed.1, placed.2.1, placed.2.2⟩) other
        = some layout := by
    intro other layout built
    rw [Function.update_of_ne]
    · exact built
    · rintro rfl
      exact unbuilt layout built
  refine ⟨by rw [within.stack, List.dropLast_concat], fun other => ?_, fun other => ?_,
    fun other layout same => grows other layout (within.grows other layout same),
    fun other layout built => ?_⟩
  · dsimp only
    by_cases same : other = name
    · subst same
      rw [Function.update_self]
      exact ⟨fun absurd => (by cases absurd), fun mem => absurd mem fresh⟩
    · rw [Function.update_of_ne same, within.visiting other, List.mem_append, List.mem_singleton]
      exact ⟨fun both => both.elim (fun inside => inside) fun here => absurd here same, .inl⟩
  · dsimp only
    by_cases same : other = name
    · subst same
      rw [Function.update_self, Function.update_self]
      exact ⟨fun _ => ⟨_, rfl⟩, fun _ => rfl⟩
    · rw [Function.update_of_ne same, Function.update_of_ne same]
      exact within.done other
  · dsimp only at built ⊢
    by_cases same : other = name
    · subst same
      rw [Function.update_self] at built
      obtain rfl := Option.some.inj built
      obtain ⟨definition, fields, declared, shape, each⟩ := struct.shaped
      exact ⟨struct.exact id, found, rfl, struct.clean, struct.count, definition, fields, declared, shape,
        each.imp fun _ _ both => ⟨both.1, both.2.mono grows⟩⟩
    · rw [Function.update_of_ne same] at built
      exact (within.layouts other layout built).mono grows

/-- **Structs.** The builder resolves a struct, or it reports an error. -/
theorem buildOne_holds (valid : builder.Valid) (counted : Counted builder counts) {fuel : Nat}
    (distinct : around.Nodup) (inside : ∀ name ∈ around, name ∈ builder.sortedNames)
    (enough : builder.sortedNames.length < fuel + around.length) :
    Resolves builder counts around (buildOne platform builder fuel) := by
  induction fuel generalizing around with
  | zero =>
    have few := (distinct.subperm inside).length_le
    omega
  | succ fuel ih =>
    intro name listed known progress within
    obtain ⟨definition, declared⟩ := (valid.mem name).1 listed
    unfold buildOne
    cases state : progress.states name with
    | some visit =>
      cases visit with
      | visiting =>
        refine ⟨fun value same => (by cases same), fun failure same => ?_⟩
        obtain rfl := Except.error.inj same
        exact ⟨⟨_, rfl⟩, within.forget⟩
      | built =>
        exact ⟨fun value same => ⟨within, (within.done name).1 state⟩, fun failure same => (by cases same)⟩
    | none =>
      have fresh : name ∉ around := by
        intro mem
        rw [(within.visiting name).2 mem] at state
        cases state
      have inner : Resolves builder counts (around ++ [name]) (buildOne platform builder fuel) := by
        refine ih ?_ ?_ ?_
        · exact List.nodup_append.2 ⟨distinct, List.nodup_singleton _, fun other mem last same => by
            rintro rfl
            exact fresh (List.mem_singleton.1 same ▸ mem)⟩
        · intro other mem
          rcases List.mem_append.1 mem with mem | mem
          · exact inside other mem
          · exact List.mem_singleton.1 mem ▸ listed
        · rw [List.length_append, List.length_singleton]
          omega
      obtain ⟨ok, failed⟩ := buildFields_holds inner platform valid counted declared _
        (within.enter state)
      rw [declared]
      dsimp only
      generalize run : buildFields platform builder (buildOne platform builder fuel) definition
        { progress with
          states := Function.update progress.states name (some .visiting)
          stack := progress.stack ++ [name] } = ended at ok failed
      obtain ⟨result, state'⟩ := ended
      cases result with
      | error failure =>
        obtain ⟨reported, kept⟩ := failed failure rfl
        refine ⟨fun value same => (by cases same), fun failure' same => ?_⟩
        obtain rfl := Except.error.inj same
        exact ⟨reported, kept.leave fresh⟩
      | ok placed =>
        obtain ⟨kept, struct⟩ := ok placed rfl
        obtain ⟨id, found, finished⟩ := finish_eq struct.few listed
        dsimp only
        rw [finished]
        refine ⟨fun value same => ⟨kept.keep fresh found struct, _, Function.update_self ..⟩,
          fun failure same => (by cases same)⟩

end Onda.Aggregates
