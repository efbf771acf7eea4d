import Onda.Aggregates.Exact
import Onda.Project.BufferCodec

/-!
# Tables of layouts

A table has the exact layouts of all structs, in the order of their names.  The order of the
declarations does not matter.
-/

namespace Onda.Aggregates

open Onda.Project (Platform decimal)

section Build

variable {builder : LayoutBuilder} {counts : Name → Nat} {platform : Platform}

/-- Names are resolved one after another. -/
theorem buildNames_spec {fuel : Nat} (resolves : Resolves builder counts [] (buildOne platform builder fuel))
    {names : List Name} (listed : ∀ name ∈ names, name ∈ builder.sortedNames)
    {known : Name → Option AggregateLayout} {progress : Progress}
    (within : Within builder counts [] known progress) :
    ∃ errors last, buildNames platform builder fuel names progress = .ok (errors, last)
      ∧ (errors = [] → Within builder counts [] known last
        ∧ ∀ name ∈ names, ∃ layout, last.built name = some layout) := by
  induction names generalizing known progress with
  | nil => exact ⟨[], progress, rfl, fun _ => ⟨within, fun _ mem => absurd mem List.not_mem_nil⟩⟩
  | cons name names ih =>
    obtain ⟨here, listed⟩ := List.forall_mem_cons.1 listed
    obtain ⟨ok, failed⟩ := resolves name here known progress within
    unfold buildNames
    generalize run : buildOne platform builder fuel name progress = ended at ok failed
    obtain ⟨result, next⟩ := ended
    cases result with
    | ok value =>
      obtain ⟨kept, layout, resolved⟩ := ok value rfl
      obtain ⟨errors, last, ran, complete⟩ := ih listed kept.restart
      refine ⟨errors, last, ran, fun none => ?_⟩
      obtain ⟨after, others⟩ := complete none
      exact ⟨after.since fun name layout same => kept.grows name layout same,
        List.forall_mem_cons.2 ⟨⟨layout, after.grows name layout resolved⟩, others⟩⟩
    | error failure =>
      obtain ⟨⟨error, rfl⟩, kept⟩ := failed failure rfl
      obtain ⟨errors, last, ran, -⟩ := ih listed kept
      refine ⟨error :: errors, last, ?_, fun none => (by cases none)⟩
      dsimp only
      rw [ran]
      rfl

/-- The layouts of a table: of each struct, in the order of the names. -/
def LayoutsOf (builder : LayoutBuilder) (counts : Name → Nat) (layouts : List AggregateLayout) : Prop :=
  ∃ built, (∀ name layout, built name = some layout → LayoutOf builder counts built name layout)
    ∧ List.Forall₂ (fun name layout => built name = some layout) builder.sortedNames layouts

theorem mapM_of_some {α β : Type} {f : α → Option β} {items : List α}
    (each : ∀ item ∈ items, ∃ value, f item = some value) :
    ∃ values, items.mapM f = some values ∧ List.Forall₂ (fun item value => f item = some value) items values := by
  induction items with
  | nil => exact ⟨[], rfl, .nil⟩
  | cons item items ih =>
    obtain ⟨⟨value, here⟩, each⟩ := List.forall_mem_cons.1 each
    obtain ⟨values, ran, all⟩ := ih each
    refine ⟨value :: values, ?_, .cons here all⟩
    rw [List.mapM_cons, here, ran]
    rfl

variable (platform) in
/-- **The builder.** It ends with errors or with the exact layouts of all structs. -/
theorem LayoutBuilder.build_spec (valid : builder.Valid) (counted : Counted builder counts) :
    ∃ result, builder.build platform = .ok result
      ∧ ∀ table, result = .ok table →
        LayoutsOf builder counts table.layouts ∧ table.idsByStructName = builder.ids := by
  have resolves : Resolves builder counts []
      (buildOne platform builder (builder.sortedNames.length + 1)) :=
    buildOne_holds valid counted .nil (fun _ mem => absurd mem List.not_mem_nil) (Nat.lt_succ_self _)
  have begins : Within builder counts [] nothing ⟨fun _ => none, [], fun _ => none⟩ :=
    ⟨rfl, fun name => ⟨fun absurd => (by cases absurd), fun mem => absurd mem List.not_mem_nil⟩,
      fun name => ⟨fun absurd => (by cases absurd), fun exists_ => (by obtain ⟨_, absurd⟩ := exists_; cases absurd)⟩,
      fun _ _ same => same, fun _ _ same => (by cases same)⟩
  obtain ⟨errors, last, ran, complete⟩ := buildNames_spec resolves (fun _ mem => mem) begins
  unfold LayoutBuilder.build
  rw [ran]
  dsimp only
  split
  · rename_i none
    obtain ⟨within, each⟩ := complete none
    obtain ⟨layouts, all, listed⟩ := mapM_of_some each
    rw [all]
    refine ⟨_, rfl, fun table same => ?_⟩
    obtain rfl := Except.ok.inj same
    exact ⟨⟨last.built, within.layouts, listed⟩, rfl⟩
  · exact ⟨_, rfl, fun table same => (by cases same)⟩

end Build

/-! ### Names -/

theorem duplicates_eq_nil {seen names : List Name} :
    duplicates seen names = [] ↔ names.Nodup ∧ ∀ name ∈ names, name ∉ seen := by
  induction names generalizing seen with
  | nil => exact ⟨fun _ => ⟨.nil, fun _ mem => absurd mem List.not_mem_nil⟩, fun _ => rfl⟩
  | cons name names ih =>
    unfold duplicates
    rw [List.nodup_cons, List.forall_mem_cons]
    split
    · rename_i again
      exact ⟨fun none => (by cases none), fun both =>
        absurd (List.contains_iff_mem.1 again) both.2.1⟩
    · rename_i fresh
      have fresh : name ∉ seen := fun mem => fresh (List.contains_iff_mem.2 mem)
      rw [ih]
      constructor
      · rintro ⟨distinct, outside⟩
        exact ⟨⟨fun mem => outside name mem List.mem_cons_self, distinct⟩, fresh, fun other mem before =>
          outside other mem (List.mem_cons_of_mem _ before)⟩
      · rintro ⟨⟨single, distinct⟩, -, outside⟩
        refine ⟨distinct, fun other mem before => ?_⟩
        rcases List.mem_cons.1 before with rfl | before
        · exact single mem
        · exact outside other mem before

section Names

variable {structs other : List TypedStruct} (distinct : (structs.map TypedStruct.name).Nodup)

include distinct

theorem index_unique {first second : Nat} {definition definition' : TypedStruct}
    (here : structs[first]? = some definition) (there : structs[second]? = some definition')
    (same : definition.name = definition'.name) : first = second := by
  have inside : first < (structs.map TypedStruct.name).length := by
    rw [List.length_map]
    exact (List.getElem?_eq_some_iff.1 here).1
  refine (List.getElem?_inj inside distinct).1 ?_
  rw [List.getElem?_map, List.getElem?_map, here, there, Option.map_some, Option.map_some, same]

theorem indexOf_eq_some {name : Name} {index : Nat} :
    indexOf structs name = some index
      ↔ ∃ definition, structs[index]? = some definition ∧ definition.name = name := by
  unfold indexOf
  constructor
  · intro found
    obtain ⟨entry, last, rfl⟩ := Option.map_eq_some_iff.1 found
    obtain ⟨mem, named⟩ := List.mem_filter.1 (List.mem_of_getLast? last)
    exact ⟨entry.1, List.mk_mem_zipIdx_iff_getElem?.1 mem, of_decide_eq_true named⟩
  · rintro ⟨definition, here, named⟩
    have mem : (definition, index) ∈ structs.zipIdx.filter fun entry => entry.1.name = name :=
      List.mem_filter.2 ⟨List.mk_mem_zipIdx_iff_getElem?.2 here, decide_eq_true named⟩
    cases last : (structs.zipIdx.filter fun entry => entry.1.name = name).getLast? with
    | none => exact absurd (List.getLast?_eq_none_iff.1 last ▸ mem) List.not_mem_nil
    | some entry =>
      obtain ⟨there, also⟩ := List.mem_filter.1 (List.mem_of_getLast? last)
      rw [Option.map_some]
      exact congrArg some (index_unique distinct (List.mk_mem_zipIdx_iff_getElem?.1 there) here
        ((of_decide_eq_true also).trans named.symm))

theorem find_eq_some {name : Name} {definition : TypedStruct} :
    (structs.find? fun definition => definition.name = name) = some definition
      ↔ definition ∈ structs ∧ definition.name = name := by
  constructor
  · intro found
    have named := List.find?_some found
    exact ⟨List.mem_of_find?_eq_some found, of_decide_eq_true named⟩
  · rintro ⟨mem, named⟩
    cases found : structs.find? fun definition => definition.name = name with
    | none => exact absurd (decide_eq_true named) (List.find?_eq_none.1 found definition mem)
    | some first =>
      have also := List.find?_some found
      have same : first.name = definition.name := (of_decide_eq_true also).trans named.symm
      exact congrArg some (List.inj_on_of_nodup_map distinct (List.mem_of_find?_eq_some found) mem same)

end Names

/-! ### Other orders -/

instance : Std.Total Before := ⟨fun left right => le_total (left.map UInt8.toNat) (right.map UInt8.toNat)⟩

instance : IsTrans Name Before :=
  ⟨fun first second _ lower upper =>
    le_trans (show first.map UInt8.toNat ≤ second.map UInt8.toNat from lower) upper⟩

instance : Std.Antisymm Before :=
  ⟨fun left right lower upper => List.map_injective_iff.2 (fun _ _ same => UInt8.toNat_inj.1 same)
    (le_antisymm (show left.map UInt8.toNat ≤ right.map UInt8.toNat from lower) upper)⟩

section Orders

variable {structs other : List TypedStruct}

/-- Where a struct of one order is in another one. -/
def placeIn (structs other : List TypedStruct) (index : Nat) : Nat :=
  (indexOf structs (nameOf other index)).getD structs.length

variable (distinct : (structs.map TypedStruct.name).Nodup) (reordered : structs.Perm other)

include distinct reordered

theorem placeIn_eq {index : Nat} {definition : TypedStruct} (here : other[index]? = some definition) :
    indexOf structs definition.name = some (placeIn structs other index)
      ∧ structs[placeIn structs other index]? = some definition := by
  obtain ⟨place, there⟩ := List.mem_iff_getElem?.1 (reordered.mem_iff.2 (List.mem_of_getElem? here))
  have found : indexOf structs definition.name = some place :=
    (indexOf_eq_some distinct).2 ⟨definition, there, rfl⟩
  have same : placeIn structs other index = place := by
    rw [placeIn, nameOf, here, Option.map_some, Option.getD_some, found, Option.getD_some]
  rw [same]
  exact ⟨found, there⟩

/-- A name is found in both orders. -/
theorem indexOf_perm (name : Name) :
    indexOf structs name = (indexOf other name).map (placeIn structs other) := by
  have distinctOther : (other.map TypedStruct.name).Nodup := (reordered.map _).nodup_iff.1 distinct
  cases found : indexOf other name with
  | some index =>
    obtain ⟨definition, here, rfl⟩ := (indexOf_eq_some distinctOther).1 found
    exact (placeIn_eq distinct reordered here).1
  | none =>
    cases there : indexOf structs name with
    | none => rfl
    | some place =>
      obtain ⟨definition, here, rfl⟩ := (indexOf_eq_some distinct).1 there
      obtain ⟨index, listed⟩ := List.mem_iff_getElem?.1 (reordered.mem_iff.1 (List.mem_of_getElem? here))
      rw [(indexOf_eq_some distinctOther).2 ⟨definition, listed, rfl⟩] at found
      cases found

theorem edges_placeIn {index : Nat} (inside : index < other.length) :
    edges structs (placeIn structs other index) = (edges other index).map (placeIn structs other) := by
  have here : other[index]? = some other[index] := List.getElem?_eq_getElem inside
  rw [edges, (placeIn_eq distinct reordered here).2, edges, here]
  dsimp only
  rw [List.map_filterMap]
  refine List.filterMap_congr fun field _ => ?_
  cases field.nested with
  | none => rfl
  | some name => exact indexOf_perm distinct reordered name

theorem arc_placeIn {first second : Nat} (arc : DepthFirst.Arc (edges other) first second) :
    DepthFirst.Arc (edges structs) (placeIn structs other first) (placeIn structs other second) := by
  have inside : first < other.length :=
    List.mem_range.1 (edges_ne_nil (List.ne_nil_of_mem (show second ∈ edges other first from arc)))
  show _ ∈ edges structs _
  rw [edges_placeIn distinct reordered inside]
  exact List.mem_map_of_mem arc

theorem structMetrics_placeIn (metrics : Nat → Nat × Nat) (definition : TypedStruct) :
    structMetrics other (· + ·) (fun index => metrics (placeIn structs other index)) definition
      = structMetrics structs (· + ·) metrics definition := by
  have nested : ∀ name, nestedMetrics other (fun index => metrics (placeIn structs other index)) name
      = nestedMetrics structs metrics name := by
    intro name
    unfold nestedMetrics
    cases name with
    | none => rfl
    | some name =>
      rw [Option.bind_some, Option.bind_some, indexOf_perm distinct reordered name]
      cases indexOf other name with
      | none => rfl
      | some index => rfl
  unfold structMetrics fieldMetrics
  simp only [nested]

/-- **Orders.** What is accepted in one order is accepted in each other one. -/
theorem Accepted.perm (accepted : Accepted structs) : Accepted other := by
  refine ⟨fun index around => ?_, fun index path chain => ?_, ?_⟩
  · exact accepted.acyclic _ (Relation.TransGen.lift (placeIn structs other)
      (fun _ _ arc => arc_placeIn distinct reordered arc) _ _ around)
  · rw [← List.length_map (placeIn structs other)]
    refine accepted.shallow (placeIn structs other index) _ ⟨?_, ?_⟩
    · exact List.isChain_map_of_isChain _ (fun _ _ arc => arc_placeIn distinct reordered arc) chain.1
    · rw [List.getLast?_map, chain.2, Option.map_some]
  · obtain ⟨metrics, measure, fits⟩ := accepted.fits
    have distinctOther : (other.map TypedStruct.name).Nodup := (reordered.map _).nodup_iff.1 distinct
    refine ⟨fun index => metrics (placeIn structs other index), ?_, ?_, ?_⟩
    · intro index definition here
      rw [structMetrics_placeIn distinct reordered]
      exact measure _ _ (placeIn_eq distinct reordered here).2
    · intro index mem
      have here := List.getElem?_eq_getElem (List.mem_range.1 mem)
      refine fits.leaves _ (List.mem_range.2 ?_)
      exact (List.getElem?_eq_some_iff.1 (placeIn_eq distinct reordered here).2).1
    · -- Both sums are over the structs.
      let nodes : TypedStruct → Nat := fun definition =>
        (metrics ((indexOf structs definition.name).getD structs.length)).1
      have one : (List.range structs.length).map (fun index => (metrics index).1) = structs.map nodes := by
        refine List.ext_getElem (by simp) fun index inside _ => ?_
        rw [List.length_map, List.length_range] at inside
        have found : indexOf structs structs[index].name = some index :=
          (indexOf_eq_some distinct).2 ⟨_, List.getElem?_eq_getElem inside, rfl⟩
        simp [nodes, found]
      have two : (List.range other.length).map (fun index => (metrics (placeIn structs other index)).1)
          = other.map nodes := by
        refine List.ext_getElem (by simp) fun index inside _ => ?_
        rw [List.length_map, List.length_range] at inside
        have found := (placeIn_eq distinct reordered (List.getElem?_eq_getElem inside)).1
        simp [nodes, found]
      rw [two, ← (reordered.map nodes).sum_eq, ← one]
      exact fits.nodes

theorem new_perm : LayoutBuilder.new other = LayoutBuilder.new structs := by
  have distinctOther : (other.map TypedStruct.name).Nodup := (reordered.map _).nodup_iff.1 distinct
  have single : duplicates [] (structs.map TypedStruct.name) = [] :=
    duplicates_eq_nil.2 ⟨distinct, fun _ _ => List.not_mem_nil⟩
  have singleOther : duplicates [] (other.map TypedStruct.name) = [] :=
    duplicates_eq_nil.2 ⟨distinctOther, fun _ _ => List.not_mem_nil⟩
  have definitions : ∀ name, (other.find? fun definition => definition.name = name)
      = structs.find? fun definition => definition.name = name := by
    intro name
    ext definition
    rw [find_eq_some distinct, find_eq_some distinctOther, reordered.mem_iff]
  have names : (other.map TypedStruct.name).insertionSort Before
      = (structs.map TypedStruct.name).insertionSort Before := by
    refine List.Perm.eq_of_pairwise' (List.pairwise_insertionSort Before _)
      (List.pairwise_insertionSort Before _) ?_
    exact (List.perm_insertionSort _ _).trans
      ((reordered.map _).symm.trans (List.perm_insertionSort _ _).symm)
  unfold LayoutBuilder.new
  rw [single, singleOther, names, reordered.length_eq]
  simp only [definitions]

end Orders

/-! ### The table -/

section Accepting

variable {structs : List TypedStruct}

/-- The leaves of the struct with a name, by a measure. -/
def countOf (structs : List TypedStruct) (metrics : Nat → Nat × Nat) (name : Name) : Nat :=
  (nestedMetrics structs metrics (some name)).2

theorem structMetrics_leaves (metrics : Nat → Nat × Nat) (definition : TypedStruct) :
    (structMetrics structs (· + ·) metrics definition).2
      = ((aggregateFields definition).map (fieldLeaves (countOf structs metrics))).sum := by
  have each : ∀ field, (fieldMetrics structs (· + ·) metrics field).2
      = fieldLeaves (countOf structs metrics) field := by
    intro field
    have nested : ∀ name, (nestedMetrics structs metrics name).2
        = (name.map (countOf structs metrics)).getD 1 := by
      intro name
      cases name with
      | none => rfl
      | some name => rfl
    unfold fieldMetrics fieldLeaves
    cases field.ty with
    | scalar => rfl
    | tuple => rfl
    | struct => exact nested _
    | array => exact nested _
  have fold : ∀ (fields : List TypedStructField) (counts : Nat × Nat),
      (fields.foldl (fun counts field =>
        (counts.1 + (fieldMetrics structs (· + ·) metrics field).1,
          counts.2 + (fieldMetrics structs (· + ·) metrics field).2)) counts).2
        = counts.2 + (fields.map (fieldLeaves (countOf structs metrics))).sum := by
    intro fields
    induction fields with
    | nil => exact fun counts => (Nat.add_zero _).symm
    | cons field fields ih =>
      intro counts
      rw [List.foldl_cons, ih, List.map_cons, List.sum_cons, each field, Nat.add_assoc]
  unfold structMetrics
  rw [fold, Nat.zero_add]

theorem new_ok {builder : LayoutBuilder} (new : LayoutBuilder.new structs = .ok builder) :
    (structs.map TypedStruct.name).Nodup
      ∧ builder = ⟨fun name => structs.find? fun definition => definition.name = name,
        (structs.map TypedStruct.name).insertionSort Before⟩ := by
  unfold LayoutBuilder.new at new
  split at new
  · cases new
  split at new
  · cases new
  rename_i single
  exact ⟨(duplicates_eq_nil.1 (not_not.1 single)).1, (Except.ok.inj new).symm⟩

/-- What the builder looks up. -/
theorem new_lookup {builder : LayoutBuilder} (new : LayoutBuilder.new structs = .ok builder) :
    (∀ name definition, builder.definitions name = some definition
        ↔ definition ∈ structs ∧ definition.name = name)
      ∧ ∀ name, name ∈ builder.sortedNames ↔ name ∈ structs.map TypedStruct.name := by
  obtain ⟨distinct, rfl⟩ := new_ok new
  exact ⟨fun name definition => find_eq_some distinct,
    fun name => (List.perm_insertionSort Before _).mem_iff⟩

/-- Where validation accepts, the builder has the counts of the measure. -/
theorem counted_of_accepted (accepted : Accepted structs) {builder : LayoutBuilder}
    (new : LayoutBuilder.new structs = .ok builder) :
    builder.Valid ∧ ∃ counts, Counted builder counts := by
  have distinct := (new_ok new).1
  obtain ⟨definitions, names⟩ := new_lookup new
  obtain ⟨metrics, measure, fits⟩ := accepted.fits
  have here : ∀ name definition, builder.definitions name = some definition →
      ∃ index, structs[index]? = some definition ∧ countOf structs metrics name = (metrics index).2 := by
    intro name definition declared
    obtain ⟨mem, rfl⟩ := (definitions name definition).1 declared
    obtain ⟨index, there⟩ := List.mem_iff_getElem?.1 mem
    refine ⟨index, there, ?_⟩
    rw [countOf, nestedMetrics, Option.bind_some, (indexOf_eq_some distinct).2 ⟨definition, there, rfl⟩]
  refine ⟨⟨fun name definition declared => ((definitions name definition).1 declared).2, fun name => ?_⟩,
    countOf structs metrics, fun name definition declared => ?_, fun name definition declared => ?_⟩
  · rw [names, List.mem_map]
    simp only [definitions]
  · obtain ⟨index, there, same⟩ := here name definition declared
    rw [same, measure index definition there]
    exact structMetrics_leaves metrics definition
  · obtain ⟨index, there, same⟩ := here name definition declared
    rw [same]
    exact fits.leaves index (List.mem_range.2 (List.getElem?_eq_some_iff.1 there).1)

/-- A table of exact layouts: of each struct, with the shapes of the structs that its fields name. -/
structure AggregateLayoutTable.Exact (table : AggregateLayoutTable) (structs : List TypedStruct) : Prop where
  exact : ∀ layout ∈ table.layouts, layout.Exact
  complete : ∃ built : Name → Option AggregateLayout, ∀ definition ∈ structs,
    ∃ layout ∈ table.layouts, built definition.name = some layout
      ∧ layout.structName = definition.name
      ∧ table.idsByStructName definition.name = some layout.id
      ∧ ∃ fields, layout.shape = .struct definition.name fields
        ∧ List.Forall₂
          (fun field entry => entry.1 = field.name ∧ FieldShaped (shapes built) field entry.2)
          (aggregateFields definition) fields

end Accepting

/-- **Aggregates.** Validation ends, and it accepts exactly what is within the limits.  The builder
ends, and a table that it builds is exact and is built from each order of the declarations. -/
theorem aggregate_layouts_exact (platform : Platform) (structs : List TypedStruct) :
    (∃ result, validateAggregateStructure structs platform = some result
        ∧ (result = .ok () ↔ Accepted structs))
      ∧ ∃ result, AggregateLayoutTable.build platform structs = .ok result
        ∧ ∀ table, result = .ok table → Accepted structs ∧ table.Exact structs
          ∧ ∀ other, structs.Perm other → AggregateLayoutTable.build platform other = .ok (.ok table) := by
  refine ⟨validate_exact structs platform, ?_⟩
  obtain ⟨result, ran, accepts⟩ := validate_exact structs platform
  cases result with
  | error error =>
    refine ⟨.error [error], ?_, fun table same => (by cases same)⟩
    rw [AggregateLayoutTable.build, ran]
  | ok value =>
    cases value
    have accepted := accepts.1 rfl
    cases new : LayoutBuilder.new structs with
    | error errors =>
      refine ⟨.error errors, ?_, fun table same => (by cases same)⟩
      simp only [AggregateLayoutTable.build, ran, new]
    | ok builder =>
      obtain ⟨valid, counts, counted⟩ := counted_of_accepted accepted new
      obtain ⟨definitions, names⟩ := new_lookup new
      obtain ⟨result, built, tables⟩ := LayoutBuilder.build_spec platform valid counted
      refine ⟨result, ?_, fun table same => ⟨accepted, ?_, ?_⟩⟩
      · simp only [AggregateLayoutTable.build, ran, new]
        exact built
      · obtain ⟨⟨layouts, each, listed⟩, ids⟩ := tables table same
        refine ⟨fun layout mem => ?_, layouts, fun definition mem => ?_⟩
        · obtain ⟨place, inside, rfl⟩ := List.mem_iff_getElem.1 mem
          have here := (List.forall₂_iff_get.1 listed).2 place (listed.length_eq ▸ inside) inside
          exact (each _ _ here).exact
        · have listedName : definition.name ∈ builder.sortedNames :=
            (names definition.name).2 (List.mem_map_of_mem mem)
          obtain ⟨place, inside, named⟩ := List.mem_iff_getElem.1 listedName
          have here := (List.forall₂_iff_get.1 listed).2 place inside (listed.length_eq ▸ inside)
          have here : layouts builder.sortedNames[place] = some _ := here
          rw [named] at here
          have of := each _ _ here
          refine ⟨_, List.getElem_mem (listed.length_eq ▸ inside), here, of.structName, ids ▸ of.id, ?_⟩
          obtain ⟨definition', fields, declared, shape, shaped⟩ := of.shaped
          rw [(definitions _ definition).2 ⟨mem, rfl⟩] at declared
          obtain rfl := Option.some.inj declared
          exact ⟨fields, shape, shaped⟩
      · intro other reordered
        have distinct := (new_ok new).1
        obtain ⟨resultOther, ranOther, acceptsOther⟩ := validate_exact other platform
        obtain rfl := acceptsOther.2 (accepted.perm distinct reordered)
        rw [AggregateLayoutTable.build, ranOther]
        dsimp only
        rw [new_perm distinct reordered, new]
        dsimp only
        rw [built, same]

/-- The limits for each struct by itself. -/
structure EachWithin (structs : List TypedStruct) : Prop where
  acyclic : Acyclic structs
  shallow : ∀ index path, Layers.ChainTo (edges structs) index path →
    path.length ≤ MAX_AGGREGATE_NESTING
  fits : ∃ metrics, IsMeasure structs metrics ∧ ∀ index < structs.length,
    (metrics index).1 ≤ MAX_AGGREGATE_LAYOUT_NODES ∧ (metrics index).2 ≤ MAX_AGGREGATE_LAYOUT_LEAVES

/-- A struct with a tuple of 511 elements. -/
def wide (number : Nat) : TypedStruct :=
  ⟨83 :: decimal number, [⟨[97], .tuple (List.replicate 511 .f32), none, none, none⟩]⟩

/-- A program with 128 of them. -/
def manyWide : List TypedStruct := (List.range 128).map wide

theorem manyWide_metrics (metrics : Nat → Nat × Nat) {index : Nat} {definition : TypedStruct}
    (here : manyWide[index]? = some definition) :
    structMetrics manyWide (· + ·) metrics definition = (513, 511) := by
  obtain ⟨number, -, rfl⟩ := List.mem_map.1 (List.mem_of_getElem? here)
  have fields : aggregateFields (wide number) = [⟨[97], .tuple (List.replicate 511 .f32), none, none, none⟩] :=
    rfl
  rw [structMetrics, fields, List.foldl_cons, List.foldl_nil, fieldMetrics]
  dsimp only
  rw [List.length_replicate]

theorem edges_manyWide (index : Nat) : edges manyWide index = [] := by
  unfold edges
  split
  · rfl
  · rename_i definition here
    obtain ⟨number, -, rfl⟩ := List.mem_map.1 (List.mem_of_getElem? here)
    rfl

theorem not_arc_manyWide {first second : Nat} : ¬DepthFirst.Arc (edges manyWide) first second := by
  intro arc
  have mem : second ∈ edges manyWide first := arc
  rw [edges_manyWide] at mem
  exact List.not_mem_nil mem

theorem length_manyWide : manyWide.length = 128 := by
  rw [manyWide, List.length_map, List.length_range]

/-- Each of the structs is within the limits, and validation rejects them all together. -/
theorem shared_node_limit :
    EachWithin manyWide
      ∧ validateAggregateStructure manyWide Project.Platform.ascii64 ≠ some (.ok ()) := by
  refine ⟨⟨fun index around => ?_, fun index path chain => ?_, fun _ => (513, 511), ?_, ?_⟩, ?_⟩
  · cases around with
    | single arc => exact not_arc_manyWide arc
    | tail _ arc => exact not_arc_manyWide arc
  · match path, chain.1 with
    | [], _ => exact Nat.zero_le _
    | [_], _ => exact (show 1 ≤ 256 by decide)
    | _ :: _ :: _, .cons_cons arc _ => exact absurd arc not_arc_manyWide
  · intro index definition here
    exact (manyWide_metrics _ here).symm
  · exact fun _ _ => ⟨show 513 ≤ MAX_AGGREGATE_LAYOUT_NODES by decide,
      show 511 ≤ MAX_AGGREGATE_LAYOUT_LEAVES by decide⟩
  · intro accepted
    obtain ⟨result, ran, accepts⟩ := validate_exact manyWide Project.Platform.ascii64
    obtain rfl := Option.some.inj (ran.symm.trans accepted)
    obtain ⟨metrics, measure, fits⟩ := (accepts.1 rfl).fits
    have same : (List.range manyWide.length).map (fun index => (metrics index).1)
        = List.replicate 128 513 := by
      refine List.eq_replicate_iff.2 ⟨by rw [List.length_map, List.length_range, length_manyWide], ?_⟩
      intro nodes mem
      obtain ⟨index, inside, rfl⟩ := List.mem_map.1 mem
      have here := List.getElem?_eq_getElem (List.mem_range.1 inside)
      rw [measure index _ here, manyWide_metrics metrics here]
    have total := fits.nodes
    have sum : ∀ count, (List.replicate count 513).sum = count * 513 := fun count => by simp
    rw [same, sum, Nat.zero_add] at total
    have limit : MAX_AGGREGATE_LAYOUT_NODES = 65536 := rfl
    omega

end Onda.Aggregates
