import Mathlib.Algebra.Ring.Nat
import Onda.Frontend.Expr
import Onda.Lib.Layers
import Onda.Project.Types

/-!
# Aggregate declarations

The structs of a program name each other.  Validation bounds how deeply and how widely they expand
before anything materializes their paths.
-/

namespace Onda.Aggregates

open DepthFirst (Arc Ends)
open Onda.Frontend (PrimitiveType)
open Onda.Project (Platform)

/-- The bytes of a name. -/
abbrev Name := List UInt8

/-- `TypedFieldType`. -/
inductive TypedFieldType where
  | scalar (ty : PrimitiveType)
  | struct
  | array (len : Nat)
  | tuple (elements : List PrimitiveType)
deriving DecidableEq

/-- `TypedStructField`. -/
structure TypedStructField where
  name : Name
  ty : TypedFieldType
  structName : Option Name
  arrayElemTy : Option PrimitiveType
  arrayElemStruct : Option Name
deriving DecidableEq

/-- `TypedStruct`. -/
structure TypedStruct where
  name : Name
  fields : List TypedStructField
deriving DecidableEq

/-- `AggregateLayoutError`. -/
inductive AggregateLayoutError where
  | duplicateStruct (structName : Name)
  | tooManyLayouts (count : Nat)
  | layoutsTooLarge (structName : Name) (count maximum : Nat)
  | layoutTooWide (structName : Name) (count maximum : Nat)
  | duplicateField (structName fieldName : Name)
  | unknownStruct (structName fieldPath referencedStruct : Name)
  | recursiveAggregate (cycle : List Name)
  | nestingTooDeep (structName : Name) (depth maximum : Nat)
  | malformedField (structName fieldName : Name) (reason : String)
  | sizeOverflow (structName fieldPath : Name) (shape : List Nat)
deriving DecidableEq

def MAX_AGGREGATE_NESTING : Nat := 256

def MAX_AGGREGATE_LAYOUT_NODES : Nat := 1 <<< 16

/-- `onda_mir::MAX_FUNCTION_PARAMETER_COUNT`. -/
def MAX_FUNCTION_PARAMETER_COUNT : Nat := 1024

def MAX_AGGREGATE_LAYOUT_LEAVES : Nat := MAX_FUNCTION_PARAMETER_COUNT / 2

/-- The byte `.`. -/
def dot : UInt8 := 46

/-- `aggregate_fields`: dotted names are access paths that are already flattened. -/
def aggregateFields (definition : TypedStruct) : List TypedStructField :=
  definition.fields.filter fun field => !field.name.contains dot

/-- `usize::saturating_add`. -/
def saturatingAdd (platform : Platform) (left right : Nat) : Nat :=
  min (left + right) platform.usizeMax

/-- The struct that a field contains, itself or as the element of its array. -/
def TypedStructField.nested (field : TypedStructField) : Option Name :=
  match field.ty with
  | .struct => field.structName
  | .array _ => field.arrayElemStruct
  | .scalar _ | .tuple _ => none

section Validation

variable (structs : List TypedStruct)

/-- `indices`: of two structs with one name, the later. -/
def indexOf (name : Name) : Option Nat :=
  ((structs.zipIdx.filter fun entry => entry.1.name = name).getLast?).map fun entry => entry.2

/-- The structs that a struct contains, once for each field. -/
def edges (index : Nat) : List Nat :=
  match structs[index]? with
  | none => []
  | some definition =>
    (aggregateFields definition).filterMap fun field => field.nested.bind (indexOf structs)

def nameOf (index : Nat) : Name := ((structs[index]?).map TypedStruct.name).getD []

/-- `nested_metrics`: the nodes and leaves of a struct.  A struct that is not declared is one node. -/
def nestedMetrics (metrics : Nat → Nat × Nat) (name : Option Name) : Nat × Nat :=
  match name.bind (indexOf structs) with
  | none => (1, 1)
  | some index => metrics index

/-- The nodes and leaves of a field, with the addition `add`. -/
def fieldMetrics (add : Nat → Nat → Nat) (metrics : Nat → Nat × Nat) (field : TypedStructField) :
    Nat × Nat :=
  match field.ty with
  | .scalar _ => (1, 1)
  | .tuple elements => (add 1 elements.length, elements.length)
  | .struct => nestedMetrics structs metrics field.structName
  | .array _ =>
    (add 1 (nestedMetrics structs metrics field.arrayElemStruct).1,
      (nestedMetrics structs metrics field.arrayElemStruct).2)

/-- The nodes and leaves of a struct. -/
def structMetrics (add : Nat → Nat → Nat) (metrics : Nat → Nat × Nat) (definition : TypedStruct) :
    Nat × Nat :=
  (aggregateFields definition).foldl
    (fun counts field =>
      (add counts.1 (fieldMetrics structs add metrics field).1,
        add counts.2 (fieldMetrics structs add metrics field).2))
    (1, 0)

variable (platform : Platform)

/-- The loop over the structs from the inside out: what they expand to and all nodes so far. -/
def countShapes : List Nat → (Nat → Nat × Nat) → Nat → Except AggregateLayoutError Unit
  | [], _, _ => .ok ()
  | current :: rest, metrics, totalNodes =>
    let counts := ((structs[current]?).map (structMetrics structs (saturatingAdd platform) metrics)).getD
      (1, 0)
    if MAX_AGGREGATE_LAYOUT_LEAVES < counts.2 then
      .error (.layoutTooWide (nameOf structs current) counts.2 MAX_AGGREGATE_LAYOUT_LEAVES)
    else
      let totalNodes := saturatingAdd platform totalNodes counts.1
      if MAX_AGGREGATE_LAYOUT_NODES < totalNodes then
        .error (.layoutsTooLarge (nameOf structs current) totalNodes MAX_AGGREGATE_LAYOUT_NODES)
      else countShapes rest (Function.update metrics current counts) totalNodes

/-- `validate_aggregate_structure`: `none` if a loop were out of fuel. -/
def validateAggregateStructure : Option (Except AggregateLayoutError Unit) :=
  let pool := List.range structs.length
  match DepthFirst.searchAll (edges structs) (DepthFirst.enoughFuel (edges structs) pool) pool
      fun _ => .fresh with
  | none => none
  | some (.error cycle) => some (.error (.recursiveAggregate (cycle.map (nameOf structs))))
  | some (.ok ()) =>
    match Layers.sort (edges structs) MAX_AGGREGATE_NESTING pool with
    | none => none
    | some (.error deep) =>
      some (.error (.nestingTooDeep (nameOf structs deep.1) deep.2 MAX_AGGREGATE_NESTING))
    | some (.ok topological) => some (countShapes structs platform topological.reverse (fun _ => (0, 0)) 0)

end Validation

/-! ### What validation accepts -/

section Exact

variable (structs : List TypedStruct)

/-- The nodes and leaves of all structs, as unbounded integers. -/
def IsMeasure (metrics : Nat → Nat × Nat) : Prop :=
  ∀ index definition, structs[index]? = some definition →
    metrics index = structMetrics structs (· + ·) metrics definition

/-- No struct contains itself. -/
def Acyclic : Prop := ∀ index, ¬Relation.TransGen (Arc (edges structs)) index index

variable {structs}

theorem indexOf_lt {name : Name} {index : Nat} (found : indexOf structs name = some index) :
    index < structs.length := by
  obtain ⟨entry, last, rfl⟩ := Option.map_eq_some_iff.1 found
  have mem := List.mem_of_mem_filter (List.mem_of_getLast? last)
  simpa using List.snd_lt_of_mem_zipIdx mem

theorem edges_subset (index : Nat) : edges structs index ⊆ List.range structs.length := by
  intro nested mem
  unfold edges at mem
  split at mem
  · cases mem
  · obtain ⟨field, -, found⟩ := List.mem_filterMap.1 mem
    obtain ⟨name, -, found⟩ := Option.bind_eq_some_iff.1 found
    exact List.mem_range.2 (indexOf_lt found)

theorem edges_ne_nil {index : Nat} (some : edges structs index ≠ []) :
    index ∈ List.range structs.length := by
  by_contra outside
  refine some ?_
  rw [List.mem_range, Nat.not_lt] at outside
  rw [edges, List.getElem?_eq_none outside]

/-- The metrics of a struct depend on the structs that it contains. -/
theorem structMetrics_congr (add : Nat → Nat → Nat) {metrics other : Nat → Nat × Nat} {index : Nat}
    {definition : TypedStruct} (declared : structs[index]? = some definition)
    (same : ∀ nested ∈ edges structs index, metrics nested = other nested) :
    structMetrics structs add metrics definition = structMetrics structs add other definition := by
  have nested : ∀ field ∈ aggregateFields definition,
      nestedMetrics structs metrics field.nested = nestedMetrics structs other field.nested := by
    intro field mem
    unfold nestedMetrics
    cases found : field.nested.bind (indexOf structs) with
    | none => rfl
    | some nested =>
      refine same nested ?_
      rw [edges, declared]
      exact List.mem_filterMap.2 ⟨field, mem, found⟩
  have each : ∀ field ∈ aggregateFields definition,
      fieldMetrics structs add metrics field = fieldMetrics structs add other field := by
    intro field mem
    have here := nested field mem
    unfold TypedStructField.nested at here
    unfold fieldMetrics
    cases ty : field.ty with
    | scalar => rfl
    | tuple => rfl
    | struct =>
      rw [ty] at here
      exact here
    | array =>
      rw [ty] at here
      dsimp only at here ⊢
      rw [here]
  unfold structMetrics
  refine List.foldl_ext _ _ _ fun counts field mem => ?_
  rw [each field mem]

/-- An acyclic program has a measure. -/
theorem exists_measure (acyclic : ∀ index, Ends (edges structs) index) :
    ∃ metrics, IsMeasure structs metrics := by
  have wellFounded : WellFounded fun nested index => Arc (edges structs) index nested := ⟨acyclic⟩
  let measure : Nat → Nat × Nat := wellFounded.fix fun index below =>
    match structs[index]? with
    | none => (1, 0)
    | some definition =>
      structMetrics structs (· + ·)
        (fun nested => if arc : nested ∈ edges structs index then below nested arc else (0, 0))
        definition
  refine ⟨measure, fun index definition declared => ?_⟩
  show wellFounded.fix _ index = _
  rw [wellFounded.fix_eq]
  dsimp only
  rw [declared]
  dsimp only
  refine structMetrics_congr _ declared fun nested mem => ?_
  rw [dif_pos mem]

/-- There is one measure. -/
theorem IsMeasure.unique {metrics other : Nat → Nat × Nat} (first : IsMeasure structs metrics)
    (second : IsMeasure structs other) (acyclic : ∀ index, Ends (edges structs) index) {index : Nat}
    (inside : index < structs.length) : metrics index = other index := by
  induction acyclic index with
  | intro index _ ih =>
    obtain ⟨definition, declared⟩ : ∃ definition, structs[index]? = some definition :=
      ⟨_, List.getElem?_eq_getElem inside⟩
    rw [first index definition declared, second index definition declared]
    exact structMetrics_congr _ declared fun nested mem =>
      ih nested mem (List.mem_range.1 (edges_subset index mem))

/-- Saturation at the end or at each step is the same. -/
theorem structMetrics_saturates (platform : Platform) (metrics : Nat → Nat × Nat)
    (definition : TypedStruct) :
    (structMetrics structs (saturatingAdd platform) metrics definition).1
        = min (structMetrics structs (· + ·) metrics definition).1 platform.usizeMax
      ∧ (structMetrics structs (saturatingAdd platform) metrics definition).2
        = min (structMetrics structs (· + ·) metrics definition).2 platform.usizeMax := by
  have each : ∀ field : TypedStructField,
      min (fieldMetrics structs (saturatingAdd platform) metrics field).1 platform.usizeMax
          = min (fieldMetrics structs (· + ·) metrics field).1 platform.usizeMax
        ∧ (fieldMetrics structs (saturatingAdd platform) metrics field).2
          = (fieldMetrics structs (· + ·) metrics field).2 := by
    intro field
    unfold fieldMetrics saturatingAdd
    cases field.ty with
    | scalar => exact ⟨rfl, rfl⟩
    | tuple => exact ⟨min_eq_left (Nat.min_le_right _ _), rfl⟩
    | struct => exact ⟨rfl, rfl⟩
    | array => exact ⟨min_eq_left (Nat.min_le_right _ _), rfl⟩
  have fold : ∀ (fields : List TypedStructField) (nodes leaves : Nat),
      (fields.foldl (fun counts field =>
          (saturatingAdd platform counts.1 (fieldMetrics structs (saturatingAdd platform) metrics field).1,
            saturatingAdd platform counts.2
              (fieldMetrics structs (saturatingAdd platform) metrics field).2))
          (min nodes platform.usizeMax, min leaves platform.usizeMax))
        = (min (fields.foldl (fun counts field =>
            (counts.1 + (fieldMetrics structs (· + ·) metrics field).1,
              counts.2 + (fieldMetrics structs (· + ·) metrics field).2)) (nodes, leaves)).1
            platform.usizeMax,
          min (fields.foldl (fun counts field =>
            (counts.1 + (fieldMetrics structs (· + ·) metrics field).1,
              counts.2 + (fieldMetrics structs (· + ·) metrics field).2)) (nodes, leaves)).2
            platform.usizeMax) := by
    intro fields
    induction fields with
    | nil => exact fun _ _ => rfl
    | cons field fields ih =>
      intro nodes leaves
      obtain ⟨same, leavesSame⟩ := each field
      rw [List.foldl_cons, List.foldl_cons, ← ih]
      congr 1
      refine Prod.ext ?_ ?_
      · show saturatingAdd platform (min nodes platform.usizeMax) _ = min (nodes + _) platform.usizeMax
        generalize (fieldMetrics structs (saturatingAdd platform) metrics field).1 = added at same ⊢
        unfold saturatingAdd
        omega
      · show saturatingAdd platform (min leaves platform.usizeMax) _ = min (leaves + _) platform.usizeMax
        rw [leavesSame]
        unfold saturatingAdd
        omega
  have least : 1 ≤ platform.usizeMax := by
    have := platform.u32_le_usize
    omega
  have all := fold (aggregateFields definition) 1 0
  rw [Nat.min_eq_left least, Nat.zero_min] at all
  unfold structMetrics
  rw [all]
  exact ⟨rfl, rfl⟩

/-- The limits on what structs expand to. -/
structure Fits (metrics : Nat → Nat × Nat) (indices : List Nat) (before : Nat) : Prop where
  leaves : ∀ index ∈ indices, (metrics index).2 ≤ MAX_AGGREGATE_LAYOUT_LEAVES
  nodes : before + (indices.map fun index => (metrics index).1).sum ≤ MAX_AGGREGATE_LAYOUT_NODES

/-- **Counting.** The counts of a row of structs, each behind the structs that it contains. -/
theorem countShapes_iff (platform : Platform) {measured : Nat → Nat × Nat}
    (measure : IsMeasure structs measured) {indices : List Nat} {metrics : Nat → Nat × Nat}
    {totalNodes : Nat} (inside : ∀ index ∈ indices, index < structs.length)
    (order : indices.Pairwise fun index later => ¬Arc (edges structs) index later)
    (loops : ∀ index, ¬Arc (edges structs) index index)
    (known : ∀ index < structs.length, index ∉ indices → metrics index = measured index)
    (small : totalNodes ≤ MAX_AGGREGATE_LAYOUT_NODES) :
    countShapes structs platform indices metrics totalNodes = .ok ()
      ↔ Fits measured indices totalNodes := by
  induction indices generalizing metrics totalNodes with
  | nil => exact ⟨fun _ => ⟨fun _ mem => absurd mem List.not_mem_nil, small⟩, fun _ => rfl⟩
  | cons current rest ih =>
    obtain ⟨later, order⟩ := List.pairwise_cons.1 order
    obtain ⟨here, inside⟩ := List.forall_mem_cons.1 inside
    have declared : structs[current]? = some structs[current] := List.getElem?_eq_getElem here
    have contained : structMetrics structs (saturatingAdd platform) metrics structs[current]
        = structMetrics structs (saturatingAdd platform) measured structs[current] := by
      refine structMetrics_congr _ declared fun nested mem => ?_
      refine known nested (List.mem_range.1 (edges_subset current mem)) fun waits => ?_
      rcases List.mem_cons.1 waits with rfl | waits
      · exact loops _ mem
      · exact later nested waits mem
    obtain ⟨nodes, leaves⟩ := structMetrics_saturates platform measured structs[current]
    rw [← contained, ← measure current _ declared] at nodes leaves
    have large := platform.u32_le_usize
    have wide : MAX_AGGREGATE_LAYOUT_LEAVES < platform.usizeMax := by
      have : MAX_AGGREGATE_LAYOUT_LEAVES = 512 := rfl
      omega
    have many : MAX_AGGREGATE_LAYOUT_NODES < platform.usizeMax := by
      have : MAX_AGGREGATE_LAYOUT_NODES = 65536 := rfl
      omega
    unfold countShapes
    rw [declared, Option.map_some, Option.getD_some]
    dsimp only
    generalize structMetrics structs (saturatingAdd platform) metrics structs[current] = counts
      at nodes leaves ⊢
    have split : Fits measured (current :: rest) totalNodes
        ↔ (measured current).2 ≤ MAX_AGGREGATE_LAYOUT_LEAVES
          ∧ Fits measured rest (totalNodes + (measured current).1) := by
      constructor
      · rintro ⟨each, total⟩
        obtain ⟨first, each⟩ := List.forall_mem_cons.1 each
        rw [List.map_cons, List.sum_cons, ← Nat.add_assoc] at total
        exact ⟨first, each, total⟩
      · rintro ⟨first, each, total⟩
        refine ⟨List.forall_mem_cons.2 ⟨first, each⟩, ?_⟩
        rwa [List.map_cons, List.sum_cons, ← Nat.add_assoc]
    rw [split]
    split
    · rename_i tooWide
      refine ⟨fun failed => (by cases failed), fun fits => ?_⟩
      have narrow := fits.1
      omega
    · rename_i narrow
      have first : (measured current).2 ≤ MAX_AGGREGATE_LAYOUT_LEAVES := by omega
      split
      · rename_i tooLarge
        refine ⟨fun failed => (by cases failed), fun fits => ?_⟩
        have total := fits.2.nodes
        unfold saturatingAdd at tooLarge
        omega
      · rename_i fits
        have exactTotal : saturatingAdd platform totalNodes counts.1
            = totalNodes + (measured current).1 := by
          unfold saturatingAdd at fits ⊢
          omega
        have same : counts = measured current := by
          unfold saturatingAdd at fits
          refine Prod.ext ?_ ?_ <;> omega
        rw [exactTotal] at fits ⊢
        refine (ih inside order ?_ (Nat.le_of_not_lt fits)).trans
          ⟨fun rest => ⟨first, rest⟩, fun both => both.2⟩
        intro index inside waits
        by_cases here : index = current
        · subst here
          rw [Function.update_self, same]
        · rw [Function.update_of_ne here]
          exact known index inside fun mem => (List.mem_cons.1 mem).elim here waits

theorem Fits.perm {metrics : Nat → Nat × Nat} {indices other : List Nat} {before : Nat}
    (perm : indices.Perm other) : Fits metrics indices before ↔ Fits metrics other before := by
  have sums : (indices.map fun index => (metrics index).1).sum
      = (other.map fun index => (metrics index).1).sum := (perm.map _).sum_eq
  constructor
  · exact fun fits => ⟨fun index mem => fits.leaves index (perm.mem_iff.2 mem), sums ▸ fits.nodes⟩
  · exact fun fits => ⟨fun index mem => fits.leaves index (perm.mem_iff.1 mem), sums.symm ▸ fits.nodes⟩

/-- What validation accepts: no cycle, no chain that is too long, no struct with too many leaves, and
not too many nodes in all structs together. -/
structure Accepted (structs : List TypedStruct) : Prop where
  acyclic : Acyclic structs
  shallow : ∀ index path, Layers.ChainTo (edges structs) index path →
    path.length ≤ MAX_AGGREGATE_NESTING
  fits : ∃ metrics, IsMeasure structs metrics ∧ Fits metrics (List.range structs.length) 0

/-- **Validation.** It ends, and it accepts exactly what is within the limits. -/
theorem validate_exact (structs : List TypedStruct) (platform : Platform) :
    ∃ result, validateAggregateStructure structs platform = some result
      ∧ (result = .ok () ↔ Accepted structs) := by
  have sound : DepthFirst.Sound (edges structs) (List.range structs.length) (fun _ => .fresh) [] :=
    ⟨fun _ => ⟨fun entered => (by cases entered), fun mem => absurd mem List.not_mem_nil⟩, .nil,
      fun _ done => (by cases done), fun _ known => absurd rfl known, trivial⟩
  obtain ⟨searched, ran, found⟩ := DepthFirst.searchAll_spec List.nodup_range edges_subset
    (List.range structs.length) (fun _ mem => mem) sound fun _ known => absurd rfl known
  unfold validateAggregateStructure
  dsimp only
  rw [ran]
  cases searched with
  | error cycle =>
    obtain ⟨node, around⟩ := found
    exact ⟨_, rfl, fun failed => (by cases failed), fun accepted =>
      absurd around (accepted.acyclic node)⟩
  | ok value =>
    have ends : ∀ index, Ends (edges structs) index := by
      intro index
      by_cases inside : index ∈ List.range structs.length
      · exact found index (.inl inside)
      · refine Acc.intro _ fun other arc => ?_
        exact absurd (edges_ne_nil (List.ne_nil_of_mem (show other ∈ edges structs index from arc))) inside
    obtain ⟨sorted, ran, layers⟩ := Layers.sort_spec List.nodup_range edges_subset
      (fun index some => edges_ne_nil some) ends (show 0 < MAX_AGGREGATE_NESTING by decide)
    dsimp only
    rw [ran]
    cases sorted with
    | error deep =>
      obtain ⟨path, chain, length, tooLong⟩ := layers
      refine ⟨_, rfl, fun failed => (by cases failed), fun accepted => ?_⟩
      have short := accepted.shallow deep.1 path chain
      omega
    | ok order =>
      obtain ⟨perm, behind, shallow⟩ := layers
      obtain ⟨metrics, measure⟩ := exists_measure ends
      have all : ∀ index, index ∈ order.reverse ↔ index < structs.length := fun index => by
        rw [List.mem_reverse, perm.mem_iff, List.mem_range]
      have counted := @countShapes_iff structs platform metrics measure order.reverse (fun _ => (0, 0)) 0
        (fun index mem => (all index).1 mem) (List.pairwise_reverse.2 behind)
        (fun index arc => CyclePath.not_cycle_of_acc (ends index) (.single arc))
        (fun index inside outside => absurd ((all index).2 inside) outside) (Nat.zero_le _)
      have rearranged : Fits metrics order.reverse 0
          ↔ Fits metrics (List.range structs.length) 0 :=
        Fits.perm ((List.reverse_perm order).trans perm)
      refine ⟨_, rfl, counted.trans (rearranged.trans ⟨fun fits => ?_, fun accepted => ?_⟩)⟩
      · exact ⟨fun index around => CyclePath.not_cycle_of_acc (ends index) around, shallow, metrics,
          measure, fits⟩
      · obtain ⟨other, second, fits⟩ := accepted.fits
        have same : ∀ index ∈ List.range structs.length, metrics index = other index :=
          fun index mem => measure.unique second ends (List.mem_range.1 mem)
        refine ⟨fun index mem => same index mem ▸ fits.leaves index mem, ?_⟩
        rw [List.map_congr_left fun index mem => congrArg Prod.fst (same index mem)]
        exact fits.nodes

end Exact

end Onda.Aggregates
