import Onda.Mir.Validate.Layouts
import Onda.Mir.Validate.Aggregates

/-!
# Equivalent types

What `types_equivalent` decides.  A type id of a table unfolds to a finite tree,
in which every reference of a tuple or an array is followed (`Unfolds`).  A struct
is nominal, so it is a leaf of the tree, and so is a slice or a buffer.

In a closed table without recursive aggregates every id has one tree, and two ids
are equivalent exactly if they have the same.  The comparison keeps the pairs that
it is inside of; a pair is not met again inside itself, because the left type
would contain itself.
-/

namespace Onda.Mir

/-- A type with its references followed. -/
inductive UnfoldedType where
  | scalar (scalar : ScalarType)
  | tuple (elements : List UnfoldedType)
  | array (element : UnfoldedType) (len : Nat)
  | struct (definition : StructId)
  | slice (element : ScalarType) (access : AccessMode)
  | buffer (element : ScalarType) (channels : BufferChannels) (access : AccessMode)
  | bufferSpan (element : ScalarType) (channels : BufferChannels)
      (access : AccessMode) (len : Nat)

instance : Inhabited UnfoldedType := ⟨.tuple []⟩

/-- The tree of a type that refers to no other type. -/
def MirType.leaf? : MirType → Option UnfoldedType
  | .scalar kind => some (.scalar kind)
  | .struct definition => some (.struct definition)
  | .slice element access => some (.slice element access)
  | .buffer element channels access => some (.buffer element channels access)
  | .bufferSpan element channels access len => some (.bufferSpan element channels access len)
  | .tuple _ | .array .. => none

namespace Program

/-- A type id unfolds to a tree. -/
inductive Unfolds (program : Program) : TypeId → UnfoldedType → Prop
  | leaf {index : TypeId} {ty : MirType} {tree : UnfoldedType}
      (declared : program.types[index]? = some ty) (leaf : ty.leaf? = some tree) :
      Unfolds program index tree
  | tuple {index : TypeId} {elements : List TypeId} (trees : TypeId → UnfoldedType)
      (declared : program.types[index]? = some (.tuple elements))
      (unfold : ∀ element ∈ elements, Unfolds program element (trees element)) :
      Unfolds program index (.tuple (elements.map trees))
  | array {index element : TypeId} {len : Nat} {tree : UnfoldedType}
      (declared : program.types[index]? = some (.array element len))
      (unfold : Unfolds program element tree) : Unfolds program index (.array tree len)

end Program

open Validate

namespace Program

variable {program : Program}

variable {visiting : List (TypeId × TypeId)} {ty : MirType} {fuel : Nat}
  {element index lhs rhs : TypeId} {tree : UnfoldedType}

theorem Unfolds.inside (unfolds : program.Unfolds index tree) : index < program.types.length := by
  cases unfolds with
  | leaf declared | tuple _ declared | array declared =>
    exact (List.getElem?_eq_some_iff.mp declared).1

/-- A type id has one tree. -/
theorem Unfolds.unique {tree' : UnfoldedType} (first : program.Unfolds index tree)
    (second : program.Unfolds index tree') :
    tree = tree' := by
  induction first generalizing tree' with
  | leaf declared leaf =>
    cases second with
    | leaf declared' leaf' =>
      obtain rfl := Option.some.inj (declared.symm.trans declared')
      exact Option.some.inj (leaf.symm.trans leaf')
    | tuple _ declared' | array declared' =>
      obtain rfl := Option.some.inj (declared.symm.trans declared')
      cases leaf
  | tuple trees declared _ ih =>
    cases second with
    | leaf declared' leaf' =>
      obtain rfl := Option.some.inj (declared.symm.trans declared')
      cases leaf'
    | tuple trees' declared' unfold' =>
      cases Option.some.inj (declared.symm.trans declared')
      exact congrArg UnfoldedType.tuple
        (List.map_congr_left fun element mem => ih element mem (unfold' element mem))
    | array declared' => cases Option.some.inj (declared.symm.trans declared')
  | array declared _ ih =>
    cases second with
    | leaf declared' leaf' =>
      obtain rfl := Option.some.inj (declared.symm.trans declared')
      cases leaf'
    | tuple _ declared' => cases Option.some.inj (declared.symm.trans declared')
    | array declared' unfold' =>
      cases Option.some.inj (declared.symm.trans declared')
      rw [ih unfold']

/-! ### Inversion -/

theorem unfolds_leaf {leaf : UnfoldedType} (declared : program.types[index]? = some ty)
    (isLeaf : ty.leaf? = some leaf) :
    program.Unfolds index tree ↔ tree = leaf :=
  ⟨fun unfolds => unfolds.unique (.leaf declared isLeaf), fun same => same ▸ .leaf declared isLeaf⟩

theorem unfolds_array {len : Nat} (declared : program.types[index]? = some (.array element len)) :
    program.Unfolds index tree ↔
      ∃ inner, tree = .array inner len ∧ program.Unfolds element inner := by
  constructor
  · intro unfolds
    cases unfolds with
    | leaf declared' leaf =>
      obtain rfl := Option.some.inj (declared.symm.trans declared')
      cases leaf
    | tuple _ declared' => cases Option.some.inj (declared.symm.trans declared')
    | array declared' inner =>
      cases Option.some.inj (declared.symm.trans declared')
      exact ⟨_, rfl, inner⟩
  · rintro ⟨inner, rfl, unfolds⟩
    exact .array declared unfolds

theorem unfolds_tuple {elements : List TypeId}
    (declared : program.types[index]? = some (.tuple elements)) :
    program.Unfolds index tree ↔
      ∃ trees, tree = .tuple trees ∧ List.Forall₂ program.Unfolds elements trees := by
  constructor
  · intro unfolds
    cases unfolds with
    | leaf declared' leaf =>
      obtain rfl := Option.some.inj (declared.symm.trans declared')
      cases leaf
    | tuple trees declared' inner =>
      cases Option.some.inj (declared.symm.trans declared')
      refine ⟨_, rfl, ?_⟩
      rw [List.forall₂_map_right_iff]
      exact List.forall₂_same.mpr inner
    | array declared' => cases Option.some.inj (declared.symm.trans declared')
  · rintro ⟨trees, rfl, unfold⟩
    -- The trees of the elements, by their ids.
    let trees' (element : TypeId) : UnfoldedType :=
      Classical.epsilon fun tree => program.Unfolds element tree
    have byId : trees = elements.map trees' ∧
        ∀ element ∈ elements, program.Unfolds element (trees' element) := by
      clear declared
      induction unfold with
      | nil => simp
      | @cons element tree elements trees first _ ih =>
        have known : ∃ tree, program.Unfolds element tree := ⟨tree, first⟩
        have atElement : trees' element = tree := (Classical.epsilon_spec known).unique first
        rw [List.map_cons, ← ih.1, List.forall_mem_cons, atElement]
        exact ⟨rfl, first, ih.2⟩
    rw [byId.1]
    exact .tuple trees' declared byId.2

/-- A tree has the constructor of its type. -/
theorem Unfolds.ctorIdx_eq (unfolds : program.Unfolds index tree)
    (declared : program.types[index]? = some ty) :
    tree.ctorIdx = ty.ctorIdx := by
  cases unfolds with
  | leaf declared' leaf =>
    obtain rfl := Option.some.inj (declared.symm.trans declared')
    cases ty <;> cases leaf <;> rfl
  | tuple _ declared' | array declared' =>
    obtain rfl := Option.some.inj (declared.symm.trans declared')
    rfl

/-! ### Existence -/

/-- The types that a tree follows. -/
def followedTypes : MirType → List TypeId
  | .tuple elements => elements
  | .array element _ => [element]
  | _ => []

theorem contains_of_followed (closed : TableClosed program)
    (declared : program.types[index]? = some ty) (followed : element ∈ followedTypes ty)
    : Contains program index element := by
  have component : element ∈ componentTypes program ty := by
    cases ty with
    | tuple | array => exact followed
    | scalar | struct | slice | buffer | bufferSpan => simp [followedTypes] at followed
  exact ⟨ty, declared, component, closed.components index ty declared⟩

theorem exists_unfolds (closed : TableClosed program)
    (acyclic : ∀ index, ¬Relation.TransGen (Contains program) index index) (index : TypeId)
    (inside : index < program.types.length) : ∃ tree, program.Unfolds index tree := by
  induction index using (contains_wellFounded acyclic).induction with
  | _ index ih =>
    have declared := List.getElem?_eq_getElem inside
    have parts : ∀ element ∈ followedTypes program.types[index],
        ∃ tree, program.Unfolds element tree := fun element followed => by
      have contained := contains_of_followed closed declared followed
      exact ih element contained contained.inRange.2
    generalize program.types[index] = ty at declared parts
    cases ty with
    | scalar | struct | slice | buffer | bufferSpan => exact ⟨_, .leaf declared rfl⟩
    | array element len =>
      obtain ⟨tree, unfolds⟩ := parts element (by simp [followedTypes])
      exact ⟨_, .array declared unfolds⟩
    | tuple elements =>
      choose! trees unfold using parts
      exact ⟨_, .tuple trees declared unfold⟩

/-! ### Comparison -/

/-- Two ids have the same tree. -/
def SameTree (program : Program) (lhs rhs : TypeId) : Prop :=
  ∃ tree, program.Unfolds lhs tree ∧ program.Unfolds rhs tree

theorem forall₂_sameTree {lhs rhs : List TypeId} : List.Forall₂ program.SameTree lhs rhs ↔
    ∃ trees, List.Forall₂ program.Unfolds lhs trees ∧ List.Forall₂ program.Unfolds rhs trees := by
  constructor
  · intro related
    induction related with
    | nil => exact ⟨[], .nil, .nil⟩
    | cons first _ ih =>
      obtain ⟨tree, left, right⟩ := first
      obtain ⟨trees, lefts, rights⟩ := ih
      exact ⟨tree :: trees, .cons left lefts, .cons right rights⟩
  · rintro ⟨trees, lefts, rights⟩
    induction lefts generalizing rhs with
    | nil =>
      cases rights
      exact .nil
    | cons left _ ih =>
      cases rights with
      | cons right rights => exact .cons ⟨_, left, right⟩ (ih rights)

theorem sameTree_tuple {lhsElements rhsElements : List TypeId}
    (atLhs : program.types[lhs]? = some (.tuple lhsElements))
    (atRhs : program.types[rhs]? = some (.tuple rhsElements)) :
    program.SameTree lhs rhs ↔ List.Forall₂ program.SameTree lhsElements rhsElements := by
  rw [forall₂_sameTree]
  unfold SameTree
  simp only [unfolds_tuple atLhs, unfolds_tuple atRhs]
  constructor
  · rintro ⟨_, ⟨trees, rfl, lefts⟩, trees', same, rights⟩
    cases same
    exact ⟨trees, lefts, rights⟩
  · rintro ⟨trees, lefts, rights⟩
    exact ⟨.tuple trees, ⟨trees, rfl, lefts⟩, trees, rfl, rights⟩

theorem sameTree_leaf {lhsType rhsType : MirType} {left right : UnfoldedType}
    (atLhs : program.types[lhs]? = some lhsType) (atRhs : program.types[rhs]? = some rhsType)
    (lhsLeaf : lhsType.leaf? = some left) (rhsLeaf : rhsType.leaf? = some right) :
    program.SameTree lhs rhs ↔ left = right := by
  unfold SameTree
  simp only [unfolds_leaf atLhs lhsLeaf, unfolds_leaf atRhs rhsLeaf]
  exact ⟨fun ⟨_, atLeft, atRight⟩ => atLeft.symm.trans atRight, fun same => ⟨left, rfl, same⟩⟩

theorem sameTree_array {lhsElement rhsElement : TypeId} {lhsLen rhsLen : Nat}
    (atLhs : program.types[lhs]? = some (.array lhsElement lhsLen))
    (atRhs : program.types[rhs]? = some (.array rhsElement rhsLen)) :
    program.SameTree lhs rhs ↔ lhsLen = rhsLen ∧ program.SameTree lhsElement rhsElement := by
  unfold SameTree
  simp only [unfolds_array atLhs, unfolds_array atRhs]
  constructor
  · rintro ⟨_, ⟨tree, rfl, left⟩, tree', same, right⟩
    cases same
    exact ⟨rfl, tree, left, right⟩
  · rintro ⟨rfl, tree, left, right⟩
    exact ⟨.array tree lhsLen, ⟨tree, rfl, left⟩, tree, rfl, right⟩

/-- What holds of the pairs that a comparison is inside of, where its left side is
`lhs`: they are pairs of the table, each once, and the left type of each contains
`lhs`.  With the fuel that is left they are more than there are pairs. -/
structure Visiting (program : Program) (fuel : Nat) (visiting : List (TypeId × TypeId))
    (lhs : TypeId) : Prop where
  nodup : visiting.Nodup
  inside : ∀ pair ∈ visiting, pair.1 < program.types.length ∧ pair.2 < program.types.length
  contains : ∀ pair ∈ visiting, Relation.TransGen (Contains program) pair.1 lhs
  enough : program.types.length ^ 2 < fuel + visiting.length

theorem Visiting.fuel_pos (active : Visiting program fuel visiting lhs) : 0 < fuel := by
  have subset : visiting ⊆ List.range program.types.length ×ˢ List.range program.types.length :=
    fun pair mem => by
      have inside := active.inside pair mem
      exact List.mem_product.mpr ⟨List.mem_range.mpr inside.1, List.mem_range.mpr inside.2⟩
  have few := (List.subperm_of_subset active.nodup subset).length_le
  rw [List.length_product, List.length_range, ← pow_two] at few
  have enough := active.enough
  omega

theorem Visiting.enter (active : Visiting program (fuel + 1) visiting lhs)
    (new : (lhs, rhs) ∉ visiting) (atLhs : lhs < program.types.length)
    (atRhs : rhs < program.types.length) (contained : Contains program lhs element) :
    Visiting program fuel ((lhs, rhs) :: visiting) element where
  nodup := List.nodup_cons.mpr ⟨new, active.nodup⟩
  inside := List.forall_mem_cons.mpr ⟨⟨atLhs, atRhs⟩, active.inside⟩
  contains := List.forall_mem_cons.mpr
    ⟨.single contained, fun pair mem => (active.contains pair mem).tail contained⟩
  enough := by
    have enough := active.enough
    rw [List.length_cons]
    omega

/-- **Comparison.** -/
theorem typesEquivalentInner_iff (closed : TableClosed program)
    (acyclic : ∀ index, ¬Relation.TransGen (Contains program) index index) (lhs rhs : TypeId)
    (atLhs : lhs < program.types.length) (atRhs : rhs < program.types.length)
    (active : Visiting program fuel visiting lhs) :
    program.typesEquivalentInner fuel visiting lhs rhs = true ↔ program.SameTree lhs rhs := by
  induction lhs using (contains_wellFounded acyclic).induction generalizing rhs fuel visiting with
  | _ lhs ih =>
    cases fuel with
    | zero => exact absurd active.fuel_pos (Nat.lt_irrefl 0)
    | succ fuel =>
      have new : (lhs, rhs) ∉ visiting := fun mem => acyclic lhs (active.contains _ mem)
      have lhsDeclared := List.getElem?_eq_getElem atLhs
      have rhsDeclared := List.getElem?_eq_getElem atRhs
      have inner {element element' : TypeId}
          (left : element ∈ followedTypes program.types[lhs])
          (right : element' ∈ followedTypes program.types[rhs]) :
          program.typesEquivalentInner fuel ((lhs, rhs) :: visiting) element element' = true ↔
            program.SameTree element element' := by
        have contained := contains_of_followed closed lhsDeclared left
        exact ih element contained element' contained.inRange.2
          (contains_of_followed closed rhsDeclared right).inRange.2
          (active.enter new atLhs atRhs contained)
      unfold typesEquivalentInner
      split
      case isTrue same =>
        subst same
        obtain ⟨tree, unfolds⟩ := exists_unfolds closed acyclic lhs atLhs
        exact ⟨fun _ => ⟨tree, unfolds, unfolds⟩, fun _ => rfl⟩
      case isFalse =>
        rw [lhsDeclared, rhsDeclared]
        simp only
        generalize program.types[lhs] = lhsType at lhsDeclared inner
        generalize program.types[rhs] = rhsType at rhsDeclared inner
        split
        case h_2 lhsElements rhsElements =>
          rw [sameTree_tuple lhsDeclared rhsDeclared, List.forall₂_iff_zip, Bool.and_eq_true,
            beq_iff_eq, List.all_eq_true]
          refine and_congr_right fun _ => ⟨fun all left right mem => ?_, fun all pair mem => ?_⟩
          · exact (inner (List.of_mem_zip mem).1 (List.of_mem_zip mem).2).mp (all _ mem)
          · exact (inner (List.of_mem_zip mem).1 (List.of_mem_zip mem).2).mpr (all mem)
        case h_3 lhsElement lhsLen rhsElement rhsLen =>
          rw [sameTree_array lhsDeclared rhsDeclared, Bool.and_eq_true, beq_iff_eq,
            inner (by simp [followedTypes]) (by simp [followedTypes])]
        case h_8 scalars tuples arrays structs slices buffers spans =>
          simp only [Bool.false_eq_true, false_iff]
          rintro ⟨tree, left, right⟩
          have same := (left.ctorIdx_eq lhsDeclared).symm.trans (right.ctorIdx_eq rhsDeclared)
          cases lhsType <;> cases rhsType <;> simp [MirType.ctorIdx] at same
          case scalar.scalar => exact scalars _ _ rfl rfl
          case tuple.tuple => exact tuples _ _ rfl rfl
          case array.array => exact arrays _ _ _ _ rfl rfl
          case struct.struct => exact structs _ _ rfl rfl
          case slice.slice => exact slices _ _ _ _ rfl rfl
          case buffer.buffer => exact buffers _ _ _ _ _ _ rfl rfl
          case bufferSpan.bufferSpan => exact spans _ _ _ _ _ _ _ _ rfl rfl
        all_goals
          rw [sameTree_leaf lhsDeclared rhsDeclared rfl rfl]
          simp [and_assoc]

/-- Two ids are equivalent exactly if they are the same or have the same tree. -/
theorem typesEquivalent_iff (closed : TableClosed program)
    (acyclic : ∀ index, ¬Relation.TransGen (Contains program) index index) (lhs rhs : TypeId) :
    program.typesEquivalent lhs rhs = true ↔ lhs = rhs ∨ program.SameTree lhs rhs := by
  have refl (index : TypeId) : program.typesEquivalent index index = true := by
    simp [typesEquivalent, typesEquivalentInner]
  by_cases inside : lhs < program.types.length ∧ rhs < program.types.length
  · unfold typesEquivalent
    rw [typesEquivalentInner_iff closed acyclic lhs rhs inside.1 inside.2
      ⟨List.nodup_nil, by simp, by simp, by simp⟩]
    refine ⟨.inr, ?_⟩
    rintro (rfl | same)
    · obtain ⟨tree, unfolds⟩ := exists_unfolds closed acyclic lhs inside.1
      exact ⟨tree, unfolds, unfolds⟩
    · exact same
  · constructor
    · intro equivalent
      by_contra differ
      push Not at differ
      unfold typesEquivalent typesEquivalentInner at equivalent
      rw [if_neg differ.1] at equivalent
      split at equivalent
      case h_1 lhsDeclared rhsDeclared =>
        exact inside ⟨(List.getElem?_eq_some_iff.mp lhsDeclared).1,
          (List.getElem?_eq_some_iff.mp rhsDeclared).1⟩
      case h_2 => cases equivalent
    · rintro (rfl | ⟨tree, left, right⟩)
      · exact refl lhs
      · exact absurd ⟨left.inside, right.inside⟩ inside

/-- Every id of a closed table without recursive aggregates has one tree, two ids are
equivalent exactly if they have the same, and equivalence is an equivalence. -/
theorem typesEquivalent_structural (program : Program) (closed : TableClosed program)
    (checked : validateFixedAggregateTypes program = []) :
    (∀ ty < program.types.length, ∃! tree, program.Unfolds ty tree)
      ∧ (∀ lhs < program.types.length, ∀ rhs < program.types.length,
          (program.typesEquivalent lhs rhs = true
            ↔ ∃ tree, program.Unfolds lhs tree ∧ program.Unfolds rhs tree))
      ∧ Equivalence fun lhs rhs => program.typesEquivalent lhs rhs = true := by
  have acyclic := ((validateFixedAggregateTypes_iff program).1.mp checked).2.1
  have decides := typesEquivalent_iff closed acyclic
  refine ⟨fun ty inside => ?_, fun lhs inside rhs _ => ?_, fun index => ?_, ?_, ?_⟩
  · obtain ⟨tree, unfolds⟩ := exists_unfolds closed acyclic ty inside
    exact ⟨tree, unfolds, fun other another => another.unique unfolds⟩
  · rw [decides]
    refine ⟨?_, .inr⟩
    rintro (rfl | same)
    · obtain ⟨tree, unfolds⟩ := exists_unfolds closed acyclic lhs inside
      exact ⟨tree, unfolds, unfolds⟩
    · exact same
  · exact (decides _ _).mpr (.inl rfl)
  · intro lhs rhs equivalent
    rw [decides] at equivalent ⊢
    rcases equivalent with rfl | ⟨tree, left, right⟩
    · exact .inl rfl
    · exact .inr ⟨tree, right, left⟩
  · intro lhs middle rhs first second
    rw [decides] at first second ⊢
    rcases first with rfl | ⟨tree, left, atMiddle⟩
    · exact second
    · rcases second with rfl | ⟨tree', atMiddle', right⟩
      · exact .inr ⟨tree, left, atMiddle⟩
      · exact .inr ⟨tree, left, atMiddle.unique atMiddle' ▸ right⟩

/-- A table with the same structure under several ids. -/
def duplicated : Program :=
  .minimal [.array 1 4, .array 1 4, .tuple [2, 3], .tuple [3, 3]] {} [] []

theorem typesEquivalent_structural_duplicated :
    duplicated.typesEquivalent 4 5 = true
      ∧ (∀ ty < duplicated.types.length, ∃! tree, duplicated.Unfolds ty tree)
      ∧ (∀ lhs < duplicated.types.length, ∀ rhs < duplicated.types.length,
          (duplicated.typesEquivalent lhs rhs = true
            ↔ ∃ tree, duplicated.Unfolds lhs tree ∧ duplicated.Unfolds rhs tree))
      ∧ Equivalence fun lhs rhs => duplicated.typesEquivalent lhs rhs = true :=
  ⟨by decide, typesEquivalent_structural duplicated
    (Accepted.tableClosed (by decide +kernel)) (by decide)⟩

end Program

end Onda.Mir
