import Mathlib.Algebra.BigOperators.Group.List.Basic
import Mathlib.Data.List.Lex
import Mathlib.Order.Basic
import Onda.Aggregates.Declarations

/-!
# Row-major tensors

The strides of a tensor are the sizes of its inner axes, so its elements lie in the order of their
indices, without gaps.
-/

namespace Onda.Aggregates

open Onda.Project (Platform)

/-- `AggregateTensorLayout`. -/
structure AggregateTensorLayout where
  shape : List Nat
  strides : List Nat
  elementCount : Nat
deriving DecidableEq

/-- The loop of `from_shape`, from the innermost axis outwards: the strides and the element count. -/
def stridesOf (platform : Platform) : List Nat → Option (List Nat × Nat)
  | [] => some ([], 1)
  | extent :: shape =>
    (stridesOf platform shape).bind fun inner =>
      (platform.checkedMul inner.2 extent).map fun elementCount => (inner.2 :: inner.1, elementCount)

/-- `from_shape`: `none` for a shape that exceeds the addressable size. -/
def AggregateTensorLayout.fromShape (platform : Platform) (shape : List Nat) :
    Option AggregateTensorLayout :=
  (stridesOf platform shape).map fun inner => ⟨shape, inner.1, inner.2⟩

/-- Where an element is. -/
def position (strides index : List Nat) : Nat := (List.zipWith (· * ·) index strides).sum

/-- An index within a shape. -/
def Inside (index shape : List Nat) : Prop := List.Forall₂ (· < ·) index shape

/-- The elements lie in the order of their indices, and they fill the tensor. -/
structure AggregateTensorLayout.RowMajor (tensor : AggregateTensorLayout) : Prop where
  count : tensor.elementCount = tensor.shape.prod
  strides : tensor.strides
    = (List.range tensor.shape.length).map fun axis => (tensor.shape.drop (axis + 1)).prod
  lt_count : ∀ index, Inside index tensor.shape → position tensor.strides index < tensor.elementCount
  surjective : ∀ element < tensor.elementCount,
    ∃ index, Inside index tensor.shape ∧ position tensor.strides index = element
  ordered : ∀ first second, Inside first tensor.shape → Inside second tensor.shape →
    List.Lex (· < ·) first second → position tensor.strides first < position tensor.strides second

theorem stridesOf_eq {platform : Platform} {shape strides : List Nat} {elementCount : Nat}
    (planned : stridesOf platform shape = some (strides, elementCount)) :
    elementCount = shape.prod
      ∧ strides = (List.range shape.length).map fun axis => (shape.drop (axis + 1)).prod := by
  induction shape generalizing strides elementCount with
  | nil =>
    cases planned
    exact ⟨rfl, rfl⟩
  | cons extent shape ih =>
    obtain ⟨⟨innerStrides, innerCount⟩, inner, planned⟩ := Option.bind_eq_some_iff.1 planned
    obtain ⟨product, multiplied, same⟩ := Option.map_eq_some_iff.1 planned
    obtain ⟨rfl, rfl⟩ := Prod.mk.inj same
    obtain ⟨rfl, strides⟩ := ih inner
    unfold Platform.checkedMul at multiplied
    split at multiplied
    · obtain rfl := Option.some.inj multiplied
      refine ⟨by rw [List.prod_cons, Nat.mul_comm], ?_⟩
      rw [List.length_cons, List.range_succ_eq_map, List.map_cons, List.map_map, strides]
      rfl
    · cases multiplied

theorem position_cons (stride first : Nat) (strides index : List Nat) :
    position (stride :: strides) (first :: index) = first * stride + position strides index := by
  rw [position, List.zipWith_cons_cons, List.sum_cons]
  rfl

/-- The strides of a shape. -/
def rowStrides : List Nat → List Nat
  | [] => []
  | _ :: shape => shape.prod :: rowStrides shape

theorem rowStrides_eq (shape : List Nat) :
    rowStrides shape = (List.range shape.length).map fun axis => (shape.drop (axis + 1)).prod := by
  induction shape with
  | nil => rfl
  | cons extent shape ih =>
    rw [rowStrides, ih, List.length_cons, List.range_succ_eq_map, List.map_cons, List.map_map]
    rfl

theorem position_lt {index shape : List Nat} (inside : Inside index shape) :
    position (rowStrides shape) index < shape.prod := by
  induction inside with
  | nil => exact Nat.one_pos
  | @cons first extent index shape lt _ ih =>
    rw [rowStrides, position_cons, List.prod_cons]
    calc first * shape.prod + position (rowStrides shape) index
        < first * shape.prod + shape.prod := Nat.add_lt_add_left ih _
      _ = (first + 1) * shape.prod := (Nat.succ_mul _ _).symm
      _ ≤ extent * shape.prod := Nat.mul_le_mul_right _ lt

theorem exists_position {shape : List Nat} {element : Nat} (lt : element < shape.prod) :
    ∃ index, Inside index shape ∧ position (rowStrides shape) index = element := by
  induction shape generalizing element with
  | nil =>
    rw [List.prod_nil] at lt
    exact ⟨[], .nil, (Nat.lt_one_iff.1 lt).symm⟩
  | cons extent shape ih =>
    rw [List.prod_cons] at lt
    have positive : 0 < shape.prod := Nat.pos_of_ne_zero fun zero => by simp [zero] at lt
    obtain ⟨index, inside, rest⟩ := ih (Nat.mod_lt element positive)
    refine ⟨element / shape.prod :: index, .cons (Nat.div_lt_of_lt_mul ?_) inside, ?_⟩
    · rwa [Nat.mul_comm]
    · rw [rowStrides, position_cons, rest, Nat.mul_comm]
      exact Nat.div_add_mod element shape.prod

theorem position_mono {shape first second : List Nat} (firstInside : Inside first shape)
    (secondInside : Inside second shape) (before : List.Lex (· < ·) first second) :
    position (rowStrides shape) first < position (rowStrides shape) second := by
  induction firstInside generalizing second with
  | nil =>
    cases secondInside
    cases before
  | @cons head extent index shape lt inside ih =>
    cases secondInside with
    | @cons other _ rest _ otherLt otherInside =>
      rw [rowStrides, position_cons, position_cons]
      cases before with
      | cons before => exact Nat.add_lt_add_left (ih otherInside before) _
      | rel less =>
        calc head * shape.prod + position (rowStrides shape) index
            < head * shape.prod + shape.prod := Nat.add_lt_add_left (position_lt inside) _
          _ = (head + 1) * shape.prod := (Nat.succ_mul _ _).symm
          _ ≤ other * shape.prod := Nat.mul_le_mul_right _ less
          _ ≤ other * shape.prod + position (rowStrides shape) rest := Nat.le_add_right _ _

/-- **Tensors.** A planned tensor is row-major. -/
theorem AggregateTensorLayout.fromShape_rowMajor {platform : Platform} {shape : List Nat}
    {tensor : AggregateTensorLayout} (planned : fromShape platform shape = some tensor) :
    tensor.shape = shape ∧ tensor.RowMajor := by
  obtain ⟨⟨strides, elementCount⟩, inner, rfl⟩ := Option.map_eq_some_iff.1 planned
  obtain ⟨rfl, strided⟩ := stridesOf_eq inner
  have same : strides = rowStrides shape := strided.trans (rowStrides_eq shape).symm
  refine ⟨rfl, rfl, strided, ?_, ?_, ?_⟩
  · subst same
    exact fun index inside => position_lt inside
  · subst same
    exact fun element lt => exists_position lt
  · subst same
    exact fun first second firstInside secondInside before =>
      position_mono firstInside secondInside before

end Onda.Aggregates
