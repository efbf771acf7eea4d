import Onda.Lib.Refinement

/-!
# Renumbering what is kept

A mask says which positions of a table are kept.  The kept elements move together,
in order, and `numbers` gives their new positions.
-/

namespace Structured.Renumber

variable {α α' : Type}

/-- The new positions of the kept elements, from `next` on. -/
def numbers (next : Nat) : List Bool → List (Option Nat)
  | [] => []
  | true :: mask => some next :: numbers (next + 1) mask
  | false :: mask => none :: numbers next mask

/-- The kept elements; an element beyond the mask is kept. -/
def kept : List Bool → List α → List α
  | true :: mask, element :: rest => element :: kept mask rest
  | false :: mask, _ :: rest => kept mask rest
  | [], list => list
  | _, [] => []

/-- The new position of an element. -/
def position (next : Nat) (mask : List Bool) (index : Nat) : Option Nat :=
  (numbers next mask)[index]?.join

@[simp] theorem position_nil (next index : Nat) : position next [] index = none := rfl

@[simp] theorem position_kept_zero (next : Nat) (mask : List Bool) :
    position next (true :: mask) 0 = some next := rfl

@[simp] theorem position_kept_succ (next : Nat) (mask : List Bool) (index : Nat) :
    position next (true :: mask) (index + 1) = position (next + 1) mask index := rfl

@[simp] theorem position_dropped_zero (next : Nat) (mask : List Bool) :
    position next (false :: mask) 0 = none := rfl

@[simp] theorem position_dropped_succ (next : Nat) (mask : List Bool) (index : Nat) :
    position next (false :: mask) (index + 1) = position next mask index := rfl

theorem position_isSome (next : Nat) (mask : List Bool) (index : Nat) :
    (position next mask index).isSome = true ↔ mask[index]? = some true := by
  induction mask generalizing next index with
  | nil => simp
  | cons head mask ih => cases head <;> cases index <;> simp [ih]

theorem position_le {next : Nat} {mask : List Bool} {index id : Nat}
    (found : position next mask index = some id) : next ≤ id := by
  induction mask generalizing next index with
  | nil => cases found
  | cons head mask ih =>
    cases head <;> cases index
    case false.zero => cases found
    case false.succ => exact ih found
    case true.zero => exact Nat.le_of_eq (Option.some.inj found)
    case true.succ => exact Nat.le_trans (Nat.le_succ next) (ih found)

/-- No two elements move to one position. -/
theorem position_inj {next : Nat} {mask : List Bool} {first second id : Nat}
    (one : position next mask first = some id) (two : position next mask second = some id) :
    first = second := by
  induction mask generalizing next first second with
  | nil => cases one
  | cons head mask ih =>
    cases head <;> cases first <;> cases second
    case false.zero.zero | true.zero.zero => rfl
    case false.zero.succ => cases one
    case false.succ.zero => cases two
    case false.succ.succ | true.succ.succ => rw [ih one two]
    case true.zero.succ =>
      cases one
      rw [position_kept_succ] at two
      exact absurd (position_le two) (Nat.not_succ_le_self _)
    case true.succ.zero =>
      cases two
      rw [position_kept_succ] at one
      exact absurd (position_le one) (Nat.not_succ_le_self _)

/-- What is kept of two lists that match is a selection. -/
theorem selected {Q : α → α' → Prop} {D : α → Prop} {mapping : Nat → Option Nat} {mask : List Bool}
    {list : List α} {list' : List α'} (related : List.Forall₂ Q list list')
    (length : list.length = mask.length) {i j : Nat}
    (mapped : ∀ index, index < mask.length → mapping (i + index) = position j mask index)
    (dropped : ∀ (index : Nat) element, mask[index]? = some false → list[index]? = some element →
      D element) :
    Selected mapping Q D i j list (kept mask list') := by
  induction mask generalizing list list' i j with
  | nil =>
    obtain rfl := List.length_eq_zero_iff.mp length
    cases related
    exact .nil
  | cons head mask ih =>
    cases related with
    | nil => cases length
    | @cons element element' rest rest' holds related =>
      have first := mapped 0 (Nat.zero_lt_succ _)
      have later {next : Nat} (same : ∀ index, index < mask.length →
          position j (head :: mask) (index + 1) = position next mask index) :
          ∀ index, index < mask.length → mapping (i + 1 + index) = position next mask index := by
        intro index inside
        rw [Nat.add_right_comm, Nat.add_assoc, mapped _ (Nat.succ_lt_succ inside), same index inside]
      have fewer : ∀ (index : Nat) element, mask[index]? = some false →
          rest[index]? = some element → D element :=
        fun index element masked found => dropped (index + 1) element masked found
      cases head with
      | true =>
        exact .keep first holds (ih related (Nat.succ.inj length) (later fun _ _ => rfl) fewer)
      | false =>
        exact .drop first (dropped 0 element rfl rfl)
          (ih related (Nat.succ.inj length) (later fun _ _ => rfl) fewer)

/-- A kept element is found at its new position. -/
theorem kept_getElem? {mask : List Bool} {list : List α} (length : list.length = mask.length)
    {index id : Nat} (found : position 0 mask index = some id) :
    (kept mask list)[id]? = list[index]? := by
  have selection : Selected (position 0 mask) Eq (fun _ => True) 0 0 list (kept mask list) :=
    selected (List.forall₂_same.mpr fun _ _ => rfl) length (fun _ _ => by rw [Nat.zero_add])
      fun _ _ _ _ => trivial
  have same := selection.getElem? (fun _ _ _ => position_inj) index id (by
    rw [Nat.zero_add, Nat.zero_add, found])
  generalize list[index]? = first at same
  generalize (kept mask list)[id]? = second at same
  cases same with
  | none => rfl
  | some same => rw [same]

end Structured.Renumber
