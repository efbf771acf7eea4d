import Mathlib.Data.List.Induction
import Mathlib.Tactic.Common

/-!
# Sweeps

A list is swept with a cursor: an element is visited, and it stays or is taken out, where the
last element is put in its place.  Each element is visited once, in some order, and those that
stay are left.
-/

namespace Onda.Sweep

variable {α σ : Type}

/-- The last element takes the place of another one. -/
def swapRemove (items : List α) (position : Nat) : List α :=
  match items.getLast? with
  | some last => (items.set position last).dropLast
  | none => []

/-- Visits in order, and the elements that stay. -/
def visits (visit : α → σ → Option (σ × Bool)) : List α → σ → Option (σ × List α)
  | [], state => some (state, [])
  | item :: items, state =>
    (visit item state).bind fun visited =>
      (visits visit items visited.1).map fun later =>
        (later.1, if visited.2 then item :: later.2 else later.2)

/-- The sweep from a cursor on, of at most `fuel` elements. -/
def sweep (visit : α → σ → Option (σ × Bool)) : Nat → Nat → List α → σ → Option (σ × List α)
  | 0, cursor, items, state => if cursor < items.length then none else some (state, items)
  | fuel + 1, cursor, items, state =>
    match items[cursor]? with
    | none => some (state, items)
    | some item =>
      (visit item state).bind fun visited =>
        if visited.2 then sweep visit fuel (cursor + 1) items visited.1
        else sweep visit fuel cursor (swapRemove items cursor) visited.1

/-- Behind the cursor the last element moves to the front. -/
theorem swapRemove_append (done todo : List α) (item : α) :
    ∃ rest, rest.Perm todo ∧ swapRemove (done ++ item :: todo) done.length = done ++ rest := by
  cases todo using List.reverseRecOn with
  | nil => exact ⟨[], .nil, by simp [swapRemove]⟩
  | append_singleton front last =>
    refine ⟨last :: front, (List.perm_append_singleton last front).symm, ?_⟩
    rw [swapRemove, ← List.cons_append, ← List.append_assoc, List.getLast?_concat]
    show ((done ++ item :: front ++ [last]).set done.length last).dropLast = _
    rw [List.append_assoc, List.set_append_right _ _ (Nat.le_refl _), Nat.sub_self, List.cons_append,
      List.set_cons_zero, ← List.cons_append, ← List.append_assoc, List.dropLast_concat]

/-- A sweep makes the visits in some order, and the elements that stay are left. -/
theorem sweep_spec (visit : α → σ → Option (σ × Bool)) {fuel : Nat} {todo : List α}
    (enough : todo.length ≤ fuel) (done : List α) (state : σ) :
    ∃ order, order.Perm todo ∧ Option.Rel
      (fun swept visited => swept.1 = visited.1 ∧ ∃ left, left.Perm visited.2 ∧ swept.2 = done ++ left)
      (sweep visit fuel done.length (done ++ todo) state) (visits visit order state) := by
  induction fuel generalizing todo done state with
  | zero =>
    obtain rfl := List.eq_nil_of_length_eq_zero (Nat.le_zero.1 enough)
    refine ⟨[], .nil, ?_⟩
    rw [sweep, List.append_nil, if_neg (Nat.lt_irrefl _), visits]
    exact .some ⟨rfl, [], .nil, (List.append_nil done).symm⟩
  | succ fuel ih =>
    cases todo with
    | nil =>
      refine ⟨[], .nil, ?_⟩
      rw [sweep, List.append_nil, List.getElem?_eq_none (Nat.le_refl _), visits]
      exact .some ⟨rfl, [], .nil, (List.append_nil done).symm⟩
    | cons item todo =>
      have here : (done ++ item :: todo)[done.length]? = some item := by simp
      rw [List.length_cons, Nat.succ_le_succ_iff] at enough
      cases outcome : visit item state with
      | none =>
        refine ⟨item :: todo, .refl _, ?_⟩
        simp only [sweep, here, visits, outcome, Option.bind_none]
        exact .none
      | some visited =>
        obtain ⟨state', stays⟩ := visited
        cases stays with
        | true =>
          obtain ⟨order, perm, same⟩ := ih enough (done ++ [item]) state'
          refine ⟨item :: order, perm.cons item, ?_⟩
          rw [List.length_append, List.append_assoc, List.length_singleton, List.singleton_append] at same
          simp only [sweep, here, visits, outcome, Option.bind_some, if_true]
          generalize sweep visit fuel (done.length + 1) (done ++ item :: todo) state' = swept at same ⊢
          generalize visits visit order state' = visited at same ⊢
          cases same with
          | none => exact .none
          | some related =>
            obtain ⟨same, left, among, items⟩ := related
            exact .some ⟨same, item :: left, among.cons item, by rw [items, List.append_assoc]; rfl⟩
        | false =>
          obtain ⟨rest, moved, removed⟩ := swapRemove_append done todo item
          obtain ⟨order, perm, same⟩ := ih (moved.length_eq ▸ enough) done state'
          refine ⟨item :: order, (perm.trans moved).cons item, ?_⟩
          simp only [sweep, here, visits, outcome, removed, Option.bind_some, Bool.false_eq_true,
            if_false]
          generalize sweep visit fuel done.length (done ++ rest) state' = swept at same ⊢
          generalize visits visit order state' = visited at same ⊢
          cases same with
          | none => exact .none
          | some related => exact .some related

end Onda.Sweep
