import Mathlib.Algebra.Order.BigOperators.Group.Finset
import Mathlib.Data.Finset.Lattice.Fold

/-!
# Liveness by iteration

A flow graph has nodes `0, …, size - 1`, and at each node names that are used and names
that are defined.  A name is *needed* at a node if some path from there reaches a use of
it and meets no definition before.

`solve` sweeps over the nodes from the last to the first, in place, until a sweep changes
nothing.  It ends on every graph, in the least solution of the flow equations, which is
the set of needed names.
-/

namespace Liveness

/-- A flow graph. -/
structure Flow (α : Type) where
  size : Nat
  successors : Nat → List Nat
  uses : Nat → Finset α
  defs : Nat → Finset α

namespace Flow

variable {α : Type} (flow : Flow α)

/-- A name that is needed at a node. -/
inductive Needed (name : α) : Nat → Prop where
  | here {node : Nat} : node < flow.size → name ∈ flow.uses node → Needed name node
  | later {node successor : Nat} : node < flow.size → name ∉ flow.defs node →
      successor ∈ flow.successors node → Needed name successor → Needed name node

variable [DecidableEq α]

/-- The right-hand side of the equation of a node. -/
def transfer (live : List (Finset α)) (node : Nat) : Finset α :=
  ((flow.successors node).foldr (fun successor names => live.getD successor ∅ ∪ names) ∅
    \ flow.defs node) ∪ flow.uses node

/-- One step of a sweep, with the flag that records a change. -/
def visit : List (Finset α) × Bool → Nat → List (Finset α) × Bool
  | (live, changed), node =>
    if flow.transfer live node ≠ live.getD node ∅ then (live.set node (flow.transfer live node), true)
    else (live, changed)

def sweep (live : List (Finset α)) : List (Finset α) × Bool :=
  (List.range flow.size).reverse.foldl flow.visit (live, false)

/-- Sweeps until one changes nothing. -/
def solve : Nat → List (Finset α) → Option (List (Finset α))
  | 0, _ => none
  | fuel + 1, live =>
    match flow.sweep live with
    | (live, true) => solve fuel live
    | (live, false) => some live

/-- Every name is unknown at first. -/
def start : List (Finset α) := List.replicate flow.size ∅

/-- All names that are used. -/
def used : Finset α := (Finset.range flow.size).biUnion flow.uses

/-- The sets that the sweeps end with. -/
def liveIn : List (Finset α) := (flow.solve (flow.size * flow.used.card + 1) flow.start).getD flow.start

/-! ### The equations -/

variable {live : List (Finset α)} {node : Nat} {name : α}

theorem mem_transfer :
    name ∈ flow.transfer live node ↔ name ∈ flow.uses node
      ∨ name ∉ flow.defs node ∧ ∃ successor ∈ flow.successors node, name ∈ live.getD successor ∅ := by
  have union : ∀ successors : List Nat,
      name ∈ successors.foldr (fun successor names => live.getD successor ∅ ∪ names) ∅
        ↔ ∃ successor ∈ successors, name ∈ live.getD successor ∅ := by
    intro successors
    induction successors with
    | nil => simp
    | cons successor successors ih => simp only [List.foldr_cons, Finset.mem_union, ih,
        List.exists_mem_cons_iff]
  rw [transfer, Finset.mem_union, Finset.mem_sdiff, union]
  constructor
  · rintro (⟨reached, free⟩ | used)
    · exact .inr ⟨free, reached⟩
    · exact .inl used
  · rintro (used | ⟨free, reached⟩)
    · exact .inr used
    · exact .inl ⟨reached, free⟩

/-- Sets that are at most others at every node. -/
def Below (live live' : List (Finset α)) : Prop := ∀ node, live.getD node ∅ ⊆ live'.getD node ∅

theorem transfer_mono {live' : List (Finset α)} (below : Below live live') (node : Nat) :
    flow.transfer live node ⊆ flow.transfer live' node := by
  intro name mem
  rw [mem_transfer] at mem ⊢
  exact mem.imp_right fun ⟨free, successor, next, reached⟩ =>
    ⟨free, successor, next, below successor reached⟩

/-- What sweeps keep: sets that grow, of names that are needed. -/
structure Ascending (live : List (Finset α)) : Prop where
  length : live.length = flow.size
  rises : ∀ node < flow.size, live.getD node ∅ ⊆ flow.transfer live node
  needed : ∀ node, ∀ name ∈ live.getD node ∅, flow.Needed name node

theorem Needed.mem_used (needed : flow.Needed name node) :
    name ∈ flow.used := by
  induction needed with
  | here inside used => exact Finset.mem_biUnion.mpr ⟨_, Finset.mem_range.mpr inside, used⟩
  | later _ _ _ _ ih => exact ih

theorem ascending_start : flow.Ascending flow.start := by
  have empty : ∀ node, flow.start.getD node ∅ = ∅ := by
    intro node
    rw [start, List.getD_eq_getElem?_getD, List.getElem?_replicate]
    split <;> rfl
  refine ⟨List.length_replicate, fun node _ => ?_, fun node name mem => ?_⟩
  · rw [empty]
    exact Finset.empty_subset _
  · rw [empty] at mem
    cases mem with

omit [DecidableEq α] in
theorem getD_set {live : List (Finset α)} {node : Nat} (inside : node < live.length)
    (names : Finset α) (other : Nat) :
    (live.set node names).getD other ∅ = if other = node then names else live.getD other ∅ := by
  simp only [List.getD_eq_getElem?_getD, List.getElem?_set]
  by_cases same : other = node
  · subst same
    simp [inside]
  · simp [same, Ne.symm same]

variable {flow}

/-- **A step.**  An update of one node keeps what sweeps keep, and makes the set larger. -/
theorem Ascending.set (ascending : flow.Ascending live) (inside : node < flow.size) :
    flow.Ascending (live.set node (flow.transfer live node))
      ∧ Below live (live.set node (flow.transfer live node)) := by
  have position : node < live.length := ascending.length ▸ inside
  have below : Below live (live.set node (flow.transfer live node)) := by
    intro other
    rw [getD_set position]
    split
    case isTrue same => exact same ▸ ascending.rises node inside
    case isFalse => exact subset_rfl
  refine ⟨⟨?_, fun other bound => ?_, fun other name mem => ?_⟩, below⟩
  · rw [List.length_set, ascending.length]
  · rw [getD_set position]
    split
    case isTrue same => exact same ▸ flow.transfer_mono below node
    case isFalse => exact (ascending.rises other bound).trans (flow.transfer_mono below other)
  · rw [getD_set position] at mem
    split at mem
    case isTrue same =>
      subst same
      rcases flow.mem_transfer.mp mem with used | ⟨free, successor, next, reached⟩
      · exact .here inside used
      · exact .later inside free next (ascending.needed _ _ reached)
    case isFalse => exact ascending.needed _ _ mem

/-! ### Sweeps -/

/-- The number of entries. -/
def weight (flow : Flow α) (live : List (Finset α)) : Nat :=
  ∑ node ∈ Finset.range flow.size, (live.getD node ∅).card

omit [DecidableEq α] in
theorem weight_mono {live live' : List (Finset α)} (below : Below live live') :
    flow.weight live ≤ flow.weight live' :=
  Finset.sum_le_sum fun node _ => Finset.card_le_card (below node)

omit [DecidableEq α] in
theorem weight_lt {live live' : List (Finset α)} (below : Below live live') {node : Nat}
    (inside : node < flow.size) (differs : live.getD node ∅ ≠ live'.getD node ∅) :
    flow.weight live < flow.weight live' :=
  Finset.sum_lt_sum (fun node _ => Finset.card_le_card (below node))
    ⟨node, Finset.mem_range.mpr inside,
      Finset.card_lt_card ((below node).ssubset_of_ne differs)⟩

theorem Ascending.weight_le (ascending : flow.Ascending live) :
    flow.weight live ≤ flow.size * flow.used.card := by
  calc flow.weight live
      ≤ ∑ _node ∈ Finset.range flow.size, flow.used.card :=
        Finset.sum_le_sum fun node _ => Finset.card_le_card fun name mem =>
          (ascending.needed node name mem).mem_used
    _ = flow.size * flow.used.card := by simp

/-- What a part of a sweep does, with the nodes it has still to visit. -/
theorem foldl_visit (nodes : List Nat) (inside : ∀ node ∈ nodes, node < flow.size) :
    ∀ {live : List (Finset α)} (changed : Bool), flow.Ascending live →
      flow.Ascending (nodes.foldl flow.visit (live, changed)).1
        ∧ Below live (nodes.foldl flow.visit (live, changed)).1
        ∧ (flow.weight live < flow.weight (nodes.foldl flow.visit (live, changed)).1
            ∧ (nodes.foldl flow.visit (live, changed)).2 = true
          ∨ nodes.foldl flow.visit (live, changed) = (live, changed)
            ∧ ∀ node ∈ nodes, flow.transfer live node = live.getD node ∅) := by
  induction nodes with
  | nil =>
    intro live changed ascending
    exact ⟨ascending, fun _ => subset_rfl, .inr ⟨rfl, nofun⟩⟩
  | cons node nodes ih =>
    intro live changed ascending
    rw [List.forall_mem_cons] at inside
    rw [List.foldl_cons, visit]
    by_cases same : flow.transfer live node = live.getD node ∅
    · rw [if_neg (not_not.mpr same)]
      obtain ⟨kept, below, rest⟩ := ih inside.2 changed ascending
      exact ⟨kept, below, rest.imp_right fun ⟨unchanged, solved⟩ =>
        ⟨unchanged, List.forall_mem_cons.mpr ⟨same, solved⟩⟩⟩
    · rw [if_pos same]
      have position : node < live.length := ascending.length ▸ inside.1
      obtain ⟨next, larger⟩ := ascending.set inside.1
      obtain ⟨kept, below, rest⟩ := ih inside.2 true next
      have grown : flow.weight live < flow.weight (live.set node (flow.transfer live node)) := by
        apply weight_lt larger inside.1
        rw [getD_set position, if_pos rfl]
        exact Ne.symm same
      refine ⟨kept, fun other => (larger other).trans (below other), .inl ⟨?_, ?_⟩⟩
      · exact grown.trans_le (weight_mono below)
      · rcases rest with ⟨-, flag⟩ | ⟨unchanged, -⟩
        · exact flag
        · rw [unchanged]

/-- **A sweep.**  It keeps what sweeps keep, and either adds an entry and says so, or the
sets solve the equations. -/
theorem sweep_spec (ascending : flow.Ascending live) :
    flow.Ascending (flow.sweep live).1
      ∧ (flow.weight live < flow.weight (flow.sweep live).1 ∧ (flow.sweep live).2 = true
        ∨ flow.sweep live = (live, false)
          ∧ ∀ node < flow.size, flow.transfer live node = live.getD node ∅) := by
  have inside : ∀ node ∈ (List.range flow.size).reverse, node < flow.size := by simp
  obtain ⟨kept, -, done⟩ := foldl_visit _ inside false ascending
  exact ⟨kept, done.imp_right fun ⟨unchanged, solved⟩ =>
    ⟨unchanged, fun node bound => solved node (by simpa using bound)⟩⟩

/-! ### The solution -/

/-- Sets of needed names that solve the equations. -/
structure Solved (flow : Flow α) (live : List (Finset α)) : Prop extends flow.Ascending live where
  equation : ∀ node < flow.size, flow.transfer live node = live.getD node ∅

theorem solve_solved {fuel : Nat} : ∀ {live result : List (Finset α)}, flow.Ascending live →
    flow.solve fuel live = some result → flow.Solved result := by
  induction fuel with
  | zero => exact fun _ returned => by cases returned
  | succ fuel ih =>
    intro live result ascending returned
    obtain ⟨kept, done⟩ := sweep_spec ascending
    rw [solve] at returned
    rcases done with ⟨-, flag⟩ | ⟨unchanged, equation⟩
    · rcases swept : flow.sweep live with ⟨next, _ | _⟩
      · rw [swept] at flag
        cases flag
      · rw [swept] at returned kept
        exact ih kept returned
    · rw [unchanged] at returned
      cases returned
      exact ⟨ascending, equation⟩

theorem solve_returns {fuel : Nat} : ∀ {live : List (Finset α)}, flow.Ascending live →
    flow.size * flow.used.card < flow.weight live + fuel →
    ∃ result, flow.solve fuel live = some result := by
  induction fuel with
  | zero =>
    intro live ascending enough
    exact absurd ascending.weight_le (by omega)
  | succ fuel ih =>
    intro live ascending enough
    obtain ⟨kept, done⟩ := sweep_spec ascending
    rw [solve]
    rcases done with ⟨grown, flag⟩ | ⟨unchanged, -⟩
    · rcases swept : flow.sweep live with ⟨next, _ | _⟩
      · rw [swept] at flag
        cases flag
      · rw [swept] at grown kept
        exact ih kept (by dsimp only at grown; omega)
    · rw [unchanged]
      exact ⟨live, rfl⟩

/-- **The least solution.**  A solution consists of the needed names. -/
theorem Solved.mem_iff (solved : flow.Solved live) :
    name ∈ live.getD node ∅ ↔ flow.Needed name node := by
  refine ⟨solved.needed node name, fun needed => ?_⟩
  induction needed with
  | here inside used =>
    rw [← solved.equation _ inside, mem_transfer]
    exact .inl used
  | later inside free next _ ih =>
    rw [← solved.equation _ inside, mem_transfer]
    exact .inr ⟨free, _, next, ih⟩

/-- Needed names are in every solution of the inequations. -/
theorem Needed.mem_of_closed
    (closed : ∀ node < flow.size, flow.transfer live node ⊆ live.getD node ∅)
    (needed : flow.Needed name node) : name ∈ live.getD node ∅ := by
  induction needed with
  | here inside used => exact closed _ inside (flow.mem_transfer.mpr (.inl used))
  | later inside free next _ ih =>
    exact closed _ inside (flow.mem_transfer.mpr (.inr ⟨free, _, next, ih⟩))

variable (flow) in
/-- **Termination.**  The sweeps end, with a solution. -/
theorem liveIn_solved :
    flow.solve (flow.size * flow.used.card + 1) flow.start = some flow.liveIn ∧ flow.Solved flow.liveIn := by
  obtain ⟨result, returned⟩ := solve_returns flow.ascending_start (by
    have none_less : 0 ≤ flow.weight flow.start := Nat.zero_le _
    omega : flow.size * flow.used.card < flow.weight flow.start + (flow.size * flow.used.card + 1))
  have same : flow.liveIn = result := by rw [liveIn, returned, Option.getD_some]
  rw [same]
  exact ⟨returned, solve_solved flow.ascending_start returned⟩

/-- The least solution of the equations, which the sweeps reach. -/
structure Least (flow : Flow α) (live : List (Finset α)) : Prop where
  reached : flow.solve (flow.size * flow.used.card + 1) flow.start = some live
  equation : ∀ node < flow.size, flow.transfer live node = live.getD node ∅
  least : ∀ other, (∀ node < flow.size, flow.transfer other node ⊆ other.getD node ∅) → Below live other

variable (flow) in
theorem liveIn_least : flow.Least flow.liveIn where
  reached := flow.liveIn_solved.1
  equation := flow.liveIn_solved.2.equation
  least _ closed _ _ mem := (flow.liveIn_solved.2.mem_iff.mp mem).mem_of_closed closed

end Flow

end Liveness
