import Mathlib.Data.Int.Order.Basic
import Mathlib.Logic.Function.Basic
import Mathlib.Tactic.Linarith

/-!
# Difference constraints

Constraints `value to ≤ value from + offset`, and the shortest-path search that
derives new ones from them: the distance of a node is an upper bound of its value
relative to the source.  Offsets may be negative, and the number of rounds is
bounded, so the search ends for contradictory constraints too.

The addition of offsets is a parameter that may fail; a path whose length it does
not give is not used.
-/

namespace Differences

variable {ν : Type} [DecidableEq ν]

/-- The constraint `value to ≤ value from + offset`. -/
structure Edge (ν : Type) where
  source : ν
  target : ν
  offset : Int

def Edge.Holds (value : ν → Int) (edge : Edge ν) : Prop :=
  value edge.target ≤ value edge.source + edge.offset

/-- Upper bounds of values relative to the source of a search. -/
abbrev Distances (ν : Type) := ν → Option Int

def Distances.start (source : ν) : Distances ν := Function.update (fun _ => none) source (some 0)

/-- The distances bound the values. -/
def Distances.Hold (value : ν → Int) (source : ν) (distances : Distances ν) : Prop :=
  ∀ node distance, distances node = some distance → value node ≤ value source + distance

section Search

variable (add : Int → Int → Option Int)

/-- Follows one edge; the flag tells that some distance became shorter. -/
def relax (state : Distances ν × Bool) (edge : Edge ν) : Distances ν × Bool :=
  match (state.1 edge.source).bind (add · edge.offset) with
  | none => state
  | some candidate =>
    if (state.1 edge.target).all (decide <| candidate < ·) then
      (Function.update state.1 edge.target (some candidate), true)
    else state

/-- The target is known to be within `limit` of the source. -/
def within (target : ν) (limit : Int) (distances : Distances ν) : Bool :=
  (distances target).any (decide <| · ≤ limit)

/-- At most `rounds` rounds over all edges. -/
def search (edges : List (Edge ν)) (target : ν) (limit : Int) : Nat → Distances ν → Bool
  | 0, distances => within target limit distances
  | rounds + 1, distances =>
    if within target limit distances then true
    else
      let next := edges.foldl (relax add) (distances, false)
      if next.2 then search edges target limit rounds next.1
      else within target limit next.1

end Search

variable {add : Int → Int → Option Int} {value : ν → Int} {source target : ν} {limit : Int}

theorem start_hold : (Distances.start source).Hold value source := by
  intro node distance known
  by_cases same : node = source
  · subst same
    rw [Distances.start, Function.update_self] at known
    cases known
    omega
  · rw [Distances.start, Function.update_of_ne same] at known
    cases known

/-- **Step.**  Following an edge that holds keeps the bounds. -/
theorem relax_hold (exact_ : ∀ a b c, add a b = some c → c = a + b)
    {state : Distances ν × Bool} {edge : Edge ν} (hold : state.1.Hold value source)
    (holds : edge.Holds value) : (relax add state edge).1.Hold value source := by
  unfold relax
  split
  · exact hold
  case h_2 candidate found =>
    obtain ⟨distance, atSource, sum⟩ := Option.bind_eq_some_iff.mp found
    split
    · intro node other known
      simp only at known
      by_cases same : node = edge.target
      · subst same
        rw [Function.update_self] at known
        cases known
        have first := hold edge.source distance atSource
        have total := exact_ _ _ _ sum
        unfold Edge.Holds at holds
        omega
      · rw [Function.update_of_ne same] at known
        exact hold node other known
    · exact hold

theorem foldl_relax_hold (exact_ : ∀ a b c, add a b = some c → c = a + b) {edges : List (Edge ν)}
    (holds : ∀ edge ∈ edges, edge.Holds value) {state : Distances ν × Bool}
    (hold : state.1.Hold value source) : (edges.foldl (relax add) state).1.Hold value source := by
  induction edges generalizing state with
  | nil => exact hold
  | cons edge edges ih =>
    rw [List.forall_mem_cons] at holds
    rw [List.foldl_cons]
    exact ih holds.2 (relax_hold exact_ hold holds.1)

omit [DecidableEq ν] in
theorem within_sound {distances : Distances ν} (hold : distances.Hold value source)
    (found : within target limit distances = true) : value target ≤ value source + limit := by
  unfold within at found
  cases known : distances target with
  | none => simp [known] at found
  | some distance =>
    have bound := hold target distance known
    simp only [known, Option.any_some, decide_eq_true_eq] at found
    omega

/-- **Search.**  From constraints that hold, the search answers yes only for a
constraint that holds. -/
theorem search_sound (exact_ : ∀ a b c, add a b = some c → c = a + b) {edges : List (Edge ν)}
    (holds : ∀ edge ∈ edges, edge.Holds value) :
    ∀ (rounds : Nat) {distances : Distances ν}, distances.Hold value source →
      search add edges target limit rounds distances = true →
      value target ≤ value source + limit
  | 0, _, hold, found => within_sound hold found
  | rounds + 1, distances, hold, found => by
    rw [search] at found
    simp only at found
    split at found
    case isTrue already => exact within_sound hold already
    case isFalse =>
      have next : (edges.foldl (relax add) (distances, false)).1.Hold value source :=
        foldl_relax_hold exact_ holds hold
      split at found
      · exact search_sound exact_ holds rounds next found
      · exact within_sound next found

end Differences
