import Mathlib.Data.List.Dedup
import Mathlib.Tactic.Common

/-!
# Closure by a worklist

The nodes that a list of nodes reaches, computed by visiting each of them once.
-/

namespace Onda.Reach

variable {α : Type} [DecidableEq α] {next : α → List α} {pool : List α}

/-- The nodes of `next node` that are new. -/
def fresh (next : α → List α) (reached : List α) (node : α) : List α :=
  ((next node).filter (· ∉ reached)).dedup

/-- The nodes of the pool that are not reached. -/
def left (pool reached : List α) : Nat := (pool.filter (· ∉ reached)).length

variable {reached roots work : List α} {node : α}

theorem mem_fresh {other : α} :
    other ∈ fresh next reached node ↔ other ∈ next node ∧ other ∉ reached := by
  simp [fresh]

theorem left_lt (inside : ∀ other ∈ next node, other ∈ pool) (some : fresh next reached node ≠ []) :
    left pool (reached ++ fresh next reached node) < left pool reached := by
  obtain ⟨other, mem⟩ := List.exists_mem_of_ne_nil _ some
  have known := mem_fresh.mp mem
  unfold left
  have split : pool.filter (· ∉ reached ++ fresh next reached node) =
      (pool.filter (· ∉ reached)).filter (· ∉ fresh next reached node) := by
    rw [List.filter_filter]
    refine List.filter_congr fun candidate _ => ?_
    simp [not_or, Bool.and_comm]
  rw [split]
  refine List.length_filter_lt_length_iff_exists.mpr ⟨other, ?_, ?_⟩
  · exact List.mem_filter.mpr ⟨inside other known.1, by simpa using known.2⟩
  · simpa using mem

/-- Visits the nodes of `work`; everything in `work` is reached already. -/
def loop (next : α → List α) (pool : List α) (inside : ∀ node, ∀ other ∈ next node, other ∈ pool)
    (reached : List α) : List α → List α
  | [] => reached
  | node :: work =>
    if fresh next reached node = [] then loop next pool inside reached work
    else loop next pool inside (reached ++ fresh next reached node)
      ((fresh next reached node).reverse ++ work)
termination_by work => (left pool reached, work.length)
decreasing_by
  · exact Prod.Lex.right _ (by simp)
  · exact Prod.Lex.left _ _ (left_lt (inside node) (by assumption))

theorem loop_nil (inside : ∀ node, ∀ other ∈ next node, other ∈ pool) (reached : List α) :
    loop next pool inside reached [] = reached := by
  rw [loop]

/-- A visit adds the new nodes to what is reached and to the work. -/
theorem loop_cons (inside : ∀ node, ∀ other ∈ next node, other ∈ pool) (new : List α)
    (found : fresh next reached node = new) :
    loop next pool inside reached (node :: work) =
      loop next pool inside (reached ++ new) (new.reverse ++ work) := by
  rw [loop]
  subst found
  split
  · rename_i nothing
    rw [nothing, List.append_nil, List.reverse_nil, List.nil_append]
  · rfl

/-- The nodes that some nodes reach. -/
inductive Reaches (next : α → List α) (roots : List α) : α → Prop
  | root {node : α} (mem : node ∈ roots) : Reaches next roots node
  | next {node other : α} (reaches : Reaches next roots node) (mem : other ∈ next node) :
      Reaches next roots other

/-- The reached nodes whose successors may be missing are still to be visited. -/
structure Covers (next : α → List α) (roots reached work : List α) : Prop where
  distinct : reached.Nodup
  rooted : ∀ node ∈ roots, node ∈ reached
  reaches : ∀ node ∈ reached, Reaches next roots node
  queued : ∀ node ∈ work, node ∈ reached
  closed : ∀ node ∈ reached, node ∉ work → ∀ other ∈ next node, other ∈ reached

theorem Covers.visit (covers : Covers next roots reached (node :: work)) :
    Covers next roots (reached ++ fresh next reached node)
      ((fresh next reached node).reverse ++ work) where
  distinct := by
    refine List.nodup_append.mpr ⟨covers.distinct, List.nodup_dedup _, ?_⟩
    rintro first memFirst second memSecond rfl
    exact (mem_fresh.mp memSecond).2 memFirst
  rooted other mem := List.mem_append_left _ (covers.rooted other mem)
  reaches := by
    intro other mem
    rcases List.mem_append.mp mem with mem | mem
    · exact covers.reaches other mem
    · exact .next (covers.reaches node (covers.queued node List.mem_cons_self)) (mem_fresh.mp mem).1
  queued := by
    intro other mem
    rcases List.mem_append.mp mem with mem | mem
    · exact List.mem_append_right _ (List.mem_reverse.mp mem)
    · exact List.mem_append_left _ (covers.queued other (List.mem_cons_of_mem _ mem))
  closed := by
    intro other mem waits target arc
    rw [List.mem_append, List.mem_reverse, not_or] at waits
    rw [List.mem_append]
    by_cases known : target ∈ reached
    · exact .inl known
    · rcases List.mem_append.mp mem with mem | mem
      · by_cases here : other = node
        · subst here
          exact .inr (mem_fresh.mpr ⟨arc, known⟩)
        · have idle : other ∉ node :: work := by simp [here, waits.2]
          exact .inl (covers.closed other mem idle target arc)
      · exact absurd mem waits.1

theorem loop_covers (inside : ∀ node, ∀ other ∈ next node, other ∈ pool)
    (covers : Covers next roots reached work) :
    Covers next roots (loop next pool inside reached work) [] := by
  induction reached, work using loop.induct next pool inside with
  | case1 reached => rw [loop]; exact covers
  | case2 reached node work none ih =>
    rw [loop, if_pos none]
    have visited := covers.visit
    rw [none, List.append_nil, List.reverse_nil, List.nil_append] at visited
    exact ih visited
  | case3 reached node work some ih =>
    rw [loop, if_neg some]
    exact ih covers.visit

/-- The nodes that `roots` reaches. -/
def closure (next : α → List α) (pool : List α)
    (inside : ∀ node, ∀ other ∈ next node, other ∈ pool) (roots : List α) : List α :=
  loop next pool inside roots.dedup roots.dedup.reverse

theorem closure_covers (inside : ∀ node, ∀ other ∈ next node, other ∈ pool) (roots : List α) :
    Covers next roots (closure next pool inside roots) [] := by
  refine loop_covers inside ⟨List.nodup_dedup _, fun node mem => List.mem_dedup.mpr mem,
    fun node mem => .root (List.mem_dedup.mp mem), fun node mem => List.mem_reverse.mp mem, ?_⟩
  intro node mem waits
  exact absurd (List.mem_reverse.mpr mem) waits

theorem mem_closure (inside : ∀ node, ∀ other ∈ next node, other ∈ pool)
    : node ∈ closure next pool inside roots ↔ Reaches next roots node := by
  have covers := closure_covers inside roots
  refine ⟨covers.reaches node, fun reaches => ?_⟩
  induction reaches with
  | root mem => exact covers.rooted _ mem
  | next _ arc ih => exact covers.closed _ ih (by simp) _ arc

end Onda.Reach
