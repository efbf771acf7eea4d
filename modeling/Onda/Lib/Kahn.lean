import Mathlib.Data.List.Sort
import Mathlib.Data.List.Dedup
import Mathlib.Data.List.Nodup
import Mathlib.Data.List.Perm.Subperm
import Mathlib.Data.Fintype.Card
import Mathlib.Data.Set.Finite.Basic
import Mathlib.Logic.Relation
import Mathlib.Order.Defs.LinearOrder
import Mathlib.Order.WellFounded

/-!
# Topological order by counting

Kahn's algorithm over a list of arcs: a node is ready when none of its arcs comes from a node that
is still to be listed.  When every node is listed, each comes after the sources of its arcs;
nodes are left over exactly when there is a cycle.
-/

namespace Onda.Kahn

variable {α : Type}

/-- Each node of a list comes after the sources of its arcs. -/
def Ordered (arcs : List (α × α)) : List α → List α → Prop
  | _, [] => True
  | before, node :: rest =>
    (∀ arc ∈ arcs, arc.2 = node → arc.1 ∈ before) ∧ Ordered arcs (before ++ [node]) rest

theorem ordered_append {arcs : List (α × α)} {before first : List α} {node : α}
    (ordered : Ordered arcs before first)
    (last : ∀ arc ∈ arcs, arc.2 = node → arc.1 ∈ before ++ first) :
    Ordered arcs before (first ++ [node]) := by
  induction first generalizing before with
  | nil =>
    rw [List.append_nil] at last
    exact ⟨last, trivial⟩
  | cons head first ih =>
    refine ⟨ordered.1, ih ordered.2 ?_⟩
    intro arc mem into
    rw [List.append_assoc, List.singleton_append]
    exact last arc mem into

variable [LinearOrder α]

/-- The nodes that are listed, the ones that are ready, and the open arcs of each node. -/
structure State (α : Type) where
  pending : α → Nat
  ready : List α
  listed : List α

/-- One arc less into `next`. -/
def release (state : (α → Nat) × List α) (next : α) : (α → Nat) × List α :=
  (Function.update state.1 next (state.1 next - 1),
    if state.1 next - 1 = 0 then state.2 ++ [next] else state.2)

def successors (arcs : List (α × α)) (node : α) : List α :=
  (arcs.filter (·.1 = node)).map (·.2)

/-- The open arcs into a node, given the nodes that are listed. -/
def openArcs (arcs : List (α × α)) (listed : List α) (node : α) : Nat :=
  arcs.countP fun arc => arc.2 = node ∧ arc.1 ∉ listed

/-- Lists the first ready node. -/
def step (arcs : List (α × α)) (state : State α) (node : α) (rest : List α) : State α :=
  { pending := ((successors arcs node).foldl release (state.pending, rest)).1
    ready := ((successors arcs node).foldl release (state.pending, rest)).2.insertionSort (· ≤ ·)
    listed := state.listed ++ [node] }

/-- At most `fuel` nodes. -/
def loop (arcs : List (α × α)) : Nat → State α → State α
  | 0, state => state
  | fuel + 1, state =>
    match state.ready with
    | [] => state
    | node :: rest => loop arcs fuel (step arcs state node rest)

def start (nodes : List α) (arcs : List (α × α)) : State α where
  pending := openArcs arcs []
  ready := (nodes.filter (openArcs arcs [] · = 0)).insertionSort (· ≤ ·)
  listed := []

/-- The nodes in the order in which they become ready. -/
def sort (nodes : List α) (arcs : List (α × α)) : List α :=
  (loop arcs nodes.length (start nodes arcs)).listed

/-! ### One step -/

theorem foldl_release (nexts : List α) (distinct : nexts.Nodup) (pending : α → Nat)
    (ready : List α) :
    (∀ node, (nexts.foldl release (pending, ready)).1 node =
      if node ∈ nexts then pending node - 1 else pending node) ∧
    (nexts.foldl release (pending, ready)).2 =
      ready ++ nexts.filter (pending · - 1 = 0) := by
  induction nexts generalizing pending ready with
  | nil => simp
  | cons next nexts ih =>
    obtain ⟨fresh, distinct⟩ := List.nodup_cons.mp distinct
    have rest := ih distinct (release (pending, ready) next).1 (release (pending, ready) next).2
    have same : ∀ node ∈ nexts, (release (pending, ready) next).1 node = pending node := by
      intro node mem
      refine Function.update_of_ne ?_ _ _
      rintro rfl
      exact fresh mem
    refine ⟨fun node => ?_, ?_⟩
    · rw [List.foldl_cons, rest.1 node]
      by_cases here : node = next
      · subst here
        simp [fresh, release]
      · by_cases mem : node ∈ nexts
        · simp [mem, same node mem]
        · simp [mem, here, release]
    · rw [List.foldl_cons, rest.2]
      have filters : nexts.filter ((release (pending, ready) next).1 · - 1 = 0) =
          nexts.filter (pending · - 1 = 0) :=
        List.filter_congr fun node mem => by rw [same node mem]
      rw [filters]
      by_cases frees : pending next - 1 = 0
      · simp [release, frees]
      · simp [release, frees]

theorem nodup_successors {arcs : List (α × α)} (distinct : arcs.Nodup) (node : α) :
    (successors arcs node).Nodup := by
  refine List.Nodup.map_on ?_ (distinct.filter _)
  intro first memFirst second memSecond same
  have here := (List.mem_filter.mp memFirst).2
  have there := (List.mem_filter.mp memSecond).2
  simp only [decide_eq_true_eq] at here there
  exact Prod.ext (here.trans there.symm) same

theorem mem_successors {arcs : List (α × α)} {node next : α} :
    next ∈ successors arcs node ↔ (node, next) ∈ arcs := by
  unfold successors
  constructor
  · intro mem
    obtain ⟨arc, kept, rfl⟩ := List.mem_map.mp mem
    obtain ⟨here, source⟩ := List.mem_filter.mp kept
    simp only [decide_eq_true_eq] at source
    subst source
    exact here
  · intro mem
    exact List.mem_map.mpr ⟨(node, next), List.mem_filter.mpr ⟨mem, by simp⟩, rfl⟩

theorem openArcs_listed {arcs : List (α × α)} (distinct : arcs.Nodup) {listed : List α} {node : α}
    (fresh : node ∉ listed) (next : α) :
    openArcs arcs listed next =
      openArcs arcs (listed ++ [node]) next + if (node, next) ∈ arcs then 1 else 0 := by
  unfold openArcs
  induction arcs with
  | nil => simp
  | cons arc arcs ih =>
    obtain ⟨new, distinct⟩ := List.nodup_cons.mp distinct
    rw [List.countP_cons, List.countP_cons, ih distinct]
    by_cases here : arc = (node, next)
    · subst here
      simp [new, fresh]
    · have other : ¬(node, next) = arc := fun equal => here equal.symm
      simp only [List.mem_cons, other, false_or, List.mem_append, List.not_mem_nil, or_false,
        not_or]
      by_cases into : arc.2 = next
      · have away : ¬arc.1 = node := fun equal => here (Prod.ext equal into)
        simp only [into, away, not_false_eq_true, and_true, true_and]
        omega
      · simp [into]

/-! ### The algorithm -/

/-- What holds of every state. -/
structure Sound (nodes : List α) (arcs : List (α × α)) (state : State α) : Prop where
  distinct : (state.listed ++ state.ready).Nodup
  inside : ∀ node ∈ state.listed ++ state.ready, node ∈ nodes
  counts : ∀ node, state.pending node = openArcs arcs state.listed node
  free : ∀ node ∈ state.listed ++ state.ready, state.pending node = 0
  ordered : Ordered arcs [] state.listed

variable {nodes : List α} {arcs : List (α × α)}

theorem openArcs_eq_zero {listed : List α} {node : α} (none : openArcs arcs listed node = 0) :
    ∀ arc ∈ arcs, arc.2 = node → arc.1 ∈ listed := by
  intro arc mem into
  by_contra missing
  have positive := List.countP_eq_zero.mp none arc mem
  simp [into, missing] at positive

theorem start_sound (distinct : nodes.Nodup) : Sound nodes arcs (start nodes arcs) where
  distinct := by
    rw [start, List.nil_append]
    exact (List.perm_insertionSort _ _).nodup_iff.mpr (distinct.filter _)
  inside := by
    intro node mem
    rw [start, List.nil_append, (List.perm_insertionSort _ _).mem_iff, List.mem_filter] at mem
    exact mem.1
  counts _ := rfl
  free := by
    intro node mem
    rw [start, List.nil_append, (List.perm_insertionSort _ _).mem_iff, List.mem_filter] at mem
    exact of_decide_eq_true mem.2
  ordered := trivial

variable {state : State α}

/-- A step keeps the state sound. -/
theorem step_sound (distinct : arcs.Nodup) (targets : ∀ arc ∈ arcs, arc.2 ∈ nodes)
    (sound : Sound nodes arcs state) {node : α} {rest : List α} (ready : state.ready = node :: rest)
    : Sound nodes arcs (step arcs state node rest) := by
  obtain ⟨pends, readies⟩ :=
    foldl_release (successors arcs node) (nodup_successors distinct node) state.pending rest
  have all := sound.distinct
  rw [ready] at all
  have fresh : node ∉ state.listed := fun mem =>
    (List.nodup_append.mp all).2.2 node mem node List.mem_cons_self rfl
  have counts : ∀ next, (step arcs state node rest).pending next =
      openArcs arcs (state.listed ++ [node]) next := by
    intro next
    have shape : (step arcs state node rest).pending next =
        ((successors arcs node).foldl release (state.pending, rest)).1 next := rfl
    rw [shape, pends next, sound.counts next, openArcs_listed distinct fresh next]
    by_cases arc : (node, next) ∈ arcs
    · rw [if_pos (mem_successors.mpr arc), if_pos arc]
      omega
    · rw [if_neg fun mem => arc (mem_successors.mp mem), if_neg arc]
      omega
  have perm : (state.listed ++ [node] ++ (step arcs state node rest).ready).Perm
      (state.listed ++ state.ready ++ (successors arcs node).filter (state.pending · - 1 = 0)) := by
    rw [step, readies, ready, List.append_assoc, List.append_assoc, List.singleton_append,
      List.cons_append]
    exact ((List.perm_insertionSort _ _).cons node).append_left _
  -- a node that becomes ready had an open arc until now
  have blocked : ∀ next ∈ successors arcs node, 0 < state.pending next := by
    intro next mem
    rw [sound.counts next, openArcs_listed distinct fresh next, if_pos (mem_successors.mp mem)]
    omega
  refine ⟨?_, ?_, counts, ?_, ?_⟩
  · refine perm.nodup_iff.mpr (List.nodup_append.mpr ⟨sound.distinct,
      (nodup_successors distinct node).filter _, ?_⟩)
    intro first memFirst second memSecond same
    subst same
    have zero := sound.free first memFirst
    have positive := blocked first (List.mem_filter.mp memSecond).1
    omega
  · intro next mem
    rcases List.mem_append.mp (perm.mem_iff.mp mem) with mem | mem
    · exact sound.inside next mem
    · exact targets (node, next) (mem_successors.mp (List.mem_filter.mp mem).1)
  · intro next mem
    rw [counts next]
    have before := openArcs_listed distinct fresh next
    rw [← sound.counts next] at before
    rcases List.mem_append.mp (perm.mem_iff.mp mem) with mem | mem
    · have zero := sound.free next mem
      omega
    · obtain ⟨arc, freed⟩ := List.mem_filter.mp mem
      rw [if_pos (mem_successors.mp arc)] at before
      simp only [decide_eq_true_eq] at freed
      omega
  · refine ordered_append sound.ordered ?_
    have zero : openArcs arcs state.listed node = 0 := by
      rw [← sound.counts node]
      exact sound.free node (by simp [ready])
    exact openArcs_eq_zero zero

theorem loop_sound (distinct : arcs.Nodup) (targets : ∀ arc ∈ arcs, arc.2 ∈ nodes) (fuel : Nat)
    (sound : Sound nodes arcs state) :
    Sound nodes arcs (loop arcs fuel state) := by
  induction fuel generalizing state with
  | zero => exact sound
  | succ fuel ih =>
    unfold loop
    split
    · exact sound
    · rename_i node rest ready
      exact ih (step_sound distinct targets sound ready)

/-- When every node is listed, the list is a topological order. -/
theorem sort_ordered (distinct : nodes.Nodup) (distinctArcs : arcs.Nodup)
    (targets : ∀ arc ∈ arcs, arc.2 ∈ nodes) (complete : (sort nodes arcs).length = nodes.length) :
    (sort nodes arcs).Perm nodes ∧ Ordered arcs [] (sort nodes arcs) := by
  have sound := loop_sound distinctArcs targets nodes.length (start_sound distinct)
  refine ⟨?_, sound.ordered⟩
  have subset : sort nodes arcs ⊆ nodes := fun node mem =>
    sound.inside node (List.mem_append_left _ mem)
  have once : (sort nodes arcs).Nodup := (List.nodup_append.mp sound.distinct).1
  exact (List.subperm_of_subset once subset).perm_of_length_le complete.ge

/-! ### Cycles -/

/-- One node depends on another. -/
def Arc (arcs : List (α × α)) (node other : α) : Prop := (node, other) ∈ arcs

omit [LinearOrder α] in
/-- Where each node of a list follows another one of it, some node follows itself. -/
theorem exists_cycle {R : α → α → Prop} {held : List α} (some : held ≠ [])
    (follows : ∀ node ∈ held, ∃ before ∈ held, R before node) :
    ∃ node ∈ held, Relation.TransGen R node node := by
  by_contra none
  push Not at none
  let Later (first second : {node // node ∈ held}) : Prop := Relation.TransGen R first.1 second.1
  have finite : Finite {node // node ∈ held} := (List.finite_toSet held).to_subtype
  have trans : IsTrans {node // node ∈ held} Later := ⟨fun _ _ _ first second => first.trans second⟩
  have irrefl : Std.Irrefl Later := ⟨fun node => none node.1 node.2⟩
  have wellFounded : WellFounded Later := Finite.wellFounded_of_trans_of_irrefl Later
  obtain ⟨node, mem⟩ := List.exists_mem_of_ne_nil _ some
  obtain ⟨⟨least, among⟩, -, minimal⟩ := wellFounded.has_min Set.univ ⟨⟨node, mem⟩, trivial⟩
  obtain ⟨before, inside, arc⟩ := follows least among
  exact minimal ⟨before, inside⟩ trivial (.single arc)

/-- The nodes without open arcs are listed or ready. -/
def Full (nodes : List α) (state : State α) : Prop :=
  ∀ node ∈ nodes, state.pending node = 0 → node ∈ state.listed ++ state.ready

theorem start_full : Full nodes (start nodes arcs) := by
  intro node mem zero
  rw [start, List.nil_append, (List.perm_insertionSort _ _).mem_iff, List.mem_filter]
  exact ⟨mem, decide_eq_true zero⟩

theorem step_full (distinct : arcs.Nodup) (full : Full nodes state) {node : α} {rest : List α}
    (ready : state.ready = node :: rest) : Full nodes (step arcs state node rest) := by
  obtain ⟨pends, readies⟩ :=
    foldl_release (successors arcs node) (nodup_successors distinct node) state.pending rest
  intro other mem zero
  have shape : (step arcs state node rest).ready
      = ((successors arcs node).foldl release (state.pending, rest)).2.insertionSort (· ≤ ·) := rfl
  rw [List.mem_append, shape, (List.perm_insertionSort _ _).mem_iff, readies]
  have here : (step arcs state node rest).pending other
      = ((successors arcs node).foldl release (state.pending, rest)).1 other := rfl
  rw [here, pends other] at zero
  by_cases next : other ∈ successors arcs node
  · rw [if_pos next] at zero
    exact .inr (List.mem_append_right _ (List.mem_filter.mpr ⟨next, decide_eq_true zero⟩))
  · rw [if_neg next] at zero
    have known := full other mem zero
    rw [ready, List.mem_append, List.mem_cons] at known
    show other ∈ state.listed ++ [node] ∨ _
    rcases known with listed | rfl | waits
    · exact .inl (List.mem_append_left _ listed)
    · exact .inl (List.mem_append_right _ (List.mem_singleton_self _))
    · exact .inr (List.mem_append_left _ waits)

theorem loop_full (distinct : arcs.Nodup) (fuel : Nat) (full : Full nodes state) :
    Full nodes (loop arcs fuel state)
      ∧ ((loop arcs fuel state).ready = []
        ∨ (loop arcs fuel state).listed.length = state.listed.length + fuel) := by
  induction fuel generalizing state with
  | zero => exact ⟨full, .inr rfl⟩
  | succ fuel ih =>
    unfold loop
    split
    case h_1 none => exact ⟨full, .inl none⟩
    case h_2 node rest ready =>
      obtain ⟨full', ends⟩ := ih (step_full distinct full ready)
      refine ⟨full', ends.imp_right fun length => ?_⟩
      rw [length, step, List.length_append, List.length_singleton]
      omega

/-- The state in which the algorithm stops. -/
def final (nodes : List α) (arcs : List (α × α)) : State α :=
  loop arcs nodes.length (start nodes arcs)

theorem final_sound (distinct : nodes.Nodup) (distinctArcs : arcs.Nodup)
    (targets : ∀ arc ∈ arcs, arc.2 ∈ nodes) : Sound nodes arcs (final nodes arcs) :=
  loop_sound distinctArcs targets nodes.length (start_sound distinct)

/-- What is listed are nodes, each of them once. -/
theorem sort_subperm (distinct : nodes.Nodup) (distinctArcs : arcs.Nodup)
    (targets : ∀ arc ∈ arcs, arc.2 ∈ nodes) : (sort nodes arcs).Subperm nodes := by
  have sound := final_sound distinct distinctArcs targets
  exact List.subperm_of_subset (List.nodup_append.mp sound.distinct).1 fun node mem =>
    sound.inside node (List.mem_append_left _ mem)

/-- A node that is not listed waits for one that is not listed. -/
theorem exists_open (distinct : nodes.Nodup) (distinctArcs : arcs.Nodup)
    (targets : ∀ arc ∈ arcs, arc.2 ∈ nodes) {node : α} (mem : node ∈ nodes)
    (unlisted : node ∉ sort nodes arcs) :
    0 < (final nodes arcs).pending node
      ∧ ∃ before, (before, node) ∈ arcs ∧ before ∉ sort nodes arcs := by
  have sound := final_sound distinct distinctArcs targets
  obtain ⟨full, ends⟩ := loop_full distinctArcs nodes.length (start_full : Full nodes (start nodes arcs))
  have idle : (final nodes arcs).ready = [] := by
    rcases ends with none | length
    · exact none
    · have all : (sort nodes arcs).Perm nodes :=
        (sort_subperm distinct distinctArcs targets).perm_of_length_le (by
          rw [sort, length, start, List.length_nil, Nat.zero_add])
      exact absurd (all.mem_iff.mpr mem) unlisted
  have waits : (final nodes arcs).pending node ≠ 0 := by
    intro zero
    have known := full node mem zero
    rw [show (loop arcs nodes.length (start nodes arcs)).ready = [] from idle, List.append_nil] at known
    exact unlisted known
  refine ⟨Nat.pos_of_ne_zero waits, ?_⟩
  rw [sound.counts node, openArcs] at waits
  obtain ⟨arc, inside, test⟩ := List.countP_pos_iff.mp (Nat.pos_of_ne_zero waits)
  simp only [decide_eq_true_eq] at test
  exact ⟨arc.1, test.1 ▸ inside, test.2⟩

theorem pending_listed (distinct : nodes.Nodup) (distinctArcs : arcs.Nodup)
    (targets : ∀ arc ∈ arcs, arc.2 ∈ nodes) {node : α} (listed : node ∈ sort nodes arcs) :
    (final nodes arcs).pending node = 0 :=
  (final_sound distinct distinctArcs targets).free node (List.mem_append_left _ listed)

/-- In an ordered list arcs lead to later places. -/
theorem Ordered.idxOf_lt {before list : List α} (ordered : Ordered arcs before list) {node other : α}
    (arc : (node, other) ∈ arcs) (mem : other ∈ list) (fresh : node ∉ before) :
    list.idxOf node < list.idxOf other := by
  induction list generalizing before with
  | nil => cases mem
  | cons head list ih =>
    by_cases here : head = other
    · exact absurd (ordered.1 _ arc here.symm) fresh
    · by_cases first : head = node
      · subst first
        rw [List.idxOf_cons_self, List.idxOf_cons_ne _ here]
        exact Nat.succ_pos _
      · rw [List.idxOf_cons_ne _ here, List.idxOf_cons_ne _ first]
        refine Nat.succ_lt_succ (ih ordered.2 ?_ ?_)
        · exact (List.mem_cons.mp mem).resolve_left (Ne.symm here)
        · simpa [fresh] using Ne.symm first

/-- Nodes are left over exactly when there is a cycle. -/
theorem incomplete_iff (distinct : nodes.Nodup) (distinctArcs : arcs.Nodup)
    (targets : ∀ arc ∈ arcs, arc.2 ∈ nodes) (sources : ∀ arc ∈ arcs, arc.1 ∈ nodes) :
    (sort nodes arcs).length ≠ nodes.length ↔ ∃ node, Relation.TransGen (Arc arcs) node node := by
  constructor
  · intro incomplete
    obtain ⟨node, mem, unlisted⟩ : ∃ node ∈ nodes, node ∉ sort nodes arcs := by
      by_contra all
      push Not at all
      exact incomplete (le_antisymm (sort_subperm distinct distinctArcs targets).length_le
        (List.subperm_of_subset distinct all).length_le)
    have follows : ∀ node ∈ nodes.filter (· ∉ sort nodes arcs),
        ∃ before ∈ nodes.filter (· ∉ sort nodes arcs), Arc arcs before node := by
      intro node kept
      obtain ⟨mem, unlisted⟩ := List.mem_filter.mp kept
      obtain ⟨-, before, arc, waits⟩ :=
        exists_open distinct distinctArcs targets mem (of_decide_eq_true unlisted)
      exact ⟨before, List.mem_filter.mpr ⟨sources _ arc, decide_eq_true waits⟩, arc⟩
    obtain ⟨around, -, cycle⟩ := exists_cycle
      (List.ne_nil_of_mem (List.mem_filter.mpr ⟨mem, decide_eq_true unlisted⟩)) follows
    exact ⟨around, cycle⟩
  · rintro ⟨node, cycle⟩ complete
    obtain ⟨perm, ordered⟩ := sort_ordered distinct distinctArcs targets complete
    have later : ∀ first second, Relation.TransGen (Arc arcs) first second →
        (sort nodes arcs).idxOf first < (sort nodes arcs).idxOf second := by
      intro first second path
      induction path with
      | single arc => exact ordered.idxOf_lt arc (perm.mem_iff.mpr (targets _ arc)) (by simp)
      | tail _ arc ih =>
        exact ih.trans (ordered.idxOf_lt arc (perm.mem_iff.mpr (targets _ arc)) (by simp))
    exact absurd (later node node cycle) (Nat.lt_irrefl _)

end Onda.Kahn
