import Mathlib.Data.List.Chain
import Mathlib.Data.List.Perm.Subperm
import Onda.Lib.DepthFirst
import Onda.Lib.Kahn

/-!
# Layers of an acyclic graph

Kahn's algorithm with a queue, which also computes how long the chains into each node are.  It
stops at a chain that is longer than a limit.  Arcs may be repeated.
-/

namespace Onda.Layers

open DepthFirst (Arc Ends)

variable {α : Type} [DecidableEq α]

structure State (α : Type) where
  incoming : α → Nat
  depths : α → Nat
  queue : List α
  topological : List α

/-- The arcs of the current node, one after the other.  It ends with a node that is too deep. -/
def relax (limit : Nat) (current : α) : List α → State α → Except (α × Nat) (State α)
  | [], state => .ok state
  | nested :: rest, state =>
    let depth := state.depths current + 1
    if limit < depth then .error (nested, depth)
    else
      let incoming := state.incoming nested - 1
      relax limit current rest
        { state with
          depths := Function.update state.depths nested (max (state.depths nested) depth)
          incoming := Function.update state.incoming nested incoming
          queue := if incoming = 0 then state.queue ++ [nested] else state.queue }

/-- The loop over the queue: `none` when it is out of fuel. -/
def loop (next : α → List α) (limit : Nat) : Nat → State α → Option (Except (α × Nat) (List α))
  | 0, _ => none
  | fuel + 1, state =>
    match state.queue with
    | [] => some (.ok state.topological)
    | current :: queue =>
      match relax limit current (next current)
          { state with queue, topological := state.topological ++ [current] } with
      | .error deep => some (.error deep)
      | .ok state => loop next limit fuel state

/-- The arcs into a node from nodes that are not listed. -/
def openInto (next : α → List α) (pool listed : List α) (node : α) : Nat :=
  ((pool.filter (· ∉ listed)).map fun source => (next source).count node).sum

def start (next : α → List α) (pool : List α) : State α where
  incoming := openInto next pool []
  depths _ := 1
  queue := pool.filter (openInto next pool [] · = 0)
  topological := []

def sort (next : α → List α) (limit : Nat) (pool : List α) : Option (Except (α × Nat) (List α)) :=
  loop next limit (pool.length + 1) (start next pool)

/-- A chain of arcs that ends at a node. -/
def ChainTo (next : α → List α) (node : α) (path : List α) : Prop :=
  path.IsChain (Arc next) ∧ path.getLast? = some node

/-! ### Counting arcs -/

section Counting

variable {next : α → List α} {pool listed : List α}

theorem openInto_listed (distinct : pool.Nodup) {node : α} (mem : node ∈ pool)
    (fresh : node ∉ listed) (other : α) :
    openInto next pool listed other
      = openInto next pool (listed ++ [node]) other + (next node).count other := by
  unfold openInto
  induction pool with
  | nil => cases mem
  | cons head pool ih =>
    obtain ⟨new, distinct⟩ := List.nodup_cons.1 distinct
    by_cases here : head = node
    · subst here
      have same : pool.filter (· ∉ listed ++ [head]) = pool.filter (· ∉ listed) := by
        refine List.filter_congr fun other inside => ?_
        have apart : other ≠ head := by
          rintro rfl
          exact new inside
        simp [apart]
      rw [List.filter_cons_of_pos (by simpa using fresh), List.filter_cons_of_neg (by simp), same,
        List.map_cons, List.sum_cons, Nat.add_comm]
    · have rest := ih distinct ((List.mem_cons.1 mem).resolve_left (Ne.symm here))
      by_cases known : head ∈ listed
      · rw [List.filter_cons_of_neg (by simp [known]), List.filter_cons_of_neg (by simp [known]), rest]
      · rw [List.filter_cons_of_pos (by simp [known]),
          List.filter_cons_of_pos (by simp [known, here]), List.map_cons, List.map_cons,
          List.sum_cons, List.sum_cons, rest, Nat.add_assoc]

/-- No arc leads into the node from a node that is not listed. -/
theorem openInto_eq_zero {node : α} (none : openInto next pool listed node = 0) {source : α}
    (mem : source ∈ pool) (arc : Arc next source node) : source ∈ listed := by
  by_contra missing
  have zero := List.sum_eq_zero_iff.1 none _
    (List.mem_map_of_mem (List.mem_filter.2 ⟨mem, decide_eq_true missing⟩))
  exact (List.count_pos_iff.2 arc).ne' zero

end Counting

/-! ### What holds during the loop -/

/-- The state while the arcs `todo` of the current node are still to be followed. -/
structure Sound (next : α → List α) (pool : List α) (limit : Nat) (current : Option α)
    (todo : List α) (state : State α) : Prop where
  distinct : (state.topological ++ state.queue).Nodup
  inside : state.topological ++ state.queue ⊆ pool
  counts : ∀ node, state.incoming node
    = openInto next pool state.topological node + todo.count node
  free : ∀ node ∈ state.topological ++ state.queue, state.incoming node = 0
  full : ∀ node ∈ pool, state.incoming node = 0 → node ∈ state.topological ++ state.queue
  ordered : state.topological.Pairwise fun earlier later => ¬Arc next later earlier
  chains : ∀ node, ∃ path, ChainTo next node path ∧ path.length = state.depths node
  bounded : ∀ node, state.depths node ≤ limit
  deepens : ∀ source ∈ state.topological, ∀ node ∈ next source,
    current = some source ∧ node ∈ todo ∨ state.depths source + 1 ≤ state.depths node

variable {next : α → List α} {pool : List α} {limit : Nat}

omit [DecidableEq α] in
theorem ChainTo.snoc {node other : α} {path : List α} (chain : ChainTo next node path)
    (arc : Arc next node other) : ChainTo next other (path ++ [other]) := by
  refine ⟨List.isChain_append.2 ⟨chain.1, List.isChain_singleton _, ?_⟩, by simp⟩
  intro last isLast first isFirst
  rw [chain.2] at isLast
  obtain rfl := Option.some.inj isLast
  obtain rfl := Option.some.inj isFirst
  exact arc

/-- What the arcs of a node are followed to. -/
def Relaxed (next : α → List α) (pool : List α) (limit : Nat) (topological : List α) :
    Except (α × Nat) (State α) → Prop
  | .error deep => ∃ path, ChainTo next deep.1 path ∧ path.length = deep.2 ∧ limit < deep.2
  | .ok state => state.topological = topological ∧ Sound next pool limit none [] state

variable {state : State α}

theorem relax_spec {current : α} {todo : List α} (targets : ∀ node, next node ⊆ pool)
    (listed : current ∈ state.topological) (arcs : todo ⊆ next current)
    (sound : Sound next pool limit (some current) todo state) :
    Relaxed next pool limit state.topological (relax limit current todo state) := by
  induction todo generalizing state with
  | nil =>
    refine ⟨rfl, ⟨sound.distinct, sound.inside, sound.counts, sound.free, sound.full,
      sound.ordered, sound.chains, sound.bounded, fun source mem node arc => ?_⟩⟩
    exact .inr ((sound.deepens source mem node arc).resolve_left fun both => by cases both.2)
  | cons nested todo ih =>
    have arc : Arc next current nested := arcs List.mem_cons_self
    obtain ⟨path, chain, length⟩ := sound.chains current
    have longer := chain.snoc arc
    unfold relax
    dsimp only
    split
    case isTrue deep =>
      exact ⟨_, longer, by rw [List.length_append, length]; rfl, deep⟩
    case isFalse shallow =>
      have counted := sound.counts nested
      rw [List.count_cons_self] at counted
      -- The node still waits for this arc, so it is neither listed nor queued.
      have waits : nested ∉ state.topological ++ state.queue := fun mem => by
        have zero := sound.free nested mem
        omega
      have unlisted : nested ∉ state.topological := fun mem => waits (List.mem_append_left _ mem)
      have other : current ≠ nested := fun same => unlisted (same ▸ listed)
      refine ih listed (fun node mem => arcs (List.mem_cons_of_mem _ mem)) ?_
      have counts : ∀ node, Function.update state.incoming nested (state.incoming nested - 1) node
          = openInto next pool state.topological node + todo.count node := by
        intro node
        by_cases here : node = nested
        · subst here
          rw [Function.update_self, counted]
          omega
        · rw [Function.update_of_ne here, sound.counts node, List.count_cons_of_ne (Ne.symm here)]
      have members : ∀ node, node ∈ state.topological
          ++ (if state.incoming nested - 1 = 0 then state.queue ++ [nested] else state.queue)
          ↔ node ∈ state.topological ++ state.queue
            ∨ node = nested ∧ state.incoming nested - 1 = 0 := by
        intro node
        split
        · rename_i zero
          simp only [zero, and_true, List.mem_append, List.mem_singleton, or_assoc]
        · rename_i positive
          simp only [positive, and_false, or_false]
      refine ⟨?_, fun node mem => ?_, counts, fun node mem => ?_, fun node mem zero => ?_,
        sound.ordered, fun node => ?_, fun node => ?_, fun source mem node edge => ?_⟩
      · dsimp only
        split
        · rw [← List.append_assoc]
          exact List.nodup_append.2 ⟨sound.distinct, List.nodup_singleton _, by
            rintro first memFirst second memSecond rfl
            exact waits (List.mem_singleton.1 memSecond ▸ memFirst)⟩
        · exact sound.distinct
      · rcases (members node).1 mem with mem | ⟨rfl, -⟩
        · exact sound.inside mem
        · exact targets current arc
      · dsimp only
        rcases (members node).1 mem with mem | ⟨rfl, zero⟩
        · rw [Function.update_of_ne fun (same : node = nested) => waits (same ▸ mem)]
          exact sound.free node mem
        · rw [Function.update_self, zero]
      · dsimp only at zero
        refine (members node).2 ?_
        by_cases here : node = nested
        · subst here
          rw [Function.update_self] at zero
          exact .inr ⟨rfl, zero⟩
        · rw [Function.update_of_ne here] at zero
          exact .inl (sound.full node mem zero)
      · dsimp only
        by_cases here : node = nested
        · subst here
          rw [Function.update_self]
          rcases Nat.le_total (state.depths current + 1) (state.depths node) with less | more
          · rw [Nat.max_eq_left less]
            exact sound.chains node
          · rw [Nat.max_eq_right more]
            exact ⟨_, longer, by rw [List.length_append, length]; rfl⟩
        · rw [Function.update_of_ne here]
          exact sound.chains node
      · dsimp only
        by_cases here : node = nested
        · subst here
          rw [Function.update_self]
          exact Nat.max_le.2 ⟨sound.bounded node, Nat.le_of_not_lt shallow⟩
        · rw [Function.update_of_ne here]
          exact sound.bounded node
      · dsimp only at mem ⊢
        have same : Function.update state.depths nested
            (max (state.depths nested) (state.depths current + 1)) source = state.depths source :=
          Function.update_of_ne (fun (same : source = nested) => unlisted (same ▸ mem)) _ _
        rw [same]
        by_cases here : node = nested
        · subst here
          rw [Function.update_self]
          rcases sound.deepens source mem node edge with ⟨same, -⟩ | deeper
          · obtain rfl := Option.some.inj same
            exact .inr (Nat.le_max_right _ _)
          · exact .inr (deeper.trans (Nat.le_max_left _ _))
        · rw [Function.update_of_ne here]
          rcases sound.deepens source mem node edge with ⟨same, waits⟩ | deeper
          · exact .inl ⟨same, (List.mem_cons.1 waits).resolve_left here⟩
          · exact .inr deeper

/-- The first node of the queue is listed. -/
theorem Sound.list {current : α} {queue : List α} (sound : Sound next pool limit none [] state)
    (distinct : pool.Nodup) (ready : state.queue = current :: queue) :
    Sound next pool limit (some current) (next current)
      { state with queue, topological := state.topological ++ [current] } := by
  have same : state.topological ++ [current] ++ queue = state.topological ++ state.queue := by
    rw [ready, List.append_assoc, List.singleton_append]
  have queued : current ∈ state.topological ++ state.queue := by
    rw [ready]
    simp
  have fresh : current ∉ state.topological := fun mem => by
    have all := sound.distinct
    rw [ready] at all
    exact (List.nodup_append.1 all).2.2 current mem current List.mem_cons_self rfl
  refine ⟨same ▸ sound.distinct, same ▸ sound.inside, fun other => ?_, same ▸ sound.free,
    same ▸ sound.full, ?_, sound.chains, sound.bounded, fun source mem other arc => ?_⟩
  · dsimp only
    rw [sound.counts other, openInto_listed distinct (sound.inside queued) fresh other]
    rfl
  · refine List.pairwise_append.2 ⟨sound.ordered, List.pairwise_singleton _ _, ?_⟩
    intro earlier mem later isLast arc
    obtain rfl := List.mem_singleton.1 isLast
    have zero := sound.free earlier (List.mem_append_left _ mem)
    rw [sound.counts earlier] at zero
    exact fresh (openInto_eq_zero (Nat.add_eq_zero_iff.1 zero).1 (sound.inside queued) arc)
  · rcases List.mem_append.1 mem with mem | isLast
    · exact .inr ((sound.deepens source mem other arc).resolve_left fun both => by cases both.2)
    · obtain rfl := List.mem_singleton.1 isLast
      exact .inl ⟨rfl, arc⟩

theorem start_sound (distinct : pool.Nodup) (positive : 0 < limit) :
    Sound next pool limit none [] (start next pool) where
  distinct := distinct.filter _
  inside _ mem := (List.mem_filter.1 mem).1
  counts _ := rfl
  free _ mem := of_decide_eq_true (List.mem_filter.1 mem).2
  full _ mem zero := List.mem_filter.2 ⟨mem, decide_eq_true zero⟩
  ordered := .nil
  chains other := ⟨[other], ⟨List.isChain_singleton _, rfl⟩, rfl⟩
  bounded _ := positive
  deepens _ mem := absurd mem List.not_mem_nil

/-- In an acyclic graph no node is left over when the queue is empty. -/
theorem Sound.complete (sound : Sound next pool limit none [] state) (distinct : pool.Nodup)
    (acyclic : ∀ node, Ends next node) (idle : state.queue = []) :
    state.topological.Perm pool := by
  have all : ∀ other ∈ pool, other ∈ state.topological := by
    by_contra missing
    push Not at missing
    obtain ⟨other, mem, unlisted⟩ := missing
    have follows : ∀ held ∈ pool.filter (· ∉ state.topological),
        ∃ before ∈ pool.filter (· ∉ state.topological), Arc next before held := by
      intro held kept
      obtain ⟨mem, unlisted⟩ := List.mem_filter.1 kept
      have waits : openInto next pool state.topological held ≠ 0 := by
        intro zero
        have known := sound.full held mem (by rw [sound.counts held, zero]; rfl)
        rw [idle, List.append_nil] at known
        exact of_decide_eq_true unlisted known
      obtain ⟨count, counted, positive⟩ : ∃ count ∈ (pool.filter (· ∉ state.topological)).map
          fun source => (next source).count held, count ≠ 0 := by
        by_contra none
        push Not at none
        exact waits (List.sum_eq_zero_iff.2 none)
      obtain ⟨before, kept, rfl⟩ := List.mem_map.1 counted
      exact ⟨before, kept, List.count_pos_iff.1 (Nat.pos_of_ne_zero positive)⟩
    obtain ⟨around, -, cycle⟩ := Kahn.exists_cycle
      (List.ne_nil_of_mem (List.mem_filter.2 ⟨mem, decide_eq_true unlisted⟩)) follows
    exact CyclePath.not_cycle_of_acc (acyclic around) cycle
  have once := (List.nodup_append.1 sound.distinct).1
  have within : state.topological ⊆ pool := fun other mem =>
    sound.inside (List.mem_append_left _ mem)
  exact (List.perm_ext_iff_of_nodup once distinct).2 fun other => ⟨fun mem => within mem, all other⟩

/-- A chain is at most as long as its last node is deep. -/
theorem Sound.chain_le (sound : Sound next pool limit none [] state)
    (sources : ∀ node, next node ≠ [] → node ∈ state.topological) {path : List α} {last : α}
    (chain : ChainTo next last path) : path.length ≤ state.depths last := by
  induction path using List.reverseRecOn generalizing last with
  | nil => cases chain.2
  | append_singleton path head ih =>
    obtain ⟨chain, isLast⟩ := chain
    rw [List.getLast?_concat] at isLast
    obtain rfl := Option.some.inj isLast
    rw [List.length_append, List.length_singleton]
    cases before : path.getLast? with
    | none =>
      obtain rfl := List.getLast?_eq_none_iff.1 before
      obtain ⟨other, ⟨-, isLast⟩, length⟩ := sound.chains head
      rw [← length, List.length_nil, Nat.zero_add]
      exact List.length_pos_of_ne_nil (by rintro rfl; cases isLast)
    | some previous =>
      obtain ⟨front, -, joins⟩ := List.isChain_append.1 chain
      have arc : Arc next previous head := joins previous before head rfl
      have source : previous ∈ state.topological := sources previous (List.ne_nil_of_mem arc)
      have shorter := ih ⟨front, before⟩
      have deeper := (sound.deepens previous source head arc).resolve_left fun both => by
        cases both.2
      omega

/-- What the nodes are sorted to. -/
def Sorted (next : α → List α) (pool : List α) (limit : Nat) : Except (α × Nat) (List α) → Prop
  | .error deep => ∃ path, ChainTo next deep.1 path ∧ path.length = deep.2 ∧ limit < deep.2
  | .ok order => order.Perm pool ∧ (order.Pairwise fun earlier later => ¬Arc next later earlier)
    ∧ ∀ node path, ChainTo next node path → path.length ≤ limit

theorem loop_spec (distinct : pool.Nodup) (targets : ∀ node, next node ⊆ pool)
    (sources : ∀ node, next node ≠ [] → node ∈ pool) (acyclic : ∀ node, Ends next node) {fuel : Nat}
    (sound : Sound next pool limit none [] state)
    (enough : pool.length < fuel + state.topological.length) :
    ∃ result, loop next limit fuel state = some result ∧ Sorted next pool limit result := by
  induction fuel generalizing state with
  | zero =>
    have within : state.topological.length ≤ pool.length :=
      ((List.nodup_append.1 sound.distinct).1.subperm fun _ mem =>
        sound.inside (List.mem_append_left _ mem)).length_le
    omega
  | succ fuel ih =>
    unfold loop
    split
    case h_1 idle =>
      have complete := sound.complete distinct acyclic idle
      refine ⟨.ok state.topological, rfl, complete, sound.ordered, fun node path chain => ?_⟩
      exact (sound.chain_le (fun node some => complete.mem_iff.2 (sources node some)) chain).trans
        (sound.bounded node)
    case h_2 current queue ready =>
      have listed := sound.list distinct ready
      have relaxed := relax_spec targets (List.mem_append_right _ (List.mem_singleton_self _))
        (fun _ mem => mem) listed
      split
      · rename_i deep stopped
        rw [stopped] at relaxed
        exact ⟨.error deep, rfl, relaxed⟩
      · rename_i state' relaxes
        rw [relaxes] at relaxed
        refine ih relaxed.2 ?_
        rw [relaxed.1, List.length_append, List.length_singleton]
        omega

/-- **Layers.** In an acyclic graph all nodes are listed, none behind a node that it leads to, or
some chain is longer than the limit. -/
theorem sort_spec (distinct : pool.Nodup) (targets : ∀ node, next node ⊆ pool)
    (sources : ∀ node, next node ≠ [] → node ∈ pool) (acyclic : ∀ node, Ends next node)
    (positive : 0 < limit) :
    ∃ result, sort next limit pool = some result ∧ Sorted next pool limit result :=
  loop_spec distinct targets sources acyclic (start_sound distinct positive) (Nat.lt_succ_self _)

end Onda.Layers
