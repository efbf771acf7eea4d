import Mathlib.Data.List.Chain
import Mathlib.Data.List.Nodup
import Mathlib.Logic.Relation
import Mathlib.Order.WellFounded
import Mathlib.Tactic.Common

/-!
# Finding a cycle depth first

A search marks the nodes on its path and the nodes it is done with.  An arc into the path
closes a cycle, and the search returns that part of the path.  A node is done when the search
has found no cycle behind it, so then there is none (`Acc`).
-/

namespace Onda.CyclePath

variable {α : Type}

/-- A path that comes back to where it began. -/
def Closed (arc : α → α → Prop) (path : List α) : Prop :=
  2 ≤ path.length ∧ path.head? = path.getLast? ∧ path.IsChain arc

/-- No cycle goes through a node that all paths from come to an end. -/
theorem not_cycle_of_acc {arc : α → α → Prop} {node : α}
    (ends : Acc (fun other node => arc node other) node) : ¬Relation.TransGen arc node node := by
  have irreflexive : ∀ first, Acc (Relation.TransGen fun other node => arc node other) first →
      ¬Relation.TransGen (fun other node => arc node other) first first := by
    intro first ends
    induction ends with
    | intro first _ ih => exact fun cycle => ih first cycle cycle
  exact fun cycle => irreflexive node ends.transGen (Relation.transGen_swap.mpr cycle)

inductive Mark where
  | visiting | done
deriving DecidableEq

/-- The marks, and the path from where the search began. -/
structure Search (α : Type) where
  marks : α → Option Mark
  stack : List α

variable [DecidableEq α]

/-- The arcs of a node, one after the other: `none` when the search is out of fuel, and
otherwise what the search has found, if it ends here. -/
def scan (visit : α → Search α → Option (Search α × Option (List α))) (allowed : List α) :
    List α → Search α → Option (Search α × Option (Option (List α)))
  | [], state => some (state, none)
  | next :: rest, state =>
    if next ∉ allowed then scan visit allowed rest state
    else
      match state.marks next with
      | some .visiting =>
        some (state, some
          (if next ∈ state.stack then some (state.stack.drop (state.stack.idxOf next) ++ [next])
          else none))
      | some .done => scan visit allowed rest state
      | none =>
        match visit next state with
        | none => none
        | some (state, some path) => some (state, some (some path))
        | some (state, none) => scan visit allowed rest state

/-- The search behind a node, at most `fuel` nodes deep. -/
def visit (next : α → List α) (allowed : List α) :
    Nat → α → Search α → Option (Search α × Option (List α))
  | 0, _, _ => none
  | fuel + 1, node, state =>
    let entered : Search α :=
      ⟨Function.update state.marks node (some .visiting), state.stack ++ [node]⟩
    match scan (visit next allowed fuel) allowed (next node) entered with
    | none => none
    | some (state, some found) => some (state, found)
    | some (state, none) =>
      some (⟨Function.update state.marks node (some .done), state.stack.dropLast⟩, none)

/-- The search from each node of a list. -/
def visitAll (next : α → List α) (allowed : List α) :
    List α → Search α → Option (Option (List α))
  | [], _ => some none
  | node :: rest, state =>
    if (state.marks node).isSome then visitAll next allowed rest state
    else
      match visit next allowed allowed.length node state with
      | none => none
      | some (_, some path) => some (some path)
      | some (state, none) => visitAll next allowed rest state

/-- A cycle of the allowed nodes. -/
def find (next : α → List α) (allowed : List α) : Option (Option (List α)) :=
  visitAll next allowed allowed ⟨fun _ => none, []⟩

/-! ### What the search keeps -/

/-- The arcs between allowed nodes. -/
def Arc (next : α → List α) (allowed : List α) (node other : α) : Prop :=
  other ∈ next node ∧ other ∈ allowed

/-- The path is a path, and no cycle is behind a node that is done. -/
structure Sound (next : α → List α) (allowed : List α) (state : Search α) : Prop where
  distinct : state.stack.Nodup
  inside : ∀ node ∈ state.stack, node ∈ allowed
  chain : state.stack.IsChain (Arc next allowed)
  visiting : ∀ node, state.marks node = some .visiting ↔ node ∈ state.stack
  done : ∀ node, state.marks node = some .done →
    Acc (fun other node => Arc next allowed node other) node

/-- What the search changes until it is back. -/
structure Later (before after : Search α) : Prop where
  stack : after.stack = before.stack
  done : ∀ node, before.marks node = some .done → after.marks node = some .done
  fresh : ∀ node, after.marks node = none → before.marks node = none

omit [DecidableEq α] in
theorem Later.refl (state : Search α) : Later state state := ⟨rfl, fun _ h => h, fun _ h => h⟩

omit [DecidableEq α] in
theorem Later.trans {first second third : Search α} (before : Later first second)
    (after : Later second third) : Later first third where
  stack := after.stack.trans before.stack
  done node done := after.done node (before.done node done)
  fresh node fresh := before.fresh node (after.fresh node fresh)

/-- The allowed nodes that have no mark. -/
def unmarked (allowed : List α) (state : Search α) : Nat :=
  (allowed.filter fun node => state.marks node = none).length

omit [DecidableEq α] in
theorem Later.unmarked_le {allowed : List α} {before after : Search α} (later : Later before after) :
    unmarked allowed after ≤ unmarked allowed before := by
  refine (List.monotone_filter_right allowed fun node fresh => ?_).length_le
  simp only [decide_eq_true_eq] at fresh ⊢
  exact later.fresh node fresh

variable {next : α → List α} {allowed : List α} {state : Search α} {node : α}

/-- The state in which the arcs of a node are scanned. -/
def enter (state : Search α) (node : α) : Search α :=
  ⟨Function.update state.marks node (some .visiting), state.stack ++ [node]⟩

theorem marks_enter {other : α} (apart : other ≠ node) :
    (enter state node).marks other = state.marks other :=
  Function.update_of_ne apart _ _

theorem Sound.enter (sound : Sound next allowed state) (fresh : state.marks node = none)
    (inside : node ∈ allowed) (arc : ∀ last ∈ state.stack.getLast?, Arc next allowed last node) :
    Sound next allowed (enter state node) where
  distinct := by
    refine List.nodup_append.2 ⟨sound.distinct, List.nodup_singleton _, ?_⟩
    rintro other among _ here rfl
    rw [List.mem_singleton.1 here, ← sound.visiting, fresh] at among
    cases among
  inside other among := by
    rcases List.mem_append.1 among with among | here
    · exact sound.inside other among
    · rw [List.mem_singleton.1 here]
      exact inside
  chain := by
    refine List.isChain_append.2 ⟨sound.chain, List.isChain_singleton _, ?_⟩
    intro last final first here
    rw [List.head?_cons, Option.mem_some_iff] at here
    exact here ▸ arc last final
  visiting other := by
    by_cases same : other = node
    · subst same
      simp [CyclePath.enter]
    · simp [CyclePath.enter, same, sound.visiting]
  done other done := by
    by_cases same : other = node
    · subst same
      simp [CyclePath.enter] at done
    · exact sound.done other ((marks_enter same).symm.trans done)

theorem unmarked_enter_lt (fresh : state.marks node = none) (inside : node ∈ allowed) :
    unmarked allowed (enter state node) < unmarked allowed state := by
  have less : ((allowed.filter fun other => state.marks other = none).filter
      fun other => other ≠ node).length < (allowed.filter fun other => state.marks other = none).length :=
    List.length_filter_lt_length_iff_exists.2 ⟨node, by simp [fresh, inside], by simp⟩
  refine lt_of_le_of_lt (le_of_eq ?_) less
  rw [unmarked, List.filter_filter]
  congr 1
  refine List.filter_congr fun other _ => ?_
  by_cases same : other = node
  · subst same
    simp [enter]
  · simp [enter, same]

/-- A node is done when there is no cycle behind the nodes that it has arcs to. -/
theorem Sound.leave (entered : Sound next allowed state) {front : List α}
    (stack : state.stack = front ++ [node])
    (behind : ∀ other ∈ next node, other ∈ allowed → state.marks other = some .done) :
    Sound next allowed ⟨Function.update state.marks node (some .done), state.stack.dropLast⟩ where
  distinct := entered.distinct.sublist (List.dropLast_sublist _)
  inside other among := entered.inside other ((List.dropLast_sublist _).subset among)
  chain := by
    have chain := entered.chain
    rw [stack] at chain
    rw [stack, List.dropLast_concat]
    exact (List.isChain_append.1 chain).1
  visiting other := by
    have distinct := entered.distinct
    rw [stack] at distinct
    have apart : node ∉ front := fun among =>
      (List.nodup_append.1 distinct).2.2 node among node (by simp) rfl
    have kept := entered.visiting other
    rw [stack] at kept
    rw [stack, List.dropLast_concat]
    by_cases same : other = node
    · subst same
      simpa using apart
    · simpa [same] using kept
  done other done := by
    by_cases same : other = node
    · subst same
      exact .intro other fun target arc => entered.done target (behind target arc.1 arc.2)
    · simp only [Function.update_of_ne same] at done
      exact entered.done other done

/-- An arc into the path closes a cycle. -/
theorem Sound.closes (sound : Sound next allowed state) {front : List α}
    (stack : state.stack = front ++ [node]) {target : α} (arc : Arc next allowed node target)
    (visiting : state.marks target = some .visiting) :
    target ∈ state.stack
      ∧ Closed (Arc next allowed) (state.stack.drop (state.stack.idxOf target) ++ [target]) := by
  have among := (sound.visiting target).1 visiting
  refine ⟨among, ?_⟩
  obtain ⟨before, behind, whole, first⟩ := List.eq_append_cons_of_mem among
  have drop : state.stack.drop (state.stack.idxOf target) = target :: behind := by
    rw [whole, List.idxOf_append_of_notMem first, List.idxOf_cons_self, Nat.add_zero,
      List.drop_left]
  have chain := sound.chain
  rw [whole] at chain
  have last : (target :: behind).getLast? = some node := by
    have := congrArg List.getLast? (whole.symm.trans stack)
    rwa [List.getLast?_append_of_ne_nil _ (by simp), List.getLast?_concat] at this
  rw [drop]
  refine ⟨by simp, by rw [List.getLast?_concat]; rfl, List.isChain_append.2
    ⟨(List.isChain_append.1 chain).2.1, List.isChain_singleton _, ?_⟩⟩
  intro final here head there
  rw [last, Option.mem_some_iff] at here
  rw [List.head?_cons, Option.mem_some_iff] at there
  exact here ▸ there ▸ arc

/-! ### The search -/

/-- What a visit of a node promises. -/
def Visits (next : α → List α) (allowed : List α) (fuel : Nat)
    (visit : α → Search α → Option (Search α × Option (List α))) : Prop :=
  ∀ node state, Sound next allowed state → state.marks node = none → node ∈ allowed →
    (∀ last ∈ state.stack.getLast?, Arc next allowed last node) → unmarked allowed state ≤ fuel →
    ∃ state' found, visit node state = some (state', found)
      ∧ (∀ path, found = some path → Closed (Arc next allowed) path)
      ∧ (found = none → Sound next allowed state' ∧ Later state state'
        ∧ state'.marks node = some .done)

/-- The arcs of the last node of the path are scanned: one of them closes a cycle, or the nodes
behind them all are done. -/
theorem scan_spec {fuel : Nat} {visit : α → Search α → Option (Search α × Option (List α))}
    (visits : Visits next allowed fuel visit) (nexts : List α) :
    ∀ (state : Search α) (front : List α), Sound next allowed state → state.stack = front ++ [node] →
      (∀ other ∈ nexts, other ∈ next node) → unmarked allowed state ≤ fuel →
      ∃ state' found, scan visit allowed nexts state = some (state', found)
        ∧ (∀ result, found = some result →
          ∃ path, result = some path ∧ Closed (Arc next allowed) path)
        ∧ (found = none → Sound next allowed state' ∧ Later state state'
          ∧ ∀ other ∈ nexts, other ∈ allowed → state'.marks other = some .done) := by
  induction nexts with
  | nil =>
    intro state front sound stack _ _
    exact ⟨state, none, rfl, by simp, fun _ => ⟨sound, .refl state, by simp⟩⟩
  | cons target nexts ih =>
    intro state front sound stack arcs bound
    have rest : ∀ other ∈ nexts, other ∈ next node := fun other among => arcs other (by simp [among])
    -- the arcs behind are scanned in a state in which this node is done
    have goesOn : ∀ state₁, Sound next allowed state₁ → Later state state₁ →
        (target ∈ allowed → state₁.marks target = some .done) →
        ∃ state' found, scan visit allowed nexts state₁ = some (state', found)
          ∧ (∀ result, found = some result →
            ∃ path, result = some path ∧ Closed (Arc next allowed) path)
          ∧ (found = none → Sound next allowed state' ∧ Later state state'
            ∧ ∀ other ∈ target :: nexts, other ∈ allowed → state'.marks other = some .done) := by
      intro state₁ sound₁ later₁ done
      obtain ⟨state', found, run, closes, ends⟩ := ih state₁ front sound₁ (later₁.stack.trans stack)
        rest (later₁.unmarked_le.trans bound)
      refine ⟨state', found, run, closes, fun none => ?_⟩
      obtain ⟨sound', later', others⟩ := ends none
      refine ⟨sound', later₁.trans later', fun other among inside => ?_⟩
      rcases List.mem_cons.1 among with rfl | among
      · exact later'.done other (done inside)
      · exact others other among inside
    rw [scan]
    by_cases inside : target ∈ allowed
    · rw [if_neg (by simpa using inside)]
      have arc : Arc next allowed node target := ⟨arcs target (by simp), inside⟩
      cases mark : state.marks target with
      | none =>
        obtain ⟨state₁, found, run, closes, ends⟩ := visits target state sound mark inside (by
          intro last final
          rw [stack, List.getLast?_concat, Option.mem_some_iff] at final
          exact final ▸ arc) bound
        rw [run]
        cases found with
        | some path =>
          exact ⟨state₁, some (some path), rfl, fun result same => ⟨path, (Option.some.inj same).symm,
            closes path rfl⟩, by simp⟩
        | none =>
          obtain ⟨sound₁, later₁, done⟩ := ends rfl
          exact goesOn state₁ sound₁ later₁ fun _ => done
      | some mark' =>
        cases mark' with
        | visiting =>
          obtain ⟨among, closed⟩ := sound.closes stack arc mark
          dsimp only
          rw [if_pos among]
          exact ⟨state, _, rfl, fun result same => ⟨_, (Option.some.inj same).symm, closed⟩, by simp⟩
        | done => exact goesOn state sound (.refl state) fun _ => mark
    · rw [if_pos inside]
      exact goesOn state sound (.refl state) fun held => absurd held inside

/-- A visit with enough fuel returns, with a cycle or with the node done. -/
theorem visit_spec (next : α → List α) (allowed : List α) (fuel : Nat) :
    Visits next allowed fuel (visit next allowed fuel) := by
  induction fuel with
  | zero =>
    intro node state _ fresh inside _ bound
    have less := unmarked_enter_lt fresh inside
    omega
  | succ fuel ih =>
    intro node state sound fresh inside arc bound
    have less := unmarked_enter_lt fresh inside
    obtain ⟨state', found, run, closes, ends⟩ := scan_spec ih (next node) (enter state node)
      state.stack (sound.enter fresh inside arc) rfl (fun _ among => among) (by omega)
    have visit_eq : visit next allowed (fuel + 1) node state
        = match scan (visit next allowed fuel) allowed (next node) (enter state node) with
          | none => none
          | some (state, some found) => some (state, found)
          | some (state, none) =>
            some (⟨Function.update state.marks node (some .done), state.stack.dropLast⟩, none) := rfl
    rw [visit_eq, run]
    cases found with
    | some result =>
      obtain ⟨path, rfl, closed⟩ := closes result rfl
      exact ⟨state', some path, rfl, fun other same => Option.some.inj same ▸ closed, by simp⟩
    | none =>
      obtain ⟨sound', later, others⟩ := ends rfl
      have stack : state'.stack = state.stack ++ [node] := later.stack
      refine ⟨_, none, rfl, by simp, fun _ => ⟨sound'.leave stack others, ⟨?_, ?_, ?_⟩, by simp⟩⟩
      · rw [stack, List.dropLast_concat]
      · intro other done
        by_cases same : other = node
        · rw [same, fresh] at done
          cases done
        · dsimp only
          rw [Function.update_of_ne same]
          exact later.done other ((marks_enter same).trans done)
      · intro other unseen
        by_cases same : other = node
        · rw [same]
          exact fresh
        · dsimp only at unseen
          rw [Function.update_of_ne same] at unseen
          exact (marks_enter same).symm.trans (later.fresh other unseen)

theorem visitAll_spec (nodes : List α) :
    ∀ state : Search α, Sound next allowed state → state.stack = [] → (∀ node ∈ nodes, node ∈ allowed) →
      ∃ found, visitAll next allowed nodes state = some found
        ∧ (∀ path, found = some path → Closed (Arc next allowed) path)
        ∧ (found = none → ∀ node ∈ nodes, Acc (fun other node => Arc next allowed node other) node) := by
  induction nodes with
  | nil => exact fun state _ _ _ => ⟨none, rfl, by simp, by simp⟩
  | cons node nodes ih =>
    intro state sound empty inside
    have rest : ∀ other ∈ nodes, other ∈ allowed := fun other among => inside other (by simp [among])
    have goesOn : ∀ state₁, Sound next allowed state₁ → state₁.stack = [] →
        state₁.marks node = some .done →
        ∃ found, visitAll next allowed nodes state₁ = some found
          ∧ (∀ path, found = some path → Closed (Arc next allowed) path)
          ∧ (found = none → ∀ other ∈ node :: nodes,
            Acc (fun other node => Arc next allowed node other) other) := by
      intro state₁ sound₁ empty₁ done
      obtain ⟨found, run, closes, ends⟩ := ih state₁ sound₁ empty₁ rest
      refine ⟨found, run, closes, fun none other among => ?_⟩
      rcases List.mem_cons.1 among with rfl | among
      · exact sound₁.done other done
      · exact ends none other among
    rw [visitAll]
    cases mark : state.marks node with
    | some mark' =>
      rw [if_pos (by simp)]
      refine goesOn state sound empty ?_
      cases mark' with
      | done => exact mark
      | visiting =>
        have := (sound.visiting node).1 mark
        rw [empty] at this
        cases this
    | none =>
      rw [if_neg (by simp)]
      obtain ⟨state₁, found, run, closes, ends⟩ := visit_spec next allowed allowed.length node state
        sound mark (inside node (by simp)) (by simp [empty]) (List.length_filter_le _ _)
      rw [run]
      cases found with
      | some path => exact ⟨some path, rfl, fun other same => Option.some.inj same ▸ closes path rfl, by simp⟩
      | none =>
        obtain ⟨sound₁, later, done⟩ := ends rfl
        exact goesOn state₁ sound₁ (later.stack.trans empty) done

/-- The search returns, with a cycle of allowed nodes, or there is none. -/
theorem find_spec (next : α → List α) (allowed : List α) :
    ∃ found, find next allowed = some found
      ∧ (∀ path, found = some path → Closed (Arc next allowed) path)
      ∧ (found = none → ∀ node ∈ allowed, Acc (fun other node => Arc next allowed node other) node) := by
  refine visitAll_spec allowed _ ⟨.nil, by simp, .nil, by simp, by simp⟩ rfl fun _ among => among

end Onda.CyclePath
