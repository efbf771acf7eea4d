import Mathlib.Algebra.Order.BigOperators.Group.List
import Mathlib.Algebra.Order.Group.Nat
import Mathlib.Algebra.Ring.Nat
import Mathlib.Data.List.Chain
import Mathlib.Logic.Function.Basic
import Mathlib.Logic.Relation
import Onda.Lib.CyclePath

/-!
# Depth-first search with an explicit stack

Each entry of the stack is a node with the arcs that are still to be followed.  An arc to a node of
the stack closes a cycle; when the search ends without one, there is none.
-/

namespace Onda.DepthFirst

variable {α : Type} [DecidableEq α]

/-- What a search knows of a node. -/
inductive Color where
  | fresh | entered | done
deriving DecidableEq

/-- The entries of the stack up to a node, with the innermost node first. -/
def pathTo (node : α) : List (α × List α) → List α
  | [] => []
  | entry :: stack => if entry.1 = node then [node] else entry.1 :: pathTo node stack

/-- The search from a stack with the innermost entry first: `none` when it is out of fuel.  It ends
with a cycle, or with the colors of all nodes. -/
def search (next : α → List α) :
    Nat → (α → Color) → List (α × List α) → Option (Except (List α) (α → Color))
  | 0, _, _ => none
  | _ + 1, colors, [] => some (.ok colors)
  | fuel + 1, colors, (current, []) :: stack =>
    search next fuel (Function.update colors current .done) stack
  | fuel + 1, colors, (current, nested :: rest) :: stack =>
    match colors nested with
    | .fresh =>
      search next fuel (Function.update colors nested .entered)
        ((nested, next nested) :: (current, rest) :: stack)
    | .entered => some (.error ((pathTo nested ((current, rest) :: stack)).reverse ++ [nested]))
    | .done => search next fuel colors ((current, rest) :: stack)

/-- The search from each node of a list that was not visited before. -/
def searchAll (next : α → List α) (fuel : Nat) :
    List α → (α → Color) → Option (Except (List α) Unit)
  | [], _ => some (.ok ())
  | root :: roots, colors =>
    if colors root = .fresh then
      match search next fuel (Function.update colors root .entered) [(root, next root)] with
      | none => none
      | some (.error cycle) => some (.error cycle)
      | some (.ok colors) => searchAll next fuel roots colors
    else searchAll next fuel roots colors

/-- One node leads to another. -/
def Arc (next : α → List α) (node other : α) : Prop := other ∈ next node

/-- All paths from a node end. -/
abbrev Ends (next : α → List α) (node : α) : Prop := Acc (fun other node => Arc next node other) node

/-! ### What holds during a search -/

/-- The entries of a stack below `above`: each arc is to be followed, followed, or leads above. -/
def Follows (next : α → List α) (colors : α → Color) : Option α → List (α × List α) → Prop
  | _, [] => True
  | above, entry :: stack =>
    (∀ other ∈ next entry.1, other ∈ entry.2 ∨ colors other = .done ∨ above = some other)
      ∧ entry.2 ⊆ next entry.1 ∧ (∀ other, above = some other → other ∈ next entry.1)
      ∧ Follows next colors (some entry.1) stack

structure Sound (next : α → List α) (pool : List α) (colors : α → Color)
    (stack : List (α × List α)) : Prop where
  entered : ∀ node, colors node = .entered ↔ node ∈ stack.map Prod.fst
  distinct : (stack.map Prod.fst).Nodup
  done : ∀ node, colors node = .done → Ends next node
  inside : ∀ node, colors node ≠ .fresh → node ∈ pool
  follows : Follows next colors none stack

variable {next : α → List α} {pool : List α} {colors : α → Color} {stack : List (α × List α)}

omit [DecidableEq α] in
/-- Nodes that become done or entered do not disturb the entries. -/
theorem Follows.mono {colors' : α → Color} {above : Option α}
    (follows : Follows next colors above stack)
    (grows : ∀ node, colors node = .done → colors' node = .done) :
    Follows next colors' above stack := by
  induction stack generalizing above with
  | nil => trivial
  | cons entry stack ih =>
    obtain ⟨each, rest, leads, below⟩ := follows
    refine ⟨fun other mem => ?_, rest, leads, ih below⟩
    rcases each other mem with waits | finished | leads
    · exact .inl waits
    · exact .inr (.inl (grows other finished))
    · exact .inr (.inr leads)

omit [DecidableEq α] in
/-- From each entry a path leads to the innermost node. -/
theorem Follows.reaches {above : Option α} (follows : Follows next colors above stack) {node : α}
    (mem : node ∈ stack.map Prod.fst) :
    ∀ last, above = some last → Relation.TransGen (Arc next) node last := by
  induction stack generalizing above with
  | nil => cases mem
  | cons entry stack ih =>
    obtain ⟨-, -, leads, below⟩ := follows
    intro last same
    rcases List.mem_cons.1 mem with rfl | mem
    · exact .single (leads last same)
    · exact (ih below mem entry.1 rfl).tail (leads last same)

omit [DecidableEq α] in
/-- An arc to a node of the stack closes a cycle. -/
theorem Sound.closes {current nested : α} {rest : List α}
    (sound : Sound next pool colors ((current, nested :: rest) :: stack))
    (open_ : colors nested = .entered) : Relation.TransGen (Arc next) nested nested := by
  obtain ⟨-, subset, -, below⟩ := sound.follows
  have arc : Arc next current nested := subset List.mem_cons_self
  rcases List.mem_cons.1 ((sound.entered nested).1 open_) with same | mem
  · have here : nested = current := same
    subst here
    exact .single arc
  · exact (below.reaches mem current rfl).tail arc

/-- The innermost node has no arc left. -/
theorem Sound.leave {current : α} (sound : Sound next pool colors ((current, []) :: stack)) :
    Sound next pool (Function.update colors current .done) stack := by
  obtain ⟨fresh, distinct⟩ := List.nodup_cons.1 sound.distinct
  obtain ⟨each, -, -, below⟩ := sound.follows
  have finished : ∀ other ∈ next current, colors other = .done := by
    intro other mem
    rcases each other mem with waits | finished | leads
    · cases waits
    · exact finished
    · cases leads
  have grows : ∀ node, colors node = .done → Function.update colors current .done node = .done := by
    intro node done
    by_cases here : node = current
    · rw [here, Function.update_self]
    · rw [Function.update_of_ne here, done]
  refine ⟨fun node => ?_, distinct, fun node done => ?_, fun node known => ?_, ?_⟩
  · by_cases here : node = current
    · subst here
      rw [Function.update_self]
      exact ⟨fun wrong => (by cases wrong), fun mem => absurd mem fresh⟩
    · rw [Function.update_of_ne here, sound.entered node, List.map_cons, List.mem_cons]
      exact ⟨fun mem => mem.resolve_left here, .inr⟩
  · by_cases here : node = current
    · subst here
      exact Acc.intro _ fun other arc => sound.done other (finished other arc)
    · rw [Function.update_of_ne here] at done
      exact sound.done node done
  · by_cases here : node = current
    · subst here
      refine sound.inside node fun fresh => ?_
      have entered := (sound.entered node).2 (List.mem_cons_self ..)
      rw [entered] at fresh
      cases fresh
    · rw [Function.update_of_ne here] at known
      exact sound.inside node known
  · -- The entry below has followed its arc to the node.
    cases stack with
    | nil => trivial
    | cons entry stack =>
      obtain ⟨each, rest, leads, below⟩ := below
      refine ⟨fun other mem => ?_, rest, fun _ none => (by cases none), below.mono grows⟩
      rcases each other mem with waits | finished | leads
      · exact .inl waits
      · exact .inr (.inl (grows other finished))
      · obtain rfl := Option.some.inj leads
        exact .inr (.inl (Function.update_self ..))

omit [DecidableEq α] in
/-- An arc to a node that is done. -/
theorem Sound.skip {current nested : α} {rest : List α}
    (sound : Sound next pool colors ((current, nested :: rest) :: stack))
    (finished : colors nested = .done) : Sound next pool colors ((current, rest) :: stack) := by
  obtain ⟨each, subset, leads, below⟩ := sound.follows
  refine ⟨sound.entered, sound.distinct, sound.done, sound.inside, fun other mem => ?_,
    fun other mem => subset (List.mem_cons_of_mem _ mem), leads, below⟩
  rcases each other mem with waits | rest
  · rcases List.mem_cons.1 waits with rfl | waits
    · exact .inr (.inl finished)
    · exact .inl waits
  · exact .inr rest

/-- An arc to a node that was not visited. -/
theorem Sound.enter {current nested : α} {rest : List α}
    (sound : Sound next pool colors ((current, nested :: rest) :: stack))
    (fresh : colors nested = .fresh) (targets : ∀ node, next node ⊆ pool) :
    Sound next pool (Function.update colors nested .entered)
      ((nested, next nested) :: (current, rest) :: stack) := by
  obtain ⟨each, subset, leads, below⟩ := sound.follows
  have outside : nested ∉ current :: stack.map Prod.fst := by
    intro mem
    rw [(sound.entered nested).2 mem] at fresh
    cases fresh
  have grows : ∀ node, colors node = .done →
      Function.update colors nested .entered node = .done := by
    intro node done
    by_cases here : node = nested
    · subst here
      rw [done] at fresh
      cases fresh
    · rw [Function.update_of_ne here, done]
  refine ⟨fun node => ?_, List.nodup_cons.2 ⟨outside, sound.distinct⟩, fun node done => ?_,
    fun node known => ?_, fun other mem => .inl mem, fun _ mem => mem,
    fun _ none => (by cases none), fun other mem => ?_,
    fun other mem => subset (List.mem_cons_of_mem _ mem), fun other same => ?_, below.mono grows⟩
  · by_cases here : node = nested
    · subst here
      rw [Function.update_self]
      exact ⟨fun _ => List.mem_cons_self, fun _ => rfl⟩
    · rw [Function.update_of_ne here, sound.entered node]
      exact ⟨List.mem_cons_of_mem _, fun mem => (List.mem_cons.1 mem).resolve_left here⟩
  · by_cases here : node = nested
    · subst here
      rw [Function.update_self] at done
      cases done
    · rw [Function.update_of_ne here] at done
      exact sound.done node done
  · by_cases here : node = nested
    · subst here
      exact targets current (subset List.mem_cons_self)
    · rw [Function.update_of_ne here] at known
      exact sound.inside node known
  · rcases each other mem with waits | finished | above
    · rcases List.mem_cons.1 waits with rfl | waits
      · exact .inr (.inr rfl)
      · exact .inl waits
    · exact .inr (.inl (grows other finished))
    · cases above
  · obtain rfl := Option.some.inj same
    exact subset List.mem_cons_self

/-! ### Fuel -/

/-- The steps that a search can still make. -/
def steps (next : α → List α) (pool : List α) (colors : α → Color) (stack : List (α × List α)) : Nat :=
  ((pool.filter (colors · = .fresh)).map fun node => (next node).length + 1).sum
    + (stack.map fun entry => entry.2.length + 1).sum

/-- Entering a node of the pool takes its arcs out of the sum. -/
theorem sum_enter (distinct : pool.Nodup) {node : α} (mem : node ∈ pool)
    (fresh : colors node = .fresh) (size : α → Nat) :
    ((pool.filter (Function.update colors node .entered · = .fresh)).map size).sum + size node
      = ((pool.filter (colors · = .fresh)).map size).sum := by
  induction pool with
  | nil => cases mem
  | cons head pool ih =>
    obtain ⟨new, distinct⟩ := List.nodup_cons.1 distinct
    by_cases here : head = node
    · subst here
      have same : pool.filter (Function.update colors head .entered · = .fresh)
          = pool.filter (colors · = .fresh) := by
        refine List.filter_congr fun other inside => ?_
        rw [Function.update_of_ne]
        rintro rfl
        exact new inside
      rw [List.filter_cons_of_neg (by simp), List.filter_cons_of_pos (by simpa using fresh), same,
        List.map_cons, List.sum_cons, Nat.add_comm]
    · have rest := ih distinct ((List.mem_cons.1 mem).resolve_left (Ne.symm here))
      by_cases open_ : colors head = .fresh
      · rw [List.filter_cons_of_pos (by simp [here, open_]), List.filter_cons_of_pos (by simp [open_]),
          List.map_cons, List.map_cons, List.sum_cons, List.sum_cons, ← rest, Nat.add_assoc]
      · rw [List.filter_cons_of_neg (by simp [here, open_]), List.filter_cons_of_neg (by simp [open_]),
          rest]

/-! ### The search -/

/-- What a search ends with. -/
def Result (next : α → List α) (pool : List α) (colors : α → Color) :
    Except (List α) (α → Color) → Prop
  | .error _ => ∃ node, Relation.TransGen (Arc next) node node
  | .ok colors' => Sound next pool colors' []
    ∧ ∀ node, colors node ≠ .fresh → colors' node = .done

theorem search_spec (distinct : pool.Nodup) (targets : ∀ node, next node ⊆ pool) (fuel : Nat)
    (sound : Sound next pool colors stack) (enough : steps next pool colors stack < fuel) :
    ∃ result, search next fuel colors stack = some result ∧ Result next pool colors result := by
  induction fuel generalizing colors stack with
  | zero => exact absurd enough (Nat.not_lt_zero _)
  | succ fuel ih =>
    match stack with
    | [] =>
      refine ⟨.ok colors, rfl, sound, fun node known => ?_⟩
      cases color : colors node with
      | fresh => exact absurd color known
      | entered => cases (sound.entered node).1 color
      | done => rfl
    | (current, []) :: stack =>
      have entered : colors current = .entered := (sound.entered current).2 List.mem_cons_self
      have fewer : steps next pool (Function.update colors current .done) stack < fuel := by
        have same : pool.filter (Function.update colors current .done · = .fresh)
            = pool.filter (colors · = .fresh) := by
          refine List.filter_congr fun other _ => ?_
          by_cases here : other = current
          · subst here
            rw [Function.update_self, entered]
            rfl
          · rw [Function.update_of_ne here]
        unfold steps at enough ⊢
        rw [same]
        simp only [List.map_cons, List.sum_cons, List.length_nil] at enough
        omega
      obtain ⟨result, ran, spec⟩ := ih sound.leave fewer
      refine ⟨result, ran, ?_⟩
      cases result with
      | error => exact spec
      | ok colors' =>
        refine ⟨spec.1, fun node known => spec.2 node ?_⟩
        by_cases here : node = current
        · subst here
          rw [Function.update_self]
          exact fun wrong => (by cases wrong)
        · rwa [Function.update_of_ne here]
    | (current, nested :: rest) :: stack =>
      cases color : colors nested with
      | fresh =>
        have inside : nested ∈ pool :=
          targets current (sound.follows.2.1 List.mem_cons_self)
        have fewer : steps next pool (Function.update colors nested .entered)
            ((nested, next nested) :: (current, rest) :: stack) < fuel := by
          have sum := sum_enter distinct inside color fun node => (next node).length + 1
          unfold steps at enough ⊢
          simp only [List.map_cons, List.sum_cons, List.length_cons] at enough ⊢
          omega
        obtain ⟨result, ran, spec⟩ := ih (sound.enter color targets) fewer
        refine ⟨result, by rw [search, color]; exact ran, ?_⟩
        cases result with
        | error => exact spec
        | ok colors' =>
          refine ⟨spec.1, fun node known => spec.2 node ?_⟩
          by_cases here : node = nested
          · subst here
            rw [Function.update_self]
            exact fun wrong => (by cases wrong)
          · rwa [Function.update_of_ne here]
      | entered =>
        refine ⟨.error _, by rw [search, color], nested, sound.closes color⟩
      | done =>
        have fewer : steps next pool colors ((current, rest) :: stack) < fuel := by
          unfold steps at enough ⊢
          simp only [List.map_cons, List.sum_cons, List.length_cons] at enough ⊢
          omega
        obtain ⟨result, ran, spec⟩ := ih (sound.skip color) fewer
        exact ⟨result, by rw [search, color]; exact ran, spec⟩

/-- Fuel for a search from any node of the pool. -/
def enoughFuel (next : α → List α) (pool : List α) : Nat :=
  (pool.map fun node => (next node).length + 1).sum + 1

/-- **Cycles.** The search ends, and it finds a cycle exactly when there is one. -/
theorem searchAll_spec (distinct : pool.Nodup) (targets : ∀ node, next node ⊆ pool)
    (roots : List α) (inside : roots ⊆ pool) (sound : Sound next pool colors [])
    (idle : ∀ node, colors node ≠ .fresh → colors node = .done) :
    ∃ result, searchAll next (enoughFuel next pool) roots colors = some result ∧
      match result with
      | .error _ => ∃ node, Relation.TransGen (Arc next) node node
      | .ok () => ∀ node, node ∈ roots ∨ colors node = .done → Ends next node := by
  induction roots generalizing colors with
  | nil =>
    refine ⟨.ok (), rfl, fun node done => ?_⟩
    rcases done with mem | done
    · cases mem
    · exact sound.done node done
  | cons root roots ih =>
    have below : roots ⊆ pool := fun node mem => inside (List.mem_cons_of_mem _ mem)
    unfold searchAll
    split
    case isTrue fresh =>
      have rootInside : root ∈ pool := inside List.mem_cons_self
      have begun : Sound next pool (Function.update colors root .entered) [(root, next root)] := by
        refine ⟨fun node => ?_, List.nodup_singleton _, fun node done => ?_, fun node known => ?_,
          fun other mem => .inl mem, fun _ mem => mem, fun _ none => (by cases none), trivial⟩
        · by_cases here : node = root
          · subst here
            rw [Function.update_self]
            exact ⟨fun _ => List.mem_cons_self, fun _ => rfl⟩
          · rw [Function.update_of_ne here, sound.entered node]
            exact ⟨fun mem => (by cases mem), fun mem => absurd (List.mem_singleton.1 mem) here⟩
        · by_cases here : node = root
          · subst here
            rw [Function.update_self] at done
            cases done
          · rw [Function.update_of_ne here] at done
            exact sound.done node done
        · by_cases here : node = root
          · exact here ▸ rootInside
          · rw [Function.update_of_ne here] at known
            exact sound.inside node known
      have enough : steps next pool (Function.update colors root .entered) [(root, next root)]
          < enoughFuel next pool := by
        have sum := sum_enter distinct rootInside fresh fun node => (next node).length + 1
        have least : ((pool.filter (colors · = .fresh)).map fun node => (next node).length + 1).sum
            ≤ (pool.map fun node => (next node).length + 1).sum :=
          (List.Sublist.map _ List.filter_sublist).sum_le_sum fun _ _ => Nat.zero_le _
        unfold steps enoughFuel
        simp only [List.map_cons, List.map_nil, List.sum_cons, List.sum_nil]
        omega
      obtain ⟨result, ran, spec⟩ := search_spec distinct targets _ begun enough
      rw [ran]
      cases result with
      | error cycle => exact ⟨.error cycle, rfl, spec⟩
      | ok colors' =>
        obtain ⟨result, ran, after⟩ := ih below spec.1 fun node known => by
          cases color : colors' node with
          | fresh => exact absurd color known
          | entered => cases (spec.1.entered node).1 color
          | done => rfl
        refine ⟨result, ran, ?_⟩
        cases result with
        | error cycle => exact after
        | ok value =>
          intro node done
          have kept : ∀ other, other = root ∨ colors other = .done → colors' other = .done := by
            intro other known
            refine spec.2 other ?_
            rcases known with rfl | finished
            · rw [Function.update_self]
              exact fun wrong => (by cases wrong)
            · by_cases here : other = root
              · subst here
                rw [finished] at fresh
                cases fresh
              · rw [Function.update_of_ne here, finished]
                exact fun wrong => (by cases wrong)
          rcases done with mem | done
          · rcases List.mem_cons.1 mem with rfl | mem
            · exact after node (.inr (kept node (.inl rfl)))
            · exact after node (.inl mem)
          · exact after node (.inr (kept node (.inr done)))
    case isFalse visited =>
      obtain ⟨result, ran, after⟩ := ih below sound idle
      refine ⟨result, ran, ?_⟩
      cases result with
      | error cycle => exact after
      | ok value =>
        intro node done
        rcases done with mem | done
        · rcases List.mem_cons.1 mem with rfl | mem
          · exact after node (.inr (idle node visited))
          · exact after node (.inl mem)
        · exact after node (.inr done)

end Onda.DepthFirst
