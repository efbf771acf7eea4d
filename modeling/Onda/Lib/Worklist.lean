import Mathlib.Algebra.Ring.Nat
import Mathlib.Data.List.Basic

/-!
# Traversals by a worklist

Traversals of trees that keep what is to do in a list of their own, against the
recursion they replace.  A tree type is given by the immediate children of its
nodes (`Branching`); nothing else is known about it.

* `visitStep` visits a node before its children and may skip them.
* `rewriteStep` rewrites children before their parent.  The children are taken out
  of the node, which keeps placeholders, and are put back by position.
* `foldStep` computes a value for every node from the values of nodes below it, and
  stops at the first error.

### Design decisions

* **A loop is the repetition of one step.**  A step goes on with a state or ends
  with a result; `run` bounds the repetitions.  `Within` says that a loop gets from
  a state to another one, whatever is to do afterwards, and all results about a
  traversal are of this form.
* **A stack is a list with the top first.**  Children that are pushed in reverse
  order are then just put in front.
* **Visitors have a state.**  What a visitor does at a node may depend on all that
  it did before.
-/

namespace Onda.Worklist

/-! ### Loops -/

section Loops

variable {S R : Type}

/-- At most so many repetitions of a step. -/
def run (step : S → S ⊕ R) : Nat → S → Option R
  | 0, _ => none
  | fuel + 1, state =>
    match step state with
    | .inl next => run step fuel next
    | .inr result => some result

variable {step : S → S ⊕ R}

variable {result : R} {next state : S}

theorem run_mono {fuel more : Nat} (le : fuel ≤ more) (ends : run step fuel state = some result)
    : run step more state = some result := by
  induction fuel generalizing more state with
  | zero => cases ends
  | succ fuel ih =>
    obtain ⟨more, rfl⟩ := Nat.exists_eq_add_of_le' (Nat.lt_of_lt_of_le fuel.succ_pos le)
    unfold run at ends ⊢
    split at ends
    · exact ih (Nat.le_of_succ_le_succ le) ends
    · exact ends

/-- From `state` a loop gets to `next` in at most so many steps. -/
def Within (step : S → S ⊕ R) (steps : Nat) (state next : S) : Prop :=
  ∀ fuel result, run step fuel next = some result → run step (steps + fuel) state = some result

/-- From `state` a loop ends with `result` in at most so many steps. -/
def Ends (step : S → S ⊕ R) (steps : Nat) (state : S) (result : R) : Prop :=
  run step steps state = some result

theorem Within.refl (state : S) : Within step 0 state state :=
  fun fuel _ ends => (Nat.zero_add fuel).symm ▸ ends

theorem Within.trans {first second : Nat} {middle : S} (before : Within step first state middle)
    (after : Within step second middle next) :
    Within step (first + second) state next := by
  intro fuel result ends
  rw [Nat.add_assoc]
  exact before _ _ (after _ _ ends)

theorem Within.mono {steps more : Nat} (le : steps ≤ more) (within : Within step steps state next)
    : Within step more state next :=
  fun fuel _ ends => run_mono (Nat.add_le_add_right le fuel) (within fuel _ ends)

theorem Within.of_step (goes : step state = .inl next) :
    Within step 1 state next := by
  intro fuel result ends
  rw [Nat.add_comm, run, goes]
  exact ends

theorem Ends.of_step (stops : step state = .inr result) :
    Ends step 1 state result := by
  simp [Ends, run, stops]

theorem Within.ends {first second : Nat} (before : Within step first state next)
    (after : Ends step second next result) :
    Ends step (first + second) state result :=
  before _ _ after

theorem Ends.run {steps fuel : Nat} (ends : Ends step steps state result) (le : steps ≤ fuel)
    : run step fuel state = some result := run_mono le ends

end Loops

/-! ### Trees -/

/-- The immediate children of the nodes of a tree type. -/
structure Branching (T : Type) where
  children : T → List T
  finite : ∃ size : T → Nat, ∀ node, ∀ child ∈ children node, size child < size node

variable {T σ : Type}

namespace Branching

variable (tree : Branching T)

/-- What shrinks towards the leaves. -/
noncomputable def size : T → Nat := tree.finite.choose

theorem smaller (node : T) : ∀ child ∈ tree.children node, tree.size child < tree.size node :=
  tree.finite.choose_spec node

/-- The number of nodes of a tree. -/
def count (node : T) : Nat :=
  1 + ((tree.children node).attach.map fun child => count child.1).sum
termination_by tree.size node
decreasing_by exact tree.smaller _ _ child.2

theorem count_eq (node : T) :
    tree.count node = 1 + ((tree.children node).map tree.count).sum := by
  rw [count, List.attach_map_val]

/-- The nodes of a tree, each before its children. -/
def preorder (node : T) : List T :=
  node :: ((tree.children node).attach.map fun child => preorder child.1).flatten
termination_by tree.size node
decreasing_by exact tree.smaller _ _ child.2

theorem preorder_eq (node : T) :
    tree.preorder node = node :: (tree.children node).flatMap tree.preorder := by
  rw [preorder, List.attach_map_val]
  rfl

/-- What holds of every node whose children it holds of, holds of every node. -/
theorem induction {motive : T → Prop}
    (step : ∀ node, (∀ child ∈ tree.children node, motive child) → motive node) (node : T) :
    motive node :=
  step node fun child mem => have := mem; induction step child
termination_by tree.size node
decreasing_by exact tree.smaller _ _ this

end Branching

/-! ### Visits -/

section Visits

variable (tree : Branching T) (visit : σ → T → σ × Bool)

/-- Visits the next pending node; the visit tells whether its children are to be
visited. -/
def visitStep : List T × σ → (List T × σ) ⊕ σ
  | ([], state) => .inr state
  | (node :: pending, state) =>
    match visit state node with
    | (state, true) => .inl (tree.children node ++ pending, state)
    | (state, false) => .inl (pending, state)

/-- The recursive visit. -/
def visitNode (state : σ) (node : T) : σ :=
  match visit state node with
  | (state, true) =>
    (tree.children node).attach.foldl (fun state child => visitNode state child.1) state
  | (state, false) => state
termination_by tree.size node
decreasing_by exact tree.smaller _ _ child.2

theorem visitNode_of_descends {state next : σ} {node : T} (visited : visit state node = (next, true)) :
    visitNode tree visit state node
      = (tree.children node).foldl (visitNode tree visit) next := by
  rw [visitNode, visited]
  exact List.foldl_attach

theorem visitNode_of_skips {state next : σ} {node : T} (visited : visit state node = (next, false)) :
    visitNode tree visit state node = next := by
  rw [visitNode, visited]

theorem visit_forest {nodes : List T} (each : ∀ node ∈ nodes, ∀ pending state,
      Within (visitStep tree visit) (tree.count node) (node :: pending, state)
        (pending, visitNode tree visit state node)) (pending : List T) (state : σ) :
    Within (visitStep tree visit) (nodes.map tree.count).sum (nodes ++ pending, state)
      (pending, nodes.foldl (visitNode tree visit) state) := by
  induction nodes generalizing state with
  | nil => exact .refl _
  | cons node nodes ih =>
    rw [List.forall_mem_cons] at each
    rw [List.map_cons, List.sum_cons]
    exact (each.1 _ _).trans (ih each.2 _)

/-- The loop visits a node and what is below it as the recursion does. -/
theorem visit_within (node : T) : ∀ pending state,
    Within (visitStep tree visit) (tree.count node) (node :: pending, state)
      (pending, visitNode tree visit state node) := by
  induction node using tree.induction with
  | step node ih =>
    intro pending state
    rw [tree.count_eq]
    rcases visited : visit state node with ⟨next, _ | _⟩
    · rw [visitNode_of_skips tree visit visited]
      exact (Within.of_step (by rw [visitStep, visited])).mono (Nat.le_add_right _ _)
    · rw [visitNode_of_descends tree visit visited]
      exact (Within.of_step (by rw [visitStep, visited])).trans
        (visit_forest tree visit ih pending next)

/-- **Visits.**  The loop ends in the state that the recursion ends in. -/
theorem visit_ends (node : T) (state : σ) :
    Ends (visitStep tree visit) (tree.count node + 1) ([node], state)
      (visitNode tree visit state node) :=
  (visit_within tree visit node [] state).ends (.of_step rfl)

/-- A visit that keeps all nodes keeps them in preorder. -/
theorem visitNode_preorder (node : T) : ∀ nodes,
    visitNode tree (fun nodes node => (nodes ++ [node], true)) nodes node
      = nodes ++ tree.preorder node := by
  induction node using tree.induction with
  | step node ih =>
    intro nodes
    rw [visitNode_of_descends tree _ rfl, tree.preorder_eq]
    have all : ∀ children : List T, (∀ child ∈ children, child ∈ tree.children node) → ∀ nodes,
        children.foldl (visitNode tree fun nodes node => (nodes ++ [node], true)) nodes
          = nodes ++ children.flatMap tree.preorder := by
      intro children
      induction children with
      | nil => exact fun _ nodes => (List.append_nil nodes).symm
      | cons child children inner =>
        intro inside nodes
        rw [List.forall_mem_cons] at inside
        rw [List.foldl_cons, ih child inside.1, inner inside.2, List.flatMap_cons,
          List.append_assoc]
    rw [all _ fun _ mem => mem, List.append_assoc, List.singleton_append]

end Visits

/-! ### Rewrites -/

section Rewrites

/-- Replacing the children of a node by position. -/
structure Slots (tree : Branching T) where
  assign : T → List T → T
  placeholder : T
  assign_children : ∀ node, assign node (tree.children node) = node
  assign_assign : ∀ node (first second : List T), first.length = (tree.children node).length →
    second.length = (tree.children node).length →
    assign (assign node first) second = assign node second

variable {tree : Branching T} (slots : Slots tree) (visit : σ → T → σ × T)

/-- The next pending node is taken apart, or it is put together from the last values and
rewritten.  A node that was taken apart knows how many values there were before. -/
def rewriteStep : List (T × Option Nat) × List T × σ → (List (T × Option Nat) × List T × σ) ⊕
    (Option T × σ)
  | ([], values, state) => .inr (values.getLast?, state)
  | ((node, some base) :: pending, values, state) =>
    match visit state (slots.assign node (values.drop base)) with
    | (state, node) => .inl (pending, values.take base ++ [node], state)
  | ((node, none) :: pending, values, state) =>
    let children := tree.children node
    .inl (children.map (·, none)
      ++ (slots.assign node (children.map fun _ => slots.placeholder), some values.length)
      :: pending, values, state)

/-- The recursive rewrite: the children from left to right, then their parent. -/
def rewriteNode (state : σ) (node : T) : σ × T :=
  match (tree.children node).attach.foldl (fun done child =>
      match rewriteNode done.1 child.1 with
      | (state, child) => (state, done.2 ++ [child])) (state, []) with
  | (state, children) => visit state (slots.assign node children)
termination_by tree.size node
decreasing_by exact tree.smaller _ _ child.2

/-- The recursive rewrite of siblings. -/
def rewriteNodes : σ → List T → σ × List T
  | state, [] => (state, [])
  | state, node :: nodes =>
    match rewriteNode slots visit state node with
    | (state, node) =>
      match rewriteNodes state nodes with
      | (state, nodes) => (state, node :: nodes)

theorem foldl_rewriteNode (nodes : List T) (state : σ) (done : List T) :
    nodes.foldl (fun done child => ((rewriteNode slots visit done.1 child).1,
        done.2 ++ [(rewriteNode slots visit done.1 child).2])) (state, done)
      = ((rewriteNodes slots visit state nodes).1, done ++ (rewriteNodes slots visit state nodes).2)
    := by
  induction nodes generalizing state done with
  | nil => simp [rewriteNodes]
  | cons node nodes ih =>
    rw [List.foldl_cons, ih]
    simp [rewriteNodes]

theorem rewriteNode_eq (state : σ) (node : T) :
    rewriteNode slots visit state node
      = visit (rewriteNodes slots visit state (tree.children node)).1
          (slots.assign node (rewriteNodes slots visit state (tree.children node)).2) := by
  rw [rewriteNode]
  have folded := foldl_rewriteNode slots visit (tree.children node) state []
  rw [List.nil_append, ← List.foldl_attach] at folded
  rw [folded]

theorem rewriteNodes_length (state : σ) (nodes : List T) :
    (rewriteNodes slots visit state nodes).2.length = nodes.length := by
  induction nodes generalizing state with
  | nil => rfl
  | cons node nodes ih => simp [rewriteNodes, ih]

theorem rewrite_forest {nodes : List T} (each : ∀ node ∈ nodes, ∀ pending values state,
      Within (rewriteStep slots visit) (2 * tree.count node) ((node, none) :: pending, values, state)
        (pending, values ++ [(rewriteNode slots visit state node).2],
          (rewriteNode slots visit state node).1))
    (pending : List (T × Option Nat)) (values : List T) (state : σ) :
    Within (rewriteStep slots visit) (2 * (nodes.map tree.count).sum)
      (nodes.map (·, none) ++ pending, values, state)
      (pending, values ++ (rewriteNodes slots visit state nodes).2,
        (rewriteNodes slots visit state nodes).1) := by
  induction nodes generalizing values state with
  | nil =>
    rw [rewriteNodes, List.append_nil]
    exact .refl _
  | cons node nodes ih =>
    rw [List.forall_mem_cons] at each
    rw [List.map_cons, List.map_cons, List.sum_cons, Nat.mul_add]
    have rest := ih each.2 (values ++ [(rewriteNode slots visit state node).2])
      (rewriteNode slots visit state node).1
    rw [List.append_assoc, List.singleton_append] at rest
    exact (each.1 _ _ _).trans rest

/-- The loop rewrites a node and what is below it as the recursion does. -/
theorem rewrite_within (node : T) : ∀ pending values state,
    Within (rewriteStep slots visit) (2 * tree.count node) ((node, none) :: pending, values, state)
      (pending, values ++ [(rewriteNode slots visit state node).2],
        (rewriteNode slots visit state node).1) := by
  induction node using tree.induction with
  | step node ih =>
    intro pending values state
    have taken : Within (rewriteStep slots visit) 1 ((node, none) :: pending, values, state)
        ((tree.children node).map (·, none)
          ++ (slots.assign node ((tree.children node).map fun _ => slots.placeholder),
            some values.length) :: pending, values, state) := .of_step rfl
    have below := rewrite_forest slots visit ih ((slots.assign node
      ((tree.children node).map fun _ => slots.placeholder), some values.length) :: pending)
      values state
    have together : Within (rewriteStep slots visit) 1
        ((slots.assign node ((tree.children node).map fun _ => slots.placeholder),
          some values.length) :: pending,
          values ++ (rewriteNodes slots visit state (tree.children node)).2,
          (rewriteNodes slots visit state (tree.children node)).1)
        (pending, values ++ [(rewriteNode slots visit state node).2],
          (rewriteNode slots visit state node).1) := by
      refine .of_step ?_
      rw [rewriteStep, List.drop_left, List.take_left, slots.assign_assign _ _ _
        (List.length_map _) (rewriteNodes_length slots visit state _), rewriteNode_eq]
    refine ((taken.trans below).trans together).mono ?_
    rw [tree.count_eq node]
    omega

/-- **Rewrites.**  The loop leaves the tree that the recursion gives. -/
theorem rewrite_ends (node : T) (state : σ) :
    Ends (rewriteStep slots visit) (2 * tree.count node + 1) ([(node, none)], [], state)
      (some (rewriteNode slots visit state node).2, (rewriteNode slots visit state node).1) :=
  (rewrite_within slots visit node [] [] state).ends (.of_step (by simp [rewriteStep]))

end Rewrites

/-! ### Folds -/

section Folds

variable {V E : Type} (descend : σ → T → σ × List T) (finish : σ → T → List V → σ × Except E V)

/-- The next pending node is replaced by the nodes below it that the fold needs, or its
value is computed from the last values. -/
def foldStep : List (T × Option Nat) × List V × σ → (List (T × Option Nat) × List V × σ) ⊕
    (σ × Except E (Option V))
  | ([], values, state) => .inr (state, .ok values.getLast?)
  | ((node, some base) :: pending, values, state) =>
    match finish state node (values.drop base) with
    | (state, .ok value) => .inl (pending, values.take base ++ [value], state)
    | (state, .error reason) => .inr (state, .error reason)
  | ((node, none) :: pending, values, state) =>
    match descend state node with
    | (state, nodes) =>
      .inl (nodes.map (·, none) ++ (node, some values.length) :: pending, values, state)

mutual

/-- The recursive fold of a node: its value, or the first error. -/
inductive Folds : σ → T → σ → Except E V → Prop
  | finished {state next before last : σ} {node : T} {nodes : List T} {values : List V}
      {result : Except E V} (descended : descend state node = (next, nodes))
      (below : FoldsAll next nodes before (.ok values))
      (computed : finish before node values = (last, result)) : Folds state node last result
  | failed {state next last : σ} {node : T} {nodes : List T} {reason : E}
      (descended : descend state node = (next, nodes))
      (below : FoldsAll next nodes last (.error reason)) : Folds state node last (.error reason)

/-- The recursive fold of nodes from left to right. -/
inductive FoldsAll : σ → List T → σ → Except E (List V) → Prop
  | nil {state : σ} : FoldsAll state [] state (.ok [])
  | cons {state middle last : σ} {node : T} {nodes : List T} {value : V} {values : List V}
      (first : Folds state node middle (.ok value))
      (rest : FoldsAll middle nodes last (.ok values)) :
      FoldsAll state (node :: nodes) last (.ok (value :: values))
  | here {state last : σ} {node : T} {nodes : List T} {reason : E}
      (first : Folds state node last (.error reason)) :
      FoldsAll state (node :: nodes) last (.error reason)
  | later {state middle last : σ} {node : T} {nodes : List T} {value : V} {reason : E}
      (first : Folds state node middle (.ok value))
      (rest : FoldsAll middle nodes last (.error reason)) :
      FoldsAll state (node :: nodes) last (.error reason)

end

/-- The loop gets from pending nodes to their values, or ends with their error. -/
def Loops (state : σ) (nodes : List T) (last : σ) : Except E (List V) → Prop
  | .ok results => ∃ steps, ∀ pending values, Within (foldStep descend finish) steps
      (nodes.map (·, none) ++ pending, values, state) (pending, values ++ results, last)
  | .error reason => ∃ steps, ∀ pending values, Ends (foldStep descend finish) steps
      (nodes.map (·, none) ++ pending, values, state) (last, .error reason)

variable {descend finish}

mutual

theorem Folds.loops {state last : σ} {node : T} {result : Except E V} :
    Folds descend finish state node last result →
      Loops descend finish state [node] last (result.map ([·]))
  | @Folds.finished _ _ _ _ _ _ _ _ before _ _ _ results _ descended below computed => by
    obtain ⟨steps, inner⟩ := below.loops
    have opened (pending : List (T × Option Nat)) (values : List V) :
        Within (foldStep descend finish) (1 + steps) ((node, none) :: pending, values, state)
          ((node, some values.length) :: pending, values ++ results, before) :=
      (Within.of_step (by rw [foldStep, descended])).trans (inner _ _)
    cases result with
    | ok value =>
      refine ⟨1 + steps + 1, fun pending values => (opened pending values).trans (.of_step ?_)⟩
      rw [foldStep, List.drop_left, List.take_left, computed]
    | error reason =>
      refine ⟨1 + steps + 1, fun pending values => (opened pending values).ends (.of_step ?_)⟩
      rw [foldStep, List.drop_left, computed]
  | .failed descended below => by
    obtain ⟨steps, inner⟩ := below.loops
    exact ⟨1 + steps, fun pending values =>
      (Within.of_step (by rw [List.map_singleton, List.singleton_append, foldStep, descended])).ends
        (inner _ _)⟩

theorem FoldsAll.loops {state last : σ} {nodes : List T} {result : Except E (List V)} :
    FoldsAll descend finish state nodes last result → Loops descend finish state nodes last result
  | .nil => ⟨0, fun pending values => by
      rw [List.append_nil]
      exact .refl _⟩
  | @FoldsAll.cons _ _ _ _ _ _ _ _ _ _ _ value _ first rest => by
    obtain ⟨here, before⟩ := first.loops
    obtain ⟨later, after⟩ := rest.loops
    refine ⟨here + later, fun pending values => ?_⟩
    have joined := after pending (values ++ [value])
    rw [List.append_assoc, List.singleton_append] at joined
    exact (before _ values).trans joined
  | .here first => by
    obtain ⟨steps, ends⟩ := first.loops
    exact ⟨steps, fun pending values => ends _ values⟩
  | .later first rest => by
    obtain ⟨here, before⟩ := first.loops
    obtain ⟨later, after⟩ := rest.loops
    exact ⟨here + later, fun pending values => (before _ values).ends (after _ _)⟩

end

/-- **Folds.**  The loop ends with the value or the error of the recursive fold. -/
theorem Folds.ends {state last : σ} {node : T} {result : Except E V}
    (folds : Folds descend finish state node last result) :
    ∃ steps, Ends (foldStep descend finish) steps ([(node, none)], [], state)
      (last, result.map some) := by
  have loops := folds.loops
  cases result with
  | ok value =>
    obtain ⟨steps, within⟩ := loops
    exact ⟨steps + 1, (within [] []).ends (.of_step rfl)⟩
  | error reason =>
    obtain ⟨steps, ends⟩ := loops
    exact ⟨steps, ends [] []⟩

/-- A fold that looks at children only has a value or an error everywhere. -/
theorem exists_folds (tree : Branching T)
    (below : ∀ state node, ∀ child ∈ (descend state node).2, child ∈ tree.children node)
    (node : T) : ∀ state, ∃ last result, Folds descend finish state node last result := by
  induction node using tree.induction with
  | step node ih =>
    intro state
    have all : ∀ nodes : List T, (∀ child ∈ nodes, child ∈ tree.children node) → ∀ state,
        ∃ last result, FoldsAll descend finish state nodes last result := by
      intro nodes
      induction nodes with
      | nil => exact fun _ state => ⟨state, _, .nil⟩
      | cons child nodes inner =>
        intro inside state
        rw [List.forall_mem_cons] at inside
        obtain ⟨middle, _ | value, first⟩ := ih child inside.1 state
        · exact ⟨middle, _, .here first⟩
        · obtain ⟨last, _ | values, rest⟩ := inner inside.2 middle
          · exact ⟨last, _, .later first rest⟩
          · exact ⟨last, _, .cons first rest⟩
    rcases descended : descend state node with ⟨next, nodes⟩
    have inside := below state node
    rw [descended] at inside
    obtain ⟨middle, _ | values, folded⟩ := all nodes inside next
    · exact ⟨middle, _, .failed descended folded⟩
    · exact ⟨_, _, .finished descended folded rfl⟩

end Folds

end Onda.Worklist
