import Onda.Frontend.Expr
import Onda.Lib.Worklist

/-!
# Traversals of expressions

The traversals of the compiler keep a worklist, so that the depth of an expression
does not matter.  Each of them does what the recursion over the expression does.

The children of an expression are its immediate subexpressions in source order.
`assignChildren` is what an iteration over `children_mut` does that sets each child
to the next of some values.
-/

namespace Onda.Frontend

open Worklist

namespace Expr

/-- Immediate children in source order, including type-size expressions. -/
def children : Expr → List Expr
  | .number .. | .int .. | .bool .. | .var .. => []
  | .index _ _ child | .cast _ _ child | .unaryNot _ child | .unaryBitNot _ child => [child]
  | .slice _ _ selector channel start stop => [selector, channel, start, stop].filterMap id
  | .binary _ _ lhs rhs | .compare _ _ lhs rhs | .logical _ _ lhs rhs => [lhs, rhs]
  | .arrayLiteral _ values | .tuple _ values | .call _ _ values => values
  | .userCall _ _ _ args => args.map (·.expr)
  | .arrayCtor _ spec init _ _ => spec.size :: init.getD []

/-! ### Slots -/

/-- The next value, or what is there if there is none. -/
def assignSlot (slot : Expr) : List Expr → Expr × List Expr
  | [] => (slot, [])
  | value :: values => (value, values)

def assignOption : Option Expr → List Expr → Option Expr × List Expr
  | none, values => (none, values)
  | some slot, values => ((assignSlot slot values).1, (assignSlot slot values).2)

def assignList : List Expr → List Expr → List Expr
  | [], _ => []
  | slot :: slots, values =>
    (assignSlot slot values).1 :: assignList slots (assignSlot slot values).2

def assignArgs : List (CallArg Expr) → List Expr → List (CallArg Expr)
  | [], _ => []
  | arg :: args, values =>
    { arg with expr := (assignSlot arg.expr values).1 }
      :: assignArgs args (assignSlot arg.expr values).2

/-- The children of an expression, from the first on, set to some values. -/
def assignChildren (values : List Expr) : Expr → Expr
  | .number loc value => .number loc value
  | .int loc value constTy => .int loc value constTy
  | .bool loc value => .bool loc value
  | .var loc name => .var loc name
  | .index loc base position => .index loc base (assignSlot position values).1
  | .cast loc target expr => .cast loc target (assignSlot expr values).1
  | .unaryNot loc expr => .unaryNot loc (assignSlot expr values).1
  | .unaryBitNot loc expr => .unaryBitNot loc (assignSlot expr values).1
  | .slice loc base selector channel start stop =>
    let (selector, values) := assignOption selector values
    let (channel, values) := assignOption channel values
    let (start, values) := assignOption start values
    let (stop, _) := assignOption stop values
    .slice loc base selector channel start stop
  | .binary loc op lhs rhs =>
    let (lhs, values) := assignSlot lhs values
    .binary loc op lhs (assignSlot rhs values).1
  | .compare loc op lhs rhs =>
    let (lhs, values) := assignSlot lhs values
    .compare loc op lhs (assignSlot rhs values).1
  | .logical loc op lhs rhs =>
    let (lhs, values) := assignSlot lhs values
    .logical loc op lhs (assignSlot rhs values).1
  | .arrayLiteral loc slots => .arrayLiteral loc (assignList slots values)
  | .tuple loc slots => .tuple loc (assignList slots values)
  | .call loc func args => .call loc func (assignList args values)
  | .userCall loc name typeArgs args => .userCall loc name typeArgs (assignArgs args values)
  | .arrayCtor loc spec init initIsValue initializes =>
    let (size, values) := assignSlot spec.size values
    .arrayCtor loc { spec with size } (init.map (assignList · values)) initIsValue initializes

theorem assignList_self (slots : List Expr) : assignList slots slots = slots := by
  induction slots with
  | nil => rfl
  | cons slot slots ih => simp [assignList, assignSlot, ih]

theorem assignList_of_length {slots values : List Expr} (same : values.length = slots.length) :
    assignList slots values = values := by
  induction slots generalizing values with
  | nil => rw [List.length_eq_zero_iff.mp same]; rfl
  | cons slot slots ih =>
    cases values with
    | nil => cases same
    | cons value values => simp [assignList, assignSlot, ih (Nat.succ.inj same)]

theorem assignList_length (slots values : List Expr) :
    (assignList slots values).length = slots.length := by
  induction slots generalizing values with
  | nil => rfl
  | cons slot slots ih => simp [assignList, ih]

theorem assignArgs_self (args : List (CallArg Expr)) :
    assignArgs args (args.map (·.expr)) = args := by
  induction args with
  | nil => rfl
  | cons arg args ih => simp [assignArgs, assignSlot, ih]

theorem assignArgs_assignArgs {args : List (CallArg Expr)} (first : List Expr)
    {second : List Expr} (enough : second.length = args.length) :
    assignArgs (assignArgs args first) second = assignArgs args second := by
  induction args generalizing first second with
  | nil => rfl
  | cons arg args ih =>
    cases second with
    | nil => cases enough
    | cons value second => simp [assignArgs, assignSlot, ih _ (Nat.succ.inj enough)]

/-- Children set to themselves. -/
theorem assignChildren_children (expr : Expr) : assignChildren expr.children expr = expr := by
  cases expr with
  | number | int | bool | var => rfl
  | index | cast | unaryNot | unaryBitNot | binary | compare | logical => rfl
  | arrayLiteral | tuple | call => simp [assignChildren, children, assignList_self]
  | userCall => simp [assignChildren, children, assignArgs_self]
  | arrayCtor loc spec init =>
    cases init <;> simp [assignChildren, children, assignSlot, assignList_self]
  | slice loc base selector channel start stop =>
    cases selector <;> cases channel <;> cases start <;> cases stop <;> rfl

/-- Children that are set twice have the second values. -/
theorem assignChildren_assignChildren (expr : Expr) (first : List Expr) {second : List Expr}
    (enough : second.length = expr.children.length) :
    assignChildren second (assignChildren first expr) = assignChildren second expr := by
  cases expr with
  | number | int | bool | var => rfl
  | index | cast | unaryNot | unaryBitNot =>
    obtain ⟨value, rfl⟩ := List.length_eq_one_iff.mp enough
    rfl
  | binary | compare | logical =>
    obtain ⟨left, right, rfl⟩ := List.length_eq_two.mp enough
    rfl
  | arrayLiteral loc slots | tuple loc slots | call loc func slots =>
    have same : second.length = slots.length := enough
    simp only [assignChildren]
    rw [assignList_of_length same,
      assignList_of_length (same.trans (assignList_length slots first).symm)]
  | userCall loc name typeArgs args =>
    simp only [assignChildren]
    rw [assignArgs_assignArgs first (by simpa [children] using enough)]
  | arrayCtor loc spec init =>
    cases second with
    | nil => simp [children] at enough
    | cons size values =>
      cases init with
      | none => rfl
      | some slots =>
        have same : values.length = slots.length := by simpa [children] using enough
        simp only [assignChildren, assignSlot, Option.map_some]
        rw [assignList_of_length same, assignList_of_length]
        rw [assignList_length, same]
  | slice loc base selector channel start stop =>
    rcases second with _ | ⟨a, _ | ⟨b, _ | ⟨c, _ | ⟨d, _ | _⟩⟩⟩⟩
    all_goals
      cases selector <;> cases channel <;> cases start <;> cases stop <;>
        first
        | rfl
        | simp [children] at enough

theorem sizeOf_children (expr : Expr) : ∀ child ∈ expr.children, sizeOf child < sizeOf expr := by
  intro child mem
  cases expr with
  | number | int | bool | var => simp [children] at mem
  | index | cast | unaryNot | unaryBitNot =>
    obtain rfl := List.mem_singleton.mp mem
    simp
    try omega
  | binary | compare | logical =>
    simp only [children, List.mem_cons, List.not_mem_nil, or_false] at mem
    rcases mem with rfl | rfl <;> simp <;> omega
  | arrayLiteral loc values | tuple loc values | call loc func values =>
    have below := List.sizeOf_lt_of_mem (show child ∈ values from mem)
    simp
    omega
  | userCall loc name typeArgs args =>
    obtain ⟨arg, inArgs, rfl⟩ := List.mem_map.mp mem
    have below := List.sizeOf_lt_of_mem inArgs
    cases arg
    simp at below ⊢
    omega
  | arrayCtor loc spec init =>
    cases spec
    rcases List.mem_cons.mp mem with rfl | inInit
    · simp
      omega
    · cases init with
      | none => cases inInit
      | some values =>
        have below := List.sizeOf_lt_of_mem (show child ∈ values from inInit)
        simp
        omega
  | slice loc base selector channel start stop =>
    simp only [children, List.mem_filterMap, List.mem_cons, List.not_mem_nil, or_false, id] at mem
    obtain ⟨slot, which, rfl⟩ := mem
    rcases which with rfl | rfl | rfl | rfl <;> simp <;> omega

/-- Expressions as trees. -/
def branching : Branching Expr where
  children := children
  finite := ⟨sizeOf, sizeOf_children⟩

/-- The children of an expression as slots; what is taken out leaves a zero. -/
def slots : Slots branching where
  assign expr values := assignChildren values expr
  placeholder := ofInt 0
  assign_children := assignChildren_children
  assign_assign expr first _ _ enough := assignChildren_assignChildren expr first enough

/-! ### Traversals -/

section Traversals

variable (fuel : Nat) {σ V E : Type}

/-- All nodes, each before its children. -/
def walk (expr : Expr) : Option (List Expr) :=
  run (visitStep branching fun nodes node => (nodes ++ [node], true)) fuel ([expr], [])

def visit (visitor : σ → Expr → σ × Bool) (state : σ) (expr : Expr) : Option σ :=
  run (visitStep branching visitor) fuel ([expr], state)

def visitMutPostorder (visitor : σ → Expr → σ × Expr) (state : σ) (expr : Expr) :
    Option (Option Expr × σ) :=
  run (rewriteStep slots visitor) fuel ([(expr, none)], [], state)

def tryFold (descend : σ → Expr → σ × List Expr) (finish : σ → Expr → List V → σ × Except E V)
    (state : σ) (expr : Expr) : Option (σ × Except E (Option V)) :=
  run (foldStep descend finish) fuel ([(expr, none)], [], state)

end Traversals

/-! ### Copies -/

/-- The next copied child. -/
def child : StateT (List Expr) (Except String) Expr := do
  match ← get with
  | [] => throw "cloned expression child"
  | first :: rest =>
    set rest
    return first

/-- All copied children that are left. -/
def collect : StateT (List Expr) (Except String) (List Expr) := do
  let all ← get
  set ([] : List Expr)
  return all

def childOption : Option Expr → StateT (List Expr) (Except String) (Option Expr)
  | none => return none
  | some _ => return some (← child)

def cloneArg (arg : CallArg Expr) : StateT (List Expr) (Except String) (CallArg Expr) :=
  return { name := arg.name, expr := ← child }

/-- A copy of a node with copied children. -/
def cloneNode : Expr → StateT (List Expr) (Except String) Expr
  | .number loc value => return .number loc value
  | .int loc value constTy => return .int loc value constTy
  | .bool loc value => return .bool loc value
  | .var loc name => return .var loc name
  | .index loc base _ => return .index loc base (← child)
  | .slice loc base selector channel start stop => do
    let selector ← childOption selector
    let channel ← childOption channel
    let start ← childOption start
    let stop ← childOption stop
    return .slice loc base selector channel start stop
  | .cast loc target _ => return .cast loc target (← child)
  | .unaryNot loc _ => return .unaryNot loc (← child)
  | .unaryBitNot loc _ => return .unaryBitNot loc (← child)
  | .binary loc op _ _ => return .binary loc op (← child) (← child)
  | .compare loc op _ _ => return .compare loc op (← child) (← child)
  | .logical loc op _ _ => return .logical loc op (← child) (← child)
  | .tuple loc _ => return .tuple loc (← collect)
  | .arrayLiteral loc _ => return .arrayLiteral loc (← collect)
  | .call loc func _ => return .call loc func (← collect)
  | .userCall loc name typeArgs args =>
    return .userCall loc name typeArgs (← args.mapM cloneArg)
  | .arrayCtor loc spec init initIsValue initializes => do
    let size ← child
    let init ← match init with
      | none => pure none
      | some _ => some <$> collect
    return .arrayCtor loc { elem := spec.elem, size } init initIsValue initializes

/-- What `finish` of `clone` does with the copied children of a node. -/
def finishClone (_ : Unit) (expr : Expr) (copied : List Expr) : Unit × Except String Expr :=
  ((), (cloneNode expr).run' copied)

def clone (fuel : Nat) (expr : Expr) : Option (Unit × Except String (Option Expr)) :=
  tryFold fuel (fun _ expr => ((), expr.children)) finishClone () expr

theorem cloneArgs_children (args : List (CallArg Expr)) :
    (args.mapM cloneArg).run (args.map (·.expr)) = .ok (args, []) := by
  induction args with
  | nil => rfl
  | cons arg args ih =>
    rw [List.mapM_cons, List.map_cons, StateT.run_bind]
    have first : (cloneArg arg).run (arg.expr :: args.map (·.expr)) = .ok (arg, args.map (·.expr)) :=
      rfl
    rw [first]
    change ((args.mapM cloneArg >>= fun rest => pure (arg :: rest)).run (args.map (·.expr))) = _
    rw [StateT.run_bind, ih]
    rfl

theorem cloneNode_children (expr : Expr) : (cloneNode expr).run' expr.children = .ok expr := by
  cases expr with
  | number | int | bool | var | index | cast | unaryNot | unaryBitNot | binary | compare
  | logical | tuple | arrayLiteral | call => rfl
  | slice loc base selector channel start stop =>
    cases selector <;> cases channel <;> cases start <;> cases stop <;> rfl
  | arrayCtor loc spec init => cases init <;> rfl
  | userCall loc name typeArgs args =>
    have copied := cloneArgs_children args
    unfold cloneNode children StateT.run'
    change Prod.fst <$> (args.mapM cloneArg >>= fun args => pure (userCall loc name typeArgs args)).run
      (args.map (·.expr)) = _
    rw [StateT.run_bind, copied]
    rfl

/-- The recursive copy is the expression. -/
theorem folds_clone (expr : Expr) :
    Folds (fun _ expr => ((), children expr)) finishClone () expr () (.ok expr) := by
  induction expr using branching.induction with
  | step expr ih =>
    have all : ∀ exprs : List Expr, (∀ child ∈ exprs, child ∈ expr.children) →
        FoldsAll (fun _ expr => ((), children expr)) finishClone () exprs () (.ok exprs) := by
      intro exprs
      induction exprs with
      | nil => exact fun _ => .nil
      | cons first rest inner =>
        intro inside
        rw [List.forall_mem_cons] at inside
        exact .cons (ih first inside.1) (inner inside.2)
    exact .finished rfl (all _ fun _ mem => mem)
      (congrArg (Prod.mk ()) (cloneNode_children expr))

/-- **Traversals.**  With enough fuel every traversal ends with what the recursion over the
expression gives: the nodes in preorder, the state of a visit that skips what it is told to
skip, the rewritten expression, the value of the fold or its first error, and the
expression itself as its copy. -/
theorem traversals_structural (expr : Expr) :
    (∀ fuel > branching.count expr, walk fuel expr = some (branching.preorder expr))
    ∧ (∀ (σ : Type) (visitor : σ → Expr → σ × Bool) (state : σ), ∀ fuel > branching.count expr,
      visit fuel visitor state expr = some (visitNode branching visitor state expr))
    ∧ (∀ (σ : Type) (visitor : σ → Expr → σ × Expr) (state : σ),
      ∀ fuel > 2 * branching.count expr, visitMutPostorder fuel visitor state expr
        = some (some (rewriteNode slots visitor state expr).2,
          (rewriteNode slots visitor state expr).1))
    ∧ (∀ (σ V E : Type) (descend : σ → Expr → σ × List Expr)
      (finish : σ → Expr → List V → σ × Except E V) (state : σ),
      (∀ last result, Folds descend finish state expr last result →
        ∃ enough, ∀ fuel ≥ enough,
          tryFold fuel descend finish state expr = some (last, result.map some))
      ∧ ((∀ state node, ∀ child ∈ (descend state node).2, child ∈ node.children) →
        ∃ last result, Folds descend finish state expr last result))
    ∧ ∃ enough, ∀ fuel ≥ enough, clone fuel expr = some ((), .ok (some expr)) := by
  refine ⟨fun fuel enough => ?_, fun σ visitor state fuel enough => ?_,
    fun σ visitor state fuel enough => ?_, fun σ V E descend finish state =>
      ⟨fun last result folds => ?_, fun below => ?_⟩, ?_⟩
  · rw [walk, (visit_ends branching _ expr []).run enough, visitNode_preorder, List.nil_append]
  · exact (visit_ends branching visitor expr state).run enough
  · exact (rewrite_ends slots visitor expr state).run enough
  · obtain ⟨enough, ends⟩ := folds.ends
    exact ⟨enough, fun fuel le => ends.run le⟩
  · exact exists_folds branching below expr state
  · obtain ⟨enough, ends⟩ := (folds_clone expr).ends
    exact ⟨enough, fun fuel le => ends.run le⟩

/-- A slice without a channel and without an end. -/
def sliced : Expr :=
  .slice Span.ZERO "data" (some (.var Span.ZERO "i")) none (some (ofInt 4)) none

theorem traversals_structural_sliced :
    ∃ enough, ∀ fuel ≥ enough, clone fuel sliced = some ((), .ok (some sliced)) :=
  (traversals_structural sliced).2.2.2.2

example : walk 4 sliced = some [sliced, .var Span.ZERO "i", ofInt 4] := rfl

end Expr

end Onda.Frontend
