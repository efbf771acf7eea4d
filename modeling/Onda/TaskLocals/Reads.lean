import Mathlib.Data.List.TakeWhile
import Onda.Frontend.ExprTraversal
import Onda.TaskLocals.Bindings

/-!
# Bindings that an expression reads

An expression reads a binding if a variable, an index, a slice or the receiver of a call
in it begins with the binding.  `collect_expr_uses` collects the paths that are read, and
renaming bindings renames what is read.
-/

namespace Onda.TaskLocals

open Frontend

/-! ### Roots of paths -/

/-- What follows the root of a path. -/
def members (path : String) : String := String.ofList (path.toList.dropWhile (· ≠ '.'))

theorem ne_dot_of_notMem {chars : List Char} (plain : '.' ∉ chars) :
    ∀ char ∈ chars, decide (char ≠ '.') = true := by
  intro char mem
  rw [decide_eq_true_eq]
  rintro rfl
  exact plain mem

theorem takeWhile_dot {front rest : List Char} (plain : '.' ∉ front)
    (boundary : rest = [] ∨ rest.head? = some '.') :
    (front ++ rest).takeWhile (· ≠ '.') = front ∧ (front ++ rest).dropWhile (· ≠ '.') = rest := by
  rw [List.takeWhile_append_of_pos (ne_dot_of_notMem plain),
    List.dropWhile_append_of_pos (ne_dot_of_notMem plain)]
  rcases boundary with rfl | starts
  · simp
  · cases rest with
    | nil => cases starts
    | cons char rest =>
      rw [List.head?_cons, Option.some.injEq] at starts
      subst starts
      simp

/-- A path in its two parts. -/
theorem path_parts (path : String) : ∃ front rest, path.toList = front ++ rest ∧ '.' ∉ front
    ∧ (rest = [] ∨ rest.head? = some '.') ∧ (root path).toList = front
    ∧ (members path).toList = rest := by
  have parts : ∃ front rest, path.toList = front ++ rest ∧ '.' ∉ front
      ∧ (rest = [] ∨ rest.head? = some '.') := by
    by_cases dotted : '.' ∈ path.toList
    · obtain ⟨front, rest, whole, plain⟩ := List.eq_append_cons_of_mem dotted
      exact ⟨front, '.' :: rest, whole, plain, .inr rfl⟩
    · exact ⟨path.toList, [], (List.append_nil _).symm, dotted, .inl rfl⟩
  obtain ⟨front, rest, whole, plain, boundary⟩ := parts
  refine ⟨front, rest, whole, plain, boundary, ?_, ?_⟩
  · rw [root, String.toList_ofList, whole, (takeWhile_dot plain boundary).1]
  · rw [members, String.toList_ofList, whole, (takeWhile_dot plain boundary).2]

theorem root_append_members (path : String) : root path ++ members path = path := by
  obtain ⟨front, rest, whole, -, -, first, second⟩ := path_parts path
  apply String.toList_injective
  rw [String.toList_append, first, second, whole]

theorem dot_notMem_root (path : String) : '.' ∉ (root path).toList := by
  obtain ⟨front, -, -, plain, -, first, -⟩ := path_parts path
  exact first ▸ plain

theorem root_append {front : String} (plain : '.' ∉ front.toList) (path : String) :
    root (front ++ members path) = front := by
  obtain ⟨-, rest, -, -, boundary, -, second⟩ := path_parts path
  apply String.toList_injective
  rw [root, String.toList_ofList, String.toList_append, second, (takeWhile_dot plain boundary).1]

theorem root_eq_self {path : String} (plain : '.' ∉ path.toList) : root path = path := by
  apply String.toList_injective
  rw [root, String.toList_ofList, List.takeWhile_eq_self_iff.mpr (ne_dot_of_notMem plain)]

theorem root_root (path : String) : root (root path) = root path := root_eq_self (dot_notMem_root path)

theorem dot_mem_append_members {front : String} (plain : '.' ∉ front.toList) (path : String) :
    '.' ∈ (front ++ members path).toList ↔ '.' ∈ path.toList := by
  obtain ⟨first, rest, whole, firstPlain, -, -, second⟩ := path_parts path
  rw [String.toList_append, second, whole, List.mem_append, List.mem_append]
  exact or_congr_left (iff_of_false plain firstPlain)

/-- The receiver begins with the binding. -/
theorem root_of_parent {path receiver : String} (found : parent path = some receiver) :
    root receiver = root path := by
  rw [parent] at found
  split at found
  case isFalse => cases found
  case isTrue dotted =>
    cases found
    obtain ⟨rest, last, reversed, plain⟩ :=
      List.eq_append_cons_of_mem (List.mem_reverse.mpr dotted)
    have whole : path.toList = last.reverse ++ '.' :: rest.reverse := by
      simpa using congrArg List.reverse reversed
    rw [reversed, (takeWhile_dot plain (.inr rfl)).2, List.tail_cons]
    apply String.toList_injective
    rw [root, root, String.toList_ofList, String.toList_ofList, String.toList_ofList, whole]
    -- Both run up to the first period, in the receiver or just behind it.
    by_cases inside : '.' ∈ last.reverse
    · obtain ⟨front, tail, split, free⟩ := List.eq_append_cons_of_mem inside
      rw [split, List.append_assoc, (takeWhile_dot free (.inr rfl)).1,
        List.cons_append, (takeWhile_dot free (.inr rfl)).1]
    · rw [(takeWhile_dot inside (.inr rfl)).1,
        List.takeWhile_eq_self_iff.mpr (ne_dot_of_notMem inside)]

/-! ### Renamed paths -/

/-- Names for bindings, not for members, that are bindings again. -/
structure Names.Plain (names : Names) : Prop where
  source : ∀ key new, names key = some new → '.' ∉ key.toList
  target : ∀ key new, names key = some new → '.' ∉ new.toList

/-- What a binding is called. -/
def Names.rename (names : Names) (binding : String) : String := (names binding).getD binding

theorem findSome?_eq_of_unique {α β : Type} {items : List α} {find : α → Option β} {item : α}
    (mem : item ∈ items) (others : ∀ other ∈ items, other ≠ item → find other = none) :
    items.findSome? find = find item := by
  induction items with
  | nil => cases mem
  | cons first items ih =>
    rw [List.findSome?_cons]
    by_cases same : first = item
    · subst same
      cases found : find first with
      | some result => rfl
      | none =>
        rw [List.findSome?_eq_none_iff]
        intro other inside
        by_cases again : other = first
        · rw [again, found]
        · exact others other (List.mem_cons_of_mem _ inside) again
    · rw [others first List.mem_cons_self same]
      exact ih ((List.mem_cons.mp mem).resolve_left (Ne.symm same))
        fun other inside => others other (List.mem_cons_of_mem _ inside)

variable {names : Names} {binding : String}

/-- A path is renamed at its root. -/
theorem rewritePath_eq (plain : names.Plain) (path : String) :
    rewritePath names path = names.rename (root path) ++ members path := by
  obtain ⟨front, rest, whole, free, boundary, first, second⟩ := path_parts path
  have mem : (front, rest) ∈ beginnings path.toList := by
    rw [beginnings, List.mem_filterMap]
    have bound : front.length < path.toList.length + 1 := by
      rw [whole, List.length_append]
      exact Nat.lt_succ_of_le (Nat.le_add_right _ _)
    refine ⟨front.length, List.mem_reverse.2 (List.mem_range.2 bound), ?_⟩
    rw [if_pos]
    · rw [whole, List.take_left, List.drop_left]
    · rw [whole]
      rcases boundary with rfl | starts
      · exact .inl (by simp)
      · exact .inr (by rw [List.getElem?_append_right (Nat.le_refl _), Nat.sub_self,
          ← List.head?_eq_getElem?, starts])
  -- A longer beginning has a period, so it has no name.
  have others : ∀ piece ∈ beginnings path.toList, piece ≠ (front, rest) →
      (names (String.ofList piece.1)).map (· ++ String.ofList piece.2) = none := by
    intro piece inside differs
    rw [beginnings, List.mem_filterMap] at inside
    obtain ⟨position, -, taken⟩ := inside
    split at taken
    case isFalse => cases taken
    case isTrue ends =>
      cases taken
      rw [Option.map_eq_none_iff, Option.eq_none_iff_forall_ne_some]
      intro new named
      have taken_plain := plain.source _ new named
      rw [String.toList_ofList] at taken_plain
      apply differs
      have ends' : path.toList.drop position = [] ∨ (path.toList.drop position).head? = some '.' := by
        rcases ends with rfl | ends
        · exact .inl (by simp)
        · exact .inr (by rw [List.head?_drop, ends])
      have parts := takeWhile_dot taken_plain ends'
      rw [List.take_append_drop, whole, (takeWhile_dot free boundary).1,
        (takeWhile_dot free boundary).2, ← whole] at parts
      exact Prod.ext parts.1.symm parts.2.symm
  rw [rewritePath, findSome?_eq_of_unique mem others, Names.rename,
    show String.ofList front = root path by rw [← first, String.ofList_toList],
    show String.ofList rest = members path by rw [← second, String.ofList_toList]]
  cases names (root path) with
  | none => exact (root_append_members path).symm
  | some new => rfl

theorem Names.Plain.rename_root (plain : names.Plain) (path : String) :
    '.' ∉ (names.rename (root path)).toList := by
  rw [Names.rename]
  cases named : names (root path) with
  | none => exact dot_notMem_root path
  | some new => exact plain.target _ new named

theorem root_rewritePath (plain : names.Plain) (path : String) :
    root (rewritePath names path) = names.rename (root path) := by
  rw [rewritePath_eq plain, root_append (plain.rename_root path)]

theorem dot_mem_rewritePath (plain : names.Plain) (path : String) :
    '.' ∈ (rewritePath names path).toList ↔ '.' ∈ path.toList := by
  rw [rewritePath_eq plain, dot_mem_append_members (plain.rename_root path)]

/-! ### Expressions -/

/-- An expression reads a binding. -/
inductive Reads (binding : String) : Expr → Prop where
  | var {loc : Span} {name : String} : root name = binding → Reads binding (.var loc name)
  | index {loc : Span} {base : String} {position : Expr} : root base = binding →
      Reads binding (.index loc base position)
  | slice {loc : Span} {base : String} {selector channel start stop : Option Expr} :
      root base = binding → Reads binding (.slice loc base selector channel start stop)
  | receiver {loc : Span} {name : String} {typeArgs : List CallTypeArg} {args : List (CallArg Expr)} :
      '.' ∈ name.toList → root name = binding → Reads binding (.userCall loc name typeArgs args)
  | child {expr child : Expr} : child ∈ expr.children → Reads binding child → Reads binding expr

/-- What an expression uses itself. -/
def ownUses : Expr → List String
  | .var _ name => [name]
  | .index _ base _ => [base]
  | .slice _ base _ _ _ _ => [base]
  | .userCall _ name _ _ => receiverUses name
  | _ => []

theorem listUses_eq (exprs : List Expr) : listUses exprs = exprs.flatMap exprUses := by
  induction exprs with
  | nil => rfl
  | cons expr exprs ih => rw [listUses, ih, List.flatMap_cons]

theorem argUses_eq (args : List (CallArg Expr)) :
    argUses args = (args.map (·.expr)).flatMap exprUses := by
  induction args with
  | nil => rfl
  | cons arg args ih => rw [argUses, ih, List.map_cons, List.flatMap_cons]

/-- The uses of an expression are its own and its children's. -/
theorem exprUses_eq (expr : Expr) :
    exprUses expr = ownUses expr ++ expr.children.flatMap exprUses := by
  cases expr with
  | number | int | bool | var => rfl
  | index | cast | unaryNot | unaryBitNot => simp [exprUses, ownUses, Expr.children]
  | compare | logical | binary => simp [exprUses, ownUses, Expr.children]
  | arrayLiteral | tuple | call => simp [exprUses, ownUses, Expr.children, listUses_eq]
  | userCall => simp [exprUses, ownUses, Expr.children, argUses_eq]
  | arrayCtor loc spec init =>
    cases init <;> simp [exprUses, ownUses, Expr.children, optionListUses, listUses_eq]
  | slice loc base selector channel start stop =>
    cases selector <;> cases channel <;> cases start <;> cases stop <;>
      simp [exprUses, ownUses, Expr.children, optionUses]

theorem mem_ownUses (expr : Expr) :
    binding ∈ (ownUses expr).map root → Reads binding expr := by
  intro mem
  cases expr with
  | var => exact .var (List.mem_singleton.mp mem).symm
  | index => exact .index (List.mem_singleton.mp mem).symm
  | slice => exact .slice (List.mem_singleton.mp mem).symm
  | userCall loc name =>
    rw [ownUses, receiverUses] at mem
    cases found : parent name with
    | none => rw [found] at mem; cases mem
    | some receiver =>
      have dotted : '.' ∈ name.toList := by
        rw [parent] at found
        split at found
        case isTrue dotted => exact dotted
        case isFalse => cases found
      rw [found, List.map_cons, List.map_cons, List.map_nil, root_root, root_of_parent found] at mem
      simp only [List.mem_cons, List.not_mem_nil, or_false, or_self] at mem
      exact .receiver dotted mem.symm
  | number | int | bool | arrayLiteral | arrayCtor | compare | call | cast | unaryNot | unaryBitNot
  | logical | binary | tuple => cases mem

/-- **Uses.**  The uses of an expression begin with the bindings that it reads. -/
theorem reads_iff (expr : Expr) :
    Reads binding expr ↔ binding ∈ (exprUses expr).map root := by
  constructor
  · intro reads
    induction reads with
    | var same => rw [exprUses, ← same]; exact List.mem_map_of_mem List.mem_cons_self
    | index same => rw [exprUses, ← same]; exact List.mem_map_of_mem List.mem_cons_self
    | slice same => rw [exprUses, ← same]; exact List.mem_map_of_mem List.mem_cons_self
    | receiver dotted same =>
      rw [exprUses, receiverUses, parent, if_pos dotted, List.map_append, List.mem_append]
      left
      rw [← same, ← root_of_parent (if_pos dotted)]
      exact List.mem_map_of_mem List.mem_cons_self
    | child inside _ ih =>
      rw [exprUses_eq, List.map_append, List.mem_append]
      right
      obtain ⟨used, mem, same⟩ := List.mem_map.mp ih
      exact List.mem_map.mpr ⟨used, List.mem_flatMap.mpr ⟨_, inside, mem⟩, same⟩
  · have below : ∀ size (expr : Expr), sizeOf expr < size →
        binding ∈ (exprUses expr).map root → Reads binding expr := by
      intro size
      induction size with
      | zero => exact fun expr small => absurd small (Nat.not_lt_zero _)
      | succ size ih =>
        intro expr small mem
        rw [exprUses_eq, List.map_append, List.mem_append] at mem
        rcases mem with own | inside
        · exact mem_ownUses expr own
        · obtain ⟨used, within, same⟩ := List.mem_map.mp inside
          obtain ⟨child, member, mem⟩ := List.mem_flatMap.mp within
          have smaller := expr.sizeOf_children child member
          exact .child member (ih child (by omega) (List.mem_map.mpr ⟨used, mem, same⟩))
    exact below _ expr (Nat.lt_succ_self _)

/-! ### Renamed expressions -/

theorem rewriteExprs_eq (names : Names) (exprs : List Expr) :
    rewriteExprs names exprs = exprs.map (rewriteExpr names) := by
  induction exprs with
  | nil => rfl
  | cons expr exprs ih => rw [rewriteExprs, ih, List.map_cons]

theorem children_rewriteExpr (names : Names) (expr : Expr) :
    (rewriteExpr names expr).children = expr.children.map (rewriteExpr names) := by
  have args_eq : ∀ args : List (CallArg Expr), (rewriteArgs names args).map (·.expr)
      = (args.map (·.expr)).map (rewriteExpr names) := by
    intro args
    induction args with
    | nil => rfl
    | cons arg args ih => rw [rewriteArgs, List.map_cons, ih, List.map_cons, List.map_cons]
  cases expr with
  | number | int | bool | var => rfl
  | index | cast | unaryNot | unaryBitNot | compare | logical | binary => rfl
  | arrayLiteral | tuple | call => simp [rewriteExpr, Expr.children, rewriteExprs_eq]
  | userCall => simp only [rewriteExpr, Expr.children, args_eq]
  | arrayCtor loc spec init =>
    cases init <;> simp [rewriteExpr, Expr.children, rewriteOptionExprs, rewriteExprs_eq]
  | slice loc base selector channel start stop =>
    cases selector <;> cases channel <;> cases start <;> cases stop <;> rfl

theorem ownUses_rewriteExpr (plain : names.Plain) (expr : Expr) :
    (ownUses (rewriteExpr names expr)).map root
      = (ownUses expr).map fun path => names.rename (root path) := by
  cases expr with
  | var | index | slice => simp [rewriteExpr, ownUses, root_rewritePath plain]
  | userCall loc name =>
    have receivers : ∀ path : String, (receiverUses path).map root
        = if '.' ∈ path.toList then [root path, root path] else [] := by
      intro path
      rw [receiverUses]
      split
      case h_1 found =>
        have plain_path : '.' ∉ path.toList := by
          rw [parent] at found
          split at found
          case isTrue => cases found
          case isFalse plain_path => exact plain_path
        rw [if_neg plain_path, List.map_nil]
      case h_2 receiver found =>
        have dotted : '.' ∈ path.toList := by
          rw [parent] at found
          split at found
          case isTrue dotted => exact dotted
          case isFalse => cases found
        rw [if_pos dotted, List.map_cons, List.map_cons, List.map_nil, root_root, root_of_parent found]
    have renamed := congrArg (List.map names.rename) (receivers name)
    rw [List.map_map] at renamed
    rw [rewriteExpr, ownUses, ownUses, receivers, root_rewritePath plain]
    simp only [dot_mem_rewritePath plain]
    refine Eq.trans ?_ renamed.symm
    split <;> rfl
  | number | int | bool | arrayLiteral | arrayCtor | compare | call | cast | unaryNot | unaryBitNot
  | logical | binary | tuple => rfl

/-- **Renaming.**  A renamed expression reads the renamed bindings. -/
theorem exprUses_rewriteExpr (plain : names.Plain) (expr : Expr) :
    (exprUses (rewriteExpr names expr)).map root
      = (exprUses expr).map fun path => names.rename (root path) := by
  have below : ∀ size (expr : Expr), sizeOf expr < size →
      (exprUses (rewriteExpr names expr)).map root
        = (exprUses expr).map fun path => names.rename (root path) := by
    intro size
    induction size with
    | zero => exact fun expr small => absurd small (Nat.not_lt_zero _)
    | succ size ih =>
      intro expr small
      rw [exprUses_eq, exprUses_eq expr, List.map_append, List.map_append, ownUses_rewriteExpr plain,
        children_rewriteExpr, List.flatMap_map, List.map_flatMap, List.map_flatMap]
      congr 1
      refine List.flatMap_congr fun child member => ih child ?_
      have smaller := expr.sizeOf_children child member
      omega
  exact below _ expr (Nat.lt_succ_self _)

theorem reads_rewriteExpr (plain : names.Plain) (expr : Expr) :
    Reads binding (rewriteExpr names expr)
      ↔ ∃ before, Reads before expr ∧ names.rename before = binding := by
  rw [reads_iff, exprUses_rewriteExpr plain, List.mem_map]
  constructor
  · rintro ⟨path, mem, same⟩
    exact ⟨root path, (reads_iff expr).mpr (List.mem_map_of_mem mem), same⟩
  · rintro ⟨before, reads, same⟩
    obtain ⟨path, mem, rfl⟩ := List.mem_map.mp ((reads_iff expr).mp reads)
    exact ⟨path, mem, same⟩

end Onda.TaskLocals
