import Onda.Lib.Walk
import Onda.Mir.RangeSoundness

/-!
# Order facts

The facts that the bounds-check elimination records about values: symbols name
values, not storage, so a recorded fact about a symbol stays true.  A node is the
definition of a symbol; an edge of `edges` orders it before another symbol, and
`predecessors` holds the same edges the other way round.

The facts of the current path are kept apart in a list of orders, which `assume`
extends with what the truth of a condition says.
-/

namespace Onda.Mir

open Reach (Reaches)

abbrev Symbol := Nat

/-- `left ≤ right`, or `left < right` when the flag is set. -/
abbrev Order := Symbol × Symbol × Bool

/-- What is known of the value that a symbol names. -/
inductive Node
  | unknown
  | constant (value : Int)
  | boolean (value : Bool)
  | choice (condition yes no : Symbol)
  | compare (op : CompareOp) (lhs rhs : Symbol)
  | not (value : Symbol)
  | binary (op : BinaryOp) (lhs rhs : Symbol) (scalar : ScalarType)
  | extremum (lhs rhs : Symbol)
  deriving DecidableEq

def Node.operands : Node → List Symbol
  | .binary _ left right _ | .compare _ left right | .extremum left right => [left, right]
  | .not operand => [operand]
  | .choice condition yes no => [condition, yes, no]
  | .unknown | .constant _ | .boolean _ => []

/-- The recorded definitions and facts.  A definition refers to earlier symbols
only, and the facts to recorded ones. -/
structure OrderProof where
  nodes : List Node
  edges : List (List (Symbol × Bool))
  predecessors : List (List (Symbol × Bool))
  ranges : List (Option IntegerRange)
  lengths : List (Symbol × Symbol)
  earlier : ∀ (symbol : Symbol) (node : Node), nodes[symbol]? = some node →
    ∀ operand ∈ node.operands, operand < symbol
  edgesInside : edges.length ≤ nodes.length
    ∧ ∀ arc ∈ edges.flatten, arc.1 < nodes.length
  predecessorsInside : predecessors.length ≤ nodes.length
    ∧ ∀ arc ∈ predecessors.flatten, arc.1 < nodes.length
  rangesInside : ranges.length ≤ nodes.length
  lengthsInside : ∀ entry ∈ lengths, entry.2 < nodes.length

namespace OrderProof

variable (proof : OrderProof)

def node (symbol : Symbol) : Node := proof.nodes.getD symbol .unknown

def range (symbol : Symbol) : Option IntegerRange := proof.ranges.getD symbol none

/-! ### Truth of the facts -/

/-- The machine values of the symbols in one execution. -/
abbrev Values := Symbol → ScalarValue

/-- The integer that a symbol names. -/
def Values.number (values : Values) (symbol : Symbol) : Int := ((values symbol).toInt?).getD 0

end OrderProof

open OrderProof (Values)

/-- The order holds of the numbers. -/
def Order.Holds (number : Symbol → Int) (order : Order) : Prop :=
  if order.2.2 then number order.1 < number order.2.1 else number order.1 ≤ number order.2.1

/-- The definitions and facts hold of the machine values.  A binary definition
is the machine operation, which wraps. -/
structure OrderProof.Holds (floats : FloatOps) (proof : OrderProof) (values : Values) : Prop where
  constant : ∀ symbol value, proof.node symbol = .constant value → values.number symbol = value
  boolean : ∀ symbol value, proof.node symbol = .boolean value → values symbol = .bool value
  choice : ∀ symbol condition yes no, proof.node symbol = .choice condition yes no →
    ∃ truth, values condition = .bool truth ∧ values symbol = values (if truth then yes else no)
  compare : ∀ symbol op lhs rhs, proof.node symbol = .compare op lhs rhs →
    (values lhs).ty = (values rhs).ty ∧ (integerTypeBounds (values lhs).ty).isSome
      ∧ (ConstantEval.compare op (values lhs) (values rhs)).map ScalarValue.bool
        = some (values symbol)
  not : ∀ symbol operand, proof.node symbol = .not operand →
    ConstantEval.unary .logicalNot (values operand) = some (values symbol)
  binary : ∀ symbol op lhs rhs scalar, proof.node symbol = .binary op lhs rhs scalar →
    (values lhs).ty = scalar ∧ (integerTypeBounds scalar).isSome
      ∧ ConstantEval.binary floats op (values lhs) (values rhs) = some (values symbol)
  edges : ∀ symbol, ∀ arc ∈ proof.edges.getD symbol [],
    Order.Holds values.number (symbol, arc.1, arc.2)
  predecessors : ∀ symbol, ∀ arc ∈ proof.predecessors.getD symbol [],
    Order.Holds values.number (arc.1, symbol, arc.2)
  ranges : ∀ symbol range, proof.range symbol = some range →
    range.min ≤ values.number symbol ∧ values.number symbol ≤ range.max

/-! ### Conditions -/

/-- The order that a comparison with a known result says, and for an equality
the converse before it. -/
def assumeOrder (op : CompareOp) (lhs rhs : Symbol) (truth : Bool) : List Order :=
  match op, truth with
  | .less, true | .greaterEqual, false => [(lhs, rhs, true)]
  | .lessEqual, true | .greater, false => [(lhs, rhs, false)]
  | .greater, true | .lessEqual, false => [(rhs, lhs, true)]
  | .greaterEqual, true | .less, false => [(rhs, lhs, false)]
  | .equal, true | .notEqual, false => [(rhs, lhs, false), (lhs, rhs, false)]
  | .notEqual, true | .equal, false => []

/-- The value of a boolean that the node is known to have. -/
def Node.knownBoolean : Node → Option Bool
  | .boolean value => some value
  | _ => none

namespace OrderProof

variable (proof : OrderProof)

/-- The conditions that follow from the truth of one: a short-circuit expression
is a choice, and if one arm cannot produce the result the other was taken. -/
def implied : Symbol × Bool → List (Symbol × Bool)
  | (condition, truth) =>
    match proof.node condition with
    | .not value => [(value, !truth)]
    | .choice condition yes no =>
      if (proof.node yes).knownBoolean = some !truth then [(condition, false), (no, truth)]
      else if (proof.node no).knownBoolean = some !truth then [(condition, true), (yes, truth)]
      else []
    | _ => []

def impliedOrders : Symbol × Bool → List Order
  | (condition, truth) =>
    match proof.node condition with
    | .compare op lhs rhs => assumeOrder op lhs rhs truth
    | _ => []

/-- The orders of a path on which a condition is known to be true or false. -/
def assume (condition : Symbol) (truth : Bool) (assumptions : List Order) : List Order :=
  assumptions ++ ((Walk.walk proof.implied (Walk.walkFuel (2 * (condition + 1)) 2 1) []
    [(condition, truth)]).reverse.flatMap proof.impliedOrders)

/-! ### Chains of orders -/

/-- The arcs from a symbol, the recorded ones and those of the path. -/
def arcsFrom (table : List (List (Symbol × Bool))) (assumptions : List Order)
    (symbol : Symbol) : List (Symbol × Bool) :=
  table.getD symbol [] ++ assumptions.filterMap fun (left, right, strict) =>
    if left = symbol then some (right, strict) else none

/-- One arc further on a chain; the flag tells that the chain is strict. -/
def follow (table : List (List (Symbol × Bool))) (assumptions : List Order) :
    Symbol × Bool → List (Symbol × Bool)
  | (symbol, strict) =>
    (arcsFrom table assumptions symbol).map fun (next, edgeStrict) =>
      (next, strict || edgeStrict)

/-- Fuel for the chains of a table. -/
def chainFuel (table : List (List (Symbol × Bool))) (assumptions : List Order) : Nat :=
  Walk.walkFuel (2 * (table.flatten.length + assumptions.length + 1))
    (table.flatten.length + assumptions.length) 1

/-- The end of a chain from a symbol settles its order before `right`. -/
def settles (right : Symbol) (strict : Bool) : Symbol × Bool → Bool
  | (symbol, pathStrict) =>
    (decide (symbol = right) && (!strict || pathStrict))
    || match proof.node symbol, proof.node right with
      | .constant first, .constant last =>
        decide (first < last) || (decide (first = last) && (!strict || pathStrict))
      | _, _ => false

def knownOrder (left right : Symbol) (strict : Bool) (assumptions : List Order) : Bool :=
  (Walk.walk (follow proof.edges assumptions) (chainFuel proof.edges assumptions) []
    [(left, false)]).any (proof.settles right strict)

/-! ### Available symbols and their bounds -/

/-- The definition of a symbol, and the length of a slice. -/
def constituents (symbol : Symbol) : List Symbol :=
  (proof.node symbol).operands ++ (proof.lengths.lookup symbol).toList

/-- The symbols that take part in a query. -/
def available (left right : Symbol) (assumptions : List Order) : List Symbol :=
  let start := left :: right :: assumptions.flatMap fun order => [order.1, order.2.1]
  Walk.walk proof.constituents
    (Walk.walkFuel (proof.nodes.length + start.length) 4 start.length) [] start.reverse

def unconditionalBound (symbol : Symbol) (upper : Bool) : Option Int :=
  match proof.node symbol with
  | .constant value => some value
  | _ => (proof.range symbol).map fun range => if upper then range.max else range.min

/-- The available symbols at the ends of chains from a symbol, to larger symbols
for an upper bound and to smaller ones for a lower bound. -/
def chained (symbol : Symbol) (upper : Bool) (assumptions : List Order)
    (available : List Symbol) : List (Symbol × Bool) :=
  let table := if upper then proof.edges else proof.predecessors
  let oriented := if upper then assumptions
    else assumptions.map fun (left, right, strict) => (right, left, strict)
  Walk.walk (fun item => (follow table oriented item).filter (decide <| ·.1 ∈ available))
    (chainFuel table oriented) [] ([(symbol, false)].filter (decide <| ·.1 ∈ available))

/-- A bound of one end of a chain tightens the bound of its start. -/
def tighten (upper : Bool) (result : Int) : Symbol × Bool → Int
  | (symbol, strict) =>
    match proof.unconditionalBound symbol upper with
    | none => result
    | some bound =>
      if upper then min result (bound - strict.toInt) else max result (bound + strict.toInt)

def bound (symbol : Symbol) (upper : Bool) (assumptions : List Order)
    (available : List Symbol) : Int :=
  (proof.chained symbol upper assumptions available).foldl (proof.tighten upper)
    (if upper then 2 ^ 63 - 1 else -2 ^ 63)

end OrderProof

/-! ### Soundness of the conditions -/

theorem Order.holds_iff {number : Symbol → Int} {order : Order} :
    order.Holds number ↔ number order.1 + order.2.2.toInt ≤ number order.2.1 := by
  obtain ⟨left, right, strict⟩ := order
  cases strict with
  | false => simp [Order.Holds]
  | true => simp [Order.Holds]

section Comparisons

variable {values : Values} {lhs rhs : Symbol}

/-- The comparison of two integers. -/
def CompareOp.Holds : CompareOp → Int → Int → Prop
  | .equal, x, y => x = y
  | .notEqual, x, y => x ≠ y
  | .less, x, y => x < y
  | .lessEqual, x, y => x ≤ y
  | .greater, x, y => y < x
  | .greaterEqual, x, y => y ≤ x

theorem integerCompare_iff {width : Nat} (op : CompareOp) (x y : BitVec width) :
    ConstantEval.integerCompare op x y = true ↔ op.Holds x.toInt y.toInt := by
  cases op <;> simp [ConstantEval.integerCompare, CompareOp.Holds, BitVec.slt, BitVec.sle,
    BitVec.toInt_inj]

/-- The machine comparison of two integers of one type compares the integers. -/
theorem compare_number {op : CompareOp} {truth : Bool}
    (same : (values lhs).ty = (values rhs).ty)
    (integer : (integerTypeBounds (values lhs).ty).isSome)
    (compared : ConstantEval.compare op (values lhs) (values rhs) = some truth) :
    truth = true ↔ op.Holds (values.number lhs) (values.number rhs) := by
  unfold Values.number
  generalize values lhs = x at *
  generalize values rhs = y at *
  cases x <;> simp only [ScalarValue.ty, integerTypeBounds, Option.isSome_none,
    Bool.false_eq_true] at integer <;> cases y <;> simp only [ScalarValue.ty, reduceCtorEq] at same
  all_goals
    simp only [ConstantEval.compare, Option.some.injEq] at compared
    subst compared
    exact integerCompare_iff op _ _

/-- The orders of a comparison whose result is known hold. -/
theorem assumeOrder_holds {op : CompareOp} {truth : Bool} {number : Symbol → Int}
    (result : truth = true ↔ op.Holds (number lhs) (number rhs)) :
    ∀ order ∈ assumeOrder op lhs rhs truth, order.Holds number := by
  intro order mem
  cases op <;> cases truth <;>
    simp only [assumeOrder, CompareOp.Holds, List.mem_cons, List.not_mem_nil, or_false,
      Bool.false_eq_true, false_iff, true_iff, not_lt, not_le, not_not] at mem result
  case equal.true | notEqual.false =>
    rcases mem with rfl | rfl
    · exact result.ge
    · exact result.le
  all_goals
    subst mem
    exact result

end Comparisons

namespace OrderProof

section Conditions

variable {proof : OrderProof} {floats : FloatOps} {values : Values}

theorem node_lt {symbol : Symbol} (known : proof.node symbol ≠ .unknown) :
    symbol < proof.nodes.length := by
  by_contra outside
  rw [node, List.getD_eq_default _ _ (Nat.le_of_not_lt outside)] at known
  exact known rfl

theorem operand_lt {symbol operand : Symbol} (mem : operand ∈ (proof.node symbol).operands) :
    operand < symbol := by
  have inside : symbol < proof.nodes.length := node_lt fun unknown => by
    rw [unknown] at mem
    simp [Node.operands] at mem
  refine proof.earlier symbol (proof.node symbol) ?_ operand mem
  rw [node, List.getD_eq_getElem _ _ inside, List.getElem?_eq_getElem inside]

/-- What follows from a true condition is true. -/
theorem implied_holds (holds : proof.Holds floats values) {item other : Symbol × Bool}
    (value : values item.1 = .bool item.2) (mem : other ∈ proof.implied item) :
    values other.1 = .bool other.2 := by
  obtain ⟨condition, truth⟩ := item
  simp only at value
  simp only [implied] at mem
  split at mem
  case h_1 operand defined =>
    rw [List.mem_singleton] at mem
    subst mem
    have computed := holds.not condition operand defined
    rw [value] at computed
    cases negated : values operand <;> simp [ConstantEval.unary, negated] at computed
    simp [← computed]
  case h_2 choice yes no defined =>
    obtain ⟨taken, chosen, result⟩ := holds.choice condition choice yes no defined
    rw [value] at result
    -- An arm with the other value was not taken.
    have other_arm : ∀ arm, (proof.node arm).knownBoolean = some !truth →
        ScalarValue.bool truth ≠ values arm := by
      intro arm known same
      cases shape : proof.node arm with
      | boolean constant =>
        rw [shape, Node.knownBoolean, Option.some.injEq] at known
        rw [holds.boolean arm constant shape, ScalarValue.bool.injEq] at same
        rw [known] at same
        cases truth <;> cases same
      | unknown | constant | choice | compare | not | binary | extremum =>
        rw [shape] at known
        cases known
    split at mem
    case isTrue known =>
      cases taken with
      | true => exact absurd result (other_arm yes known)
      | false =>
        simp only [List.mem_cons, List.not_mem_nil, or_false] at mem
        rcases mem with rfl | rfl
        · exact chosen
        · exact result.symm
    case isFalse =>
      split at mem
      case isTrue known =>
        cases taken with
        | false => exact absurd result (other_arm no known)
        | true =>
          simp only [List.mem_cons, List.not_mem_nil, or_false] at mem
          rcases mem with rfl | rfl
          · exact chosen
          · exact result.symm
      case isFalse => cases mem
  case h_3 => cases mem

theorem impliedOrders_holds (holds : proof.Holds floats values) {item : Symbol × Bool}
    (value : values item.1 = .bool item.2) :
    ∀ order ∈ proof.impliedOrders item, order.Holds values.number := by
  obtain ⟨condition, truth⟩ := item
  simp only at value
  simp only [impliedOrders]
  split
  case h_1 op lhs rhs defined =>
    obtain ⟨same, integer, compared⟩ := holds.compare condition op lhs rhs defined
    obtain ⟨result, compared, eq⟩ := Option.map_eq_some_iff.mp compared
    rw [value, ScalarValue.bool.injEq] at eq
    subst eq
    exact assumeOrder_holds (compare_number same integer compared)
  case h_2 => exact fun _ mem => absurd mem List.not_mem_nil

/-- **Conditions.**  The orders of a path hold where its condition has the assumed
value. -/
theorem assume_holds (holds : proof.Holds floats values) {condition : Symbol} {truth : Bool}
    (value : values condition = .bool truth) {assumptions : List Order}
    (known : ∀ order ∈ assumptions, order.Holds values.number) :
    ∀ order ∈ proof.assume condition truth assumptions, order.Holds values.number := by
  intro order mem
  rcases List.mem_append.mp mem with old | new
  · exact known order old
  · obtain ⟨item, visited, mem⟩ := List.mem_flatMap.mp new
    have reached : Reaches proof.implied [(condition, truth)] item :=
      Walk.walk_reaches _ (by simp) (fun _ mem => .root mem) item (List.mem_reverse.mp visited)
    have holdsThere : values item.1 = .bool item.2 := by
      clear visited mem
      induction reached with
      | root mem =>
        rw [List.mem_singleton] at mem
        subst mem
        exact value
      | next _ arc ih => exact implied_holds holds ih arc
    exact impliedOrders_holds holds holdsThere order mem

end Conditions

/-! ### Soundness of chains and bounds -/

/-- The facts, as facts about integers.  A binary definition is the exact result
wrapped to the width. -/
structure Numbers (proof : OrderProof) (assumptions : List Order) (number : Symbol → Int) :
    Prop where
  machine : ∀ symbol, -2 ^ 63 ≤ number symbol ∧ number symbol ≤ 2 ^ 63 - 1
  constant : ∀ symbol value, proof.node symbol = .constant value → number symbol = value
  binary : ∀ symbol op lhs rhs scalar, proof.node symbol = .binary op lhs rhs scalar →
    ∃ min max, integerTypeBounds scalar = some (min, max)
      ∧ (min ≤ number lhs ∧ number lhs ≤ max) ∧ (min ≤ number rhs ∧ number rhs ≤ max)
      ∧ ∀ exact, exactBinary (integerWidth scalar) op (number lhs) (number rhs) = some exact →
        number symbol = exact.bmod (2 ^ integerWidth scalar)
  edges : ∀ symbol, ∀ arc ∈ proof.edges.getD symbol [], Order.Holds number (symbol, arc.1, arc.2)
  predecessors : ∀ symbol, ∀ arc ∈ proof.predecessors.getD symbol [],
    Order.Holds number (arc.1, symbol, arc.2)
  ranges : ∀ symbol range, proof.range symbol = some range →
    range.min ≤ number symbol ∧ number symbol ≤ range.max
  assumptions : ∀ order ∈ assumptions, order.Holds number

theorem Values.machine (values : Values) (symbol : Symbol) :
    -2 ^ 63 ≤ values.number symbol ∧ values.number symbol ≤ 2 ^ 63 - 1 := by
  unfold Values.number
  generalize values symbol = value
  cases value with
  | f32 | f64 | bool => simp [ScalarValue.toInt?]
  | i32 bits =>
    have within := @ScalarValue.within_type (.i32 bits) _ _ _ rfl rfl
    simp only [ScalarValue.toInt?, Option.getD_some]
    omega
  | i64 bits => exact @ScalarValue.within_type (.i64 bits) _ _ _ rfl rfl

theorem Holds.numbers {proof : OrderProof} {floats : FloatOps} {values : Values}
    {assumptions : List Order} (holds : proof.Holds floats values)
    (known : ∀ order ∈ assumptions, order.Holds values.number) :
    proof.Numbers assumptions values.number where
  machine := values.machine
  constant := holds.constant
  binary := by
    intro symbol op lhs rhs scalar defined
    obtain ⟨typed, integer, computed⟩ := holds.binary symbol op lhs rhs scalar defined
    obtain ⟨⟨min, max⟩, bounds⟩ := Option.isSome_iff_exists.mp integer
    subst typed
    obtain ⟨x, left⟩ : ∃ x, (values lhs).toInt? = some x := by
      cases operand : values lhs <;> simp [operand, integerTypeBounds, ScalarValue.ty,
        ScalarValue.toInt?] at integer ⊢
    obtain ⟨same, -, -⟩ := binary_typed computed left
    obtain ⟨y, right⟩ : ∃ y, (values rhs).toInt? = some y := by
      rw [← same] at integer
      cases operand : values rhs <;> simp [operand, integerTypeBounds, ScalarValue.ty,
        ScalarValue.toInt?] at integer ⊢
    have leftNumber : values.number lhs = x := by simp [Values.number, left]
    have rightNumber : values.number rhs = y := by simp [Values.number, right]
    refine ⟨min, max, bounds, ?_, ?_, fun exact known => ?_⟩
    · rw [leftNumber]
      exact ScalarValue.within_type left bounds
    · rw [rightNumber]
      exact ScalarValue.within_type right (same ▸ bounds)
    · rw [leftNumber, rightNumber] at known
      have wraps := binary_wraps computed left right known
      simp [Values.number, wraps.2]
  edges := holds.edges
  predecessors := holds.predecessors
  ranges := holds.ranges
  assumptions := known

section Chains

variable {table : List (List (Symbol × Bool))} {assumptions : List Order}
  {number : Symbol → Int}

/-- Chains of orders that hold bound their ends: a strict chain by one more. -/
theorem chain_sound (arcs : ∀ symbol, ∀ arc ∈ arcsFrom table assumptions symbol,
      Order.Holds number (symbol, arc.1, arc.2))
    {next : Symbol × Bool → List (Symbol × Bool)} {roots : List (Symbol × Bool)} {start : Symbol}
    (fewer : ∀ item, ∀ other ∈ next item, other ∈ follow table assumptions item)
    (started : ∀ root ∈ roots, root = (start, false)) {item : Symbol × Bool}
    (reaches : Reaches next roots item) :
    number start + item.2.toInt ≤ number item.1 := by
  induction reaches with
  | root mem =>
    rw [started _ mem]
    simp
  | @next item other _ mem ih =>
    obtain ⟨arc, arcMem, rfl⟩ := List.mem_map.mp (fewer item other mem)
    have step := Order.holds_iff.mp (arcs item.1 arc arcMem)
    simp only at step
    cases strict : item.2 <;> cases edge : arc.2 <;>
      simp only [strict, edge, Bool.toInt, Bool.or_false, Bool.or_true, Bool.or_self, cond_true,
        cond_false] at step ih ⊢ <;> omega

theorem mem_arcsFrom {symbol : Symbol} {arc : Symbol × Bool} :
    arc ∈ arcsFrom table assumptions symbol ↔
      arc ∈ table.getD symbol [] ∨ (symbol, arc.1, arc.2) ∈ assumptions := by
  unfold arcsFrom
  rw [List.mem_append, List.mem_filterMap]
  refine or_congr_right ⟨?_, fun mem => ⟨_, mem, if_pos rfl⟩⟩
  rintro ⟨⟨left, right, strict⟩, mem, eq⟩
  simp only [Option.ite_none_right_eq_some, Option.some.injEq] at eq
  obtain ⟨rfl, rfl⟩ := eq
  exact mem

variable {proof : OrderProof}

theorem Numbers.arcs (numbers : proof.Numbers assumptions number) :
    ∀ symbol, ∀ arc ∈ arcsFrom proof.edges assumptions symbol,
      Order.Holds number (symbol, arc.1, arc.2) := by
  intro symbol arc mem
  rcases mem_arcsFrom.mp mem with edge | assumed
  · exact numbers.edges symbol arc edge
  · exact numbers.assumptions _ assumed

/-- The other way round, the orders hold of the negated numbers. -/
theorem Numbers.arcs_neg (numbers : proof.Numbers assumptions number) :
    ∀ symbol, ∀ arc ∈ arcsFrom proof.predecessors
        (assumptions.map fun (left, right, strict) => (right, left, strict)) symbol,
      Order.Holds (fun symbol => -number symbol) (symbol, arc.1, arc.2) := by
  have turned : ∀ symbol (arc : Symbol × Bool), Order.Holds number (arc.1, symbol, arc.2) →
      Order.Holds (fun symbol => -number symbol) (symbol, arc.1, arc.2) := by
    intro symbol arc holds
    rw [Order.holds_iff] at holds ⊢
    simp only at holds ⊢
    omega
  intro symbol arc mem
  refine turned symbol arc ?_
  rcases mem_arcsFrom.mp mem with edge | assumed
  · exact numbers.predecessors symbol arc edge
  · obtain ⟨⟨left, right, strict⟩, order, eq⟩ := List.mem_map.mp assumed
    simp only [Prod.mk.injEq] at eq
    obtain ⟨rfl, rfl, rfl⟩ := eq
    exact numbers.assumptions _ order

/-- **Known orders hold.** -/
theorem knownOrder_sound (numbers : proof.Numbers assumptions number) {left right : Symbol}
    {strict : Bool} (known : proof.knownOrder left right strict assumptions = true) :
    Order.Holds number (left, right, strict) := by
  obtain ⟨⟨symbol, pathStrict⟩, visited, settled⟩ := List.any_eq_true.mp known
  have below := chain_sound numbers.arcs (fun _ _ mem => mem)
    (fun _ mem => List.mem_singleton.mp mem)
    (Walk.walk_reaches _ (by simp) (fun _ mem => .root mem) _ visited)
  rw [Order.holds_iff]
  simp only [settles, Bool.or_eq_true, Bool.and_eq_true, decide_eq_true_eq,
    Bool.not_eq_true'] at settled below ⊢
  have enough : strict = false ∨ pathStrict = true → strict.toInt ≤ pathStrict.toInt := by
    rintro (rfl | rfl)
    · cases pathStrict <;> decide
    · cases strict <;> decide
  have atMost : strict.toInt ≤ 1 := by cases strict <;> decide
  have nonneg : 0 ≤ pathStrict.toInt := by cases pathStrict <;> decide
  rcases settled with ⟨rfl, strictness⟩ | constants
  · have := enough strictness
    omega
  · split at constants
    case h_1 first last defined definedRight =>
      have first := numbers.constant _ _ defined
      have last := numbers.constant _ _ definedRight
      simp only [Bool.or_eq_true, Bool.and_eq_true, decide_eq_true_eq,
        Bool.not_eq_true'] at constants
      rcases constants with less | ⟨same, strictness⟩
      · omega
      · have := enough strictness
        omega
    case h_2 => cases constants

/-- A bound that needs no other facts. -/
theorem unconditionalBound_sound (numbers : proof.Numbers assumptions number) {symbol : Symbol}
    {upper : Bool} {bound : Int} (known : proof.unconditionalBound symbol upper = some bound) :
    if upper then number symbol ≤ bound else bound ≤ number symbol := by
  unfold unconditionalBound at known
  split at known
  case h_1 value defined =>
    rw [Option.some.injEq] at known
    have eq := numbers.constant symbol value defined
    split <;> omega
  case h_2 =>
    obtain ⟨range, inRange, rfl⟩ := Option.map_eq_some_iff.mp known
    have within := numbers.ranges symbol range inRange
    split
    · exact within.2
    · exact within.1

/-- Tightening by the ends of chains keeps an upper bound. -/
theorem foldl_tighten_upper (numbers : proof.Numbers assumptions number) {symbol : Symbol} :
    ∀ {items : List (Symbol × Bool)} {result : Int},
      (∀ item ∈ items, number symbol + item.2.toInt ≤ number item.1) →
      number symbol ≤ result → number symbol ≤ items.foldl (proof.tighten true) result
  | [], _, _, le => le
  | item :: items, result, chains, le => by
    rw [List.forall_mem_cons] at chains
    rw [List.foldl_cons]
    refine foldl_tighten_upper numbers chains.2 ?_
    unfold tighten
    simp only
    split
    · exact le
    case h_2 bound known =>
      have below := unconditionalBound_sound numbers known
      simp only [if_true] at below ⊢
      exact le_min le (by have := chains.1; omega)

theorem foldl_tighten_lower (numbers : proof.Numbers assumptions number) {symbol : Symbol} :
    ∀ {items : List (Symbol × Bool)} {result : Int},
      (∀ item ∈ items, -number symbol + item.2.toInt ≤ -number item.1) →
      result ≤ number symbol → items.foldl (proof.tighten false) result ≤ number symbol
  | [], _, _, le => le
  | item :: items, result, chains, le => by
    rw [List.forall_mem_cons] at chains
    rw [List.foldl_cons]
    refine foldl_tighten_lower numbers chains.2 ?_
    unfold tighten
    simp only
    split
    · exact le
    case h_2 bound known =>
      have above := unconditionalBound_sound numbers known
      simp only [Bool.false_eq_true, if_false] at above ⊢
      exact max_le le (by have := chains.1; omega)

/-- **Bounds hold.** -/
theorem bound_sound (numbers : proof.Numbers assumptions number) (symbol : Symbol)
    (available : List Symbol) :
    proof.bound symbol false assumptions available ≤ number symbol
      ∧ number symbol ≤ proof.bound symbol true assumptions available := by
  have machine := numbers.machine symbol
  constructor
  · refine foldl_tighten_lower numbers (fun item visited => ?_) machine.1
    exact chain_sound numbers.arcs_neg (fun _ _ mem => (List.mem_filter.mp mem).1)
      (fun root mem => List.mem_singleton.mp (List.mem_filter.mp mem).1)
      (Walk.walk_reaches _ (by simp) (fun _ mem => .root mem) item visited)
  · refine foldl_tighten_upper numbers (fun item visited => ?_) machine.2
    exact chain_sound numbers.arcs (fun _ _ mem => (List.mem_filter.mp mem).1)
      (fun root mem => List.mem_singleton.mp (List.mem_filter.mp mem).1)
      (Walk.walk_reaches _ (by simp) (fun _ mem => .root mem) item visited)

end Chains

/-! ### The walks are complete -/

section Complete

variable {proof : OrderProof} {table : List (List (Symbol × Bool))} {assumptions : List Order}

theorem mem_flatten_of_getD {symbol : Symbol} {arc : Symbol × Bool}
    (mem : arc ∈ table.getD symbol []) : arc ∈ table.flatten := by
  rw [List.getD_eq_getElem?_getD] at mem
  cases found : table[symbol]? with
  | none => simp [found] at mem
  | some arcs =>
    rw [found, Option.getD_some] at mem
    exact List.mem_flatten.mpr ⟨arcs, List.mem_of_getElem? found, mem⟩

end Complete

end OrderProof

end Onda.Mir
