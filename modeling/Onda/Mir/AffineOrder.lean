import Onda.Lib.Differences
import Onda.Mir.Minimal
import Onda.Mir.OrderFacts

/-!
# The affine order prover

Difference constraints over nonwrapping affine expressions.  A binary definition
is expanded only where the bounds of its operands prove that the result fits its
type; otherwise its symbol stays an opaque value.  An order between expressions
that differ by two symbols of one scale is an edge between these symbols, and a
bounded shortest-path search decides whether the edges imply the order asked for.

All coefficients are `i128`s, and a computation that overflows gives up.
-/

namespace Onda.Mir

/-! ### Expressions -/

/-- The terms of an expression, from the last symbol to the first, with no zero
coefficient. -/
structure Terms where
  list : List (Symbol × Int)
  descending : list.Pairwise fun left right => right.1 < left.1
  nonzero : ∀ term ∈ list, term.2 ≠ 0

def addTermList (symbol : Symbol) (coefficient : Int) :
    List (Symbol × Int) → Option (List (Symbol × Int))
  | [] => (Arith.add 0 coefficient).map fun value => if value = 0 then [] else [(symbol, value)]
  | (other, held) :: rest =>
    if symbol < other then (addTermList symbol coefficient rest).map ((other, held) :: ·)
    else if symbol = other then
      (Arith.add held coefficient).map fun value =>
        if value = 0 then rest else (symbol, value) :: rest
    else
      (Arith.add 0 coefficient).map fun value =>
        if value = 0 then (other, held) :: rest else (symbol, value) :: (other, held) :: rest

/-- What `addTermList` does to the keys and to the coefficients. -/
theorem addTermList_spec {symbol : Symbol} {coefficient : Int} :
    ∀ {list result : List (Symbol × Int)}, addTermList symbol coefficient list = some result →
      (list.Pairwise fun left right => right.1 < left.1) → (∀ term ∈ list, term.2 ≠ 0) →
      (∀ term ∈ result, term.1 = symbol ∨ ∃ old ∈ list, old.1 = term.1)
        ∧ (result.Pairwise fun left right => right.1 < left.1)
        ∧ ∀ term ∈ result, term.2 ≠ 0 := by
  intro list
  induction list with
  | nil =>
    intro result added _ _
    obtain ⟨value, -, rfl⟩ := Option.map_eq_some_iff.mp added
    split <;> simp_all
  | cons first rest ih =>
    obtain ⟨other, held⟩ := first
    intro result added descending nonzero
    rw [List.pairwise_cons] at descending
    rw [List.forall_mem_cons] at nonzero
    unfold addTermList at added
    split at added
    case isTrue lower =>
      obtain ⟨tail, inner, rfl⟩ := Option.map_eq_some_iff.mp added
      obtain ⟨keys, ordered, kept⟩ := ih inner descending.2 nonzero.2
      refine ⟨?_, List.pairwise_cons.mpr ⟨fun term mem => ?_, ordered⟩,
        List.forall_mem_cons.mpr ⟨nonzero.1, kept⟩⟩
      · refine List.forall_mem_cons.mpr ⟨.inr ⟨_, List.mem_cons_self, rfl⟩, fun term mem => ?_⟩
        rcases keys term mem with new | ⟨old, oldMem, same⟩
        · exact .inl new
        · exact .inr ⟨old, List.mem_cons_of_mem _ oldMem, same⟩
      · rcases keys term mem with new | ⟨old, oldMem, same⟩
        · rw [new]
          exact lower
        · rw [← same]
          exact descending.1 old oldMem
    split at added
    case isTrue same =>
      subst same
      obtain ⟨value, -, rfl⟩ := Option.map_eq_some_iff.mp added
      split
      · exact ⟨fun term mem => .inr ⟨term, List.mem_cons_of_mem _ mem, rfl⟩, descending.2,
          nonzero.2⟩
      case isFalse new =>
        exact ⟨List.forall_mem_cons.mpr ⟨.inl rfl, fun term mem =>
            .inr ⟨term, List.mem_cons_of_mem _ mem, rfl⟩⟩,
          List.pairwise_cons.mpr ⟨fun term mem => descending.1 term mem, descending.2⟩,
          List.forall_mem_cons.mpr ⟨new, nonzero.2⟩⟩
    case isFalse notLower different =>
      have below : other < symbol := lt_of_le_of_ne (not_lt.mp notLower) (Ne.symm different)
      obtain ⟨value, -, rfl⟩ := Option.map_eq_some_iff.mp added
      have whole : ((other, held) :: rest).Pairwise fun left right => right.1 < left.1 :=
        List.pairwise_cons.mpr descending
      split
      · exact ⟨fun term mem => .inr ⟨term, mem, rfl⟩, whole,
          List.forall_mem_cons.mpr nonzero⟩
      case isFalse new =>
        refine ⟨List.forall_mem_cons.mpr ⟨.inl rfl, fun term mem => .inr ⟨term, mem, rfl⟩⟩,
          List.pairwise_cons.mpr ⟨List.forall_mem_cons.mpr ⟨below, fun term mem =>
            (descending.1 term mem).trans below⟩, whole⟩,
          List.forall_mem_cons.mpr ⟨new, List.forall_mem_cons.mpr nonzero⟩⟩

namespace Terms

def empty : Terms := ⟨[], List.Pairwise.nil, by simp⟩

def add (terms : Terms) (symbol : Symbol) (coefficient : Int) : Option Terms :=
  match added : addTermList symbol coefficient terms.list with
  | none => none
  | some list =>
    have spec := addTermList_spec added terms.descending terms.nonzero
    some ⟨list, spec.2.1, spec.2.2⟩

/-- Takes the last symbol off. -/
def popLast (terms : Terms) : Option ((Symbol × Int) × Terms) :=
  match taken : terms.list with
  | [] => none
  | term :: rest => some (term, ⟨rest, (List.pairwise_cons.mp (taken ▸ terms.descending)).2,
      fun other mem => terms.nonzero other (taken ▸ List.mem_cons_of_mem _ mem)⟩)

/-- The terms in the order of their symbols. -/
def ascending (terms : Terms) : List (Symbol × Int) := terms.list.reverse

end Terms

structure Expression where
  constant : Int
  terms : Terms

namespace Expression

def default : Expression := ⟨0, Terms.empty⟩

def addTerm (expression : Expression) (symbol : Symbol) (coefficient : Int) : Option Expression :=
  (expression.terms.add symbol coefficient).map fun terms => { expression with terms }

def subtract (lhs rhs : Expression) (strict : Bool) : Option Expression := do
  let constant ← Arith.add (← Arith.sub lhs.constant rhs.constant) strict.toInt
  rhs.terms.ascending.foldlM
    (fun expression (symbol, coefficient) => do
      expression.addTerm symbol (← Arith.neg coefficient))
    { lhs with constant }

/-- One term goes to the slot of its sign, if that is free. -/
def fillSlot : Option (Symbol × Int) × Option (Symbol × Int) → Symbol × Int →
    Option (Option (Symbol × Int) × Option (Symbol × Int))
  | (positive, negative), (symbol, coefficient) =>
    if 0 < coefficient then
      if positive.isSome then none
      else (Arith.i128 coefficient.natAbs).map fun scale => (some (symbol, scale), negative)
    else if negative.isSome then none
    else (Arith.i128 coefficient.natAbs).map fun scale => (positive, some (symbol, scale))

/-- `left - right ≤ bound`, with `origin` standing for the constant zero. -/
def difference (expression : Expression) (origin : Symbol) : Option (Symbol × Symbol × Int) := do
  let (positive, negative) ← expression.terms.ascending.foldlM fillSlot (none, none)
  let (left, scale) := positive.getD (origin, (negative.map Prod.snd).getD 1)
  let (right, otherScale) := negative.getD (origin, scale)
  if scale ≠ otherScale then none
  else some (left, right, (← Arith.neg expression.constant) / scale)

end Expression

/-! ### Expansion -/

/-- Lower and upper bounds of the symbols of a query. -/
abbrev SymbolBounds := Symbol → Int × Int

/-- The least and the greatest exact result for operands in `[a, b]` and `[c, d]`. -/
def resultEnds (op : BinaryOp) (a b c d : Int) : Option (Int × Int) :=
  match op with
  | .add => some (a + c, b + d)
  | .subtract => some (a - d, b - c)
  | .multiply =>
    some (min (min (min (a * c) (a * d)) (b * c)) (b * d),
      max (max (max (a * c) (a * d)) (b * c)) (b * d))
  | _ => none

/-- The range of an operation whose exact result fits its type. -/
def operationRange (bounds : SymbolBounds) (op : BinaryOp) (lhs rhs : Symbol)
    (scalar : ScalarType) : Option (Int × Int) := do
  let (typeMin, typeMax) ← integerTypeBounds scalar
  let (lower, upper) ← resultEnds op (max (bounds lhs).1 typeMin) (min (bounds lhs).2 typeMax)
    (max (bounds rhs).1 typeMin) (min (bounds rhs).2 typeMax)
  if typeMin ≤ lower ∧ upper ≤ typeMax then some (lower, upper) else none

/-- The factor that a constant operand is. -/
def Node.factor : Node → Option Int
  | .constant value => some value
  | _ => none

namespace OrderProof

variable (proof : OrderProof) (bounds : SymbolBounds)

/-- One definition, expanded in the pending terms or kept in the result. -/
def expandTerm (result : Expression) (pending : Terms) (symbol : Symbol) (coefficient : Int) :
    Option (Expression × Terms) :=
  let keep := (result.addTerm symbol coefficient).map (·, pending)
  match proof.node symbol with
  | .constant value => do
    let constant ← Arith.add result.constant (← Arith.mul coefficient value)
    some ({ result with constant }, pending)
  | .binary op lhs rhs scalar =>
    if (operationRange bounds op lhs rhs scalar).isSome then
      match op with
      | .add => do
        some (result, ← (← pending.add lhs coefficient).add rhs coefficient)
      | .subtract => do
        let pending ← pending.add lhs coefficient
        some (result, ← pending.add rhs (← Arith.neg coefficient))
      | .multiply =>
        match (proof.node lhs).factor, (proof.node rhs).factor with
        | some factor, _ => do
          some (result, ← pending.add rhs (← Arith.mul coefficient factor))
        | none, some factor => do
          some (result, ← pending.add lhs (← Arith.mul coefficient factor))
        | none, none => keep
      | _ => keep
    else keep
  | _ => keep

/-- Expands the pending terms from the last symbol on.  Definitions refer to
earlier symbols only, so shared subexpressions are combined before they are
expanded. -/
def expandPending : Nat → Expression → Terms → Option Expression
  | 0, _, _ => none
  | fuel + 1, result, pending =>
    match pending.popLast with
    | none => some result
    | some ((symbol, coefficient), pending) => do
      let (result, pending) ← proof.expandTerm bounds result pending symbol coefficient
      expandPending fuel result pending

/-- The affine expression of a symbol. -/
def get (symbol : Symbol) : Option Expression := do
  proof.expandPending bounds (symbol + 2) Expression.default (← Terms.empty.add symbol 1)

/-! ### The prover -/

/-- The range of one definition tightens the bounds of its symbol. -/
def tightenDefinition (symbol : Symbol) : SymbolBounds :=
  match proof.node symbol with
  | .binary op lhs rhs scalar =>
    match operationRange bounds op lhs rhs scalar with
    | some (min, max) =>
      Function.update bounds symbol
        (Max.max (bounds symbol).1 min, Min.min (bounds symbol).2 max)
    | none => bounds
  | _ => bounds

/-- `left - right` with one added for a strict order: the order says that it is
not positive. -/
def orderExpression (left right : Symbol) (strict : Bool) : Option Expression := do
  (← proof.get bounds left).subtract (← proof.get bounds right) strict

/-- The largest value of an expression within the bounds. -/
def upperBound (expression : Expression) : Option Int :=
  expression.terms.ascending.foldlM
    (fun sum (symbol, coefficient) => do
      let bound := if 0 < coefficient then (bounds symbol).2 else (bounds symbol).1
      Arith.add sum (← Arith.mul coefficient bound))
    expression.constant

/-- The edge of an order between expressions that differ by two symbols. -/
def orderEdge (left right : Symbol) (strict : Bool) : Option (Differences.Edge Symbol) := do
  let (left, right, limit) ←
    (← proof.orderExpression bounds left right strict).difference proof.nodes.length
  some ⟨right, left, limit⟩

/-- The edges of the recorded orders, of those of the path and of the bounds. -/
def queryEdges (available symbols : List Symbol) (assumptions : List Order) :
    List (Differences.Edge Symbol) :=
  let origin := proof.nodes.length
  (symbols.flatMap fun source => (proof.edges.getD source []).filterMap fun (target, strict) =>
      if target ∈ available then proof.orderEdge bounds source target strict else none)
    ++ (assumptions.filterMap fun (source, target, strict) =>
      proof.orderEdge bounds source target strict)
    ++ symbols.flatMap fun symbol =>
      [⟨origin, symbol, (bounds symbol).2⟩, ⟨symbol, origin, -(bounds symbol).1⟩]

def isBinary (symbol : Symbol) : Bool :=
  match proof.node symbol with
  | .binary .. => true
  | _ => false

/-- `ordered` of the affine prover. -/
def affineOrdered (left right : Symbol) (strict : Bool) (assumptions : List Order) : Bool :=
  let available := proof.available left right assumptions
  if !available.any proof.isBinary then
    let upper := proof.bound left true assumptions available
    let lower := proof.bound right false assumptions available
    decide (upper < lower) || (decide (upper = lower) && !strict)
  else
    let symbols := available.insertionSort (· ≤ ·)
    let bounds := symbols.foldl proof.tightenDefinition fun symbol =>
      (proof.bound symbol false assumptions available,
        proof.bound symbol true assumptions available)
    match proof.orderExpression bounds left right strict with
    | none => false
    | some expression =>
      if (upperBound bounds expression).any (decide <| · ≤ 0) then true
      else
        match expression.difference proof.nodes.length with
        | none => false
        | some (left, right, limit) =>
          Differences.search Arith.add (proof.queryEdges bounds available symbols assumptions)
            left limit (symbols.length + 1) (Differences.Distances.start right)

/-- `ordered`: by a chain of orders, or by the affine prover. -/
def ordered (left right : Symbol) (strict : Bool) (assumptions : List Order) : Bool :=
  proof.knownOrder left right strict assumptions
    || proof.affineOrdered left right strict assumptions

end OrderProof

/-! ### Values of expressions -/

section Values

variable {number : Symbol → Int}

variable {lhs result rhs : Int}

theorem Arith.i128_eq_some {value : Int} (computed : Arith.i128 value = some result) :
    result = value := by
  unfold Arith.i128 at computed
  split at computed
  · exact (Option.some.inj computed).symm
  · cases computed

theorem Arith.add_eq_some (computed : Arith.add lhs rhs = some result) :
    result = lhs + rhs := Arith.i128_eq_some computed

theorem Arith.sub_eq_some (computed : Arith.sub lhs rhs = some result) :
    result = lhs - rhs := Arith.i128_eq_some computed

theorem Arith.mul_eq_some (computed : Arith.mul lhs rhs = some result) :
    result = lhs * rhs := Arith.i128_eq_some computed

theorem Arith.neg_eq_some {value : Int} (computed : Arith.neg value = some result) :
    result = -value := Arith.i128_eq_some computed

/-- The value of some terms. -/
def termsValue (number : Symbol → Int) (terms : List (Symbol × Int)) : Int :=
  (terms.map fun term => term.2 * number term.1).sum

@[simp] theorem termsValue_nil : termsValue number [] = 0 := rfl

@[simp] theorem termsValue_cons (term : Symbol × Int) (terms : List (Symbol × Int)) :
    termsValue number (term :: terms) = term.2 * number term.1 + termsValue number terms := by
  simp [termsValue]

theorem termsValue_reverse (terms : List (Symbol × Int)) :
    termsValue number terms.reverse = termsValue number terms := by
  rw [termsValue, List.map_reverse, List.sum_reverse]
  rfl

def Expression.value (number : Symbol → Int) (expression : Expression) : Int :=
  expression.constant + termsValue number expression.terms.list

theorem addTermList_value {symbol : Symbol} {coefficient : Int} :
    ∀ {list result : List (Symbol × Int)}, addTermList symbol coefficient list = some result →
      termsValue number result = termsValue number list + coefficient * number symbol := by
  intro list
  induction list with
  | nil =>
    intro result added
    obtain ⟨value, sum, rfl⟩ := Option.map_eq_some_iff.mp added
    have sum := Arith.add_eq_some sum
    rw [zero_add] at sum
    subst sum
    split
    case isTrue none => simp [none]
    case isFalse => simp
  | cons first rest ih =>
    obtain ⟨other, held⟩ := first
    intro result added
    unfold addTermList at added
    split at added
    case isTrue =>
      obtain ⟨tail, inner, rfl⟩ := Option.map_eq_some_iff.mp added
      rw [termsValue_cons, termsValue_cons, ih inner]
      ring
    split at added
    case isTrue same =>
      obtain ⟨value, sum, rfl⟩ := Option.map_eq_some_iff.mp added
      have sum := Arith.add_eq_some sum
      subst same
      split
      case isTrue none =>
        have cancelled : held + coefficient = 0 := by omega
        rw [termsValue_cons]
        linear_combination -(number symbol) * cancelled
      case isFalse =>
        rw [termsValue_cons, termsValue_cons, sum]
        ring
    case isFalse =>
      obtain ⟨value, sum, rfl⟩ := Option.map_eq_some_iff.mp added
      have sum := Arith.add_eq_some sum
      rw [zero_add] at sum
      subst sum
      split
      case isTrue none => simp [none]
      case isFalse =>
        rw [termsValue_cons, termsValue_cons]
        ring

end Values

namespace Terms

variable {terms result : Terms} {symbol : Symbol} {coefficient : Int}

theorem add_list (added : terms.add symbol coefficient = some result) :
    addTermList symbol coefficient terms.list = some result.list := by
  unfold add at added
  split at added
  · cases added
  case h_2 list known =>
    cases added
    exact known

theorem add_value {number : Symbol → Int} (added : terms.add symbol coefficient = some result) :
    termsValue number result.list
      = termsValue number terms.list + coefficient * number symbol :=
  addTermList_value (add_list added)

theorem popLast_list {term : Symbol × Int} {rest : Terms}
    (taken : terms.popLast = some (term, rest)) : terms.list = term :: rest.list := by
  unfold popLast at taken
  split at taken
  · cases taken
  case h_2 first others known =>
    cases taken
    exact known

theorem popLast_none (taken : terms.popLast = none) : terms.list = [] := by
  unfold popLast at taken
  split at taken
  case h_1 known => exact known
  case h_2 => cases taken

end Terms

/-! ### Differences -/

section Differences

variable {number : Symbol → Int}

variable {expression result : Expression}

theorem Expression.addTerm_value {symbol : Symbol} {coefficient : Int}
    (added : expression.addTerm symbol coefficient = some result) :
    result.value number = expression.value number + coefficient * number symbol := by
  obtain ⟨terms, inner, rfl⟩ := Option.map_eq_some_iff.mp added
  unfold Expression.value
  rw [Terms.add_value inner]
  ring

theorem foldlM_subtract_value : ∀ {terms : List (Symbol × Int)} {expression result : Expression},
    terms.foldlM (fun expression (symbol, coefficient) => do
        Expression.addTerm expression symbol (← Arith.neg coefficient)) expression = some result →
      result.value number = expression.value number - termsValue number terms
  | [], expression, result, folded => by
    cases folded
    simp
  | (symbol, coefficient) :: terms, expression, result, folded => by
    rw [List.foldlM_cons] at folded
    obtain ⟨next, first, rest⟩ := Option.bind_eq_some_iff.mp folded
    obtain ⟨negated, opposite, added⟩ := Option.bind_eq_some_iff.mp first
    rw [foldlM_subtract_value rest, Expression.addTerm_value added, Arith.neg_eq_some opposite,
      termsValue_cons]
    ring

/-- The difference is positive exactly when the order fails. -/
theorem Expression.subtract_value {lhs rhs : Expression} {strict : Bool}
    (subtracted : lhs.subtract rhs strict = some result) :
    result.value number = lhs.value number - rhs.value number + strict.toInt := by
  obtain ⟨difference, first, rest⟩ := Option.bind_eq_some_iff.mp subtracted
  obtain ⟨constant, second, folded⟩ := Option.bind_eq_some_iff.mp rest
  rw [foldlM_subtract_value folded, Terms.ascending, termsValue_reverse]
  unfold Expression.value
  rw [Arith.add_eq_some second, Arith.sub_eq_some first]
  ring

/-- The value of a slot. -/
def slotValue (number : Symbol → Int) : Option (Symbol × Int) → Int
  | none => 0
  | some (symbol, scale) => scale * number symbol

variable (number) in
theorem fillSlot_spec {slots filled : Option (Symbol × Int) × Option (Symbol × Int)}
    {term : Symbol × Int} (nonzero : term.2 ≠ 0)
    (scales : (∀ slot ∈ slots.1, 0 < slot.2) ∧ ∀ slot ∈ slots.2, 0 < slot.2)
    (filling : Expression.fillSlot slots term = some filled) :
    slotValue number filled.1 - slotValue number filled.2
        = slotValue number slots.1 - slotValue number slots.2 + term.2 * number term.1
      ∧ (∀ slot ∈ filled.1, 0 < slot.2) ∧ ∀ slot ∈ filled.2, 0 < slot.2 := by
  obtain ⟨positive, negative⟩ := slots
  obtain ⟨symbol, coefficient⟩ := term
  simp only at nonzero scales
  simp only [Expression.fillSlot] at filling
  split at filling
  case isTrue above =>
    split at filling
    · cases filling
    case isFalse free =>
      obtain ⟨scale, checked, rfl⟩ := Option.map_eq_some_iff.mp filling
      have scale_eq := Arith.i128_eq_some checked
      obtain rfl : positive = none := by simpa using free
      obtain rfl : scale = coefficient := by omega
      refine ⟨?_, ?_, scales.2⟩
      · simp only [slotValue]
        ring
      · rintro slot ⟨⟩
        exact above
  case isFalse below =>
    split at filling
    · cases filling
    case isFalse free =>
      obtain ⟨scale, checked, rfl⟩ := Option.map_eq_some_iff.mp filling
      have scale_eq := Arith.i128_eq_some checked
      obtain rfl : negative = none := by simpa using free
      obtain rfl : coefficient = -scale := by omega
      refine ⟨?_, scales.1, ?_⟩
      · simp only [slotValue]
        ring
      · rintro slot ⟨⟩
        simp only
        omega

variable (number) in
theorem foldlM_fillSlot_spec : ∀ {terms : List (Symbol × Int)}
    {slots filled : Option (Symbol × Int) × Option (Symbol × Int)},
    (∀ term ∈ terms, term.2 ≠ 0) →
    ((∀ slot ∈ slots.1, 0 < slot.2) ∧ ∀ slot ∈ slots.2, 0 < slot.2) →
    terms.foldlM Expression.fillSlot slots = some filled →
    slotValue number filled.1 - slotValue number filled.2
        = slotValue number slots.1 - slotValue number slots.2 + termsValue number terms
      ∧ (∀ slot ∈ filled.1, 0 < slot.2) ∧ ∀ slot ∈ filled.2, 0 < slot.2
  | [], slots, filled, _, scales, folded => by
    cases folded
    exact ⟨by simp, scales⟩
  | term :: terms, slots, filled, nonzero, scales, folded => by
    rw [List.forall_mem_cons] at nonzero
    rw [List.foldlM_cons] at folded
    obtain ⟨next, first, rest⟩ := Option.bind_eq_some_iff.mp folded
    obtain ⟨value, scales⟩ := fillSlot_spec number nonzero.1 scales first
    obtain ⟨total, scales⟩ := foldlM_fillSlot_spec nonzero.2 scales rest
    refine ⟨?_, scales⟩
    rw [total, value, termsValue_cons]
    ring

/-- Dividing by the common scale rounds towards the order of the integers. -/
theorem scaled_le_iff (constant : Int) {scale : Int} (left right : Int) (positive : 0 < scale) :
    constant + scale * (left - right) ≤ 0 ↔ left ≤ right + -constant / scale := by
  rw [← sub_le_iff_le_add', Int.le_ediv_iff_mul_le positive, mul_comm]
  constructor <;> intro le <;> omega

/-- **Differences.**  An expression is not positive exactly when the difference
holds of its two symbols. -/
theorem Expression.difference_iff {origin left right : Symbol} {limit : Int}
    (zero : number origin = 0) (found : expression.difference origin = some (left, right, limit)) :
    expression.value number ≤ 0 ↔ number left ≤ number right + limit := by
  obtain ⟨⟨positive, negative⟩, folded, rest⟩ := Option.bind_eq_some_iff.mp found
  obtain ⟨value, positiveScale, negativeScale⟩ := foldlM_fillSlot_spec number
    (fun term mem => expression.terms.nonzero term (List.mem_reverse.mp mem)) (by simp) folded
  simp only [slotValue, sub_self, zero_add, termsValue_reverse] at value
  unfold Expression.value
  rw [← value]
  cases positive with
  | none =>
    cases negative with
    | none =>
      simp only [Option.map_none, Option.getD_none, ne_eq, not_true_eq_false, if_false] at rest
      obtain ⟨negated, opposite, eq⟩ := Option.bind_eq_some_iff.mp rest
      cases eq
      have exact_ := scaled_le_iff expression.constant 0 0 Int.one_pos
      rw [zero, Arith.neg_eq_some opposite, ← exact_]
      simp
    | some slot =>
      obtain ⟨symbol, scale⟩ := slot
      simp only [Option.map_some, Option.getD_none, Option.getD_some, ne_eq, not_true_eq_false,
        if_false] at rest
      obtain ⟨negated, opposite, eq⟩ := Option.bind_eq_some_iff.mp rest
      cases eq
      rw [zero, Arith.neg_eq_some opposite, ← scaled_le_iff _ _ _ (negativeScale _ rfl)]
      ring_nf
  | some slot =>
    obtain ⟨symbol, scale⟩ := slot
    cases negative with
    | none =>
      simp only [Option.getD_some, Option.getD_none, ne_eq, not_true_eq_false, if_false] at rest
      obtain ⟨negated, opposite, eq⟩ := Option.bind_eq_some_iff.mp rest
      cases eq
      rw [zero, Arith.neg_eq_some opposite, ← scaled_le_iff _ _ _ (positiveScale _ rfl)]
      ring_nf
    | some other =>
      obtain ⟨otherSymbol, otherScale⟩ := other
      simp only [Option.getD_some, ne_eq] at rest
      split at rest
      · cases rest
      case isFalse same =>
        rw [not_not] at same
        subst same
        obtain ⟨negated, opposite, eq⟩ := Option.bind_eq_some_iff.mp rest
        cases eq
        rw [Arith.neg_eq_some opposite, ← scaled_le_iff _ _ _ (positiveScale _ rfl)]
        ring_nf

end Differences

/-! ### Expansion is exact -/

namespace OrderProof

section Expansion

variable {proof : OrderProof} {assumptions : List Order} {number : Symbol → Int}
  {bounds : SymbolBounds}

/-- The bounds hold of the numbers. -/
def Bounded (number : Symbol → Int) (bounds : SymbolBounds) : Prop :=
  ∀ symbol, (bounds symbol).1 ≤ number symbol ∧ number symbol ≤ (bounds symbol).2

variable {symbol : Symbol}

/-- An operation with a range is exact, and its result lies in the range. -/
theorem operationRange_exact (numbers : proof.Numbers assumptions number)
    (bounded : Bounded number bounds) {lhs rhs : Symbol} {op : BinaryOp} {scalar : ScalarType}
    {lower upper : Int} (defined : proof.node symbol = .binary op lhs rhs scalar)
    (found : operationRange bounds op lhs rhs scalar = some (lower, upper)) :
    exactBinary (integerWidth scalar) op (number lhs) (number rhs) = some (number symbol)
      ∧ lower ≤ number symbol ∧ number symbol ≤ upper := by
  obtain ⟨typeMin, typeMax, typed, left, right, wrapped⟩ :=
    numbers.binary symbol op lhs rhs scalar defined
  obtain ⟨⟨least, greatest⟩, typed', rest⟩ := Option.bind_eq_some_iff.mp found
  rw [typed, Option.some.injEq, Prod.mk.injEq] at typed'
  obtain ⟨rfl, rfl⟩ := typed'
  obtain ⟨⟨low, high⟩, ends, fits⟩ := Option.bind_eq_some_iff.mp rest
  simp only at fits
  split at fits
  case isFalse => cases fits
  case isTrue inside =>
    cases fits
    have memLeft : number lhs ∈ Set.Icc (max (bounds lhs).1 typeMin)
        (min (bounds lhs).2 typeMax) :=
      ⟨max_le (bounded lhs).1 left.1, le_min (bounded lhs).2 left.2⟩
    have memRight : number rhs ∈ Set.Icc (max (bounds rhs).1 typeMin)
        (min (bounds rhs).2 typeMax) :=
      ⟨max_le (bounded rhs).1 right.1, le_min (bounded rhs).2 right.2⟩
    -- The exact result lies between the ends, so it fits and is not wrapped.
    have exact_of : ∀ result, exactBinary (integerWidth scalar) op (number lhs) (number rhs)
        = some result → lower ≤ result ∧ result ≤ upper →
        exactBinary (integerWidth scalar) op (number lhs) (number rhs) = some (number symbol)
          ∧ lower ≤ number symbol ∧ number symbol ≤ upper := by
      intro result computed between
      have eq := wrapped result computed
      rw [bmod_of_fits typed (inside.1.trans between.1) (between.2.trans inside.2)] at eq
      rw [eq]
      exact ⟨computed, between⟩
    cases op with
    | add =>
      cases ends
      exact exact_of _ rfl ⟨add_le_add memLeft.1 memRight.1, add_le_add memLeft.2 memRight.2⟩
    | subtract =>
      cases ends
      exact exact_of _ rfl ⟨sub_le_sub memLeft.1 memRight.2, sub_le_sub memLeft.2 memRight.1⟩
    | multiply =>
      cases ends
      exact exact_of _ rfl (Interval.mul_between memLeft memRight)
    | divide | remainder | bitAnd | bitOr | bitXor | shiftLeft | shiftRight => cases ends

theorem factor_eq {node : Node} {factor : Int} (known : node.factor = some factor) :
    node = .constant factor := by
  cases node <;> cases known
  rfl

/-- One expansion keeps the sum of the result and the pending terms. -/
theorem expandTerm_value (numbers : proof.Numbers assumptions number)
    (bounded : Bounded number bounds) {result result' : Expression} {pending pending' : Terms}
    {coefficient : Int} (expanded : proof.expandTerm bounds result pending symbol coefficient
      = some (result', pending')) :
    result'.value number + termsValue number pending'.list
      = result.value number + termsValue number pending.list + coefficient * number symbol := by
  have kept : (result.addTerm symbol coefficient).map (·, pending) = some (result', pending') →
      result'.value number + termsValue number pending'.list
        = result.value number + termsValue number pending.list + coefficient * number symbol := by
    intro kept
    obtain ⟨sum, added, eq⟩ := Option.map_eq_some_iff.mp kept
    cases eq
    rw [Expression.addTerm_value added]
    ring
  unfold expandTerm at expanded
  split at expanded
  case h_1 value defined =>
    obtain ⟨product, multiplied, rest⟩ := Option.bind_eq_some_iff.mp expanded
    obtain ⟨constant, added, eq⟩ := Option.bind_eq_some_iff.mp rest
    cases eq
    unfold Expression.value
    rw [Arith.add_eq_some added, Arith.mul_eq_some multiplied,
      numbers.constant symbol value defined]
    ring
  case h_2 op lhs rhs scalar defined =>
    split at expanded
    case isFalse => exact kept expanded
    case isTrue ranged =>
      obtain ⟨⟨lower, upper⟩, found⟩ := Option.isSome_iff_exists.mp ranged
      have exact_ := (operationRange_exact numbers bounded defined found).1
      split at expanded
      case h_1 =>
        obtain ⟨middle, first, rest⟩ := Option.bind_eq_some_iff.mp expanded
        obtain ⟨last, second, eq⟩ := Option.bind_eq_some_iff.mp rest
        cases eq
        rw [exactBinary, Option.some.injEq] at exact_
        rw [Terms.add_value second, Terms.add_value first, ← exact_]
        ring
      case h_2 =>
        obtain ⟨middle, first, rest⟩ := Option.bind_eq_some_iff.mp expanded
        obtain ⟨opposite, negated, rest⟩ := Option.bind_eq_some_iff.mp rest
        obtain ⟨last, second, eq⟩ := Option.bind_eq_some_iff.mp rest
        cases eq
        rw [exactBinary, Option.some.injEq] at exact_
        rw [Terms.add_value second, Terms.add_value first, Arith.neg_eq_some negated, ← exact_]
        ring
      case h_3 =>
        split at expanded
        case h_1 factor known =>
          obtain ⟨product, multiplied, rest⟩ := Option.bind_eq_some_iff.mp expanded
          obtain ⟨last, added, eq⟩ := Option.bind_eq_some_iff.mp rest
          cases eq
          rw [exactBinary, Option.some.injEq] at exact_
          rw [Terms.add_value added, Arith.mul_eq_some multiplied, ← exact_,
            numbers.constant lhs factor (factor_eq known)]
          ring
        case h_2 factor _ known =>
          obtain ⟨product, multiplied, rest⟩ := Option.bind_eq_some_iff.mp expanded
          obtain ⟨last, added, eq⟩ := Option.bind_eq_some_iff.mp rest
          cases eq
          rw [exactBinary, Option.some.injEq] at exact_
          rw [Terms.add_value added, Arith.mul_eq_some multiplied, ← exact_,
            numbers.constant rhs factor (factor_eq known)]
          ring
        case h_3 => exact kept expanded
      case h_4 => exact kept expanded
  case h_3 => exact kept expanded

/-- **Expansion.**  An expanded expression is worth what was still to expand. -/
theorem expandPending_value (numbers : proof.Numbers assumptions number)
    (bounded : Bounded number bounds) :
    ∀ (fuel : Nat) {result expression : Expression} {pending : Terms},
      proof.expandPending bounds fuel result pending = some expression →
      expression.value number = result.value number + termsValue number pending.list
  | 0, _, _, _, expanded => by cases expanded
  | fuel + 1, result, expression, pending, expanded => by
    rw [expandPending] at expanded
    split at expanded
    case h_1 done =>
      cases expanded
      rw [Terms.popLast_none done]
      simp
    case h_2 symbol coefficient rest taken =>
      obtain ⟨⟨result', pending'⟩, term, expanded⟩ := Option.bind_eq_some_iff.mp expanded
      rw [expandPending_value numbers bounded fuel expanded,
        expandTerm_value numbers bounded term, Terms.popLast_list taken, termsValue_cons]
      ring

/-- The value of the expression of a symbol is the number of the symbol. -/
theorem get_value (numbers : proof.Numbers assumptions number) (bounded : Bounded number bounds)
    {expression : Expression} (found : proof.get bounds symbol = some expression) :
    expression.value number = number symbol := by
  rw [get] at found
  obtain ⟨pending, added, expanded⟩ := Option.bind_eq_some_iff.mp found
  rw [expandPending_value numbers bounded _ expanded, Terms.add_value added]
  simp [Expression.value, Expression.default, Terms.empty]

end Expansion

/-! ### Soundness of the prover -/

section Soundness

variable {proof : OrderProof} {assumptions : List Order} {number : Symbol → Int}
  {bounds : SymbolBounds}

theorem tightenDefinition_bounded (numbers : proof.Numbers assumptions number)
    (bounded : Bounded number bounds) (symbol : Symbol) :
    Bounded number (proof.tightenDefinition bounds symbol) := by
  unfold tightenDefinition
  split
  case h_1 op lhs rhs scalar defined =>
    split
    case h_1 lower upper found =>
      intro other
      by_cases same : other = symbol
      · subst same
        rw [Function.update_self]
        obtain ⟨-, above, below⟩ := operationRange_exact numbers bounded defined found
        exact ⟨max_le (bounded other).1 above, le_min (bounded other).2 below⟩
      · rw [Function.update_of_ne same]
        exact bounded other
    case h_2 => exact bounded
  case h_2 => exact bounded

theorem foldl_tightenDefinition_bounded (numbers : proof.Numbers assumptions number)
    (symbols : List Symbol) (bounded : Bounded number bounds) :
    Bounded number (symbols.foldl proof.tightenDefinition bounds) := by
  induction symbols generalizing bounds with
  | nil => exact bounded
  | cons symbol symbols ih => exact ih (tightenDefinition_bounded numbers bounded symbol)

/-- A sum of products within the bounds is at most the sum of the largest products. -/
theorem foldlM_upper (bounded : Bounded number bounds) :
    ∀ {terms : List (Symbol × Int)} {sum upper : Int},
      terms.foldlM (fun sum (symbol, coefficient) => do
          let bound := if 0 < coefficient then (bounds symbol).2 else (bounds symbol).1
          Arith.add sum (← Arith.mul coefficient bound)) sum = some upper →
        sum + termsValue number terms ≤ upper
  | [], sum, upper, folded => by
    cases folded
    simp
  | (symbol, coefficient) :: terms, sum, upper, folded => by
    rw [List.foldlM_cons] at folded
    obtain ⟨next, first, rest⟩ := Option.bind_eq_some_iff.mp folded
    obtain ⟨product, multiplied, added⟩ := Option.bind_eq_some_iff.mp first
    have le := foldlM_upper bounded rest
    have product := Arith.mul_eq_some multiplied
    have added := Arith.add_eq_some added
    have term : coefficient * number symbol
        ≤ coefficient * (if 0 < coefficient then (bounds symbol).2 else (bounds symbol).1) := by
      split
      case isTrue positive =>
        exact Int.mul_le_mul_of_nonneg_left (bounded symbol).2 positive.le
      case isFalse negative =>
        exact Int.mul_le_mul_of_nonpos_left (not_lt.mp negative) (bounded symbol).1
    rw [termsValue_cons]
    simp only
    omega

variable {strict : Bool} {expression : Expression} {left right : Symbol}

theorem upperBound_sound (bounded : Bounded number bounds) {upper : Int}
    (found : upperBound bounds expression = some upper) : expression.value number ≤ upper := by
  have le := foldlM_upper bounded found
  rwa [Terms.ascending, termsValue_reverse] at le

/-- The expression of an order is not positive exactly when the order holds. -/
theorem orderExpression_iff (numbers : proof.Numbers assumptions number)
    (bounded : Bounded number bounds)
    (found : proof.orderExpression bounds left right strict = some expression) :
    expression.value number ≤ 0 ↔ Order.Holds number (left, right, strict) := by
  obtain ⟨lhs, first, rest⟩ := Option.bind_eq_some_iff.mp found
  obtain ⟨rhs, second, subtracted⟩ := Option.bind_eq_some_iff.mp rest
  rw [Expression.subtract_value subtracted, get_value numbers bounded first,
    get_value numbers bounded second, Order.holds_iff]
  simp only
  constructor <;> intro le <;> omega

variable (zero : number proof.nodes.length = 0)
include zero

theorem orderEdge_holds (numbers : proof.Numbers assumptions number)
    (bounded : Bounded number bounds) {edge : Differences.Edge Symbol}
    (holds : Order.Holds number (left, right, strict))
    (found : proof.orderEdge bounds left right strict = some edge) : edge.Holds number := by
  obtain ⟨expression, made, rest⟩ := Option.bind_eq_some_iff.mp found
  obtain ⟨⟨target, source, limit⟩, differs, eq⟩ := Option.bind_eq_some_iff.mp rest
  cases eq
  exact (Expression.difference_iff zero differs).mp
    ((orderExpression_iff numbers bounded made).mpr holds)

/-- Every edge of a query holds. -/
theorem queryEdges_hold (numbers : proof.Numbers assumptions number)
    (bounded : Bounded number bounds) (available symbols : List Symbol) :
    ∀ edge ∈ proof.queryEdges bounds available symbols assumptions, edge.Holds number := by
  intro edge mem
  rcases List.mem_append.mp mem with mem | ofBounds
  · rcases List.mem_append.mp mem with recorded | assumed
    · obtain ⟨source, -, mem⟩ := List.mem_flatMap.mp recorded
      obtain ⟨⟨target, strict⟩, arc, found⟩ := List.mem_filterMap.mp mem
      simp only [Option.ite_none_right_eq_some] at found
      exact orderEdge_holds zero numbers bounded (numbers.edges source (target, strict) arc) found.2
    · obtain ⟨⟨source, target, strict⟩, order, found⟩ := List.mem_filterMap.mp assumed
      exact orderEdge_holds zero numbers bounded (numbers.assumptions _ order) found
  · obtain ⟨symbol, -, mem⟩ := List.mem_flatMap.mp ofBounds
    have within := bounded symbol
    rcases List.mem_pair.mp mem with rfl | rfl <;>
      simp only [Differences.Edge.Holds, zero] <;> omega

/-- **The affine prover is sound** for numbers with a zero. -/
theorem affineOrdered_sound (numbers : proof.Numbers assumptions number)
    (known : proof.affineOrdered left right strict assumptions = true) :
    Order.Holds number (left, right, strict) := by
  unfold affineOrdered at known
  simp only at known
  split at known
  case isTrue =>
    have upper := (bound_sound numbers left (proof.available left right assumptions)).2
    have lower := (bound_sound numbers right (proof.available left right assumptions)).1
    simp only [Bool.or_eq_true, Bool.and_eq_true, decide_eq_true_eq, Bool.not_eq_true'] at known
    rw [Order.holds_iff]
    simp only
    rcases known with less | ⟨same, rfl⟩
    · cases strict <;> simp only [Bool.toInt, cond_true, cond_false] <;> omega
    · simp only [Bool.toInt, cond_false]
      omega
  case isFalse =>
    have start : Bounded number fun symbol =>
        (proof.bound symbol false assumptions (proof.available left right assumptions),
          proof.bound symbol true assumptions (proof.available left right assumptions)) :=
      fun symbol => bound_sound numbers symbol _
    have bounded := foldl_tightenDefinition_bounded numbers
      ((proof.available left right assumptions).insertionSort (· ≤ ·)) start
    split at known
    · cases known
    case h_2 expression made =>
      rw [← orderExpression_iff numbers bounded made]
      split at known
      case isTrue negative =>
        obtain ⟨upper, found, le⟩ := (Option.any_eq_true _ _).mp negative
        exact (upperBound_sound bounded found).trans (of_decide_eq_true le)
      case isFalse =>
        split at known
        · cases known
        case h_2 first last limit differs =>
          rw [Expression.difference_iff zero differs]
          exact Differences.search_sound (fun _ _ _ => Arith.add_eq_some)
            (queryEdges_hold zero numbers bounded _ _) _ Differences.start_hold known

end Soundness

/-! ### The constant zero -/

/-- The symbols of the orders are recorded. -/
def Recorded (proof : OrderProof) (orders : List Order) : Prop :=
  ∀ order ∈ orders, order.1 < proof.nodes.length ∧ order.2.1 < proof.nodes.length

section Zero

variable {proof : OrderProof} {assumptions : List Order} {number : Symbol → Int}

/-- The facts speak of recorded symbols, so the first symbol that is not recorded
may stand for zero. -/
theorem Numbers.withZero (numbers : proof.Numbers assumptions number)
    (recorded : proof.Recorded assumptions) :
    proof.Numbers assumptions (Function.update number proof.nodes.length 0) := by
  have same : ∀ symbol, symbol < proof.nodes.length →
      Function.update number proof.nodes.length 0 symbol = number symbol :=
    fun symbol inside => Function.update_of_ne inside.ne _ _
  have order : ∀ order : Order, order.1 < proof.nodes.length → order.2.1 < proof.nodes.length →
      order.Holds number →
      order.Holds (Function.update number proof.nodes.length 0) := by
    intro order left right holds
    rwa [Order.holds_iff, same _ left, same _ right, ← Order.holds_iff]
  have edge : ∀ {table : List (List (Symbol × Bool))}, table.length ≤ proof.nodes.length →
      ∀ symbol, ∀ arc ∈ table.getD symbol [], symbol < proof.nodes.length := by
    intro table short symbol arc mem
    by_contra outside
    rw [List.getD_eq_default _ _ (short.trans (not_lt.mp outside))] at mem
    cases mem
  refine ⟨fun symbol => ?_, fun symbol value defined => ?_,
    fun symbol op lhs rhs scalar defined => ?_, fun symbol arc mem => ?_,
    fun symbol arc mem => ?_, fun symbol range known => ?_, fun assumed mem => ?_⟩
  · by_cases zero : symbol = proof.nodes.length
    · subst zero
      rw [Function.update_self]
      omega
    · rw [Function.update_of_ne zero]
      exact numbers.machine symbol
  · rw [same symbol (node_lt (by simp [defined]))]
    exact numbers.constant symbol value defined
  · have inside : symbol < proof.nodes.length := node_lt (by simp [defined])
    have left : lhs < symbol := @operand_lt proof symbol lhs (by simp [defined, Node.operands])
    have right : rhs < symbol := @operand_lt proof symbol rhs (by simp [defined, Node.operands])
    rw [same symbol inside, same lhs (left.trans inside), same rhs (right.trans inside)]
    exact numbers.binary symbol op lhs rhs scalar defined
  · exact order _ (edge proof.edgesInside.1 symbol arc mem)
      (proof.edgesInside.2 arc (mem_flatten_of_getD mem)) (numbers.edges symbol arc mem)
  · exact order _ (proof.predecessorsInside.2 arc (mem_flatten_of_getD mem))
      (edge proof.predecessorsInside.1 symbol arc mem) (numbers.predecessors symbol arc mem)
  · have inside : symbol < proof.nodes.length := by
      by_contra outside
      unfold OrderProof.range at known
      rw [List.getD_eq_default _ _ (proof.rangesInside.trans (not_lt.mp outside))] at known
      cases known
    rw [same symbol inside]
    exact numbers.ranges symbol range known
  · exact order assumed (recorded assumed mem).1 (recorded assumed mem).2
      (numbers.assumptions assumed mem)

theorem assumeOrder_symbols {op : CompareOp} {lhs rhs : Symbol} {truth : Bool} {order : Order}
    (mem : order ∈ assumeOrder op lhs rhs truth) :
    (order.1 = lhs ∨ order.1 = rhs) ∧ (order.2.1 = lhs ∨ order.2.1 = rhs) := by
  cases op <;> cases truth <;>
    simp only [assumeOrder, List.mem_cons, List.not_mem_nil, or_false] at mem
  case equal.true | notEqual.false => rcases mem with rfl | rfl <;> simp
  all_goals
    subst mem
    simp

/-- The orders of a condition are between operands of recorded comparisons. -/
theorem Recorded.assume (recorded : proof.Recorded assumptions) (condition : Symbol)
    (truth : Bool) : proof.Recorded (proof.assume condition truth assumptions) := by
  intro order mem
  rcases List.mem_append.mp mem with old | new
  · exact recorded order old
  · obtain ⟨⟨symbol, value⟩, -, mem⟩ := List.mem_flatMap.mp new
    simp only [impliedOrders] at mem
    split at mem
    case h_1 op lhs rhs defined =>
      have inside : symbol < proof.nodes.length := node_lt (by simp [defined])
      have left := (@operand_lt proof symbol lhs (by simp [defined, Node.operands])).trans inside
      have right := (@operand_lt proof symbol rhs (by simp [defined, Node.operands])).trans inside
      obtain ⟨first, second⟩ := assumeOrder_symbols mem
      exact ⟨by rcases first with eq | eq <;> rwa [eq],
        by rcases second with eq | eq <;> rwa [eq]⟩
    case h_2 => cases mem

/-- The assumptions of a path on which some conditions are known. -/
def assumeAll (proof : OrderProof) (conditions : List (Symbol × Bool)) (assumptions : List Order) :
    List Order :=
  conditions.foldl (fun assumptions (condition, truth) =>
    proof.assume condition truth assumptions) assumptions

theorem assumeAll_holds {floats : FloatOps} {values : Values} (holds : proof.Holds floats values)
    {conditions : List (Symbol × Bool)}
    (taken : ∀ item ∈ conditions, values item.1 = .bool item.2)
    (known : ∀ order ∈ assumptions, order.Holds values.number)
    (recorded : proof.Recorded assumptions) :
    (∀ order ∈ proof.assumeAll conditions assumptions, order.Holds values.number)
      ∧ proof.Recorded (proof.assumeAll conditions assumptions) := by
  induction conditions generalizing assumptions with
  | nil => exact ⟨known, recorded⟩
  | cons item conditions ih =>
    rw [List.forall_mem_cons] at taken
    exact ih taken.2 (assume_holds holds taken.1 known) (recorded.assume item.1 item.2)

end Zero

/-- **Soundness.**  Where the recorded definitions and facts hold of the machine
values, and so do the assumed orders and the conditions of the path, every order
that the prover answers holds of the integers. -/
theorem ordered_sound (floats : FloatOps) (proof : OrderProof) (values : Values)
    (holds : proof.Holds floats values) (conditions : List (Symbol × Bool))
    (taken : ∀ item ∈ conditions, values item.1 = .bool item.2) (assumptions : List Order)
    (known : ∀ order ∈ assumptions, order.Holds values.number)
    (recorded : proof.Recorded assumptions) (left right : Symbol)
    (leftRecorded : left < proof.nodes.length) (rightRecorded : right < proof.nodes.length)
    (strict : Bool)
    (answered : proof.ordered left right strict (proof.assumeAll conditions assumptions) = true) :
    if strict then values.number left < values.number right
    else values.number left ≤ values.number right := by
  obtain ⟨known, recorded⟩ := assumeAll_holds holds taken known recorded
  have numbers := holds.numbers known
  rcases Bool.or_eq_true_iff.mp answered with chain | affine
  · exact knownOrder_sound numbers chain
  · have sound := affineOrdered_sound (by simp) (numbers.withZero recorded) affine
    unfold Order.Holds at sound
    rwa [Function.update_of_ne leftRecorded.ne, Function.update_of_ne rightRecorded.ne] at sound

/-- An index from a range, the next index, and the comparison of that with a limit. -/
def indexBelowLimit : OrderProof where
  nodes := [.unknown, .constant 1, .binary .add 0 1 .i32, .unknown, .compare .less 2 3]
  edges := [[], [], [], [], []]
  predecessors := [[], [], [], [], []]
  ranges := [IntegerRange.new .i32 0 100, none, none, none, none]
  lengths := []
  earlier := by
    intro symbol node known
    match symbol with
    | 0 | 1 | 2 | 3 | 4 =>
      cases known
      decide
    | symbol + 5 => simp at known
  edgesInside := by decide
  predecessorsInside := by decide
  rangesInside := by decide
  lengthsInside := by decide

def indexValues : Values
  | 0 => .i32 5
  | 1 => .i32 1
  | 2 => .i32 6
  | 3 => .i32 9
  | _ => .bool true

theorem indexBelowLimit_node (symbol : Symbol) :
    symbol = 1 ∧ indexBelowLimit.node symbol = .constant 1
      ∨ symbol = 2 ∧ indexBelowLimit.node symbol = .binary .add 0 1 .i32
      ∨ symbol = 4 ∧ indexBelowLimit.node symbol = .compare .less 2 3
      ∨ indexBelowLimit.node symbol = .unknown := by
  match symbol with
  | 0 => exact .inr (.inr (.inr rfl))
  | 1 => exact .inl ⟨rfl, rfl⟩
  | 2 => exact .inr (.inl ⟨rfl, rfl⟩)
  | 3 => exact .inr (.inr (.inr rfl))
  | 4 => exact .inr (.inr (.inl ⟨rfl, rfl⟩))
  | symbol + 5 => exact .inr (.inr (.inr rfl))

theorem indexBelowLimit_holds : indexBelowLimit.Holds FloatOps.silent indexValues := by
  refine ⟨?_, ?_, ?_, ?_, ?_, ?_, ?_, ?_, ?_⟩
  all_goals intro symbol
  case refine_7 | refine_8 =>
    match symbol with
    | 0 | 1 | 2 | 3 | 4 | symbol + 5 => simp [indexBelowLimit]
  case refine_9 =>
    match symbol with
    | 0 =>
      simp only [indexBelowLimit, OrderProof.range, IntegerRange.new, integerTypeBounds]
      rintro range ⟨⟩
      decide
    | 1 | 2 | 3 | 4 | symbol + 5 => simp [indexBelowLimit, OrderProof.range]
  all_goals
    rcases indexBelowLimit_node symbol with ⟨rfl, node⟩ | ⟨rfl, node⟩ | ⟨rfl, node⟩ | node <;>
      simp only [node, reduceCtorEq, false_implies, implies_true, Node.constant.injEq,
        Node.compare.injEq, Node.binary.injEq]
  case refine_1.inl => exact fun _ eq => eq ▸ rfl
  case refine_4.inr.inr.inl =>
    rintro _ _ _ ⟨rfl, rfl, rfl⟩
    decide
  case refine_6.inr.inl =>
    rintro _ _ _ _ ⟨rfl, rfl, rfl, rfl⟩
    exact ⟨rfl, rfl, rfl⟩

/-- An index whose successor is below a limit is below the limit. -/
theorem ordered_sound_index : indexValues.number 0 < indexValues.number 3 :=
  ordered_sound FloatOps.silent indexBelowLimit indexValues indexBelowLimit_holds [(4, true)]
    (by decide) [] (by simp) (by simp [Recorded]) 0 3 (by decide) (by decide) true (by decide)

end OrderProof

end Onda.Mir
