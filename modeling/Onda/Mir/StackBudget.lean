import Mathlib.Data.List.Dedup
import Mathlib.Data.List.Sort
import Mathlib.Logic.Function.Basic
import Onda.Mir.References

/-!
# The budget of native stack for arrays

A function keeps its small arrays of scalars in its native frame.  Lowering moves arrays to the
scratch of the instance until each call path fits a budget: functions are visited behind the
functions that they call, and each gives up its largest arrays until its own fit into what its
deepest callee has left.
-/

namespace Onda.Mir

def MAX_LOCAL_FIXED_ARRAY_BYTES : Nat := 256

def MAX_LOCAL_FIXED_ARRAY_PATH_BYTES : Nat := 64 * 1024

/-! ### Numbers -/

def U64_MAX : Nat := 2 ^ 64 - 1

/-- `u64::saturating_add`. -/
def saturatingAdd (first second : Nat) : Nat := min (first + second) U64_MAX

/-- `u64::checked_mul`. -/
def checkedMul (first second : Nat) : Option Nat :=
  if first * second ≤ U64_MAX then some (first * second) else none

/-- Subtraction that must not be below zero. -/
def checkedSub (first second : Nat) : Option Nat :=
  if second ≤ first then some (first - second) else none

/-- The order in which a hash set gives its elements. -/
structure SetOrder where
  list : List Nat → List Nat
  perm : ∀ items, (list items).Perm items

/-! ### Plans -/

section Callees

variable (functionCount : Nat)

mutual

def statementCallees : Statement → List Nat
  | .op (.call _ function _) => if function < functionCount then [function] else []
  | .op _ => []
  | .ite _ thenBlock elseBlock => collectCallees thenBlock ++ collectCallees elseBlock
  | .loop body => collectCallees body
  | .brk | .cont | .ret _ => []

/-- `collect_callees` -/
def collectCallees : Block → List Nat
  | [] => []
  | statement :: rest => statementCallees statement ++ collectCallees rest

end

end Callees

/-- `fixed_array_bytes` -/
def fixedArrayBytes (types : List MirType) (ty : TypeId) : Option Nat :=
  match types[ty]? with
  | some (.array element len) =>
    match types[element]? with
    | some (.scalar element) => checkedMul len element.logicalByteWidth
    | _ => none
  | _ => none

/-- The arrays of scalars that a function refers to, with their bytes. -/
def referencedArrays (types : List MirType) (function : Function) : List (LocalId × Nat) :=
  function.locals.zipIdx.filterMap fun entry =>
    if entry.2 % 2 ^ 32 ∈ referencedLocals function.body then
      (fixedArrayBytes types entry.1.ty).map fun bytes => (entry.2 % 2 ^ 32, bytes)
    else none

/-- The arrays that are too large for a frame. -/
def largeArrays (types : List MirType) (function : Function) : List LocalId :=
  ((referencedArrays types function).filter fun array =>
    MAX_LOCAL_FIXED_ARRAY_BYTES < array.2).map Prod.fst

/-- `FunctionArrayPlan` -/
structure FunctionArrayPlan where
  small : List (LocalId × Nat)
  callees : List Nat

def planFunction (program : Program) (order : SetOrder) (function : Function) : FunctionArrayPlan where
  small := (referencedArrays program.types function).filter fun array =>
    array.2 ≤ MAX_LOCAL_FIXED_ARRAY_BYTES
  callees := order.list (collectCallees program.functions.length function.body).dedup

/-! ### Visits -/

/-- The variables of the traversal, for each function. -/
structure Promotions where
  promoted : Nat → List LocalId
  pendingCallees : Nat → Nat
  queue : List Nat
  pathBytes : Nat → Nat
  processed : Nat → Bool

section Visits

variable (plans : Nat → FunctionArrayPlan) (functionCount : Nat)

/-- The functions that call a function, in order. -/
def callers (function : Nat) : List Nat :=
  (List.range functionCount).flatMap fun caller =>
    ((plans caller).callees.filter (· = function)).map fun _ => caller

/-- The largest arrays are given up first. -/
def largerFirst (first second : LocalId × Nat) : Prop :=
  second.2 < first.2 ∨ second.2 = first.2 ∧ second.1 ≤ first.1

instance : DecidableRel largerFirst := fun _ _ => inferInstanceAs (Decidable (_ ∨ _ ∧ _))

/-- Arrays are given up until the others fit: the bytes that are left, and what was given up. -/
def giveUp (allowance : Nat) : List (LocalId × Nat) → Nat → Option (Nat × List LocalId)
  | [], localBytes => some (localBytes, [])
  | (id, bytes) :: arrays, localBytes =>
    if localBytes ≤ allowance then some (localBytes, [])
    else do
      let (left, given) ← giveUp allowance arrays (← checkedSub localBytes bytes)
      pure (left, id :: given)

/-- The bytes that a function keeps within its allowance, and the arrays that it gives up. -/
def shrink (allowance : Nat) (small : List (LocalId × Nat)) : Option (Nat × List LocalId) :=
  let localBytes := small.foldl (fun total array => saturatingAdd total array.2) 0
  if allowance < localBytes then giveUp allowance (small.insertionSort largerFirst) localBytes
  else some (localBytes, [])

/-- One callee less for each caller. -/
def release : List Nat → (Nat → Nat) × List Nat → Option ((Nat → Nat) × List Nat)
  | [], state => some state
  | caller :: callers, (pending, queue) => do
    let count ← checkedSub (pending caller) 1
    release callers (Function.update pending caller count, if count = 0 then queue ++ [caller] else queue)

/-- A function whose callees have all been visited. -/
def visitFunction (state : Promotions) (function : Nat) (queue : List Nat) : Option Promotions := do
  let plan := plans function
  let calleeBytes := (plan.callees.map state.pathBytes).foldr max 0
  let allowance := MAX_LOCAL_FIXED_ARRAY_PATH_BYTES - calleeBytes
  let (localBytes, given) ← shrink allowance plan.small
  let (pending, queue) ← release (callers plans functionCount function) (state.pendingCallees, queue)
  pure {
    promoted := Function.update state.promoted function (state.promoted function ++ given)
    pendingCallees := pending
    queue := queue
    pathBytes := Function.update state.pathBytes function (saturatingAdd calleeBytes localBytes)
    processed := Function.update state.processed function true }

/-- The traversal, over at most `fuel` functions. -/
def visitFunctions : Nat → Promotions → Option Promotions
  | 0, state => if state.queue.isEmpty then some state else none
  | fuel + 1, state =>
    match state.queue with
    | [] => some state
    | function :: queue => do
      visitFunctions fuel (← visitFunction plans functionCount state function queue)

end Visits

section Program

variable (program : Program) (order : SetOrder)

def functionPlan (function : Nat) : FunctionArrayPlan :=
  match program.functions[function]? with
  | some function => planFunction program order function
  | none => ⟨[], []⟩

def functionLarge (function : Nat) : List LocalId :=
  match program.functions[function]? with
  | some function => largeArrays program.types function
  | none => []

def startPromotions : Promotions where
  promoted := functionLarge program
  pendingCallees function := (functionPlan program order function).callees.length
  queue := (List.range program.functions.length).filter fun function =>
    (functionPlan program order function).callees.length = 0
  pathBytes _ := 0
  processed _ := false

/-- `fixed_array_promotions`: the locals of each function that are promoted. -/
def fixedArrayPromotions : Option (List (List LocalId)) := do
  let state ← visitFunctions (functionPlan program order) program.functions.length
    program.functions.length (startPromotions program order)
  pure ((List.range program.functions.length).map fun function =>
    if state.processed function then state.promoted function
    else state.promoted function ++ (functionPlan program order function).small.map Prod.fst)

end Program

end Onda.Mir
