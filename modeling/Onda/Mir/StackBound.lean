import Mathlib.Algebra.Order.BigOperators.Group.List
import Mathlib.Logic.Relation
import Mathlib.Tactic.Common
import Onda.Lib.CyclePath
import Onda.Mir.Minimal
import Onda.Mir.StackBudget

/-!
# The stack budget holds

What the traversal keeps: the functions that have been visited call visited functions only,
each fits with its deepest callee into the budget, and the functions that wait for callees
are counted right.  A function that is never visited is on a cycle or calls into one, and all
its arrays are promoted.
-/

namespace Onda.Mir

/-! ### Arrays that are given up -/

/-- The bytes of some arrays. -/
def sumBytes (arrays : List (LocalId × Nat)) : Nat := (arrays.map Prod.snd).sum

/-- The bytes of the arrays that are not promoted. -/
def keptBytes (promoted : List LocalId) (arrays : List (LocalId × Nat)) : Nat :=
  sumBytes (arrays.filter fun array => array.1 ∉ promoted)

theorem sumBytes_cons (array : LocalId × Nat) (arrays : List (LocalId × Nat)) :
    sumBytes (array :: arrays) = array.2 + sumBytes arrays := by
  rw [sumBytes, List.map_cons, List.sum_cons, ← sumBytes]

variable {arrays first second : List (LocalId × Nat)}

theorem sumBytes_perm (perm : first.Perm second) :
    sumBytes first = sumBytes second :=
  (perm.map Prod.snd).sum_eq

theorem keptBytes_perm (promoted : List LocalId) (perm : first.Perm second)
    : keptBytes promoted first = keptBytes promoted second :=
  sumBytes_perm (perm.filter _)

theorem keptBytes_congr {first second : List LocalId}
    (same : ∀ array ∈ arrays, array.1 ∈ first ↔ array.1 ∈ second) :
    keptBytes first arrays = keptBytes second arrays := by
  rw [keptBytes, keptBytes]
  congr 1
  exact List.filter_congr fun array among => by simp [same array among]

theorem keptBytes_nil (arrays : List (LocalId × Nat)) : keptBytes [] arrays = sumBytes arrays := by
  rw [keptBytes, List.filter_eq_self.2 fun array _ => by simp]

theorem keptBytes_cons_of_mem {promoted : List LocalId} {array : LocalId × Nat}
    (among : array.1 ∈ promoted) :
    keptBytes promoted (array :: arrays) = keptBytes promoted arrays := by
  rw [keptBytes, List.filter_cons_of_neg (by simpa using among), ← keptBytes]

/-- Without overflow the sum of the bytes is their sum. -/
theorem foldl_saturatingAdd {total : Nat} (fits : total + sumBytes arrays ≤ U64_MAX) :
    arrays.foldl (fun total array => saturatingAdd total array.2) total = total + sumBytes arrays := by
  induction arrays generalizing total with
  | nil => rfl
  | cons array arrays ih =>
    rw [sumBytes_cons] at fits ⊢
    have exact : saturatingAdd total array.2 = total + array.2 := by
      rw [saturatingAdd, min_eq_left (by omega)]
    rw [List.foldl_cons, exact, ih (by omega), Nat.add_assoc]

theorem checkedSub_eq {first second : Nat} (fits : second ≤ first) :
    checkedSub first second = some (first - second) :=
  if_pos fits

/-- Giving up arrays never takes more than there is, and ends within the allowance. -/
theorem giveUp_spec (distinct : (arrays.map Prod.fst).Nodup) (allowance : Nat) :
    ∃ given, giveUp allowance arrays (sumBytes arrays) = some (keptBytes given arrays, given)
      ∧ keptBytes given arrays ≤ allowance ∧ ∀ id ∈ given, id ∈ arrays.map Prod.fst := by
  induction arrays with
  | nil => exact ⟨[], rfl, Nat.zero_le _, by simp⟩
  | cons array arrays ih =>
    rw [List.map_cons, List.nodup_cons] at distinct
    rw [giveUp]
    by_cases fits : sumBytes (array :: arrays) ≤ allowance
    · rw [if_pos fits]
      exact ⟨[], by rw [keptBytes_nil], by rwa [keptBytes_nil], by simp⟩
    · obtain ⟨given, run, within, known⟩ := ih distinct.2
      have left : checkedSub (sumBytes (array :: arrays)) array.2 = some (sumBytes arrays) := by
        rw [sumBytes_cons, checkedSub_eq (Nat.le_add_right _ _), Nat.add_sub_cancel_left]
      have kept : keptBytes (array.1 :: given) (array :: arrays) = keptBytes given arrays := by
        rw [keptBytes_cons_of_mem List.mem_cons_self]
        refine keptBytes_congr fun other among => ?_
        have apart : other.1 ≠ array.1 := fun same =>
          distinct.1 (same ▸ List.mem_map_of_mem among)
        simp [apart]
      refine ⟨array.1 :: given, ?_, by rwa [kept], ?_⟩
      · rw [if_neg fits, left, kept]
        show (giveUp allowance arrays (sumBytes arrays) >>= _) = _
        rw [run]
        rfl
      · intro id among
        rcases List.mem_cons.1 among with rfl | among
        · exact List.mem_cons_self
        · exact List.mem_cons_of_mem _ (known id among)

/-! ### Callers -/

/-- Each caller has one callee less to wait for. -/
theorem release_spec {callers : List Nat} (distinct : callers.Nodup) (pending : Nat → Nat)
    (queue : List Nat) (waits : ∀ caller ∈ callers, 0 < pending caller) :
    ∃ pending', release callers (pending, queue)
        = some (pending', queue ++ callers.filter (pending · - 1 = 0))
      ∧ ∀ function, pending' function
        = if function ∈ callers then pending function - 1 else pending function := by
  induction callers generalizing pending queue with
  | nil => exact ⟨pending, by simp [release], by simp⟩
  | cons caller callers ih =>
    obtain ⟨fresh, distinct⟩ := List.nodup_cons.1 distinct
    let pending₁ := Function.update pending caller (pending caller - 1)
    have same : ∀ other ∈ callers, pending₁ other = pending other := by
      intro other among
      refine Function.update_of_ne ?_ _ _
      rintro rfl
      exact fresh among
    obtain ⟨pending', run, counts⟩ := ih distinct pending₁
      (if pending caller - 1 = 0 then queue ++ [caller] else queue) (fun other among => by
        rw [same other among]
        exact waits other (List.mem_cons_of_mem _ among))
    refine ⟨pending', ?_, fun function => ?_⟩
    · rw [release, checkedSub_eq (waits caller List.mem_cons_self)]
      show release callers (pending₁, _) = _
      rw [run]
      have filters : callers.filter (pending₁ · - 1 = 0) = callers.filter (pending · - 1 = 0) :=
        List.filter_congr fun other among => by rw [same other among]
      rw [filters]
      by_cases frees : pending caller - 1 = 0
      · simp [frees]
      · simp [frees]
    · rw [counts function]
      by_cases here : function = caller
      · subst here
        simp [fresh, pending₁]
      · by_cases among : function ∈ callers
        · simp [among, same function among]
        · simp [among, here, pending₁]

/-! ### The traversal -/

/-- What the plans of a program's functions promise. -/
structure Planned (functionCount : Nat) (plans : Nat → FunctionArrayPlan) (large : Nat → List LocalId) :
    Prop where
  callees_nodup : ∀ function, (plans function).callees.Nodup
  callees_lt : ∀ function, ∀ callee ∈ (plans function).callees, callee < functionCount
  outside : ∀ function, functionCount ≤ function → (plans function).callees = []
  small_nodup : ∀ function, ((plans function).small.map Prod.fst).Nodup
  fits : ∀ function, sumBytes (plans function).small ≤ U64_MAX
  apart : ∀ function, ∀ array ∈ (plans function).small, array.1 ∉ large function

section Traversal

variable {functionCount : Nat} {plans : Nat → FunctionArrayPlan} {large : Nat → List LocalId}

variable {callees done : List Nat} {function : Nat} {bytes : Nat → Nat}

theorem mem_callers {caller : Nat} :
    caller ∈ callers plans functionCount function
      ↔ caller < functionCount ∧ function ∈ (plans caller).callees := by
  simp only [callers, List.mem_flatMap, List.mem_range, List.mem_map, List.mem_filter,
    decide_eq_true_eq]
  constructor
  · rintro ⟨other, inside, callee, ⟨among, rfl⟩, rfl⟩
    exact ⟨inside, among⟩
  · rintro ⟨inside, among⟩
    exact ⟨caller, inside, function, ⟨among, rfl⟩, rfl⟩

theorem nodup_callers (planned : Planned functionCount plans large) (function : Nat) :
    (callers plans functionCount function).Nodup := by
  refine List.nodup_flatMap.2 ⟨fun caller _ => ?_, ?_⟩
  · have once : ((plans caller).callees.filter (· = function)).length ≤ 1 := by
      have distinct := (planned.callees_nodup caller).filter (· = function)
      have only : (plans caller).callees.filter (· = function) ⊆ [function] := by
        intro callee among
        simpa using (List.mem_filter.1 among).2
      exact (List.subperm_of_subset distinct only).length_le
    match held : (plans caller).callees.filter (· = function), once with
    | [], _ => exact .nil
    | [_], _ => exact List.nodup_singleton _
  · refine List.Pairwise.imp ?_ List.nodup_range
    intro first second apart caller here there
    obtain ⟨_, -, rfl⟩ := List.mem_map.1 here
    obtain ⟨_, -, same⟩ := List.mem_map.1 there
    exact apart same.symm

/-- The callees of a function that are still to be visited. -/
def openCallees (plans : Nat → FunctionArrayPlan) (done : List Nat) (function : Nat) : Nat :=
  ((plans function).callees.filter (· ∉ done)).length

/-- A visited function fits into the budget, with the deepest of its callees. -/
structure Settled (plans : Nat → FunctionArrayPlan) (state : Promotions) (done : List Nat)
    (function : Nat) : Prop where
  callees : ∀ callee ∈ (plans function).callees, callee ∈ done
    ∧ keptBytes (state.promoted function) (plans function).small + state.pathBytes callee
      ≤ state.pathBytes function
  kept : keptBytes (state.promoted function) (plans function).small ≤ state.pathBytes function
  budget : state.pathBytes function ≤ MAX_LOCAL_FIXED_ARRAY_PATH_BYTES
  ends : Acc (fun callee caller => callee ∈ (plans caller).callees) function

/-- What the traversal keeps. -/
structure Visiting (functionCount : Nat) (plans : Nat → FunctionArrayPlan)
    (large : Nat → List LocalId) (state : Promotions) (done : List Nat) : Prop where
  distinct : (done ++ state.queue).Nodup
  inside : ∀ function ∈ done ++ state.queue, function < functionCount
  processed : ∀ function, state.processed function = true ↔ function ∈ done
  counts : ∀ function, state.pendingCallees function = openCallees plans done function
  free : ∀ function ∈ done ++ state.queue, state.pendingCallees function = 0
  settled : ∀ function ∈ done, Settled plans state done function
  first : ∀ function, large function ⊆ state.promoted function
  untouched : ∀ function, function ∉ done → state.promoted function = large function

theorem openCallees_concat (planned : Planned functionCount plans large) (fresh : function ∉ done)
    (caller : Nat) :
    openCallees plans done caller = openCallees plans (done ++ [function]) caller
      + if function ∈ (plans caller).callees then 1 else 0 := by
  have distinct := planned.callees_nodup caller
  unfold openCallees
  generalize (plans caller).callees = callees at distinct ⊢
  induction callees with
  | nil => simp
  | cons callee callees ih =>
    obtain ⟨new, distinct⟩ := List.nodup_cons.1 distinct
    have rest := ih distinct
    by_cases here : callee = function
    · subst here
      rw [if_neg new, Nat.add_zero] at rest
      rw [List.filter_cons_of_pos (by simpa using fresh), List.filter_cons_of_neg (by simp),
        if_pos List.mem_cons_self, List.length_cons, rest]
    · have calls : (function ∈ callee :: callees) = (function ∈ callees) := by
        simp [Ne.symm here]
      simp only [calls]
      by_cases known : callee ∈ done
      · rw [List.filter_cons_of_neg (by simpa using known),
          List.filter_cons_of_neg (by simp [known]), rest]
      · rw [List.filter_cons_of_pos (by simpa using known),
          List.filter_cons_of_pos (by simp [known, here]), List.length_cons, List.length_cons, rest]
        omega

/-- A function that waits for nothing calls visited functions only. -/
theorem mem_of_openCallees (none : openCallees plans done function = 0)
    : ∀ callee ∈ (plans function).callees, callee ∈ done := by
  intro callee among
  rw [openCallees, List.length_eq_zero_iff, List.filter_eq_nil_iff] at none
  simpa using none callee among

/-- The deepest callee. -/
theorem le_foldr_max {callee : Nat} (among : callee ∈ callees) :
    bytes callee ≤ (callees.map bytes).foldr max 0 := by
  induction callees with
  | nil => cases among
  | cons first callees ih =>
    rw [List.map_cons, List.foldr_cons]
    rcases List.mem_cons.1 among with rfl | among
    · exact Nat.le_max_left _ _
    · exact (ih among).trans (Nat.le_max_right _ _)

theorem foldr_max_le {bound : Nat} (all : ∀ callee ∈ callees, bytes callee ≤ bound)
    : (callees.map bytes).foldr max 0 ≤ bound := by
  induction callees with
  | nil => exact Nat.zero_le _
  | cons first callees ih =>
    rw [List.map_cons, List.foldr_cons]
    exact Nat.max_le.2 ⟨all first (by simp), ih fun callee among => all callee (by simp [among])⟩

/-- A function gives up enough. -/
theorem shrink_spec (planned : Planned functionCount plans large) (function allowance : Nat) :
    ∃ given, shrink allowance (plans function).small
        = some (keptBytes given (plans function).small, given)
      ∧ keptBytes given (plans function).small ≤ allowance := by
  have whole : (plans function).small.foldl (fun total array => saturatingAdd total array.2) 0
      = sumBytes (plans function).small := by
    rw [foldl_saturatingAdd (by rw [Nat.zero_add]; exact planned.fits function), Nat.zero_add]
  rw [shrink, whole]
  by_cases exceeds : allowance < sumBytes (plans function).small
  · have perm := List.perm_insertionSort largerFirst (plans function).small
    obtain ⟨given, run, within, -⟩ :=
      giveUp_spec ((perm.map Prod.fst).nodup_iff.2 (planned.small_nodup function)) allowance
    rw [sumBytes_perm perm, keptBytes_perm given perm] at run
    rw [keptBytes_perm given perm] at within
    exact ⟨given, by rw [if_pos exceeds, run], within⟩
  · exact ⟨[], by rw [if_neg exceeds, keptBytes_nil], by rw [keptBytes_nil]; omega⟩

/-- A visit keeps what the traversal keeps, and the function has been visited. -/
theorem visit_spec (planned : Planned functionCount plans large) {state : Promotions}
    {queue : List Nat} (visiting : Visiting functionCount plans large state done)
    (next : state.queue = function :: queue) :
    ∃ state', visitFunction plans functionCount state function queue = some state'
      ∧ Visiting functionCount plans large state' (done ++ [function]) := by
  have distinct := visiting.distinct
  rw [next] at distinct
  have fresh : function ∉ done := fun among =>
    (List.nodup_append.1 distinct).2.2 function among function List.mem_cons_self rfl
  have known : function ∈ done ++ state.queue := by simp [next]
  have callees := mem_of_openCallees ((visiting.counts function).symm.trans (visiting.free function known))
  let calleeBytes := ((plans function).callees.map state.pathBytes).foldr max 0
  have deepest : calleeBytes ≤ MAX_LOCAL_FIXED_ARRAY_PATH_BYTES :=
    foldr_max_le fun callee among => (visiting.settled callee (callees callee among)).budget
  obtain ⟨given, shrinks, within⟩ :=
    shrink_spec planned function (MAX_LOCAL_FIXED_ARRAY_PATH_BYTES - calleeBytes)
  have waits : ∀ caller ∈ callers plans functionCount function, 0 < state.pendingCallees caller := by
    intro caller among
    rw [visiting.counts, openCallees_concat planned fresh, if_pos (mem_callers.1 among).2]
    omega
  obtain ⟨pending, releases, counts⟩ :=
    release_spec (nodup_callers planned function) state.pendingCallees queue waits
  let state' : Promotions := {
    promoted := Function.update state.promoted function (state.promoted function ++ given)
    pendingCallees := pending
    queue := queue ++ (callers plans functionCount function).filter (state.pendingCallees · - 1 = 0)
    pathBytes := Function.update state.pathBytes function
      (saturatingAdd calleeBytes (keptBytes given (plans function).small))
    processed := Function.update state.processed function true }
  refine ⟨state', ?_, ?_⟩
  · rw [visitFunction]
    dsimp only
    rw [show shrink (MAX_LOCAL_FIXED_ARRAY_PATH_BYTES
      - ((plans function).callees.map state.pathBytes).foldr max 0) (plans function).small = _ from shrinks]
    show (release _ _ >>= _) = _
    rw [releases]
    rfl
  have counts' : ∀ caller, state'.pendingCallees caller = openCallees plans (done ++ [function]) caller := by
    intro caller
    have before := openCallees_concat planned fresh caller
    rw [← visiting.counts caller] at before
    show pending caller = _
    rw [counts caller]
    by_cases among : caller ∈ callers plans functionCount function
    · rw [if_pos (mem_callers.1 among).2] at before
      rw [if_pos among, before, Nat.add_sub_cancel]
    · have other : function ∉ (plans caller).callees := by
        intro calls
        refine among (mem_callers.2 ⟨?_, calls⟩)
        by_contra outside
        rw [planned.outside caller (Nat.le_of_not_lt outside)] at calls
        cases calls
      rw [if_neg other, Nat.add_zero] at before
      rw [if_neg among, before]
  have perm : (done ++ [function] ++ state'.queue) = done ++ state.queue
      ++ (callers plans functionCount function).filter (state.pendingCallees · - 1 = 0) := by
    show done ++ [function] ++ (queue ++ _) = _
    rw [next]
    simp
  have apart : ∀ array ∈ (plans function).small, array.1 ∈ state.promoted function ++ given
      ↔ array.1 ∈ given := by
    intro array among
    rw [visiting.untouched function fresh, List.mem_append]
    exact or_iff_right (planned.apart function array among)
  have kept : keptBytes (state'.promoted function) (plans function).small
      = keptBytes given (plans function).small := by
    show keptBytes (Function.update state.promoted function _ function) _ = _
    rw [Function.update_self]
    exact keptBytes_congr apart
  have path : state'.pathBytes function = calleeBytes + keptBytes given (plans function).small := by
    show Function.update state.pathBytes function _ function = _
    rw [Function.update_self, saturatingAdd, min_eq_left]
    have : MAX_LOCAL_FIXED_ARRAY_PATH_BYTES ≤ U64_MAX := by decide
    omega
  have others : ∀ other ∈ done, state'.promoted other = state.promoted other
      ∧ state'.pathBytes other = state.pathBytes other := by
    intro other among
    have away : other ≠ function := fun same => fresh (same ▸ among)
    exact ⟨Function.update_of_ne away _ _, Function.update_of_ne away _ _⟩
  refine ⟨?_, ?_, ?_, counts', ?_, ?_, ?_, ?_⟩
  · rw [perm]
    refine List.nodup_append.2 ⟨visiting.distinct, (nodup_callers planned function).filter _, ?_⟩
    rintro caller here _ there rfl
    have zero := visiting.free caller here
    have positive := waits caller (List.mem_filter.1 there).1
    omega
  · intro other among
    rw [perm] at among
    rcases List.mem_append.1 among with among | among
    · exact visiting.inside other among
    · exact (mem_callers.1 (List.mem_filter.1 among).1).1
  · intro other
    by_cases same : other = function
    · subst same
      simp [state']
    · simp [state', same, visiting.processed]
  · intro other among
    rw [counts' other]
    rw [perm] at among
    have before := openCallees_concat planned fresh other
    rw [← visiting.counts other] at before
    rcases List.mem_append.1 among with among | among
    · have zero := visiting.free other among
      omega
    · obtain ⟨calls, frees⟩ := List.mem_filter.1 among
      rw [if_pos (mem_callers.1 calls).2] at before
      simp only [decide_eq_true_eq] at frees
      omega
  · intro other among
    rcases List.mem_append.1 among with among | here
    · obtain ⟨calls, small, budget, ends⟩ := visiting.settled other among
      rw [← (others other among).1, ← (others other among).2] at small
      refine ⟨fun callee held => ⟨List.mem_append_left _ (calls callee held).1, ?_⟩, small, ?_, ends⟩
      · rw [(others other among).1, (others other among).2, (others callee (calls callee held).1).2]
        exact (calls callee held).2
      · rw [(others other among).2]
        exact budget
    · obtain rfl := List.mem_singleton.1 here
      refine ⟨fun callee held => ⟨List.mem_append_left _ (callees callee held), ?_⟩, ?_, ?_,
        .intro other fun callee held => (visiting.settled callee (callees callee held)).ends⟩
      · rw [kept, path, (others callee (callees callee held)).2, Nat.add_comm]
        exact Nat.add_le_add_right (le_foldr_max held) _
      · rw [kept, path]
        exact Nat.le_add_left _ _
      · rw [path]
        omega
  · intro other id among
    by_cases same : other = function
    · subst same
      show id ∈ Function.update state.promoted other _ other
      rw [Function.update_self]
      exact List.mem_append_left _ (visiting.first other among)
    · show id ∈ Function.update state.promoted function _ other
      rw [Function.update_of_ne same]
      exact visiting.first other among
  · intro other unvisited
    rw [List.mem_append, not_or, List.mem_singleton] at unvisited
    show Function.update state.promoted function _ other = _
    rw [Function.update_of_ne unvisited.2, visiting.untouched other unvisited.1]

/-- The traversal comes to an end. -/
theorem visitFunctions_spec (planned : Planned functionCount plans large) (fuel : Nat) :
    ∀ (state : Promotions) (done : List Nat), Visiting functionCount plans large state done →
      functionCount ≤ fuel + done.length →
      ∃ state' done', visitFunctions plans functionCount fuel state = some state'
        ∧ Visiting functionCount plans large state' done' := by
  induction fuel with
  | zero =>
    intro state done visiting enough
    have empty : state.queue = [] := by
      have bound : (done ++ state.queue).length ≤ functionCount := by
        have inside : done ++ state.queue ⊆ List.range functionCount :=
          fun function among => List.mem_range.2 (visiting.inside function among)
        exact (List.subperm_of_subset visiting.distinct inside).length_le.trans_eq List.length_range
      rw [List.length_append] at bound
      exact List.eq_nil_of_length_eq_zero (by omega)
    exact ⟨state, done, by rw [visitFunctions, empty]; rfl, visiting⟩
  | succ fuel ih =>
    intro state done visiting enough
    rw [visitFunctions]
    cases next : state.queue with
    | nil => exact ⟨state, done, rfl, visiting⟩
    | cons function queue =>
      obtain ⟨state₁, visit, visiting₁⟩ := visit_spec planned visiting next
      obtain ⟨state', done', run, visiting'⟩ := ih state₁ _ visiting₁ (by
        rw [List.length_append, List.length_singleton]
        omega)
      refine ⟨state', done', ?_, visiting'⟩
      show (visitFunction plans functionCount state function queue >>= _) = _
      rw [visit]
      exact run

end Traversal

/-! ### Programs -/

section Program

variable (program : Program) (order : SetOrder)

/-- The bytes of an array of scalars, as a number without bounds. -/
def scalarArrayBytes (types : List MirType) (ty : TypeId) : Option Nat :=
  match types[ty]? with
  | some (.array element len) =>
    match types[element]? with
    | some (.scalar element) => some (len * element.logicalByteWidth)
    | _ => none
  | _ => none

/-- The arrays of scalars among the locals that a function refers to, with their bytes. -/
def scalarArrays (types : List MirType) (function : Function) : List (LocalId × Nat) :=
  function.locals.zipIdx.filterMap fun entry =>
    if entry.2 ∈ referencedLocals function.body then
      (scalarArrayBytes types entry.1.ty).map fun bytes => (entry.2, bytes)
    else none

/-- What 32-bit lengths and local ids can hold.  Validation allows `MAX_FUNCTION_LOCAL_COUNT`
locals, which is far less. -/
structure Representable : Prop where
  locals : ∀ function ∈ program.functions, function.locals.length ≤ 2 ^ 32
  lengths : ∀ ty ∈ program.types, ∀ element len, ty = .array element len → len < 2 ^ 32

/-- One function calls another one. -/
def Calls (caller callee : Nat) : Prop :=
  ∃ function, program.functions[caller]? = some function
    ∧ callee ∈ collectCallees program.functions.length function.body

/-- The arrays that stay in the native frame of a function. -/
def nativeArrays (promoted : List (List LocalId)) (function : Nat) : List (LocalId × Nat) :=
  match program.functions[function]? with
  | some body => (scalarArrays program.types body).filter fun array =>
      array.1 ∉ promoted.getD function []
  | none => []

variable {program}

theorem fixedArrayBytes_eq (representable : Representable program) (ty : TypeId) :
    fixedArrayBytes program.types ty = scalarArrayBytes program.types ty := by
  rw [fixedArrayBytes, scalarArrayBytes]
  cases found : program.types[ty]? with
  | none => rfl
  | some held =>
    cases held with
    | array element len =>
      have short := representable.lengths _ (List.mem_of_getElem? found) element len rfl
      cases inner : program.types[element]? with
      | none => simp [inner]
      | some held =>
        cases held with
        | scalar scalar =>
          have width : scalar.logicalByteWidth ≤ 8 := by cases scalar <;> decide
          have product : len * scalar.logicalByteWidth ≤ U64_MAX := by
            calc len * scalar.logicalByteWidth ≤ 2 ^ 32 * 8 := Nat.mul_le_mul short.le width
              _ ≤ U64_MAX := by decide
          simp only [inner, checkedMul, if_pos product]
        | _ => simp [inner]
    | _ => rfl

theorem referencedArrays_eq (representable : Representable program) {function : Function}
    (held : function ∈ program.functions) :
    referencedArrays program.types function = scalarArrays program.types function := by
  refine List.filterMap_congr fun entry among => ?_
  have bound : entry.2 < 2 ^ 32 := by
    have := (List.mem_zipIdx' among).1
    exact this.trans_le (representable.locals function held)
  rw [Nat.mod_eq_of_lt bound, fixedArrayBytes_eq representable]

/-- Arrays are numbered by their locals. -/
theorem nodup_scalarArrays (types : List MirType) (function : Function) :
    ((scalarArrays types function).map Prod.fst).Nodup := by
  have numbers : ((function.locals.zipIdx).map Prod.snd).Nodup := by
    rw [List.zipIdx_map_snd]
    exact List.nodup_range'
  refine numbers.sublist ?_
  rw [scalarArrays]
  induction function.locals.zipIdx with
  | nil => exact .slnil
  | cons entry entries ih =>
    rw [List.filterMap_cons]
    split
    case h_1 => exact ih.cons _
    case h_2 array here =>
      have same : array.1 = entry.2 := by
        split at here
        · obtain ⟨bytes, -, rfl⟩ := Option.map_eq_some_iff.1 here
          rfl
        · cases here
      rw [List.map_cons, List.map_cons, same]
      exact ih.cons_cons _

theorem length_scalarArrays (types : List MirType) (function : Function) :
    (scalarArrays types function).length ≤ function.locals.length :=
  (List.length_filterMap_le _ _).trans_eq List.length_zipIdx

mutual

theorem lt_of_mem_statementCallees {functionCount : Nat} (statement : Statement) {callee : Nat}
    (among : callee ∈ statementCallees functionCount statement) : callee < functionCount := by
  cases statement with
  | op operation =>
    cases operation with
    | call results function args =>
      rw [statementCallees] at among
      split at among
      case isTrue inside => exact List.mem_singleton.1 among ▸ inside
      case isFalse => cases among
    | _ => simp [statementCallees] at among
  | ite condition thenBlock elseBlock =>
    rw [statementCallees] at among
    rcases List.mem_append.1 among with among | among
    · exact lt_of_mem_collectCallees thenBlock among
    · exact lt_of_mem_collectCallees elseBlock among
  | loop body =>
    rw [statementCallees] at among
    exact lt_of_mem_collectCallees body among
  | _ => simp [statementCallees] at among

theorem lt_of_mem_collectCallees {functionCount : Nat} (block : Block) {callee : Nat}
    (among : callee ∈ collectCallees functionCount block) : callee < functionCount := by
  cases block with
  | nil => simp [collectCallees] at among
  | cons statement rest =>
    rw [collectCallees] at among
    rcases List.mem_append.1 among with among | among
    · exact lt_of_mem_statementCallees statement among
    · exact lt_of_mem_collectCallees rest among

end

variable (program)

theorem mem_callees {caller callee : Nat} :
    callee ∈ (functionPlan program order caller).callees ↔ Calls program caller callee := by
  rw [functionPlan, Calls]
  cases found : program.functions[caller]? with
  | none => simp
  | some function =>
    dsimp only
    rw [planFunction, (order.perm _).mem_iff, List.mem_dedup]
    simp

variable {program}

theorem sumBytes_le {arrays : List (LocalId × Nat)} {bound : Nat}
    (all : ∀ array ∈ arrays, array.2 ≤ bound) : sumBytes arrays ≤ arrays.length * bound := by
  induction arrays with
  | nil => exact Nat.zero_le _
  | cons array arrays ih =>
    rw [sumBytes_cons, List.length_cons, Nat.succ_mul, Nat.add_comm]
    exact Nat.add_le_add (ih fun other among => all other (by simp [among])) (all array (by simp))

theorem program_planned (representable : Representable program) :
    Planned program.functions.length (functionPlan program order) (functionLarge program) where
  callees_nodup caller := by
    rw [functionPlan]
    cases program.functions[caller]? with
    | none => exact .nil
    | some function => exact (order.perm _).nodup_iff.2 (List.nodup_dedup _)
  callees_lt caller callee among := by
    obtain ⟨function, -, calls⟩ := (mem_callees program order).1 among
    exact lt_of_mem_collectCallees _ calls
  outside caller beyond := by
    rw [functionPlan, List.getElem?_eq_none beyond]
  small_nodup caller := by
    rw [functionPlan]
    cases found : program.functions[caller]? with
    | none => exact .nil
    | some function =>
      dsimp only
      rw [planFunction, referencedArrays_eq representable (List.mem_of_getElem? found)]
      exact (nodup_scalarArrays _ _).sublist (List.filter_sublist.map _)
  fits caller := by
    rw [functionPlan]
    cases found : program.functions[caller]? with
    | none => exact Nat.zero_le _
    | some function =>
      dsimp only
      rw [planFunction, referencedArrays_eq representable (List.mem_of_getElem? found)]
      refine (sumBytes_le fun array among => of_decide_eq_true (List.mem_filter.1 among).2).trans ?_
      have count := (length_scalarArrays program.types function).trans
        (representable.locals function (List.mem_of_getElem? found))
      refine (Nat.mul_le_mul_right _ ((List.length_filter_le _ _).trans count)).trans ?_
      decide
  apart caller array among := by
    rw [functionPlan] at among
    rw [functionLarge]
    cases found : program.functions[caller]? with
    | none => simp
    | some function =>
      rw [found] at among
      dsimp only at among ⊢
      rw [planFunction] at among
      rw [largeArrays]
      intro large
      obtain ⟨other, held, same⟩ := List.mem_map.1 large
      obtain ⟨inside, big⟩ := List.mem_filter.1 held
      obtain ⟨inside', small⟩ := List.mem_filter.1 among
      rw [referencedArrays_eq representable (List.mem_of_getElem? found)] at inside inside'
      have equal := List.inj_on_of_nodup_map (nodup_scalarArrays program.types function) inside inside' same
      rw [equal] at big
      simp only [decide_eq_true_eq] at big small
      omega

theorem start_visiting :
    Visiting program.functions.length (functionPlan program order) (functionLarge program)
      (startPromotions program order) [] where
  distinct := List.nodup_range.filter _
  inside function among := List.mem_range.1 (List.mem_filter.1 among).1
  processed function := by simp [startPromotions]
  counts function := by
    rw [openCallees, List.filter_eq_self.2 fun callee _ => by simp]
    rfl
  free function among := of_decide_eq_true (List.mem_filter.1 among).2
  settled function among := by cases among
  first function := List.Subset.refl _
  untouched function _ := rfl

/-! ### The budget -/

/-- The result: what is promoted in the functions that have been visited, and everything in
the others. -/
theorem promotions_spec (representable : Representable program) :
    ∃ promoted state done, fixedArrayPromotions program order = some promoted
      ∧ Visiting program.functions.length (functionPlan program order) (functionLarge program) state done
      ∧ promoted.length = program.functions.length
      ∧ ∀ function, function < program.functions.length → promoted.getD function []
        = if function ∈ done then state.promoted function
          else state.promoted function ++ (functionPlan program order function).small.map Prod.fst := by
  obtain ⟨state, done, run, visiting⟩ := visitFunctions_spec (program_planned order representable)
    program.functions.length _ _ (start_visiting order) (Nat.le_add_right _ _)
  refine ⟨(List.range program.functions.length).map fun function =>
      if state.processed function then state.promoted function
      else state.promoted function ++ (functionPlan program order function).small.map Prod.fst,
    state, done, ?_, visiting, by rw [List.length_map, List.length_range], fun function inside => ?_⟩
  · rw [fixedArrayPromotions, run]
    rfl
  · rw [List.getD_eq_getElem?_getD, List.getElem?_map, List.getElem?_range inside]
    simp only [Option.map_some, Option.getD_some, visiting.processed]

variable {order}

/-- What stays native is small, and in a function that has not been visited nothing does. -/
theorem nativeArrays_eq (representable : Representable program) {promoted : List (List LocalId)}
    {state : Promotions} {done : List Nat}
    (visiting : Visiting program.functions.length (functionPlan program order) (functionLarge program)
      state done)
    (same : ∀ function, function < program.functions.length → promoted.getD function []
      = if function ∈ done then state.promoted function
        else state.promoted function ++ (functionPlan program order function).small.map Prod.fst)
    (function : Nat) : nativeArrays program promoted function
      = if function ∈ done then (functionPlan program order function).small.filter fun array =>
          array.1 ∉ state.promoted function
        else [] := by
  rw [nativeArrays]
  cases found : program.functions[function]? with
  | none =>
    have outside : function ∉ done := by
      intro among
      have := visiting.inside function (List.mem_append_left _ among)
      rw [List.getElem?_eq_none_iff] at found
      omega
    rw [if_neg outside]
  | some body =>
    have inside : function < program.functions.length := (List.getElem?_eq_some_iff.1 found).1
    have held := List.mem_of_getElem? found
    dsimp only
    have small : (functionPlan program order function).small
        = (scalarArrays program.types body).filter fun array =>
          array.2 ≤ MAX_LOCAL_FIXED_ARRAY_BYTES := by
      rw [functionPlan, found]
      dsimp only
      rw [planFunction, referencedArrays_eq representable held]
    have large : ∀ array ∈ scalarArrays program.types body,
        ¬array.2 ≤ MAX_LOCAL_FIXED_ARRAY_BYTES → array.1 ∈ state.promoted function := by
      intro array among big
      refine visiting.first function ?_
      rw [functionLarge, found]
      dsimp only
      rw [largeArrays, referencedArrays_eq representable held]
      exact List.mem_map_of_mem (List.mem_filter.2 ⟨among, by simpa using big⟩)
    rw [same function inside]
    by_cases visited : function ∈ done
    · rw [if_pos visited, if_pos visited, small, List.filter_filter]
      refine List.filter_congr fun array among => ?_
      by_cases fits : array.2 ≤ MAX_LOCAL_FIXED_ARRAY_BYTES
      · simp [fits]
      · simp [fits, large array among fits]
    · rw [if_neg visited, if_neg visited, List.filter_eq_nil_iff]
      intro array among
      rw [decide_eq_true_eq, not_not, List.mem_append]
      by_cases fits : array.2 ≤ MAX_LOCAL_FIXED_ARRAY_BYTES
      · exact .inr (List.mem_map_of_mem (small ▸ List.mem_filter.2 ⟨among, decide_eq_true fits⟩))
      · exact .inl (large array among fits)

/-- In every program the accounting never goes below zero and comes to an end, arrays that stay
native are small, they fit into the budget along each call path, and none stays native where a
cycle of calls can be reached. -/
theorem stack_budget (representable : Representable program) (order : SetOrder) :
    ∃ promoted, fixedArrayPromotions program order = some promoted
      ∧ promoted.length = program.functions.length
      ∧ (∀ function, ∀ array ∈ nativeArrays program promoted function,
        array.2 ≤ MAX_LOCAL_FIXED_ARRAY_BYTES)
      ∧ (∀ path : List Nat, path.IsChain (Calls program) →
        (path.map fun function => sumBytes (nativeArrays program promoted function)).sum
          ≤ MAX_LOCAL_FIXED_ARRAY_PATH_BYTES)
      ∧ ∀ function around, Relation.ReflTransGen (Calls program) function around →
        Relation.TransGen (Calls program) around around →
        nativeArrays program promoted function = [] := by
  obtain ⟨promoted, state, done, run, visiting, length, same⟩ := promotions_spec order representable
  have native := nativeArrays_eq representable visiting same
  refine ⟨promoted, run, length, fun function array among => ?_, fun path => ?_,
    fun function around reaches cycle => ?_⟩
  · rw [native] at among
    split at among
    case isFalse => cases among
    case isTrue =>
      have small := (List.mem_filter.1 among).1
      rw [functionPlan] at small
      cases found : program.functions[function]? with
      | none => simp [found] at small
      | some body =>
        rw [found] at small
        exact of_decide_eq_true (List.mem_filter.1 small).2
  · -- a path that begins at a visited function stays within what that function has accounted for
    have visited : ∀ path : List Nat, path.IsChain (Calls program) → ∀ function ∈ path.head?,
        function ∈ done →
        (path.map fun function => sumBytes (nativeArrays program promoted function)).sum
          ≤ state.pathBytes function := by
      intro path
      induction path with
      | nil => simp
      | cons function path ih =>
        intro chain first head among
        obtain rfl : function = first := by simpa using head
        have settled := visiting.settled function among
        have kept : sumBytes (nativeArrays program promoted function)
            = keptBytes (state.promoted function) (functionPlan program order function).small := by
          rw [native, if_pos among, keptBytes]
        rw [List.map_cons, List.sum_cons, kept]
        cases path with
        | nil => simpa using settled.kept
        | cons callee path =>
          obtain ⟨calls, chain⟩ := List.isChain_cons_cons.1 chain
          obtain ⟨known, fits⟩ := settled.callees callee ((mem_callees program order).2 calls)
          exact (Nat.add_le_add_left (ih chain callee rfl known) _).trans fits
    induction path with
    | nil => exact fun _ => Nat.zero_le _
    | cons function path ih =>
      intro chain
      by_cases among : function ∈ done
      · exact (visited _ chain function rfl among).trans (visiting.settled function among).budget
      · rw [List.map_cons, List.sum_cons, native, if_neg among]
        exact (Nat.zero_add _).le.trans (ih chain.tail)
  · rw [native, if_neg]
    intro among
    have same : (fun callee caller => callee ∈ (functionPlan program order caller).callees)
        = fun callee caller => Calls program caller callee := by
      funext callee caller
      exact propext (mem_callees program order)
    have ends := (visiting.settled function among).ends
    rw [same] at ends
    have around_ends : Acc (fun callee caller => Calls program caller callee) around := by
      clear cycle
      induction reaches with
      | refl => exact ends
      | tail _ arc ih => exact ih.inv arc
    exact CyclePath.not_cycle_of_acc around_ends cycle

end Program

/-- The first element of an array of 64 floats is set. -/
def setFirst : Statement :=
  .op (.assign ⟨.localVar 0, [.index (.i32 0) .clamp]⟩ (.use (.constant (.f32 0))))

/-- A `Process` with an array of 256 bytes calls a function that has another one. -/
def arrayProcess : Program :=
  .minimal [.array 1 64] {} [{ ty := 2 }] [setFirst, .op (.call [] 2 [])]
    [{ name := "leaf", kind := .user, locals := [{ ty := 2 }], body := [setFirst] }]

theorem stack_budget_arrayProcess : Representable arrayProcess
    ∧ ∃ promoted, fixedArrayPromotions arrayProcess ⟨id, fun _ => .refl _⟩ = some promoted
      ∧ promoted.length = arrayProcess.functions.length := by
  have representable : Representable arrayProcess := {
    locals := by decide
    lengths := by
      intro ty among element len same
      subst same
      simp only [arrayProcess, Program.minimal, List.cons_append, List.nil_append, List.mem_cons,
        reduceCtorEq, MirType.array.injEq, List.not_mem_nil, or_false, false_or] at among
      omega }
  obtain ⟨promoted, run, length, -⟩ := stack_budget representable ⟨id, fun _ => .refl _⟩
  exact ⟨representable, promoted, run, length⟩

end Onda.Mir
