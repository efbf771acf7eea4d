import Mathlib.Order.WellFounded
import Mathlib.Order.RelClasses
import Onda.Mir.Minimal

/-!
# Fixed aggregates

What `validateFixedAggregateTypes` decides about a type table.  The abstract side
has two parts: `Contains`, the direct containment of types, and `HasSize`, the
size of a type as a natural number, which a type has when all that it is made of
is scalars.

The passes over the table resolve a type after its components.  A type that was
resolved keeps its size, and its size is justified by the sizes of its
components (`Justified`); a type that is never resolved has a component that is
never resolved, so it belongs to an infinite chain of containments, which in a
finite table is a cycle.

A component reference outside the table is reported elsewhere.  A type with such
a reference counts as resolved, so it does not contain anything here.
-/

namespace Onda.Mir.Validate

section Meaning

variable (program : Program)

/-- A type directly contains another one.  A type with a reference outside the
table is not looked into. -/
def Contains (index component : TypeId) : Prop :=
  ∃ ty, program.types[index]? = some ty ∧ component ∈ componentTypes program ty
    ∧ ∀ other ∈ componentTypes program ty, other < program.types.length

/-- The size of a type when a scalar has the given weight, as a natural number.
Types with slices or buffers in them have none. -/
inductive HasSize (weight : ScalarType → Nat) : TypeId → Nat → Prop
  | scalar {index : TypeId} {scalar : ScalarType}
      (declared : program.types[index]? = some (.scalar scalar)) :
      HasSize weight index (weight scalar)
  | array {index element : TypeId} {len size : Nat}
      (declared : program.types[index]? = some (.array element len))
      (sized : HasSize weight element size) : HasSize weight index (size * len)
  | tuple {index : TypeId} {elements : List TypeId} (size : TypeId → Nat)
      (declared : program.types[index]? = some (.tuple elements))
      (sized : ∀ element ∈ elements, HasSize weight element (size element)) :
      HasSize weight index (elements.map size).sum
  | struct {index : TypeId} {definition : StructId} {declaration : StructType}
      (size : TypeId → Nat) (declared : program.types[index]? = some (.struct definition))
      (found : program.structs[definition]? = some declaration)
      (sized : ∀ field ∈ declaration.fields.map (·.ty), HasSize weight field (size field)) :
      HasSize weight index ((declaration.fields.map (·.ty)).map size).sum

/-- Every struct type refers to a declared struct. -/
def StructsDeclared : Prop :=
  ∀ (index : TypeId) (definition : StructId),
    program.types[index]? = some (.struct definition) → definition < program.structs.length

end Meaning

variable {program : Program}

/-! ### Checked arithmetic -/

/-- Checked addition along a list gives the sum if that is a `u64`. -/
theorem checkedSum_eq (size : TypeId → Nat) : ∀ (elements : List TypeId) {start : Nat},
    start < 2 ^ 64 →
    elements.foldlM (fun total element => checkedAddU64 total (size element)) start
      = if start + (elements.map size).sum < 2 ^ 64 then some (start + (elements.map size).sum)
        else none
  | [], start, small => by
    rw [List.map_nil, List.sum_nil, Nat.add_zero, if_pos small, List.foldlM_nil]
    rfl
  | element :: rest, start, small => by
    rw [List.foldlM_cons, checkedAddU64, List.map_cons, List.sum_cons]
    split
    case isTrue fits =>
      rw [Option.bind_eq_bind, Option.bind_some, checkedSum_eq size rest fits, Nat.add_assoc]
    case isFalse large =>
      rw [Option.bind_eq_bind, Option.bind_none, if_neg (by omega)]

/-- The size of an aggregate from the sizes of its components, without a bound. -/
def exactSize (program : Program) (size : TypeId → Nat) : MirType → Nat
  | .array element len => size element * len
  | ty => ((componentTypes program ty).map size).sum

/-- A component's bytes as the passes know them. -/
def bytesAt (sizes : List LogicalSize) (component : TypeId) : Nat :=
  (sizes.getD component .invalid).bytes

variable {sizes : List LogicalSize} {errors : List String} {size : LogicalSize} {ty : MirType}
  {pass : SizePass} {P : SizePass → Prop} {index : TypeId}

/-- **The size arithmetic does not wrap**: it gives the exact size or nothing. -/
theorem aggregateBytes_eq (sizes : List LogicalSize) (aggregate : initialSize ty = .pending)
    (declared : ∀ definition, ty = .struct definition → definition < program.structs.length) :
    aggregateBytes program sizes ty
      = if exactSize program (bytesAt sizes) ty < 2 ^ 64
        then some (exactSize program (bytesAt sizes) ty) else none := by
  cases ty with
  | scalar | slice | buffer | bufferSpan => cases aggregate
  | tuple elements =>
    have sum := @checkedSum_eq (bytesAt sizes) elements 0 (by norm_num)
    rw [Nat.zero_add] at sum
    exact sum
  | array element len => rfl
  | struct definition =>
    have inRange := declared definition rfl
    have found := List.getElem?_eq_getElem inRange
    have sum := @checkedSum_eq (bytesAt sizes)
      (program.structs[definition].fields.map (·.ty)) 0 (by norm_num)
    rw [Nat.zero_add] at sum
    simp only [aggregateBytes, found, Option.bind_eq_bind, Option.bind_some, exactSize,
      componentTypes]
    exact sum

/-- A struct that is not declared has no size. -/
theorem aggregateBytes_undeclared {definition : StructId}
    (missing : program.structs.length ≤ definition) :
    aggregateBytes program sizes (.struct definition) = none := by
  simp [aggregateBytes, List.getElem?_eq_none missing]

/-- The exact size of an aggregate of sized components is its size. -/
theorem hasSize_exactSize {weight : ScalarType → Nat} {size : TypeId → Nat}
    (found : program.types[index]? = some ty) (aggregate : initialSize ty = .pending)
    (declared : ∀ definition, ty = .struct definition → definition < program.structs.length)
    (sized : ∀ component ∈ componentTypes program ty,
      HasSize program weight component (size component)) :
    HasSize program weight index (exactSize program size ty) := by
  cases ty with
  | scalar | slice | buffer | bufferSpan => cases aggregate
  | tuple elements => exact .tuple size found sized
  | array element len => exact .array found (sized element (by simp [componentTypes]))
  | struct definition =>
    have atDefinition := List.getElem?_eq_getElem (declared definition rfl)
    simp only [componentTypes, atDefinition] at sized
    simp only [exactSize, componentTypes, atDefinition]
    exact .struct size found atDefinition sized

theorem exactSize_congr {size size' : TypeId → Nat}
    (same : ∀ component ∈ componentTypes program ty, size component = size' component) :
    exactSize program size ty = exactSize program size' ty := by
  cases ty with
  | array element len =>
    simp only [exactSize]
    rw [same element (by simp [componentTypes])]
  | scalar | slice | buffer | bufferSpan => rfl
  | tuple | struct => exact congrArg List.sum (List.map_congr_left same)

/-! ### What a pass keeps -/

/-- A component has been resolved. -/
def Resolved (sizes : List LogicalSize) (component : TypeId) : Prop :=
  ∃ size, sizes[component]? = some size ∧ size ≠ .pending

/-- Why a type of a pass has its size. -/
inductive Justified (program : Program) (pass : SizePass) (ty : MirType) :
    LogicalSize → Prop
  | base (single : initialSize ty ≠ .pending) : Justified program pass ty (initialSize ty)
  | dangling (component : TypeId) (mem : component ∈ componentTypes program ty)
      (outside : program.types.length ≤ component) : Justified program pass ty .invalid
  | reported (errors : pass.errors ≠ []) : Justified program pass ty .invalid
  | invalid (component : TypeId) (mem : component ∈ componentTypes program ty)
      (broken : pass.sizes[component]? = some .invalid) : Justified program pass ty .invalid
  | unsized (component : TypeId) (mem : component ∈ componentTypes program ty)
      (handle : pass.sizes[component]? = some .unsized) : Justified program pass ty .unsized
  | fixed {bytes : Nat} (computed : aggregateBytes program pass.sizes ty = some bytes)
      (small : bytes ≤ i32Max) (sized : ∀ component ∈ componentTypes program ty,
        ∃ size, pass.sizes[component]? = some (.fixed size)) :
      Justified program pass ty (.fixed bytes)

/-- What every pass keeps. -/
structure PassInvariant (program : Program) (pass : SizePass) : Prop where
  length : pass.sizes.length = program.types.length
  justified : ∀ (index : TypeId) ty size, program.types[index]? = some ty →
    pass.sizes[index]? = some size → size ≠ .pending → Justified program pass ty size
  accessible : ∀ index, Resolved pass.sizes index →
    Acc (fun component index => Contains program index component) index
  sized : ∀ (index : TypeId) bytes, pass.sizes[index]? = some (.fixed bytes) →
    HasSize program ScalarType.logicalByteWidth index bytes

section Pass

variable {pass : SizePass} {index : TypeId} {ty : MirType} {size : LogicalSize}
  {errors : List String}

/-- The cases of a resolution. -/
inductive Resolution (program : Program) (sizes : List LogicalSize) (index : TypeId)
    (ty : MirType) : LogicalSize → List String → Prop
  | dangling (component : TypeId) (mem : component ∈ componentTypes program ty)
      (outside : sizes.length ≤ component) : Resolution program sizes index ty .invalid []
  | invalid (settled : ∀ component ∈ componentTypes program ty, Resolved sizes component)
      (component : TypeId) (mem : component ∈ componentTypes program ty)
      (broken : sizes[component]? = some .invalid) :
      Resolution program sizes index ty .invalid []
  | unsized (settled : ∀ component ∈ componentTypes program ty, Resolved sizes component)
      (component : TypeId) (mem : component ∈ componentTypes program ty)
      (handle : sizes[component]? = some .unsized) :
      Resolution program sizes index ty .unsized []
  | fixed {bytes : Nat} (sized : ∀ component ∈ componentTypes program ty,
        ∃ size, sizes[component]? = some (.fixed size))
      (computed : aggregateBytes program sizes ty = some bytes) (small : bytes ≤ i32Max) :
      Resolution program sizes index ty (.fixed bytes) []
  | exceeds (message : String) (sized : ∀ component ∈ componentTypes program ty,
        ∃ size, sizes[component]? = some (.fixed size))
      (large : ∀ bytes, aggregateBytes program sizes ty = some bytes → i32Max < bytes) :
      Resolution program sizes index ty .invalid [message]

/-- **One type.**  Everything a resolution can be. -/
theorem resolveSize_cases {sizes : List LogicalSize}
    (resolved : resolveSize program sizes index ty = some (size, errors)) :
    sizes[index]? = some .pending ∧ Resolution program sizes index ty size errors := by
  unfold resolveSize at resolved
  simp only at resolved
  split at resolved
  · cases resolved
  case isFalse isPending =>
    refine ⟨by simpa using isPending, ?_⟩
    split at resolved
    case isTrue outside =>
      cases resolved
      obtain ⟨component, mem, beyond⟩ := List.any_eq_true.mp outside
      exact .dangling component mem (by simpa using beyond)
    case isFalse inside =>
      split at resolved
      · cases resolved
      case isFalse someResolved =>
        have settled : ∀ component ∈ componentTypes program ty, Resolved sizes component := by
          intro component mem
          have inRange : component < sizes.length := by
            by_contra beyond
            exact inside (List.any_eq_true.mpr ⟨component, mem, by simpa using beyond⟩)
          refine ⟨sizes[component], List.getElem?_eq_getElem inRange, fun pending => ?_⟩
          exact someResolved (List.any_eq_true.mpr
            ⟨component, mem, by simp [List.getElem?_eq_getElem inRange, pending]⟩)
        split at resolved
        case isTrue broken =>
          cases resolved
          obtain ⟨component, mem, isInvalid⟩ := List.any_eq_true.mp broken
          exact .invalid settled component mem (by simpa using isInvalid)
        case isFalse valid =>
          split at resolved
          case isTrue handles =>
            cases resolved
            obtain ⟨component, mem, isUnsized⟩ := List.any_eq_true.mp handles
            exact .unsized settled component mem (by simpa using isUnsized)
          case isFalse sizedOnly =>
            have sized : ∀ component ∈ componentTypes program ty,
                ∃ size, sizes[component]? = some (.fixed size) := by
              intro component mem
              obtain ⟨known, found, notPending⟩ := settled component mem
              cases known with
              | pending => exact absurd rfl notPending
              | invalid =>
                exact absurd (List.any_eq_true.mpr ⟨component, mem, by simp [found]⟩) valid
              | unsized =>
                exact absurd (List.any_eq_true.mpr ⟨component, mem, by simp [found]⟩) sizedOnly
              | fixed bytes => exact ⟨bytes, found⟩
            split at resolved
            case h_1 bytes computed =>
              split at resolved
              case isTrue small =>
                cases resolved
                exact .fixed sized computed small
              case isFalse large =>
                cases resolved
                refine .exceeds _ sized fun other found => ?_
                obtain rfl : bytes = other := by
                  rw [computed] at found
                  exact Option.some.inj found
                omega
            case h_2 overflow =>
              cases resolved
              exact .exceeds _ sized fun bytes found => by rw [overflow] at found; cases found

end Pass

theorem aggregateBytes_congr {sizes' : List LogicalSize}
    (same : ∀ component ∈ componentTypes program ty,
      bytesAt sizes component = bytesAt sizes' component) :
    aggregateBytes program sizes ty = aggregateBytes program sizes' ty := by
  by_cases aggregate : initialSize ty = .pending
  · by_cases declared : ∀ definition, ty = .struct definition → definition < program.structs.length
    · rw [aggregateBytes_eq _ aggregate declared, aggregateBytes_eq _ aggregate declared,
        exactSize_congr same]
    · push Not at declared
      obtain ⟨definition, rfl, missing⟩ := declared
      rw [aggregateBytes_undeclared missing, aggregateBytes_undeclared missing]
  · cases ty with
    | scalar | slice | buffer | bufferSpan => rfl
    | tuple | array | struct => exact absurd rfl aggregate

/-- Resolved sizes stay, and reported errors stay reported. -/
structure PassExtends (pass later : SizePass) : Prop where
  sizes : ∀ (component : TypeId) size, pass.sizes[component]? = some size → size ≠ .pending →
    later.sizes[component]? = some size
  errors : pass.errors ≠ [] → later.errors ≠ []

theorem Justified.mono {later : SizePass} (justified : Justified program pass ty size)
    (extends_ : PassExtends pass later) :
    Justified program later ty size := by
  cases justified with
  | base single => exact .base single
  | dangling component mem outside => exact .dangling component mem outside
  | reported errors => exact .reported (extends_.errors errors)
  | invalid component mem broken =>
    exact .invalid component mem (extends_.sizes component _ broken (by simp))
  | unsized component mem handle =>
    exact .unsized component mem (extends_.sizes component _ handle (by simp))
  | fixed computed small sized =>
    have kept : ∀ component ∈ componentTypes program ty,
        ∃ size, later.sizes[component]? = some (.fixed size) := by
      intro component mem
      obtain ⟨size, known⟩ := sized component mem
      exact ⟨size, extends_.sizes component _ known (by simp)⟩
    refine .fixed ?_ small kept
    rw [← computed]
    refine aggregateBytes_congr fun component mem => ?_
    obtain ⟨size, known⟩ := sized component mem
    have later := extends_.sizes component _ known (by simp)
    simp [bytesAt, known, later]

/-- The pass after one resolution. -/
def SizePass.assign (pass : SizePass) (index : TypeId) (size : LogicalSize)
    (errors : List String) : SizePass :=
  { sizes := pass.sizes.set index size, errors := pass.errors ++ errors, changed := true }

section Assign

variable {pass : SizePass} {index : TypeId} {ty : MirType} {size : LogicalSize}
  {errors : List String}

theorem assign_extends (pending : pass.sizes[index]? = some .pending) :
    PassExtends pass (pass.assign index size errors) where
  sizes component other known settled := by
    have apart : index ≠ component := by
      rintro rfl
      rw [pending] at known
      exact settled (Option.some.inj known).symm
    simp only [SizePass.assign]
    rw [List.getElem?_set_ne apart, known]
  errors some := by simp [SizePass.assign, some]

theorem assign_self (pending : pass.sizes[index]? = some .pending) :
    (pass.assign index size errors).sizes[index]? = some size := by
  obtain ⟨inRange, -⟩ := List.getElem?_eq_some_iff.mp pending
  simp [SizePass.assign, inRange]

/-- A resolution is not pending. -/
theorem Resolution.settled {sizes : List LogicalSize}
    (resolution : Resolution program sizes index ty size errors) : size ≠ .pending := by
  cases resolution <;> simp

/-- A fixed size is the size of the type. -/
theorem Resolution.sized (invariant : PassInvariant program pass)
    (declared : program.types[index]? = some ty) {bytes : Nat}
    (resolution : Resolution program pass.sizes index ty (.fixed bytes) errors) :
    HasSize program ScalarType.logicalByteWidth index bytes := by
  cases resolution with
  | fixed sized computed small =>
    have aggregate : initialSize ty = .pending := by
      cases ty with
      | scalar | slice | buffer | bufferSpan => cases computed
      | tuple | array | struct => rfl
    have structs : ∀ definition, ty = .struct definition →
        definition < program.structs.length := by
      rintro definition rfl
      by_contra missing
      rw [aggregateBytes_undeclared (Nat.le_of_not_lt missing)] at computed
      cases computed
    rw [aggregateBytes_eq _ aggregate structs] at computed
    split at computed
    · cases computed
      refine hasSize_exactSize declared aggregate structs fun component mem => ?_
      obtain ⟨size, known⟩ := sized component mem
      have found : bytesAt pass.sizes component = size := by
        simp [bytesAt, known, LogicalSize.bytes]
      rw [found]
      exact invariant.sized component size known
    · cases computed

/-- What a resolved type contains was resolved before. -/
theorem Resolution.accessible (invariant : PassInvariant program pass)
    (declared : program.types[index]? = some ty)
    (resolution : Resolution program pass.sizes index ty size errors) :
    Acc (fun component index => Contains program index component) index := by
  refine Acc.intro index fun component contained => ?_
  obtain ⟨other, declared', mem, inside⟩ := contained
  obtain rfl : ty = other := by rw [declared] at declared'; exact Option.some.inj declared'
  refine invariant.accessible component ?_
  cases resolution with
  | dangling beyond mem' outside =>
    rw [invariant.length] at outside
    exact absurd (inside beyond mem') (Nat.not_lt.mpr outside)
  | invalid settled => exact settled component mem
  | unsized settled => exact settled component mem
  | fixed sized | exceeds _ sized =>
    obtain ⟨size, known⟩ := sized component mem
    exact ⟨_, known, by simp⟩

theorem Resolution.justified (invariant : PassInvariant program pass)
    (pending : pass.sizes[index]? = some .pending)
    (resolution : Resolution program pass.sizes index ty size errors) :
    Justified program (pass.assign index size errors) ty size := by
  have kept : PassExtends pass (pass.assign index size errors) := assign_extends pending
  cases resolution with
  | dangling component mem outside =>
    exact .dangling component mem (by rwa [invariant.length] at outside)
  | invalid _ component mem broken =>
    exact .invalid component mem (kept.sizes component _ broken (by simp))
  | unsized _ component mem handle =>
    exact .unsized component mem (kept.sizes component _ handle (by simp))
  | fixed sized computed small => exact (Justified.fixed computed small sized).mono kept
  | exceeds message => exact .reported (by simp [SizePass.assign])

/-- **Step.**  Resolving a type keeps the invariant. -/
theorem assign_invariant (invariant : PassInvariant program pass)
    (declared : program.types[index]? = some ty)
    (pending : pass.sizes[index]? = some .pending)
    (resolution : Resolution program pass.sizes index ty size errors) :
    PassInvariant program (pass.assign index size errors) := by
  have kept : PassExtends pass (pass.assign index size errors) := assign_extends pending
  have before {other : TypeId} {known : LogicalSize} (apart : index ≠ other)
      (found : (pass.assign index size errors).sizes[other]? = some known) :
      pass.sizes[other]? = some known := by
    simpa only [SizePass.assign, List.getElem?_set_ne apart] using found
  have now {known : LogicalSize}
      (found : (pass.assign index size errors).sizes[index]? = some known) : known = size := by
    rw [assign_self pending] at found
    exact (Option.some.inj found).symm
  refine ⟨?_, fun other ty' known declared' found settled => ?_, fun other resolved => ?_,
    fun other bytes found => ?_⟩
  · simp [SizePass.assign, invariant.length]
  · by_cases same : index = other
    · subst same
      obtain rfl := now found
      obtain rfl : ty = ty' := by rw [declared] at declared'; exact Option.some.inj declared'
      exact resolution.justified invariant pending
    · exact (invariant.justified other ty' known declared' (before same found) settled).mono kept
  · by_cases same : index = other
    · subst same
      exact resolution.accessible invariant declared
    · obtain ⟨known, found, settled⟩ := resolved
      exact invariant.accessible other ⟨known, before same found, settled⟩
  · by_cases same : index = other
    · subst same
      obtain rfl := now found
      exact resolution.sized invariant declared
    · exact invariant.sized other bytes (before same found)

end Assign

theorem visit_invariant {entry : MirType × Nat} (invariant : PassInvariant program pass)
    (declared : program.types[entry.2]? = some entry.1) :
    PassInvariant program (pass.visit program entry) := by
  unfold SizePass.visit
  split
  · exact invariant
  case h_2 size errors resolved =>
    obtain ⟨pending, resolution⟩ := resolveSize_cases resolved
    exact assign_invariant invariant declared pending resolution

/-- The flag is not part of what a pass keeps. -/
theorem PassInvariant.flag (invariant : PassInvariant program pass) (changed : Bool)
    : PassInvariant program { pass with changed := changed } where
  length := invariant.length
  justified index ty size declared found settled :=
    (invariant.justified index ty size declared found settled).mono
      ⟨fun _ _ known _ => known, id⟩
  accessible := invariant.accessible
  sized := invariant.sized

/-- What each visit keeps, a pass keeps. -/
theorem resolveSizes_keeps (holds : P { pass with changed := false })
    (visit : ∀ (pass : SizePass) (entry : MirType × Nat), P pass →
      program.types[entry.2]? = some entry.1 → P (pass.visit program entry)) :
    P (resolveSizes program pass) := by
  unfold resolveSizes
  have visits : ∀ (entries : List (MirType × Nat)) (pass : SizePass),
      (∀ entry ∈ entries, program.types[entry.2]? = some entry.1) → P pass →
      P (entries.foldl (SizePass.visit program) pass) := by
    intro entries
    induction entries with
    | nil => exact fun pass _ holds => holds
    | cons entry rest ih =>
      intro pass declared holds
      exact ih _ (fun other mem => declared other (by simp [mem]))
        (visit pass entry holds (declared entry (by simp)))
  exact visits _ _ (fun entry mem => List.mem_zipIdx_iff_getElem?.mp mem) holds

/-- What each visit keeps, all passes keep. -/
theorem resolveAll_keeps
    (flag : ∀ (pass : SizePass) changed, P pass → P { pass with changed := changed })
    (visit : ∀ (pass : SizePass) (entry : MirType × Nat), P pass →
      program.types[entry.2]? = some entry.1 → P (pass.visit program entry)) :
    ∀ (fuel : Nat) {pass : SizePass}, P pass → P (resolveAll program fuel pass)
  | 0, _, holds => holds
  | fuel + 1, pass, holds => by
    unfold resolveAll
    simp only
    have next := resolveSizes_keeps (flag pass false holds) visit
    split
    · exact resolveAll_keeps flag visit fuel next
    · exact next

theorem initial_size (found : (program.types.map initialSize)[index]? = some size) :
    ∃ ty, program.types[index]? = some ty ∧ initialSize ty = size := by
  simpa using found

theorem initial_invariant :
    PassInvariant program { sizes := program.types.map initialSize } where
  length := by simp
  justified index ty size declared found settled := by
    obtain ⟨other, declared', rfl⟩ := initial_size found
    obtain rfl : ty = other := by rw [declared] at declared'; exact Option.some.inj declared'
    exact .base settled
  accessible index resolved := by
    obtain ⟨size, found, settled⟩ := resolved
    obtain ⟨ty, declared, rfl⟩ := initial_size found
    refine Acc.intro index fun component contained => ?_
    obtain ⟨other, declared', mem, -⟩ := contained
    obtain rfl : ty = other := by rw [declared] at declared'; exact Option.some.inj declared'
    cases ty with
    | scalar | slice | buffer | bufferSpan => simp [componentTypes] at mem
    | tuple | array | struct => exact absurd rfl settled
  sized index bytes found := by
    obtain ⟨ty, declared, same⟩ := initial_size found
    cases ty with
    | scalar scalar =>
      cases same
      exact .scalar declared
    | slice | buffer | bufferSpan | tuple | array | struct => cases same

/-- **Run.**  The passes keep the invariant. -/
theorem fixedAggregateSizes_invariant (program : Program) :
    PassInvariant program (fixedAggregateSizes program) :=
  resolveAll_keeps (fun _ changed invariant => invariant.flag changed)
    (fun _ _ invariant declared => visit_invariant invariant declared) _ initial_invariant

/-! ### The passes end -/

/-- How many types are left to resolve. -/
def pendingCount (sizes : List LogicalSize) : Nat := sizes.countP (· = .pending)

theorem pendingCount_assign (pending : pass.sizes[index]? = some .pending)
    (settled : size ≠ .pending) :
    pendingCount (pass.assign index size errors).sizes + 1 = pendingCount pass.sizes := by
  obtain ⟨inRange, atIndex⟩ := List.getElem?_eq_some_iff.mp pending
  have some : 0 < pendingCount pass.sizes :=
    List.countP_pos_iff.mpr ⟨_, List.mem_of_getElem? pending, by simp⟩
  simp only [pendingCount, SizePass.assign] at some ⊢
  rw [List.countP_set inRange, atIndex]
  simp [settled]
  omega

/-- A visit resolves a type, or it changes nothing and finds nothing. -/
theorem visit_cases (program : Program) (pass : SizePass) (entry : MirType × Nat) :
    pass.visit program entry = pass ∧ resolveSize program pass.sizes entry.2 entry.1 = none
      ∨ (pass.visit program entry).changed = true
        ∧ pendingCount (pass.visit program entry).sizes + 1 = pendingCount pass.sizes := by
  unfold SizePass.visit
  split
  case h_1 same => exact .inl ⟨rfl, same⟩
  case h_2 size errors resolved =>
    obtain ⟨pending, resolution⟩ := resolveSize_cases resolved
    exact .inr ⟨rfl, pendingCount_assign pending resolution.settled⟩

/-- A pass resolves a type, or it changes nothing and finds nothing. -/
theorem visits_cases (program : Program) : ∀ (entries : List (MirType × Nat)) (pass : SizePass),
    entries.foldl (SizePass.visit program) pass = pass
        ∧ (∀ entry ∈ entries, resolveSize program pass.sizes entry.2 entry.1 = none)
      ∨ (entries.foldl (SizePass.visit program) pass).changed = true
        ∧ pendingCount (entries.foldl (SizePass.visit program) pass).sizes
          < pendingCount pass.sizes
  | [], pass => .inl ⟨rfl, by simp⟩
  | entry :: rest, pass => by
    rw [List.foldl_cons]
    have later := visits_cases program rest (pass.visit program entry)
    rcases visit_cases program pass entry with ⟨same, nothing⟩ | ⟨changed, fewer⟩
    · rw [same] at later ⊢
      rcases later with ⟨same, nones⟩ | later
      · refine .inl ⟨same, fun other mem => ?_⟩
        rcases List.mem_cons.mp mem with rfl | mem
        · exact nothing
        · exact nones other mem
      · exact .inr later
    · rcases later with ⟨same, -⟩ | ⟨changed, fewer'⟩
      · rw [same]
        exact .inr ⟨changed, by omega⟩
      · exact .inr ⟨changed, by omega⟩

/-- A pass that changes nothing has nothing to resolve. -/
def Settled (program : Program) (pass : SizePass) : Prop :=
  pass.changed = false ∧ ∀ (index : TypeId) ty, program.types[index]? = some ty →
    resolveSize program pass.sizes index ty = none

theorem resolveAll_settled : ∀ (fuel : Nat) {pass : SizePass},
    pendingCount pass.sizes < fuel → Settled program (resolveAll program fuel pass)
  | fuel + 1, pass, enough => by
    unfold resolveAll
    simp only
    have once := visits_cases program program.types.zipIdx
      { pass with changed := false }
    change resolveSizes program pass = _ ∧ _ ∨ _ at once
    rcases once with ⟨same, nones⟩ | ⟨changed, fewer⟩
    · rw [same]
      exact ⟨rfl, fun index ty declared =>
        nones (ty, index) (List.mem_zipIdx_iff_getElem?.mpr declared)⟩
    · rw [if_pos (show (resolveSizes program pass).changed = true from changed)]
      exact resolveAll_settled fuel (lt_of_lt_of_le fewer (Nat.lt_succ_iff.mp enough))

/-- **Termination.**  The passes end by themselves. -/
theorem fixedAggregateSizes_settled (program : Program) :
    Settled program (fixedAggregateSizes program) := by
  refine resolveAll_settled _ (Nat.lt_succ_of_le ?_)
  calc pendingCount (program.types.map initialSize)
      ≤ (program.types.map initialSize).length := List.countP_le_length
    _ = program.types.length := List.length_map _

/-! ### What is reported -/

theorem validateFixedAggregateTypes_eq_nil :
    validateFixedAggregateTypes program = [] ↔
      (fixedAggregateSizes program).errors = [] ∧
        ∀ index : TypeId, (fixedAggregateSizes program).sizes[index]? ≠ some .pending := by
  simp only [validateFixedAggregateTypes, List.append_eq_nil_iff, List.flatMap_eq_nil_iff]
  refine and_congr_right fun _ => ⟨fun each index pending => ?_, fun none entry mem => ?_⟩
  · have reported := each (.pending, index) (List.mem_zipIdx_iff_getElem?.mpr pending)
    simp [errorUnless] at reported
  · have found := List.mem_zipIdx_iff_getElem?.mp mem
    have settled : entry.1 ≠ .pending := fun same => none entry.2 (by rw [found, same])
    simp [errorUnless, settled]

/-- Under the conditions on the table no resolution reports an error. -/
theorem Resolution.silent (structs : StructsDeclared program)
    (bounded : ∀ index bytes, HasSize program ScalarType.logicalByteWidth index bytes →
      bytes ≤ i32Max) (invariant : PassInvariant program pass)
    (declared : program.types[index]? = some ty) (aggregate : initialSize ty = .pending)
    (resolution : Resolution program pass.sizes index ty size errors) : errors = [] := by
  cases resolution with
  | dangling | invalid | unsized | fixed => rfl
  | exceeds message sized large =>
    have structs' : ∀ definition, ty = .struct definition →
        definition < program.structs.length := by
      rintro definition rfl
      exact structs index definition declared
    have exact_ : HasSize program ScalarType.logicalByteWidth index
        (exactSize program (bytesAt pass.sizes) ty) := by
      refine hasSize_exactSize declared aggregate structs' fun component mem => ?_
      obtain ⟨size, known⟩ := sized component mem
      have found : bytesAt pass.sizes component = size := by
        simp [bytesAt, known, LogicalSize.bytes]
      rw [found]
      exact invariant.sized component size known
    have small := bounded index _ exact_
    have limit : i32Max < 2 ^ 64 := by decide
    have computed := aggregateBytes_eq pass.sizes aggregate structs'
    rw [if_pos (by omega)] at computed
    exact absurd small (Nat.not_le.mpr (large _ computed))

/-- A pending type is an aggregate. -/
def PendingAggregates (program : Program) (pass : SizePass) : Prop :=
  ∀ (index : TypeId) ty, program.types[index]? = some ty →
    pass.sizes[index]? = some .pending → initialSize ty = .pending

theorem fixedAggregateSizes_silent (structs : StructsDeclared program)
    (bounded : ∀ index bytes, HasSize program ScalarType.logicalByteWidth index bytes →
      bytes ≤ i32Max) : (fixedAggregateSizes program).errors = [] := by
  have kept : PassInvariant program (fixedAggregateSizes program)
      ∧ PendingAggregates program (fixedAggregateSizes program)
      ∧ (fixedAggregateSizes program).errors = [] := by
    refine resolveAll_keeps (P := fun pass => PassInvariant program pass
        ∧ PendingAggregates program pass ∧ pass.errors = [])
      (fun pass changed holds => ⟨holds.1.flag changed, holds.2⟩)
      (fun pass entry ⟨invariant, aggregates, silent⟩ declared => ?_) _
      ⟨initial_invariant, fun index ty declared pending => ?_, rfl⟩
    · refine ⟨visit_invariant invariant declared, ?_⟩
      unfold SizePass.visit
      split
      · exact ⟨aggregates, silent⟩
      case h_2 size errors resolved =>
        obtain ⟨pending, resolution⟩ := resolveSize_cases resolved
        refine ⟨fun index ty found stays => ?_, ?_⟩
        · by_cases same : entry.2 = index
          · subst same
            have now : (pass.assign entry.2 size errors).sizes[entry.2]? = some size :=
              assign_self pending
            simp only [SizePass.assign] at now
            rw [now] at stays
            exact absurd (Option.some.inj stays) resolution.settled
          · rw [List.getElem?_set_ne same] at stays
            exact aggregates index ty found stays
        · rw [silent, resolution.silent structs bounded invariant declared
            (aggregates _ _ declared pending)]
          rfl
    · obtain ⟨other, found, same⟩ := initial_size pending
      obtain rfl : ty = other := by rw [declared] at found; exact Option.some.inj found
      exact same
  exact kept.2.2

/-- Without an infinite chain of containments everything is resolved. -/
theorem fixedAggregateSizes_resolved
    (founded : WellFounded fun component index => Contains program index component)
    (index : TypeId) : (fixedAggregateSizes program).sizes[index]? ≠ some .pending := by
  have invariant := fixedAggregateSizes_invariant program
  obtain ⟨-, unresolved⟩ := fixedAggregateSizes_settled program
  generalize (fixedAggregateSizes program) = pass at invariant unresolved
  induction index using founded.induction with
  | _ index ih =>
    intro pending
    have inRange : index < program.types.length := by
      rw [← invariant.length]
      exact (List.getElem?_eq_some_iff.mp pending).1
    have declared := List.getElem?_eq_getElem inRange
    have none := unresolved index _ declared
    unfold resolveSize at none
    simp only [pending, ne_eq, not_true_eq_false, if_false] at none
    split at none
    · cases none
    case isFalse inside =>
      have bounded : ∀ other ∈ componentTypes program program.types[index],
          other < program.types.length := by
        intro other mem
        rw [← invariant.length]
        by_contra beyond
        exact inside (List.any_eq_true.mpr ⟨other, mem, by simpa using beyond⟩)
      split at none
      case isTrue waits =>
        obtain ⟨component, mem, stays⟩ := List.any_eq_true.mp waits
        exact ih component ⟨_, declared, mem, bounded⟩ (by simpa using stays)
      case isFalse =>
        repeat' split at none
        all_goals cases none

/-- What an accepted table knows about a type of a size. -/
theorem fixed_of_hasSize (accepted : validateFixedAggregateTypes program = []) {bytes : Nat}
    (sized : HasSize program ScalarType.logicalByteWidth index bytes) :
    (fixedAggregateSizes program).sizes[index]? = some (.fixed bytes) ∧ bytes ≤ i32Max := by
  obtain ⟨none, settled⟩ := validateFixedAggregateTypes_eq_nil.mp accepted
  have invariant := fixedAggregateSizes_invariant program
  -- A type of the table is justified, and by its components it is fixed.
  have known {index : TypeId} {ty : MirType} (declared : program.types[index]? = some ty) :
      ∃ size, (fixedAggregateSizes program).sizes[index]? = some size
        ∧ Justified program (fixedAggregateSizes program) ty size := by
    have inRange : index < (fixedAggregateSizes program).sizes.length := by
      rw [invariant.length]
      exact (List.getElem?_eq_some_iff.mp declared).1
    have found := List.getElem?_eq_getElem inRange
    exact ⟨_, found, invariant.justified index ty _ declared found fun same =>
      settled index (by rw [found, same])⟩
  have aggregate {index : TypeId} {ty : MirType} (size : TypeId → Nat)
      (declared : program.types[index]? = some ty) (pending : initialSize ty = .pending)
      (structs : ∀ definition, ty = .struct definition → definition < program.structs.length)
      (fixed : ∀ component ∈ componentTypes program ty,
        (fixedAggregateSizes program).sizes[component]? = some (.fixed (size component))) :
      (fixedAggregateSizes program).sizes[index]? = some (.fixed (exactSize program size ty))
        ∧ exactSize program size ty ≤ i32Max := by
    obtain ⟨found, atIndex, justified⟩ := known declared
    have same : exactSize program (bytesAt (fixedAggregateSizes program).sizes) ty
        = exactSize program size ty := by
      refine exactSize_congr fun component mem => ?_
      simp [bytesAt, fixed component mem, LogicalSize.bytes]
    cases justified with
    | base single => exact absurd pending single
    | dangling component mem outside =>
      obtain ⟨inRange, -⟩ := List.getElem?_eq_some_iff.mp (fixed component mem)
      rw [invariant.length] at inRange
      exact absurd outside (Nat.not_le.mpr inRange)
    | reported errors => exact absurd none errors
    | invalid component mem broken =>
      rw [fixed component mem] at broken
      cases broken
    | unsized component mem handle =>
      rw [fixed component mem] at handle
      cases handle
    | fixed computed small =>
      rw [aggregateBytes_eq _ pending structs, same] at computed
      split at computed
      · cases computed
        exact ⟨atIndex, small⟩
      · cases computed
  induction sized with
  | @scalar index scalar declared =>
    obtain ⟨size, found, justified⟩ := known declared
    cases justified with
    | base => exact ⟨found, by cases scalar <;> decide⟩
    | dangling component mem | invalid component mem | unsized component mem =>
      simp [componentTypes] at mem
    | reported errors => exact absurd none errors
    | fixed computed => cases computed
  | @array index element len size declared sized ih =>
    have all : ∀ component ∈ componentTypes program (.array element len),
        (fixedAggregateSizes program).sizes[component]?
          = some (.fixed ((fun _ => size) component)) := by
      intro component mem
      obtain rfl : component = element := by simpa [componentTypes] using mem
      exact ih.1
    exact aggregate (fun _ => size) declared rfl (by simp) all
  | tuple size declared sized ih =>
    exact aggregate size declared rfl (by simp) fun component mem => (ih component mem).1
  | @struct index definition declaration size declared found sized ih =>
    have inRange := (List.getElem?_eq_some_iff.mp found).1
    have whole := aggregate size declared rfl
      (by rintro other ⟨⟩; exact inRange) fun component mem => by
        simp only [componentTypes, found] at mem
        exact (ih component mem).1
    simpa only [exactSize, componentTypes, found] using whole

/-! ### The decision -/

theorem not_rel_of_acc {α : Type} {r : α → α → Prop} {a : α} (accessible : Acc r a) : ¬r a a := by
  induction accessible with
  | intro a _ ih => exact fun loop => ih a loop loop

/-- Only a type of the table contains anything, and only types of the table. -/
theorem Contains.inRange {component : TypeId} (contained : Contains program index component) :
    index < program.types.length ∧ component < program.types.length := by
  obtain ⟨ty, declared, mem, inside⟩ := contained
  exact ⟨(List.getElem?_eq_some_iff.mp declared).1, inside component mem⟩

/-- In a finite table containment without a cycle is well-founded. -/
theorem contains_wellFounded
    (acyclic : ∀ index, ¬Relation.TransGen (Contains program) index index) :
    WellFounded fun component index => Contains program index component := by
  let below (component index : Fin program.types.length) : Prop :=
    Relation.TransGen (Contains program) index.val component.val
  have founded : WellFounded below := by
    have : Std.Irrefl below := ⟨fun index => acyclic index.val⟩
    have : IsTrans _ below := ⟨fun _ _ _ first second => second.trans first⟩
    exact Finite.wellFounded_of_trans_of_irrefl below
  have inside (index : Fin program.types.length) :
      Acc (fun component index => Contains program index component) index.val := by
    induction index using founded.induction with
    | _ index ih =>
      refine Acc.intro _ fun component contained => ?_
      exact ih ⟨component, contained.inRange.2⟩ (.single contained)
  refine ⟨fun index => ?_⟩
  by_cases inRange : index < program.types.length
  · exact inside ⟨index, inRange⟩
  · exact Acc.intro index fun component contained => absurd contained.inRange.1 inRange

/-- **Decision.**  The type table is accepted exactly if every struct type is
declared, no aggregate contains itself through a chain of containments, and no
logical size exceeds the largest `i32`.  For every table the passes end by
themselves, and the size they give a type is its size as a natural number. -/
theorem validateFixedAggregateTypes_iff (program : Program) :
    (validateFixedAggregateTypes program = [] ↔
      StructsDeclared program
        ∧ (∀ index, ¬Relation.TransGen (Contains program) index index)
        ∧ ∀ index bytes, HasSize program ScalarType.logicalByteWidth index bytes →
          bytes ≤ i32Max)
      ∧ Settled program (fixedAggregateSizes program)
      ∧ ∀ index bytes, (fixedAggregateSizes program).sizes[index]? = some (.fixed bytes) →
        HasSize program ScalarType.logicalByteWidth index bytes := by
  have invariant := fixedAggregateSizes_invariant program
  refine ⟨⟨fun accepted => ⟨fun index definition declared => ?_, fun index cycle => ?_,
    fun index bytes sized => (fixed_of_hasSize accepted sized).2⟩, fun conditions => ?_⟩,
    fixedAggregateSizes_settled program, invariant.sized⟩
  · obtain ⟨none, settled⟩ := validateFixedAggregateTypes_eq_nil.mp accepted
    by_contra missing
    have inRange : index < (fixedAggregateSizes program).sizes.length := by
      rw [invariant.length]
      exact (List.getElem?_eq_some_iff.mp declared).1
    have found := List.getElem?_eq_getElem inRange
    have components : componentTypes program (.struct definition) = [] := by
      simp [componentTypes, List.getElem?_eq_none (Nat.le_of_not_lt missing)]
    have justified := invariant.justified index _ _ declared found fun same =>
      settled index (by rw [found, same])
    generalize (fixedAggregateSizes program).sizes[index] = size at justified
    cases justified with
    | base single => exact single rfl
    | dangling component mem | invalid component mem | unsized component mem =>
      simp [components] at mem
    | reported errors => exact errors none
    | fixed computed =>
      rw [aggregateBytes_undeclared (Nat.le_of_not_lt missing)] at computed
      cases computed
  · obtain ⟨-, settled⟩ := validateFixedAggregateTypes_eq_nil.mp accepted
    -- A resolved type is at the end of no infinite chain.
    have inRange : index < program.types.length := by
      rcases Relation.TransGen.head'_iff.mp cycle with ⟨component, contained, -⟩
      exact contained.inRange.1
    have found := List.getElem?_eq_getElem (by rwa [invariant.length] :
      index < (fixedAggregateSizes program).sizes.length)
    have accessible := (invariant.accessible index
      ⟨_, found, fun same => settled index (by rw [found, same])⟩).transGen
    exact not_rel_of_acc accessible (Relation.transGen_swap.mpr cycle)
  · obtain ⟨structs, acyclic, bounded⟩ := conditions
    exact validateFixedAggregateTypes_eq_nil.mpr
      ⟨fixedAggregateSizes_silent structs bounded,
        fixedAggregateSizes_resolved (contains_wellFounded acyclic)⟩

/-- `2^30` floats: fewer elements than the largest `i32`, and four times as many
bytes. -/
def Program.largeArray : Program := .minimal [.array 1 (2 ^ 30)] {} [] []

theorem Program.largeArray_types (declared : Program.largeArray.types[index]? = some ty) :
    index = 0 ∧ ty = .scalar .i32 ∨ index = 1 ∧ ty = .scalar .f32
      ∨ index = 2 ∧ ty = .array 1 (2 ^ 30) := by
  match index with
  | 0 => exact .inl ⟨rfl, (Option.some.inj declared).symm⟩
  | 1 => exact .inr (.inl ⟨rfl, (Option.some.inj declared).symm⟩)
  | 2 => exact .inr (.inr ⟨rfl, (Option.some.inj declared).symm⟩)
  | index + 3 => cases declared

/-- **Elements are not what is counted.**  The table has no recursive aggregate
and every aggregate has at most `2^30` elements, and the table is refused. -/
theorem validateFixedAggregateTypes_largeArray :
    (∀ index, ¬Relation.TransGen (Contains Program.largeArray) index index)
      ∧ (∀ index count, HasSize Program.largeArray (fun _ => 1) index count → count ≤ i32Max)
      ∧ validateFixedAggregateTypes Program.largeArray ≠ [] := by
  refine ⟨fun index cycle => ?_, fun index count sized => ?_, by decide⟩
  · have lower {index component : TypeId} (step : Contains Program.largeArray index component) :
        component < index := by
      obtain ⟨ty, declared, mem, -⟩ := step
      rcases Program.largeArray_types declared with ⟨rfl, rfl⟩ | ⟨rfl, rfl⟩ | ⟨rfl, rfl⟩
      · simp [componentTypes] at mem
      · simp [componentTypes] at mem
      · obtain rfl : component = 1 := by simpa [componentTypes] using mem
        decide
    have descends : ∀ {index component : TypeId},
        Relation.TransGen (Contains Program.largeArray) index component → component < index := by
      intro index component path
      induction path with
      | single step => exact lower step
      | tail _ step ih => exact (lower step).trans ih
    exact absurd (descends cycle) (Nat.lt_irrefl index)
  · cases sized with
    | scalar => decide
    | array declared sized =>
      rcases Program.largeArray_types declared with ⟨-, same⟩ | ⟨-, same⟩ | ⟨-, same⟩
      · cases same
      · cases same
      · cases same
        cases sized with
        | scalar => decide
        | array declared | tuple _ declared | struct _ declared =>
          rcases Program.largeArray_types declared with ⟨other, same⟩ | ⟨other, same⟩ | ⟨other, same⟩
          all_goals
            first
            | exact absurd other (by decide)
            | cases same
    | tuple _ declared | struct _ declared =>
      rcases Program.largeArray_types declared with ⟨-, same⟩ | ⟨-, same⟩ | ⟨-, same⟩ <;> cases same

end Onda.Mir.Validate
