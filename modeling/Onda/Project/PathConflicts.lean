import Onda.Lib.Separated
import Onda.Project.Paths

/-!
# Unique portable paths

How an export chooses paths.  A path is registered by its collision key, and the
registered keys are the keys of files: no key equals another one or is one of its
ancestors.  A candidate that conflicts with a key gets a number in the component
where the conflict is, and the first number without a conflict is taken.

`String` sets are finite sets in byte order; `range(prefix..).next()` is the first
of the elements from the prefix on.
-/

namespace Onda.Project

open Separated

/-- A `String` with some bytes, if there is room for it. -/
def Text.build (bytes : Bytes) : Checked Text :=
  if fits : bytes.length < 2 ^ 56 then .ok ⟨bytes, fits⟩ else .error .panicked

section Paths

variable (platform : Platform)

/-- `used.range(start..).next()`. -/
def firstFrom (used : Finset Text) (start : Bytes) : Option Text :=
  ((used.filter fun key => start.map UInt8.toNat ≤ key.bytes.map UInt8.toNat).sort (· ≤ ·)).head?

/-- `conflicting_path_component`. -/
def conflictingPathComponent (candidate : Text) (used : Finset Text) : Option Nat :=
  let key := portablePathCollisionKey platform candidate
  match (ancestors key.bytes).findIdx? fun ancestor => ∃ path ∈ used, path.bytes = ancestor with
  | some componentIndex => some componentIndex
  | none =>
    if key ∈ used then some (ancestors key.bytes).length
    else
      let descendantPrefix := key.bytes ++ [47]
      if (firstFrom used descendantPrefix).any fun path => descendantPrefix.isPrefixOf path.bytes
      then some (ancestors key.bytes).length
      else none

/-- One component with a number in front of its extension. -/
def suffixComponent (component : Bytes) (suffix : Nat) : Bytes :=
  match rfind component 46 with
  | some dot =>
    component.take dot ++ ascii "-" ++ decimal suffix ++ ascii "." ++ component.drop (dot + 1)
  | none => component ++ ascii "-" ++ decimal suffix

/-- `suffix_path_component`. -/
def suffixPathComponent (path : Bytes) (componentIndex suffix : Nat) : Bytes :=
  [47].intercalate ((path.splitOn 47).zipIdx.map fun (component, index) =>
    if index ≠ componentIndex then component else suffixComponent component suffix)

/-- The loop over the suffixes; past the last `usize` it panics. -/
def suffixedPath (candidate : Text) (componentIndex : Nat) (used : Finset Text) :
    Nat → Nat → Checked (Text × Finset Text)
  | 0, _ => .error .panicked
  | count + 1, suffix => do
    let unique ← Text.build (suffixPathComponent candidate.bytes componentIndex suffix)
    if conflictingPathComponent platform unique used = none then
      .ok (unique, insert (portablePathCollisionKey platform unique) used)
    else suffixedPath candidate componentIndex used count (suffix + 1)

/-- `make_unique_path`. -/
def makeUniquePath (candidate : Text) (used : Finset Text) : Checked (Text × Finset Text) :=
  if candidate.bytes = [] then reject (ascii "portable source path is empty")
  else
    match conflictingPathComponent platform candidate used with
    | none => .ok (candidate, insert (portablePathCollisionKey platform candidate) used)
    | some componentIndex =>
      suffixedPath platform candidate componentIndex used (platform.usizeMax - 1) 2

/-- `register_materialized_path`. -/
def registerMaterializedPath (used : Finset Text) (path : Text) : Option (Finset Text) :=
  let key := portablePathCollisionKey platform path
  if ∃ other ∈ used, other = key ∨ (key.bytes ++ [47]).isPrefixOf other.bytes
      ∨ (other.bytes.isPrefixOf key.bytes ∧ (key.bytes.drop other.bytes.length).head? = some 47)
  then none
  else some (insert key used)

/-- The first path of a list that can be registered. -/
def registerFirst (used : Finset Text) : List Bytes → Checked (Option (Text × Finset Text))
  | [] => .ok none
  | bytes :: rest => do
    let path ← Text.build bytes
    match registerMaterializedPath platform used path with
    | some used => .ok (some (path, used))
    | none => registerFirst used rest

/-- `unique_asset_path`. -/
def uniqueAssetPath (assetDirectory stem digest : Bytes) (used : Finset Text) :
    Checked (Text × Finset Text) := do
  let short ← slice digest 0 8
  let candidates := [assetDirectory ++ ascii "/" ++ stem ++ ascii ".ondabuffer",
    assetDirectory ++ ascii "/" ++ stem ++ ascii "-" ++ short ++ ascii ".ondabuffer",
    assetDirectory ++ ascii "/" ++ stem ++ ascii "-" ++ digest ++ ascii ".ondabuffer"]
  match ← registerFirst platform used candidates with
  | some result => .ok result
  | none =>
    let maxSuffix := min (used.card + 2) platform.usizeMax
    match ← registerFirst platform used ((List.range' 2 (maxSuffix - 1)).map fun suffix =>
      assetDirectory ++ ascii "/" ++ stem ++ ascii "-" ++ digest ++ ascii "-" ++ decimal suffix
        ++ ascii ".ondabuffer") with
    | some result => .ok result
    | none => reject (ascii "could not allocate a unique portable asset path")

end Paths

/-! ### Ancestors -/

/-- The ancestors of `before ++ path` that end in `path`. -/
def ancestorsFrom (before : Bytes) : Bytes → List Bytes
  | [] => []
  | byte :: path =>
    if byte = 47 then before :: ancestorsFrom (before ++ [byte]) path
    else ancestorsFrom (before ++ [byte]) path

theorem ancestors_eq (path : Bytes) : ancestors path = ancestorsFrom [] path := by
  have general : ∀ (rest before : Bytes),
      ((rest.zipIdx before.length).filterMap fun piece =>
        if piece.1 = 47 then some ((before ++ rest).take piece.2) else none)
        = ancestorsFrom before rest := by
    intro rest
    induction rest with
    | nil => exact fun _ => rfl
    | cons byte rest ih =>
      intro before
      have tail := ih (before ++ [byte])
      rw [List.length_append, List.length_singleton, List.append_assoc, List.singleton_append] at tail
      rw [List.zipIdx_cons, List.filterMap_cons, ancestorsFrom, tail]
      simp only [List.take_left]
      by_cases separator : byte = 47
      · rw [if_pos separator, if_pos separator]
      · rw [if_neg separator, if_neg separator]
  exact general path []

theorem ancestorsFrom_length (path : Bytes) : ∀ before,
    (ancestorsFrom before path).length = path.count 47 := by
  induction path with
  | nil => exact fun _ => rfl
  | cons byte path ih =>
    intro before
    rw [ancestorsFrom, List.count_cons]
    split <;> simp_all

/-- What an ancestor is below is found at the number of its separators. -/
theorem ancestorsFrom_get {ancestor path : Bytes} (below : ancestor ++ [47] <+: path) : ∀ before,
    (ancestorsFrom before path)[ancestor.count 47]? = some (before ++ ancestor) := by
  induction path generalizing ancestor with
  | nil => simp at below
  | cons byte path ih =>
    intro before
    rw [ancestorsFrom]
    cases ancestor with
    | nil =>
      obtain rfl : byte = 47 := by
        obtain ⟨rest, eq⟩ := below
        exact (List.cons.inj eq).1.symm
      simp
    | cons first ancestor =>
      rw [List.cons_append, List.cons_prefix_cons] at below
      obtain ⟨rfl, below⟩ := below
      have later := ih below (before ++ [first])
      rw [List.append_assoc, List.singleton_append] at later
      split
      case isTrue separator =>
        subst separator
        rw [List.count_cons_self, List.getElem?_cons_succ, later]
      case isFalse other =>
        rw [List.count_cons_of_ne other, later]

theorem ancestorsFrom_below {path ancestor : Bytes} : ∀ {before : Bytes},
    ancestor ∈ ancestorsFrom before path → ancestor ++ [47] <+: before ++ path := by
  induction path with
  | nil =>
    intro before mem
    cases mem
  | cons byte path ih =>
    intro before mem
    rw [ancestorsFrom] at mem
    have later := @ih (before ++ [byte])
    rw [List.append_assoc, List.singleton_append] at later
    split at mem
    case isTrue separator =>
      subst separator
      rcases List.mem_cons.mp mem with rfl | mem
      · exact ⟨path, by simp⟩
      · exact later mem
    case isFalse => exact later mem

theorem mem_ancestors {ancestor path : Bytes} : ancestor ∈ ancestors path ↔ Below 47 ancestor path := by
  rw [ancestors_eq]
  refine ⟨fun mem => ancestorsFrom_below mem, fun below => ?_⟩
  exact List.mem_of_getElem? (ancestorsFrom_get below [])

theorem ancestors_length (path : Bytes) : (ancestors path).length = path.count 47 := by
  rw [ancestors_eq, ancestorsFrom_length]

/-! ### The order of the set -/

theorem cons_le_iff {left right : Nat} {lefts rights : List Nat} :
    left :: lefts ≤ right :: rights ↔ left < right ∨ left = right ∧ lefts ≤ rights := by
  have less : right :: rights < left :: lefts ↔ right < left ∨ right = left ∧ rights < lefts :=
    List.cons_lex_cons_iff
  rw [← not_lt, less, not_or, not_and, not_lt, not_lt, Nat.le_iff_lt_or_eq]
  constructor
  · rintro ⟨smaller | rfl, later⟩
    · exact .inl smaller
    · exact .inr ⟨rfl, later rfl⟩
  · rintro (smaller | ⟨rfl, later⟩)
    · exact ⟨.inl smaller, fun same => absurd same smaller.ne'⟩
    · exact ⟨.inr rfl, fun _ => later⟩

theorem prefix_of_between {first : List Nat} : ∀ {middle rest : List Nat}, first ≤ middle →
    middle ≤ first ++ rest → first <+: middle := by
  induction first with
  | nil => exact fun _ _ => List.nil_prefix
  | cons number first ih =>
    intro middle rest lower upper
    cases middle with
    | nil => exact absurd (List.Lex.nil : ([] : List Nat) < number :: first) (not_lt.mpr lower)
    | cons other middle =>
      rw [cons_le_iff] at lower
      rw [List.cons_append, cons_le_iff] at upper
      rcases lower with less | ⟨rfl, lower⟩
      · omega
      · exact (List.prefix_cons_inj _).mpr (ih lower (upper.resolve_left (Nat.lt_irrefl _)).2)

theorem le_append (first rest : List Nat) : first ≤ first ++ rest := by
  induction first with
  | nil => exact not_lt.mp (List.not_lt_nil rest)
  | cons number first ih =>
    rw [List.cons_append, cons_le_iff]
    exact .inr ⟨rfl, ih⟩

theorem Text.le_iff {left right : Text} :
    left ≤ right ↔ left.bytes.map UInt8.toNat ≤ right.bytes.map UInt8.toNat := Iff.rfl

/-- **Range query.**  The first key from a prefix on has the prefix if any key has. -/
theorem firstFrom_any {used : Finset Text} {start : Bytes} :
    ((firstFrom used start).any fun path => start.isPrefixOf path.bytes) = true
      ↔ ∃ key ∈ used, start <+: key.bytes := by
  unfold firstFrom
  generalize members : used.filter (fun key => start.map UInt8.toNat ≤ key.bytes.map UInt8.toNat)
    = candidates
  constructor
  · intro found
    rw [Option.any_eq_true] at found
    obtain ⟨key, first, begins⟩ := found
    have mem : key ∈ candidates := (Finset.mem_sort _).mp (List.mem_of_mem_head? first)
    rw [← members, Finset.mem_filter] at mem
    exact ⟨key, mem.1, List.isPrefixOf_iff_prefix.mp begins⟩
  · rintro ⟨key, mem, rest, eq⟩
    have inside : key ∈ candidates.sort (· ≤ ·) := by
      rw [Finset.mem_sort, ← members, Finset.mem_filter]
      refine ⟨mem, ?_⟩
      rw [← eq, List.map_append]
      exact le_append _ _
    have sorted := candidates.pairwise_sort (· ≤ ·)
    generalize listed : candidates.sort (· ≤ ·) = list at inside sorted
    match list, listed, inside, sorted with
    | first :: list, listed, inside, sorted =>
      have least : first ≤ key := by
        rcases List.mem_cons.mp inside with rfl | later
        · exact le_refl _
        · exact (List.pairwise_cons.mp sorted).1 key later
      have from_start : first ∈ candidates := by
        rw [← Finset.mem_sort (· ≤ ·), listed]
        exact List.mem_cons_self
      rw [← members, Finset.mem_filter] at from_start
      rw [Text.le_iff, ← eq, List.map_append] at least
      have begins := prefix_of_between from_start.2 least
      rw [List.head?_cons, Option.any_some, List.isPrefixOf_iff_prefix]
      obtain ⟨front, begins, same⟩ := List.prefix_map_iff.mp begins
      rwa [List.map_injective_iff.mpr (fun _ _ equal => UInt8.toNat_inj.mp equal) same]

/-! ### Conflicts -/

/-- The key clashes with no key of the set. -/
def Clear (used : Finset Text) (key : Text) : Prop :=
  ∀ other ∈ used, ¬Clash 47 other.bytes key.bytes

/-- Keys of files: none lies below another one. -/
def Portable (used : Finset Text) : Prop :=
  ∀ key ∈ used, ∀ other ∈ used, ¬Below 47 key.bytes other.bytes

theorem Portable.insert {used : Finset Text} {key : Text} (portable : Portable used)
    (clear : Clear used key) : Portable (insert key used) := by
  intro upper upperMem lower lowerMem below
  rcases Finset.mem_insert.mp upperMem with rfl | upperHeld
  · rcases Finset.mem_insert.mp lowerMem with rfl | lowerHeld
    · exact Below.irrefl _ below
    · exact clear lower lowerHeld (.inr (.inr below))
  · rcases Finset.mem_insert.mp lowerMem with rfl | lowerHeld
    · exact clear upper upperHeld (.inr (.inl below))
    · exact portable upper upperHeld lower lowerHeld below

section Conflicts

variable {platform : Platform} {candidate : Text} {used : Finset Text}

theorem conflictingPathComponent_eq : conflictingPathComponent platform candidate used =
    match (ancestors (portablePathCollisionKey platform candidate).bytes).findIdx?
        fun ancestor => ∃ path ∈ used, path.bytes = ancestor with
    | some componentIndex => some componentIndex
    | none =>
      if ∃ key ∈ used, key = portablePathCollisionKey platform candidate
          ∨ Below 47 (portablePathCollisionKey platform candidate).bytes key.bytes
      then some ((portablePathCollisionKey platform candidate).bytes.count 47)
      else none := by
  unfold conflictingPathComponent
  dsimp only
  split
  case h_1 => rfl
  case h_2 =>
    simp only [firstFrom_any, ancestors_length]
    by_cases held : portablePathCollisionKey platform candidate ∈ used
    · rw [if_pos held, if_pos ⟨_, held, .inl rfl⟩]
    · rw [if_neg held]
      refine if_congr ?_ rfl rfl
      constructor
      · rintro ⟨key, mem, begins⟩
        exact ⟨key, mem, .inr begins⟩
      · rintro ⟨key, mem, rfl | begins⟩
        · exact absurd mem held
        · exact ⟨key, mem, begins⟩

/-- **No conflict.**  A candidate has a conflict unless its key is clear of the set. -/
theorem conflictingPathComponent_eq_none : conflictingPathComponent platform candidate used = none
    ↔ Clear used (portablePathCollisionKey platform candidate) := by
  rw [conflictingPathComponent_eq]
  constructor
  · intro none other mem clash
    split at none
    case h_1 => cases none
    case h_2 noAncestor =>
      rw [List.findIdx?_eq_none_iff] at noAncestor
      split at none
      case isTrue => cases none
      case isFalse noOther =>
        rcases clash with same | above | below
        · exact noOther ⟨other, mem, .inl (Text.bytes_injective same)⟩
        · have free := noAncestor _ (mem_ancestors.mpr above)
          rw [decide_eq_false_iff_not] at free
          exact free ⟨other, mem, rfl⟩
        · exact noOther ⟨other, mem, .inr below⟩
  · intro clear
    have noAncestor : (ancestors (portablePathCollisionKey platform candidate).bytes).findIdx?
        (fun ancestor => ∃ path ∈ used, path.bytes = ancestor) = none := by
      rw [List.findIdx?_eq_none_iff]
      intro ancestor mem
      rw [decide_eq_false_iff_not]
      rintro ⟨path, held, rfl⟩
      exact clear path held (.inr (.inl (mem_ancestors.mp mem)))
    rw [noAncestor]
    refine if_neg ?_
    rintro ⟨other, mem, same | below⟩
    · exact clear other mem (.inl (congrArg Text.bytes same))
    · exact clear other mem (.inr (.inr below))

/-- **The first conflict.**  No key lies above the component that has the conflict. -/
theorem conflictingPathComponent_first {componentIndex : Nat}
    (conflict : conflictingPathComponent platform candidate used = some componentIndex) :
    componentIndex ≤ (portablePathCollisionKey platform candidate).bytes.count 47
      ∧ ∀ before, before <+: (portablePathCollisionKey platform candidate).bytes →
        before.count 47 ≤ componentIndex → ∀ key ∈ used, ¬key.bytes ++ [47] <+: before := by
  rw [conflictingPathComponent_eq] at conflict
  generalize portablePathCollisionKey platform candidate = whole at conflict ⊢
  have inside : ∀ {key before : Bytes}, before <+: whole.bytes → key ++ [47] <+: before →
      (ancestors whole.bytes)[key.count 47]? = some key ∧ key.count 47 < before.count 47 := by
    intro key before begins above
    refine ⟨?_, ?_⟩
    · rw [ancestors_eq]
      exact ancestorsFrom_get (above.trans begins) []
    · have counted := above.sublist.count_le 47
      rw [List.count_append, List.count_singleton_self] at counted
      omega
  split at conflict
  case h_1 position found =>
    cases conflict
    obtain ⟨lt, -, before⟩ := List.findIdx?_eq_some_iff_getElem.mp found
    refine ⟨ancestors_length whole.bytes ▸ lt.le, fun front begins few key mem above => ?_⟩
    obtain ⟨held, less⟩ := inside begins above
    obtain ⟨bound, here⟩ := List.getElem?_eq_some_iff.mp held
    have free := before (key.bytes.count 47) (by omega)
    rw [here] at free
    simp only [decide_eq_true_eq] at free
    exact free ⟨key, mem, rfl⟩
  case h_2 noAncestor =>
    split at conflict
    case isFalse => cases conflict
    case isTrue =>
      cases conflict
      refine ⟨Nat.le_refl _, fun front begins _ key mem above => ?_⟩
      rw [List.findIdx?_eq_none_iff] at noAncestor
      have free := noAncestor _ (mem_ancestors.mpr (above.trans begins))
      rw [decide_eq_false_iff_not] at free
      exact free ⟨key, mem, rfl⟩

end Conflicts

end Onda.Project
