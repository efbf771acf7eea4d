import Onda.Project.BufferCodec
import Onda.Project.PathKeys

/-!
# Unique portable paths

`make_unique_path` always finds a path that clashes with none in use, whatever the set
and the candidate.  `unique_asset_path` never leaves its directory, and refuses when a
file in use is the directory or lies above it.  A set that either of them has extended is
one `validate_portable_file_set` accepts.
-/

namespace Onda.Project

open Separated

section Unique

variable {platform : Platform}

/-! ### Sources -/

variable {assetDirectory digest : Bytes} {used used' : Finset Text} {paths : List Text}
  {componentIndex : Nat} {candidate unique : Text}

theorem suffixedPath_sound : ∀ {count suffix : Nat},
    suffixedPath platform candidate componentIndex used count suffix = .ok (unique, used') →
      used' = insert (portablePathCollisionKey platform unique) used
        ∧ Clear used (portablePathCollisionKey platform unique) := by
  intro count
  induction count with
  | zero =>
    intro suffix made
    cases made
  | succ count ih =>
    intro suffix made
    rw [suffixedPath, bind_ok_iff] at made
    obtain ⟨path, -, made⟩ := made
    split at made
    case isTrue free =>
      cases made
      exact ⟨rfl, conflictingPathComponent_eq_none.mp free⟩
    case isFalse => exact ih made

/-- **Soundness.**  A path that is returned is clear of the set, and is the one added. -/
theorem makeUniquePath_sound (made : makeUniquePath platform candidate used = .ok (unique, used')) :
    used' = insert (portablePathCollisionKey platform unique) used
      ∧ Clear used (portablePathCollisionKey platform unique) := by
  unfold makeUniquePath at made
  split at made
  case isTrue => cases made
  case isFalse =>
    split at made
    case h_1 free =>
      cases made
      exact ⟨rfl, conflictingPathComponent_eq_none.mp free⟩
    case h_2 => exact suffixedPath_sound made

/-- The loop ends at the latest with a number that is clear. -/
theorem suffixedPath_ok {number : Nat}
    (room : ∀ other ≤ number, (suffixPathComponent candidate.bytes componentIndex other).length < 2 ^ 56)
    (clear : Clear used (portablePathCollisionKey platform
      (.ofBytes (suffixPathComponent candidate.bytes componentIndex number)))) :
    ∀ {count suffix : Nat}, suffix ≤ number → number < suffix + count →
      ∃ result, suffixedPath platform candidate componentIndex used count suffix = .ok result := by
  intro count
  induction count with
  | zero =>
    intro suffix lower upper
    omega
  | succ count ih =>
    intro suffix lower upper
    rw [suffixedPath, Text.build_ok (room suffix lower)]
    simp only [bind, Except.bind]
    split
    case isTrue => exact ⟨_, rfl⟩
    case isFalse taken =>
      refine ih (Nat.lt_of_le_of_ne lower ?_) (by omega)
      rintro rfl
      exact taken (conflictingPathComponent_eq_none.mpr clear)

/-- **A number without a conflict.**  One of the first numbers is clear. -/
theorem exists_clear {used : Finset Text} {before stem extension after : Bytes} (opens : Opens before)
    (closes : Closes after) (stemFree : 47 ∉ stem) (extensionFree : 47 ∉ extension)
    (maps : platform.MapsText)
    (room : before.length + stem.length + extension.length + after.length + 21 < 2 ^ 56)
    (counted : used.card + 2 < 2 ^ 64)
    (notAbove : ∀ key ∈ used,
      ¬key.bytes ++ [47] <+: mapped (portablePathCollisionKey platform) before) :
    ∃ number, 2 ≤ number ∧ number ≤ 2 + used.card ∧ Clear used (portablePathCollisionKey platform
      (.ofBytes (before ++ (stem ++ 45 :: (decimal number ++ extension)) ++ after))) := by
  have around := maps.key
  obtain ⟨number, lower, upper, free⟩ := @exists_free UInt8 47 _ Text _ used Text.bytes
    (mapped (portablePathCollisionKey platform) before)
    (mapped (portablePathCollisionKey platform) after)
    (fun number => mapped (portablePathCollisionKey platform) stem
      ++ 45 :: (decimal number ++ mapped (portablePathCollisionKey platform) extension))
    (by
      intro left right same
      simp only [List.append_cancel_left_eq, List.cons.injEq, true_and,
        List.append_cancel_right_eq] at same
      exact decimal_injective same)
    (by
      intro number
      simp only [List.mem_append, List.mem_cons, not_or]
      exact ⟨mapped_free around (by omega) stemFree, by decide, decimal_noSeparator,
        mapped_free around (by omega) extensionFree⟩)
    (mapped_closes around closes (by omega)) notAbove 2
  refine ⟨number, lower, upper, fun other mem clash => free other mem ?_⟩
  have digits := decimal_length (show number < 2 ^ 64 by omega)
  have fits : (before ++ (stem ++ 45 :: (decimal number ++ extension)) ++ after).length < 2 ^ 56 := by
    simp only [List.length_append, List.length_cons]
    omega
  have inner : (stem ++ 45 :: (decimal number ++ extension)).length < 2 ^ 56 := by
    simp only [List.length_append, List.length_cons]
    omega
  have key : (portablePathCollisionKey platform
      (.ofBytes (before ++ (stem ++ 45 :: (decimal number ++ extension)) ++ after))).bytes
      = mapped (portablePathCollisionKey platform)
        (before ++ (stem ++ 45 :: (decimal number ++ extension)) ++ after) := rfl
  rwa [key, mapped_pieces around opens closes fits, mapped_number around inner] at clash

/-- **Totality.**  A path is always found. -/
theorem makeUniquePath_ok (maps : platform.MapsText) (nonempty : candidate.bytes ≠ [])
    (room : candidate.bytes.length + 22 < 2 ^ 56) (counted : used.card + 2 ≤ platform.usizeMax) :
    ∃ result, makeUniquePath platform candidate used = .ok result := by
  rw [makeUniquePath, if_neg nonempty]
  split
  case h_1 => exact ⟨_, rfl⟩
  case h_2 componentIndex conflict =>
    obtain ⟨inside, notAbove⟩ := conflictingPathComponent_first conflict
    have around := maps.key
    have counted64 := platform.usize_le_u64
    have keyBytes := mapped_bytes (portablePathCollisionKey platform) candidate
    rw [← keyBytes, count_mapped around candidate.fits] at inside
    obtain ⟨before, component, after, pieces, count, opens, closes, free⟩ :=
      exists_component candidate.bytes componentIndex inside
    obtain ⟨stem, extension, stemFree, extensionFree, short, numbered⟩ := suffixComponent_eq free
    have lengths := congrArg List.length pieces
    simp only [List.length_append] at lengths
    have suffixed : ∀ number, suffixPathComponent candidate.bytes componentIndex number
        = before ++ (stem ++ 45 :: (decimal number ++ extension)) ++ after := by
      intro number
      rw [pieces, ← count, suffixPathComponent_eq opens closes free, numbered]
    -- The pieces in front of the component lie below no key: it has the first conflict.
    have clearFront : ∀ key ∈ used,
        ¬key.bytes ++ [47] <+: mapped (portablePathCollisionKey platform) before := by
      apply notAbove
      · rw [← keyBytes, pieces, mapped_pieces around opens closes (pieces ▸ candidate.fits),
          List.append_assoc]
        exact List.prefix_append _ _
      · rw [count_mapped around (by omega), count]
    obtain ⟨number, lower, upper, clear⟩ := exists_clear opens closes stemFree extensionFree maps
      (by omega) (by omega) clearFront
    rw [← suffixed] at clear
    refine suffixedPath_ok (fun other le => ?_) clear lower (by omega)
    have digits := decimal_length (show other < 2 ^ 64 by omega)
    rw [suffixed]
    simp only [List.length_append, List.length_cons]
    omega

/-! ### Assets -/

theorem registerMaterializedPath_some {path : Text} :
    registerMaterializedPath platform used path = some used'
      ↔ used' = insert (portablePathCollisionKey platform path) used
        ∧ Clear used (portablePathCollisionKey platform path) := by
  have clash : (∃ other ∈ used, other = portablePathCollisionKey platform path
      ∨ ((portablePathCollisionKey platform path).bytes ++ [47]).isPrefixOf other.bytes
      ∨ (other.bytes.isPrefixOf (portablePathCollisionKey platform path).bytes
        ∧ ((portablePathCollisionKey platform path).bytes.drop other.bytes.length).head? = some 47))
      ↔ ∃ other ∈ used, Clash 47 other.bytes (portablePathCollisionKey platform path).bytes := by
    refine exists_congr fun other => and_congr_right fun _ => ?_
    rw [List.isPrefixOf_iff_prefix, List.isPrefixOf_iff_prefix, Clash,
      Text.bytes_injective.eq_iff, @or_comm (_ <+: other.bytes)]
    refine or_congr_right (or_congr_left ?_)
    constructor
    · rintro ⟨⟨rest, eq⟩, next⟩
      rw [← eq, List.drop_left] at next
      obtain ⟨more, rfl⟩ := List.head?_eq_some_iff.mp next
      exact ⟨more, by rw [← eq, List.append_assoc, List.singleton_append]⟩
    · rintro ⟨more, eq⟩
      rw [← eq, List.append_assoc, List.drop_left]
      exact ⟨List.prefix_append _ _, rfl⟩
  unfold registerMaterializedPath
  dsimp only
  split
  case isTrue taken =>
    obtain ⟨other, mem, clashes⟩ := clash.mp taken
    refine ⟨nofun, ?_⟩
    rintro ⟨-, clear⟩
    exact absurd clashes (clear other mem)
  case isFalse free =>
    rw [clash] at free
    push Not at free
    rw [Option.some.injEq]
    exact ⟨fun same => ⟨same.symm, free⟩, fun same => same.1.symm⟩

theorem registerMaterializedPath_none {path : Text} :
    registerMaterializedPath platform used path = none
      ↔ ¬Clear used (portablePathCollisionKey platform path) := by
  constructor
  · intro refused clear
    rw [registerMaterializedPath_some.mpr ⟨rfl, clear⟩] at refused
    cases refused
  · intro taken
    cases registered : registerMaterializedPath platform used path with
    | none => rfl
    | some used' => exact absurd (registerMaterializedPath_some.mp registered).2 taken

/-- Of paths that fit, the first clear one is registered. -/
theorem registerFirst_eq (platform : Platform) (used : Finset Text) {paths : List Bytes}
    (room : ∀ path ∈ paths, path.length < 2 ^ 56) :
    ((∃ path ∈ paths, Clear used (portablePathCollisionKey platform (.ofBytes path)))
      ∧ ∃ unique, registerFirst platform used paths
          = .ok (some (unique, insert (portablePathCollisionKey platform unique) used))
        ∧ Clear used (portablePathCollisionKey platform unique))
    ∨ ((∀ path ∈ paths, ¬Clear used (portablePathCollisionKey platform (.ofBytes path)))
      ∧ registerFirst platform used paths = .ok none) := by
  induction paths with
  | nil =>
    refine .inr ⟨fun path mem => absurd mem List.not_mem_nil, rfl⟩
  | cons path paths ih =>
    rw [List.forall_mem_cons] at room
    simp only [registerFirst, Text.build_ok room.1, bind, Except.bind]
    by_cases clear : Clear used (portablePathCollisionKey platform (.ofBytes path))
    · rw [registerMaterializedPath_some.mpr ⟨rfl, clear⟩]
      exact .inl ⟨⟨path, List.mem_cons_self, clear⟩, _, rfl, clear⟩
    · rw [registerMaterializedPath_none.mpr clear]
      dsimp only
      rcases ih room.2 with ⟨⟨other, mem, free⟩, found⟩ | ⟨taken, none⟩
      · exact .inl ⟨⟨other, List.mem_cons_of_mem _ mem, free⟩, found⟩
      · exact .inr ⟨List.forall_mem_cons.mpr ⟨clear, taken⟩, none⟩

theorem registerFirst_sound {paths : List Bytes}
    (registered : registerFirst platform used paths = .ok (some (unique, used'))) :
    used' = insert (portablePathCollisionKey platform unique) used
      ∧ Clear used (portablePathCollisionKey platform unique) := by
  induction paths with
  | nil => cases registered
  | cons bytes paths ih =>
    rw [registerFirst, bind_ok_iff] at registered
    obtain ⟨path, -, registered⟩ := registered
    split at registered
    case h_1 held =>
      cases registered
      exact registerMaterializedPath_some.mp held
    case h_2 => exact ih registered

/-- The three paths that are tried first. -/
def assetCandidates (assetDirectory stem digest short : Bytes) : List Bytes :=
  [assetDirectory ++ ascii "/" ++ stem ++ ascii ".ondabuffer",
    assetDirectory ++ ascii "/" ++ stem ++ ascii "-" ++ short ++ ascii ".ondabuffer",
    assetDirectory ++ ascii "/" ++ stem ++ ascii "-" ++ digest ++ ascii ".ondabuffer"]

/-- The paths with numbers. -/
def numberedAssets (assetDirectory stem digest : Bytes) (maxSuffix : Nat) : List Bytes :=
  (List.range' 2 (maxSuffix - 1)).map fun suffix =>
    assetDirectory ++ ascii "/" ++ stem ++ ascii "-" ++ digest ++ ascii "-" ++ decimal suffix
      ++ ascii ".ondabuffer"

theorem uniqueAssetPath_eq {stem : Bytes} :
    uniqueAssetPath platform assetDirectory stem digest used = (do
      let short ← slice digest 0 8
      match ← registerFirst platform used (assetCandidates assetDirectory stem digest short) with
      | some result => .ok result
      | none =>
        match ← registerFirst platform used (numberedAssets assetDirectory stem digest
          (min (used.card + 2) platform.usizeMax)) with
        | some result => .ok result
        | none => reject (ascii "could not allocate a unique portable asset path")) := rfl

theorem uniqueAssetPath_sound {stem : Bytes}
    (made : uniqueAssetPath platform assetDirectory stem digest used = .ok (unique, used')) :
    used' = insert (portablePathCollisionKey platform unique) used
      ∧ Clear used (portablePathCollisionKey platform unique) := by
  rw [uniqueAssetPath_eq, bind_ok_iff] at made
  obtain ⟨short, -, made⟩ := made
  rw [bind_ok_iff] at made
  obtain ⟨first, registered, made⟩ := made
  cases first with
  | some result =>
    cases made
    exact registerFirst_sound registered
  | none =>
    rw [bind_ok_iff] at made
    obtain ⟨second, registered, made⟩ := made
    cases second with
    | some result =>
      cases made
      exact registerFirst_sound registered
    | none => cases made

/-- A key in use is the directory of the assets or lies above it. -/
def DirectoryTaken (platform : Platform) (assetDirectory : Bytes) (used : Finset Text) : Prop :=
  ∃ key ∈ used, key.bytes ++ [47] <+: mapped (portablePathCollisionKey platform) assetDirectory ++ [47]

/-- Below a directory that is taken, no path is clear. -/
theorem DirectoryTaken.not_clear {rest : Bytes}
    (taken : DirectoryTaken platform assetDirectory used) (maps : platform.MapsText)
    (fits : (assetDirectory ++ 47 :: rest).length < 2 ^ 56) :
    ¬Clear used (portablePathCollisionKey platform (.ofBytes (assetDirectory ++ 47 :: rest))) := by
  obtain ⟨key, mem, above⟩ := taken
  intro clear
  refine clear key mem (.inr (.inl ?_))
  have whole : (portablePathCollisionKey platform (.ofBytes (assetDirectory ++ 47 :: rest))).bytes
      = mapped (portablePathCollisionKey platform) (assetDirectory ++ 47 :: rest) := rfl
  rw [Below, whole, mapped_split maps.key (by decide) fits]
  refine List.IsPrefix.trans above ⟨mapped (portablePathCollisionKey platform) rest, ?_⟩
  rw [List.append_assoc, List.singleton_append]

/-- Every path tried lies in the directory. -/
theorem exists_below_directory {stem path : Bytes} {maxSuffix : Nat}
    (tried : path ∈ assetCandidates assetDirectory stem digest (digest.take 8)
      ∨ path ∈ numberedAssets assetDirectory stem digest maxSuffix) (small : maxSuffix < 2 ^ 64) :
    ∃ rest, path = assetDirectory ++ 47 :: rest
      ∧ rest.length ≤ stem.length + digest.length + 33 := by
  have slash : ascii "/" = [47] := rfl
  have extension : (ascii ".ondabuffer").length = 11 := rfl
  have hyphen : (ascii "-").length = 1 := rfl
  rcases tried with mem | mem
  · have least := List.length_take_le 8 digest
    simp only [assetCandidates, slash, List.mem_cons, List.not_mem_nil, or_false,
      List.append_assoc, List.singleton_append] at mem
    have shorter := List.length_take_le' 8 digest
    rcases mem with rfl | rfl | rfl
    all_goals
      refine ⟨_, rfl, ?_⟩
      simp only [List.append_eq, List.length_append, extension, hyphen]
      omega
  · obtain ⟨suffix, inside, rfl⟩ := List.mem_map.mp mem
    rw [List.mem_range'_1] at inside
    have digits := decimal_length (show suffix < 2 ^ 64 by omega)
    simp only [slash, List.append_assoc, List.singleton_append]
    refine ⟨_, rfl, ?_⟩
    simp only [List.append_eq, List.length_append, extension, hyphen]
    omega

section Assets

variable {assetDirectory stem digest : Bytes} {used : Finset Text} (maps : platform.MapsText)
  (room : assetDirectory.length + stem.length + digest.length + 34 < 2 ^ 56)
  (counted : used.card + 2 ≤ platform.usizeMax) (long : 8 ≤ digest.length)

include maps room counted long

/-- What the two attempts of `unique_asset_path` come to. -/
theorem uniqueAssetPath_cases :
    (∃ unique, uniqueAssetPath platform assetDirectory stem digest used
        = .ok (unique, insert (portablePathCollisionKey platform unique) used)
      ∧ Clear used (portablePathCollisionKey platform unique)
      ∧ ¬DirectoryTaken platform assetDirectory used)
    ∨ (uniqueAssetPath platform assetDirectory stem digest used
        = reject (ascii "could not allocate a unique portable asset path")
      ∧ ∀ path ∈ numberedAssets assetDirectory stem digest (used.card + 2),
        ¬Clear used (portablePathCollisionKey platform (.ofBytes path))) := by
  have counted64 := platform.usize_le_u64
  have fits : ∀ path, path ∈ assetCandidates assetDirectory stem digest (digest.take 8)
      ∨ path ∈ numberedAssets assetDirectory stem digest (used.card + 2) →
      ∃ rest, path = assetDirectory ++ 47 :: rest ∧ (assetDirectory ++ 47 :: rest).length < 2 ^ 56 := by
    intro path tried
    obtain ⟨rest, rfl, short⟩ := exists_below_directory tried (by omega)
    refine ⟨rest, rfl, ?_⟩
    rw [List.length_append, List.length_cons]
    omega
  have notTaken : ∀ path, path ∈ assetCandidates assetDirectory stem digest (digest.take 8)
      ∨ path ∈ numberedAssets assetDirectory stem digest (used.card + 2) →
      Clear used (portablePathCollisionKey platform (.ofBytes path)) →
      ¬DirectoryTaken platform assetDirectory used := by
    intro path tried clear taken
    obtain ⟨rest, rfl, inside⟩ := fits path tried
    exact taken.not_clear maps inside clear
  have room : ∀ path, path ∈ assetCandidates assetDirectory stem digest (digest.take 8)
      ∨ path ∈ numberedAssets assetDirectory stem digest (used.card + 2) → path.length < 2 ^ 56 := by
    intro path tried
    obtain ⟨rest, rfl, inside⟩ := fits path tried
    exact inside
  rw [uniqueAssetPath_eq, slice_eq (Nat.zero_le 8) long, Nat.min_eq_left counted]
  simp only [bind, Except.bind, List.drop_zero, Nat.sub_zero]
  rcases registerFirst_eq platform used
      fun path mem => room path (.inl mem) with ⟨⟨path, mem, clear⟩, unique, made, free⟩ | ⟨-, none⟩
  · rw [made]
    exact .inl ⟨unique, rfl, free, notTaken path (.inl mem) clear⟩
  · rw [none]
    dsimp only
    rcases registerFirst_eq platform used
        fun path mem => room path (.inr mem) with ⟨⟨path, mem, clear⟩, unique, made, free⟩ | ⟨taken, none⟩
    · rw [made]
      exact .inl ⟨unique, rfl, free, notTaken path (.inr mem) clear⟩
    · rw [none]
      exact .inr ⟨rfl, taken⟩

/-- **Assets.**  A path is found unless the directory is taken. -/
theorem uniqueAssetPath_ok (stemFree : 47 ∉ stem) (digestFree : 47 ∉ digest)
    (free : ¬DirectoryTaken platform assetDirectory used) :
    ∃ unique, uniqueAssetPath platform assetDirectory stem digest used
        = .ok (unique, insert (portablePathCollisionKey platform unique) used)
      ∧ Clear used (portablePathCollisionKey platform unique) := by
  rcases uniqueAssetPath_cases maps room counted long with ⟨unique, made, clear, -⟩ | ⟨-, taken⟩
  · exact ⟨unique, made, clear⟩
  · have counted64 := platform.usize_le_u64
    have directory : mapped (portablePathCollisionKey platform) (assetDirectory ++ [47])
        = mapped (portablePathCollisionKey platform) assetDirectory ++ [47] := by
      rw [mapped_split maps.key (by decide) (by simp; omega), mapped_nil maps.key]
    obtain ⟨number, lower, upper, clear⟩ := @exists_clear platform used (assetDirectory ++ [47])
      (stem ++ 45 :: digest) (ascii ".ondabuffer") [] (.inr ⟨assetDirectory, rfl⟩) (.inl rfl)
      (by simp [stemFree, digestFree]) (by decide) maps
      (by simp [ascii]; omega) (by omega) (by
        intro key mem above
        rw [directory] at above
        exact free ⟨key, mem, above⟩)
    have listed : assetDirectory ++ ascii "/" ++ stem ++ ascii "-" ++ digest ++ ascii "-"
        ++ decimal number ++ ascii ".ondabuffer" ∈ numberedAssets assetDirectory stem digest
          (used.card + 2) :=
      List.mem_map.mpr ⟨number, List.mem_range'_1.mpr ⟨lower, by omega⟩, rfl⟩
    refine absurd ?_ (taken _ listed)
    have same : assetDirectory ++ ascii "/" ++ stem ++ ascii "-" ++ digest ++ ascii "-"
        ++ decimal number ++ ascii ".ondabuffer" = assetDirectory ++ [47] ++
          (stem ++ 45 :: digest ++ 45 :: (decimal number ++ ascii ".ondabuffer")) ++ [] := by
      simp [show ascii "-" = [45] from rfl, show ascii "/" = [47] from rfl]
    rwa [same]

/-- **Refused.**  No path is found in a directory that is taken. -/
theorem uniqueAssetPath_taken (taken : DirectoryTaken platform assetDirectory used) :
    uniqueAssetPath platform assetDirectory stem digest used
      = reject (ascii "could not allocate a unique portable asset path") := by
  rcases uniqueAssetPath_cases maps room counted long with ⟨unique, -, -, free⟩ | ⟨refused, -⟩
  · exact absurd taken free
  · exact refused

end Assets

/-! ### File sets -/

/-- **Keys.**  The first loop passes exactly the paths with distinct new keys, and keeps
the keys. -/
theorem collectPortable_spec {paths : List Text} : ∀ {portable : List (Text × Text)},
    ((∃ result, collectPortable platform paths portable = .ok result)
      ↔ (paths.map (portablePathCollisionKey platform)).Nodup
        ∧ ∀ path ∈ paths, portablePathCollisionKey platform path ∉ portable.map Prod.fst)
    ∧ ∀ result, collectPortable platform paths portable = .ok result →
      ∀ key, key ∈ result.map Prod.fst ↔ key ∈ portable.map Prod.fst
        ∨ key ∈ paths.map (portablePathCollisionKey platform) := by
  induction paths with
  | nil =>
    intro portable
    refine ⟨⟨fun _ => ⟨List.nodup_nil, fun path mem => absurd mem List.not_mem_nil⟩,
      fun _ => ⟨_, rfl⟩⟩, fun result collected key => ?_⟩
    cases collected
    simp
  | cons path paths ih =>
    intro portable
    rw [collectPortable]
    split
    case h_1 found =>
      have held := List.mem_of_find?_eq_some found
      have same := List.find?_some found
      rw [decide_eq_true_eq] at same
      refine ⟨⟨?_, ?_⟩, fun result collected => nomatch collected⟩
      · rintro ⟨result, collected⟩
        cases collected
      · rintro ⟨-, free⟩
        refine absurd ?_ (free path List.mem_cons_self)
        exact List.mem_map.mpr ⟨_, held, same⟩
    case h_2 missing =>
      have free : portablePathCollisionKey platform path ∉ portable.map Prod.fst := by
        intro mem
        obtain ⟨entry, inside, same⟩ := List.mem_map.mp mem
        rw [List.find?_eq_none] at missing
        exact missing entry inside (by rw [same, decide_eq_true_eq])
      obtain ⟨passes, keys⟩ := @ih
        (OrderedMap.insertEntry (portablePathCollisionKey platform path) path portable)
      rw [passes, List.map_cons, List.nodup_cons, List.forall_mem_cons]
      simp only [OrderedMap.mem_keys_insertEntry, not_or] at keys ⊢
      refine ⟨⟨?_, ?_⟩, fun result collected key => ?_⟩
      · rintro ⟨nodup, others⟩
        refine ⟨⟨fun mem => ?_, nodup⟩, free, fun other inside => (others other inside).2⟩
        obtain ⟨other, inside, same⟩ := List.mem_map.mp mem
        exact (others other inside).1 same
      · rintro ⟨⟨new, nodup⟩, -, others⟩
        refine ⟨nodup, fun other inside => ⟨fun same => new ?_, others other inside⟩⟩
        exact List.mem_map.mpr ⟨other, inside, same⟩
      · rw [keys result collected key, List.mem_cons]
        tauto

/-- **Ancestors.**  The second loop passes exactly the keys that lie below none. -/
theorem refuseAncestors_ok {portable entries : List (Text × Text)} :
    refuseAncestors portable entries = .ok ()
      ↔ ∀ lower ∈ entries.map Prod.fst, ∀ upper ∈ portable.map Prod.fst,
        ¬Below 47 upper.bytes lower.bytes := by
  induction entries with
  | nil => simp [refuseAncestors]
  | cons entry entries ih =>
    obtain ⟨key, original⟩ := entry
    have found : ((ancestors key.bytes).findSome? fun ancestor =>
        portable.find? fun entry => entry.1.bytes = ancestor) = none
        ↔ ∀ upper ∈ portable.map Prod.fst, ¬Below 47 upper.bytes key.bytes := by
      rw [List.findSome?_eq_none_iff]
      constructor
      · intro none upper mem below
        obtain ⟨entry, inside, rfl⟩ := List.mem_map.mp mem
        have missing := List.find?_eq_none.mp (none _ (mem_ancestors.mpr below)) entry inside
        simp at missing
      · intro free ancestor mem
        rw [List.find?_eq_none]
        intro entry inside same
        rw [decide_eq_true_eq] at same
        exact free entry.1 (List.mem_map.mpr ⟨entry, inside, rfl⟩)
          (same ▸ mem_ancestors.mp mem)
    rw [refuseAncestors, List.map_cons, List.forall_mem_cons, ← found, ← ih]
    split
    case h_1 held =>
      rw [held]
      exact ⟨nofun, fun both => nomatch both.1⟩
    case h_2 missing =>
      rw [missing]
      simp

/-- **File sets.**  Exactly the sets with distinct keys and no key below another are
accepted. -/
theorem validatePortableFileSet_ok :
    validatePortableFileSet platform paths = .ok ()
      ↔ (paths.map (portablePathCollisionKey platform)).Nodup
        ∧ ∀ upper ∈ paths, ∀ lower ∈ paths, ¬Below 47
          (portablePathCollisionKey platform upper).bytes
          (portablePathCollisionKey platform lower).bytes := by
  obtain ⟨passes, keys⟩ := @collectPortable_spec platform paths []
  simp only [List.map_nil, List.not_mem_nil, not_false_eq_true, implies_true, and_true,
    false_or] at passes keys
  rw [validatePortableFileSet, bind_ok_iff, ← passes]
  constructor
  · rintro ⟨portable, collected, refused⟩
    refine ⟨⟨portable, collected⟩, fun upper upperMem lower lowerMem => ?_⟩
    rw [refuseAncestors_ok] at refused
    exact refused _ ((keys portable collected _).mpr (List.mem_map_of_mem lowerMem))
      _ ((keys portable collected _).mpr (List.mem_map_of_mem upperMem))
  · rintro ⟨⟨portable, collected⟩, free⟩
    refine ⟨portable, collected, refuseAncestors_ok.mpr fun lower lowerMem upper upperMem => ?_⟩
    obtain ⟨lower, lowerIn, rfl⟩ := List.mem_map.mp ((keys portable collected _).mp lowerMem)
    obtain ⟨upper, upperIn, rfl⟩ := List.mem_map.mp ((keys portable collected _).mp upperMem)
    exact free upper upperIn lower lowerIn

/-! ### Runs -/

/-- Paths that were chosen one after the other, from an accepted set on, with the keys in
use after them. -/
inductive Chosen (platform : Platform) : List Text → Finset Text → Prop
  | start {paths : List Text} (accepted : validatePortableFileSet platform paths = .ok ()) :
      Chosen platform paths (paths.map (portablePathCollisionKey platform)).toFinset
  | source {paths : List Text} {candidate unique : Text} {used used' : Finset Text}
      (chosen : Chosen platform paths used)
      (made : makeUniquePath platform candidate used = .ok (unique, used')) :
      Chosen platform (unique :: paths) used'
  | asset {paths : List Text} {assetDirectory stem digest : Bytes} {unique : Text}
      {used used' : Finset Text} (chosen : Chosen platform paths used)
      (made : uniqueAssetPath platform assetDirectory stem digest used = .ok (unique, used')) :
      Chosen platform (unique :: paths) used'

/-- **One choice.**  A clear path extends an accepted set to one. -/
theorem validatePortableFileSet_cons (accepted : validatePortableFileSet platform paths = .ok ())
    (clear : Clear (paths.map (portablePathCollisionKey platform)).toFinset
      (portablePathCollisionKey platform unique)) :
    validatePortableFileSet platform (unique :: paths) = .ok () := by
  rw [validatePortableFileSet_ok] at accepted ⊢
  obtain ⟨nodup, free⟩ := accepted
  have apart : ∀ path ∈ paths, ¬Clash 47 (portablePathCollisionKey platform path).bytes
      (portablePathCollisionKey platform unique).bytes :=
    fun path mem => clear _ (List.mem_toFinset.mpr (List.mem_map_of_mem mem))
  refine ⟨?_, ?_⟩
  · rw [List.map_cons, List.nodup_cons]
    refine ⟨fun mem => ?_, nodup⟩
    obtain ⟨path, inside, same⟩ := List.mem_map.mp mem
    exact apart path inside (.inl (congrArg Text.bytes same))
  · intro upper upperMem lower lowerMem below
    rcases List.mem_cons.mp upperMem with rfl | upperIn
    · rcases List.mem_cons.mp lowerMem with rfl | lowerIn
      · exact Below.irrefl _ below
      · exact apart lower lowerIn (.inr (.inr below))
    · rcases List.mem_cons.mp lowerMem with rfl | lowerIn
      · exact apart upper upperIn (.inr (.inl below))
      · exact free upper upperIn lower lowerIn below

/-- **Runs.**  The paths chosen are accepted, and the set holds their keys. -/
theorem Chosen.accepted (chosen : Chosen platform paths used) :
    validatePortableFileSet platform paths = .ok ()
      ∧ used = (paths.map (portablePathCollisionKey platform)).toFinset := by
  induction chosen with
  | start accepted => exact ⟨accepted, rfl⟩
  | source chosen made ih =>
    obtain ⟨accepted, rfl⟩ := ih
    obtain ⟨rfl, clear⟩ := makeUniquePath_sound made
    exact ⟨validatePortableFileSet_cons accepted clear, by simp⟩
  | asset chosen made ih =>
    obtain ⟨accepted, rfl⟩ := ih
    obtain ⟨rfl, clear⟩ := uniqueAssetPath_sound made
    exact ⟨validatePortableFileSet_cons accepted clear, by simp⟩

/-- **Unique portable paths.**  A source path is always found; an asset path is found
unless its directory is taken.  The path found clashes with none in use, and the sets
that are built are the ones that are accepted.  A set in memory has fewer elements than
`usize` has values, and a path leaves room for a number. -/
theorem unique_portable_paths (platform : Platform) (maps : platform.MapsText) :
    (∀ (used : Finset Text) (candidate : Text), Portable used → candidate.bytes ≠ [] →
      candidate.bytes.length + 22 < 2 ^ 56 → used.card + 2 ≤ platform.usizeMax →
      ∃ unique, makeUniquePath platform candidate used
          = .ok (unique, insert (portablePathCollisionKey platform unique) used)
        ∧ Clear used (portablePathCollisionKey platform unique)
        ∧ Portable (insert (portablePathCollisionKey platform unique) used))
    ∧ (∀ (used : Finset Text) (assetDirectory stem digest : Bytes), Portable used →
      47 ∉ stem → 47 ∉ digest → 8 ≤ digest.length →
      assetDirectory.length + stem.length + digest.length + 34 < 2 ^ 56 →
      used.card + 2 ≤ platform.usizeMax →
      (¬DirectoryTaken platform assetDirectory used →
        ∃ unique, uniqueAssetPath platform assetDirectory stem digest used
            = .ok (unique, insert (portablePathCollisionKey platform unique) used)
          ∧ Clear used (portablePathCollisionKey platform unique)
          ∧ Portable (insert (portablePathCollisionKey platform unique) used))
      ∧ (DirectoryTaken platform assetDirectory used →
        uniqueAssetPath platform assetDirectory stem digest used
          = reject (ascii "could not allocate a unique portable asset path")))
    ∧ (∀ paths, validatePortableFileSet platform paths = .ok ()
      ↔ (paths.map (portablePathCollisionKey platform)).Nodup
        ∧ ∀ upper ∈ paths, ∀ lower ∈ paths, ¬Below 47
          (portablePathCollisionKey platform upper).bytes
          (portablePathCollisionKey platform lower).bytes)
    ∧ ∀ paths used, Chosen platform paths used →
      validatePortableFileSet platform paths = .ok ()
        ∧ used = (paths.map (portablePathCollisionKey platform)).toFinset ∧ Portable used := by
  refine ⟨?_, ?_, fun paths => validatePortableFileSet_ok, ?_⟩
  · intro used candidate portable nonempty room counted
    obtain ⟨⟨unique, used'⟩, made⟩ := makeUniquePath_ok maps nonempty room counted
    obtain ⟨rfl, clear⟩ := makeUniquePath_sound made
    exact ⟨unique, made, clear, portable.insert clear⟩
  · intro used assetDirectory stem digest portable stemFree digestFree long room counted
    refine ⟨fun free => ?_, uniqueAssetPath_taken maps room counted long⟩
    obtain ⟨unique, made, clear⟩ :=
      uniqueAssetPath_ok maps room counted long stemFree digestFree free
    exact ⟨unique, made, clear, portable.insert clear⟩
  · intro paths used chosen
    obtain ⟨accepted, rfl⟩ := chosen.accepted
    refine ⟨accepted, rfl, fun upper upperMem lower lowerMem => ?_⟩
    obtain ⟨upper, upperIn, rfl⟩ := List.mem_map.mp (List.mem_toFinset.mp upperMem)
    obtain ⟨lower, lowerIn, rfl⟩ := List.mem_map.mp (List.mem_toFinset.mp lowerMem)
    exact (validatePortableFileSet_ok.mp accepted).2 upper upperIn lower lowerIn

end Unique

/-! ### Case folding of ASCII -/

/-- A map of bytes that keeps boundaries and makes no separator. -/
theorem MapsAround.of_bytes {map : Text → Text} {change : UInt8 → UInt8}
    (bytes : ∀ text, (map text).bytes = text.bytes.map change)
    (boundary : ∀ byte, isBoundary byte → change byte = byte)
    (separator : ∀ byte, change byte = 47 → byte = 47) : MapsAround map where
  empty text none := by rw [bytes, none, List.map_nil]
  split whole left right byte isBoundary eq := by
    rw [bytes, eq, List.map_append, List.map_cons, boundary byte isBoundary, bytes, bytes]
  noSeparator text free mem := by
    rw [bytes] at mem
    obtain ⟨byte, inside, same⟩ := List.mem_map.mp mem
    exact free (separator byte same ▸ inside)

theorem isBoundary_bounds {byte : UInt8} (boundary : isBoundary byte) :
    ¬(65 ≤ byte ∧ byte ≤ 90) ∧ ¬(97 ≤ byte ∧ byte ≤ 122) := by
  simp only [isBoundary, isAsciiDigit, Bool.or_eq_true, Bool.and_eq_true, decide_eq_true_eq] at boundary
  rcases boundary with (rfl | rfl) | digit
  · decide
  · decide
  · simp only [UInt8.le_iff_toNat_le] at digit ⊢
    simp at digit ⊢
    omega

theorem Platform.ascii64_mapsText : Platform.ascii64.MapsText where
  nfc := @MapsAround.of_bytes _ id (fun text => (List.map_id _).symm) (fun _ _ => rfl)
    fun _ same => same
  toLowercase := by
    refine .of_bytes (fun text => rfl) (fun byte boundary => ?_) fun byte same => ?_
    · exact if_neg (isBoundary_bounds boundary).1
    · grind
  toUppercase := by
    refine .of_bytes (fun text => rfl) (fun byte boundary => ?_) fun byte same => ?_
    · exact if_neg (isBoundary_bounds boundary).2
    · grind

theorem Portable.singleton (key : Text) : Portable {key} := by
  intro upper upperMem lower lowerMem below
  obtain rfl := Finset.mem_singleton.mp upperMem
  obtain rfl := Finset.mem_singleton.mp lowerMem
  exact Below.irrefl _ below

/-- A second `kick.onda` gets a path of its own. -/
theorem unique_portable_paths_kick : ∃ unique,
    makeUniquePath .ascii64 (.ofBytes (ascii "code/kick.onda"))
        {.ofBytes (ascii "code/kick.onda")}
      = .ok (unique, insert (portablePathCollisionKey .ascii64 unique)
          {.ofBytes (ascii "code/kick.onda")})
      ∧ Clear {.ofBytes (ascii "code/kick.onda")} (portablePathCollisionKey .ascii64 unique) := by
  obtain ⟨unique, made, clear, -⟩ := (unique_portable_paths .ascii64 Platform.ascii64_mapsText).1
    {.ofBytes (ascii "code/kick.onda")} (.ofBytes (ascii "code/kick.onda")) (Portable.singleton _)
    (by decide) (by decide) (by rw [Finset.card_singleton]; decide)
  exact ⟨unique, made, clear⟩

/-- With a file `assets` in use, no path in the directory `assets` is found. -/
theorem uniqueAssetPath_beside_file :
    Portable {Text.ofBytes (ascii "assets")}
      ∧ uniqueAssetPath .ascii64 (ascii "assets") (ascii "kick") (ascii "0123456789abcdef")
          {.ofBytes (ascii "assets")}
        = reject (ascii "could not allocate a unique portable asset path") := by
  refine ⟨Portable.singleton _, ?_⟩
  apply uniqueAssetPath_taken Platform.ascii64_mapsText
  · decide
  · rw [Finset.card_singleton]
    decide
  · decide
  · refine ⟨_, Finset.mem_singleton_self _, ?_⟩
    have folded : mapped (portablePathCollisionKey .ascii64) (ascii "assets") = ascii "assets" := by
      decide
    rw [folded, Text.bytes_ofBytes (by decide)]

end Onda.Project
