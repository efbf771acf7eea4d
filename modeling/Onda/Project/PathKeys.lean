import Onda.Project.PathConflicts

/-!
# Collision keys of paths

A collision key folds the case of a path and normalizes it.  Neither sees across a
separator, a hyphen or a digit, so the key of a path is the keys of its pieces, and a
number put behind a hyphen stands in the key as it is.
-/

namespace Onda.Project

open Separated

/-! ### Maps around ASCII -/

/-- The bytes that no case mapping and no normalization sees across: the separator, the
hyphen and the digits. -/
def isBoundary (byte : UInt8) : Bool := byte = 47 || byte = 45 || isAsciiDigit byte

/-- A map of texts that works on both sides of a boundary on its own, and makes no
separator from anything else. -/
structure MapsAround (map : Text → Text) : Prop where
  empty : ∀ text, text.bytes = [] → (map text).bytes = []
  split : ∀ whole left right byte, isBoundary byte → whole.bytes = left.bytes ++ byte :: right.bytes →
    (map whole).bytes = (map left).bytes ++ byte :: (map right).bytes
  noSeparator : ∀ text, 47 ∉ text.bytes → 47 ∉ (map text).bytes

theorem MapsAround.comp {outer inner : Text → Text} (outerMaps : MapsAround outer)
    (innerMaps : MapsAround inner) : MapsAround fun text => outer (inner text) where
  empty text none := outerMaps.empty _ (innerMaps.empty text none)
  split whole left right byte boundary eq :=
    outerMaps.split _ _ _ byte boundary (innerMaps.split whole left right byte boundary eq)
  noSeparator text free := outerMaps.noSeparator _ (innerMaps.noSeparator text free)

/-- The Unicode tables of the platform. -/
structure Platform.MapsText (platform : Platform) : Prop where
  nfc : MapsAround platform.nfc
  toLowercase : MapsAround platform.toLowercase
  toUppercase : MapsAround platform.toUppercase

theorem Platform.MapsText.key {platform : Platform} (maps : platform.MapsText) :
    MapsAround (portablePathCollisionKey platform) :=
  maps.nfc.comp (maps.toLowercase.comp (maps.toUppercase.comp maps.toLowercase))

/-- The text with some bytes, as far as they fit. -/
def Text.ofBytes (bytes : Bytes) : Text :=
  ⟨bytes.take (2 ^ 56 - 1), Nat.lt_of_le_of_lt (List.length_take_le ..) (by decide)⟩

theorem Text.bytes_ofBytes {bytes : Bytes} (fits : bytes.length < 2 ^ 56) :
    (Text.ofBytes bytes).bytes = bytes :=
  List.take_of_length_le (by omega)

theorem Text.build_ok {bytes : Bytes} (fits : bytes.length < 2 ^ 56) :
    Text.build bytes = .ok (Text.ofBytes bytes) := by
  rw [Text.build, dif_pos fits]
  exact congrArg Except.ok (Text.bytes_injective (Text.bytes_ofBytes fits).symm)

section Maps

variable {map : Text → Text}

/-- A map of texts on bytes. -/
def mapped (map : Text → Text) (bytes : Bytes) : Bytes := (map (Text.ofBytes bytes)).bytes

theorem mapped_bytes (map : Text → Text) (text : Text) : mapped map text.bytes = (map text).bytes := by
  have same : Text.ofBytes text.bytes = text := Text.bytes_injective (Text.bytes_ofBytes text.fits)
  rw [mapped, same]

variable (maps : MapsAround map)

include maps

theorem mapped_nil : mapped map [] = [] := maps.empty _ rfl

theorem mapped_split {left right : Bytes} {byte : UInt8} (boundary : isBoundary byte)
    (fits : (left ++ byte :: right).length < 2 ^ 56) :
    mapped map (left ++ byte :: right) = mapped map left ++ byte :: mapped map right := by
  have parts := fits
  rw [List.length_append, List.length_cons] at parts
  refine maps.split _ _ _ byte boundary ?_
  rw [Text.bytes_ofBytes fits, Text.bytes_ofBytes (by omega), Text.bytes_ofBytes (by omega)]

/-- Boundaries stay as they are. -/
theorem mapped_boundaries {digits : Bytes} (boundaries : ∀ digit ∈ digits, isBoundary digit)
    {right : Bytes} (fits : (digits ++ right).length < 2 ^ 56) :
    mapped map (digits ++ right) = digits ++ mapped map right := by
  induction digits with
  | nil => rfl
  | cons digit digits ih =>
    rw [List.cons_append] at fits ⊢
    have apart : mapped map ([] ++ digit :: (digits ++ right))
        = mapped map [] ++ digit :: mapped map (digits ++ right) :=
      mapped_split maps (boundaries digit List.mem_cons_self) fits
    rw [List.nil_append, mapped_nil maps, List.nil_append] at apart
    rw [List.length_cons] at fits
    rw [apart, ih (fun digit mem => boundaries digit (List.mem_cons_of_mem _ mem)) (by omega),
      List.cons_append]

/-- Separators are neither made nor lost. -/
theorem count_mapped {bytes : Bytes} (fits : bytes.length < 2 ^ 56) :
    (mapped map bytes).count 47 = bytes.count 47 := by
  induction size : bytes.length using Nat.strong_induction_on generalizing bytes with
  | _ size ih =>
    by_cases separated : (47 : UInt8) ∈ bytes
    · obtain ⟨left, right, rfl⟩ := List.append_of_mem separated
      have parts := fits
      rw [List.length_append, List.length_cons] at parts size
      rw [mapped_split maps (by decide) fits, List.count_append, List.count_append,
        List.count_cons_self, List.count_cons_self, ih left.length (by omega) (by omega) rfl,
        ih right.length (by omega) (by omega) rfl]
    · have free : (47 : UInt8) ∉ mapped map bytes := by
        apply maps.noSeparator
        rwa [Text.bytes_ofBytes fits]
      rw [List.count_eq_zero_of_not_mem separated, List.count_eq_zero_of_not_mem free]

end Maps

/-! ### Numbers -/

theorem decimal_digit {number : Nat} {byte : UInt8} (mem : byte ∈ decimal number) :
    48 ≤ byte ∧ byte ≤ 57 := by
  obtain ⟨digit, inside, rfl⟩ := List.mem_map.mp mem
  have isDigit := Nat.isDigit_of_mem_toDigits (by decide) (by decide) inside
  simp only [Char.isDigit, Bool.and_eq_true, decide_eq_true_eq, ge_iff_le, UInt32.le_iff_toNat_le]
    at isDigit
  simp only [UInt8.le_iff_toNat_le]
  have value : digit.toNat = digit.val.toNat := rfl
  have small : digit.toNat.toUInt8.toNat = digit.toNat := by
    simp only [Nat.toUInt8, UInt8.toNat_ofNat']
    have := isDigit.2
    simp at this
    omega
  rw [small, value]
  simpa using isDigit

theorem decimal_isBoundary {number : Nat} : ∀ digit ∈ decimal number, isBoundary digit := by
  intro digit mem
  obtain ⟨lower, upper⟩ := decimal_digit mem
  simp [isBoundary, isAsciiDigit, lower, upper]

theorem decimal_noSeparator {number : Nat} : (47 : UInt8) ∉ decimal number :=
  fun mem => absurd (decimal_digit mem).1 (by decide)

theorem decimal_injective : Function.Injective decimal := by
  have decode : ∀ number,
      (decimal number).map (fun byte => Char.ofNat byte.toNat) = Nat.toDigits 10 number := by
    intro number
    rw [decimal, List.map_map]
    conv_rhs => rw [← List.map_id (Nat.toDigits 10 number)]
    refine List.map_congr_left fun digit mem => ?_
    have isDigit := Nat.isDigit_of_mem_toDigits (by decide) (by decide) mem
    have small : digit.toNat ≤ 57 := by
      simp only [Char.isDigit, Bool.and_eq_true, decide_eq_true_eq, UInt32.le_iff_toNat_le] at isDigit
      exact isDigit.2
    have kept : digit.toNat.toUInt8.toNat = digit.toNat := by
      simp only [Nat.toUInt8, UInt8.toNat_ofNat']
      omega
    rw [Function.comp_apply, kept, Char.ofNat_toNat, id]
  intro left right same
  have digits : Nat.toDigits 10 left = Nat.toDigits 10 right := by
    rw [← decode, ← decode, same]
  have numbers := congrArg (fun digits => Nat.ofDigitChars 10 digits 0) digits
  simpa using numbers

theorem decimal_length {number : Nat} (small : number < 2 ^ 64) : (decimal number).length ≤ 20 := by
  rw [decimal, List.length_map, Nat.length_toDigits_le_iff (by decide) (by decide)]
  omega

/-! ### Components -/

/-- Nothing, or a path with its separator. -/
def Opens (before : Bytes) : Prop := before = [] ∨ ∃ front, before = front ++ [47]

/-- Nothing, or a separator with what is below. -/
def Closes (after : Bytes) : Prop := after = [] ∨ ∃ rest, after = 47 :: rest

theorem exists_component (path : Bytes) : ∀ position, position ≤ path.count 47 →
    ∃ before component after, path = before ++ component ++ after ∧ before.count 47 = position
      ∧ Opens before ∧ Closes after ∧ 47 ∉ component := by
  induction path with
  | nil =>
    intro position inside
    rw [List.count_nil, Nat.le_zero] at inside
    exact ⟨[], [], [], rfl, inside ▸ rfl, .inl rfl, .inl rfl, List.not_mem_nil⟩
  | cons byte path ih =>
    intro position inside
    by_cases separator : byte = 47
    · subst separator
      cases position with
      | zero =>
        exact ⟨[], [], 47 :: path, rfl, rfl, .inl rfl, .inr ⟨path, rfl⟩, List.not_mem_nil⟩
      | succ position =>
        rw [List.count_cons_self] at inside
        obtain ⟨before, component, after, rfl, count, opens, closes, free⟩ :=
          ih position (by omega)
        refine ⟨47 :: before, component, after, rfl, ?_, .inr ?_, closes, free⟩
        · rw [List.count_cons_self, count]
        · rcases opens with rfl | ⟨front, rfl⟩
          · exact ⟨[], rfl⟩
          · exact ⟨47 :: front, rfl⟩
    · rw [List.count_cons_of_ne separator] at inside
      obtain ⟨before, component, after, rfl, count, opens, closes, free⟩ := ih position inside
      rcases opens with rfl | ⟨front, rfl⟩
      · refine ⟨[], byte :: component, after, rfl, count, .inl rfl, closes, ?_⟩
        rw [List.mem_cons, not_or]
        exact ⟨fun same => separator same.symm, free⟩
      · refine ⟨byte :: (front ++ [47]), component, after, rfl, ?_, .inr ⟨byte :: front, rfl⟩,
          closes, free⟩
        rw [List.count_cons_of_ne separator, count]

theorem splitOn_length (path : Bytes) : (path.splitOn 47).length = path.count 47 + 1 := by
  induction path with
  | nil => rfl
  | cons byte path ih =>
    rw [List.splitOn_cons_eq_if_modifyHead, List.count_cons]
    split
    · rw [List.length_cons, ih]
    · rw [List.length_modifyHead, ih]

/-- Other components stay. -/
theorem map_zipIdx_other {components : List Bytes} {first position : Nat} (suffix : Nat)
    (outside : position < first ∨ first + components.length ≤ position) :
    ((components.zipIdx first).map fun piece =>
      if piece.2 ≠ position then piece.1 else suffixComponent piece.1 suffix) = components := by
  induction components generalizing first with
  | nil => rfl
  | cons component components ih =>
    rw [List.length_cons] at outside
    rw [List.zipIdx_cons, List.map_cons, ih (by omega)]
    dsimp only
    rw [if_pos (by omega)]

theorem intercalate_append (front : List Bytes) (component : Bytes) (rest : List Bytes)
    (some_front : front ≠ []) : [47].intercalate (front ++ component :: rest)
      = [47].intercalate front ++ 47 :: [47].intercalate (component :: rest) := by
  induction front with
  | nil => exact absurd rfl some_front
  | cons first front ih =>
    by_cases last : front = []
    · subst last
      simp
    · rw [List.cons_append, List.intercalate_cons_of_ne_nil (by simp),
        List.intercalate_cons_of_ne_nil last, ih last]
      simp

/-- The number goes into its component. -/
theorem suffixPathComponent_eq {before component after : Bytes} (opens : Opens before)
    (closes : Closes after) (free : 47 ∉ component) (suffix : Nat) :
    suffixPathComponent (before ++ component ++ after) (before.count 47) suffix
      = before ++ suffixComponent component suffix ++ after := by
  -- The component with what follows.
  have tail : ∀ first, [47].intercalate ((((component ++ after).splitOn 47).zipIdx first).map
      fun piece => if piece.2 ≠ first then piece.1 else suffixComponent piece.1 suffix)
        = suffixComponent component suffix ++ after
      ∧ (component ++ after).splitOn 47 ≠ [] := by
    intro first
    refine ⟨?_, List.splitOn_ne_nil _ _⟩
    rcases closes with rfl | ⟨rest, rfl⟩
    · rw [List.append_nil, List.splitOn_eq_singleton free]
      simp
    · rw [List.splitOn_append_cons_self_of_not_mem free, List.zipIdx_cons, List.map_cons,
        map_zipIdx_other suffix (.inl (Nat.lt_succ_self first)),
        List.intercalate_cons_of_ne_nil (List.splitOn_ne_nil _ _), List.intercalate_splitOn]
      simp
  show [47].intercalate (((before ++ component ++ after).splitOn 47).zipIdx.map fun piece =>
    if piece.2 ≠ before.count 47 then piece.1 else suffixComponent piece.1 suffix) = _
  rcases opens with rfl | ⟨front, rfl⟩
  · rw [List.nil_append, List.nil_append]
    exact (tail 0).1
  · have counted : (front ++ [47]).count 47 = (front.splitOn 47).length := by
      rw [splitOn_length, List.count_append, List.count_singleton_self]
    obtain ⟨component', rest, listed⟩ := List.exists_cons_of_ne_nil (tail 0).2
    have later := (tail (front.splitOn 47).length).1
    rw [listed, List.zipIdx_cons, List.map_cons] at later
    have apart : front ++ [47] ++ component ++ after = front ++ 47 :: (component ++ after) := by simp
    rw [counted, apart, List.splitOn_append_cons_self, List.zipIdx_append, List.map_append,
      Nat.zero_add, map_zipIdx_other suffix (.inr (Nat.le_of_eq (Nat.zero_add _))), listed,
      List.zipIdx_cons, List.map_cons, intercalate_append _ _ _ (List.splitOn_ne_nil _ _), later,
      List.intercalate_splitOn]
    simp

/-- The number stands behind a hyphen, the rest of the component around it. -/
theorem suffixComponent_eq {component : Bytes} (free : 47 ∉ component) :
    ∃ stem extension, 47 ∉ stem ∧ 47 ∉ extension
      ∧ stem.length + extension.length ≤ component.length + 1
      ∧ ∀ suffix, suffixComponent component suffix = stem ++ 45 :: (decimal suffix ++ extension) := by
  unfold suffixComponent
  cases rfind component 46 with
  | none =>
    refine ⟨component, [], free, List.not_mem_nil, by simp, fun suffix => ?_⟩
    simp [show ascii "-" = [45] from rfl]
  | some dot =>
    refine ⟨component.take dot, 46 :: component.drop (dot + 1), ?_, ?_, ?_, fun suffix => ?_⟩
    · exact fun mem => free (List.mem_of_mem_take mem)
    · rw [List.mem_cons, not_or]
      exact ⟨by decide, fun mem => free (List.mem_of_mem_drop mem)⟩
    · rw [List.length_take, List.length_cons, List.length_drop]
      omega
    · simp [show ascii "-" = [45] from rfl, show ascii "." = [46] from rfl]

section Pieces

variable {map : Text → Text} (maps : MapsAround map)

include maps

theorem mapped_separator {rest : Bytes} (fits : rest.length + 1 < 2 ^ 56) :
    mapped map (47 :: rest) = 47 :: mapped map rest := by
  have apart : mapped map ([] ++ 47 :: rest) = mapped map [] ++ 47 :: mapped map rest := by
    apply mapped_split maps (by decide)
    rw [List.nil_append, List.length_cons]
    exact fits
  rwa [List.nil_append, mapped_nil maps, List.nil_append] at apart

/-- The pieces around a component are mapped on their own. -/
theorem mapped_pieces {before component after : Bytes} (opens : Opens before)
    (closes : Closes after) (fits : (before ++ component ++ after).length < 2 ^ 56) :
    mapped map (before ++ component ++ after)
      = mapped map before ++ mapped map component ++ mapped map after := by
  have tail : (component ++ after).length < 2 ^ 56 →
      mapped map (component ++ after) = mapped map component ++ mapped map after := by
    intro room
    rcases closes with rfl | ⟨rest, rfl⟩
    · rw [mapped_nil maps, List.append_nil, List.append_nil]
    · have parts := room
      rw [List.length_append, List.length_cons] at parts
      rw [mapped_split maps (by decide) room, mapped_separator maps (by omega)]
  rw [List.append_assoc] at fits ⊢
  rcases opens with rfl | ⟨front, rfl⟩
  · rw [mapped_nil maps, List.nil_append, tail fits, List.nil_append]
  · have room := fits
    rw [List.length_append, List.length_append, List.length_singleton] at room
    have own : mapped map (front ++ [47]) = mapped map front ++ [47] := by
      rw [mapped_split maps (by decide) (by simp; omega), mapped_nil maps]
    rw [List.append_assoc, List.singleton_append] at fits ⊢
    rw [mapped_split maps (by decide) fits, tail (by omega), own]
    simp

theorem mapped_closes {after : Bytes} (closes : Closes after) (fits : after.length < 2 ^ 56) :
    Closes (mapped map after) := by
  rcases closes with rfl | ⟨rest, rfl⟩
  · exact .inl (mapped_nil maps)
  · rw [List.length_cons] at fits
    exact .inr ⟨mapped map rest, mapped_separator maps fits⟩

theorem mapped_free {piece : Bytes} (fits : piece.length < 2 ^ 56) (free : 47 ∉ piece) :
    47 ∉ mapped map piece := by
  apply maps.noSeparator
  rwa [Text.bytes_ofBytes fits]

/-- A number behind a hyphen stands in the key. -/
theorem mapped_number {stem extension : Bytes} {number : Nat}
    (fits : (stem ++ 45 :: (decimal number ++ extension)).length < 2 ^ 56) :
    mapped map (stem ++ 45 :: (decimal number ++ extension))
      = mapped map stem ++ 45 :: (decimal number ++ mapped map extension) := by
  have room := fits
  rw [List.length_append, List.length_cons] at room
  rw [mapped_split maps (by decide) fits, mapped_boundaries maps decimal_isBoundary (by omega)]

end Pieces

end Onda.Project
