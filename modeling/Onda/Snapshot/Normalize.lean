import Mathlib
import Onda.Lib.Wire
import Onda.Mir.Types

/-!
# Integers of a restored snapshot

A snapshot may hold any bytes, and an integer with a range is put into it.  The native host
computes with 128-bit integers; the worklet computes 32-bit integers with numbers, and 64-bit
integers with unbounded ones.
-/

namespace Onda.Snapshot

open Mir

/-- The arithmetic of `i128`: an overflow panics. -/
def i128 (value : Int) : Option Int :=
  if -2 ^ 127 ≤ value ∧ value < 2 ^ 127 then some value else none

/-- `normalize` of `normalize_integer_snapshot_value`; `clamp` panics for an empty range, and
`rem_euclid` for zero. -/
def normalize (value min max : Int) : IntegerRangeMode → Option Int
  | .clamp =>
    if min ≤ max then some (if value < min then min else if max < value then max else value)
    else none
  | .wrap =>
    (i128 (value - min)).bind fun distance =>
      (i128 (max - min)).bind fun last =>
        (i128 (last + 1)).bind fun width =>
          if width = 0 then none else i128 (min + distance % width)

/-- Arithmetic of integers that are numbers: exact up to `2 ^ 53`. -/
def number (value : Int) : Option Int :=
  if -2 ^ 53 ≤ value ∧ value ≤ 2 ^ 53 then some value else none

/-- An i32 of `normalizeSnapshotIntegerRange`; an empty range throws. -/
def normalizeNumber (value min max : Int) (mode : IntegerRangeMode) : Option Int :=
  if max < min then none
  else
    match mode with
    | .clamp => some (Min.min (Max.max value min) max)
    | .wrap =>
      (number (value - min)).bind fun distance =>
        (number (max - min)).bind fun last =>
          (number (last + 1)).bind fun width =>
            (number (distance.tmod width + width)).bind fun shifted =>
              number (min + shifted.tmod width)

/-- An i64 of `normalizeSnapshotIntegerRange`. -/
def normalizeBigInt (value min max : Int) (mode : IntegerRangeMode) : Option Int :=
  if max < min then none
  else
    match mode with
    | .clamp => some (if value < min then min else if max < value then max else value)
    | .wrap =>
      let width := max - min + 1
      some (min + ((value - min).tmod width + width).tmod width)

/-- What normalization should do. -/
def Normalizes (value min max : Int) (mode : IntegerRangeMode) (result : Int) : Prop :=
  min ≤ result ∧ result ≤ max ∧
    match mode with
    | .clamp => result = Max.max min (Min.min value max)
    | .wrap => (max - min + 1) ∣ (value - result)

/-- Only one result does. -/
theorem Normalizes.unique {value min max first second : Int} {mode : IntegerRangeMode}
    (one : Normalizes value min max mode first) (other : Normalizes value min max mode second) :
    first = second := by
  obtain ⟨low, high, one⟩ := one
  obtain ⟨low', high', other⟩ := other
  cases mode with
  | clamp => exact one.trans other.symm
  | wrap =>
    have divides : (max - min + 1) ∣ (first - second) := by
      have sub := Int.dvd_sub other one
      rwa [show value - second - (value - first) = first - second by omega] at sub
    have zero := Int.eq_zero_of_abs_lt_dvd divides (by
      rw [abs_lt]
      omega)
    omega

/-- A value of its range is not changed. -/
theorem Normalizes.of_mem {value min max : Int} (low : min ≤ value) (high : value ≤ max)
    (mode : IntegerRangeMode) : Normalizes value min max mode value := by
  refine ⟨low, high, ?_⟩
  cases mode with
  | clamp =>
    show value = Max.max min (Min.min value max)
    omega
  | wrap =>
    show max - min + 1 ∣ value - value
    rw [Int.sub_self]
    exact Int.dvd_zero _

/-- `InBits bits value`: a signed integer. -/
def InBits (bits : Nat) (value : Int) : Prop := -2 ^ (bits - 1) ≤ value ∧ value < 2 ^ (bits - 1)

theorem wrap_normalizes {value min max : Int} (ordered : min ≤ max) :
    Normalizes value min max .wrap (min + (value - min) % (max - min + 1)) := by
  have low := Int.emod_nonneg (value - min) (show max - min + 1 ≠ 0 by omega)
  have high := Int.emod_lt_of_pos (value - min) (show 0 < max - min + 1 by omega)
  refine ⟨by omega, by omega, ?_⟩
  show max - min + 1 ∣ value - (min + (value - min) % (max - min + 1))
  rw [← Int.sub_sub]
  exact Int.dvd_self_sub_emod

theorem clamp_normalizes {value min max : Int} (ordered : min ≤ max) :
    Normalizes value min max .clamp
      (if value < min then min else if max < value then max else value) := by
  refine ⟨?_, ?_, ?_⟩
  · split <;> [skip; split] <;> omega
  · split <;> [skip; split] <;> omega
  · show _ = Max.max min (Min.min value max)
    split <;> [skip; split] <;> omega

/-- The remainder of a truncated one, as the worklet takes it. -/
theorem tmod_shifted {distance width : Int} (positive : 0 < width) :
    (distance.tmod width + width).tmod width = distance % width := by
  have low := Int.emod_nonneg distance (show width ≠ 0 by omega)
  have high := Int.emod_lt_of_pos distance positive
  have truncated := @Int.tmod_eq_emod distance width
  have size : (width.natAbs : Int) = width := Int.natAbs_of_nonneg positive.le
  split at truncated
  · rw [truncated, Int.tmod_eq_emod_of_nonneg (by omega), Int.sub_eq_add_neg]
    simp
  · rw [truncated, size, Int.sub_add_cancel, Int.tmod_eq_emod_of_nonneg low, Int.emod_emod_of_dvd]
    exact Int.dvd_refl _

/-- The native host: nothing overflows for 64-bit integers. -/
theorem normalize_normalizes {value min max : Int} (wide : InBits 64 value) (low : InBits 64 min)
    (high : InBits 64 max) (ordered : min ≤ max) (mode : IntegerRangeMode) :
    ∃ result, normalize value min max mode = some result ∧
      Normalizes value min max mode result := by
  obtain ⟨w1, w2⟩ := wide
  obtain ⟨l1, l2⟩ := low
  obtain ⟨h1, h2⟩ := high
  norm_num at w1 w2 l1 l2 h1 h2
  cases mode with
  | clamp => exact ⟨_, if_pos ordered, clamp_normalizes ordered⟩
  | wrap =>
    refine ⟨_, ?_, wrap_normalizes ordered⟩
    have rest := @wrap_normalizes value min max ordered
    have inside : ∀ {number : Int}, -2 ^ 127 ≤ number → number < 2 ^ 127 →
        i128 number = some number := fun low high => if_pos ⟨low, high⟩
    rw [normalize, inside (by norm_num; omega) (by norm_num; omega), Option.bind_some,
      inside (by norm_num; omega) (by norm_num; omega), Option.bind_some,
      inside (by norm_num; omega) (by norm_num; omega), Option.bind_some, if_neg (by omega),
      inside (by norm_num; have := rest.1; omega) (by norm_num; have := rest.2.1; omega)]

theorem normalizeNumber_eq {value min max : Int} (wide : InBits 32 value) (low : InBits 32 min)
    (high : InBits 32 max) (ordered : min ≤ max) (mode : IntegerRangeMode) :
    normalizeNumber value min max mode = normalize value min max mode := by
  obtain ⟨w1, w2⟩ := wide
  obtain ⟨l1, l2⟩ := low
  obtain ⟨h1, h2⟩ := high
  norm_num at w1 w2 l1 l2 h1 h2
  unfold normalizeNumber
  rw [if_neg (by omega)]
  cases mode with
  | clamp =>
    rw [normalize, if_pos ordered, (clamp_normalizes ordered).2.2]
    refine congrArg some ?_
    show Min.min (Max.max value min) max = Max.max min (Min.min value max)
    omega
  | wrap =>
    have rest := @wrap_normalizes value min max ordered
    have exact_ : ∀ {integer : Int}, -2 ^ 53 ≤ integer → integer ≤ 2 ^ 53 →
        number integer = some integer := fun low high => if_pos ⟨low, high⟩
    have inside : ∀ {integer : Int}, -2 ^ 53 ≤ integer → integer ≤ 2 ^ 53 →
        i128 integer = some integer := by
      intro integer low high
      norm_num at low high
      refine if_pos ⟨?_, ?_⟩ <;> norm_num <;> omega
    have positive : 0 < max - min + 1 := by omega
    have remainder := Int.lt_tmod_of_pos (value - min) positive
    have remainder' := Int.tmod_lt_of_pos (value - min) positive
    dsimp only
    rw [exact_ (by norm_num; omega) (by norm_num; omega), Option.bind_some,
      exact_ (by norm_num; omega) (by norm_num; omega), Option.bind_some,
      exact_ (by norm_num; omega) (by norm_num; omega), Option.bind_some,
      exact_ (by norm_num; omega) (by norm_num; omega), Option.bind_some, tmod_shifted positive,
      normalize, inside (by norm_num; omega) (by norm_num; omega), Option.bind_some,
      inside (by norm_num; omega) (by norm_num; omega), Option.bind_some,
      inside (by norm_num; omega) (by norm_num; omega), Option.bind_some, if_neg (by omega),
      inside (by norm_num; have := rest.1; omega) (by norm_num; have := rest.2.1; omega),
      exact_ (by norm_num; have := rest.1; omega) (by norm_num; have := rest.2.1; omega)]

theorem normalizeBigInt_eq {value min max : Int} (wide : InBits 64 value) (low : InBits 64 min)
    (high : InBits 64 max) (ordered : min ≤ max) (mode : IntegerRangeMode) :
    normalizeBigInt value min max mode = normalize value min max mode := by
  obtain ⟨result, native, meets⟩ := normalize_normalizes wide low high ordered mode
  unfold normalizeBigInt
  rw [native, if_neg (by omega)]
  cases mode with
  | clamp => rw [(clamp_normalizes ordered).unique meets]
  | wrap =>
    dsimp only
    rw [tmod_shifted (by omega), (wrap_normalizes ordered).unique meets]

end Onda.Snapshot
