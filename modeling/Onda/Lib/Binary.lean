import Mathlib

/-!
# Storing a binary floating-point number where it came from

`unpack` reads a word of a binary format as a number, `pack` makes a word of a number that is already
rounded to the format.  A word that is not a NaN is read to a number that rounding leaves as it is, and
packing gives the same word back.
-/

namespace BinaryFormat

open Float.Model Float.Model.UnpackedFloat

variable {spec : Format}

/-- Rounds a number to a format. -/
def roundTo (spec : Format) : UnpackedFloat → UnpackedFloat
  | .finite sign mantissa exponent _ => UnpackedFloat.round spec sign mantissa exponent
  | other => other

theorem shift_zero (mantissa : ExtendedMantissa) : mantissa >>> 0 = mantissa := rfl

variable {exponent : Int} {mantissa : Nat} {sign : Sign}

/-- A number whose exponent is the one the format asks for is already rounded. -/
theorem round_of_target (pos : 0 < mantissa)
    (target : spec.targetExponent (totalExponent mantissa exponent) = exponent) :
    UnpackedFloat.round spec sign mantissa exponent = .finite sign mantissa exponent pos := by
  have decreased : decreaseExponent mantissa exponent exponent = (mantissa, exponent) := by
    simp [decreaseExponent]
  have shifted : shiftToTargetExponent spec mantissa exponent .exact =
      (⟨mantissa, false, false⟩, exponent) := by
    simp [shiftToTargetExponent, target, shiftToExponent, shift_zero,
      ExtendedMantissa.ofMantissaAndAccuracy]
  have rounded : (ExtendedMantissa.mk mantissa false false).roundedMantissa = mantissa := rfl
  simp only [UnpackedFloat.round, target, decreased, roundWithAccuracy, shifted, rounded]
  exact dif_neg (by omega)

theorem toBitVec_ofBitVec (sign : BitVec 1) : (Sign.ofBitVec sign).toBitVec = sign := by
  revert sign
  decide

/-- A word is made of its sign, its exponent and its mantissa. -/
theorem packComponents_parts (word : BitVec spec.numBits) :
    packComponents spec (Sign.ofBitVec (unpackSign word)) (unpackExponent word)
      (unpackMantissa word) = word := by
  have mantissaBits := spec.hm
  have exponentBits := spec.he
  simp only [packComponents, toBitVec_ofBitVec, unpackSign, unpackExponent, unpackMantissa,
    BitVec.extractLsb]
  ext index inside
  grind

theorem toNat_ne_zero {width : Nat} {word : BitVec width} (nonzero : word ≠ 0#_) :
    word.toNat ≠ 0 :=
  fun zero => nonzero (BitVec.toNat_inj.mp (by simpa using zero))

/-- The logarithm of a mantissa with all its bits. -/
theorem log2_eq {bits : Nat} (lower : 2 ^ bits ≤ mantissa) (upper : mantissa < 2 ^ (bits + 1))
    : mantissa.log2 = bits := by
  have := Nat.two_pow_pos bits
  have most := (Nat.log2_lt (by omega)).mpr upper
  have least := (Nat.le_log2 (by omega)).mpr lower
  omega

theorem minExponent_eq (spec : Format) :
    spec.minExponent = 1 - ((spec.exponentBias : Int) + spec.mantissaBitsWithoutImplicit) := by
  have positive := Nat.two_pow_pos (spec.exponentBits - 1)
  have power : (2 : Int) ^ (spec.exponentBits - 1) = ((2 ^ (spec.exponentBits - 1) : Nat) : Int) := by
    push_cast
    rfl
  simp only [Format.minExponent, Format.exponentBias, Format.mantissaBits, power]
  omega

/-- Rounding and packing a number below the normal ones. -/
theorem pack_subnormal (pos : 0 < mantissa) (wide : 1 < spec.exponentBits)
    (below : mantissa < 2 ^ spec.mantissaBitsWithoutImplicit)
    (least : exponent = spec.minExponent) :
    UnpackedFloat.pack spec (roundTo spec (.finite sign mantissa exponent pos)) =
      packComponents spec sign 0#_ (BitVec.ofNat _ mantissa) := by
  have log : mantissa.log2 < spec.mantissaBitsWithoutImplicit := (Nat.log2_lt (by omega)).mpr below
  have target : spec.targetExponent (totalExponent mantissa exponent) = exponent := by
    simp only [Format.targetExponent, totalExponent, Format.mantissaBits]
    omega
  have biased : (exponent + spec.exponentBias + spec.mantissaBitsWithoutImplicit).toNat = 1 := by
    rw [least, minExponent_eq]
    omega
  have powers : 2 ^ 2 ≤ 2 ^ spec.exponentBits := Nat.pow_le_pow_right (by omega) wide
  have notNormal : ¬ mantissa.log2 + 1 = spec.mantissaBits := by
    simp only [Format.mantissaBits]
    omega
  simp only [roundTo, round_of_target pos target, UnpackedFloat.pack, biased]
  rw [if_neg (by omega), if_neg notNormal]

/-- Rounding and packing a number with all the bits of a mantissa. -/
theorem pack_normal {biased : Nat} (pos : 0 < mantissa)
    (lower : 2 ^ spec.mantissaBitsWithoutImplicit ≤ mantissa)
    (upper : mantissa < 2 ^ (spec.mantissaBitsWithoutImplicit + 1)) (least : 0 < biased)
    (most : biased + 1 < 2 ^ spec.exponentBits)
    (value : exponent = biased - ((spec.exponentBias : Int) + spec.mantissaBitsWithoutImplicit)) :
    UnpackedFloat.pack spec (roundTo spec (.finite sign mantissa exponent pos)) =
      packComponents spec sign (BitVec.ofNat _ biased) (BitVec.ofNat _ mantissa) := by
  have log := log2_eq lower upper
  have target : spec.targetExponent (totalExponent mantissa exponent) = exponent := by
    simp only [Format.targetExponent, totalExponent, Format.mantissaBits, minExponent_eq, log]
    omega
  have field : (exponent + spec.exponentBias + spec.mantissaBitsWithoutImplicit).toNat = biased := by
    omega
  have allBits : mantissa.log2 + 1 = spec.mantissaBits := by
    simp only [Format.mantissaBits]
    omega
  simp only [roundTo, round_of_target pos target, UnpackedFloat.pack, field]
  rw [if_neg (by omega), if_pos allBits]

/-- A word that is not a NaN, read as a number and stored again, is the same word. -/
theorem pack_roundTo_unpack (wide : 1 < spec.exponentBits) {word : BitVec spec.numBits}
    (number : unpack spec word ≠ .notANumber) :
    UnpackedFloat.pack spec (roundTo spec (unpack spec word)) = word := by
  have whole := packComponents_parts word
  have below := (unpackMantissa word).isLt
  have fieldBelow := (unpackExponent word).isLt
  simp only [UnpackedFloat.unpack] at number ⊢
  split at number
  · rename_i full
    split at number
    · rename_i empty
      rw [if_pos full, if_pos empty]
      rw [full, empty] at whole
      exact whole
    · exact absurd rfl number
  · rename_i notFull
    split at number
    · rename_i zero
      rw [if_neg notFull, if_pos zero]
      split
      · rename_i empty
        rw [zero, empty] at whole
        exact whole
      · rename_i nonempty
        have pos := Nat.pos_of_ne_zero (toNat_ne_zero nonempty)
        rw [pack_subnormal pos wide below (by rw [zero, minExponent_eq]; simp; omega)]
        rw [zero] at whole
        simpa using whole
    · rename_i nonzero
      rw [if_neg notFull, if_neg nonzero]
      have appended : (1#1 ++ unpackMantissa word).toNat =
          2 ^ spec.mantissaBitsWithoutImplicit + (unpackMantissa word).toNat := by
        rw [BitVec.toNat_append, ← Nat.shiftLeft_add_eq_or_of_lt below, show (1#1).toNat = 1 from rfl,
          Nat.shiftLeft_eq, Nat.one_mul]
      have notOnes : (unpackExponent word).toNat ≠ 2 ^ spec.exponentBits - 1 :=
        fun ones => notFull (BitVec.toNat_inj.mp (by rw [ones, BitVec.neg_one_eq_allOnes,
          BitVec.toNat_allOnes]))
      rw [pack_normal (by omega) (by omega) (by rw [Nat.pow_succ]; omega)
        (Nat.pos_of_ne_zero (toNat_ne_zero nonzero)) (by omega) rfl]
      have mantissa : BitVec.ofNat spec.mantissaBitsWithoutImplicit
          (1#1 ++ unpackMantissa word).toNat = unpackMantissa word := by
        rw [← BitVec.toNat_inj, BitVec.toNat_ofNat, appended, Nat.add_mod_left,
          Nat.mod_eq_of_lt below]
      rw [mantissa]
      simpa using whole

end BinaryFormat
