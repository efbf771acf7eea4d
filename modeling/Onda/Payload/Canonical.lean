import Onda.Payload.Planning

/-!
# Canonical scalars

What normalization makes of a scalar, and that it does so once and for all.

### Integers
-/

namespace Onda.Payload

open Wire

variable {value : Int} {domain : IntegerDomain} {columns : List (List Bytes)}
  {shapes : List LeafShape}

/-- **Clamping and wrapping.** The result lies in the domain; a clamp takes the nearest value, a
wrap moves by whole widths. -/
theorem normalizeInteger_spec (nonempty : domain.min ≤ domain.max) (value : Int) :
    (domain.min ≤ normalizeInteger value (some domain) ∧
      normalizeInteger value (some domain) ≤ domain.max) ∧
    (domain.wrap = false →
      normalizeInteger value (some domain) = max domain.min (min value domain.max)) ∧
    (domain.wrap = true →
      domain.max - domain.min + 1 ∣ normalizeInteger value (some domain) - value) := by
  have width : 0 < domain.max - domain.min + 1 := by omega
  have low := Int.emod_nonneg (value - domain.min) width.ne'
  have high := Int.emod_lt_of_pos (value - domain.min) width
  by_cases wraps : domain.wrap
  · have moved : normalizeInteger value (some domain) =
        domain.min + (value - domain.min) % (domain.max - domain.min + 1) := if_pos wraps
    rw [moved]
    refine ⟨⟨by omega, by omega⟩, fun clamps => absurd wraps (by simp [clamps]), fun _ => ?_⟩
    have whole := Int.emod_add_mul_ediv (value - domain.min) (domain.max - domain.min + 1)
    exact ⟨-((value - domain.min) / (domain.max - domain.min + 1)), by
      rw [Int.mul_neg]
      omega⟩
  · have moved : normalizeInteger value (some domain) =
        if value < domain.min then domain.min
        else if value > domain.max then domain.max else value := if_neg wraps
    rw [moved]
    refine ⟨?_, fun _ => ?_, fun wraps' => absurd wraps' wraps⟩
    · split
      · omega
      · split <;> omega
    · split
      · omega
      · split <;> omega

/-- A value of the domain stays. -/
theorem normalizeInteger_of_mem (low : domain.min ≤ value) (high : value ≤ domain.max) :
    normalizeInteger value (some domain) = value := by
  unfold normalizeInteger
  simp only
  split
  · rw [Int.emod_eq_of_lt (by omega) (by omega)]
    omega
  · rw [if_neg (by omega), if_neg (by omega)]

theorem i32OfWire_wordBytes (low : -2 ^ 31 ≤ value) (high : value < 2 ^ 31) :
    i32OfWire (wordBytes 4 (BitVec.ofInt 32 value)) = value := by
  rw [i32OfWire, bytesWord_wordBytes]
  exact BitVec.toInt_ofInt_eq_self (by decide) low high

theorem i64OfWire_wordBytes (low : -2 ^ 63 ≤ value) (high : value < 2 ^ 63) :
    i64OfWire (wordBytes 8 (BitVec.ofInt 64 value)) = value := by
  rw [i64OfWire, bytesWord_wordBytes]
  exact BitVec.toInt_ofInt_eq_self (by decide) low high

theorem wordBytes_i32OfWire {scalar : Bytes} (wide : scalar.length = 4) :
    wordBytes 4 (BitVec.ofInt 32 (i32OfWire scalar)) = scalar := by
  have same : BitVec.ofInt 32 (i32OfWire scalar) = bytesWord 4 scalar := BitVec.ofInt_toInt
  rw [same, wordBytes_bytesWord wide]

theorem wordBytes_i64OfWire {scalar : Bytes} (wide : scalar.length = 8) :
    wordBytes 8 (BitVec.ofInt 64 (i64OfWire scalar)) = scalar := by
  have same : BitVec.ofInt 64 (i64OfWire scalar) = bytesWord 8 scalar := BitVec.ofInt_toInt
  rw [same, wordBytes_bytesWord wide]

/-! ### Scalars -/

namespace LeafShape

variable {shape : LeafShape}

/-- The integer a scalar of an integer column stands for. -/
def integer (shape : LeafShape) (scalar : Bytes) : Int :=
  match shape.encoding with
  | .i64 => i64OfWire scalar
  | _ => i32OfWire scalar

/-- What the canonical form of a scalar has to be. -/
structure Normalizes (shape : LeafShape) (source target : Bytes) : Prop where
  bool : shape.encoding = .bool → target = if source = [0] then [0] else [1]
  inDomain : ∀ domain, domainOf shape.encoding shape.range = some domain →
    domain.min ≤ shape.integer target ∧ shape.integer target ≤ domain.max
  clamped : ∀ domain, domainOf shape.encoding shape.range = some domain → domain.wrap = false →
    shape.integer target = max domain.min (min (shape.integer source) domain.max)
  wrapped : ∀ domain, domainOf shape.encoding shape.range = some domain → domain.wrap = true →
    domain.max - domain.min + 1 ∣ shape.integer target - shape.integer source
  other : shape.encoding ≠ .bool → domainOf shape.encoding shape.range = none → target = source

variable {domain : IntegerDomain} {range : Option IntegerRangeMetadata}

theorem domain_fits (ranged : domainOf shape.encoding shape.range = some domain) :
    DomainFits shape.encoding domain := by
  obtain ⟨range, -, accepted⟩ := Option.bind_eq_some_iff.mp ranged
  cases prepared : prepareDomain shape.encoding range with
  | error failure => simp [prepared] at accepted
  | ok found =>
    rw [prepared] at accepted
    cases accepted
    exact prepareDomain_fits prepared

theorem normalize_i32 {extent : Nat} (scalar : Bytes) :
    normalize ⟨.i32, extent, range⟩ scalar = wordBytes 4 (BitVec.ofInt 32
      (normalizeInteger (i32OfWire scalar) (domainOf .i32 range))) := rfl

theorem normalize_i64 {extent : Nat} (scalar : Bytes) :
    normalize ⟨.i64, extent, range⟩ scalar = wordBytes 8 (BitVec.ofInt 64
      (normalizeInteger (i64OfWire scalar) (domainOf .i64 range))) := rfl

/-- In an integer column with a domain the integer is normalized. -/
theorem integer_normalize (ranged : domainOf shape.encoding shape.range = some domain)
    (scalar : Bytes) :
    shape.integer (shape.normalize scalar) =
      normalizeInteger (shape.integer scalar) (some domain) := by
  obtain ⟨nonempty, limits⟩ := domain_fits ranged
  obtain ⟨encoding, extent, range⟩ := shape
  simp only at ranged limits
  rcases limits with ⟨rfl, low, high⟩ | ⟨rfl, low, high⟩
  · have inside := (normalizeInteger_spec nonempty (i32OfWire scalar)).1
    rw [normalize_i32, ranged]
    exact i32OfWire_wordBytes (by omega) (by omega)
  · have inside := (normalizeInteger_spec nonempty (i64OfWire scalar)).1
    rw [normalize_i64, ranged]
    exact i64OfWire_wordBytes (by omega) (by omega)

/-- **Normalization.** Every scalar gets the canonical form its column asks for. -/
theorem normalizes (shape : LeafShape) {scalar : Bytes}
    (wide : scalar.length = shape.encoding.byteSize) :
    shape.Normalizes scalar (shape.normalize scalar) where
  bool isBool := by
    obtain ⟨encoding, extent, range⟩ := shape
    subst isBool
    obtain ⟨byte, rfl⟩ := List.length_eq_one_iff.mp wide
    by_cases zero : byte = 0
    · simp [normalize, normalizeScalar, zero]
    · simp [normalize, normalizeScalar, zero]
  inDomain domain ranged := by
    rw [integer_normalize ranged]
    exact (normalizeInteger_spec (domain_fits ranged).1 _).1
  clamped domain ranged := by
    rw [integer_normalize ranged]
    exact (normalizeInteger_spec (domain_fits ranged).1 _).2.1
  wrapped domain ranged := by
    rw [integer_normalize ranged]
    exact (normalizeInteger_spec (domain_fits ranged).1 _).2.2
  other notBool free := by
    obtain ⟨encoding, extent, range⟩ := shape
    simp only at notBool free wide
    cases encoding with
    | bool => exact absurd rfl notBool
    | i32 => rw [normalize_i32, free]; exact wordBytes_i32OfWire wide
    | i64 => rw [normalize_i64, free]; exact wordBytes_i64OfWire wide
    | f32 | f64 => rfl

/-- **Once and for all.** A canonical scalar is its own canonical form. -/
theorem normalize_normalize (shape : LeafShape) {scalar : Bytes}
    (wide : scalar.length = shape.encoding.byteSize) :
    shape.normalize (shape.normalize scalar) = shape.normalize scalar := by
  have wide' : (shape.normalize scalar).length = shape.encoding.byteSize :=
    length_normalizeScalar wide
  have first := shape.normalizes wide
  have second := shape.normalizes wide'
  by_cases isBool : shape.encoding = .bool
  · rw [second.bool isBool, first.bool isBool]
    split <;> simp
  · cases ranged : domainOf shape.encoding shape.range with
    | none => exact second.other isBool ranged
    | some domain =>
      have inside := first.inDomain domain ranged
      have limits := (domain_fits ranged).2
      have stays := normalizeInteger_of_mem inside.1 inside.2
      obtain ⟨encoding, extent, range⟩ := shape
      simp only at ranged limits
      rcases limits with ⟨rfl, -⟩ | ⟨rfl, -⟩
      · rw [normalize_i32 (normalize _ scalar), ranged]
        exact (congrArg _ (congrArg _ stays)).trans (wordBytes_i32OfWire wide')
      · rw [normalize_i64 (normalize _ scalar), ranged]
        exact (congrArg _ (congrArg _ stays)).trans (wordBytes_i64OfWire wide')

end LeafShape

theorem normalizeColumns_twice {count : Nat} (columned : Columned count shapes columns) :
    normalizeColumns shapes (normalizeColumns shapes columns) = normalizeColumns shapes columns := by
  induction columned with
  | nil => rfl
  | @cons shape column shapes columns here _ ih =>
    unfold normalizeColumns at ih ⊢
    rw [List.zipWith_cons_cons, List.zipWith_cons_cons, ih, List.map_map]
    congr 1
    apply List.map_congr_left
    intro scalar mem
    exact shape.normalize_normalize (here.2 scalar mem)

/-- The columns of `targets` hold the canonical forms of the scalars of `sources`. -/
def ColumnsNormalized (shapes : List LeafShape) (sources targets : List (List Bytes)) : Prop :=
  List.Forall₂ (fun (pair : LeafShape × List Bytes) target =>
    List.Forall₂ pair.1.Normalizes pair.2 target) (shapes.zip sources) targets

theorem columnsNormalized {count : Nat} (columned : Columned count shapes columns) :
    ColumnsNormalized shapes columns (normalizeColumns shapes columns) := by
  induction columned with
  | nil => exact .nil
  | @cons shape column shapes columns here _ ih =>
    refine .cons ?_ ih
    have even := here.2
    clear here
    induction column with
    | nil => exact .nil
    | cons scalar column ihColumn =>
      exact .cons (shape.normalizes (even scalar (by simp)))
        (ihColumn fun scalar mem => even scalar (by simp [mem]))

end Onda.Payload
