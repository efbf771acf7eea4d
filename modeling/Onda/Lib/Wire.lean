import Mathlib

/-!
# Byte encodings

Encodings are functions into lists of symbols, in most cases bytes.  An encoding
is *self-delimiting* when a reader who knows where it starts also knows where it
ends: two messages that begin with encodings and agree as lists agree on the
encoded value and on what follows.  The
closure rules follow the way formats are put together: fixed-width fields,
length-prefixed strings, records, and lists.

### Words

A word of `width` bytes is stored least significant byte first.
-/

namespace Wire

/-- The `width` low bytes of `value`, least significant first. -/
def littleEndian : Nat → Nat → List UInt8
  | 0, _ => []
  | width + 1, value => value.toUInt8 :: littleEndian width (value / 256)

/-- The number a little-endian byte string stands for. -/
def ofLittleEndian : List UInt8 → Nat
  | [] => 0
  | byte :: bytes => byte.toNat + 256 * ofLittleEndian bytes

@[simp] theorem length_littleEndian (width value : Nat) :
    (littleEndian width value).length = width := by
  induction width generalizing value with
  | zero => rfl
  | succ width ih => simp [littleEndian, ih]

theorem ofLittleEndian_lt (bytes : List UInt8) :
    ofLittleEndian bytes < 256 ^ bytes.length := by
  induction bytes with
  | nil => decide
  | cons byte bytes ih =>
    have small := byte.toNat_lt
    simp only [ofLittleEndian, List.length_cons, Nat.pow_succ]
    omega

/-- **Reading back a word.** A value that fits its width is read back. -/
theorem ofLittleEndian_littleEndian {width value : Nat} (fits : value < 256 ^ width) :
    ofLittleEndian (littleEndian width value) = value := by
  induction width generalizing value with
  | zero =>
    have isZero : value = 0 := by simpa using fits
    simp [littleEndian, ofLittleEndian, isZero]
  | succ width ih =>
    have smaller : value / 256 < 256 ^ width := by
      rw [Nat.pow_succ] at fits
      omega
    rw [littleEndian, ofLittleEndian, ih smaller]
    have low : value.toUInt8.toNat = value % 256 := by simp
    rw [low]
    omega

/-- Every byte string is the word it stands for. -/
theorem littleEndian_ofLittleEndian (bytes : List UInt8) :
    littleEndian bytes.length (ofLittleEndian bytes) = bytes := by
  induction bytes with
  | nil => rfl
  | cons byte bytes ih =>
    have small := byte.toNat_lt
    have low : (ofLittleEndian (byte :: bytes)).toUInt8 = byte := by
      apply UInt8.toNat_inj.mp
      simp only [ofLittleEndian, Nat.toUInt8_eq, UInt8.toNat_ofNat']
      omega
    have high : ofLittleEndian (byte :: bytes) / 256 = ofLittleEndian bytes := by
      simp only [ofLittleEndian]
      omega
    rw [List.length_cons, littleEndian, low, high, ih]

/-- Two values that fit one width have one encoding only when they are equal. -/
theorem littleEndian_inj {width left right : Nat} (fitsLeft : left < 256 ^ width)
    (fitsRight : right < 256 ^ width)
    (same : littleEndian width left = littleEndian width right) : left = right := by
  rw [← ofLittleEndian_littleEndian fitsLeft, same, ofLittleEndian_littleEndian fitsRight]

/-- The bytes of a bit vector that is `width` bytes wide. -/
def wordBytes (width : Nat) (word : BitVec (8 * width)) : List UInt8 :=
  littleEndian width word.toNat

/-- The bit vector stored in `width` bytes. -/
def bytesWord (width : Nat) (bytes : List UInt8) : BitVec (8 * width) :=
  BitVec.ofNat _ (ofLittleEndian bytes)

@[simp] theorem length_wordBytes (width : Nat) (word : BitVec (8 * width)) :
    (wordBytes width word).length = width :=
  length_littleEndian width word.toNat

theorem pow_eight_mul (width : Nat) : 2 ^ (8 * width) = 256 ^ width := by
  rw [Nat.pow_mul]

theorem bytesWord_wordBytes (width : Nat) (word : BitVec (8 * width)) :
    bytesWord width (wordBytes width word) = word := by
  have fits : word.toNat < 256 ^ width := by
    rw [← pow_eight_mul]
    exact word.isLt
  rw [bytesWord, wordBytes, ofLittleEndian_littleEndian fits]
  exact BitVec.eq_of_toNat_eq (by simp)

theorem wordBytes_bytesWord {width : Nat} {bytes : List UInt8}
    (wide : bytes.length = width) : wordBytes width (bytesWord width bytes) = bytes := by
  have fits : ofLittleEndian bytes < 2 ^ (8 * width) := by
    rw [pow_eight_mul, ← wide]
    exact ofLittleEndian_lt bytes
  rw [wordBytes, bytesWord, BitVec.toNat_ofNat, Nat.mod_eq_of_lt fits, ← wide,
    littleEndian_ofLittleEndian]

/-! ### Self-delimiting encodings -/

section Delimiting

variable {α σ : Type}

/-- Two valid messages that agree as lists, whatever follows them, carry
one value and are followed by one rest. -/
def SelfDelimiting (Valid : α → Prop) (encode : α → List σ) : Prop :=
  ∀ ⦃left right : α⦄ ⦃restLeft restRight : List σ⦄, Valid left → Valid right →
    encode left ++ restLeft = encode right ++ restRight →
      left = right ∧ restLeft = restRight

namespace SelfDelimiting

variable {Valid : α → Prop} {encode : α → List σ}

/-- **Rows of items.** Two rows with something behind them: they are equal, or one row
goes on where the other has ended. -/
theorem flatMap_append_eq (delimits : SelfDelimiting Valid encode) :
    ∀ {left right : List α} {behind behind' : List σ}, (∀ item ∈ left, Valid item) →
      (∀ item ∈ right, Valid item) →
      left.flatMap encode ++ behind = right.flatMap encode ++ behind' →
      (left = right ∧ behind = behind') ∨
        (∃ item more, right = left ++ item :: more ∧
          behind = (item :: more).flatMap encode ++ behind') ∨
        (∃ item more, left = right ++ item :: more ∧
          behind' = (item :: more).flatMap encode ++ behind)
  | [], [], _, _, _, _, same => .inl ⟨rfl, same⟩
  | [], item :: right, _, _, _, _, same => .inr (.inl ⟨item, right, rfl, same⟩)
  | item :: left, [], _, _, _, _, same => .inr (.inr ⟨item, left, rfl, same.symm⟩)
  | item :: left, item' :: right, behind, behind', valid, valid', same => by
    simp only [List.flatMap_cons, List.append_assoc] at same
    obtain ⟨sameItem, sameTail⟩ :=
      delimits (valid item (by simp)) (valid' item' (by simp)) same
    subst sameItem
    rcases flatMap_append_eq delimits (fun later mem => valid later (by simp [mem]))
        (fun later mem => valid' later (by simp [mem])) sameTail with
      ⟨rfl, rest⟩ | ⟨next, more, rfl, rest⟩ | ⟨next, more, rfl, rest⟩
    · exact .inl ⟨rfl, rest⟩
    · exact .inr (.inl ⟨next, more, rfl, rest⟩)
    · exact .inr (.inr ⟨next, more, rfl, rest⟩)

/-- A row of items that take space is not empty. -/
theorem flatMap_cons_ne_nil (takesSpace : ∀ item, encode item ≠ []) (item : α)
    (more : List α) (behind : List σ) : (item :: more).flatMap encode ++ behind ≠ [] := by
  intro empty
  rw [List.flatMap_cons, List.append_assoc] at empty
  exact takesSpace item (List.append_eq_nil_iff.mp empty).1

/-- **Rows up to the end.** Items that take space, with nothing behind the last one,
determine the row. -/
theorem flatMap_inj (delimits : SelfDelimiting Valid encode)
    (takesSpace : ∀ item, encode item ≠ []) {left right : List α}
    (valid : ∀ item ∈ left, Valid item) (valid' : ∀ item ∈ right, Valid item)
    (same : left.flatMap encode = right.flatMap encode) : left = right := by
  have ended : left.flatMap encode ++ [] = right.flatMap encode ++ [] := by rw [same]
  rcases delimits.flatMap_append_eq valid valid' ended with ⟨equal, -⟩ |
    ⟨item, more, -, rest⟩ | ⟨item, more, -, rest⟩
  · exact equal
  · exact absurd rest.symm (flatMap_cons_ne_nil takesSpace item more [])
  · exact absurd rest.symm (flatMap_cons_ne_nil takesSpace item more [])

end SelfDelimiting

end Delimiting

/-! ### Length-prefixed strings -/

/-- A string behind its length in `width` bytes. -/
def lengthPrefixed (width : Nat) (bytes : List UInt8) : List UInt8 :=
  littleEndian width bytes.length ++ bytes

/-- **Strings delimit themselves** as long as their length fits its field. -/
theorem lengthPrefixed_selfDelimiting (width : Nat) :
    SelfDelimiting (fun bytes : List UInt8 => bytes.length < 256 ^ width)
      (lengthPrefixed width) := by
  intro left right restLeft restRight fitsLeft fitsRight same
  simp only [lengthPrefixed, List.append_assoc] at same
  obtain ⟨sameHead, sameTail⟩ := List.append_inj same (by simp)
  have sameLength := littleEndian_inj fitsLeft fitsRight sameHead
  exact List.append_inj sameTail sameLength

theorem lengthPrefixed_ne_nil {width : Nat} (wide : 0 < width) (bytes : List UInt8) :
    lengthPrefixed width bytes ≠ [] := by
  intro empty
  have noLength := congrArg List.length empty
  simp only [lengthPrefixed, List.length_append, length_littleEndian, List.length_nil] at noLength
  omega

end Wire
