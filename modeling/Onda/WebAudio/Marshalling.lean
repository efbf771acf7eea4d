import Mathlib
import Onda.Frontend.Expr
import Onda.Lib.Binary

/-!
# Samples between the audio callback and the processor

The worklet copies the samples of a segment into the processor's input buffers and its output buffers
back into the callback's arrays.  Where the buffer's address allows it this goes through a typed array
over the memory, else through a `DataView`.
-/

namespace Onda.WebAudio.Marshalling

open Float.Model Float.Model.UnpackedFloat BinaryFormat Frontend

/-! ### Numbers and big integers -/

/-- An exception; an error of the language's own conversions has no text here. -/
inductive Thrown where
  | typeError (message : Option String)
  | rangeError (message : Option String)
deriving DecidableEq

/-- A number.  The language has one NaN, an engine may tell NaNs apart by their `kind`. -/
structure Number where
  value : UnpackedFloat
  kind : Nat

/-- What the language leaves to the engine: the NaN that a word is read as and the word a NaN is
stored as. -/
structure Engine where
  readNan (spec : Format) : BitVec spec.numBits → Nat
  writeNan (spec : Format) : Nat → BitVec spec.numBits
  undefinedNan : Nat

namespace Engine

variable (engine : Engine)

/-- The number of a stored word. -/
def number (spec : Format) (word : BitVec spec.numBits) : Number :=
  ⟨unpack spec word, engine.readNan spec word⟩

/-- The word that a number is stored as. -/
def word (spec : Format) (number : Number) : BitVec spec.numBits :=
  match number.value with
  | .notANumber => engine.writeNan spec number.kind
  | value => UnpackedFloat.pack spec (roundTo spec value)

/-- The engine stores the number of a word as this word. -/
def Keeps (spec : Format) (word : BitVec spec.numBits) : Prop :=
  unpack spec word = .notANumber → engine.writeNan spec (engine.readNan spec word) = word

/-- `Number(undefined)`. -/
def undefined : Number := ⟨.notANumber, engine.undefinedNan⟩

end Engine

/-- An integer as a number, without rounding. -/
def exactly (integer : Int) : UnpackedFloat :=
  if pos : 0 < integer.natAbs then
    .finite (if integer < 0 then .negative else .positive) integer.natAbs 0 pos
  else .zero .positive

/-- The number without its fraction. -/
def truncate : UnpackedFloat → UnpackedFloat
  | .finite sign mantissa exponent _ =>
    let whole := (roundToInt .positive mantissa exponent).toNat
    if pos : 0 < whole then .finite sign whole 0 pos else .zero sign
  | other => other

/-- `BigInt` of a number: only a whole number has one. -/
def wholeNumber : UnpackedFloat → Except Thrown Int
  | .notANumber | .infinity _ => .error (.rangeError none)
  | .zero _ => .ok 0
  | .finite sign mantissa exponent _ =>
    if 0 ≤ exponent ∨ 2 ^ (-exponent).toNat ∣ mantissa then .ok (roundToInt sign mantissa exponent)
    else .error (.rangeError none)

/-- `number !== 0`. -/
def nonzero : UnpackedFloat → Bool
  | .zero _ => false
  | _ => true

/-- The low `bits` of an integer. -/
def wrap (bits : Nat) (integer : Int) : Nat := (BitVec.ofInt bits integer).toNat

/-- `Math.trunc`. -/
def Number.trunc (number : Number) : Number := { number with value := truncate number.value }

/-- The word of `ToInt32`: a number that is not finite becomes zero. -/
def Number.toInt32 (number : Number) : Nat := wrap 32 (number.value.toInt 0 0)

/-- A value given to a scalar writer. -/
inductive Value where
  | number (number : Number)
  | bigint (integer : Int)
  | boolean (value : Bool)

/-- `Number(value)`. -/
def Value.toNumber : Value → Number
  | .number given => given
  | .bigint integer => ⟨normalize .binary64 integer 0 .positive, 0⟩
  | .boolean value => ⟨exactly value.toNat, 0⟩

/-- `value ? … : …`. -/
def Value.truthy : Value → Bool
  | .number ⟨.notANumber, _⟩ => false
  | .number given => nonzero given.value
  | .bigint integer => integer != 0
  | .boolean value => value

/-- `exactI64`. -/
def exactI64 (value : Value) : Except Thrown Int := do
  let integer ← match value with
    | .bigint integer => .ok integer
    | .number number =>
      match wholeNumber number.value with
      | .ok integer =>
        if integer.natAbs < 2 ^ 53 then .ok integer
        else .error (.typeError
          (some "i64 value must be a bigint, safe integer, or decimal integer string"))
      | .error _ =>
        .error (.typeError
          (some "i64 value must be a bigint, safe integer, or decimal integer string"))
    | .boolean _ =>
      .error (.typeError
        (some "i64 value must be a bigint, safe integer, or decimal integer string"))
  if (BitVec.ofInt 64 integer).toInt ≠ integer then
    .error (.rangeError
      (some ("i64 value '" ++ toString integer ++ "' is outside the signed 64-bit range")))
  else .ok integer

/-! ### Memory -/

/-- The bytes of the processor's memory by their addresses. -/
abbrev Memory := Nat → UInt8

namespace Memory

/-- Stores the low `size` bytes of a word, the lowest first. -/
def store (memory : Memory) (address size word : Nat) : Memory := fun place =>
  if address ≤ place ∧ place < address + size then UInt8.ofNat (word / 256 ^ (place - address))
  else memory place

/-- The word of `size` bytes at an address, the lowest first. -/
def load (memory : Memory) (address : Nat) : Nat → Nat
  | 0 => 0
  | size + 1 => memory.load address size + 256 ^ size * (memory (address + size)).toNat

/-- `count` words in a row. -/
def storeAll (memory : Memory) (address size count : Nat) (word : Nat → Nat) : Memory := fun place =>
  if address ≤ place ∧ place < address + count * size then
    UInt8.ofNat (word ((place - address) / size) / 256 ^ ((place - address) % size))
  else memory place

end Memory

/-- `scalarByteSize`. -/
def scalarByteSize : PrimitiveType → Nat
  | .bool => 1
  | .i32 | .f32 => 4
  | .i64 | .f64 => 8

/-- A typed array over the memory. -/
structure View where
  pointer : Nat
  length : Nat

/-- A flattened audio channel with its buffer, which holds `capacity` frames inside the memory. -/
structure Channel (byteLength : Nat) where
  scalar : PrimitiveType
  pointer : Nat
  capacity : Nat
  inside : pointer + capacity * scalarByteSize scalar ≤ byteLength

/-- The frames of a callback that go to a place in the block. -/
structure Segment (frames capacity : Nat) where
  callbackOffset : Nat
  startFrame : Nat
  segmentFrames : Nat
  inCallback : callbackOffset + segmentFrames ≤ frames
  inBlock : startFrame + segmentFrames ≤ capacity

/-! ### Writers and readers of scalars -/

variable (engine : Engine) {byteLength frames : Nat}

/-- The word that `writeScalar` stores for a value. -/
def scalarWord : PrimitiveType → Value → Except Thrown Nat
  | .bool, value => .ok value.truthy.toNat
  | .i32, value => .ok value.toNumber.toInt32
  | .i64, value => (exactI64 value).map (wrap 64)
  | .f32, value => .ok (engine.word .binary32 value.toNumber).toNat
  | .f64, value => .ok (engine.word .binary64 value.toNumber).toNat

/-- `writeScalar` on a view of the whole memory. -/
def writeScalar (byteLength address : Nat) (scalar : PrimitiveType) (value : Value)
    (memory : Memory) : Except Thrown Memory := do
  let word ← scalarWord engine scalar value
  if address + scalarByteSize scalar ≤ byteLength then
    .ok (memory.store address (scalarByteSize scalar) word)
  else .error (.rangeError none)

/-- The value of a stored word, in a typed array as in a `DataView`. -/
def scalarValue : PrimitiveType → Nat → Value
  | .bool, word => .number ⟨exactly word, 0⟩
  | .i32, word => .number ⟨exactly (BitVec.ofNat 32 word).toInt, 0⟩
  | .i64, word => .bigint (BitVec.ofNat 64 word).toInt
  | .f32, word => .number (engine.number .binary32 (BitVec.ofNat _ word))
  | .f64, word => .number (engine.number .binary64 (BitVec.ofNat _ word))

/-- `readScalar` on a view of the whole memory. -/
def readScalar (byteLength address : Nat) (scalar : PrimitiveType) (memory : Memory) :
    Except Thrown Value :=
  if address + scalarByteSize scalar ≤ byteLength then
    .ok (if scalar = .bool then .boolean (memory.load address 1 != 0)
      else scalarValue engine scalar (memory.load address (scalarByteSize scalar)))
  else .error (.rangeError none)

/-- `view[index] = …` in a typed array: there is nothing to change past its end. -/
def View.set (view : View) (scalar : PrimitiveType) (index word : Nat) (memory : Memory) : Memory :=
  if index < view.length then
    memory.store (view.pointer + index * scalarByteSize scalar) (scalarByteSize scalar) word
  else memory

/-- `view[index]` in a typed array. -/
def View.get (view : View) (scalar : PrimitiveType) (index : Nat) (memory : Memory) : Value :=
  if index < view.length then
    scalarValue engine scalar
      (memory.load (view.pointer + index * scalarByteSize scalar) (scalarByteSize scalar))
  else .number engine.undefined

/-- `for (let frame = 0; frame < segmentFrames; frame += 1)`. -/
def forFrames {σ : Type} (body : Nat → σ → Except Thrown σ) : Nat → σ → Except Thrown σ
  | 0, state => .ok state
  | frame + 1, state => do
    let state ← forFrames body frame state
    body frame state

/-! ### The two directions -/

/-- The words of a `Float32Array`. -/
abbrev Samples := List (BitVec Format.binary32.numBits)

/-- `source[index]`. -/
def sample (source : Samples) (index : Nat) : Number :=
  match source[index]? with
  | some word => engine.number .binary32 word
  | none => engine.undefined

/-- What is assigned to an element of a typed array for a sample. -/
def inputElement : PrimitiveType → Number → Except Thrown Nat
  | .f32, sample => .ok (engine.word .binary32 sample).toNat
  | .f64, sample => .ok (engine.word .binary64 sample).toNat
  | .i32, sample => .ok sample.trunc.toInt32
  | .i64, sample => (wholeNumber sample.trunc.value).map (wrap 64)
  | .bool, sample => .ok (nonzero sample.value).toNat

/-- What is given to `writeScalar` for a sample. -/
def inputValue : PrimitiveType → Number → Except Thrown Value
  | .bool, sample => .ok (.boolean (nonzero sample.value))
  | .i64, sample => (wholeNumber sample.trunc.value).map .bigint
  | .i32, sample => .ok (.number sample.trunc)
  | _, sample => .ok (.number sample)

/-- `target.set(source, startFrame)` with two arrays of the same type, which copies the bytes. -/
def View.setAll (view : View) (source : Samples) (startFrame : Nat) (memory : Memory) :
    Except Thrown Memory :=
  if startFrame + source.length ≤ view.length then
    .ok (memory.storeAll (view.pointer + startFrame * 4) 4 source.length
      fun frame => (source.getD frame 0).toNat)
  else .error (.rangeError none)

/-- `copyInputSamples`. -/
def copyInputSamples (source : Samples) (info : Channel byteLength) (target : Option View)
    (callbackOffset startFrame segmentFrames : Nat) (memory : Memory) : Except Thrown Memory :=
  match target with
  | some view =>
    if info.scalar = .f32 ∧ callbackOffset = 0 ∧ segmentFrames = source.length then
      view.setAll source startFrame memory
    else
      forFrames (fun frame memory => do
        let word ← inputElement engine info.scalar (sample engine source (callbackOffset + frame))
        .ok (view.set info.scalar (startFrame + frame) word memory)) segmentFrames memory
  | none =>
    forFrames (fun frame memory => do
      let value ← inputValue info.scalar (sample engine source (callbackOffset + frame))
      writeScalar engine byteLength (info.pointer + (startFrame + frame) * scalarByteSize info.scalar)
        info.scalar value memory) segmentFrames memory

/-- What `copyOutputSamples` assigns to an element of the destination for a value read. -/
def outputWord (scalar : PrimitiveType) (value : Value) : BitVec Format.binary32.numBits :=
  engine.word .binary32
    (if scalar = .bool then ⟨exactly value.truthy.toNat, 0⟩ else value.toNumber)

/-- `copyOutputSamples`. -/
def copyOutputSamples (destination : Samples) (info : Channel byteLength) (source : Option View)
    (callbackOffset startFrame segmentFrames : Nat) (memory : Memory) : Except Thrown Samples :=
  match source with
  | some view =>
    if info.scalar = .f32 ∧ callbackOffset = 0 ∧ startFrame = 0 ∧ segmentFrames = destination.length
        ∧ view.length = destination.length then
      .ok ((List.range destination.length).map fun frame =>
        BitVec.ofNat _ (memory.load (view.pointer + frame * 4) 4))
    else
      forFrames (fun frame destination =>
        .ok (destination.set (callbackOffset + frame)
          (outputWord engine info.scalar (view.get engine info.scalar (startFrame + frame) memory))))
        segmentFrames destination
  | none =>
    forFrames (fun frame destination => do
      let value ← readScalar engine byteLength
        (info.pointer + (startFrame + frame) * scalarByteSize info.scalar) info.scalar memory
      .ok (destination.set (callbackOffset + frame) (outputWord engine info.scalar value)))
      segmentFrames destination

/-! ### One meaning -/

/-- The typed array over a channel's buffer. -/
def Channel.view (info : Channel byteLength) : View := ⟨info.pointer, info.capacity⟩

/-- Both ways of copying the samples of a segment into a buffer run to the end with the same memory,
and only the segment has changed. -/
def InputsAgree (source : Samples) (info : Channel byteLength)
    (segment : Segment source.length info.capacity) (memory : Memory) : Prop :=
  ∃ result,
    copyInputSamples engine source info (some info.view) segment.callbackOffset segment.startFrame
      segment.segmentFrames memory = .ok result ∧
    copyInputSamples engine source info none segment.callbackOffset segment.startFrame
      segment.segmentFrames memory = .ok result ∧
    ∀ place, ¬ (info.pointer + segment.startFrame * scalarByteSize info.scalar ≤ place ∧
        place < info.pointer + (segment.startFrame + segment.segmentFrames) *
          scalarByteSize info.scalar) →
      result place = memory place

/-- Both ways of copying a segment of a buffer to the callback's array run to the end with the same
samples, and only the segment has changed. -/
def OutputsAgree (destination : Samples) (info : Channel byteLength)
    (segment : Segment destination.length info.capacity) (memory : Memory) : Prop :=
  ∃ result,
    copyOutputSamples engine destination info (some info.view) segment.callbackOffset
      segment.startFrame segment.segmentFrames memory = .ok result ∧
    copyOutputSamples engine destination info none segment.callbackOffset segment.startFrame
      segment.segmentFrames memory = .ok result ∧
    ∀ index, ¬ (segment.callbackOffset ≤ index ∧
        index < segment.callbackOffset + segment.segmentFrames) →
      result[index]? = destination[index]?

/-- The integer of a sample for an `i64` input exists and is in range. -/
def InRange (scalar : PrimitiveType) (sample : Number) : Prop :=
  scalar = .i64 → sample.value.isFinite ∧
    -2 ^ 63 ≤ sample.value.toInt 0 0 ∧ sample.value.toInt 0 0 < 2 ^ 63

/-- The samples for an `i64` input are in range, and an engine that changes a NaN when it copies it
meets none where a whole `f32` channel is copied at once. -/
structure InputsFit (source : Samples) (info : Channel byteLength)
    (segment : Segment source.length info.capacity) : Prop where
  integers : ∀ frame < segment.segmentFrames,
    InRange info.scalar (sample engine source (segment.callbackOffset + frame))
  nans : info.scalar = .f32 → segment.callbackOffset = 0 → segment.segmentFrames = source.length →
    ∀ word ∈ source, engine.Keeps .binary32 word

/-- An engine that changes a NaN when it copies it meets none where a whole `f32` channel is copied at
once. -/
def OutputsFit (destination : Samples) (info : Channel byteLength)
    (segment : Segment destination.length info.capacity) (memory : Memory) : Prop :=
  info.scalar = .f32 → segment.callbackOffset = 0 → segment.startFrame = 0 →
    segment.segmentFrames = destination.length → info.capacity = destination.length →
    ∀ frame < destination.length, engine.Keeps .binary32
      (BitVec.ofNat _ (memory.load (info.pointer + frame * 4) 4))

/-! ### Conversions -/

theorem Engine.word_number_iff (word : BitVec Format.binary32.numBits) :
    engine.word .binary32 (engine.number .binary32 word) = word ↔ engine.Keeps .binary32 word := by
  unfold Engine.word Engine.number Engine.Keeps
  by_cases nan : unpack .binary32 word = .notANumber
  · simp [nan]
  · simp only [nan, false_imp_iff, iff_true]
    exact pack_roundTo_unpack (by decide) nan

theorem roundToInt_eq_apply (mantissa : Nat) (exponent : Int) :
    ∃ whole : Nat, ∀ sign : Sign, roundToInt sign mantissa exponent = sign.apply whole :=
  ⟨_, fun _ => rfl⟩

theorem roundToInt_whole (sign : Sign) (mantissa : Nat) :
    roundToInt sign mantissa 0 = sign.apply mantissa := by
  simp [roundToInt, decreaseExponent, shiftToExponent, shift_zero,
    ExtendedMantissa.ofMantissaAndAccuracy]

/-- The big integer of a truncated number. -/
theorem wholeNumber_truncate (value : UnpackedFloat) :
    wholeNumber (truncate value) =
      if value.isFinite then .ok (value.toInt 0 0) else .error (.rangeError none) := by
  cases value with
  | notANumber => rfl
  | infinity sign => rfl
  | zero sign => rfl
  | finite sign mantissa exponent pos =>
    obtain ⟨whole, rounded⟩ := roundToInt_eq_apply mantissa exponent
    have positive : (Sign.positive.apply whole).toNat = whole := rfl
    simp only [truncate, UnpackedFloat.isFinite, if_true, UnpackedFloat.toInt, rounded, positive]
    split
    · simp [wholeNumber, roundToInt_whole]
    · rename_i none
      rw [Nat.eq_zero_of_not_pos none]
      cases sign <;> rfl

theorem toInt_ofInt_64 (integer : Int) :
    (BitVec.ofInt 64 integer).toInt = integer ↔ -2 ^ 63 ≤ integer ∧ integer < 2 ^ 63 := by
  rw [BitVec.toInt_ofInt]
  simp only [Int.bmod]
  omega

theorem stored_i64 (integer : Int) :
    ((Except.ok integer).map Value.bigint >>= scalarWord engine .i64) =
      (if (BitVec.ofInt 64 integer).toInt ≠ integer then
        Except.error (Thrown.rangeError
          (some ("i64 value '" ++ toString integer ++ "' is outside the signed 64-bit range")))
      else .ok integer).map (wrap 64) := rfl

theorem element_of_inRange {scalar : PrimitiveType} {sample : Number}
    (inRange : InRange scalar sample) : ∃ word, inputElement engine scalar sample = .ok word := by
  cases scalar with
  | i64 =>
    simp only [inputElement, Number.trunc, wholeNumber_truncate, (inRange rfl).1, if_true]
    exact ⟨_, rfl⟩
  | _ => exact ⟨_, rfl⟩

/-- The scalar writer stores the word of the typed array, or throws because an integer is not in
range. -/
theorem written_iff (scalar : PrimitiveType) (sample : Number) (word : Nat) :
    (inputValue scalar sample >>= scalarWord engine scalar) = .ok word ↔
      inputElement engine scalar sample = .ok word ∧ InRange scalar sample := by
  cases scalar with
  | i64 =>
    simp only [inputElement, inputValue, Number.trunc, wholeNumber_truncate, InRange, true_imp_iff]
    by_cases finite : sample.value.isFinite
    · simp only [finite, if_true, true_and, ← toInt_ofInt_64, stored_i64]
      by_cases inRange : (BitVec.ofInt 64 (sample.value.toInt 0 0)).toInt = sample.value.toInt 0 0
      · rw [if_neg (not_not_intro inRange)]
        exact (and_iff_left inRange).symm
      · rw [if_pos inRange]
        constructor
        · intro wrong
          cases wrong
        · exact fun both => absurd both.2 inRange
    · rw [if_neg finite]
      constructor
      · intro wrong
        cases wrong
      · exact fun both => absurd both.2.1 finite
  | _ => exact (and_iff_left fun other => by cases other).symm

/-! ### The loop over the frames -/

section Loops

variable {σ : Type} {body other : Nat → σ → Except Thrown σ} {count : Nat}

theorem forFrames_congr (same : ∀ frame < count, ∀ state, body frame state = other frame state)
    (state : σ) : forFrames body count state = forFrames other count state := by
  induction count with
  | zero => rfl
  | succ count ih =>
    simp only [forFrames, ih fun frame below => same frame (by omega), same count (by omega)]

/-- A loop that runs to the end has run its body for each frame. -/
theorem body_of_forFrames {state result : σ} (runs : forFrames body count state = .ok result)
    {frame : Nat} (below : frame < count) : ∃ before after, body frame before = .ok after := by
  induction count generalizing result with
  | zero => omega
  | succ count ih =>
    simp only [forFrames] at runs
    cases first : forFrames body count state with
    | error thrown =>
      rw [first] at runs
      cases runs
    | ok before =>
      rw [first] at runs
      by_cases last : frame = count
      · exact ⟨before, result, last ▸ runs⟩
      · exact ih first (by omega)

/-- What a loop that never throws keeps of what each turn gives. -/
theorem forFrames_ok (body : Nat → σ → Except Thrown σ) (invariant : Nat → σ) (step : ∀ frame < count,
    body frame (invariant frame) = .ok (invariant (frame + 1))) :
    forFrames body count (invariant 0) = .ok (invariant count) := by
  induction count with
  | zero => rfl
  | succ count ih =>
    simp only [forFrames, ih fun frame below => step frame (by omega)]
    exact step count (by omega)

end Loops

namespace Memory

variable {memory : Memory} {address size count : Nat} {word : Nat → Nat}

@[simp] theorem storeAll_zero : memory.storeAll address size 0 word = memory := by
  funext place
  exact if_neg (by omega)

/-- One more word in the row. -/
theorem store_storeAll (sized : 0 < size) :
    (memory.storeAll address size count word).store (address + count * size) size (word count) =
      memory.storeAll address size (count + 1) word := by
  funext place
  simp only [store, storeAll, Nat.succ_mul]
  by_cases before : place < address + count * size
  · rw [if_neg (by omega)]
    by_cases inside : address ≤ place
    · rw [if_pos ⟨inside, before⟩, if_pos ⟨inside, by omega⟩]
    · rw [if_neg (by omega), if_neg (by omega)]
  · by_cases last : place < address + count * size + size
    · have row : (place - address) / size = count ∧
          (place - address) % size = place - (address + count * size) := by
        have split : place - address = place - (address + count * size) + size * count := by
          rw [Nat.mul_comm size]
          omega
        rw [split, Nat.add_mul_div_left _ _ sized, Nat.add_mul_mod_self_left,
          Nat.mod_eq_of_lt (by omega), Nat.div_eq_of_lt (by omega), Nat.zero_add]
        exact ⟨rfl, rfl⟩
      rw [if_pos (by omega), if_pos (by omega), row.1, row.2]
    · rw [if_neg (by omega), if_neg (by omega), if_neg (by omega)]

theorem storeAll_outside {place : Nat}
    (outside : ¬ (address ≤ place ∧ place < address + count * size)) :
    memory.storeAll address size count word place = memory place :=
  if_neg outside

/-- A byte of a word in the row. -/
theorem storeAll_inside {frame byte : Nat} (below : frame < count) (inside : byte < size) :
    memory.storeAll address size count word (address + frame * size + byte) =
      UInt8.ofNat (word frame / 256 ^ byte) := by
  have top : (frame + 1) * size ≤ count * size := Nat.mul_le_mul_right size below
  rw [Nat.succ_mul] at top
  have offset : address + frame * size + byte - address = byte + size * frame := by
    rw [Nat.mul_comm size]
    omega
  rw [storeAll, if_pos (by omega), offset, Nat.add_mul_div_left _ _ (by omega),
    Nat.add_mul_mod_self_left, Nat.mod_eq_of_lt inside, Nat.div_eq_of_lt inside, Nat.zero_add]

theorem storeAll_congr {other : Nat → Nat} (same : ∀ frame < count, word frame = other frame) :
    memory.storeAll address size count word = memory.storeAll address size count other := by
  funext place
  simp only [storeAll]
  split
  · rename_i inside
    rw [same _ (Nat.div_lt_of_lt_mul (by rw [Nat.mul_comm]; omega))]
  · rfl

/-- Rows of 32-bit words with the same bytes have the same words. -/
theorem word_eq_of_storeAll {other : Nat → Nat}
    (same : memory.storeAll address 4 count word = memory.storeAll address 4 count other)
    {frame : Nat} (below : frame < count) (fits : word frame < 2 ^ 32)
    (otherFits : other frame < 2 ^ 32) : word frame = other frame := by
  have bytes : ∀ byte < 4, word frame / 256 ^ byte % 256 = other frame / 256 ^ byte % 256 := by
    intro byte inside
    have place := congrFun same (address + frame * 4 + byte)
    rw [storeAll_inside below inside, storeAll_inside below inside] at place
    simpa using congrArg UInt8.toNat place
  have first := bytes 0 (by decide)
  have second := bytes 1 (by decide)
  have third := bytes 2 (by decide)
  have fourth := bytes 3 (by decide)
  omega

end Memory

/-! ### Inputs -/

section Inputs

variable {source : Samples} {info : Channel byteLength}
  (segment : Segment source.length info.capacity) (memory : Memory)

theorem Channel.inside_at {index : Nat} (below : index < info.capacity) :
    info.pointer + index * scalarByteSize info.scalar + scalarByteSize info.scalar ≤ byteLength := by
  have top : (index + 1) * scalarByteSize info.scalar ≤ info.capacity * scalarByteSize info.scalar :=
    Nat.mul_le_mul_right _ below
  rw [Nat.succ_mul] at top
  have := info.inside
  omega

theorem scalarByteSize_pos (scalar : PrimitiveType) : 0 < scalarByteSize scalar := by
  cases scalar <;> decide

/-- The memory after a segment is stored. -/
def Channel.stored (info : Channel byteLength) (startFrame count : Nat) (memory : Memory)
    (word : Nat → Nat) : Memory :=
  memory.storeAll (info.pointer + startFrame * scalarByteSize info.scalar)
    (scalarByteSize info.scalar) count word

theorem Channel.store_stored (info : Channel byteLength) (startFrame frame : Nat) (memory : Memory)
    (word : Nat → Nat) :
    (info.stored startFrame frame memory word).store
        (info.pointer + (startFrame + frame) * scalarByteSize info.scalar)
        (scalarByteSize info.scalar) (word frame) =
      info.stored startFrame (frame + 1) memory word := by
  rw [Nat.add_mul, ← Nat.add_assoc]
  exact Memory.store_storeAll (scalarByteSize_pos _)

/-- A loop over the frames of a segment that stores a word for each. -/
theorem forFrames_stored {body : Nat → Memory → Except Thrown Memory} {word : Nat → Nat}
    (startFrame : Nat) {count : Nat}
    (step : ∀ frame < count, ∀ memory, body frame memory =
      .ok (memory.store (info.pointer + (startFrame + frame) * scalarByteSize info.scalar)
        (scalarByteSize info.scalar) (word frame))) :
    forFrames body count memory = .ok (info.stored startFrame count memory word) := by
  have run := forFrames_ok body (fun frame => info.stored startFrame frame memory word)
    fun frame below => by rw [step frame below, info.store_stored]
  simpa only [Channel.stored, Memory.storeAll_zero] using run

/-- The element-wise loop of the typed array. -/
def typedInput (frame : Nat) (memory : Memory) : Except Thrown Memory := do
  let word ← inputElement engine info.scalar
    (sample engine source (segment.callbackOffset + frame))
  .ok (info.view.set info.scalar (segment.startFrame + frame) word memory)

/-- The loop of the scalar writer. -/
def writtenInput (frame : Nat) (memory : Memory) : Except Thrown Memory := do
  let value ← inputValue info.scalar (sample engine source (segment.callbackOffset + frame))
  writeScalar engine byteLength
    (info.pointer + (segment.startFrame + frame) * scalarByteSize info.scalar) info.scalar value
    memory

/-- The word that the typed array stores for a frame, and the scalar writer if it does not throw. -/
theorem typedInput_eq {frame : Nat} (below : frame < segment.segmentFrames) {word : Nat}
    (element : inputElement engine info.scalar
      (sample engine source (segment.callbackOffset + frame)) = .ok word) (memory : Memory) :
    typedInput engine segment frame memory =
      .ok (memory.store (info.pointer + (segment.startFrame + frame) * scalarByteSize info.scalar)
        (scalarByteSize info.scalar) word) := by
  have inBlock := segment.inBlock
  have inView : segment.startFrame + frame < info.view.length := by
    show segment.startFrame + frame < info.capacity
    omega
  simp only [typedInput, element]
  exact congrArg Except.ok (if_pos inView)

theorem writtenInput_eq {frame : Nat} (below : frame < segment.segmentFrames) (memory : Memory) :
    writtenInput engine segment frame memory =
      (inputValue info.scalar (sample engine source (segment.callbackOffset + frame)) >>=
        scalarWord engine info.scalar).map fun word =>
          memory.store (info.pointer + (segment.startFrame + frame) * scalarByteSize info.scalar)
            (scalarByteSize info.scalar) word := by
  have inBlock := segment.inBlock
  have inside := info.inside_at (show segment.startFrame + frame < info.capacity by omega)
  unfold writtenInput
  cases inputValue info.scalar (sample engine source (segment.callbackOffset + frame)) with
  | error thrown => rfl
  | ok value =>
    simp only [bind, Except.bind, writeScalar, if_pos inside]
    cases scalarWord engine info.scalar value <;> rfl

/-- The samples of a segment that is written to the end are in range. -/
theorem inRange_of_written {result : Memory}
    (runs : forFrames (writtenInput engine segment) segment.segmentFrames memory = .ok result)
    {frame : Nat} (below : frame < segment.segmentFrames) :
    InRange info.scalar (sample engine source (segment.callbackOffset + frame)) := by
  obtain ⟨before, after, turn⟩ := body_of_forFrames runs below
  rw [writtenInput_eq engine segment below] at turn
  cases written : inputValue info.scalar (sample engine source (segment.callbackOffset + frame)) >>=
      scalarWord engine info.scalar with
  | error thrown =>
    rw [written] at turn
    cases turn
  | ok word => exact ((written_iff engine _ _ word).mp written).2

/-- Where all samples are in range both loops store the same words. -/
theorem inputs_stored (fits : ∀ frame < segment.segmentFrames,
    InRange info.scalar (sample engine source (segment.callbackOffset + frame))) :
    ∃ word : Nat → Nat,
      (∀ frame < segment.segmentFrames, inputElement engine info.scalar
        (sample engine source (segment.callbackOffset + frame)) = .ok (word frame)) ∧
      forFrames (typedInput engine segment) segment.segmentFrames memory =
        .ok (info.stored segment.startFrame segment.segmentFrames memory word) ∧
      forFrames (writtenInput engine segment) segment.segmentFrames memory =
        .ok (info.stored segment.startFrame segment.segmentFrames memory word) := by
  have elements : ∀ frame, ∃ word, frame < segment.segmentFrames → inputElement engine info.scalar
      (sample engine source (segment.callbackOffset + frame)) = .ok word := by
    intro frame
    by_cases below : frame < segment.segmentFrames
    · obtain ⟨word, element⟩ := element_of_inRange engine (fits frame below)
      exact ⟨word, fun _ => element⟩
    · exact ⟨0, fun within => absurd within below⟩
  choose word element using elements
  refine ⟨word, element, ?_, ?_⟩
  · apply forFrames_stored
    intro frame below memory
    exact typedInput_eq engine segment below (element frame below) memory
  · apply forFrames_stored
    intro frame below memory
    rw [writtenInput_eq engine segment below,
      (written_iff engine _ _ _).mpr ⟨element frame below, fits frame below⟩]
    rfl

/-- A segment that is a whole channel of `f32` samples. -/
def Whole : Prop :=
  info.scalar = .f32 ∧ segment.callbackOffset = 0 ∧ segment.segmentFrames = source.length

instance : Decidable (Whole segment) := inferInstanceAs (Decidable (_ ∧ _ ∧ _))

theorem copyInputSamples_view :
    copyInputSamples engine source info (some info.view) segment.callbackOffset segment.startFrame
        segment.segmentFrames memory =
      if Whole segment then info.view.setAll source segment.startFrame memory
      else forFrames (typedInput engine segment) segment.segmentFrames memory := rfl

/-- The bytes of a whole channel. -/
theorem setAll_eq (whole : Whole segment) :
    info.view.setAll source segment.startFrame memory =
      .ok (info.stored segment.startFrame segment.segmentFrames memory
        fun frame => (source.getD frame 0).toNat) := by
  have inBlock := segment.inBlock
  have size : scalarByteSize info.scalar = 4 := by rw [whole.1]; rfl
  have all := whole.2.2
  have inView : segment.startFrame + source.length ≤ info.view.length := by
    show segment.startFrame + source.length ≤ info.capacity
    omega
  rw [View.setAll, if_pos inView, Channel.stored, size, all]
  rfl

/-- The two words of a frame of a whole channel are the same if the engine keeps the sample. -/
theorem whole_word_iff (whole : Whole segment) {frame word : Nat}
    (below : frame < segment.segmentFrames)
    (element : inputElement engine info.scalar
      (sample engine source (segment.callbackOffset + frame)) = .ok word) :
    (source.getD frame 0).toNat = word ↔ engine.Keeps .binary32 (source.getD frame 0) := by
  have inSource : frame < source.length := by
    rw [← whole.2.2]
    exact below
  have read : sample engine source frame = engine.number .binary32 (source.getD frame 0) := by
    simp [sample, inSource]
  rw [whole.1, whole.2.1, Nat.zero_add, read] at element
  have stored : (engine.word .binary32 (engine.number .binary32 (source.getD frame 0))).toNat = word :=
    Except.ok.inj element
  rw [← engine.word_number_iff, ← stored, BitVec.toNat_inj]
  exact eq_comm

/-- Both ways of copying a segment into an input buffer have one meaning if and only if its samples
fit. -/
theorem inputsAgree_iff :
    InputsAgree engine source info segment memory ↔ InputsFit engine source info segment := by
  constructor
  · rintro ⟨result, typed, written, -⟩
    have fits : ∀ frame < segment.segmentFrames,
        InRange info.scalar (sample engine source (segment.callbackOffset + frame)) :=
      fun frame below => inRange_of_written engine segment memory written below
    refine ⟨fits, fun scalar offset all word member => ?_⟩
    have whole : Whole segment := ⟨scalar, offset, all⟩
    obtain ⟨words, elements, -, stored⟩ := inputs_stored engine segment memory fits
    rw [copyInputSamples_view, if_pos whole, setAll_eq segment memory whole] at typed
    have same := Except.ok.inj (typed.trans (written.symm.trans stored))
    obtain ⟨frame, below, rfl⟩ := List.getElem_of_mem member
    have inSegment : frame < segment.segmentFrames := by
      rw [all]
      exact below
    have keeps := whole_word_iff engine segment whole inSegment (elements frame inSegment)
    have read : source.getD frame 0 = source[frame] := by simp [below]
    rw [read] at keeps
    apply keeps.mp
    have size : scalarByteSize info.scalar = 4 := by rw [scalar]; rfl
    simp only [Channel.stored, size] at same
    rw [← read]
    refine Memory.word_eq_of_storeAll same inSegment (BitVec.isLt _) ?_
    have element := elements frame inSegment
    rw [scalar] at element
    rw [← Except.ok.inj element]
    exact BitVec.isLt _
  · rintro ⟨fits, nans⟩
    obtain ⟨words, elements, typed, written⟩ := inputs_stored engine segment memory fits
    refine ⟨_, ?_, written, ?_⟩
    · rw [copyInputSamples_view]
      by_cases whole : Whole segment
      · rw [if_pos whole, setAll_eq segment memory whole]
        refine congrArg Except.ok (Memory.storeAll_congr fun frame below => ?_)
        apply (whole_word_iff engine segment whole below (elements frame below)).mpr
        have inSource : frame < source.length := by
          rw [← whole.2.2]
          exact below
        have read : source.getD frame 0 = source[frame] := by simp [inSource]
        rw [read]
        exact nans whole.1 whole.2.1 whole.2.2 _ (List.getElem_mem inSource)
      · rw [if_neg whole, typed]
    · intro place outside
      exact Memory.storeAll_outside fun inside => outside (by rw [Nat.add_mul]; omega)

end Inputs

/-! ### Outputs -/

section Outputs

variable {destination : Samples} {info : Channel byteLength}
  (segment : Segment destination.length info.capacity) (memory : Memory)

variable (destination) in
/-- A loop that sets an element for each frame. -/
theorem forFrames_set (offset : Nat) (word : Nat → BitVec Format.binary32.numBits) (count : Nat) :
    ∃ result, forFrames (fun frame (samples : Samples) =>
        .ok (samples.set (offset + frame) (word frame))) count destination = .ok result ∧
      ∀ index, result[index]? =
        if offset ≤ index ∧ index < offset + count ∧ index < destination.length then
          some (word (index - offset))
        else destination[index]? := by
  induction count with
  | zero =>
    refine ⟨destination, rfl, fun index => ?_⟩
    rw [if_neg (by omega)]
  | succ count ih =>
    obtain ⟨before, runs, elements⟩ := ih
    refine ⟨before.set (offset + count) (word count), by rw [forFrames, runs]; rfl, fun index => ?_⟩
    rw [List.getElem?_set]
    have outside := elements index
    by_cases here : offset + count = index
    · subst here
      rw [if_neg (by omega)] at outside
      have lengths : (offset + count < before.length) ↔ offset + count < destination.length := by
        rw [← not_iff_not, not_lt, not_lt, ← List.getElem?_eq_none_iff, ← List.getElem?_eq_none_iff,
          outside]
      by_cases inside : offset + count < destination.length
      · rw [if_pos rfl, if_pos (lengths.mpr inside), if_pos (by omega), Nat.add_sub_cancel_left]
      · rw [if_pos rfl, if_neg (mt lengths.mp inside), if_neg (by omega),
          List.getElem?_eq_none (by omega)]
    · rw [if_neg here, outside]
      by_cases inside : offset ≤ index ∧ index < offset + count ∧ index < destination.length
      · rw [if_pos inside, if_pos (by omega)]
      · rw [if_neg inside, if_neg (by omega)]

theorem truthy_exactly (word : Nat) : (Value.number ⟨exactly word, 0⟩).truthy = (word != 0) := by
  unfold exactly
  split
  · rename_i positive
    have some : word ≠ 0 := by omega
    simp [Value.truthy, nonzero, some]
  · rename_i none
    have zero : word = 0 := by omega
    rw [zero]
    rfl

/-- The value of a frame that both ways read. -/
def frameValue (frame : Nat) : Value :=
  scalarValue engine info.scalar
    (memory.load (info.pointer + (segment.startFrame + frame) * scalarByteSize info.scalar)
      (scalarByteSize info.scalar))

theorem view_get {frame : Nat} (below : frame < segment.segmentFrames) :
    info.view.get engine info.scalar (segment.startFrame + frame) memory =
      frameValue engine segment memory frame := by
  have inBlock := segment.inBlock
  have inView : segment.startFrame + frame < info.view.length := by
    show segment.startFrame + frame < info.capacity
    omega
  exact if_pos inView

/-- A scalar that is read gives the sample of the typed array's element. -/
theorem readScalar_word {frame : Nat} (below : frame < segment.segmentFrames) :
    ∃ value, readScalar engine byteLength
        (info.pointer + (segment.startFrame + frame) * scalarByteSize info.scalar) info.scalar memory =
          .ok value ∧
      outputWord engine info.scalar value =
        outputWord engine info.scalar (frameValue engine segment memory frame) := by
  have inBlock := segment.inBlock
  have inside := info.inside_at (show segment.startFrame + frame < info.capacity by omega)
  refine ⟨_, if_pos inside, ?_⟩
  by_cases flag : info.scalar = .bool
  · simp only [outputWord, frameValue, flag, if_true, scalarValue, scalarByteSize, truthy_exactly]
    rfl
  · rw [if_neg flag]
    rfl

/-- The words that the element-wise copies store. -/
def outputWords (frame : Nat) : BitVec Format.binary32.numBits :=
  outputWord engine info.scalar (frameValue engine segment memory frame)

theorem copyOutputSamples_none :
    copyOutputSamples engine destination info none segment.callbackOffset segment.startFrame
        segment.segmentFrames memory =
      forFrames (fun frame (samples : Samples) => .ok (samples.set (segment.callbackOffset + frame)
        (outputWords engine segment memory frame))) segment.segmentFrames destination := by
  apply forFrames_congr
  intro frame below samples
  obtain ⟨value, read, word⟩ := readScalar_word engine segment memory below
  rw [read]
  exact congrArg (fun word => Except.ok (samples.set (segment.callbackOffset + frame) word)) word

/-- A segment that is a whole channel of `f32` samples and a whole buffer. -/
def WholeBuffer : Prop :=
  info.scalar = .f32 ∧ segment.callbackOffset = 0 ∧ segment.startFrame = 0 ∧
    segment.segmentFrames = destination.length ∧ info.capacity = destination.length

instance : Decidable (WholeBuffer segment) := inferInstanceAs (Decidable (_ ∧ _ ∧ _ ∧ _ ∧ _))

theorem copyOutputSamples_view :
    copyOutputSamples engine destination info (some info.view) segment.callbackOffset
        segment.startFrame segment.segmentFrames memory =
      if WholeBuffer segment then
        .ok ((List.range destination.length).map fun frame =>
          BitVec.ofNat _ (memory.load (info.pointer + frame * 4) 4))
      else forFrames (fun frame (samples : Samples) => .ok (samples.set
        (segment.callbackOffset + frame) (outputWords engine segment memory frame)))
          segment.segmentFrames destination := by
  by_cases whole : WholeBuffer segment
  · rw [if_pos whole]
    exact if_pos whole
  · rw [if_neg whole]
    refine (if_neg whole).trans (forFrames_congr (fun frame below samples => ?_) destination)
    rw [view_get engine segment memory below]
    rfl

/-- The word stored for a frame of a whole buffer. -/
theorem outputWords_whole (whole : WholeBuffer segment) (frame : Nat) :
    outputWords engine segment memory frame = engine.word .binary32 (engine.number .binary32
      (BitVec.ofNat _ (memory.load (info.pointer + frame * 4) 4))) := by
  simp only [outputWords, outputWord, frameValue, whole.1, whole.2.2.1, Nat.zero_add]
  rfl

/-- Both ways of copying a segment of an output buffer have one meaning if and only if its words
fit. -/
theorem outputsAgree_iff :
    OutputsAgree engine destination info segment memory ↔
      OutputsFit engine destination info segment memory := by
  obtain ⟨result, runs, elements⟩ := forFrames_set destination
    segment.callbackOffset (outputWords engine segment memory) segment.segmentFrames
  have kept : ∀ index, ¬ (segment.callbackOffset ≤ index ∧
      index < segment.callbackOffset + segment.segmentFrames) →
        result[index]? = destination[index]? := by
    intro index outside
    rw [elements, if_neg (by omega)]
  unfold OutputsAgree
  rw [copyOutputSamples_none, copyOutputSamples_view, runs]
  by_cases whole : WholeBuffer segment
  · rw [if_pos whole]
    have ⟨scalar, offset, start, all, capacity⟩ := whole
    have element : ∀ frame < destination.length,
        result[frame]? = some (outputWords engine segment memory frame) := by
      intro frame below
      rw [elements, if_pos (by omega), offset, Nat.sub_zero]
    constructor
    · rintro ⟨samples, typed, written, -⟩ - - - - - frame below
      have same := Except.ok.inj (typed.trans written.symm)
      have equal := congrArg (fun samples : Samples => samples[frame]?) same
      simp only [List.getElem?_map, List.getElem?_range below, Option.map_some, element frame below,
        outputWords_whole engine segment memory whole] at equal
      exact (engine.word_number_iff _).mp (Option.some.inj equal).symm
    · intro fits
      refine ⟨result, congrArg Except.ok (List.ext_getElem? fun frame => ?_), rfl, kept⟩
      by_cases below : frame < destination.length
      · rw [element frame below, List.getElem?_map, List.getElem?_range below, Option.map_some,
          outputWords_whole engine segment memory whole,
          (engine.word_number_iff _).mpr (fits scalar offset start all capacity frame below)]
      · have past : destination.length ≤ frame := by omega
        rw [kept frame (by omega), List.getElem?_eq_none past, List.getElem?_eq_none]
        simpa using past
  · rw [if_neg whole]
    constructor
    · intro _ scalar offset start all capacity
      exact absurd ⟨scalar, offset, start, all, capacity⟩ whole
    · exact fun _ => ⟨result, rfl, rfl, kept⟩

end Outputs

/-- Samples are copied with one meaning in both directions exactly if every sample for an `i64` input
has an integer in range and the engine keeps the NaNs of the channels that it copies as a whole. -/
theorem copySamples_agree_iff (engine : Engine) (byteLength : Nat) (samples : Samples)
    (info : Channel byteLength) (segment : Segment samples.length info.capacity) (memory : Memory) :
    (InputsAgree engine samples info segment memory ↔ InputsFit engine samples info segment) ∧
      (OutputsAgree engine samples info segment memory ↔
        OutputsFit engine samples info segment memory) :=
  ⟨inputsAgree_iff engine segment memory, outputsAgree_iff engine segment memory⟩

/-- An engine with one NaN. -/
def oneNan : Engine := ⟨fun _ _ => 0, fun spec _ => packedNaN spec, 0⟩

/-- A buffer of one 64-bit integer. -/
def oneInteger : Channel 8 := ⟨.i64, 0, 1, by decide⟩

/-- A NaN throws on both ways, a sample of `2 ^ 63` is wrapped by the typed array and refused by the
scalar writer. -/
theorem copySamples_disagree :
    (¬ InputsAgree oneNan [0x7fc00000#32] oneInteger ⟨0, 0, 1, by decide, by decide⟩ fun _ => 0) ∧
      ¬ InputsAgree oneNan [0x5f000000#32] oneInteger ⟨0, 0, 1, by decide, by decide⟩ fun _ => 0 := by
  constructor
  · rintro ⟨result, typed, -, -⟩
    cases typed
  · rintro ⟨result, -, written, -⟩
    cases written

end Onda.WebAudio.Marshalling
