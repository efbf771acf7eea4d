import Onda.Lib.Wire

/-!
# Texts, limits and failures of the project crate

The values every part of the project code shares.  What the code takes from
outside (the width of `usize`, SHA-256, Unicode tables, the JSON library) is
the `Platform` its functions are parametrised by.

### Texts

A Rust `String` is its UTF-8 bytes.  Texts compare byte by byte, as `str` does.
-/

namespace Onda.Project

abbrev Bytes := List UInt8

/-- A Rust `String`.  It is in memory, and no address space has `2 ^ 56` bytes. -/
structure Text where
  bytes : Bytes
  fits : bytes.length < 2 ^ 56
deriving DecidableEq

instance : Inhabited Text := ⟨[], by decide⟩

/-- The bytes of an ASCII literal of the source. -/
def ascii (literal : String) : Bytes := literal.toList.map fun char => char.toNat.toUInt8

/-- A number in a message. -/
def decimal (value : Nat) : Bytes :=
  (Nat.toDigits 10 value).map fun digit => digit.toNat.toUInt8

namespace Text

theorem bytes_injective : Function.Injective Text.bytes := by
  rintro ⟨left, _⟩ ⟨right, _⟩ same
  cases same
  rfl

/-- `str` order: byte by byte. -/
instance : LinearOrder Text :=
  LinearOrder.lift' (fun text => text.bytes.map UInt8.toNat) (by
    intro left right same
    exact bytes_injective
      (List.map_injective_iff.mpr (fun _ _ equal => UInt8.toNat_inj.mp equal) same))

end Text

/-! ### Failures -/

/-- `ProjectError`: the message is all a caller sees. -/
structure ProjectError where
  message : Bytes
deriving DecidableEq

/-- How a call can end without a value: with an error the caller handles, or
with a panic (a slice out of bounds, an overflowing sum). -/
inductive Failure where
  | rejected (error : ProjectError)
  | panicked
deriving DecidableEq

/-- A call of the project code. -/
abbrev Checked (α : Type) := Except Failure α

/-- `Err(ProjectError::new(message))`. -/
def reject {α : Type} (message : Bytes) : Checked α := .error (.rejected ⟨message⟩)

/-- `&bytes[start..stop]`. -/
def slice (bytes : Bytes) (start stop : Nat) : Checked Bytes :=
  if start ≤ stop ∧ stop ≤ bytes.length then .ok ((bytes.drop start).take (stop - start))
  else .error .panicked

/-- `bytes[index]`. -/
def index (bytes : Bytes) (position : Nat) : Checked UInt8 :=
  match bytes[position]? with
  | some byte => .ok byte
  | none => .error .panicked

/-- `bytes.get(start..stop)`. -/
def getRange (bytes : Bytes) (start stop : Nat) : Option Bytes :=
  if start ≤ stop ∧ stop ≤ bytes.length then some ((bytes.drop start).take (stop - start))
  else none

/-! ### Limits -/

/-- `ProjectLimits`. -/
structure ProjectLimits where
  maxDocuments : Nat
  maxResolutions : Nat
  maxSourceBytes : Nat
  maxAssets : Nat
  maxBufferBindings : Nat
  maxConstantBindings : Nat
  maxAssetBytes : Nat
  maxTotalAssetBytes : Nat
  maxManifestBytes : Nat
  maxPathBytes : Nat
  maxPathComponentBytes : Nat
deriving DecidableEq

/-- `ProjectLimits::default()`. -/
def ProjectLimits.default : ProjectLimits where
  maxDocuments := 4096
  maxResolutions := 16 * 1024
  maxSourceBytes := 64 * 1024 * 1024
  maxAssets := 4096
  maxBufferBindings := 4096
  maxConstantBindings := 4096
  maxAssetBytes := 1024 * 1024 * 1024
  maxTotalAssetBytes := 2 * 1024 * 1024 * 1024
  maxManifestBytes := 64 * 1024 * 1024
  maxPathBytes := 16 * 1024
  maxPathComponentBytes := 255

/-! ### The platform -/

/-- A SHA-256 digest. -/
abbrev Digest := { bytes : Bytes // bytes.length = 32 }

/-- What the code takes from its host and its libraries. -/
structure Platform where
  /-- `usize::MAX`. -/
  usizeMax : Nat
  /-- A `u32` is a `usize`. -/
  u32_le_usize : 2 ^ 32 - 1 ≤ usizeMax
  /-- A `usize` is a `u64`. -/
  usize_le_u64 : usizeMax < 2 ^ 64
  /-- SHA-256 of a byte stream. -/
  sha256 : Bytes → Digest
  /-- `unicode_normalization::is_nfc`. -/
  isNfc : Text → Bool
  /-- `unicode_normalization`'s `nfc().collect()`. -/
  nfc : Text → Text
  toLowercase : Text → Text
  toUppercase : Text → Text

namespace Platform

variable (platform : Platform)

/-- `left.checked_add(right)` on `usize`. -/
def checkedAdd (left right : Nat) : Option Nat :=
  if left + right ≤ platform.usizeMax then some (left + right) else none

/-- `left.checked_mul(right)` on `usize`. -/
def checkedMul (left right : Nat) : Option Nat :=
  if left * right ≤ platform.usizeMax then some (left * right) else none

/-- `left.saturating_mul(right)` on `usize`. -/
def saturatingMul (left right : Nat) : Nat := min (left * right) platform.usizeMax

/-- `usize::try_from(value)` for a `u64`. -/
def usizeTryFrom (value : Nat) : Option Nat :=
  if value ≤ platform.usizeMax then some value else none

end Platform

/-- The value of an option, or an error with `message`. -/
def okOr {α : Type} (message : Bytes) : Option α → Checked α
  | some value => .ok value
  | none => reject message

/-- `checked_product`. -/
def Platform.checkedProduct (platform : Platform) (values : List Nat) (context : Bytes) :
    Checked Nat :=
  values.foldlM (fun product value =>
    okOr (context ++ ascii " size overflows") (platform.checkedMul product value)) 1

/-- Passes when the source's test for a refusal is false. -/
def refuseIf (refused : Prop) [Decidable refused] (message : Bytes) : Checked Unit :=
  if refused then reject message else .ok ()

/-! ### Stepping through a call -/

section Steps

variable {α β : Type}

variable {bytes : Bytes} {first : Checked α} {start stop : Nat} {next : α → Checked β}

/-- **Sequencing.** A call that succeeds passed every step. -/
theorem bind_ok_iff {result : β} :
    first >>= next = .ok result ↔ ∃ value, first = .ok value ∧ next value = .ok result := by
  cases first with
  | error failure => simp [bind, Except.bind]
  | ok value => simp [bind, Except.bind]

/-- A check that succeeds only says that it passed. -/
theorem check_ok_iff {check : Checked Unit} {next : Unit → Checked β} {result : β} :
    check >>= next = .ok result ↔ check = .ok () ∧ next () = .ok result := by
  rw [bind_ok_iff]
  constructor
  · rintro ⟨⟨⟩, passed, rest⟩
    exact ⟨passed, rest⟩
  · rintro ⟨passed, rest⟩
    exact ⟨(), passed, rest⟩

@[simp] theorem refuseIf_ok_iff {refused : Prop} [Decidable refused] {message : Bytes}
    {done : Unit} : refuseIf refused message = .ok done ↔ ¬refused := by
  unfold refuseIf
  split <;> simp_all [reject]

@[simp] theorem okOr_ok_iff {message : Bytes} {value : Option α} {result : α} :
    okOr message value = .ok result ↔ value = some result := by
  cases value <;> simp [okOr, reject]

theorem slice_eq (ordered : start ≤ stop) (inside : stop ≤ bytes.length) :
    slice bytes start stop = .ok ((bytes.drop start).take (stop - start)) :=
  if_pos ⟨ordered, inside⟩

/-! Fields at fixed offsets of a concatenation. -/

theorem exists_split (bytes : Bytes) (width : Nat) (room : width ≤ bytes.length) :
    ∃ field rest, field.length = width ∧ bytes = field ++ rest :=
  ⟨bytes.take width, bytes.drop width, by rw [List.length_take]; omega,
    (List.take_append_drop width bytes).symm⟩

theorem getRange_eq (ordered : start ≤ stop) (inside : stop ≤ bytes.length) :
    getRange bytes start stop = some ((bytes.drop start).take (stop - start)) :=
  if_pos ⟨ordered, inside⟩

theorem getRange_skip {skipped : Bytes} (past : skipped.length ≤ start) (ordered : start ≤ stop) :
    getRange (skipped ++ bytes) start stop =
      getRange bytes (start - skipped.length) (stop - skipped.length) := by
  have sameWidth : stop - start = stop - skipped.length - (start - skipped.length) := by omega
  unfold getRange
  rw [List.drop_append, List.drop_eq_nil_of_le past, List.nil_append, sameWidth,
    List.length_append]
  congr 1
  apply propext
  constructor
  · rintro ⟨_, _⟩
    omega
  · rintro ⟨_, _⟩
    omega

theorem getRange_here {field rest : Bytes} {width : Nat} (wide : field.length = width) :
    getRange (field ++ rest) 0 width = some field := by
  rw [getRange_eq (Nat.zero_le _) (by rw [List.length_append]; omega), List.drop_zero,
    Nat.sub_zero, List.take_left' wide]

/-- Slicing panics where `get` finds nothing. -/
theorem slice_of_getRange {field : Bytes} (found : getRange bytes start stop = some field)
    : slice bytes start stop = .ok field := by
  unfold getRange at found
  unfold slice
  split at found
  · rw [if_pos ‹_›, Option.some.inj found]
  · cases found

/-! A call never panics when none of its steps does. -/

/-- The call ends with a value or with an error its caller handles. -/
def Calm (call : Checked α) : Prop := call ≠ .error .panicked

theorem Calm.ok (value : α) : Calm (.ok value : Checked α) := by simp [Calm]

theorem Calm.reject (message : Bytes) : Calm (reject message : Checked α) := by
  simp [Calm, Project.reject]

theorem Calm.bind (calm : Calm first) (calmNext : ∀ value, first = .ok value → Calm (next value))
    : Calm (first >>= next) := by
  cases first with
  | error failure =>
    intro panicked
    apply calm
    simpa [Bind.bind, Except.bind] using panicked
  | ok value => exact calmNext value rfl

theorem Calm.refuseIf (refused : Prop) [Decidable refused] (message : Bytes) :
    Calm (refuseIf refused message) := by
  unfold Project.refuseIf
  split
  · exact Calm.reject message
  · exact Calm.ok ()

theorem Calm.okOr (message : Bytes) (value : Option α) : Calm (okOr message value) := by
  cases value with
  | none => exact Calm.reject message
  | some value => exact Calm.ok value

theorem Calm.slice {bytes : Bytes} {start stop : Nat} (ordered : start ≤ stop)
    (inside : stop ≤ bytes.length)
    : Calm (slice bytes start stop) := by
  rw [slice_eq ordered inside]
  exact Calm.ok _

theorem Calm.index {position : Nat} (inside : position < bytes.length) :
    Calm (index bytes position) := by
  simp [Calm, Project.index, inside]

/-- A product over the host's words is the product, and fits. -/
theorem checkedProduct_pair {platform : Platform} {left right product : Nat} {context : Bytes} :
    platform.checkedProduct [left, right] context = .ok product ↔
      left ≤ platform.usizeMax ∧ left * right ≤ platform.usizeMax ∧
        product = left * right := by
  simp only [Platform.checkedProduct, List.foldlM_cons, List.foldlM_nil, bind_ok_iff,
    okOr_ok_iff, Platform.checkedMul, Nat.one_mul, Option.ite_none_right_eq_some,
    Option.some.injEq, pure, Except.pure, Except.ok.injEq]
  constructor
  · rintro ⟨_, ⟨fitsLeft, rfl⟩, _, ⟨fits, rfl⟩, rfl⟩
    exact ⟨fitsLeft, fits, rfl⟩
  · rintro ⟨fitsLeft, fits, rfl⟩
    exact ⟨_, ⟨fitsLeft, rfl⟩, _, ⟨fits, rfl⟩, rfl⟩

end Steps

end Onda.Project
