import Mathlib
import Onda.Frontend.Expr

/-!
# Generated symbols

The compiler makes names of its own out of names of the source.  The component for a name is readable,
and it ends with the bytes of the name, so that different names have different components.
-/

namespace Onda.Symbols

open Onda.Frontend (PrimitiveType)

/-- The characters of a string. -/
abbrev Text := List Char

/-- `is_ascii_alphanumeric`, or an underscore. -/
def isIdentifierChar (ch : Char) : Bool := ch.isAlphanum || ch = '_'

/-- `sanitize_runtime_symbol_component`. -/
def sanitizeRuntimeSymbolComponent (name : Text) : Text :=
  name.map fun ch => if isIdentifierChar ch then ch else '_'

/-- `as_bytes`: UTF-8. -/
def asBytes (name : Text) : List UInt8 := name.flatMap String.utf8EncodeChar

/-- `{byte:02x}`. -/
def hexByte (byte : UInt8) : Text := [Nat.digitChar (byte.toNat / 16), Nat.digitChar (byte.toNat % 16)]

/-- `to_string` of a number. -/
def decimal (number : Nat) : Text := Nat.toDigits 10 number

/-- The bytes of a name. -/
def hexBytes (name : Text) : Text := (asBytes name).flatMap hexByte

/-- `encode_internal_symbol_component`. -/
def encodeInternalSymbolComponent (name : Text) : Text :=
  sanitizeRuntimeSymbolComponent name ++ ['_', '_', 'i', 'd', '_']
    ++ decimal (asBytes name).length ++ ['_'] ++ hexBytes name

/-- `collision_safe_runtime_symbol_component`. -/
def collisionSafeRuntimeSymbolComponent (name : Text) : Text :=
  if sanitizeRuntimeSymbolComponent name = name then sanitizeRuntimeSymbolComponent name
  else encodeInternalSymbolComponent name

/-- `runtime_proc_array_active_symbol`. -/
def runtimeProcArrayActiveSymbol (arrayBase : Text) : Text :=
  "__onda_proc_block_active_".toList ++ collisionSafeRuntimeSymbolComponent arrayBase

/-- `runtime_buffer_alias_selector_symbol`. -/
def runtimeBufferAliasSelectorSymbol (aliasName : Text) : Text :=
  "__onda_buffer_alias_selector_".toList ++ collisionSafeRuntimeSymbolComponent aliasName

/-- `overload_internal_name`. -/
def overloadInternalName (publicName : Text) (ordinal : Nat) : Text :=
  "__onda_ovl_".toList ++ encodeInternalSymbolComponent publicName ++ ['_'] ++ decimal ordinal

/-- `TypedBufferChannels`. -/
inductive TypedBufferChannels where
  | mono
  | static (channels : Nat)
  | dynamic
deriving DecidableEq

/-- `MonoParamKey`. -/
inductive MonoParamKey where
  | passthrough
  | unresolvedStructural
  | resolvedStruct (name : Text)
  | resolvedArray (ty : PrimitiveType)
  | resolvedNominalArray (name : Text) (len : Option Nat)
  | resolvedBuffer (ty : PrimitiveType) (channels : TypedBufferChannels)
  | resolvedBufferArray (ty : PrimitiveType) (channels : TypedBufferChannels) (len : Nat)
  | resolvedTuple (types : List PrimitiveType)
  | resolvedScalar (ty : PrimitiveType)
  | genericType (ty : PrimitiveType)
deriving DecidableEq

/-- `format!("{ty:?}").to_lowercase()`. -/
def typeText : PrimitiveType → Text
  | .f32 => ['f', '3', '2']
  | .f64 => ['f', '6', '4']
  | .i32 => ['i', '3', '2']
  | .i64 => ['i', '6', '4']
  | .bool => ['b', 'o', 'o', 'l']

def channelsText : TypedBufferChannels → Text
  | .mono => []
  | .static channels => ['_'] ++ decimal channels ++ ['c', 'h']
  | .dynamic => ['_', 'd', 'y', 'n']

/-- What a key adds to the suffix of `mono_def_name`. -/
def keyText : MonoParamKey → Text
  | .passthrough => ['_', '_', 'p', 'a', 's', 's']
  | .unresolvedStructural => ['_', '_', 'o', 'p', 'e', 'n']
  | .resolvedStruct name => ['_', '_'] ++ encodeInternalSymbolComponent name
  | .resolvedArray ty => ['_', '_', 'a', 'r', 'r', '_'] ++ typeText ty
  | .resolvedNominalArray name len =>
    ['_', '_', 'a', 'r', 'r', '_', 'n', 'o', 'm', '_'] ++ encodeInternalSymbolComponent name
      ++ match len with
        | some len => ['_'] ++ decimal len
        | none => ['_', 'v', 'i', 'e', 'w']
  | .resolvedBuffer ty channels => ['_', '_', 'b', 'u', 'f', '_'] ++ typeText ty ++ channelsText channels
  | .resolvedBufferArray ty channels len =>
    ['_', '_', 'b', 'u', 'f', 's', '_'] ++ typeText ty ++ channelsText channels
      ++ ['_'] ++ decimal len ++ ['i', 't', 'e', 'm', 's']
  | .resolvedTuple types => ['_', '_', 't', 'u', 'p'] ++ types.flatMap fun ty => '_' :: typeText ty
  | .resolvedScalar ty => ['_', '_', 's', 'c', 'a', 'l', 'a', 'r', '_'] ++ typeText ty
  | .genericType ty => ['_', '_', 'g', '_'] ++ typeText ty

/-- `mono_def_name`. -/
def monoDefName (base : Text) (keys : List MonoParamKey) : Text :=
  base ++ ".__onda_mono".toList ++ keys.flatMap keyText

/-! ### Components -/

theorem asBytes_injective : Function.Injective asBytes := by
  intro first second same
  have encoded : String.ofList first = String.ofList second := by
    apply String.toByteArray_inj.1
    rw [String.toByteArray_ofList, String.toByteArray_ofList]
    show (first.flatMap String.utf8EncodeChar).toByteArray = (second.flatMap _).toByteArray
    rw [show first.flatMap String.utf8EncodeChar = second.flatMap String.utf8EncodeChar from same]
  exact String.ofList_injective encoded

theorem hexByte_injective : Function.Injective hexByte := by
  intro first second same
  obtain ⟨high, low⟩ := List.cons.inj same
  obtain ⟨low, -⟩ := List.cons.inj low
  have digits : ∀ x < 16, ∀ y < 16, Nat.digitChar x = Nat.digitChar y → x = y := by decide
  have upper : first.toNat / 16 = second.toNat / 16 :=
    digits _ (by have := first.toNat_lt; omega) _ (by have := second.toNat_lt; omega) high
  have lower : first.toNat % 16 = second.toNat % 16 :=
    digits _ (Nat.mod_lt _ (by decide)) _ (Nat.mod_lt _ (by decide)) low
  exact UInt8.toNat_inj.1 (by omega)

theorem hexBytes_injective : Function.Injective hexBytes := by
  have lists : ∀ first second : List UInt8, first.flatMap hexByte = second.flatMap hexByte →
      first = second := by
    intro first
    induction first with
    | nil =>
      intro second same
      cases second with
      | nil => rfl
      | cons byte bytes => cases same
    | cons byte bytes ih =>
      intro second same
      cases second with
      | nil => cases same
      | cons other others =>
        rw [List.flatMap_cons, List.flatMap_cons] at same
        obtain ⟨here, rest⟩ := List.append_inj same rfl
        rw [hexByte_injective here, ih others rest]
  intro first second same
  exact asBytes_injective (lists _ _ same)

/-! ### Pieces -/

def addPiece (pieces : List Text) (ch : Char) : List Text :=
  if ch = '_' then [] :: pieces
  else
    match pieces with
    | [] => [[ch]]
    | piece :: pieces => (piece ++ [ch]) :: pieces

/-- The pieces between underscores, the last one first. -/
def pieces (text : Text) : List Text := text.foldl addPiece [[]]

variable {ch : Char} {keys keys' : List MonoParamKey} {name piece word : Text}

theorem pieces_append {before : Text} (free : '_' ∉ piece) :
    pieces (before ++ '_' :: piece) = piece :: pieces before := by
  have grow : ∀ (piece : Text), '_' ∉ piece → ∀ (first : Text) (rest : List Text),
      piece.foldl addPiece (first :: rest) = (first ++ piece) :: rest := by
    intro piece
    induction piece with
    | nil => exact fun _ first rest => by rw [List.foldl_nil, List.append_nil]
    | cons ch piece ih =>
      intro free first rest
      rw [List.mem_cons, not_or] at free
      rw [List.foldl_cons, addPiece, if_neg (Ne.symm free.1), ih free.2, List.append_assoc,
        List.singleton_append]
  have separates : ∀ pieces, addPiece pieces '_' = [] :: pieces := fun _ => if_pos rfl
  unfold pieces
  rw [List.foldl_append, List.foldl_cons, separates, grow piece free, List.nil_append]

/-- What follows the last separator is determined. -/
theorem split_last {sep : Char} {first second tail tail' : Text} (free : sep ∉ tail)
    (free' : sep ∉ tail') (same : first ++ sep :: tail = second ++ sep :: tail') :
    first = second ∧ tail = tail' := by
  rcases List.append_eq_append_iff.1 same with ⟨middle, rfl, rest⟩ | ⟨middle, rfl, rest⟩
  · cases middle with
    | nil => exact ⟨(List.append_nil _).symm, (List.cons.inj rest).2⟩
    | cons head middle => exact absurd (by simp [(List.cons.inj rest).2]) free
  · cases middle with
    | nil => exact ⟨List.append_nil _, (List.cons.inj rest).2.symm⟩
    | cons head middle => exact absurd (by simp [(List.cons.inj rest).2]) free'

/-! ### Digits -/

/-- The characters of hexadecimal numbers. -/
def isHexDigit (ch : Char) : Bool := ch.isDigit || ('a' ≤ ch && ch ≤ 'f')

theorem decimal_injective : Function.Injective decimal := by
  intro first second same
  have digits : Nat.toDigits 10 first = Nat.toDigits 10 second := same
  rw [← @Nat.ofDigitChars_toDigits 10 first (by decide) (by decide), digits,
    Nat.ofDigitChars_toDigits (by decide) (by decide)]

theorem decimal_isDigit {number : Nat} (mem : ch ∈ decimal number) : ch.isDigit :=
  Nat.isDigit_of_mem_toDigits (by decide) (by decide) mem

theorem hexBytes_isHexDigit (mem : ch ∈ hexBytes name) : isHexDigit ch := by
  obtain ⟨byte, -, mem⟩ := List.mem_flatMap.1 mem
  have digits : ∀ x < 16, isHexDigit (Nat.digitChar x) := by decide
  rcases List.mem_cons.1 mem with rfl | mem
  · exact digits _ (by have := byte.toNat_lt; omega)
  · rw [List.mem_singleton.1 mem]
    exact digits _ (Nat.mod_lt _ (by decide))

theorem length_hexBytes (name : Text) : (hexBytes name).length = 2 * (asBytes name).length := by
  have each : ∀ bytes : List UInt8, (bytes.flatMap hexByte).length = 2 * bytes.length := by
    intro bytes
    induction bytes with
    | nil => rfl
    | cons byte bytes ih =>
      rw [List.flatMap_cons, List.length_append, ih, List.length_cons]
      show 2 + 2 * bytes.length = _
      omega
  exact each _

/-- A number in the last piece: it is no word of a key. -/
structure Numeric (piece : Text) : Prop where
  digits : ∀ ch ∈ piece, isHexDigit ch
  noType : ∀ ty, piece ≠ typeText ty

theorem numeric_decimal (number : Nat) : Numeric (decimal number) := by
  refine ⟨fun ch mem => ?_, fun ty same => ?_⟩
  · rw [isHexDigit, decimal_isDigit mem]
    rfl
  · have letters : ∀ ty, ∃ ch ∈ typeText ty, ch.isDigit = false := by
      intro ty
      cases ty with
      | f32 => exact ⟨'f', by decide, rfl⟩
      | f64 => exact ⟨'f', by decide, rfl⟩
      | i32 => exact ⟨'i', by decide, rfl⟩
      | i64 => exact ⟨'i', by decide, rfl⟩
      | bool => exact ⟨'b', by decide, rfl⟩
    obtain ⟨ch, mem, letter⟩ := letters ty
    rw [← same] at mem
    rw [decimal_isDigit mem] at letter
    cases letter

theorem numeric_hexBytes (name : Text) : Numeric (hexBytes name) := by
  refine ⟨fun ch mem => hexBytes_isHexDigit mem, fun ty same => ?_⟩
  -- The types of floats have an odd length, and the others have a letter that is no digit.
  have length := congrArg List.length same
  rw [length_hexBytes] at length
  have letters : ∀ ty, (typeText ty).length % 2 = 1 ∨ ∃ ch ∈ typeText ty, isHexDigit ch = false := by
    intro ty
    cases ty with
    | f32 => exact .inl rfl
    | f64 => exact .inl rfl
    | i32 => exact .inl rfl
    | i64 => exact .inl rfl
    | bool => exact .inr ⟨'o', by decide, by decide⟩
  rcases letters ty with odd | ⟨ch, mem, letter⟩
  · omega
  · rw [← same] at mem
    rw [hexBytes_isHexDigit mem] at letter
    cases letter

theorem Numeric.ne (numeric : Numeric piece) (mem : ch ∈ word) (letter : isHexDigit ch = false)
    : piece ≠ word := by
  rintro rfl
  rw [numeric.digits ch mem] at letter
  cases letter

theorem Numeric.getLast_ne (numeric : Numeric piece) (letter : isHexDigit ch = false)
    : piece.getLast? ≠ some ch := by
  intro last
  rw [numeric.digits ch (List.mem_of_getLast? last)] at letter
  cases letter

theorem Numeric.free (numeric : Numeric piece) : '_' ∉ piece := by
  intro mem
  have digit := numeric.digits _ mem
  revert digit
  decide

/-! ### Keys -/

theorem typeText_injective : Function.Injective typeText := by
  intro first second same
  cases first <;> cases second <;> first | rfl | exact absurd same (by decide)

theorem typeText_free (ty : PrimitiveType) : '_' ∉ typeText ty := by
  cases ty <;> decide

/-- The words of the types. -/
def typeTexts : List Text := [typeText .f32, typeText .f64, typeText .i32, typeText .i64, typeText .bool]

theorem typeText_mem (ty : PrimitiveType) : typeText ty ∈ typeTexts := by
  cases ty <;> decide

noncomputable def typeOf : Text → PrimitiveType := @Function.invFun _ _ ⟨.f32⟩ typeText

noncomputable def numberOf : Text → Nat := Function.invFun decimal

noncomputable def nameOf : Text → Text := Function.invFun hexBytes

@[simp] theorem typeOf_typeText (ty : PrimitiveType) : typeOf (typeText ty) = ty :=
  @Function.leftInverse_invFun _ _ ⟨.f32⟩ _ typeText_injective ty

@[simp] theorem numberOf_decimal (number : Nat) : numberOf (decimal number) = number :=
  Function.leftInverse_invFun decimal_injective number

@[simp] theorem nameOf_hexBytes (name : Text) : nameOf (hexBytes name) = name :=
  Function.leftInverse_invFun hexBytes_injective name

/-- The channels that the pieces behind the type tell, and the type. -/
noncomputable def channelsOf : List Text → TypedBufferChannels × PrimitiveType
  | [] => (.mono, typeOf [])
  | piece :: rest =>
    if piece = ['d', 'y', 'n'] then (.dynamic, typeOf (rest.headD []))
    else if piece.getLast? = some 'h' then
      (.static (numberOf piece.dropLast.dropLast), typeOf (rest.headD []))
    else (.mono, typeOf piece)

/-- The last key of a name, from the pieces of the name. -/
noncomputable def lastKey : List Text → Option MonoParamKey
  | [] => none
  | piece :: rest =>
    if piece = ['p', 'a', 's', 's'] then some .passthrough
    else if piece = ['o', 'p', 'e', 'n'] then some .unresolvedStructural
    else if piece = ['t', 'u', 'p'] then some (.resolvedTuple [])
    else if piece = ['v', 'i', 'e', 'w'] then
      some (.resolvedNominalArray (nameOf (rest.headD [])) none)
    else if piece.getLast? = some 's' then
      some (.resolvedBufferArray (channelsOf rest).2 (channelsOf rest).1
        (numberOf (piece.take (piece.length - 5))))
    else if piece.getLast? = some 'h' ∨ piece = ['d', 'y', 'n'] then
      some (.resolvedBuffer (channelsOf (piece :: rest)).2 (channelsOf (piece :: rest)).1)
    else if piece ∈ typeTexts then
      if rest.head? = some ['a', 'r', 'r'] then some (.resolvedArray (typeOf piece))
      else if rest.head? = some ['b', 'u', 'f'] then some (.resolvedBuffer (typeOf piece) .mono)
      else if rest.head? = some ['s', 'c', 'a', 'l', 'a', 'r'] then some (.resolvedScalar (typeOf piece))
      else if rest.head? = some ['g'] then some (.genericType (typeOf piece))
      else
        some (.resolvedTuple
          (((piece :: rest).takeWhile fun piece => piece ∈ typeTexts).reverse.map typeOf))
    else if rest.tail.head? = some ['i', 'd'] then some (.resolvedStruct (nameOf piece))
    else some (.resolvedNominalArray (nameOf (rest.headD [])) (some (numberOf piece)))

/-- The pieces of a component. -/
theorem pieces_encode (before name : Text) :
    ∃ rest, pieces (before ++ encodeInternalSymbolComponent name)
      = hexBytes name :: decimal (asBytes name).length :: ['i', 'd'] :: rest := by
  refine ⟨pieces (before ++ sanitizeRuntimeSymbolComponent name ++ ['_']), ?_⟩
  have split : before ++ encodeInternalSymbolComponent name
      = (before ++ sanitizeRuntimeSymbolComponent name ++ ['_'] ++ '_' :: ['i', 'd']
          ++ '_' :: decimal (asBytes name).length) ++ '_' :: hexBytes name := by
    simp [encodeInternalSymbolComponent]
  rw [split, pieces_append (numeric_hexBytes name).free, pieces_append (numeric_decimal _).free,
    pieces_append (by decide)]

theorem lastKey_numeric (numeric : Numeric piece) (rest : List Text) :
    lastKey (piece :: rest)
      = if rest.tail.head? = some ['i', 'd'] then some (.resolvedStruct (nameOf piece))
        else some (.resolvedNominalArray (nameOf (rest.headD [])) (some (numberOf piece))) := by
  have noType : piece ∉ typeTexts := by
    intro mem
    have some : ∃ ty, piece = typeText ty := by
      simp only [typeTexts, List.mem_cons, List.not_mem_nil, or_false] at mem
      rcases mem with same | same | same | same | same <;> exact ⟨_, same⟩
    obtain ⟨ty, same⟩ := some
    exact numeric.noType ty same
  have noChannels : ¬(piece.getLast? = some 'h' ∨ piece = ['d', 'y', 'n']) := fun either =>
    either.elim (numeric.getLast_ne (by decide))
      (numeric.ne (show 'y' ∈ ['d', 'y', 'n'] by decide) (by decide))
  rw [lastKey, if_neg (numeric.ne (show 'p' ∈ ['p', 'a', 's', 's'] by decide) (by decide)),
    if_neg (numeric.ne (show 'p' ∈ ['o', 'p', 'e', 'n'] by decide) (by decide)),
    if_neg (numeric.ne (show 'p' ∈ ['t', 'u', 'p'] by decide) (by decide)),
    if_neg (numeric.ne (show 'v' ∈ ['v', 'i', 'e', 'w'] by decide) (by decide)),
    if_neg (numeric.getLast_ne (by decide)), if_neg noChannels, if_neg noType]

theorem lastKey_type (ty : PrimitiveType) (rest : List Text) :
    lastKey (typeText ty :: rest)
      = if rest.head? = some ['a', 'r', 'r'] then some (.resolvedArray ty)
        else if rest.head? = some ['b', 'u', 'f'] then some (.resolvedBuffer ty .mono)
        else if rest.head? = some ['s', 'c', 'a', 'l', 'a', 'r'] then some (.resolvedScalar ty)
        else if rest.head? = some ['g'] then some (.genericType ty)
        else
          some (.resolvedTuple
            (((typeText ty :: rest).takeWhile fun piece => piece ∈ typeTexts).reverse.map typeOf)) := by
  have words : typeText ty ≠ ['p', 'a', 's', 's'] ∧ typeText ty ≠ ['o', 'p', 'e', 'n']
      ∧ typeText ty ≠ ['t', 'u', 'p'] ∧ typeText ty ≠ ['v', 'i', 'e', 'w']
      ∧ (typeText ty).getLast? ≠ some 's'
      ∧ ¬((typeText ty).getLast? = some 'h' ∨ typeText ty = ['d', 'y', 'n']) := by
    cases ty <;> decide
  rw [lastKey, if_neg words.1, if_neg words.2.1, if_neg words.2.2.1, if_neg words.2.2.2.1,
    if_neg words.2.2.2.2.1, if_neg words.2.2.2.2.2, if_pos (typeText_mem ty), typeOf_typeText]

theorem ne_of_getLast {last : Char} (ends : piece.getLast? = some last)
    (other : word.getLast? ≠ some last) : piece ≠ word := by
  rintro rfl
  exact other ends

theorem free_append {number : Nat} (free : '_' ∉ word) : '_' ∉ decimal number ++ word :=
  fun mem => (List.mem_append.1 mem).elim (numeric_decimal number).free free

/-- The pieces of a type with channels. -/
theorem pieces_channels (before : Text) (ty : PrimitiveType) (channels : TypedBufferChannels) :
    channelsOf (pieces (before ++ '_' :: (typeText ty ++ channelsText channels))) = (channels, ty) := by
  cases channels with
  | mono =>
    have words : typeText ty ≠ ['d', 'y', 'n'] ∧ (typeText ty).getLast? ≠ some 'h' := by
      cases ty <;> decide
    rw [channelsText, List.append_nil, pieces_append (typeText_free ty), channelsOf, if_neg words.1,
      if_neg words.2, typeOf_typeText]
  | static channels =>
    have split : before ++ '_' :: (typeText ty ++ channelsText (.static channels))
        = (before ++ '_' :: typeText ty) ++ '_' :: (decimal channels ++ ['c', 'h']) := by
      simp [channelsText]
    have ends : (decimal channels ++ ['c', 'h']).getLast? = some 'h' := by simp
    have dropped : (decimal channels ++ ['c', 'h']).dropLast.dropLast = decimal channels := by
      rw [show decimal channels ++ ['c', 'h'] = decimal channels ++ ['c'] ++ ['h'] by simp,
        List.dropLast_concat, List.dropLast_concat]
    rw [split, pieces_append (free_append (by decide)), pieces_append (typeText_free ty), channelsOf,
      if_neg (ne_of_getLast ends (by decide)), if_pos ends, List.headD_cons, typeOf_typeText, dropped,
      numberOf_decimal]
  | dynamic =>
    have split : before ++ '_' :: (typeText ty ++ channelsText .dynamic)
        = (before ++ '_' :: typeText ty) ++ '_' :: ['d', 'y', 'n'] := by
      simp [channelsText]
    rw [split, pieces_append (by decide), pieces_append (typeText_free ty), channelsOf, if_pos rfl,
      List.headD_cons, typeOf_typeText]

theorem pieces_types (before : Text) (types : List PrimitiveType) :
    pieces (before ++ types.flatMap fun ty => '_' :: typeText ty)
      = (types.map typeText).reverse ++ pieces before := by
  induction types generalizing before with
  | nil => simp
  | cons ty types ih =>
    rw [List.flatMap_cons, ← List.append_assoc, ih, pieces_append (typeText_free ty), List.map_cons,
      List.reverse_cons, List.append_assoc, List.singleton_append]

theorem lastKey_tuple (types : List PrimitiveType) (rest : List Text) :
    lastKey ((types.map typeText).reverse ++ ['t', 'u', 'p'] :: rest) = some (.resolvedTuple types) := by
  rcases List.eq_nil_or_concat types with rfl | ⟨front, ty, rfl⟩
  · rw [List.map_nil, List.reverse_nil, List.nil_append, lastKey, if_neg (by decide),
      if_neg (by decide), if_pos rfl]
  · have taken : (((front ++ [ty]).map typeText).reverse ++ ['t', 'u', 'p'] :: rest).takeWhile
        (fun piece => piece ∈ typeTexts) = ((front ++ [ty]).map typeText).reverse := by
      rw [List.takeWhile_append_of_pos, List.takeWhile_cons_of_neg (by decide), List.append_nil]
      intro piece mem
      obtain ⟨ty, -, rfl⟩ := List.mem_map.1 (List.mem_reverse.1 mem)
      exact decide_eq_true (typeText_mem ty)
    have words : ∀ word : Text, word ∉ typeTexts → word ≠ ['t', 'u', 'p'] →
        ((front.map typeText).reverse ++ ['t', 'u', 'p'] :: rest).head? ≠ some word := by
      intro word noType noTuple same
      rcases List.eq_nil_or_concat front with rfl | ⟨front, ty, rfl⟩
      · exact noTuple (Option.some.inj same).symm
      · rw [List.concat_eq_append, List.map_append, List.map_singleton, List.reverse_append] at same
        exact noType (Option.some.inj same ▸ typeText_mem ty)
    have split : ((front ++ [ty]).map typeText).reverse ++ ['t', 'u', 'p'] :: rest
        = typeText ty :: ((front.map typeText).reverse ++ ['t', 'u', 'p'] :: rest) := by
      rw [List.map_append, List.map_singleton, List.reverse_append]
      rfl
    rw [List.concat_eq_append]
    rw [split] at taken ⊢
    rw [lastKey_type, if_neg (words _ (by decide) (by decide)), if_neg (words _ (by decide) (by decide)),
      if_neg (words _ (by decide) (by decide)), if_neg (words _ (by decide) (by decide)), taken,
      List.reverse_reverse, List.map_map]
    have same : typeOf ∘ typeText = id := funext fun ty => typeOf_typeText ty
    rw [same, List.map_id]

/-- The last key of a name is determined. -/
theorem lastKey_eq (before : Text) (key : MonoParamKey) :
    lastKey (pieces (before ++ keyText key)) = some key := by
  cases key with
  | passthrough =>
    have split : before ++ keyText .passthrough = (before ++ ['_']) ++ '_' :: ['p', 'a', 's', 's'] := by
      simp [keyText]
    rw [split, pieces_append (by decide), lastKey, if_pos rfl]
  | unresolvedStructural =>
    have split : before ++ keyText .unresolvedStructural
        = (before ++ ['_']) ++ '_' :: ['o', 'p', 'e', 'n'] := by
      simp [keyText]
    rw [split, pieces_append (by decide), lastKey, if_neg (by decide), if_pos rfl]
  | resolvedStruct name =>
    obtain ⟨rest, split⟩ := pieces_encode (before ++ ['_', '_']) name
    rw [keyText, ← List.append_assoc, split, lastKey_numeric (numeric_hexBytes name), List.tail_cons,
      List.head?_cons, if_pos rfl, nameOf_hexBytes]
  | resolvedArray ty =>
    have split : before ++ keyText (.resolvedArray ty)
        = (before ++ ['_'] ++ '_' :: ['a', 'r', 'r']) ++ '_' :: typeText ty := by
      simp [keyText]
    rw [split, pieces_append (typeText_free ty), pieces_append (by decide), lastKey_type,
      List.head?_cons, if_pos rfl]
  | resolvedNominalArray name len =>
    obtain ⟨rest, encoded⟩ := pieces_encode (before ++ ['_', '_', 'a', 'r', 'r', '_', 'n', 'o', 'm', '_']) name
    cases len with
    | none =>
      have split : before ++ keyText (.resolvedNominalArray name none)
          = (before ++ ['_', '_', 'a', 'r', 'r', '_', 'n', 'o', 'm', '_']
            ++ encodeInternalSymbolComponent name) ++ '_' :: ['v', 'i', 'e', 'w'] := by
        simp [keyText]
      rw [split, pieces_append (by decide), encoded, lastKey, if_neg (by decide), if_neg (by decide),
        if_neg (by decide), if_pos rfl, List.headD_cons, nameOf_hexBytes]
    | some len =>
      have split : before ++ keyText (.resolvedNominalArray name (some len))
          = (before ++ ['_', '_', 'a', 'r', 'r', '_', 'n', 'o', 'm', '_']
            ++ encodeInternalSymbolComponent name) ++ '_' :: decimal len := by
        simp [keyText]
      -- The piece in front of the bytes is a number.
      have number : decimal (asBytes name).length ≠ ['i', 'd'] :=
        (numeric_decimal _).ne (show 'i' ∈ ['i', 'd'] by decide) (by decide)
      rw [split, pieces_append (numeric_decimal len).free, encoded, lastKey_numeric (numeric_decimal len),
        List.tail_cons, List.head?_cons, if_neg (fun same => number (Option.some.inj same)),
        List.headD_cons, nameOf_hexBytes, numberOf_decimal]
  | resolvedBuffer ty channels =>
    have split : before ++ keyText (.resolvedBuffer ty channels)
        = (before ++ ['_'] ++ '_' :: ['b', 'u', 'f']) ++ '_' :: (typeText ty ++ channelsText channels) := by
      simp [keyText]
    have told := pieces_channels (before ++ ['_'] ++ '_' :: ['b', 'u', 'f']) ty channels
    rw [split]
    cases channels with
    | mono =>
      rw [channelsText, List.append_nil, pieces_append (typeText_free ty), pieces_append (by decide),
        lastKey_type, List.head?_cons, if_neg (by decide), if_pos rfl]
    | static channels =>
      have inner : before ++ ['_'] ++ '_' :: ['b', 'u', 'f']
            ++ '_' :: (typeText ty ++ channelsText (.static channels))
          = (before ++ ['_'] ++ '_' :: ['b', 'u', 'f'] ++ '_' :: typeText ty)
            ++ '_' :: (decimal channels ++ ['c', 'h']) := by
        simp [channelsText]
      have ends : (decimal channels ++ ['c', 'h']).getLast? = some 'h' := by simp
      rw [inner, pieces_append (free_append (by decide))] at told ⊢
      rw [lastKey, if_neg (ne_of_getLast ends (by decide)), if_neg (ne_of_getLast ends (by decide)),
        if_neg (ne_of_getLast ends (by decide)), if_neg (ne_of_getLast ends (by decide)),
        if_neg (fun same => absurd (ends.symm.trans same) (by decide)), if_pos (.inl ends), told]
    | dynamic =>
      have inner : before ++ ['_'] ++ '_' :: ['b', 'u', 'f'] ++ '_' :: (typeText ty ++ channelsText .dynamic)
          = (before ++ ['_'] ++ '_' :: ['b', 'u', 'f'] ++ '_' :: typeText ty)
            ++ '_' :: ['d', 'y', 'n'] := by
        simp [channelsText]
      rw [inner, pieces_append (by decide)] at told ⊢
      rw [lastKey, if_neg (by decide), if_neg (by decide), if_neg (by decide), if_neg (by decide),
        if_neg (by decide), if_pos (.inr rfl), told]
  | resolvedBufferArray ty channels len =>
    have split : before ++ keyText (.resolvedBufferArray ty channels len)
        = (before ++ ['_'] ++ '_' :: ['b', 'u', 'f', 's'] ++ '_' :: (typeText ty ++ channelsText channels))
          ++ '_' :: (decimal len ++ ['i', 't', 'e', 'm', 's']) := by
      simp [keyText]
    have ends : (decimal len ++ ['i', 't', 'e', 'm', 's']).getLast? = some 's' := by simp
    have noPass : decimal len ++ ['i', 't', 'e', 'm', 's'] ≠ ['p', 'a', 's', 's'] := by
      intro same
      have mem : 'm' ∈ decimal len ++ ['i', 't', 'e', 'm', 's'] := by simp
      rw [same] at mem
      exact absurd mem (by decide)
    have number : (decimal len ++ ['i', 't', 'e', 'm', 's']).take
        ((decimal len ++ ['i', 't', 'e', 'm', 's']).length - 5) = decimal len := by
      rw [List.length_append]
      exact List.take_left
    rw [split, pieces_append (free_append (by decide)), lastKey, if_neg noPass,
      if_neg (ne_of_getLast ends (by decide)), if_neg (ne_of_getLast ends (by decide)),
      if_neg (ne_of_getLast ends (by decide)), if_pos ends, pieces_channels, number, numberOf_decimal]
  | resolvedTuple types =>
    have split : before ++ keyText (.resolvedTuple types)
        = (before ++ ['_'] ++ '_' :: ['t', 'u', 'p']) ++ types.flatMap fun ty => '_' :: typeText ty := by
      simp [keyText]
    rw [split, pieces_types, pieces_append (by decide), lastKey_tuple]
  | resolvedScalar ty =>
    have split : before ++ keyText (.resolvedScalar ty)
        = (before ++ ['_'] ++ '_' :: ['s', 'c', 'a', 'l', 'a', 'r']) ++ '_' :: typeText ty := by
      simp [keyText]
    rw [split, pieces_append (typeText_free ty), pieces_append (by decide), lastKey_type,
      List.head?_cons, if_neg (by decide), if_neg (by decide), if_pos rfl]
  | genericType ty =>
    have split : before ++ keyText (.genericType ty)
        = (before ++ ['_'] ++ '_' :: ['g']) ++ '_' :: typeText ty := by
      simp [keyText]
    rw [split, pieces_append (typeText_free ty), pieces_append (by decide), lastKey_type,
      List.head?_cons, if_neg (by decide), if_neg (by decide), if_neg (by decide), if_pos rfl]

/-! ### Different names -/

theorem encode_injective : Function.Injective encodeInternalSymbolComponent := by
  intro first second same
  have split : ∀ name, encodeInternalSymbolComponent name
      = (sanitizeRuntimeSymbolComponent name ++ ['_', '_', 'i', 'd', '_']
        ++ decimal (asBytes name).length) ++ '_' :: hexBytes name := fun name => by
    simp [encodeInternalSymbolComponent]
  rw [split first, split second] at same
  exact hexBytes_injective
    (split_last (numeric_hexBytes first).free (numeric_hexBytes second).free same).2

theorem overloadInternalName_injective {other : Text} {ordinal ordinal' : Nat}
    (same : overloadInternalName name ordinal = overloadInternalName other ordinal') :
    name = other ∧ ordinal = ordinal' := by
  unfold overloadInternalName at same
  rw [List.append_assoc, List.append_assoc, List.append_assoc, List.append_assoc] at same
  obtain ⟨encoded, number⟩ := split_last (numeric_decimal ordinal).free (numeric_decimal ordinal').free
    (List.append_cancel_left same)
  exact ⟨encode_injective encoded, decimal_injective number⟩

theorem keyText_ne_nil (key : MonoParamKey) : keyText key ≠ [] := by
  cases key <;> simp [keyText]

/-- The keys of a suffix are determined, the last one first. -/
theorem keys_injective (same : keys.flatMap keyText = keys'.flatMap keyText) : keys = keys' := by
  induction keys using List.reverseRecOn generalizing keys' with
  | nil =>
    cases keys' with
    | nil => rfl
    | cons key keys' =>
      rw [List.flatMap_nil, List.flatMap_cons] at same
      exact absurd (List.append_eq_nil_iff.1 same.symm).1 (keyText_ne_nil key)
  | append_singleton keys key ih =>
    rcases List.eq_nil_or_concat keys' with rfl | ⟨keys', key', rfl⟩
    · rw [List.flatMap_append, List.flatMap_singleton, List.flatMap_nil] at same
      exact absurd (List.append_eq_nil_iff.1 same).2 (keyText_ne_nil key)
    · rw [List.concat_eq_append, List.flatMap_append, List.flatMap_append, List.flatMap_singleton,
        List.flatMap_singleton] at same
      have last := lastKey_eq (keys.flatMap keyText) key
      rw [same, lastKey_eq] at last
      obtain rfl := Option.some.inj last
      rw [List.concat_eq_append, ih (List.append_cancel_right same)]

theorem dot_not_mem_encode (name : Text) : '.' ∉ encodeInternalSymbolComponent name := by
  have sanitized : '.' ∉ sanitizeRuntimeSymbolComponent name := by
    intro mem
    obtain ⟨ch, -, same⟩ := List.mem_map.1 mem
    split at same
    · rename_i identifier
      rw [same] at identifier
      exact absurd identifier (by decide)
    · exact absurd same (by decide)
  have number : ∀ piece, Numeric piece → '.' ∉ piece := fun piece numeric mem =>
    absurd (numeric.digits _ mem) (by decide)
  simp [encodeInternalSymbolComponent, sanitized, number _ (numeric_decimal _),
    number _ (numeric_hexBytes name)]

theorem dot_not_mem_keyText (key : MonoParamKey) : '.' ∉ keyText key := by
  have number : ∀ count, '.' ∉ decimal count := fun count mem =>
    absurd ((numeric_decimal count).digits _ mem) (by decide)
  have types : ∀ ty, '.' ∉ typeText ty := by
    intro ty
    cases ty <;> decide
  have channels : ∀ channels, '.' ∉ channelsText channels := by
    intro channels
    cases channels <;> simp [channelsText, number]
  cases key with
  | resolvedNominalArray name len =>
    cases len <;> simp [keyText, dot_not_mem_encode, number]
  | _ => simp [keyText, dot_not_mem_encode, number, types, channels]

theorem monoDefName_injective {base base' : Text}
    (same : monoDefName base keys = monoDefName base' keys') : base = base' ∧ keys = keys' := by
  have split : ∀ (base : Text) (keys : List MonoParamKey),
      monoDefName base keys = base ++ '.' :: ("__onda_mono".toList ++ keys.flatMap keyText) := by
    intro base keys
    rw [monoDefName, List.append_assoc]
    rfl
  have free : ∀ keys : List MonoParamKey, '.' ∉ "__onda_mono".toList ++ keys.flatMap keyText := by
    intro keys mem
    rcases List.mem_append.1 mem with mem | mem
    · exact absurd mem (by decide)
    · obtain ⟨key, -, mem⟩ := List.mem_flatMap.1 mem
      exact dot_not_mem_keyText key mem
  rw [split, split] at same
  obtain ⟨bases, suffixes⟩ := split_last (free keys) (free keys') same
  exact ⟨bases, keys_injective (List.append_cancel_left suffixes)⟩

/-- A name that is the component of another one, which is no identifier. -/
def Collides (name other : Text) : Prop :=
  sanitizeRuntimeSymbolComponent other ≠ other ∧ name = encodeInternalSymbolComponent other

theorem sanitize_encode (name : Text) :
    sanitizeRuntimeSymbolComponent (encodeInternalSymbolComponent name)
      = encodeInternalSymbolComponent name := by
  have kept : ∀ text : Text, (∀ ch ∈ text, isIdentifierChar ch) →
      sanitizeRuntimeSymbolComponent text = text := by
    intro text identifiers
    conv_rhs => rw [← List.map_id text]
    exact List.map_congr_left fun ch mem => if_pos (identifiers ch mem)
  have digit : ∀ ch, isHexDigit ch → isIdentifierChar ch := by
    intro ch digit
    simp only [isHexDigit, isIdentifierChar, Char.isAlphanum, Char.isAlpha, Char.isLower, Bool.or_eq_true,
      Bool.and_eq_true, decide_eq_true_eq] at digit ⊢
    rcases digit with digit | letter
    · exact .inl (.inr digit)
    · exact .inl (.inl (.inr ⟨letter.1, Char.le_trans letter.2 (by decide)⟩))
  refine kept _ fun ch mem => ?_
  simp only [encodeInternalSymbolComponent, List.mem_append, List.mem_singleton] at mem
  rcases mem with (((sanitized | word) | number) | rfl) | bytes
  · obtain ⟨other, -, rfl⟩ := List.mem_map.1 sanitized
    split
    · assumption
    · decide
  · simp only [List.mem_cons, List.not_mem_nil, or_false] at word
    rcases word with rfl | rfl | rfl | rfl | rfl <;> decide
  · exact digit ch ((numeric_decimal _).digits ch number)
  · decide
  · exact digit ch ((numeric_hexBytes name).digits ch bytes)

theorem collisionSafe_inj {other : Text} (different : name ≠ other) :
    collisionSafeRuntimeSymbolComponent name = collisionSafeRuntimeSymbolComponent other
      ↔ Collides name other ∨ Collides other name := by
  unfold collisionSafeRuntimeSymbolComponent Collides
  split
  · rename_i identifier
    split
    · rename_i identifier'
      rw [identifier, identifier']
      exact ⟨fun same => absurd same different, fun either => either.elim
        (fun collides => absurd rfl collides.1) fun collides => absurd rfl collides.1⟩
    · rename_i sanitized
      rw [identifier]
      exact ⟨fun same => .inl ⟨sanitized, same⟩, fun either => either.elim (fun collides => collides.2)
        fun collides => absurd rfl collides.1⟩
  · rename_i sanitized
    split
    · rename_i identifier
      rw [identifier]
      exact ⟨fun same => .inr ⟨sanitized, same.symm⟩, fun either => either.elim
        (fun collides => absurd rfl collides.1) fun collides => collides.2.symm⟩
    · rename_i sanitized'
      constructor
      · exact fun same => absurd (encode_injective same) different
      · -- A component is an identifier.
        rintro (collides | collides)
        · rw [collides.2] at sanitized
          exact absurd (sanitize_encode other) sanitized
        · rw [collides.2] at sanitized'
          exact absurd (sanitize_encode name) sanitized'

/-- **Generated symbols.** Specializations and overloads have different names.  The symbols of two
processor arrays, or of two buffer aliases, are different unless one name is the component of the
other. -/
theorem generated_symbols_distinct (base base' : Text) (keys keys' : List MonoParamKey)
    (name other : Text) (ordinal ordinal' : Nat) :
    ((base, keys) ≠ (base', keys') → monoDefName base keys ≠ monoDefName base' keys')
      ∧ ((name, ordinal) ≠ (other, ordinal') →
        overloadInternalName name ordinal ≠ overloadInternalName other ordinal')
      ∧ (name ≠ other →
        (runtimeProcArrayActiveSymbol name ≠ runtimeProcArrayActiveSymbol other
            ↔ ¬Collides name other ∧ ¬Collides other name)
          ∧ (runtimeBufferAliasSelectorSymbol name ≠ runtimeBufferAliasSelectorSymbol other
            ↔ ¬Collides name other ∧ ¬Collides other name)) := by
  refine ⟨fun different same => ?_, fun different same => ?_, fun different => ⟨?_, ?_⟩⟩
  · obtain ⟨rfl, rfl⟩ := monoDefName_injective same
    exact different rfl
  · obtain ⟨rfl, rfl⟩ := overloadInternalName_injective same
    exact different rfl
  · rw [← not_or, ← collisionSafe_inj different]
    exact not_congr ⟨fun same => List.append_cancel_left same,
      fun same => congrArg ("__onda_proc_block_active_".toList ++ ·) same⟩
  · rw [← not_or, ← collisionSafe_inj different]
    exact not_congr ⟨fun same => List.append_cancel_left same,
      fun same => congrArg ("__onda_buffer_alias_selector_".toList ++ ·) same⟩

/-- `A::B`, and an identifier with the same symbol. -/
theorem generated_symbols_collide :
    ['A', ':', ':', 'B'] ≠ encodeInternalSymbolComponent ['A', ':', ':', 'B']
      ∧ encodeInternalSymbolComponent ['A', ':', ':', 'B']
        = ['A', '_', '_', 'B', '_', '_', 'i', 'd', '_', '4', '_', '4', '1', '3', 'a', '3', 'a', '4', '2']
      ∧ runtimeProcArrayActiveSymbol ['A', ':', ':', 'B']
        = runtimeProcArrayActiveSymbol (encodeInternalSymbolComponent ['A', ':', ':', 'B'])
      ∧ runtimeBufferAliasSelectorSymbol ['A', ':', ':', 'B']
        = runtimeBufferAliasSelectorSymbol (encodeInternalSymbolComponent ['A', ':', ':', 'B']) := by
  have encoded : encodeInternalSymbolComponent ['A', ':', ':', 'B']
      = ['A', '_', '_', 'B', '_', '_', 'i', 'd', '_', '4', '_', '4', '1', '3', 'a', '3', 'a', '4', '2'] := by
    decide
  have same : collisionSafeRuntimeSymbolComponent ['A', ':', ':', 'B']
      = collisionSafeRuntimeSymbolComponent (encodeInternalSymbolComponent ['A', ':', ':', 'B']) := by
    rw [encoded]
    decide
  exact ⟨by rw [encoded]; decide, encoded, congrArg ("__onda_proc_block_active_".toList ++ ·) same,
    congrArg ("__onda_buffer_alias_selector_".toList ++ ·) same⟩

end Onda.Symbols
