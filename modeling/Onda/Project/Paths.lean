import Onda.Lib.OrderedMap
import Onda.Project.Types

/-!
# Names a project may use

Portable relative paths, buffer names with their array slots, and the file sets
that are safe on a case-insensitive file system.

### Paths
-/

namespace Onda.Project

/-- ASCII letters, `u8::is_ascii_alphabetic`. -/
def isAsciiAlphabetic (byte : UInt8) : Bool :=
  (65 ≤ byte && byte ≤ 90) || (97 ≤ byte && byte ≤ 122)

/-- `u8::is_ascii_digit`. -/
def isAsciiDigit (byte : UInt8) : Bool := 48 ≤ byte && byte ≤ 57

/-- `str::to_ascii_lowercase`. -/
def toAsciiLowercase (bytes : Bytes) : Bytes :=
  bytes.map fun byte => if 65 ≤ byte && byte ≤ 90 then byte + 32 else byte

/-- `is_windows_reserved_port_suffix`: a digit, or a superscript 1, 2 or 3. -/
def isWindowsReservedPortSuffix (suffix : Bytes) : Bool :=
  match suffix with
  | [digit] => 49 ≤ digit && digit ≤ 57
  | _ => suffix == [0xC2, 0xB9] || suffix == [0xC2, 0xB2] || suffix == [0xC2, 0xB3]

/-- `is_windows_reserved_component`. -/
def isWindowsReservedComponent (component : Bytes) : Bool :=
  let stem := toAsciiLowercase (component.takeWhile (· ≠ 46))
  [ascii "con", ascii "prn", ascii "aux", ascii "nul", ascii "conin$",
      ascii "conout$"].contains stem ||
    ((ascii "com").isPrefixOf stem || (ascii "lpt").isPrefixOf stem) &&
      isWindowsReservedPortSuffix (stem.drop 3)

/-- One component of a path that `validate_relative_project_path` refuses. -/
def isNonPortableComponent (limits : ProjectLimits) (component : Bytes) : Bool :=
  component.isEmpty ||
    component.length > limits.maxPathComponentBytes ||
    component == ascii "." ||
    component == ascii ".." ||
    component.any (fun byte => byte < 32 || (ascii "<>:\"|?*").contains byte) ||
    component.getLast? == some 46 ||
    component.getLast? == some 32 ||
    isWindowsReservedComponent component

/-- `std::path::Component`, for a path without a drive. -/
inductive PathComponent where
  | rootDir
  | curDir
  | parentDir
  | normal (name : Bytes)
deriving DecidableEq

/-- `Path::components`: empty components and inner `.` are skipped. -/
def pathComponents (value : Bytes) : List PathComponent :=
  (if value.head? = some 47 then [PathComponent.rootDir] else []) ++
    (value.splitOn 47).zipIdx.filterMap fun (component, position) =>
      if component = [] then none
      else if component = ascii "." then
        if position = 0 then some PathComponent.curDir else none
      else if component = ascii ".." then some PathComponent.parentDir
      else some (PathComponent.normal component)

variable (platform : Platform)

/-- `validate_relative_project_path`. -/
def validateRelativeProjectPath (value : Text) (limits : ProjectLimits) : Checked Unit := do
  refuseIf (value.bytes = [] ∨ value.bytes.length > limits.maxPathBytes)
    (ascii "project paths must contain 1..=" ++ decimal limits.maxPathBytes ++
      ascii " UTF-8 bytes")
  refuseIf (¬platform.isNfc value)
    (ascii "project path '" ++ value.bytes ++ ascii "' must use Unicode NFC normalization")
  refuseIf (value.bytes.head? = some 47 ∨ value.bytes.head? = some 92 ∨
      (value.bytes.head?.any isAsciiAlphabetic ∧ value.bytes[1]? = some 58) ∨
      value.bytes.contains 92)
    (ascii "project path '" ++ value.bytes ++
      ascii "' must be a portable relative path using '/' separators")
  refuseIf ((value.bytes.splitOn 47).any (isNonPortableComponent limits))
    (ascii "project path '" ++ value.bytes ++ ascii "' contains a non-portable component")
  refuseIf ((pathComponents value.bytes).any fun component =>
      match component with
      | .normal _ => false
      | _ => true)
    (ascii "project path '" ++ value.bytes ++
      ascii "' is not normalized or escapes the project")

/-! ### File sets -/

/-- `portable_path_collision_key`. -/
def portablePathCollisionKey (value : Text) : Text :=
  platform.nfc (platform.toLowercase (platform.toUppercase (platform.toLowercase value)))

/-- The first loop of `validate_portable_file_set`: no two paths share a key.  The
map `portable` is in key order. -/
def collectPortable : List Text → List (Text × Text) → Checked (List (Text × Text))
  | [], portable => .ok portable
  | path :: paths, portable =>
    let key := portablePathCollisionKey platform path
    match portable.find? fun entry => entry.1 = key with
    | some (_, existing) =>
      reject (ascii "project paths '" ++ existing.bytes ++ ascii "' and '" ++ path.bytes ++
        ascii "' collide on case-insensitive filesystems")
    | none => collectPortable paths (OrderedMap.insertEntry key path portable)

/-- The bytes before each `/` of a path. -/
def ancestors (path : Bytes) : List Bytes :=
  path.zipIdx.filterMap fun (byte, position) =>
    if byte = 47 then some (path.take position) else none

/-- The second loop: no path is an ancestor of another. -/
def refuseAncestors (portable : List (Text × Text)) : List (Text × Text) → Checked Unit
  | [] => .ok ()
  | (key, original) :: rest =>
    match (ancestors key.bytes).findSome? fun ancestor =>
      portable.find? fun entry => entry.1.bytes = ancestor with
    | some (_, ancestorPath) =>
      reject (ascii "project file '" ++ ancestorPath.bytes ++
        ascii "' conflicts with descendant '" ++ original.bytes ++ ascii "'")
    | none => refuseAncestors portable rest

/-- `validate_portable_file_set`. -/
def validatePortableFileSet (paths : List Text) : Checked Unit := do
  let portable ← collectPortable platform paths []
  refuseAncestors portable portable

/-! ### Buffer names -/

/-- `name.rfind(byte)`. -/
def rfind (name : Bytes) (byte : UInt8) : Option Nat :=
  (name.reverse.findIdx? (· = byte)).map fun back => name.length - 1 - back

/-- `buffer_element_suffix`: the base and the digits of a name `base[digits]`. -/
def bufferElementSuffix (name : Bytes) : Option (Bytes × Bytes) := do
  let opened ← rfind name 91
  let index ← getRange name (opened + 1) (name.length - 1)
  if name.getLast? = some 93 ∧ index ≠ [] ∧ index.all isAsciiDigit then
    some (name.take opened, index)
  else none

/-- The number written as decimal digits. -/
def digitsValue (digits : Bytes) : Nat :=
  digits.foldl (fun value digit => value * 10 + (digit.toNat - 48)) 0

/-- `index_text.parse::<usize>()` on digits. -/
def parseUsize (digits : Bytes) : Option Nat :=
  if digitsValue digits ≤ platform.usizeMax then some (digitsValue digits) else none

/-- `parse_buffer_element_name`. -/
def parseBufferElementName (name : Bytes) : Option (Bytes × Nat) := do
  let (base, indexText) ← bufferElementSuffix name
  let index ← parseUsize platform indexText
  if base ≠ [] ∧ indexText = decimal index then some (base, index) else none

/-- `validate_project_buffer_name`. -/
def validateProjectBufferName (value : Text) (limits : ProjectLimits) : Checked Unit := do
  refuseIf (value.bytes = []) (ascii "project buffer names must not be empty")
  refuseIf (value.bytes.length > limits.maxPathBytes)
    (ascii "project buffer name exceeds the " ++ decimal limits.maxPathBytes ++
      ascii " byte limit")
  refuseIf (value.bytes.contains 0) (ascii "project buffer names must not contain NUL")
  match bufferElementSuffix value.bytes with
  | none => return ()
  | some (base, indexText) => do
    let index ← okOr (ascii "project buffer slot '" ++ value.bytes ++
      ascii "' has an index which does not fit this host") (parseUsize platform indexText)
    refuseIf (base = [] ∨ indexText ≠ decimal index)
      (ascii "project buffer slot '" ++ value.bytes ++ ascii "' must use canonical '[" ++
        decimal index ++ ascii "]' notation")
    refuseIf (index ≥ limits.maxBufferBindings)
      (ascii "project buffer slot '" ++ value.bytes ++ ascii "' exceeds the " ++
        decimal limits.maxBufferBindings ++ ascii " slot limit")

end Onda.Project
