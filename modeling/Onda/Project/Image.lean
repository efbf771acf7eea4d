import Onda.Project.Buffer
import Onda.Project.Constants
import Onda.Project.Paths

/-!
# Project images

An image is everything a project needs to run again: its source documents with
the references resolved between them, constants, and buffer assets bound by
name.

### Sources
-/

namespace Onda.Project

open Wire (littleEndian lengthPrefixed)

/-- `AssetId`. -/
abbrev AssetId := Text

/-- `SourceDocument`. -/
structure SourceDocument where
  path : Text
  contents : Text
deriving DecidableEq

/-- `SourceReferenceKind`. -/
inductive SourceReferenceKind where
  | includes
  | imports
deriving DecidableEq

/-- The byte the content hash uses, which is also the derived order. -/
def SourceReferenceKind.rank : SourceReferenceKind → UInt8
  | includes => 0
  | imports => 1

/-- `SourceResolution`. -/
structure SourceResolution where
  source : Text
  kind : SourceReferenceKind
  specifier : Text
  target : Text
deriving DecidableEq

/-- The fields in the order they are compared. -/
def SourceResolution.fields (resolution : SourceResolution) : Text ×ₗ Nat ×ₗ Text ×ₗ Text :=
  toLex (resolution.source, toLex (resolution.kind.rank.toNat,
    toLex (resolution.specifier, resolution.target)))

theorem SourceResolution.fields_injective : Function.Injective SourceResolution.fields := by
  rintro ⟨source, kind, specifier, target⟩ ⟨source', kind', specifier', target'⟩ same
  simp only [fields, EmbeddingLike.apply_eq_iff_eq, Prod.mk.injEq] at same
  obtain ⟨rfl, sameKind, rfl, rfl⟩ := same
  cases kind <;> cases kind' <;> first | rfl | exact absurd sameKind (by decide)

/-- The derived order, field by field. -/
instance : LinearOrder SourceResolution :=
  LinearOrder.lift' SourceResolution.fields SourceResolution.fields_injective

/-- `SourceImage`. -/
structure SourceImage where
  entry : Text
  stdlibDigest : Text
  documents : List SourceDocument
  resolutions : List SourceResolution
deriving DecidableEq

variable (platform : Platform)

/-- `validate_digest`. -/
def validateDigest (value : Text) (context : Bytes) : Checked Unit := do
  refuseIf (¬(ascii "sha256:").isPrefixOf value.bytes)
    (context ++ ascii " must use the 'sha256:' prefix")
  let hex := value.bytes.drop 7
  refuseIf (hex.length ≠ 64 ∨
      ¬hex.all fun byte => isAsciiDigit byte || (97 ≤ byte && byte ≤ 102))
    (context ++ ascii " must contain 64 lowercase hexadecimal digits")

/-- The document loop of `SourceImage::validate`; it returns the paths. -/
def validateDocuments (limits : ProjectLimits) :
    List SourceDocument → List Text → Nat → Checked (List Text)
  | [], paths, _ => .ok paths
  | document :: documents, paths, sourceBytes => do
    validateRelativeProjectPath platform document.path limits
    refuseIf (document.path ∈ paths)
      (ascii "source image contains duplicate document '" ++ document.path.bytes ++ ascii "'")
    let sourceBytes ← okOr (ascii "source image byte total overflows")
      (platform.checkedAdd sourceBytes document.contents.bytes.length)
    refuseIf (sourceBytes > limits.maxSourceBytes)
      (ascii "source image exceeds the " ++ decimal limits.maxSourceBytes ++
        ascii " byte source limit")
    validateDocuments limits documents (document.path :: paths) sourceBytes

/-- The resolution loop of `SourceImage::validate`. -/
def validateResolutions (paths : List Text) :
    List SourceResolution → List (Text × SourceReferenceKind × Text) → Checked Unit
  | [], _ => .ok ()
  | resolution :: resolutions, keys => do
    refuseIf (resolution.specifier.bytes = [])
      (ascii "source image contains an empty resolution specifier")
    refuseIf (resolution.specifier.bytes.contains 0)
      (ascii "source image resolution specifiers must not contain NUL")
    refuseIf (resolution.source ∉ paths ∨ resolution.target ∉ paths)
      (ascii "source image contains a dangling resolution")
    let key := (resolution.source, resolution.kind, resolution.specifier)
    refuseIf (key ∈ keys)
      (ascii "source image contains duplicate resolution '" ++ resolution.specifier.bytes ++
        ascii "' from '" ++ resolution.source.bytes ++ ascii "'")
    validateResolutions paths resolutions (key :: keys)

/-- `ONDA_PROJECT_DEFAULT_FILE_NAME`. -/
def ONDA_PROJECT_DEFAULT_FILE_NAME : Text := ⟨ascii "project.ondaproject", by decide⟩

/-- `SourceImage::validate`. -/
def SourceImage.validate (sources : SourceImage) (limits : ProjectLimits) : Checked Unit := do
  validateRelativeProjectPath platform sources.entry limits
  validateDigest sources.stdlibDigest (ascii "source image standard-library digest")
  refuseIf (sources.documents = [] ∨ sources.documents.length > limits.maxDocuments)
    (ascii "source image must contain 1..=" ++ decimal limits.maxDocuments ++
      ascii " documents")
  refuseIf (sources.resolutions.length > limits.maxResolutions)
    (ascii "source image contains too many resolutions (maximum " ++
      decimal limits.maxResolutions ++ ascii ")")
  let paths ← validateDocuments platform limits sources.documents [] 0
  validatePortableFileSet platform
    (sources.documents.map SourceDocument.path ++ [ONDA_PROJECT_DEFAULT_FILE_NAME])
  refuseIf (sources.entry ∉ paths) (ascii "source image does not contain its entry document")
  validateResolutions paths sources.resolutions []

/-! ### Images -/

/-- The two lower-case digits of a byte. -/
def hexByte (byte : UInt8) : Bytes :=
  let digit (value : UInt8) : UInt8 := if value < 10 then 48 + value else 87 + value
  [digit (byte / 16), digit (byte % 16)]

/-- `format!("sha256:{}", hex::encode(digest))`. -/
def digestText (digest : Digest) : Text where
  bytes := ascii "sha256:" ++ digest.val.flatMap hexByte
  fits := by
    have two : ∀ bytes : Bytes, (bytes.flatMap hexByte).length = 2 * bytes.length := by
      intro bytes
      induction bytes with
      | nil => rfl
      | cons byte bytes ih =>
        rw [List.flatMap_cons, List.length_append, ih, List.length_cons]
        simp only [hexByte, List.length_cons, List.length_nil]
        ring
    have start : (ascii "sha256:").length = 7 := by decide
    rw [List.length_append, two, digest.property, start]
    norm_num

/-- `AssetId::for_buffer`. -/
def AssetId.forBuffer (asset : BufferAsset) : Checked AssetId := do
  let digest ← asset.contentDigest platform
  return digestText digest

/-- `ProjectImage`, without the digest, which every constructor of the source
recomputes from the rest.  Documents and resolutions are kept sorted. -/
structure ProjectImage where
  sources : SourceImage
  constants : OrderedMap Text ProjectConstValue
  bufferBindings : OrderedMap Text AssetId
  assets : OrderedMap AssetId BufferAsset
  documents_sorted : sources.documents.Pairwise (·.path ≤ ·.path)
  resolutions_sorted : sources.resolutions.Pairwise (· ≤ ·)

/-- The asset loop of `ProjectImage::validate`. -/
def validateAssets (limits : ProjectLimits) :
    List (AssetId × BufferAsset) → Nat → Checked Unit
  | [], _ => .ok ()
  | (id, asset) :: assets, totalAssetBytes => do
    asset.validate platform limits
    let expected ← AssetId.forBuffer platform asset
    refuseIf (id ≠ expected)
      (ascii "project asset ID '" ++ id.bytes ++ ascii "' does not match its canonical content")
    let totalAssetBytes ← okOr (ascii "project asset byte total overflows")
      (platform.checkedAdd totalAssetBytes (asset.payloadBytes platform))
    refuseIf (totalAssetBytes > limits.maxTotalAssetBytes)
      (ascii "project assets exceed the " ++ decimal limits.maxTotalAssetBytes ++
        ascii " byte total limit")
    validateAssets limits assets totalAssetBytes

/-- The sets the binding loop of `ProjectImage::validate` builds. -/
structure BindingSets where
  used : List AssetId
  scalarBindings : List Bytes
  arrayBindings : List Bytes

/-- The binding loop of `ProjectImage::validate`. -/
def validateBindings (limits : ProjectLimits) (assets : OrderedMap AssetId BufferAsset) :
    List (Text × AssetId) → BindingSets → Checked BindingSets
  | [], sets => .ok sets
  | (name, id) :: bindings, sets => do
    validateProjectBufferName platform name limits
    let sets := match parseBufferElementName platform name.bytes with
      | some (base, _) => { sets with arrayBindings := base :: sets.arrayBindings }
      | none => { sets with scalarBindings := name.bytes :: sets.scalarBindings }
    refuseIf ((assets.get? id).isNone)
      (ascii "buffer '" ++ name.bytes ++ ascii "' references missing asset '" ++ id.bytes ++
        ascii "'")
    validateBindings limits assets bindings { sets with used := id :: sets.used }

/-- The first array base, in order, that is also a scalar name. -/
def conflictingBinding (sets : BindingSets) : Option Bytes :=
  (sets.arrayBindings.insertionSort
    (fun left right => left.map UInt8.toNat ≤ right.map UInt8.toNat)).find?
      sets.scalarBindings.contains

def refuseConflict (sets : BindingSets) : Checked Unit :=
  match conflictingBinding sets with
  | some name =>
    reject (ascii "project buffer '" ++ name ++
      ascii "' cannot have both scalar and array-slot bindings")
  | none => .ok ()

/-- `ProjectImage::validate`. -/
def ProjectImage.validate (image : ProjectImage) (limits : ProjectLimits) : Checked Unit := do
  image.sources.validate platform limits
  validateProjectConstants image.constants limits
  refuseIf (image.assets.entries.length > limits.maxAssets)
    (ascii "project contains " ++ decimal image.assets.entries.length ++
      ascii " assets, exceeding the " ++ decimal limits.maxAssets ++ ascii " asset limit")
  refuseIf (image.bufferBindings.entries.length > limits.maxBufferBindings)
    (ascii "project contains " ++ decimal image.bufferBindings.entries.length ++
      ascii " buffer bindings, exceeding the " ++ decimal limits.maxBufferBindings ++
      ascii " binding limit")
  validateAssets platform limits image.assets.entries 0
  let sets ← validateBindings platform limits image.assets image.bufferBindings.entries
    ⟨[], [], []⟩
  refuseConflict sets
  refuseIf (sets.used.dedup.length ≠ image.assets.entries.length)
    (ascii "project contains unbound buffer assets")

/-! ### The content digest -/

/-- What `serde_json` is used for: the text of a constant. -/
structure Json where
  /-- `serde_json::to_vec`. -/
  constant : ProjectConstValue → Text
  /-- `serde_json::from_slice`. -/
  readConstant : Text → Option ProjectConstValue

variable (json : Json)

/-- `hash_string`: the bytes it feeds to the hasher. -/
def hashString (value : Text) : Bytes := lengthPrefixed 8 value.bytes

namespace ProjectImage

/-- The bytes `calculate_content_digest` feeds to the hasher, in order. -/
def contentStream (image : ProjectImage) : Bytes :=
  ascii "onda-project-image-content-v2" ++ [0] ++
  hashString image.sources.entry ++
  hashString image.sources.stdlibDigest ++
  (image.sources.documents.flatMap fun document =>
    hashString document.path ++ hashString document.contents) ++
  ((image.sources.resolutions.insertionSort (· ≤ ·)).flatMap fun resolution =>
    hashString resolution.source ++ [resolution.kind.rank] ++
      hashString resolution.specifier ++ hashString resolution.target) ++
  (image.constants.entries.flatMap fun (name, value) =>
    hashString name ++ hashString (json.constant value)) ++
  (image.bufferBindings.entries.flatMap fun (name, id) => hashString name ++ hashString id) ++
  (image.assets.entries.flatMap fun (id, _) => hashString id)

/-- `calculate_content_digest`. -/
def calculateContentDigest (image : ProjectImage) : Digest :=
  platform.sha256 (image.contentStream json)

end ProjectImage

end Onda.Project
