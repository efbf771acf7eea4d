import Onda.Project.ImageFacts

/-!
# What the content digest identifies

The hashed stream of an image is its entry and standard-library digest, then
five lists with neither counts nor separators.  Resolutions stand out by their
kind byte; documents, constants, bindings and asset ids are all length-prefixed
texts, so a document can be read as a constant or a binding, and nothing else
can be confused.

### Texts
-/

namespace Onda.Project

open Wire (SelfDelimiting)

variable {platform : Platform} {json : Json}

theorem hashString_selfDelimiting : SelfDelimiting (fun _ : Text => True) hashString := by
  intro left right restLeft restRight _ _ same
  have fits : ∀ text : Text, text.bytes.length < 256 ^ 8 := by
    intro text
    calc text.bytes.length < 2 ^ 56 := text.fits
      _ ≤ 256 ^ 8 := by norm_num
  obtain ⟨sameBytes, sameRest⟩ :=
    Wire.lengthPrefixed_selfDelimiting 8 (fits left) (fits right) same
  exact ⟨Text.bytes_injective sameBytes, sameRest⟩

theorem hashString_ne_nil (text : Text) : hashString text ≠ [] :=
  Wire.lengthPrefixed_ne_nil (by decide) text.bytes

/-- Two texts in a row. -/
def hashPair (pair : Text × Text) : Bytes := hashString pair.1 ++ hashString pair.2

/-- The texts of a list of pairs. -/
def pairTexts (pairs : List (Text × Text)) : List Text :=
  pairs.flatMap fun pair => [pair.1, pair.2]

theorem pairTexts_delimit :
    SelfDelimiting (fun _ : Text × Text => True) fun pair => [pair.1, pair.2] := by
  rintro ⟨first, second⟩ ⟨first', second'⟩ rest rest' - - same
  cases same
  exact ⟨rfl, rfl⟩

/-- A resolution in the stream: three texts around the kind byte. -/
def hashResolution (resolution : SourceResolution) : Bytes :=
  hashString resolution.source ++ [resolution.kind.rank] ++ hashString resolution.specifier ++
    hashString resolution.target

theorem hashResolution_selfDelimiting :
    SelfDelimiting (fun _ : SourceResolution => True) hashResolution := by
  rintro ⟨source, kind, specifier, target⟩ ⟨source', kind', specifier', target'⟩ rest rest'
    - - same
  simp only [hashResolution, List.append_assoc] at same
  obtain ⟨sameSource, same₁⟩ := hashString_selfDelimiting trivial trivial same
  simp only [List.cons_append, List.nil_append, List.cons.injEq] at same₁
  obtain ⟨sameKind, same₂⟩ := same₁
  obtain ⟨sameSpecifier, same₃⟩ := hashString_selfDelimiting trivial trivial same₂
  obtain ⟨sameTarget, sameRest⟩ := hashString_selfDelimiting trivial trivial same₃
  have kind_eq : kind = kind' := by
    cases kind <;> cases kind' <;> first | rfl | exact absurd sameKind (by decide)
  exact ⟨by rw [sameSource, kind_eq, sameSpecifier, sameTarget], sameRest⟩

/-- **A resolution is no text.** Behind the source text a reader of texts would find the
kind byte where a length starts, and the first byte of the next text would be the top
byte of the specifier's length, a NUL. -/
theorem texts_ne_resolution {texts : List Text} {resolution : SourceResolution} {rest : Bytes}
    (plain : ∀ text ∈ texts, text.Plain) :
    texts.flatMap hashString ≠ hashResolution resolution ++ rest := by
  intro same
  obtain ⟨source, kind, specifier, target⟩ := resolution
  simp only [hashResolution, List.append_assoc] at same
  cases texts with
  | nil =>
    have empty := (List.append_eq_nil_iff.mp same.symm).1
    exact hashString_ne_nil source empty
  | cons first texts =>
    rw [List.flatMap_cons] at same
    obtain ⟨-, sameTail⟩ := hashString_selfDelimiting trivial trivial same
    cases texts with
    | nil => cases sameTail
    | cons second texts =>
      obtain ⟨byte, later, bytes_eq, notNul⟩ := plain second (by simp)
      rw [List.flatMap_cons] at sameTail
      -- the ninth byte on both sides
      have ninth := congrArg (fun bytes : Bytes => bytes[8]?) sameTail
      have left : (hashString second ++ texts.flatMap hashString)[8]? = some byte := by
        simp [hashString, Wire.lengthPrefixed, bytes_eq]
      have small : specifier.bytes.length / 256 / 256 / 256 / 256 / 256 / 256 / 256 = 0 := by
        have fits := specifier.fits
        omega
      have right : ([kind.rank] ++ (hashString specifier ++ (hashString target ++ rest)))[8]? =
          some 0 := by
        simp [hashString, Wire.lengthPrefixed, Wire.littleEndian, small]
      exact notNul (Option.some.inj (left.symm.trans (ninth.trans right)))

/-! ### The stream in parts -/

namespace ProjectImage

variable (json : Json) (image : ProjectImage)

/-- The documents as pairs of texts. -/
def documentPairs : List (Text × Text) :=
  image.sources.documents.map fun document => (document.path, document.contents)

def constantPairs : List (Text × Text) :=
  image.constants.entries.map fun entry => (entry.1, json.constant entry.2)

/-- The texts behind the resolutions: constants, bindings and asset ids. -/
def trailingTexts : List Text :=
  pairTexts (image.constantPairs json) ++
    (pairTexts image.bufferBindings.entries ++ image.assets.keys)

/-- All texts of an image in stream order, without its resolutions. -/
def texts : List Text := pairTexts image.documentPairs ++ image.trailingTexts json

end ProjectImage

theorem flatMap_pairTexts (pairs : List (Text × Text)) :
    (pairTexts pairs).flatMap hashString = pairs.flatMap hashPair := by
  induction pairs with
  | nil => rfl
  | cons pair pairs ih =>
    rw [List.flatMap_cons, ← ih]
    simp [pairTexts, hashPair]

/-- The stream, with the sort of the resolutions dropped: they are sorted. -/
theorem contentStream_eq (image : ProjectImage) :
    image.contentStream json =
      (ascii "onda-project-image-content-v2" ++ [0]) ++
        (hashString image.sources.entry ++ (hashString image.sources.stdlibDigest ++
          (image.documentPairs.flatMap hashPair ++
            (image.sources.resolutions.flatMap hashResolution ++
              (image.trailingTexts json).flatMap hashString)))) := by
  have sorted := image.resolutions_sorted.insertionSort_eq
  rw [ProjectImage.contentStream, sorted, ProjectImage.trailingTexts, List.flatMap_append,
    List.flatMap_append, flatMap_pairTexts, flatMap_pairTexts]
  simp only [ProjectImage.documentPairs, ProjectImage.constantPairs, OrderedMap.keys,
    List.flatMap_map, List.append_assoc, hashPair]
  congr 5
  apply congrArg₂ (· ++ ·) ?_ rfl
  apply List.flatMap_congr
  intro resolution _
  simp only [hashResolution, List.append_assoc]

/-! ### What can be confused -/

/-- Two images with the same content. -/
structure SameContent (left right : ProjectImage) : Prop where
  sources : left.sources = right.sources
  constants : left.constants = right.constants
  bufferBindings : left.bufferBindings = right.bufferBindings
  assets : left.assets = right.assets

/-- Neither image has a resolution, and their texts agree in stream order, but what is
a document in one of them is a constant or a binding in the other. -/
structure Resplit (json : Json) (left right : ProjectImage) : Prop where
  entry : left.sources.entry = right.sources.entry
  stdlibDigest : left.sources.stdlibDigest = right.sources.stdlibDigest
  unresolved : left.sources.resolutions = [] ∧ right.sources.resolutions = []
  documents : left.sources.documents.length ≠ right.sources.documents.length
  texts : left.texts json = right.texts json

/-- The images differ only in assets that have one id. -/
structure Colliding (left right : ProjectImage) : Prop where
  sources : left.sources = right.sources
  constants : left.constants = right.constants
  bufferBindings : left.bufferBindings = right.bufferBindings
  ids : left.assets.keys = right.assets.keys
  assets : left.assets ≠ right.assets

/-- What the JSON library does on the constants of an image: it reads back what it writes,
and its text starts as the JSON text of a scalar or an array starts. -/
structure JsonFaithful (json : Json) (image : ProjectImage) : Prop where
  reads : ∀ entry ∈ image.constants.entries,
    json.readConstant (json.constant entry.2) = some entry.2
  starts : ∀ entry ∈ image.constants.entries, ∃ byte rest,
    (json.constant entry.2).bytes = byte :: rest ∧ byte ∈ ascii "tf-0123456789\"["

section Valid

variable {left right : ProjectImage}

theorem digestText_plain (digest : Digest) : (digestText digest).Plain :=
  ⟨115, _, rfl, by decide⟩

theorem digestText_start (digest : Digest) : (digestText digest).bytes.head? = some 115 := rfl

/-- Asset ids start with `s`. -/
theorem ImageFacts.id_eq (facts : ImageFacts platform left) {id : AssetId}
    (mem : id ∈ left.assets.keys) : ∃ digest, id = digestText digest := by
  obtain ⟨entry, held, rfl⟩ := List.mem_map.mp mem
  exact ⟨_, facts.assets_named entry held⟩

theorem trailingTexts_plain (facts : ImageFacts platform left)
    (faithful : JsonFaithful json left) : ∀ text ∈ left.trailingTexts json, text.Plain := by
  have idPlain : ∀ id ∈ left.assets.keys, id.Plain := by
    intro id mem
    obtain ⟨digest, rfl⟩ := facts.id_eq mem
    exact digestText_plain digest
  intro text mem
  rcases List.mem_append.mp mem with constant | mem
  · obtain ⟨pair, pairMem, here⟩ := List.mem_flatMap.mp constant
    obtain ⟨entry, entryMem, rfl⟩ := List.mem_map.mp pairMem
    rcases List.mem_cons.mp here with rfl | here
    · exact facts.constants_plain entry entryMem
    · obtain rfl := List.mem_singleton.mp here
      obtain ⟨byte, rest, bytes_eq, start⟩ := faithful.starts entry entryMem
      refine ⟨byte, rest, bytes_eq, ?_⟩
      rintro rfl
      exact absurd start (by decide)
  rcases List.mem_append.mp mem with binding | id
  · obtain ⟨entry, entryMem, here⟩ := List.mem_flatMap.mp binding
    rcases List.mem_cons.mp here with rfl | here
    · exact facts.bindings_plain entry entryMem
    · obtain rfl := List.mem_singleton.mp here
      exact idPlain _ (facts.bindings_known entry entryMem)
  · exact idPlain text id

/-- An image without bindings has no assets. -/
theorem ImageFacts.no_assets (facts : ImageFacts platform left)
    (none : left.bufferBindings.entries = []) : left.assets.keys = [] := by
  apply List.eq_nil_iff_forall_not_mem.mpr
  intro id mem
  have bound := facts.assets_bound id mem
  rw [OrderedMap.values, none] at bound
  cases bound

/-- **Constants end where bindings start.** The second text of a binding is an id, which
no constant's JSON text starts like. -/
theorem no_constant_behind (facts : ImageFacts platform left)
    (faithful : JsonFaithful json right) {entry : Text × ProjectConstValue}
    (mem : entry ∈ right.constants.entries) {rest : List Text} :
    pairTexts left.bufferBindings.entries ++ left.assets.keys ≠
      entry.1 :: json.constant entry.2 :: rest := by
  intro same
  cases bindings : left.bufferBindings.entries with
  | nil =>
    rw [bindings, facts.no_assets bindings] at same
    cases same
  | cons binding bindings' =>
    rw [bindings] at same
    simp only [pairTexts, List.flatMap_cons, List.cons_append, List.nil_append,
      List.cons.injEq] at same
    obtain ⟨digest, id_eq⟩ := facts.id_eq (facts.bindings_known binding (by simp [bindings]))
    obtain ⟨byte, later, bytes_eq, start⟩ := faithful.starts entry mem
    have head := digestText_start digest
    rw [← id_eq, same.2.1, bytes_eq] at head
    cases head
    exact absurd start (by decide)

/-- The constants of two images whose trailing texts agree. -/
theorem constants_eq (facts : ImageFacts platform left) (facts' : ImageFacts platform right)
    (faithful : JsonFaithful json left) (faithful' : JsonFaithful json right)
    (same : left.trailingTexts json = right.trailingTexts json) :
    left.constants = right.constants ∧
      pairTexts left.bufferBindings.entries ++ left.assets.keys =
        pairTexts right.bufferBindings.entries ++ right.assets.keys := by
  rcases pairTexts_delimit.flatMap_append_eq (fun _ _ => trivial) (fun _ _ => trivial) same with ⟨pairs, behind⟩ | ⟨pair, more, pairs, behind⟩ |
    ⟨pair, more, pairs, behind⟩
  · refine ⟨?_, behind⟩
    -- what is written alike is read back alike
    apply OrderedMap.ext
    have back : ∀ {image : ProjectImage}, JsonFaithful json image →
        image.constants.entries.map (fun entry => (entry.1, some entry.2)) =
          (image.constantPairs json).map fun pair => (pair.1, json.readConstant pair.2) := by
      intro image faithful
      rw [ProjectImage.constantPairs, List.map_map]
      apply List.map_congr_left
      intro entry mem
      simp only [Function.comp, faithful.reads entry mem]
    have injective : Function.Injective
        fun entry : Text × ProjectConstValue => (entry.1, some entry.2) := by
      rintro ⟨name, value⟩ ⟨name', value'⟩ equal
      cases equal
      rfl
    apply List.map_injective_iff.mpr injective
    rw [back faithful, back faithful', pairs]
  · have mem : pair ∈ right.constantPairs json := by rw [pairs]; simp
    obtain ⟨entry, held, rfl⟩ := List.mem_map.mp mem
    exact absurd behind (no_constant_behind facts faithful' held)
  · have mem : pair ∈ left.constantPairs json := by rw [pairs]; simp
    obtain ⟨entry, held, rfl⟩ := List.mem_map.mp mem
    exact absurd behind (no_constant_behind facts' faithful held)

variable {more : List (Text × Text)} {texts texts' : List Text} {pair : Text × Text}

/-- **Bindings end where ids start.** A binding read from the ids of the other image would
bind an id that its own image no longer lists. -/
theorem no_binding_behind (facts : ImageFacts platform right)
    (mem : pair ∈ right.bufferBindings.entries) :
    left.assets.keys ≠ pairTexts (pair :: more) ++ right.assets.keys := by
  intro same
  have nodup : left.assets.keys.Nodup := left.assets.ordered.imp fun less => ne_of_lt less
  rw [same] at nodup
  simp only [pairTexts, List.flatMap_cons, List.cons_append, List.nil_append,
    List.nodup_cons] at nodup
  apply nodup.2.1
  exact List.mem_append_right _ (facts.bindings_known pair mem)

theorem bindings_eq (facts : ImageFacts platform left) (facts' : ImageFacts platform right)
    (same : pairTexts left.bufferBindings.entries ++ left.assets.keys =
      pairTexts right.bufferBindings.entries ++ right.assets.keys) :
    left.bufferBindings = right.bufferBindings ∧ left.assets.keys = right.assets.keys := by
  rcases pairTexts_delimit.flatMap_append_eq (fun _ _ => trivial) (fun _ _ => trivial) same with ⟨pairs, behind⟩ | ⟨pair, more, pairs, behind⟩ |
    ⟨pair, more, pairs, behind⟩
  · exact ⟨OrderedMap.ext pairs, behind⟩
  · exact absurd behind (no_binding_behind facts' (by rw [pairs]; simp))
  · exact absurd behind (no_binding_behind facts (by rw [pairs]; simp))

/-! ### Equal streams -/

theorem flatMap_hashString_inj (same : texts.flatMap hashString = texts'.flatMap hashString)
    : texts = texts' :=
  hashString_selfDelimiting.flatMap_inj hashString_ne_nil (fun _ _ => trivial)
    (fun _ _ => trivial) same

/-- Resolutions of one image are never read as texts of the other. -/
theorem resolutions_eq {resolutions resolutions' : List SourceResolution}
    (plain : ∀ text ∈ texts, text.Plain) (plain' : ∀ text ∈ texts', text.Plain)
    (same : resolutions.flatMap hashResolution ++ texts.flatMap hashString =
      resolutions'.flatMap hashResolution ++ texts'.flatMap hashString) :
    resolutions = resolutions' ∧ texts = texts' := by
  induction resolutions generalizing resolutions' with
  | nil =>
    cases resolutions' with
    | nil => exact ⟨rfl, flatMap_hashString_inj same⟩
    | cons resolution later =>
      rw [List.flatMap_nil, List.nil_append, List.flatMap_cons, List.append_assoc] at same
      exact absurd same (texts_ne_resolution plain)
  | cons resolution later ih =>
    cases resolutions' with
    | nil =>
      rw [List.flatMap_nil, List.nil_append, List.flatMap_cons, List.append_assoc] at same
      exact absurd same.symm (texts_ne_resolution plain')
    | cons resolution' later' =>
      simp only [List.flatMap_cons, List.append_assoc] at same
      obtain ⟨head, tail⟩ := hashResolution_selfDelimiting trivial trivial same
      obtain ⟨laters, texts_eq⟩ := ih tail
      exact ⟨by rw [head, laters], texts_eq⟩

theorem hashPair_selfDelimiting : SelfDelimiting (fun _ : Text × Text => True) hashPair := by
  rintro ⟨first, second⟩ ⟨first', second'⟩ rest rest' - - same
  simp only [hashPair, List.append_assoc] at same
  obtain ⟨sameFirst, same₁⟩ := hashString_selfDelimiting trivial trivial same
  obtain ⟨sameSecond, sameRest⟩ := hashString_selfDelimiting trivial trivial same₁
  exact ⟨by rw [sameFirst, sameSecond], sameRest⟩

/-- Texts that start with given ones. -/
theorem exists_texts_behind {first : List Text} {rest : Bytes}
    (same : texts.flatMap hashString = first.flatMap hashString ++ rest) :
    ∃ later, texts = first ++ later ∧ later.flatMap hashString = rest := by
  have ended : texts.flatMap hashString ++ [] = first.flatMap hashString ++ rest := by
    rw [List.append_nil, same]
  rcases hashString_selfDelimiting.flatMap_append_eq (fun _ _ => trivial) (fun _ _ => trivial)
    ended with ⟨rfl, rest_eq⟩ | ⟨text, more, -, rest_eq⟩ | ⟨text, more, rfl, rest_eq⟩
  · exact ⟨[], (List.append_nil _).symm, rest_eq⟩
  · exact absurd rest_eq.symm (SelfDelimiting.flatMap_cons_ne_nil hashString_ne_nil text more rest)
  · exact ⟨text :: more, rfl, by rw [rest_eq, List.append_nil]⟩

/-- **More documents.** If the right image has documents where the left one has something
else, there are no resolutions and the something else is texts. -/
theorem resplit_of_longer (facts : ImageFacts platform left) (facts' : ImageFacts platform right)
    (faithful : JsonFaithful json left) (entry : left.sources.entry = right.sources.entry)
    (stdlib : left.sources.stdlibDigest = right.sources.stdlibDigest)
    (longer : right.documentPairs = left.documentPairs ++ pair :: more)
    (behind : left.sources.resolutions.flatMap hashResolution ++
        (left.trailingTexts json).flatMap hashString =
      (pair :: more).flatMap hashPair ++ (right.sources.resolutions.flatMap hashResolution ++
        (right.trailingTexts json).flatMap hashString)) :
    Resplit json left right := by
  have paths : ∀ image : ProjectImage, image.sources.documents.map SourceDocument.path =
      image.documentPairs.map Prod.fst := by
    intro image
    rw [ProjectImage.documentPairs, List.map_map]
    rfl
  have noneLeft : left.sources.resolutions = [] := by
    cases resolutions : left.sources.resolutions with
    | nil => rfl
    | cons resolution later =>
      -- its source would be the path of a further document
      rw [resolutions, List.flatMap_cons, List.flatMap_cons] at behind
      simp only [hashResolution, hashPair, List.append_assoc] at behind
      obtain ⟨source_eq, -⟩ := hashString_selfDelimiting trivial trivial behind
      have known := facts.sources_known resolution (by simp [resolutions])
      have nodup := facts'.paths_nodup
      rw [paths, longer, List.map_append, List.map_cons] at nodup
      rw [paths, source_eq] at known
      exact (List.disjoint_of_nodup_append nodup known (by simp)).elim
  rw [noneLeft, List.flatMap_nil, List.nil_append, ← flatMap_pairTexts] at behind
  obtain ⟨later, texts_eq, later_eq⟩ := exists_texts_behind behind
  have plain : ∀ text ∈ later, text.Plain := by
    intro text mem
    exact trailingTexts_plain facts faithful text (by rw [texts_eq]; simp [mem])
  have noneRight : right.sources.resolutions = [] := by
    cases resolutions : right.sources.resolutions with
    | nil => rfl
    | cons resolution laterResolutions =>
      rw [resolutions, List.flatMap_cons, List.append_assoc] at later_eq
      exact absurd later_eq (texts_ne_resolution plain)
  rw [noneRight, List.flatMap_nil, List.nil_append] at later_eq
  obtain rfl := flatMap_hashString_inj later_eq
  refine ⟨entry, stdlib, ⟨noneLeft, noneRight⟩, ?_, ?_⟩
  · have lengths := congrArg List.length longer
    simp only [ProjectImage.documentPairs, List.length_map, List.length_append,
      List.length_cons] at lengths
    omega
  · rw [ProjectImage.texts, ProjectImage.texts, texts_eq, longer, pairTexts, pairTexts, pairTexts,
      List.flatMap_append, List.append_assoc]

theorem Resplit.symm (resplit : Resplit json left right) : Resplit json right left :=
  ⟨resplit.entry.symm, resplit.stdlibDigest.symm, resplit.unresolved.symm,
    resplit.documents.symm, resplit.texts.symm⟩

/-- **Equal streams.** The images agree except possibly in assets that share an id, or
documents of one are constants and bindings of the other. -/
theorem agree_or_resplit (facts : ImageFacts platform left) (facts' : ImageFacts platform right)
    (faithful : JsonFaithful json left) (faithful' : JsonFaithful json right)
    (same : left.contentStream json = right.contentStream json) :
    (left.sources = right.sources ∧ left.constants = right.constants ∧
      left.bufferBindings = right.bufferBindings ∧ left.assets.keys = right.assets.keys) ∨
      Resplit json left right := by
  rw [contentStream_eq, contentStream_eq] at same
  obtain ⟨entry, same₁⟩ := hashString_selfDelimiting trivial trivial (List.append_cancel_left same)
  obtain ⟨stdlib, same₂⟩ := hashString_selfDelimiting trivial trivial same₁
  rcases hashPair_selfDelimiting.flatMap_append_eq (fun _ _ => trivial) (fun _ _ => trivial)
    same₂ with ⟨documents, behind⟩ | ⟨pair, more, longer, behind⟩ | ⟨pair, more, longer, behind⟩
  · left
    obtain ⟨resolutions, texts⟩ := resolutions_eq (trailingTexts_plain facts faithful)
      (trailingTexts_plain facts' faithful') behind
    obtain ⟨constants, behindConstants⟩ := constants_eq facts facts' faithful faithful' texts
    obtain ⟨bindings, ids⟩ := bindings_eq facts facts' behindConstants
    refine ⟨?_, constants, bindings, ids⟩
    have injective : Function.Injective
        fun document : SourceDocument => (document.path, document.contents) := by
      rintro ⟨path, contents⟩ ⟨path', contents'⟩ equal
      cases equal
      rfl
    have documents_eq := List.map_injective_iff.mpr injective documents
    cases hl : left.sources
    cases hr : right.sources
    simp only [hl, hr] at entry stdlib documents_eq resolutions
    rw [entry, stdlib, documents_eq, resolutions]
  · exact .inr (resplit_of_longer facts facts' faithful entry stdlib longer behind)
  · exact .inr (resplit_of_longer facts' facts faithful' entry.symm stdlib.symm longer
      behind).symm

theorem contentStream_of_resplit (resplit : Resplit json left right) :
    left.contentStream json = right.contentStream json := by
  have flat : ∀ image : ProjectImage, image.sources.resolutions = [] →
      image.contentStream json = (ascii "onda-project-image-content-v2" ++ [0]) ++
        (hashString image.sources.entry ++ (hashString image.sources.stdlibDigest ++
          (image.texts json).flatMap hashString)) := by
    intro image unresolved
    rw [contentStream_eq, unresolved, ProjectImage.texts, List.flatMap_append, flatMap_pairTexts]
    rfl
  rw [flat left resplit.unresolved.1, flat right resplit.unresolved.2, resplit.entry,
    resplit.stdlibDigest, resplit.texts]

theorem contentStream_of_colliding (colliding : Colliding left right) :
    left.contentStream json = right.contentStream json := by
  rw [contentStream_eq, contentStream_eq]
  simp only [ProjectImage.trailingTexts, ProjectImage.documentPairs, ProjectImage.constantPairs,
    colliding.sources, colliding.constants, colliding.bufferBindings, colliding.ids]

end Valid

/-! ### A constant that is a document

A project with the document `a.onda` and the constant `b = true` hashes like the
project with the documents `a.onda` and `b`, where `b` contains `true`. -/

/-- JSON texts of the two bools. -/
def Json.bools : Json where
  constant
    | .bool true => ⟨ascii "true", by decide⟩
    | _ => ⟨ascii "false", by decide⟩
  readConstant text :=
    if text.bytes = ascii "true" then some (.bool true)
    else if text.bytes = ascii "false" then some (.bool false) else none

/-- A project of these documents and constants, with an all-zero library digest. -/
def documentProject (documents : List SourceDocument)
    (constants : OrderedMap Text ProjectConstValue)
    (documents_sorted : documents.Pairwise (·.path ≤ ·.path)) : ProjectImage where
  sources := {
    entry := ⟨ascii "a.onda", by decide⟩
    stdlibDigest := ⟨ascii "sha256:" ++ List.replicate 64 48, by decide⟩
    documents
    resolutions := [] }
  constants
  bufferBindings := .empty
  assets := .empty
  documents_sorted
  resolutions_sorted := List.Pairwise.nil

def entryDocument : SourceDocument := ⟨⟨ascii "a.onda", by decide⟩, ⟨ascii "x", by decide⟩⟩

def constantDocument : SourceDocument := ⟨⟨ascii "b", by decide⟩, ⟨ascii "true", by decide⟩⟩

/-- One document and the constant `b`. -/
def constantProject : ProjectImage :=
  documentProject [entryDocument] ⟨[(⟨ascii "b", by decide⟩, .bool true)], by simp⟩ (by simp)

/-- The same texts as two documents. -/
def twoDocumentProject : ProjectImage :=
  documentProject [entryDocument, constantDocument] .empty (by decide)

theorem constantProject_valid :
    constantProject.validate .ascii64 .default = .ok () := by
  rfl

theorem twoDocumentProject_valid :
    twoDocumentProject.validate .ascii64 .default = .ok () := by
  rfl

theorem constantProject_faithful : JsonFaithful .bools constantProject where
  reads entry mem := by
    obtain rfl := List.mem_singleton.mp mem
    rfl
  starts entry mem := by
    obtain rfl := List.mem_singleton.mp mem
    exact ⟨116, _, rfl, by decide⟩

theorem twoDocumentProject_faithful : JsonFaithful .bools twoDocumentProject where
  reads entry mem := by cases mem
  starts entry mem := by cases mem

end Onda.Project
