import Onda.Project.BufferCodec
import Onda.Project.Image

/-!
# What a valid image satisfies

`ProjectImage.validate` is a chain of loops.  `ImageFacts` collects what they
establish about the lists of an image, without the limits.
-/

namespace Onda.Project

variable {platform : Platform} {limits : ProjectLimits}

/-- A text that is not empty and does not start with NUL. -/
def Text.Plain (text : Text) : Prop := ∃ byte rest, text.bytes = byte :: rest ∧ byte ≠ 0

theorem Text.plain_of_checks {text : Text} (nonempty : text.bytes ≠ [])
    (noNul : ¬text.bytes.contains 0) : text.Plain := by
  obtain ⟨bytes, fits⟩ := text
  cases bytes with
  | nil => exact absurd rfl nonempty
  | cons byte rest =>
    refine ⟨byte, rest, rfl, ?_⟩
    rintro rfl
    exact noNul (by simp)

/-- What holds of the lists of a valid image. -/
structure ImageFacts (platform : Platform) (image : ProjectImage) : Prop where
  paths_nodup : (image.sources.documents.map SourceDocument.path).Nodup
  sources_known : ∀ resolution ∈ image.sources.resolutions,
    resolution.source ∈ image.sources.documents.map SourceDocument.path
  constants_plain : ∀ entry ∈ image.constants.entries, entry.1.Plain
  bindings_plain : ∀ entry ∈ image.bufferBindings.entries, entry.1.Plain
  bindings_known : ∀ entry ∈ image.bufferBindings.entries, entry.2 ∈ image.assets.keys
  assets_named : ∀ entry ∈ image.assets.entries,
    entry.1 = digestText (platform.sha256 entry.2.content)
  assets_bound : ∀ id ∈ image.assets.keys, id ∈ image.bufferBindings.values

/-! ### The loops -/

/-- The document loop returns the paths seen before it and those of the documents, all
different. -/
theorem validateDocuments_ok {documents : List SourceDocument} {paths seen : List Text}
    {sourceBytes : Nat} (distinct : paths.Nodup)
    (run : validateDocuments platform limits documents paths sourceBytes = .ok seen) :
    seen.Perm (documents.map SourceDocument.path ++ paths) ∧ seen.Nodup := by
  induction documents generalizing paths sourceBytes with
  | nil =>
    cases run
    exact ⟨List.Perm.refl _, distinct⟩
  | cons document documents ih =>
    simp only [validateDocuments, bind_ok_iff, refuseIf_ok_iff, exists_const] at run
    obtain ⟨-, -, fresh, total, -, -, run⟩ := run
    obtain ⟨perm, nodup⟩ := ih (List.nodup_cons.mpr ⟨fresh, distinct⟩) run
    exact ⟨perm.trans (List.perm_middle), nodup⟩

theorem validateResolutions_ok {paths : List Text} {resolutions : List SourceResolution}
    {keys : List (Text × SourceReferenceKind × Text)}
    (run : validateResolutions paths resolutions keys = .ok ()) :
    ∀ resolution ∈ resolutions, resolution.source ∈ paths := by
  induction resolutions generalizing keys with
  | nil => simp
  | cons resolution resolutions ih =>
    simp only [validateResolutions, bind_ok_iff, refuseIf_ok_iff, exists_const] at run
    obtain ⟨-, -, known, -, run⟩ := run
    rw [not_or, Decidable.not_not, Decidable.not_not] at known
    intro resolution' mem
    rcases List.mem_cons.mp mem with rfl | later
    · exact known.1
    · exact ih run resolution' later

theorem validateConstantEntries_ok {entries : List (Text × ProjectConstValue)}
    (run : validateConstantEntries limits entries = .ok ()) :
    ∀ entry ∈ entries, entry.1.Plain := by
  induction entries with
  | nil => simp
  | cons entry entries ih =>
    obtain ⟨name, value⟩ := entry
    simp only [validateConstantEntries, validateProjectConstantName, bind_ok_iff,
      refuseIf_ok_iff, exists_const] at run
    obtain ⟨⟨nonempty, -, noNul⟩, -, -, run⟩ := run
    intro entry mem
    rcases List.mem_cons.mp mem with rfl | later
    · exact Text.plain_of_checks nonempty noNul
    · exact ih run entry later

theorem validateAssets_ok {assets : List (AssetId × BufferAsset)} {total : Nat}
    (run : validateAssets platform limits assets total = .ok ()) :
    ∀ entry ∈ assets, entry.1 = digestText (platform.sha256 entry.2.content) := by
  induction assets generalizing total with
  | nil => simp
  | cons entry assets ih =>
    obtain ⟨id, asset⟩ := entry
    simp only [validateAssets, bind_ok_iff, refuseIf_ok_iff, exists_const, AssetId.forBuffer,
      asset.contentDigest_eq, Except.ok.injEq, exists_eq_left', pure, Except.pure,
      Decidable.not_not] at run
    obtain ⟨-, -, named, total', -, -, run⟩ := run
    intro entry mem
    rcases List.mem_cons.mp mem with rfl | later
    · exact named
    · exact ih run entry later

/-- The binding loop collects the bound ids; names are plain and ids are assets. -/
theorem validateBindings_ok {assets : OrderedMap AssetId BufferAsset}
    {bindings : List (Text × AssetId)} {sets sets' : BindingSets}
    (run : validateBindings platform limits assets bindings sets = .ok sets') :
    (∀ entry ∈ bindings, entry.1.Plain ∧ entry.2 ∈ assets.keys) ∧
      ∀ id ∈ sets'.used, id ∈ sets.used ∨ id ∈ bindings.map Prod.snd := by
  induction bindings generalizing sets with
  | nil =>
    cases run
    exact ⟨by simp, fun id mem => .inl mem⟩
  | cons entry bindings ih =>
    obtain ⟨name, id⟩ := entry
    simp only [validateBindings, validateProjectBufferName, bind_ok_iff, refuseIf_ok_iff,
      exists_const] at run
    obtain ⟨-, ⟨nonempty, -, noNul, -⟩, present, run⟩ := run
    obtain ⟨known, collected⟩ := ih run
    constructor
    · intro entry mem
      rcases List.mem_cons.mp mem with rfl | later
      · refine ⟨Text.plain_of_checks nonempty noNul, ?_⟩
        rw [Option.isNone_iff_eq_none] at present
        obtain ⟨asset, found⟩ := Option.ne_none_iff_exists'.mp present
        exact List.mem_map_of_mem (OrderedMap.mem_of_get? found)
      · exact known entry later
    · intro id' mem
      rcases collected id' mem with usedBefore | later
      · rcases List.mem_cons.mp usedBefore with rfl | before
        · exact .inr (by simp)
        · left
          revert before
          split <;> exact fun before => before
      · exact .inr (by simp [later])

/-! ### The whole image -/

/-- **Validity.** -/
theorem ProjectImage.facts {image : ProjectImage}
    (valid : image.validate platform limits = .ok ()) : ImageFacts platform image := by
  simp only [ProjectImage.validate, SourceImage.validate, validateProjectConstants, bind_ok_iff,
    refuseIf_ok_iff, exists_const] at valid
  obtain ⟨⟨⟩, ⟨-, -, -, -, -, -, paths, documents, -, -, -, resolutions⟩, ⟨⟩,
    ⟨-, constants⟩, -, -, ⟨⟩, assets, sets, bindings, ⟨⟩, -, allUsed⟩ := valid
  obtain ⟨perm, nodup⟩ := validateDocuments_ok List.nodup_nil documents
  rw [List.append_nil] at perm
  obtain ⟨known, collected⟩ := validateBindings_ok bindings
  have bound : ∀ id ∈ sets.used, id ∈ image.bufferBindings.values := by
    intro id mem
    rcases collected id mem with before | here
    · cases before
    · exact here
  refine ⟨perm.nodup_iff.mp nodup, ?_, validateConstantEntries_ok constants,
    fun entry mem => (known entry mem).1, fun entry mem => (known entry mem).2,
    validateAssets_ok assets, ?_⟩
  · intro resolution mem
    exact perm.mem_iff.mp (validateResolutions_ok resolutions resolution mem)
  · -- as many ids are used as there are assets, and every used id is an asset
    intro id mem
    apply bound
    have subset : sets.used.dedup ⊆ image.assets.keys := by
      intro id used
      obtain ⟨entry, mem, rfl⟩ := List.mem_map.mp (bound id (List.mem_dedup.mp used))
      exact (known entry mem).2
    have sameLength : image.assets.keys.length ≤ sets.used.dedup.length := by
      rw [OrderedMap.keys, List.length_map, Decidable.not_not.mp allUsed]
    have perm := (List.subperm_of_subset sets.used.nodup_dedup subset).perm_of_length_le sameLength
    exact List.mem_dedup.mp (perm.mem_iff.mpr mem)

end Onda.Project
