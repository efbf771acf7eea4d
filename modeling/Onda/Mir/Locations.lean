import Mathlib.Data.List.Forall2
import Onda.Mir.Evaluation

/-!
# Locations and shapes

What a place denotes, independently of the memory: projecting, windowing and
reinterpreting storage never leaves it.  `Loc.Within` says that every cell of
one location is a cell of another one, with the same kind of content.

The recursion of `Program.shape` over the type table carries fuel; the lemmas of
the first part remove it, so that the shape of an aggregate is the branching of
the shapes of its components.
-/

namespace Onda.Mir

open Structured

/-! ### Shapes -/

variable {bounds : BoundsMode} {α : Type} {list : List α} {β : Type} {results : List β}
  {f : α → Option β}

theorem mapM_option_mono {g : α → Option β}
    (each : ∀ element ∈ list, ∀ result, f element = some result → g element = some result)
    (mapped : list.mapM f = some results) : list.mapM g = some results := by
  induction list generalizing results with
  | nil => simpa using mapped
  | cons head tail ih =>
    simp only [List.mapM_cons, Option.bind_eq_bind, Option.bind_eq_some_iff,
      Option.pure_def, Option.some.injEq] at mapped ⊢
    obtain ⟨first, atHead, rest, atTail, rfl⟩ := mapped
    exact ⟨first, each head (by simp) first atHead, rest,
      ih (fun element mem => each element (by simp [mem])) atTail, rfl⟩

theorem mapM_option_get {index : Nat} {element : α} (mapped : list.mapM f = some results)
    (found : list[index]? = some element) :
    ∃ result, f element = some result ∧ results[index]? = some result := by
  induction list generalizing results index element with
  | nil => simp at found
  | cons head tail ih =>
    simp only [List.mapM_cons, Option.bind_eq_bind, Option.bind_eq_some_iff,
      Option.pure_def, Option.some.injEq] at mapped
    obtain ⟨first, atHead, rest, atTail, rfl⟩ := mapped
    cases index with
    | zero =>
      obtain rfl : head = element := by simpa using found
      exact ⟨first, atHead, rfl⟩
    | succ index =>
      rw [List.getElem?_cons_succ] at found
      simpa only [List.getElem?_cons_succ] using ih atTail found

theorem mapM_option_length (mapped : list.mapM f = some results) :
    results.length = list.length := by
  induction list generalizing results with
  | nil =>
    obtain rfl : [] = results := by simpa using mapped
    rfl
  | cons head tail ih =>
    simp only [List.mapM_cons, Option.bind_eq_bind, Option.bind_eq_some_iff,
      Option.pure_def, Option.some.injEq] at mapped
    obtain ⟨first, _, rest, atTail, rfl⟩ := mapped
    rw [List.length_cons, List.length_cons, ih atTail]

theorem mapM_option_isSome (each : ∀ element ∈ list, (f element).isSome)
    : (list.mapM f).isSome := by
  induction list with
  | nil => rfl
  | cons head tail ih =>
    obtain ⟨first, atHead⟩ := Option.isSome_iff_exists.mp (each head (by simp))
    obtain ⟨rest, atTail⟩ := Option.isSome_iff_exists.mp
      (ih fun element mem => each element (by simp [mem]))
    rw [List.mapM_cons, atHead, atTail]
    rfl

namespace Program

variable (program : Program)

/-- A leaf of branching components is a leaf of one component. -/
theorem mem_branches {leaves : List (List (Path × LeafKind))} {path : Path}
    {kind : LeafKind} :
    (path, kind) ∈ branches leaves ↔
      ∃ index rest component, path = index :: rest ∧ leaves[index]? = some component ∧
        (rest, kind) ∈ component := by
  simp only [branches, List.mem_flatMap, List.mem_map, Prod.mk.injEq, Prod.exists,
    List.mem_zipIdx_iff_getElem?]
  constructor
  · rintro ⟨component, index, found, rest, _, mem, rfl, rfl⟩
    exact ⟨index, rest, component, rfl, found, mem⟩
  · rintro ⟨index, rest, component, rfl, found, mem⟩
    exact ⟨component, index, found, rest, kind, mem, rfl, rfl⟩

variable {leaves : List (Path × LeafKind)} {ty : TypeId}

theorem leafPaths_succ {fuel : Nat} (found : program.leafPaths fuel ty = some leaves) :
    program.leafPaths (fuel + 1) ty = some leaves := by
  induction fuel generalizing ty leaves with
  | zero => simp [leafPaths] at found
  | succ fuel ih =>
    rw [leafPaths] at found ⊢
    simp only [Option.bind_eq_bind, Option.bind_eq_some_iff] at found ⊢
    obtain ⟨declared, atType, result⟩ := found
    refine ⟨declared, atType, ?_⟩
    cases declared with
    | scalar | slice | buffer | bufferSpan => exact result
    | array element len =>
      simp only [Option.bind_eq_some_iff] at result ⊢
      obtain ⟨component, atElement, same⟩ := result
      exact ⟨component, ih atElement, same⟩
    | struct definition =>
      simp only [Option.bind_eq_some_iff] at result ⊢
      obtain ⟨declared, atStruct, components, atFields, same⟩ := result
      exact ⟨declared, atStruct, components,
        mapM_option_mono (fun _ _ _ atField => ih atField) atFields, same⟩
    | tuple elements =>
      simp only [Option.bind_eq_some_iff] at result ⊢
      obtain ⟨components, atElements, same⟩ := result
      exact ⟨components, mapM_option_mono (fun _ _ _ atElement => ih atElement) atElements,
        same⟩

variable {program}

theorem shape_scalar {scalar : ScalarType} (declared : program.types[ty]? = some (.scalar scalar)) :
    program.shape ty = some [([], .scalar scalar)] := by
  simp [shape, leafPaths, declared]

theorem shape_buffer {element : ScalarType} {channels : BufferChannels} {access : AccessMode}
    (declared : program.types[ty]? = some (.buffer element channels access)) :
    program.shape ty = some [([], .buffer)] := by
  simp [shape, leafPaths, declared]

/-- The leaves of an array are those of its elements. -/
theorem shape_array {element : TypeId} {len : Nat}
    (declared : program.types[ty]? = some (.array element len))
    (found : program.shape ty = some leaves) :
    ∃ component, program.shape element = some component ∧
      leaves = branches (List.replicate len component) := by
  rw [shape, leafPaths] at found
  simp only [declared, Option.bind_eq_bind, Option.bind_some, Option.bind_eq_some_iff] at found
  obtain ⟨component, atElement, same⟩ := found
  refine ⟨component, leafPaths_succ program atElement, ?_⟩
  simpa using same.symm

/-- The leaves of a struct are those of its fields. -/
theorem shape_struct {definition : StructId} {declared : StructType}
    (isStruct : program.types[ty]? = some (.struct definition))
    (found : program.structs[definition]? = some declared)
    (shaped : program.shape ty = some leaves) :
    ∃ components, (declared.fields.mapM fun field => program.shape field.ty)
        = some components ∧ leaves = branches components := by
  rw [shape, leafPaths] at shaped
  simp only [isStruct, found, Option.bind_eq_bind, Option.bind_some,
    Option.bind_eq_some_iff] at shaped
  obtain ⟨components, atFields, same⟩ := shaped
  refine ⟨components, mapM_option_mono (fun _ _ _ atField => leafPaths_succ program atField)
    atFields, ?_⟩
  simpa using same.symm

end Program

/-! ### Locations inside locations -/

namespace Loc

/-- Every leaf of `inner` is a leaf of `outer`. -/
structure Within (program : Program) (inner outer : Loc) : Prop where
  object : inner.object = outer.object
  viaSlice : inner.viaSlice = outer.viaSlice
  neutral : inner.neutral = outer.neutral
  cells : ∀ leaves, program.shape outer.ty = some leaves →
    ∃ part, program.shape inner.ty = some part ∧
      ∀ leaf ∈ part, ∃ whole ∈ leaves, inner.cell leaf.1 = outer.cell whole.1 ∧
        leaf.2 = whole.2

variable {program : Program} {loc inner middle outer : Loc}

theorem Within.refl (loc : Loc) : loc.Within program loc :=
  ⟨rfl, rfl, rfl, fun leaves found => ⟨leaves, found, fun leaf mem => ⟨leaf, mem, rfl, rfl⟩⟩⟩

theorem Within.trans (first : inner.Within program middle)
    (second : middle.Within program outer) : inner.Within program outer where
  object := first.object.trans second.object
  viaSlice := first.viaSlice.trans second.viaSlice
  neutral := first.neutral.trans second.neutral
  cells leaves found := by
    obtain ⟨part, shaped, inside⟩ := second.cells leaves found
    obtain ⟨smaller, reshaped, deeper⟩ := first.cells part shaped
    refine ⟨smaller, reshaped, fun leaf mem => ?_⟩
    obtain ⟨between, memPart, sameCell, sameKind⟩ := deeper leaf mem
    obtain ⟨whole, memWhole, cell, kind⟩ := inside between memPart
    exact ⟨whole, memWhole, sameCell.trans cell, sameKind.trans kind⟩

variable {index start : Nat} {ty : TypeId}

/-- A component whose leaves branch off the leaves of the location. -/
theorem child_within (branch : ∀ leaves, program.shape loc.ty = some leaves →
      ∃ part, program.shape ty = some part ∧
        ∀ leaf ∈ part, (index :: leaf.1, leaf.2) ∈ leaves) :
    (loc.child index ty).Within program loc where
  object := rfl
  viaSlice := rfl
  neutral := rfl
  cells leaves found := by
    obtain ⟨part, shaped, inside⟩ := branch leaves found
    exact ⟨part, shaped, fun leaf mem =>
      ⟨_, inside leaf mem, child_cell loc index ty leaf.1, rfl⟩⟩

theorem field_within {definition field : Nat} {declared : StructType}
    {member : StructField}
    (isStruct : program.types[loc.ty]? = some (.struct definition))
    (found : program.structs[definition]? = some declared)
    (isField : declared.fields[field]? = some member) :
    (loc.child field member.ty).Within program loc := by
  refine child_within fun leaves shaped => ?_
  obtain ⟨components, atFields, rfl⟩ := Program.shape_struct isStruct found shaped
  obtain ⟨part, atField, atIndex⟩ := mapM_option_get atFields isField
  exact ⟨part, atField, fun leaf mem =>
    Program.mem_branches.mpr ⟨field, leaf.1, part, rfl, atIndex, mem⟩⟩

theorem element_within {element : TypeId} {len : Nat}
    (isArray : program.types[loc.ty]? = some (.array element len)) (inRange : index < len)
    : (loc.child index element).Within program loc := by
  refine child_within fun leaves shaped => ?_
  obtain ⟨part, atElement, rfl⟩ := Program.shape_array isArray shaped
  refine ⟨part, atElement, fun leaf mem => ?_⟩
  exact Program.mem_branches.mpr
    ⟨index, leaf.1, part, rfl, by simp [inRange], mem⟩

theorem window_cell {rest : Path} (notSingle : loc.view ≠ .single) :
    (loc.window start ty).cell (index :: rest) = loc.cell ((start + index) :: rest) := by
  unfold window cell
  rcases view : loc.view with _ | first | _
  · simp
  · simp [Nat.add_assoc]
  · exact absurd view notSingle

theorem window_single_cell {path : Path} (single : loc.view = .single)
    : (loc.window start ty).cell path = loc.cell path := by
  simp [window, cell, single]

@[simp] theorem window_ty (loc : Loc) (start : Nat) (ty : TypeId) :
    (loc.window start ty).ty = ty := by
  unfold window; split <;> rfl

/-- A window of an array is within the array. -/
theorem window_within {item element : TypeId} {len required : Nat}
    (isArray : program.types[loc.ty]? = some (.array item len))
    (isWindow : program.types[ty]? = some (.array element required))
    (sameItem : program.shape item = program.shape element) (shaped : (program.shape ty).isSome)
    (inRange : start + required ≤ len) : (loc.window start ty).Within program loc where
  object := window_object loc start ty
  viaSlice := window_viaSlice loc start ty
  neutral := by unfold window; split <;> rfl
  cells leaves found := by
    obtain ⟨component, atItem, rfl⟩ := Program.shape_array isArray found
    obtain ⟨part, atWindow⟩ := Option.isSome_iff_exists.mp shaped
    obtain ⟨other, atElement, rfl⟩ := Program.shape_array isWindow atWindow
    obtain rfl : component = other := by
      rw [sameItem, atElement] at atItem
      exact (Option.some.inj atItem).symm
    rw [window_ty]
    refine ⟨_, atWindow, fun leaf mem => ?_⟩
    obtain ⟨index, rest, chosen, path, atIndex, inside⟩ := Program.mem_branches.mp mem
    obtain ⟨bound, rfl⟩ : index < required ∧ component = chosen := by
      rw [List.getElem?_replicate] at atIndex
      split at atIndex
      · next inside => exact ⟨inside, Option.some.inj atIndex⟩
      · simp at atIndex
    by_cases single : loc.view = .single
    · refine ⟨(index :: rest, leaf.2), Program.mem_branches.mpr
        ⟨index, rest, component, rfl, List.getElem?_replicate_of_lt (by omega), inside⟩, ?_, rfl⟩
      rw [window_single_cell single, path]
    · refine ⟨((start + index) :: rest, leaf.2), Program.mem_branches.mpr
        ⟨start + index, rest, component, rfl, List.getElem?_replicate_of_lt (by omega), inside⟩, ?_, rfl⟩
      rw [path, window_cell single]

/-- Storage under another type of the same shape, passed on by reference. -/
theorem renamed_within {through : List (Nat × ParameterId)}
    (same : program.shape loc.ty = program.shape ty) :
    ({ loc with ty := ty, through := through } : Loc).Within program loc where
  object := rfl
  viaSlice := rfl
  neutral := rfl
  cells leaves found := ⟨leaves, by rw [← same, found], fun leaf mem => ⟨leaf, mem, rfl, rfl⟩⟩

end Loc

/-! ### Bounds -/

theorem normalizeIndex_lt {index : Int} {len position : Nat}
    (normalized : normalizeIndex index len bounds = .ok position) : position < len := by
  cases bounds with
  | clamp =>
    simp only [normalizeIndex] at normalized
    split at normalized
    · simp at normalized
    · simp only [Except.ok.injEq] at normalized
      omega
  | checked | unchecked =>
    simp only [normalizeIndex] at normalized
    split at normalized
    · simp only [Except.ok.injEq] at normalized
      omega
    · simp at normalized

theorem normalizeWindow_le {start : Int} {len required first : Nat} (fits : required ≤ len)
    (normalized : normalizeWindow start len required bounds = .ok first) :
    first + required ≤ len := by
  cases bounds with
  | clamp =>
    simp only [normalizeWindow, Except.ok.injEq] at normalized
    omega
  | checked | unchecked =>
    simp only [normalizeWindow] at normalized
    split at normalized
    · simp only [Except.ok.injEq] at normalized
      omega
    · simp at normalized

theorem returns_ofExcept {env : Memory} {Q : α → Prop} {result : Except Stop α}
    (holds : ∀ value, result = .ok value → Q value) :
    Eval.Returns env Q (ofExcept result : Run α) := by
  cases result with
  | error reason => exact Eval.Returns.throw
  | ok value => exact Eval.Returns.pure (holds value rfl)

/-! ### Places -/

section Places

variable {machine : Machine} {act : Activation} {env : Memory}

theorem projectLoc_within (loc : Loc) (projection : Projection) :
    Eval.Returns env (fun inner => inner.Within machine.program loc)
      (projectLoc machine act loc projection) := by
  unfold projectLoc
  cases projection with
  | field field =>
    refine Eval.Returns.orThrow.bind fun declared isStruct => ?_
    split
    · refine Eval.Returns.orThrow.bind fun structure_ found => ?_
      refine Eval.Returns.orThrow.bind fun member isField => ?_
      exact Eval.Returns.pure (Loc.field_within isStruct found isField)
    · exact Eval.Returns.throw
  | index index bounds =>
    refine Eval.Returns.orThrow.bind fun declared isArray => ?_
    split
    · refine Eval.Returns.any.bind fun position _ => ?_
      refine (returns_ofExcept fun first normalized => normalized).bind
        fun first normalized => ?_
      exact Eval.Returns.pure (Loc.element_within isArray (normalizeIndex_lt normalized))
    · exact Eval.Returns.throw

/-- The storage a place denotes, as far as it does not depend on indices. -/
structure Activation.Denotes (machine : Machine) (act : Activation) (place : Place)
    (root loc : Loc) : Prop where
  base : act.baseStorage machine place.base = some root
  within : loc.Within machine.program root
  whole : place.projections = [] → loc = root

/-- **A place denotes storage inside its base.** -/
theorem lowerPlace_returns (place : Place) :
    Eval.Returns env (fun loc => ∃ root, act.Denotes machine place root loc)
      (lowerPlace machine act place) := by
  unfold lowerPlace
  refine Eval.Returns.orThrow.bind fun root found => ?_
  have inside : Eval.Returns env (fun loc => loc.Within machine.program root)
      (place.projections.foldlM (projectLoc machine act) root) :=
    Eval.Returns.foldlM (Loc.Within.refl root) fun loc projection _ inside =>
      (projectLoc_within loc projection).mono fun inner deeper => deeper.trans inside
  intro loc run
  refine ⟨root, found, inside loc run, fun unprojected => ?_⟩
  rw [unprojected] at run
  simpa using run.symm

end Places

end Onda.Mir
