import Onda.Mir.CorrespondingEval

/-!
# Corresponding places and rvalues

The evaluators that lower a place, select a buffer and compute an rvalue.  A
destination may be storage without a counterpart, so places are lowered for any
relation of objects that contains the correspondence.
-/

namespace Onda.Mir

open Structured Structured.Eval

section Evaluation

variable {machine : Machine} {functions : List Function} {world : World} {memory memory' : Memory}
  {act act' : Activation}

/-- A result that both sides have. -/
theorem ofExcept_corresponds {α : Type} (result : Except Stop α) :
    Refines observer memory memory' (fun value value' => value = value')
      (ofExcept result) (ofExcept result) := by
  cases result with
  | ok value => exact .pure rfl
  | error reason => exact .throw

/-! ### Places -/

variable {R : Object → Object → Prop} {channel channel' : Option Value} {place place' : Place}
  {selected selected' : SelectedBuffer}

/-- The storage behind a base, where locals are renamed by `locals`. -/
theorem baseStorage_corresponds (acts : world.Activations act act')
    (weaker : ∀ object object', world.Objects object object' →
      R object object') {locals : LocalId → Option LocalId}
    (localLocs : ∀ localId localId', locals localId = some localId' →
      Option.Rel (World.Locs R) (act.localLoc localId) (act'.localLoc localId'))
    {base base' : PlaceBase}
    (rewritten : rewritePlaceBase (world.mapping act) locals base = some base') :
    Option.Rel (World.Locs R) (act.baseStorage machine base)
      (act'.baseStorage (machine.withFunctions functions) base') := by
  have global {α : Type} (object : Object) (none : object.activation? = none)
      (declared : Option α) (ty : α → TypeId) : Option.Rel (World.Locs R)
        (declared.bind fun declared =>
          some { object := object, path := [], view := .whole, ty := ty declared })
        (declared.bind fun declared =>
          some { object := object, path := [], view := .whole, ty := ty declared }) := by
    cases declared with
    | none => exact .none
    | some declared => exact .some ⟨weaker _ _ (.shared none), rfl, rfl, rfl, rfl⟩
  cases base with
  | localVar localId =>
    obtain ⟨localId', mapped, rfl⟩ := Option.map_eq_some_iff.mp rewritten
    exact localLocs localId localId' mapped
  | parameter index =>
    obtain ⟨index', mapped, rfl⟩ := Option.map_eq_some_iff.mp rewritten
    exact optionRel_imp (acts.params index index' mapped) fun _ _ locs =>
      ⟨weaker _ _ locs.object, locs.path, locs.view, locs.ty, locs.neutral⟩
  | state state =>
    cases rewritten
    exact global (.state state) rfl machine.program.state[state]? StateSlot.ty
  | param param =>
    cases rewritten
    exact global (.param param) rfl machine.program.interface.params[param]? Param.ty
  | eventParam param =>
    cases rewritten
    have type : (machine.withFunctions functions).program.baseType act'.function (.eventParam param)
        = machine.program.baseType act.function (.eventParam param) := by
      simp only [Program.baseType, acts.kind]
      rfl
    simp only [Activation.baseStorage, type]
    exact global (.eventParam param) rfl _ id

variable (memories : world.Memories memory memory') (acts : world.Activations act act')
include memories acts

theorem projectLoc_corresponds {loc loc' : Loc} (locs : World.Locs R loc loc')
    {projection projection' : Projection}
    (rewritten : rewriteProjection (world.mapping act) projection = some projection') :
    Refines observer memory memory' (World.Locs R) (projectLoc machine act loc projection)
      (projectLoc (machine.withFunctions functions) act' loc' projection') := by
  cases projection with
  | field field =>
    cases rewritten
    unfold projectLoc
    rw [locs.ty]
    refine .bind (.lookup _) ?_
    rintro ty _ ⟨rfl, -⟩
    cases ty with
    | struct definition =>
      refine .bind (.lookup _) ?_
      rintro declared _ ⟨rfl, -⟩
      refine .bind (.lookup _) ?_
      rintro member _ ⟨rfl, -⟩
      exact .pure (locs.child field member.ty)
    | scalar | tuple | array | slice | buffer | bufferSpan => exact .throw
  | index index bounds =>
    obtain ⟨index', mapped, rfl⟩ := Option.map_eq_some_iff.mp rewritten
    unfold projectLoc
    rw [locs.ty]
    refine .bind (.lookup _) ?_
    rintro ty _ ⟨rfl, -⟩
    cases ty with
    | array element len =>
      refine .bind (evalI32_corresponds memories acts mapped) ?_
      rintro position _ rfl
      refine .bind (ofExcept_corresponds _) ?_
      rintro position _ rfl
      exact .pure (locs.child position element)
    | scalar | tuple | struct | slice | buffer | bufferSpan => exact .throw

theorem lowerPlace_of_base (root : Option.Rel (World.Locs R) (act.baseStorage machine place.base)
      (act'.baseStorage (machine.withFunctions functions) place'.base))
    (projections : place.projections.mapM (rewriteProjection (world.mapping act))
      = some place'.projections) :
    Refines observer memory memory' (World.Locs R) (lowerPlace machine act place)
      (lowerPlace (machine.withFunctions functions) act' place') := by
  unfold lowerPlace
  refine .bind (.orThrow root) fun loc loc' locs => ?_
  exact .foldlM (forall₂_of_mapM projections)
    (fun loc loc' projection projection' locs rewritten =>
      projectLoc_corresponds memories acts locs rewritten) locs

theorem lowerPlace_corresponds (rewritten : rewritePlace (world.mapping act) place = some place') :
    Refines observer memory memory' (World.Locs world.Objects) (lowerPlace machine act place)
      (lowerPlace (machine.withFunctions functions) act' place') := by
  simp only [rewritePlace, Option.bind_eq_bind, Option.bind_eq_some_iff, Option.some.injEq]
    at rewritten
  obtain ⟨base', baseRewritten, projections', projectionsRewritten, rfl⟩ := rewritten
  exact lowerPlace_of_base memories acts
    (baseStorage_corresponds acts (fun _ _ objects => objects)
      (fun _ _ mapped => localLoc_corresponds acts mapped) baseRewritten) projectionsRewritten

/-- A destination, which may have no counterpart. -/
theorem lowerDestination_corresponds
    (rewritten : rewriteDestination (world.mapping act) place = some place') :
    Refines observer memory memory' (World.Locs world.Targets) (lowerPlace machine act place)
      (lowerPlace (machine.withFunctions functions) act' place') := by
  simp only [rewriteDestination, Option.bind_eq_bind, Option.bind_eq_some_iff, Option.some.injEq]
    at rewritten
  obtain ⟨base', baseRewritten, projections', projectionsRewritten, rfl⟩ := rewritten
  exact lowerPlace_of_base memories acts
    (baseStorage_corresponds acts (fun _ _ objects => objects.target)
      (fun _ _ mapped => resultLoc_corresponds acts mapped) baseRewritten) projectionsRewritten

/-! ### Buffers -/

/-- The same buffer, declared alike. -/
structure SelectedBuffer.Alike (selected selected' : SelectedBuffer) : Prop where
  buffer : selected'.buffer = selected.buffer
  element : selected'.element = selected.element
  channels : selected'.channels = selected.channels

theorem selectBuffer_corresponds {ref ref' : BufferRef}
    (rewritten : rewriteBufferRef (world.mapping act) ref = some ref') :
    Refines observer memory memory' SelectedBuffer.Alike (selectBuffer machine act ref)
      (selectBuffer (machine.withFunctions functions) act' ref') := by
  cases ref with
  | direct buffer =>
    cases rewritten
    refine .bind (.lookup _) ?_
    rintro declared _ ⟨rfl, -⟩
    exact .pure ⟨rfl, rfl, rfl⟩
  | arrayElement first len selector bounds =>
    obtain ⟨selector', mapped, rfl⟩ := Option.map_eq_some_iff.mp rewritten
    refine .bind (.lookup _) ?_
    rintro declared _ ⟨rfl, -⟩
    refine .bind (evalI32_corresponds memories acts mapped) ?_
    rintro position _ rfl
    refine .bind (ofExcept_corresponds _) ?_
    rintro offset _ rfl
    exact .pure ⟨rfl, rfl, rfl⟩

theorem selectBufferParam_corresponds {ref ref' : BufferParamRef}
    (rewritten : rewriteBufferParamRef (world.mapping act) ref = some ref') :
    Refines observer memory memory' SelectedBuffer.Alike (selectBufferParam machine act ref)
      (selectBufferParam (machine.withFunctions functions) act' ref') := by
  cases ref with
  | direct index =>
    obtain ⟨index', mapped, rfl⟩ := Option.map_eq_some_iff.mp rewritten
    refine .bind (.orThrow (acts.params index index' mapped)) fun loc loc' locs => ?_
    rw [locs.ty]
    refine .bind (.lookup _) ?_
    rintro declared _ ⟨rfl, -⟩
    cases declared with
    | buffer element channels access =>
      refine .bind (fetch_corresponds memories locs) fun data data' datas => ?_
      cases datas with
      | nil => exact .throw
      | @cons entry entry' _ _ head tail =>
        obtain ⟨path, leaf⟩ := entry
        obtain ⟨path', leaf'⟩ := entry'
        obtain ⟨-, leaves⟩ := head
        cases tail with
        | nil =>
          cases leaves with
          | buffer buffer => exact .pure ⟨rfl, rfl, rfl⟩
          | scalar | slice | span => exact .throw
        | cons => cases leaves <;> exact .throw
    | scalar | tuple | array | struct | slice | bufferSpan => exact .throw
  | arrayElement span selector bounds =>
    simp only [rewriteBufferParamRef, Option.bind_eq_bind, Option.bind_eq_some_iff,
      Option.some.injEq] at rewritten
    obtain ⟨span', mapped, selector', selectorMapped, rfl⟩ := rewritten
    refine .bind (.orThrow (acts.params span span' mapped)) fun loc loc' locs => ?_
    rw [locs.ty]
    refine .bind (.lookup _) ?_
    rintro declared _ ⟨rfl, -⟩
    cases declared with
    | bufferSpan element channels access len =>
      refine .bind (evalI32_corresponds memories acts selectorMapped) ?_
      rintro position _ rfl
      refine .bind (ofExcept_corresponds _) ?_
      rintro offset _ rfl
      refine .bind (fetch_corresponds memories locs) fun data data' datas => ?_
      cases datas with
      | nil => exact .throw
      | @cons entry entry' _ _ head tail =>
        obtain ⟨path, leaf⟩ := entry
        obtain ⟨path', leaf'⟩ := entry'
        obtain ⟨-, leaves⟩ := head
        cases tail with
        | nil =>
          cases leaves with
          | span first len => exact .pure ⟨rfl, rfl, rfl⟩
          | scalar | slice | buffer => exact .throw
        | cons => cases leaves <;> exact .throw
    | scalar | tuple | array | struct | slice | buffer => exact .throw

theorem bufferPosition_corresponds (channels frame : Nat) (bounds : BoundsMode)
    (rewritten : rewriteOptional (world.mapping act) channel = some channel') :
    Refines observer memory memory' (fun value value' => value = value')
      (bufferPosition machine act channels frame bounds channel)
      (bufferPosition (machine.withFunctions functions) act' channels frame bounds channel') := by
  cases channel with
  | none =>
    cases rewritten
    exact .pure rfl
  | some channel =>
    obtain ⟨channel', mapped, rfl⟩ := Option.map_eq_some_iff.mp rewritten
    refine .bind (evalI32_corresponds memories acts mapped) ?_
    rintro position _ rfl
    refine .bind (ofExcept_corresponds _) ?_
    rintro lane _ rfl
    exact .pure rfl

theorem bufferElement_corresponds (alike : selected.Alike selected') {index index' : Value}
    (channelRewritten : rewriteOptional (world.mapping act) channel = some channel')
    (indexRewritten : rewriteValue (world.mapping act) index = some index') (bounds : BoundsMode) :
    Refines observer memory memory' (World.Elements world.Objects)
      (bufferElement machine act selected channel index bounds)
      (bufferElement (machine.withFunctions functions) act' selected' channel' index' bounds) := by
  unfold bufferElement
  rw [alike.buffer, alike.element, alike.channels]
  refine .bind (evalI32_corresponds memories acts indexRewritten) ?_
  rintro position _ rfl
  refine .bind (ofExcept_corresponds _) ?_
  rintro frame _ rfl
  refine .bind (bufferPosition_corresponds memories acts _ frame bounds channelRewritten) ?_
  rintro flat _ rfl
  exact .pure ⟨.shared rfl, rfl, rfl, rfl⟩

theorem bufferSlice_corresponds (alike : selected.Alike selected')
    (rewritten : rewriteOptional (world.mapping act) channel = some channel') :
    Refines observer memory memory' world.Slices (bufferSlice machine act selected channel)
      (bufferSlice (machine.withFunctions functions) act' selected' channel') := by
  unfold bufferSlice
  rw [alike.buffer, alike.element, alike.channels]
  cases channel with
  | none =>
    cases rewritten
    exact .pure (.slice (.shared rfl))
  | some channel =>
    obtain ⟨channel', mapped, rfl⟩ := Option.map_eq_some_iff.mp rewritten
    refine .bind (evalI32_corresponds memories acts mapped) ?_
    rintro position _ rfl
    exact .pure (.slice (.shared rfl))

/-! ### Slices -/

omit memories acts in
theorem slice_corresponds {loc loc' : Loc} (locs : World.Locs world.Objects loc loc') (len : Nat)
    (element : ScalarType) : world.Slices (loc.slice len element) (loc'.slice len element) := by
  unfold Loc.slice
  rw [locs.view, locs.path, locs.neutral]
  split <;> exact .slice locs.object

theorem sliceSource_corresponds {source source' : SliceSource}
    (rewritten : rewriteSliceSource (world.mapping act) source = some source') :
    Refines observer memory memory' world.Slices (sliceSource machine act source)
      (sliceSource (machine.withFunctions functions) act' source') := by
  cases source with
  | place place =>
    obtain ⟨place', mapped, rfl⟩ := Option.map_eq_some_iff.mp rewritten
    refine .bind (lowerPlace_corresponds memories acts mapped) fun loc loc' locs => ?_
    rw [locs.ty]
    refine .bind (.lookup _) ?_
    rintro declared _ ⟨rfl, -⟩
    cases declared with
    | scalar element =>
      have single : World.Locs world.Objects { loc with view := .single }
          { loc' with view := .single } :=
        ⟨locs.object, locs.path, rfl, locs.ty, locs.neutral⟩
      rw [← locs.ty]
      exact .pure (slice_corresponds single 1 element)
    | array item len =>
      refine .bind (.lookup _) ?_
      rintro element _ ⟨rfl, -⟩
      exact .pure (slice_corresponds locs len element)
    | slice element access =>
      refine .bind (readLoc_corresponds memories locs) fun data data' datas => ?_
      cases datas with
      | nil => exact .throw
      | @cons entry entry' _ _ head tail =>
        obtain ⟨path, leaf⟩ := entry
        obtain ⟨path', leaf'⟩ := entry'
        obtain ⟨-, leaves⟩ := head
        cases tail with
        | nil =>
          cases leaves with
          | slice objects => exact .pure (.slice objects)
          | scalar | span | buffer => exact .throw
        | cons => cases leaves <;> exact .throw
    | tuple | struct | buffer | bufferSpan => exact .throw
  | buffer buffer channel =>
    simp only [rewriteSliceSource, Option.bind_eq_bind, Option.bind_eq_some_iff,
      Option.some.injEq] at rewritten
    obtain ⟨buffer', bufferRewritten, channel', channelRewritten, rfl⟩ := rewritten
    exact .bind (selectBuffer_corresponds memories acts bufferRewritten)
      fun _ _ alike => bufferSlice_corresponds memories acts alike channelRewritten
  | bufferParam ref channel =>
    simp only [rewriteSliceSource, Option.bind_eq_bind, Option.bind_eq_some_iff,
      Option.some.injEq] at rewritten
    obtain ⟨ref', refRewritten, channel', channelRewritten, rfl⟩ := rewritten
    exact .bind (selectBufferParam_corresponds memories acts refRewritten)
      fun _ _ alike => bufferSlice_corresponds memories acts alike channelRewritten
  | constData data =>
    cases rewritten
    refine .bind (.lookup _) ?_
    rintro declared _ ⟨rfl, -⟩
    exact .pure (.slice (.shared rfl))

/-! ### Audio -/

theorem audioElement_corresponds {object : Object} (global : object.activation? = none)
    (ty : TypeId) {element element' : Option Value} {frame frame' : Value}
    (elementRewritten : rewriteOptional (world.mapping act) element = some element')
    (frameRewritten : rewriteValue (world.mapping act) frame = some frame')
    (bounds : BoundsMode) :
    Refines observer memory memory' (World.Elements world.Objects)
      (audioElement machine act object ty element bounds frame)
      (audioElement (machine.withFunctions functions) act' object ty element' bounds frame') := by
  unfold audioElement
  refine .bind (.lookup _) ?_
  rintro declared _ ⟨rfl, -⟩
  cases declared with
  | scalar scalar =>
    refine .bind (evalI32_corresponds memories acts frameRewritten) ?_
    rintro position _ rfl
    exact .bind (.require rfl) fun _ _ _ => .pure ⟨.shared global, rfl, rfl, rfl⟩
  | array item len =>
    refine .bind (.lookup _) ?_
    rintro scalar _ ⟨rfl, -⟩
    have elements : Option.Rel (fun value value' =>
        rewriteValue (world.mapping act) value = some value') element element' := by
      cases element with
      | none => cases elementRewritten; exact .none
      | some element =>
        obtain ⟨element', mapped, rfl⟩ := Option.map_eq_some_iff.mp elementRewritten
        exact .some mapped
    refine .bind (.orThrow elements) fun index index' mapped => ?_
    refine .bind (evalI32_corresponds memories acts mapped) ?_
    rintro position _ rfl
    refine .bind (ofExcept_corresponds _) ?_
    rintro port _ rfl
    refine .bind (evalI32_corresponds memories acts frameRewritten) ?_
    rintro offset _ rfl
    exact .bind (.require rfl) fun _ _ _ => .pure ⟨.shared global, rfl, rfl, rfl⟩
  | tuple | struct | slice | buffer | bufferSpan => exact .throw

/-! ### Rvalues -/

omit acts in
/-- A sample that corresponding elements hold, as a value. -/
theorem loadResult_corresponds {sample sample' : Element}
    (elements : World.Elements world.Objects sample sample') :
    Refines observer memory memory' world.Datas (scalarResult <$> loadElement machine act sample)
      (scalarResult <$> loadElement (machine.withFunctions functions) act' sample') :=
  .map (loadElement_corresponds memories elements) (by rintro value _ rfl; exact .scalar value)

omit memories acts in
/-- The result of a scalar operation. -/
theorem operationResult_corresponds (reason : Stop) (result : Option ScalarValue) :
    Refines observer memory memory' world.Datas (scalarResult <$> Eval.orThrow reason result)
      (scalarResult <$> Eval.orThrow reason result) :=
  .map (.lookup _) (by rintro value _ ⟨rfl, -⟩; exact .scalar value)

theorem evalScalars_corresponds {args args' : List Value}
    (rewritten : args.mapM (rewriteValue (world.mapping act)) = some args') :
    Refines observer memory memory' (fun values values' => values = values')
      (args.mapM (evalScalar machine act))
      (args'.mapM (evalScalar (machine.withFunctions functions) act')) :=
  (Refines.mapM (forall₂_of_mapM rewritten) fun _ _ mapped =>
    evalScalar_corresponds memories acts mapped).mono fun _ _ same => List.forall₂_eq_eq_eq ▸ same

theorem bufferLoad_corresponds (alike : selected.Alike selected') {index index' : Value}
    (channelRewritten : rewriteOptional (world.mapping act) channel = some channel')
    (indexRewritten : rewriteValue (world.mapping act) index = some index') (bounds : BoundsMode) :
    Refines observer memory memory' world.Datas
      (do
        let sample ← bufferElement machine act selected channel index bounds
        scalarResult <$> loadElement machine act sample)
      (do
        let sample ← bufferElement (machine.withFunctions functions) act' selected' channel' index'
          bounds
        scalarResult <$> loadElement (machine.withFunctions functions) act' sample) :=
  .bind (bufferElement_corresponds memories acts alike channelRewritten indexRewritten bounds)
    fun _ _ elements => loadResult_corresponds memories elements

omit memories acts in
/-- Length, channel count, sample rate and binding of a buffer are the same. -/
theorem descriptions_correspond (selected selected' : SelectedBuffer)
    (alike : selected.Alike selected') :
    (world.Datas (evalRvalue.bufferLength machine selected)
        (evalRvalue.bufferLength (machine.withFunctions functions) selected')
      ∧ world.Datas (evalRvalue.bufferChannelCount machine selected)
        (evalRvalue.bufferChannelCount (machine.withFunctions functions) selected'))
    ∧ world.Datas (evalRvalue.bufferRate machine selected)
        (evalRvalue.bufferRate (machine.withFunctions functions) selected')
      ∧ world.Datas (evalRvalue.bufferBound machine selected)
        (evalRvalue.bufferBound (machine.withFunctions functions) selected') := by
  unfold evalRvalue.bufferLength evalRvalue.bufferChannelCount evalRvalue.bufferRate
    evalRvalue.bufferBound
  rw [alike.buffer, alike.channels]
  exact ⟨⟨.scalar _, .scalar _⟩, .scalar _, .scalar _⟩

theorem evalRvalue_corresponds {value value' : Rvalue}
    (rewritten : rewriteRvalue (world.mapping act) value = some value') :
    Refines observer memory memory' world.Datas (evalRvalue machine act value)
      (evalRvalue (machine.withFunctions functions) act' value') := by
  cases value with
  | use value =>
    obtain ⟨value', mapped, rfl⟩ := Option.map_eq_some_iff.mp rewritten
    exact evalValue_corresponds memories acts mapped
  | load place =>
    obtain ⟨place', mapped, rfl⟩ := Option.map_eq_some_iff.mp rewritten
    exact .bind (lowerPlace_corresponds memories acts mapped) fun _ _ locs =>
      readLoc_corresponds memories locs
  | initAll =>
    cases rewritten
    exact .pure (.scalar _)
  | unary op operand =>
    obtain ⟨operand', mapped, rfl⟩ := Option.map_eq_some_iff.mp rewritten
    refine .bind (evalScalar_corresponds memories acts mapped) ?_
    rintro operand _ rfl
    exact operationResult_corresponds _ _
  | binary op lhs rhs =>
    simp only [rewriteRvalue, Option.bind_eq_bind, Option.bind_eq_some_iff, Option.some.injEq]
      at rewritten
    obtain ⟨lhs', lhsMapped, rhs', rhsMapped, rfl⟩ := rewritten
    refine .bind (evalScalar_corresponds memories acts lhsMapped) ?_
    rintro lhs _ rfl
    refine .bind (evalScalar_corresponds memories acts rhsMapped) ?_
    rintro rhs _ rfl
    exact operationResult_corresponds _ _
  | compare op lhs rhs =>
    simp only [rewriteRvalue, Option.bind_eq_bind, Option.bind_eq_some_iff, Option.some.injEq]
      at rewritten
    obtain ⟨lhs', lhsMapped, rhs', rhsMapped, rfl⟩ := rewritten
    refine .bind (evalScalar_corresponds memories acts lhsMapped) ?_
    rintro lhs _ rfl
    refine .bind (evalScalar_corresponds memories acts rhsMapped) ?_
    rintro rhs _ rfl
    refine .bind (.lookup _) ?_
    rintro holds _ ⟨rfl, -⟩
    exact .pure (.scalar _)
  | cast value target =>
    obtain ⟨value', mapped, rfl⟩ := Option.map_eq_some_iff.mp rewritten
    refine .bind (evalScalar_corresponds memories acts mapped) ?_
    rintro value _ rfl
    exact operationResult_corresponds _ _
  | intrinsic intrinsic args =>
    obtain ⟨args', mapped, rfl⟩ := Option.map_eq_some_iff.mp rewritten
    refine .bind (evalScalars_corresponds memories acts mapped) ?_
    rintro args _ rfl
    exact operationResult_corresponds _ _
  | processFrame offset =>
    obtain ⟨offset', mapped, rfl⟩ := Option.map_eq_some_iff.mp rewritten
    refine .bind (evalI32_corresponds memories acts mapped) ?_
    rintro offset _ rfl
    exact .bind (.require rfl) fun _ _ _ => .pure (.scalar _)
  | normalizeIndex index length bounds =>
    simp only [rewriteRvalue, Option.bind_eq_bind, Option.bind_eq_some_iff, Option.some.injEq]
      at rewritten
    obtain ⟨index', indexMapped, length', lengthMapped, rfl⟩ := rewritten
    refine .bind (evalI32_corresponds memories acts indexMapped) ?_
    rintro index _ rfl
    refine .bind (evalI32_corresponds memories acts lengthMapped) ?_
    rintro length _ rfl
    refine .bind (ofExcept_corresponds _) ?_
    rintro normalized _ rfl
    exact .pure (.scalar _)
  | inputLoad input element bounds frame | outputLoad input element bounds frame =>
    simp only [rewriteRvalue, Option.bind_eq_bind, Option.bind_eq_some_iff, Option.some.injEq]
      at rewritten
    obtain ⟨element', elementMapped, frame', frameMapped, rfl⟩ := rewritten
    refine .bind (.lookup _) ?_
    rintro declared _ ⟨rfl, -⟩
    exact .bind (audioElement_corresponds memories acts rfl _ elementMapped frameMapped bounds)
      fun _ _ elements => loadResult_corresponds memories elements
  | bufferLoad buffer channel index bounds =>
    simp only [rewriteRvalue, Option.bind_eq_bind, Option.bind_eq_some_iff, Option.some.injEq]
      at rewritten
    obtain ⟨buffer', bufferMapped, channel', channelMapped, index', indexMapped, rfl⟩ := rewritten
    exact .bind (selectBuffer_corresponds memories acts bufferMapped) fun _ _ alike =>
      bufferLoad_corresponds memories acts alike channelMapped indexMapped bounds
  | bufferParamLoad ref channel index bounds =>
    simp only [rewriteRvalue, Option.bind_eq_bind, Option.bind_eq_some_iff, Option.some.injEq]
      at rewritten
    obtain ⟨ref', refMapped, channel', channelMapped, index', indexMapped, rfl⟩ := rewritten
    exact .bind (selectBufferParam_corresponds memories acts refMapped) fun _ _ alike =>
      bufferLoad_corresponds memories acts alike channelMapped indexMapped bounds
  | bufferLen buffer =>
    obtain ⟨buffer', mapped, rfl⟩ := Option.map_eq_some_iff.mp rewritten
    exact .bind (selectBuffer_corresponds memories acts mapped) fun _ _ alike =>
      .pure (descriptions_correspond _ _ alike).1.1
  | bufferChannels buffer =>
    obtain ⟨buffer', mapped, rfl⟩ := Option.map_eq_some_iff.mp rewritten
    exact .bind (selectBuffer_corresponds memories acts mapped) fun _ _ alike =>
      .pure (descriptions_correspond _ _ alike).1.2
  | bufferSampleRate buffer =>
    obtain ⟨buffer', mapped, rfl⟩ := Option.map_eq_some_iff.mp rewritten
    exact .bind (selectBuffer_corresponds memories acts mapped) fun _ _ alike =>
      .pure (descriptions_correspond _ _ alike).2.1
  | bufferIsBound buffer =>
    obtain ⟨buffer', mapped, rfl⟩ := Option.map_eq_some_iff.mp rewritten
    exact .bind (selectBuffer_corresponds memories acts mapped) fun _ _ alike =>
      .pure (descriptions_correspond _ _ alike).2.2
  | bufferParamLen ref =>
    obtain ⟨ref', mapped, rfl⟩ := Option.map_eq_some_iff.mp rewritten
    exact .bind (selectBufferParam_corresponds memories acts mapped) fun _ _ alike =>
      .pure (descriptions_correspond _ _ alike).1.1
  | bufferParamChannels ref =>
    obtain ⟨ref', mapped, rfl⟩ := Option.map_eq_some_iff.mp rewritten
    exact .bind (selectBufferParam_corresponds memories acts mapped) fun _ _ alike =>
      .pure (descriptions_correspond _ _ alike).1.2
  | bufferParamSampleRate ref =>
    obtain ⟨ref', mapped, rfl⟩ := Option.map_eq_some_iff.mp rewritten
    exact .bind (selectBufferParam_corresponds memories acts mapped) fun _ _ alike =>
      .pure (descriptions_correspond _ _ alike).2.1
  | bufferParamIsBound ref =>
    obtain ⟨ref', mapped, rfl⟩ := Option.map_eq_some_iff.mp rewritten
    exact .bind (selectBufferParam_corresponds memories acts mapped) fun _ _ alike =>
      .pure (descriptions_correspond _ _ alike).2.2
  | constDataLoad data index bounds =>
    obtain ⟨index', mapped, rfl⟩ := Option.map_eq_some_iff.mp rewritten
    refine .bind (.lookup _) ?_
    rintro declared _ ⟨rfl, -⟩
    refine .bind (evalI32_corresponds memories acts mapped) ?_
    rintro position _ rfl
    refine .bind (ofExcept_corresponds _) ?_
    rintro position _ rfl
    exact loadResult_corresponds memories ⟨.shared rfl, rfl, rfl, rfl⟩
  | makeSlice source start len bounds access =>
    simp only [rewriteRvalue, Option.bind_eq_bind, Option.bind_eq_some_iff, Option.some.injEq]
      at rewritten
    obtain ⟨source', sourceMapped, start', startMapped, len', lenMapped, rfl⟩ := rewritten
    refine .bind (evalI32_corresponds memories acts startMapped) ?_
    rintro start _ rfl
    refine .bind (sliceSource_corresponds memories acts sourceMapped) ?_
    rintro source source' slices
    refine .bind (evalI32_corresponds memories acts lenMapped) ?_
    rintro len _ rfl
    cases slices with
    | slice objects =>
      refine .bind (ofExcept_corresponds _) ?_
      rintro range _ rfl
      exact .pure (.leaf (.slice objects))
  | sliceLoad slice index bounds =>
    simp only [rewriteRvalue, Option.bind_eq_bind, Option.bind_eq_some_iff, Option.some.injEq]
      at rewritten
    obtain ⟨slice', sliceMapped, index', indexMapped, rfl⟩ := rewritten
    refine .bind (evalSlice_corresponds memories acts sliceMapped) ?_
    rintro desc desc' slices
    refine .bind (evalI32_corresponds memories acts indexMapped) ?_
    rintro position _ rfl
    rw [slices.len]
    refine .bind (ofExcept_corresponds _) ?_
    rintro position _ rfl
    exact loadResult_corresponds memories (slices.elementAt position)
  | sliceLen slice =>
    obtain ⟨slice', mapped, rfl⟩ := Option.map_eq_some_iff.mp rewritten
    refine .bind (evalSlice_corresponds memories acts mapped) ?_
    rintro desc desc' slices
    rw [slices.len]
    exact .pure (.scalar _)

end Evaluation

end Onda.Mir
