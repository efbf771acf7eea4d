import Onda.Mir.CorrespondingRvalue

/-!
# Corresponding stores

The operations that neither call nor copy slices: a rewritten operation publishes
the same payloads and evaluates to stores of corresponding content.
-/

namespace Onda.Mir

open Structured Structured.Eval

section Evaluation

variable {machine : Machine} {functions : List Function} {world : World} {memory memory' : Memory}
  {act act' : Activation}

theorem World.Elements.target {sample sample' : Element}
    (elements : World.Elements world.Objects sample sample') :
    World.Elements world.Targets sample sample' :=
  ⟨elements.object.target, elements.path, elements.element, elements.neutral⟩

theorem World.Locs.target {loc loc' : Loc} (locs : World.Locs world.Objects loc loc') :
    World.Locs world.Targets loc loc' :=
  ⟨locs.object.target, locs.path, locs.view, locs.ty, locs.neutral⟩

/-- Corresponding slices are declared alike. -/
theorem World.Slices.element {desc desc' : SliceDesc} (slices : world.Slices desc desc') :
    desc'.element = desc.element := by
  cases slices with
  | slice objects => rfl

theorem World.Slices.stride {desc desc' : SliceDesc} (slices : world.Slices desc desc') :
    desc'.stride = desc.stride := by
  cases slices with
  | slice objects => rfl

/-- Counterparts are equal where the objects are: overlaps are kept. -/
theorem World.Slices.overlaps {first first' second second' : SliceDesc}
    (one : world.Slices first first') (two : world.Slices second second') (len : Nat) :
    first'.overlaps second' len = first.overlaps second len := by
  cases one with
  | @slice _ object objects =>
    cases two with
    | @slice _ other others =>
      have same : (object == other) = (first.object == second.object) := by
        rw [Bool.eq_iff_iff, beq_iff_eq, beq_iff_eq]
        constructor
        · rintro rfl
          exact objects.unique others
        · intro same
          rw [same] at objects
          exact objects.functional others
      simp only [SliceDesc.overlaps, same]

section Slices

variable (memories : world.Memories memory memory')
include memories

theorem loadSlice_corresponds {desc desc' : SliceDesc} (slices : world.Slices desc desc') :
    Refines observer memory memory' world.Datas (loadSlice machine act desc)
      (loadSlice (machine.withFunctions functions) act' desc') := by
  unfold loadSlice
  rw [slices.len]
  refine .mapM (List.forall₂_same.mpr fun _ _ => rfl) fun index _ same => ?_
  subst same
  refine .bind (loadElement_corresponds memories (slices.elementAt index)) ?_
  rintro value _ rfl
  exact .pure ⟨rfl, .scalar value⟩

theorem copySlice_corresponds {destination destination' source source' : SliceDesc}
    (destinations : world.Slices destination destination')
    (sources : world.Slices source source') :
    Refines observer memory memory' (List.Forall₂ world.Writes)
      (copySlice machine act destination source)
      (copySlice (machine.withFunctions functions) act' destination' source') := by
  unfold copySlice
  rw [destinations.len, sources.len]
  refine .mapM (List.forall₂_same.mpr fun _ _ => rfl) fun index _ same => ?_
  subst same
  refine .bind (loadElement_corresponds memories (sources.elementAt index)) ?_
  rintro value _ rfl
  exact storeElement_corresponds (destinations.elementAt index).target value

end Slices

variable (memories : world.Memories memory memory') (acts : world.Activations act act')
include memories acts

theorem evalCopies_corresponds {copies copies' : List SliceCopy}
    (rewritten : copies.mapM (rewriteSliceCopy (world.mapping act)) = some copies')
    (preflight : SliceCopyPreflight) :
    Refines observer memory memory'
      (List.Forall₂ fun pair pair' =>
        world.Slices pair.1 pair'.1 ∧ world.Slices pair.2 pair'.2)
      (evalCopies machine act copies preflight)
      (evalCopies (machine.withFunctions functions) act' copies' preflight) := by
  refine .mapM (forall₂_of_mapM rewritten) fun copy copy' copyRewritten => ?_
  simp only [rewriteSliceCopy, Option.bind_eq_bind, Option.bind_eq_some_iff, Option.some.injEq]
    at copyRewritten
  obtain ⟨destination', destinationMapped, source', sourceMapped, rfl⟩ := copyRewritten
  refine .bind (evalSlice_corresponds memories acts destinationMapped)
    fun destination destination' destinations => ?_
  refine .bind (evalSlice_corresponds memories acts sourceMapped)
    fun source source' sources => ?_
  rw [destinations.element, sources.element, destinations.stride, sources.stride,
    destinations.len, sources.len, destinations.overlaps sources]
  refine .bind (.require rfl) fun _ _ _ => ?_
  exact .bind (.require rfl) fun _ _ _ => .pure ⟨destinations, sources⟩

/-! ### Publication -/

theorem evalPayload_corresponds (param : DelegateParam) {argument argument' : CallArgument}
    (rewritten : rewriteCallArgument (world.mapping act) argument = some argument') :
    Refines observer memory memory' world.Datas (evalPayload machine act param argument)
      (evalPayload (machine.withFunctions functions) act' param argument') := by
  cases argument with
  | value value =>
    obtain ⟨value', mapped, rfl⟩ := Option.map_eq_some_iff.mp rewritten
    refine .bind (.lookup _) ?_
    rintro declared _ ⟨rfl, -⟩
    cases declared with
    | scalar => exact evalValue_corresponds memories acts mapped
    | slice =>
      exact .bind (evalSlice_corresponds memories acts mapped) fun _ _ slices =>
        loadSlice_corresponds memories slices
    | array element len =>
      refine .bind (evalSlice_corresponds memories acts mapped) fun _ _ slices => ?_
      rw [slices.len]
      exact .bind (.require rfl) fun _ _ _ => loadSlice_corresponds memories slices
    | tuple | struct | buffer | bufferSpan => exact .throw
  | place | buffer | bufferParam | bufferSpan =>
    obtain ⟨_, _, rfl⟩ := Option.map_eq_some_iff.mp rewritten
    exact .throw
  | sliceElement | arrayWindow | sliceWindow =>
    simp only [rewriteCallArgument, Option.bind_eq_bind, Option.bind_eq_some_iff,
      Option.some.injEq] at rewritten
    obtain ⟨_, _, _, _, rfl⟩ := rewritten
    exact .throw

omit memories acts in
/-- An argument that has to be an operand. -/
theorem valueArgument_corresponds {args args' : List CallArgument}
    (rewritten : args.mapM (rewriteCallArgument (world.mapping act)) = some args')
    {α α' : Type} {R : α → α' → Prop} {next : Value → Run α} {next' : Value → Run α'}
    (position : Nat)
    (rest : ∀ value value', rewriteValue (world.mapping act) value = some value' →
      Refines observer memory memory' R (next value) (next' value')) :
    Refines observer memory memory' R
      (do
        let .value value ← Eval.orThrow .stuck args[position]? | Eval.throw .stuck
        next value)
      (do
        let .value value ← Eval.orThrow .stuck args'[position]? | Eval.throw .stuck
        next' value) := by
  refine .bind (.orThrow (forall₂_getElem? (forall₂_of_mapM rewritten) position))
    fun argument argument' mapped => ?_
  cases argument with
  | value value =>
    obtain ⟨value', valueMapped, rfl⟩ := Option.map_eq_some_iff.mp mapped
    exact rest value value' valueMapped
  | place | buffer | bufferParam | bufferSpan =>
    obtain ⟨_, _, rfl⟩ := Option.map_eq_some_iff.mp mapped
    exact .throw
  | sliceElement | arrayWindow | sliceWindow =>
    simp only [rewriteCallArgument, Option.bind_eq_bind, Option.bind_eq_some_iff,
      Option.some.injEq] at mapped
    obtain ⟨_, _, _, _, rfl⟩ := mapped
    exact .throw

theorem checkGroup_corresponds {args args' : List CallArgument}
    (rewritten : args.mapM (rewriteCallArgument (world.mapping act)) = some args')
    (group : PayloadGroup) :
    Refines observer memory memory' (fun _ _ => True) (checkGroup machine act args group)
      (checkGroup (machine.withFunctions functions) act' args' group) := by
  refine valueArgument_corresponds rewritten _ fun length length' mapped => ?_
  refine .bind (evalI32_corresponds memories acts mapped) ?_
  rintro length _ rfl
  refine .bind (.require rfl) fun _ _ _ => ?_
  refine .forM (List.forall₂_same.mpr fun _ _ => rfl) fun tensor _ same => ?_
  subst same
  refine valueArgument_corresponds rewritten _ fun value value' valueMapped => ?_
  refine .bind (evalSlice_corresponds memories acts valueMapped) fun desc desc' slices => ?_
  rw [slices.len]
  exact (Refines.require rfl).mono fun _ _ _ => trivial

omit memories acts in
/-- Payloads are the same to an observer. -/
theorem payload_observed {payload payload' : List Data}
    (datas : List.Forall₂ world.Datas payload payload') :
    payload.map Data.observed = payload'.map Data.observed := by
  induction datas with
  | nil => rfl
  | cons head _ ih => rw [List.map_cons, List.map_cons, ih, head.observed]

theorem publishDelegate_corresponds (delegate : DelegateId) {args args' : List CallArgument}
    (rewritten : args.mapM (rewriteCallArgument (world.mapping act)) = some args') :
    Refines observer memory memory' (List.Forall₂ world.Writes)
      (publishDelegate machine act delegate args)
      (publishDelegate (machine.withFunctions functions) act' delegate args') := by
  have each := forall₂_of_mapM rewritten
  refine .bind (.lookup _) ?_
  rintro declared _ ⟨rfl, -⟩
  refine .bind (.require (by rw [each.length_eq])) fun _ _ _ => ?_
  refine .bind (.forM (List.forall₂_same.mpr fun _ _ => rfl) fun group _ same =>
    same ▸ checkGroup_corresponds memories acts rewritten group) fun _ _ _ => ?_
  have zipped : List.Forall₂ (fun parameter parameter' : DelegateParam × CallArgument =>
      parameter.1 = parameter'.1
        ∧ rewriteCallArgument (world.mapping act) parameter.2 = some parameter'.2)
      (declared.params.zip args) (declared.params.zip args') :=
    forall₂_zip (List.forall₂_same.mpr fun _ _ => rfl) each
  have payloads : Refines observer memory memory' (List.Forall₂ world.Datas)
      ((declared.params.zip args).mapM fun parameter =>
        evalPayload machine act parameter.1 parameter.2)
      ((declared.params.zip args').mapM fun parameter =>
        evalPayload (machine.withFunctions functions) act' parameter.1 parameter.2) := by
    refine .mapM zipped fun parameter parameter' paired => ?_
    rw [← paired.1]
    exact evalPayload_corresponds memories acts _ paired.2
  refine .bind payloads fun payload payload' datas => ?_
  refine .bind (.emit ?_) fun _ _ _ => .pure .nil
  simp only [observer, Observation.visible, payload_observed datas]

/-! ### Operations -/

omit memories acts in
/-- An evaluation of one store. -/
theorem single_corresponds {action action' : Run Write}
    (refines : Refines observer memory memory' world.Writes action action') :
    Refines observer memory memory' (List.Forall₂ world.Writes)
      (do return [← action]) (do return [← action']) :=
  .bind refines fun _ _ writes => .pure (.cons writes .nil)

theorem controlOutputLoc_corresponds (declared : ControlOutput) {element element' : Option Value}
    (rewritten : rewriteOptional (world.mapping act) element = some element')
    (bounds : BoundsMode) :
    Refines observer memory memory' (World.Locs world.Objects)
      (controlOutputLoc machine act declared element bounds)
      (controlOutputLoc (machine.withFunctions functions) act' declared element' bounds) := by
  have root : World.Locs world.Objects
      { object := .state declared.mirror, path := [], view := .whole, ty := declared.ty }
      { object := .state declared.mirror, path := [], view := .whole, ty := declared.ty } :=
    ⟨.shared rfl, rfl, rfl, rfl, rfl⟩
  cases element with
  | none =>
    cases rewritten
    exact .pure root
  | some index =>
    obtain ⟨index', mapped, rfl⟩ := Option.map_eq_some_iff.mp rewritten
    have projection : rewriteProjection (world.mapping act) (.index index bounds)
        = some (.index index' bounds) := by
      simp only [rewriteProjection, mapped, Option.map_some]
    exact projectLoc_corresponds memories acts root projection

theorem evalStores_corresponds {operation operation' : Operation}
    (rewritten : rewriteOperation (world.mapping act) operation = some operation') :
    Refines observer memory memory' (List.Forall₂ world.Writes)
      (evalStores machine act operation)
      (evalStores (machine.withFunctions functions) act' operation') := by
  cases operation with
  | assign destination value =>
    simp only [rewriteOperation, Option.bind_eq_bind, Option.bind_eq_some_iff,
      Option.some.injEq] at rewritten
    obtain ⟨destination', destinationMapped, value', valueMapped, rfl⟩ := rewritten
    refine .bind (lowerDestination_corresponds memories acts destinationMapped)
      fun loc loc' locs => ?_
    refine .bind (evalRvalue_corresponds memories acts valueMapped) fun data data' datas => ?_
    exact single_corresponds (storeLoc_corresponds locs datas _ _)
  | call results function args =>
    simp only [rewriteOperation, Option.bind_eq_bind, Option.bind_eq_some_iff,
      Option.some.injEq] at rewritten
    obtain ⟨_, _, _, _, rfl⟩ := rewritten
    exact .throw
  | publishDelegate delegate args =>
    obtain ⟨args', mapped, rfl⟩ := Option.map_eq_some_iff.mp rewritten
    exact publishDelegate_corresponds memories acts delegate mapped
  | publishLog site arguments =>
    obtain ⟨arguments', mapped, rfl⟩ := Option.map_eq_some_iff.mp rewritten
    refine .bind (.mapM (forall₂_of_mapM mapped) fun _ _ valueMapped =>
      evalValue_corresponds memories acts valueMapped) fun payload payload' datas => ?_
    refine .bind (.emit ?_) fun _ _ _ => .pure .nil
    simp only [observer, Observation.visible, payload_observed datas]
  | outputStore output element bounds frame value =>
    simp only [rewriteOperation, Option.bind_eq_bind, Option.bind_eq_some_iff,
      Option.some.injEq] at rewritten
    obtain ⟨element', elementMapped, frame', frameMapped, value', valueMapped, rfl⟩ := rewritten
    refine .bind (.lookup _) ?_
    rintro declared _ ⟨rfl, -⟩
    refine .bind (audioElement_corresponds memories acts rfl _ elementMapped frameMapped bounds)
      fun sample sample' elements => ?_
    refine .bind (evalScalar_corresponds memories acts valueMapped) ?_
    rintro value _ rfl
    refine .bind .ask ?_
    rintro _ _ ⟨rfl, rfl⟩
    have present := memories.cells _ _ sample.path elements.object
    rw [elements.path]
    refine .bind (.require (by rw [optionRel_isSome present])) fun _ _ _ => ?_
    exact single_corresponds (storeElement_corresponds elements.target value)
  | controlOutputStore output element bounds value =>
    simp only [rewriteOperation, Option.bind_eq_bind, Option.bind_eq_some_iff,
      Option.some.injEq] at rewritten
    obtain ⟨element', elementMapped, value', valueMapped, rfl⟩ := rewritten
    refine .bind (.lookup _) ?_
    rintro declared _ ⟨rfl, -⟩
    refine .bind (controlOutputLoc_corresponds memories acts declared elementMapped bounds)
      fun loc loc' locs => ?_
    refine .bind (evalValue_corresponds memories acts valueMapped) fun data data' datas => ?_
    exact single_corresponds (storeLoc_corresponds locs.target datas _ _)
  | bufferStore buffer channel index value bounds =>
    simp only [rewriteOperation, Option.bind_eq_bind, Option.bind_eq_some_iff,
      Option.some.injEq] at rewritten
    obtain ⟨buffer', bufferMapped, channel', channelMapped, index', indexMapped, value',
      valueMapped, rfl⟩ := rewritten
    refine .bind (selectBuffer_corresponds memories acts bufferMapped) fun _ _ alike => ?_
    refine .bind (bufferElement_corresponds memories acts alike channelMapped indexMapped bounds)
      fun _ _ elements => ?_
    refine .bind (evalScalar_corresponds memories acts valueMapped) ?_
    rintro value _ rfl
    exact single_corresponds (storeElement_corresponds elements.target value)
  | bufferParamStore ref channel index value bounds =>
    simp only [rewriteOperation, Option.bind_eq_bind, Option.bind_eq_some_iff,
      Option.some.injEq] at rewritten
    obtain ⟨ref', refMapped, channel', channelMapped, index', indexMapped, value', valueMapped,
      rfl⟩ := rewritten
    refine .bind (selectBufferParam_corresponds memories acts refMapped) fun _ _ alike => ?_
    refine .bind (bufferElement_corresponds memories acts alike channelMapped indexMapped bounds)
      fun _ _ elements => ?_
    refine .bind (evalScalar_corresponds memories acts valueMapped) ?_
    rintro value _ rfl
    exact single_corresponds (storeElement_corresponds elements.target value)
  | sliceStore slice index value bounds =>
    simp only [rewriteOperation, Option.bind_eq_bind, Option.bind_eq_some_iff,
      Option.some.injEq] at rewritten
    obtain ⟨slice', sliceMapped, index', indexMapped, value', valueMapped, rfl⟩ := rewritten
    refine .bind (evalSlice_corresponds memories acts sliceMapped) fun desc desc' slices => ?_
    refine .bind (evalI32_corresponds memories acts indexMapped) ?_
    rintro position _ rfl
    rw [slices.len]
    refine .bind (ofExcept_corresponds _) ?_
    rintro position _ rfl
    refine .bind (evalScalar_corresponds memories acts valueMapped) ?_
    rintro value _ rfl
    exact single_corresponds
      (storeElement_corresponds (slices.elementAt position).target value)
  | sliceFill destination value =>
    simp only [rewriteOperation, Option.bind_eq_bind, Option.bind_eq_some_iff,
      Option.some.injEq] at rewritten
    obtain ⟨destination', destinationMapped, value', valueMapped, rfl⟩ := rewritten
    refine .bind (evalSlice_corresponds memories acts destinationMapped)
      fun desc desc' slices => ?_
    refine .bind (evalScalar_corresponds memories acts valueMapped) ?_
    rintro value _ rfl
    rw [slices.len]
    refine .mapM (List.forall₂_same.mpr fun _ _ => rfl) fun index _ same => ?_
    subst same
    exact storeElement_corresponds (slices.elementAt index).target value
  | sliceCopy copies preflight =>
    obtain ⟨copies', mapped, rfl⟩ := Option.map_eq_some_iff.mp rewritten
    exact .throw

end Evaluation

end Onda.Mir
