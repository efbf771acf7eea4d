import Onda.Mir.CorrespondingStores

/-!
# Corresponding calls

Arguments are evaluated in the caller and bound to the parameters of the callee.
The callee of the other program may have fewer parameters, at other positions; the
arguments of the others must then not be able to fail.
-/

namespace Onda.Mir

open Structured Structured.Eval

section Evaluation

variable {machine : Machine} {functions : List Function} {world : World} {memory memory' : Memory}
  {act act' : Activation}

/-- Storage and initial content of a parameter. -/
structure World.Bounds (world : World) (bound bound' : Loc × List Write) : Prop where
  loc : World.Locs world.Objects bound.1 bound'.1
  stores : List.Forall₂ world.Writes bound.2 bound'.2

theorem World.Locs.window {R : Object → Object → Prop} {loc loc' : Loc}
    (locs : World.Locs R loc loc') (start : Nat) (ty : TypeId) :
    World.Locs R (loc.window start ty) (loc'.window start ty) := by
  unfold Loc.window
  rw [locs.view]
  split
  · exact ⟨locs.object, locs.path, rfl, rfl, locs.neutral⟩
  · exact ⟨locs.object, locs.path, rfl, rfl, locs.neutral⟩
  · exact ⟨locs.object, locs.path, rfl, rfl, locs.neutral⟩

theorem bindData_corresponds {callee : Nat} {index index' : ParameterId}
    (objects : world.Objects (.argument callee index) (.argument callee index')) (ty : TypeId)
    {data data' : Data} (datas : world.Datas data data') :
    Refines observer memory memory' world.Bounds (bindData machine callee index ty data)
      (bindData (machine.withFunctions functions) callee index' ty data') := by
  have locs : World.Locs world.Objects (argumentLoc callee index ty)
      (argumentLoc callee index' ty) := ⟨objects, rfl, rfl, rfl, rfl⟩
  exact .bind (storeLoc_corresponds locs.target datas false false) fun _ _ writes =>
    .pure ⟨locs, .cons writes .nil⟩

theorem bindLoc_corresponds (callee : Nat) (index index' : ParameterId) (ty : TypeId)
    {loc loc' : Loc} (locs : World.Locs world.Objects loc loc') :
    Refines observer memory memory' world.Bounds (bindLoc machine callee index ty loc)
      (bindLoc (machine.withFunctions functions) callee index' ty loc') := by
  unfold bindLoc
  rw [shape_withFunctions, shape_withFunctions, locs.ty]
  refine .bind (.lookup _) ?_
  rintro declared _ ⟨rfl, -⟩
  refine .bind (.lookup _) ?_
  rintro actual _ ⟨rfl, -⟩
  refine .bind (.require rfl) fun _ _ _ => .pure ⟨?_, .nil⟩
  exact ⟨locs.object, locs.path, locs.view, rfl, locs.neutral⟩

theorem arrayParameter_corresponds (ty : TypeId) :
    Refines observer memory memory' (fun value value' => value = value')
      (arrayParameter machine ty) (arrayParameter (machine.withFunctions functions) ty) := by
  refine .bind (.lookup _) ?_
  rintro declared _ ⟨rfl, -⟩
  cases declared with
  | array element len => exact .pure rfl
  | scalar | tuple | struct | slice | buffer | bufferSpan => exact .throw

variable (memories : world.Memories memory memory') (acts : world.Activations act act')
include memories acts

theorem evalSpan_corresponds {span span' : BufferSpanRef}
    (rewritten : rewriteBufferSpanRef (world.mapping act) span = some span') :
    Refines observer memory memory' world.Leaves (evalSpan act span) (evalSpan act' span') := by
  cases span with
  | interface first len =>
    cases rewritten
    exact .pure (.span first len)
  | parameter span start len =>
    obtain ⟨span', mapped, rfl⟩ := Option.map_eq_some_iff.mp rewritten
    refine .bind (.orThrow (acts.params span span' mapped)) fun loc loc' locs => ?_
    refine .bind .ask ?_
    rintro read read' ⟨rfl, rfl⟩
    have content := memories.cells _ _ (loc.cell []) locs.object
    rw [locs.cell]
    generalize read loc.object (loc.cell []) = leaf at content
    generalize read' loc'.object (loc.cell []) = leaf' at content
    cases content with
    | none => exact .throw
    | some leaves =>
      cases leaves with
      | span first sourceLen => exact .bind (.require rfl) fun _ _ _ => .pure (.span _ _)
      | scalar | slice | buffer => exact .throw

theorem bindArgument_corresponds {callee : Nat} {index index' : ParameterId}
    (objects : world.Objects (.argument callee index) (.argument callee index'))
    {param param' : FunctionParam} (mode : param'.mode = param.mode) (ty : param'.ty = param.ty)
    {argument argument' : CallArgument}
    (rewritten : rewriteCallArgument (world.mapping act) argument = some argument') :
    Refines observer memory memory' world.Bounds
      (bindArgument machine act callee index param argument)
      (bindArgument (machine.withFunctions functions) act' callee index' param' argument') := by
  unfold bindArgument
  rw [mode, ty]
  generalize param.mode = mode
  generalize param.ty = ty
  cases argument with
  | value value =>
    obtain ⟨value', mapped, rfl⟩ := Option.map_eq_some_iff.mp rewritten
    cases mode with
    | value =>
      exact .bind (evalValue_corresponds memories acts mapped) fun _ _ datas =>
        bindData_corresponds objects ty datas
    | readOnlyReference | readWriteReference | resultReference => exact .throw
  | place place =>
    obtain ⟨place', mapped, rfl⟩ := Option.map_eq_some_iff.mp rewritten
    cases mode with
    | value =>
      refine .bind (lowerPlace_corresponds memories acts mapped) fun _ _ locs => ?_
      exact .bind (readLoc_corresponds memories locs) fun _ _ datas =>
        bindData_corresponds objects ty datas
    | readOnlyReference | readWriteReference | resultReference =>
      exact .bind (lowerPlace_corresponds memories acts mapped) fun _ _ locs =>
        bindLoc_corresponds callee index index' ty locs
  | sliceElement slice position bounds =>
    simp only [rewriteCallArgument, Option.bind_eq_bind, Option.bind_eq_some_iff,
      Option.some.injEq] at rewritten
    obtain ⟨slice', sliceMapped, position', positionMapped, rfl⟩ := rewritten
    cases mode with
    | value => exact .throw
    | readOnlyReference | readWriteReference | resultReference =>
      refine .bind (evalSlice_corresponds memories acts sliceMapped) fun desc desc' slices => ?_
      refine .bind (evalI32_corresponds memories acts positionMapped) ?_
      rintro position _ rfl
      rw [slices.len, slices.element]
      refine .bind (ofExcept_corresponds _) ?_
      rintro position _ rfl
      refine .bind (.require rfl) fun _ _ _ => ?_
      have element := slices.elementAt position
      exact bindLoc_corresponds callee index index' ty
        ⟨element.object, element.path, rfl, rfl, element.neutral⟩
  | arrayWindow array start bounds =>
    simp only [rewriteCallArgument, Option.bind_eq_bind, Option.bind_eq_some_iff,
      Option.some.injEq] at rewritten
    obtain ⟨array', arrayMapped, start', startMapped, rfl⟩ := rewritten
    cases mode with
    | value => exact .throw
    | readOnlyReference | readWriteReference | resultReference =>
      refine .bind (lowerPlace_corresponds memories acts arrayMapped) fun loc loc' locs => ?_
      rw [locs.ty]
      refine .bind (arrayParameter_corresponds _) ?_
      rintro source _ rfl
      refine .bind (arrayParameter_corresponds _) ?_
      rintro required _ rfl
      refine .bind (.require rfl) fun _ _ _ => ?_
      refine .bind (.require (by rw [shape_withFunctions, shape_withFunctions])) fun _ _ _ => ?_
      refine .bind (evalI32_corresponds memories acts startMapped) ?_
      rintro start _ rfl
      refine .bind (ofExcept_corresponds _) ?_
      rintro start _ rfl
      exact bindLoc_corresponds callee index index' ty (locs.window start ty)
  | sliceWindow slice start bounds =>
    simp only [rewriteCallArgument, Option.bind_eq_bind, Option.bind_eq_some_iff,
      Option.some.injEq] at rewritten
    obtain ⟨slice', sliceMapped, start', startMapped, rfl⟩ := rewritten
    cases mode with
    | value => exact .throw
    | readOnlyReference | readWriteReference | resultReference =>
      refine .bind (evalSlice_corresponds memories acts sliceMapped) fun desc desc' slices => ?_
      refine .bind (arrayParameter_corresponds _) ?_
      rintro required _ rfl
      cases slices with
      | slice sliceObjects =>
        refine .bind (.require rfl) fun _ _ _ => ?_
        refine .bind (.require rfl) fun _ _ _ => ?_
        refine .bind (evalI32_corresponds memories acts startMapped) ?_
        rintro start _ rfl
        refine .bind (ofExcept_corresponds _) ?_
        rintro start _ rfl
        exact bindLoc_corresponds callee index index' ty ⟨sliceObjects, rfl, rfl, rfl, rfl⟩
  | buffer buffer =>
    obtain ⟨buffer', mapped, rfl⟩ := Option.map_eq_some_iff.mp rewritten
    cases mode with
    | value | readOnlyReference | readWriteReference | resultReference =>
      refine .bind (selectBuffer_corresponds memories acts mapped) fun _ _ alike => ?_
      rw [alike.buffer]
      exact bindData_corresponds objects ty (.leaf (.buffer _))
  | bufferParam ref =>
    obtain ⟨ref', mapped, rfl⟩ := Option.map_eq_some_iff.mp rewritten
    cases mode with
    | value => cases ref <;> exact .throw
    | readOnlyReference | readWriteReference | resultReference =>
      have selected : Refines observer memory memory' SelectedBuffer.Alike
          (selectBufferParam machine act ref)
          (selectBufferParam (machine.withFunctions functions) act' ref') :=
        selectBufferParam_corresponds memories acts mapped
      cases ref with
      | direct span =>
        obtain ⟨span', spanMapped, rfl⟩ := Option.map_eq_some_iff.mp mapped
        exact .bind (.orThrow (acts.params span span' spanMapped)) fun _ _ locs =>
          bindLoc_corresponds callee index index' ty locs
      | arrayElement span selector bounds =>
        simp only [rewriteBufferParamRef, Option.bind_eq_bind, Option.bind_eq_some_iff,
          Option.some.injEq] at mapped
        obtain ⟨_, _, _, _, rfl⟩ := mapped
        refine .bind selected fun _ _ alike => ?_
        rw [alike.buffer]
        exact bindData_corresponds objects ty (.leaf (.buffer _))
  | bufferSpan span =>
    obtain ⟨span', mapped, rfl⟩ := Option.map_eq_some_iff.mp rewritten
    cases mode with
    | value =>
      exact .bind (evalSpan_corresponds memories acts mapped) fun _ _ leaves =>
        bindData_corresponds objects ty (.leaf leaves)
    | readOnlyReference | readWriteReference | resultReference => exact .throw

end Evaluation

end Onda.Mir
