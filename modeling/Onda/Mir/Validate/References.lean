import Onda.Mir.References
import Onda.Mir.Validate.Facts

/-!
# References of validated bodies

Every local that the body of a validated function mentions is declared.
-/

namespace Onda.Mir

open Structured

namespace Validate

variable {program : Program} {function : Function}

/-- All of the locals are declared. -/
def Declared (function : Function) (localIds : List LocalId) : Prop :=
  ∀ localId ∈ localIds, localId < function.locals.length

@[simp] theorem Declared.nil : Declared function [] := by simp [Declared]

@[simp] theorem declared_append {first second : List LocalId} :
    Declared function (first ++ second) ↔ Declared function first ∧ Declared function second :=
  List.forall_mem_append

theorem Declared.flatMap {α : Type} {list : List α} {reads : α → List LocalId}
    (each : ∀ element ∈ list, Declared function (reads element)) :
    Declared function (list.flatMap reads) := by
  intro localId mem
  obtain ⟨element, inside, reads⟩ := List.mem_flatMap.mp mem
  exact each element inside localId reads

/-- What passes the checks of a list has passed the check of each element. -/
theorem Declared.zipIdx {α : Type} {list : List α} {check : α × Nat → List String}
    {reads : α → List LocalId} (valid : list.zipIdx.flatMap check = [])
    (each : ∀ element index, check (element, index) = [] → Declared function (reads element)) :
    Declared function (list.flatMap reads) := by
  refine .flatMap fun element mem => ?_
  obtain ⟨index, found⟩ := List.getElem?_of_mem mem
  exact each element index (List.flatMap_eq_nil_iff.mp valid (element, index)
    (List.mem_zipIdx_iff_getElem?.mpr found))

/-! ### Operands -/

theorem requireLocal_declared {localId : LocalId} (valid : requireLocal function localId = []) :
    localId < function.locals.length := by
  simpa [requireLocal] using valid

theorem validateValue_declared {value : Value} (valid : validateValue function value = []) :
    Declared function (valueReads value) := by
  cases value with
  | constant => exact .nil
  | localVar localId => simpa [Declared, valueReads] using requireLocal_declared valid

theorem requireI32Value_declared {value : Value} {label : String}
    (valid : requireI32Value program function value label = []) :
    Declared function (valueReads value) := by
  cases value with
  | constant => exact .nil
  | localVar localId =>
    simp only [requireI32Value, errorUnless_eq_nil, valueMatchesScalar, localType, beq_iff_eq,
      Option.bind_eq_bind, Option.bind_eq_some_iff] at valid
    obtain ⟨declared, found, -⟩ := valid
    obtain ⟨inside, -⟩ := List.getElem?_eq_some_iff.mp found
    simpa [Declared, valueReads] using inside

theorem validateOptionalValue_declared {value : Option Value}
    (valid : validateOptionalValue function value = []) :
    Declared function (optionalReads value) := by
  cases value with
  | none => exact .nil
  | some value => exact validateValue_declared (by simpa [validateOptionalValue] using valid)

theorem validateProjections_declared {ty : Option TypeId} {projections : List Projection}
    (valid : validateProjections program function ty projections = []) :
    Declared function (projections.flatMap projectionReads) := by
  induction projections generalizing ty with
  | nil => exact .nil
  | cons projection rest ih =>
    simp only [validateProjections, List.append_eq_nil_iff] at valid
    rw [List.flatMap_cons, declared_append]
    refine ⟨?_, ih valid.2⟩
    cases projection with
    | field => exact .nil
    | index index bounds =>
      have first := valid.1
      simp only [validateProjection] at first
      refine validateValue_declared ?_
      split at first
      · exact (List.append_eq_nil_iff.mp first).1
      · split at first
        · exact (List.append_eq_nil_iff.mp first).1
        all_goals exact (List.append_eq_nil_iff.mp (List.append_eq_nil_iff.mp first).1).1

theorem validatePlace_declared {place : Place} (valid : validatePlace program function place = []) :
    Declared function (placeReads place) := by
  rcases place with ⟨base, projections⟩
  unfold validatePlace at valid
  split at valid
  case h_1 errors ty checked =>
    simp only [List.append_eq_nil_iff] at valid
    refine declared_append.mpr ⟨?_, validateProjections_declared valid.2⟩
    cases base with
    | localVar localId =>
      simp only [validatePlaceBase, Prod.mk.injEq] at checked
      simpa [Declared, baseLocals] using requireLocal_declared (checked.1.trans valid.1)
    | parameter | state | param | eventParam => exact .nil
  case h_2 errors checked =>
    subst valid
    cases base with
    | eventParam param =>
      simp only [validatePlaceBase] at checked
      split at checked
      · split at checked <;> simp at checked
      · simp at checked
    | localVar | parameter | state | param => simp [validatePlaceBase] at checked

theorem requireBuffer_declared {ref : BufferRef} (valid : requireBuffer program function ref = []) :
    Declared function (bufferRefReads ref) := by
  cases ref with
  | direct => exact .nil
  | arrayElement first len selector bounds =>
    simp only [requireBuffer, List.append_eq_nil_iff] at valid
    exact requireI32Value_declared valid.1.2

theorem validateBufferParamRef_declared {ref : BufferParamRef}
    (valid : validateBufferParamRef program function ref = []) :
    Declared function (bufferParamRefReads ref) := by
  cases ref with
  | direct => exact .nil
  | arrayElement span selector bounds =>
    simp only [validateBufferParamRef, List.append_eq_nil_iff] at valid
    exact validateValue_declared valid.1

theorem validateSliceSource_declared {source : SliceSource}
    (valid : validateSliceSource program function source = []) :
    Declared function (sliceSourceReads source) := by
  cases source with
  | place place => exact validatePlace_declared valid
  | buffer ref channel =>
    simp only [validateSliceSource, List.append_eq_nil_iff] at valid
    exact declared_append.mpr ⟨requireBuffer_declared valid.1.1.2,
      validateOptionalValue_declared valid.1.2⟩
  | bufferParam ref channel =>
    simp only [validateSliceSource, List.append_eq_nil_iff] at valid
    exact declared_append.mpr ⟨validateBufferParamRef_declared valid.1.1.1,
      validateOptionalValue_declared valid.1.2⟩
  | constData => exact .nil

theorem validateIntrinsicArguments_declared {intrinsic : Intrinsic} {ty : Option ScalarType}
    {args : List (Value × Nat)}
    (valid : validateIntrinsicArguments program function intrinsic ty args = []) :
    Declared function (args.flatMap fun arg => valueReads arg.1) := by
  induction args generalizing ty with
  | nil => exact .nil
  | cons arg rest ih =>
    simp only [validateIntrinsicArguments, List.append_eq_nil_iff] at valid
    rw [List.flatMap_cons, declared_append]
    refine ⟨validateValue_declared valid.1, ?_⟩
    have later := valid.2
    split at later
    · cases later
    · exact ih (List.append_eq_nil_iff.mp later).2

theorem validateRvalue_declared {value : Rvalue}
    (valid : validateRvalue program function value = []) :
    Declared function (rvalueReads value) := by
  cases value with
  | initAll => exact .nil
  | use value | unary op value => exact validateValue_declared valid
  | load place => exact validatePlace_declared valid
  | intrinsic intrinsic args =>
    simp only [validateRvalue, validateIntrinsic, List.append_eq_nil_iff] at valid
    have each := validateIntrinsicArguments_declared valid.1.2
    intro localId mem
    obtain ⟨arg, inside, reads⟩ := List.mem_flatMap.mp mem
    obtain ⟨index, found⟩ := List.getElem?_of_mem inside
    exact each localId (List.mem_flatMap.mpr
      ⟨(arg, index), List.mem_zipIdx_iff_getElem?.mpr found, reads⟩)
  | makeSlice source start len bounds access =>
    simp only [validateRvalue, List.append_eq_nil_iff, and_assoc] at valid
    exact declared_append.mpr ⟨declared_append.mpr ⟨validateSliceSource_declared valid.1,
      validateValue_declared valid.2.1⟩, validateValue_declared valid.2.2.1⟩
  | bufferParamLen | bufferParamChannels | bufferParamSampleRate | bufferParamIsBound =>
    simp only [validateRvalue, List.append_eq_nil_iff] at valid
    exact validateBufferParamRef_declared valid.1
  | bufferLen | bufferChannels | bufferSampleRate | bufferIsBound =>
    simp only [validateRvalue, List.append_eq_nil_iff] at valid
    exact requireBuffer_declared valid.2
  | bufferLoad ref channel index bounds =>
    simp only [validateRvalue, validateBufferOperands, List.append_eq_nil_iff, and_assoc] at valid
    obtain ⟨-, ref, channel, index, -⟩ := valid
    exact declared_append.mpr ⟨declared_append.mpr ⟨requireBuffer_declared ref,
      validateOptionalValue_declared channel⟩, validateValue_declared index⟩
  | bufferParamLoad ref channel index bounds =>
    simp only [validateRvalue, validateBufferOperands, List.append_eq_nil_iff, and_assoc] at valid
    obtain ⟨ref, -, channel, index, -⟩ := valid
    exact declared_append.mpr ⟨declared_append.mpr ⟨validateBufferParamRef_declared ref,
      validateOptionalValue_declared channel⟩, validateValue_declared index⟩
  | inputLoad port element bounds frame | outputLoad port element bounds frame =>
    simp only [validateRvalue, validateAudioOperands, List.append_eq_nil_iff, and_assoc] at valid
    obtain ⟨-, -, element, frame, -⟩ := valid
    exact declared_append.mpr ⟨validateOptionalValue_declared element, validateValue_declared frame⟩
  | processFrame | constDataLoad =>
    simp only [validateRvalue, List.append_eq_nil_iff] at valid
    exact validateValue_declared valid.1.2
  | cast | sliceLen =>
    simp only [validateRvalue, List.append_eq_nil_iff] at valid
    exact validateValue_declared valid.1
  | binary op lhs rhs | compare op lhs rhs | normalizeIndex lhs rhs bounds
  | sliceLoad lhs rhs bounds =>
    simp only [validateRvalue, List.append_eq_nil_iff, and_assoc] at valid
    refine declared_append.mpr ⟨validateValue_declared valid.1, validateValue_declared ?_⟩
    first | exact valid.2 | exact valid.2.1

/-! ### Statements -/

theorem validateCallArgument_declared {argument : CallArgument}
    (valid : validateCallArgument program function argument = []) :
    Declared function (callArgumentReads argument) := by
  cases argument with
  | value value => exact validateValue_declared valid
  | place place => exact validatePlace_declared valid
  | sliceElement slice index bounds =>
    simp only [validateCallArgument, List.append_eq_nil_iff] at valid
    exact declared_append.mpr ⟨validateValue_declared valid.1.1, requireI32Value_declared valid.1.2⟩
  | arrayWindow array start bounds =>
    simp only [validateCallArgument, List.append_eq_nil_iff] at valid
    exact declared_append.mpr ⟨validatePlace_declared valid.1.1, validateValue_declared valid.1.2⟩
  | sliceWindow slice start bounds =>
    simp only [validateCallArgument, List.append_eq_nil_iff] at valid
    exact declared_append.mpr ⟨validateValue_declared valid.1.1.1,
      validateValue_declared valid.1.1.2⟩
  | buffer ref =>
    simp only [validateCallArgument, List.append_eq_nil_iff] at valid
    exact requireBuffer_declared valid.2
  | bufferParam ref =>
    cases ref with
    | direct => exact .nil
    | arrayElement span selector bounds =>
      simp only [validateCallArgument, List.append_eq_nil_iff] at valid
      exact requireI32Value_declared valid.2
  | bufferSpan => exact .nil

theorem validateOperation_declared {operation : Operation}
    (valid : validateOperation program function operation = []) :
    Declared function (operationWrites operation ++ operationReads operation) := by
  cases operation with
  | assign destination value =>
    simp only [validateOperation, validateAssign, List.append_eq_nil_iff, and_assoc] at valid
    have place := declared_append.mp (validatePlace_declared valid.1)
    exact declared_append.mpr ⟨place.1,
      declared_append.mpr ⟨place.2, validateRvalue_declared valid.2.1⟩⟩
  | call results callee args =>
    simp only [validateOperation, validateCall] at valid
    split at valid
    · cases valid
    · simp only [List.append_eq_nil_iff, and_assoc] at valid
      obtain ⟨-, -, -, stored, -, passed, -⟩ := valid
      refine declared_append.mpr ⟨fun localId mem => requireLocal_declared
        (List.flatMap_eq_nil_iff.mp stored localId mem), .flatMap fun argument mem => ?_⟩
      exact validateCallArgument_declared (List.flatMap_eq_nil_iff.mp passed argument mem)
  | publishDelegate delegate args =>
    simp only [validateOperation, validatePublishDelegate] at valid
    split at valid
    · cases valid
    · simp only [List.append_eq_nil_iff] at valid
      refine Declared.zipIdx valid.2 fun argument index valid => ?_
      cases argument with
      | value value => exact validateValue_declared (List.append_eq_nil_iff.mp valid).1
      | _ => cases valid
  | publishLog site arguments =>
    simp only [validateOperation, validatePublishLog] at valid
    split at valid
    · cases valid
    · simp only [List.append_eq_nil_iff] at valid
      exact Declared.zipIdx valid.2 fun argument index valid =>
        validateValue_declared (List.append_eq_nil_iff.mp valid).1
  | outputStore output element bounds frame value =>
    simp only [validateOperation, List.append_eq_nil_iff, and_assoc] at valid
    obtain ⟨-, -, element, frame, value, -⟩ := valid
    refine declared_append.mpr ⟨.nil, ?_⟩
    exact declared_append.mpr ⟨declared_append.mpr ⟨validateOptionalValue_declared element,
      validateValue_declared frame⟩, validateValue_declared value⟩
  | controlOutputStore output element bounds value =>
    simp only [validateOperation, List.append_eq_nil_iff, and_assoc] at valid
    obtain ⟨-, -, element, value, -⟩ := valid
    refine declared_append.mpr ⟨.nil, ?_⟩
    exact declared_append.mpr ⟨validateOptionalValue_declared element, validateValue_declared value⟩
  | bufferStore ref channel index value bounds =>
    simp only [validateOperation, List.append_eq_nil_iff, and_assoc] at valid
    obtain ⟨-, ref, channel, index, value, -⟩ := valid
    refine declared_append.mpr ⟨.nil, ?_⟩
    exact declared_append.mpr ⟨declared_append.mpr ⟨declared_append.mpr
      ⟨requireBuffer_declared ref, validateOptionalValue_declared channel⟩,
      validateValue_declared index⟩, validateValue_declared value⟩
  | bufferParamStore ref channel index value bounds =>
    simp only [validateOperation, List.append_eq_nil_iff, and_assoc] at valid
    obtain ⟨ref, channel, index, value, -⟩ := valid
    refine declared_append.mpr ⟨.nil, ?_⟩
    exact declared_append.mpr ⟨declared_append.mpr ⟨declared_append.mpr
      ⟨validateBufferParamRef_declared ref, validateOptionalValue_declared channel⟩,
      validateValue_declared index⟩, validateValue_declared value⟩
  | sliceStore slice index value bounds =>
    simp only [validateOperation, List.append_eq_nil_iff, and_assoc] at valid
    obtain ⟨slice, index, value, -⟩ := valid
    refine declared_append.mpr ⟨.nil, ?_⟩
    exact declared_append.mpr ⟨declared_append.mpr ⟨validateValue_declared slice,
      validateValue_declared index⟩, validateValue_declared value⟩
  | sliceFill destination value =>
    simp only [validateOperation, List.append_eq_nil_iff, and_assoc] at valid
    obtain ⟨destination, value, -⟩ := valid
    refine declared_append.mpr ⟨.nil, ?_⟩
    exact declared_append.mpr ⟨validateValue_declared destination, validateValue_declared value⟩
  | sliceCopy copies preflight =>
    simp only [validateOperation, List.append_eq_nil_iff] at valid
    refine .flatMap fun copy mem => ?_
    have each := List.flatMap_eq_nil_iff.mp valid.2 copy mem
    simp only [validateSliceCopy, List.append_eq_nil_iff] at each
    exact declared_append.mpr ⟨validateValue_declared each.1.1, validateValue_declared each.1.2⟩

theorem validateReturn_declared {values : List Value}
    (valid : validateReturn program function values = []) :
    Declared function (values.flatMap valueReads) := by
  simp only [validateReturn, List.append_eq_nil_iff] at valid
  exact Declared.zipIdx valid.2 fun value index valid =>
    validateValue_declared (List.append_eq_nil_iff.mp valid).1

mutual

theorem validateStatement_declared : ∀ {depth : Nat} (statement : Statement),
    validateStatement program function depth statement = [] →
    Declared function (nestedWrites statement) ∧ Declared function (nestedReads statement)
  | _, .op _, valid => declared_append.mp (validateOperation_declared valid)
  | _, .ite _ thenBlock elseBlock, valid => by
    simp only [validateStatement, List.append_eq_nil_iff] at valid
    have first := validateBlock_declared thenBlock valid.1.2
    have second := validateBlock_declared elseBlock valid.2
    exact ⟨declared_append.mpr ⟨first.1, second.1⟩,
      declared_append.mpr ⟨validateValue_declared valid.1.1.1,
        declared_append.mpr ⟨first.2, second.2⟩⟩⟩
  | _, .loop body, valid => validateBlock_declared body valid
  | _, .brk, _ | _, .cont, _ => ⟨.nil, .nil⟩
  | _, .ret _, valid => ⟨.nil, validateReturn_declared valid⟩

/-- Every local that a valid body mentions is declared. -/
theorem validateBlock_declared : ∀ {depth : Nat} (block : Block),
    validateBlock program function depth block = [] →
    Declared function (blockWrites block) ∧ Declared function (blockReads block)
  | _, [], _ => ⟨.nil, .nil⟩
  | _, statement :: rest, valid => by
    simp only [validateBlock, List.append_eq_nil_iff] at valid
    have first := validateStatement_declared statement valid.1
    have second := validateBlock_declared rest valid.2
    exact ⟨declared_append.mpr ⟨first.1, second.1⟩, declared_append.mpr ⟨first.2, second.2⟩⟩

end

end Validate

end Onda.Mir
