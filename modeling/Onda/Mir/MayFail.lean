import Onda.Mir.QuietEval
import Onda.Mir.RangeRvalues
import Onda.Mir.Stores
import Onda.Mir.Validate.Facts

/-!
# Evaluations that may fail

The part of the effects analysis (`analysis.rs`) that says whether an rvalue, or an
argument of a call, can encounter a safety failure, and its soundness: otherwise the
evaluation is quiet.  A clamped index is taken not to fail, which needs a collection
that is not empty.
-/

namespace Onda.Mir

open Structured Structured.Eval

namespace Analysis

/-! ### The analysis -/

/-- A fixed collection: clamping does not fail. -/
def markCheckedBounds (bounds : BoundsMode) : Bool := bounds == .checked

/-- A collection of dynamic length, which may be empty. -/
def markDynamicBounds (bounds : BoundsMode) : Bool := bounds != .unchecked

def valueScalarType (types : List MirType) (locals : List Local) : Value → Option ScalarType
  | .constant value => some value.ty
  | .localVar localId => do
    match types[(← locals[localId]?).ty]? with
    | some (.scalar scalar) => some scalar
    | _ => none

def scanPlaceIndices (place : Place) : Bool :=
  place.projections.any fun
    | .index _ bounds => markCheckedBounds bounds
    | .field _ => false

def scanBufferRef : BufferRef → Bool
  | .direct _ => false
  | .arrayElement _ _ _ bounds => markCheckedBounds bounds

def markBufferParamRef : BufferParamRef → Bool
  | .direct _ => false
  | .arrayElement _ _ bounds => markCheckedBounds bounds

def scanSliceSource : SliceSource → Bool
  | .place place => scanPlaceIndices place
  | .buffer buffer _ => scanBufferRef buffer
  | .bufferParam parameter _ => markBufferParamRef parameter
  | .constData _ => false

def isNonzeroInteger : Value → Bool
  | .constant (.i32 value) => value != 0
  | .constant (.i64 value) => value != 0
  | _ => false

def isDivision : BinaryOp → Bool
  | .divide | .remainder => true
  | _ => false

/-- `rvalue_may_fail` -/
def rvalueMayFail (types : List MirType) (locals : List Local) : Rvalue → Bool
  | .binary op lhs rhs =>
    isDivision op
      && (valueScalarType types locals lhs == some .i32
        || valueScalarType types locals lhs == some .i64)
      && !isNonzeroInteger rhs
  | .load place => scanPlaceIndices place
  | .processFrame _ => true
  | .normalizeIndex _ _ bounds => markDynamicBounds bounds
  | .inputLoad _ _ bounds _ | .outputLoad _ _ bounds _ => markCheckedBounds bounds
  | .bufferLoad buffer _ _ bounds => scanBufferRef buffer || markCheckedBounds bounds
  | .bufferParamLoad parameter _ _ bounds =>
    markBufferParamRef parameter || markCheckedBounds bounds
  | .bufferLen buffer | .bufferChannels buffer | .bufferSampleRate buffer
  | .bufferIsBound buffer => scanBufferRef buffer
  | .bufferParamLen parameter | .bufferParamChannels parameter
  | .bufferParamSampleRate parameter | .bufferParamIsBound parameter =>
    markBufferParamRef parameter
  | .constDataLoad _ _ bounds => markCheckedBounds bounds
  | .makeSlice source _ _ bounds _ => scanSliceSource source || markCheckedBounds bounds
  | .sliceLoad _ _ bounds => markDynamicBounds bounds
  | .use _ | .initAll | .unary .. | .compare .. | .cast .. | .intrinsic .. | .sliceLen _ => false

end Analysis

/-! ### Collections that are not empty -/

def BufferChannels.Nonempty : BufferChannels → Prop
  | .static channels => channels ≠ 0
  | .mono | .dynamic => True

def MirType.Nonempty : MirType → Prop
  | .array _ len => len ≠ 0
  | .buffer _ channels _ => channels.Nonempty
  | .bufferSpan _ channels _ len => len ≠ 0 ∧ channels.Nonempty
  | _ => True

/-- The collections a program declares have elements. -/
structure Program.Nonempty (program : Program) : Prop where
  types : ∀ ty ∈ program.types, ty.Nonempty
  buffers : ∀ buffer ∈ program.interface.buffers, buffer.channels.Nonempty

def BufferRef.Nonempty : BufferRef → Prop
  | .direct _ => True
  | .arrayElement _ len _ _ => len ≠ 0

def SliceSource.Nonempty : SliceSource → Prop
  | .buffer ref _ => ref.Nonempty
  | .place _ | .bufferParam .. | .constData _ => True

/-- A clamped load from a table without elements, which has to fail. -/
def Rvalue.LoadsEmpty (program : Program) : Rvalue → Prop
  | .constDataLoad data _ .clamp =>
    ∃ declared, program.constData[data]? = some declared ∧ declared.values = []
  | _ => False

/-! ### Bounds -/

section Bounds

variable {bounds : BoundsMode} {reason : Stop}

theorem normalizeIndex_escapes {index : Int} {len : Nat}
    (unchecked : Analysis.markCheckedBounds bounds = false) (nonempty : len ≠ 0)
    (failed : normalizeIndex index len bounds = .error reason) : reason.Escapes := by
  cases bounds with
  | checked => cases unchecked
  | clamp =>
    simp only [normalizeIndex, nonempty, if_false] at failed
    cases failed
  | unchecked =>
    simp only [normalizeIndex] at failed
    split at failed
    · cases failed
    · cases failed
      trivial

theorem normalizeIndex_unchecked_escapes {index : Int} {len : Nat}
    (failed : normalizeIndex index len .unchecked = .error reason) : reason.Escapes := by
  simp only [normalizeIndex] at failed
  split at failed
  · cases failed
  · cases failed
    trivial

theorem normalizeRange_escapes {start len : Int} {sourceLen : Nat}
    (unchecked : Analysis.markCheckedBounds bounds = false)
    (failed : normalizeRange start len sourceLen bounds = .error reason) : reason.Escapes := by
  cases bounds with
  | checked => cases unchecked
  | clamp => cases failed
  | unchecked =>
    simp only [normalizeRange] at failed
    split at failed
    · cases failed
    · cases failed
      trivial

theorem Quiet.ofExcept {α : Type} {env : Memory} {result : Except Stop α}
    (escapes : ∀ reason, result = .error reason → reason.Escapes) :
    Quiet env (Onda.Mir.ofExcept result) := by
  cases result with
  | ok value => exact .pure value
  | error reason => exact .throw (escapes reason rfl)

theorem unchecked_of_not_dynamic (unchecked : Analysis.markDynamicBounds bounds = false)
    : bounds = .unchecked := by
  cases bounds <;> simp_all [Analysis.markDynamicBounds]

end Bounds

/-! ### Places and buffers -/

section Quiet

variable {machine : Machine} {act : Activation} {env : Memory}
  (nonempty : machine.program.Nonempty)
include nonempty

theorem array_nonempty {ty element : TypeId} {len : Nat}
    (declared : machine.program.types[ty]? = some (.array element len)) : len ≠ 0 :=
  nonempty.types _ (List.mem_of_getElem? declared)

theorem projectLoc_quiet (loc : Loc) {projection : Projection}
    (total : ∀ index bounds, projection = .index index bounds →
      Analysis.markCheckedBounds bounds = false) :
    Quiet env (projectLoc machine act loc projection) := by
  cases projection with
  | field field =>
    refine .bind (.orThrow (by exact trivial) _) fun declared => ?_
    split
    · exact .bind (.orThrow (by exact trivial) _) fun _ =>
        .bind (.orThrow (by exact trivial) _) fun _ => .pure _
    · exact .throw (by exact trivial)
  | index index bounds =>
    refine .seq (.orThrow (by exact trivial) _) (fun _ run => orThrow_ok run) fun declared found => ?_
    split
    · refine .bind (evalI32_quiet index) fun position => .bind (.ofExcept ?_) fun _ => .pure _
      exact fun _ failed =>
        normalizeIndex_escapes (total index bounds rfl) (array_nonempty nonempty found) failed
    · exact .throw (by exact trivial)

theorem lowerPlace_quiet {place : Place} (total : Analysis.scanPlaceIndices place = false) :
    Quiet env (lowerPlace machine act place) := by
  refine .bind (.orThrow (by exact trivial) _) fun root => .foldlM fun loc projection mem => ?_
  refine projectLoc_quiet nonempty loc fun index bounds same => ?_
  subst same
  simpa using (List.any_eq_false.mp total) _ mem

omit nonempty in
theorem selectBuffer_quiet {ref : BufferRef} (filled : ref.Nonempty)
    (total : Analysis.scanBufferRef ref = false) : Quiet env (selectBuffer machine act ref) := by
  refine .bind (.orThrow (by exact trivial) _) fun declared => ?_
  cases ref with
  | direct buffer => exact .pure _
  | arrayElement first len selector bounds =>
    refine .bind (evalI32_quiet selector) fun position => .bind (.ofExcept ?_) fun _ => .pure _
    exact fun _ failed => normalizeIndex_escapes total filled failed

/-- The declared channels of the selected buffer. -/
theorem selectBuffer_nonempty (ref : BufferRef) :
    Returns env (fun selected => selected.channels.Nonempty) (selectBuffer machine act ref) := by
  intro selected run
  obtain ⟨declared, found, continued⟩ := bind_ok run
  have filled := nonempty.buffers _ (List.mem_of_getElem? (orThrow_ok found))
  cases ref with
  | direct buffer =>
    cases continued
    exact filled
  | arrayElement first len selector bounds =>
    obtain ⟨position, -, continued⟩ := bind_ok continued
    obtain ⟨offset, -, continued⟩ := bind_ok continued
    cases continued
    exact filled

theorem selectBufferParam_quiet {ref : BufferParamRef}
    (total : Analysis.markBufferParamRef ref = false) :
    Quiet env (selectBufferParam machine act ref) := by
  refine .bind (.orThrow (by exact trivial) _) fun loc => ?_
  refine .seq (.orThrow (by exact trivial) _) (fun _ run => orThrow_ok run) fun declared found => ?_
  split
  · refine .bind (fetch_quiet loc) fun data => ?_
    split
    · exact .pure _
    · exact .throw (by exact trivial)
  case h_2 span selector bounds element channels access len =>
    have filled : len ≠ 0 := (nonempty.types _ (List.mem_of_getElem? found)).1
    refine .bind (evalI32_quiet selector) fun position => .bind (.ofExcept ?_) fun offset => ?_
    · exact fun _ failed => normalizeIndex_escapes total filled failed
    · refine .bind (fetch_quiet loc) fun data => ?_
      split
      · exact .pure _
      · exact .throw (by exact trivial)
  · exact .throw (by exact trivial)

theorem selectBufferParam_nonempty (ref : BufferParamRef) :
    Returns env (fun selected => selected.channels.Nonempty)
      (selectBufferParam machine act ref) := by
  intro selected run
  obtain ⟨loc, -, continued⟩ := bind_ok run
  obtain ⟨declared, found, continued⟩ := bind_ok continued
  have filled := nonempty.types _ (List.mem_of_getElem? (orThrow_ok found))
  split at continued
  · obtain ⟨data, -, continued⟩ := bind_ok continued
    split at continued
    · cases continued
      exact filled
    · cases continued
  · obtain ⟨position, -, continued⟩ := bind_ok continued
    obtain ⟨offset, -, continued⟩ := bind_ok continued
    obtain ⟨data, -, continued⟩ := bind_ok continued
    split at continued
    · cases continued
      exact filled.2
    · cases continued
  · cases continued

omit nonempty in
theorem channelCount_nonzero {channels : BufferChannels} (filled : channels.Nonempty)
    (buffer : BufferId) : channelCount machine buffer channels ≠ 0 := by
  cases channels with
  | mono => exact one_ne_zero
  | static channels => exact filled
  | dynamic => exact (machine.host.buffers buffer).channels_pos.ne'

omit nonempty in
theorem bufferElement_quiet {selected : SelectedBuffer} (filled : selected.channels.Nonempty)
    (channel : Option Value) (index : Value) {bounds : BoundsMode}
    (total : Analysis.markCheckedBounds bounds = false) :
    Quiet env (bufferElement machine act selected channel index bounds) := by
  refine .bind (evalI32_quiet index) fun position => .bind (.ofExcept ?_) fun frame => ?_
  · exact fun _ failed => normalizeIndex_escapes total
      (machine.host.buffers selected.buffer).frames_pos.ne' failed
  · refine .bind ?_ fun _ => .pure _
    cases channel with
    | none => exact .pure _
    | some channel =>
      refine .bind (evalI32_quiet channel) fun position => .bind (.ofExcept ?_) fun _ => .pure _
      exact fun _ failed =>
        normalizeIndex_escapes total (channelCount_nonzero filled selected.buffer) failed

omit nonempty in
theorem bufferSlice_quiet (selected : SelectedBuffer) (channel : Option Value) :
    Quiet env (bufferSlice machine act selected channel) := by
  cases channel with
  | none => exact .pure _
  | some channel => exact .bind (evalI32_quiet channel) fun _ => .pure _

theorem sliceSource_quiet {source : SliceSource} (filled : source.Nonempty)
    (total : Analysis.scanSliceSource source = false) :
    Quiet env (sliceSource machine act source) := by
  cases source with
  | place place =>
    refine .bind (lowerPlace_quiet nonempty total) fun loc => ?_
    refine .bind (.orThrow (by exact trivial) _) fun declared => ?_
    split
    · exact .pure _
    · exact .bind (.orThrow (by exact trivial) _) fun _ => .pure _
    · refine .bind (readLoc_quiet loc) fun data => ?_
      split
      · exact .pure _
      · exact .throw (by exact trivial)
    · exact .throw (by exact trivial)
  | buffer ref channel =>
    exact .bind (selectBuffer_quiet filled total) fun selected => bufferSlice_quiet selected channel
  | bufferParam parameter channel =>
    exact .bind (selectBufferParam_quiet nonempty total) fun selected =>
      bufferSlice_quiet selected channel
  | constData data => exact .bind (.orThrow (by exact trivial) _) fun _ => .pure _

theorem audioElement_quiet (object : Object) (ty : TypeId) (element : Option Value)
    {bounds : BoundsMode} (total : Analysis.markCheckedBounds bounds = false) (frame : Value) :
    Quiet env (audioElement machine act object ty element bounds frame) := by
  refine .seq (.orThrow (by exact trivial) _) (fun _ run => orThrow_ok run) fun declared found => ?_
  have framed (frame : Value) (rest : BitVec 32 → Element) :
      Quiet env (do
        let frame ← evalI32 machine act frame
        Eval.require (0 ≤ frame.toInt) .undefined
        Pure.pure (rest frame)) :=
    .bind (evalI32_quiet frame) fun frame =>
      .bind (.require (by exact trivial) _) fun _ => .pure _
  split
  · exact framed frame _
  · refine .bind (.orThrow (by exact trivial) _) fun scalar => ?_
    refine .bind (.orThrow (by exact trivial) _) fun index => ?_
    refine .bind (evalI32_quiet index) fun position => .bind (.ofExcept ?_) fun port => ?_
    · exact fun _ failed => normalizeIndex_escapes total (array_nonempty nonempty found) failed
    · exact framed frame _
  · exact .throw (by exact trivial)

/-! ### Rvalues -/

omit nonempty in
/-- An operand has its declared type. -/
theorem evalScalar_type {value : Value} {scalar : ScalarType}
    (declared : Analysis.valueScalarType machine.program.types act.function.locals value
      = some scalar) :
    Returns env (fun result => result.ty = scalar) (evalScalar machine act value) := by
  intro result run
  have evaluated := evalScalar_ok run
  cases value with
  | constant value =>
    cases run
    exact Option.some.inj declared
  | localVar localId =>
    obtain ⟨loc, found, fetched⟩ := bind_ok evaluated
    obtain ⟨entry, atLocal, rfl⟩ := Activation.localLoc_eq (orThrow_ok found)
    have type : machine.program.types[entry.ty]? = some (.scalar scalar) := by
      simp only [Analysis.valueScalarType, atLocal, Option.bind_eq_bind, Option.bind_some]
        at declared
      rcases found : machine.program.types[entry.ty]? with _ | declaredType
      · simp [found] at declared
      · cases declaredType <;> simp_all
    have shaped := (fetch_returns _ _ fetched).shaped
    rw [Program.shape_scalar type] at shaped
    simpa [scalarResult, Data.leaf, Data.shape, Leaf.kind] using shaped.symm

omit nonempty in
theorem typesEquivalent_scalar {program : Program} {actual expected : TypeId}
    {scalar : ScalarType} (declared : program.types[expected]? = some (.scalar scalar))
    (same : program.typesEquivalent actual expected = true) :
    program.types[actual]? = some (.scalar scalar) := by
  unfold Program.typesEquivalent Program.typesEquivalentInner at same
  split at same
  case isTrue identical => rwa [identical]
  case isFalse =>
    rw [declared] at same
    rcases found : program.types[actual]? with _ | actualType
    · simp [found] at same
    · cases actualType <;> simp_all

omit nonempty in
/-- An operand that matches a scalar type is of that type. -/
theorem valueScalarType_of_matches {program : Program} {function : Function} {value : Value}
    {expected : TypeId} {scalar : ScalarType}
    (declared : program.types[expected]? = some (.scalar scalar))
    (matched : Validate.valueMatchesType program function value expected = true) :
    Analysis.valueScalarType program.types function.locals value = some scalar := by
  cases value with
  | constant value =>
    simp only [Validate.valueMatchesType, declared, beq_iff_eq, Option.some.injEq,
      MirType.scalar.injEq] at matched
    exact congrArg some matched.symm
  | localVar localId =>
    simp only [Validate.valueMatchesType] at matched
    rcases found : function.locals[localId]? with _ | entry
    · simp [found] at matched
    · rw [found] at matched
      simp [Analysis.valueScalarType, found, typesEquivalent_scalar declared matched]

omit nonempty in
/-- A division that cannot be by zero does not fail. -/
theorem binary_quiet {op : BinaryOp} {lhs rhs : Value} {expected : TypeId}
    (matched : Validate.rvalueMatchesType machine.program act.function (.binary op lhs rhs) expected
      = true)
    (total : Analysis.rvalueMayFail machine.program.types act.function.locals (.binary op lhs rhs)
      = false) : Quiet env (evalRvalue machine act (.binary op lhs rhs)) := by
  simp only [Validate.rvalueMatchesType, Bool.and_eq_true] at matched
  obtain ⟨scalar, declared⟩ :
      ∃ scalar, machine.program.types[expected]? = some (.scalar scalar) := by
    rcases found : machine.program.types[expected]? with _ | declaredType
    · cases op <;> simp [found, Validate.typeIsIntegerScalar, Validate.typeIsNumericScalar] at matched
    · cases declaredType with
      | scalar scalar => exact ⟨scalar, rfl⟩
      | _ =>
        cases op <;>
          simp [found, Validate.typeIsIntegerScalar, Validate.typeIsNumericScalar] at matched
  have lhsType := valueScalarType_of_matches declared matched.1.2
  have rhsType := valueScalarType_of_matches declared matched.2
  refine .bind (evalScalar_quiet lhs) fun left => ?_
  have known : Returns env (fun right => right.ty = scalar ∧
      ∀ number, rhs = .constant number → right = number) (evalScalar machine act rhs) := by
    refine fun right run => ⟨evalScalar_type rhsType right run, fun number same => ?_⟩
    subst same
    cases run
    rfl
  refine .seq (evalScalar_quiet rhs) known fun right facts => .map (.orThrow ?_ _)
  -- The reason is a failure only for a division by an integer zero.
  by_contra fails
  obtain ⟨division, zero⟩ : Analysis.isDivision op = true ∧ (right = .i32 0 ∨ right = .i64 0) := by
    unfold binaryStop at fails
    split at fails <;> first | exact ⟨rfl, .inl rfl⟩ | exact ⟨rfl, .inr rfl⟩ | exact absurd trivial fails
  have constant : Analysis.isNonzeroInteger rhs = true := by
    simp only [Analysis.rvalueMayFail, division, lhsType, Bool.true_and] at total
    rcases zero with rfl | rfl
    all_goals
      obtain rfl := facts.1
      simpa [ScalarValue.ty] using total
  cases rhs with
  | localVar => cases constant
  | constant number =>
    obtain rfl := facts.2 number rfl
    rcases zero with rfl | rfl <;> exact absurd constant (by decide)

omit nonempty in
theorem requireBuffer_nonempty {program : Program} {function : Function} {ref : BufferRef}
    (valid : Validate.requireBuffer program function ref = []) : ref.Nonempty := by
  cases ref with
  | direct => trivial
  | arrayElement first len selector bounds =>
    simp only [Validate.requireBuffer, List.append_eq_nil_iff, Validate.errorUnless_eq_nil,
      decide_eq_true_iff] at valid
    exact valid.1.1

omit nonempty in
theorem validateSliceSource_nonempty {program : Program} {function : Function}
    {source : SliceSource} (valid : Validate.validateSliceSource program function source = []) :
    source.Nonempty := by
  cases source with
  | buffer ref channel =>
    simp only [Validate.validateSliceSource, List.append_eq_nil_iff] at valid
    exact requireBuffer_nonempty valid.1.1.2
  | place | bufferParam | constData => trivial

/-- **Soundness** of `rvalue_may_fail`, but for tables without elements. -/
theorem rvalue_quiet {value : Rvalue} {expected : TypeId}
    (valid : Validate.validateRvalue machine.program act.function value = [])
    (matched : Validate.rvalueMatchesType machine.program act.function value expected = true)
    (filled : ¬value.LoadsEmpty machine.program)
    (total : Analysis.rvalueMayFail machine.program.types act.function.locals value = false) :
    Quiet env (evalRvalue machine act value) := by
  have metadata {α : Type} {ref : BufferRef} {result : SelectedBuffer → α}
      (valid : Validate.requireBuffer machine.program act.function ref = [])
      (total : Analysis.scanBufferRef ref = false) :
      Quiet env (selectBuffer machine act ref >>= fun selected => Pure.pure (result selected)) :=
    .bind (selectBuffer_quiet (requireBuffer_nonempty valid) total) fun _ => .pure _
  have paramMetadata {α : Type} {ref : BufferParamRef} {result : SelectedBuffer → α}
      (total : Analysis.markBufferParamRef ref = false) :
      Quiet env (selectBufferParam machine act ref >>= fun selected =>
        Pure.pure (result selected)) :=
    .bind (selectBufferParam_quiet nonempty total) fun _ => .pure _
  cases value with
  | use value => exact evalValue_quiet value
  | load place =>
    exact .bind (lowerPlace_quiet nonempty total) fun loc => readLoc_quiet loc
  | initAll => exact .pure _
  | unary op operand =>
    exact .bind (evalScalar_quiet operand) fun _ => .map (.orThrow (by exact trivial) _)
  | binary op lhs rhs => exact binary_quiet matched total
  | compare op lhs rhs =>
    exact .bind (evalScalar_quiet lhs) fun _ => .bind (evalScalar_quiet rhs) fun _ =>
      .bind (.orThrow (by exact trivial) _) fun _ => .pure _
  | cast value target =>
    exact .bind (evalScalar_quiet value) fun _ => .map (.orThrow (by exact trivial) _)
  | intrinsic intrinsic args =>
    exact .bind (.mapM fun arg _ => evalScalar_quiet arg) fun _ =>
      .map (.orThrow (by exact trivial) _)
  | processFrame => cases total
  | normalizeIndex index length bounds =>
    obtain rfl := unchecked_of_not_dynamic total
    refine .bind (evalI32_quiet index) fun index => .bind (evalI32_quiet length) fun length =>
      .bind (.ofExcept fun reason failed => ?_) fun _ => .pure _
    simp only [normalizeDynamicIndex] at failed
    split at failed
    · cases failed
    · cases failed
      trivial
  | sliceLoad slice index bounds =>
    obtain rfl := unchecked_of_not_dynamic total
    exact .bind (evalSlice_quiet slice) fun desc => .bind (evalI32_quiet index) fun position =>
      .bind (.ofExcept fun _ failed => normalizeIndex_unchecked_escapes failed) fun _ =>
        .map (loadElement_quiet _)
  | inputLoad input element bounds frame | outputLoad output element bounds frame =>
    exact .bind (.orThrow (by exact trivial) _) fun declared =>
      .bind (audioElement_quiet nonempty _ _ element total frame) fun sample =>
        .map (loadElement_quiet sample)
  | bufferLoad ref channel index bounds =>
    simp only [Analysis.rvalueMayFail, Bool.or_eq_false_iff] at total
    simp only [Validate.validateRvalue, List.append_eq_nil_iff] at valid
    refine .seq (selectBuffer_quiet (requireBuffer_nonempty valid.1.2) total.1)
      (selectBuffer_nonempty nonempty ref) fun selected channels => ?_
    exact .bind (bufferElement_quiet channels channel index total.2) fun sample =>
      .map (loadElement_quiet sample)
  | bufferParamLoad ref channel index bounds =>
    simp only [Analysis.rvalueMayFail, Bool.or_eq_false_iff] at total
    refine .seq (selectBufferParam_quiet nonempty total.1)
      (selectBufferParam_nonempty nonempty ref) fun selected channels => ?_
    exact .bind (bufferElement_quiet channels channel index total.2) fun sample =>
      .map (loadElement_quiet sample)
  | bufferLen | bufferChannels | bufferSampleRate | bufferIsBound =>
    simp only [Validate.validateRvalue, List.append_eq_nil_iff] at valid
    exact metadata valid.2 total
  | bufferParamLen | bufferParamChannels | bufferParamSampleRate | bufferParamIsBound =>
    exact paramMetadata total
  | constDataLoad data index bounds =>
    refine .seq (.orThrow (by exact trivial) _) (fun _ run => orThrow_ok run)
      fun declared found => ?_
    refine .bind (evalI32_quiet index) fun position => .bind (.ofExcept ?_) fun _ =>
      .map (loadElement_quiet _)
    intro reason failed
    cases bounds with
    | checked => cases total
    | unchecked => exact normalizeIndex_unchecked_escapes failed
    | clamp =>
      refine normalizeIndex_escapes rfl (fun empty => filled ⟨declared, found, ?_⟩) failed
      exact List.length_eq_zero_iff.mp empty
  | makeSlice source start len bounds access =>
    simp only [Analysis.rvalueMayFail, Bool.or_eq_false_iff] at total
    simp only [Validate.validateRvalue, List.append_eq_nil_iff, and_assoc] at valid
    refine .bind (evalI32_quiet start) fun start => ?_
    refine .bind (sliceSource_quiet nonempty (validateSliceSource_nonempty valid.1) total.1)
      fun source => .bind (evalI32_quiet len) fun len => ?_
    exact .bind (.ofExcept fun _ failed => normalizeRange_escapes total.2 failed) fun _ => .pure _
  | sliceLen slice => exact .bind (evalSlice_quiet slice) fun _ => .pure _

/-! ### Arguments -/

end Quiet

/-! ### Validated programs -/

/-- The part of validation that the passes rely on: the checks of types, of buffers
and of bodies. -/
structure Program.Validated (program : Program) : Prop where
  types : program.types.zipIdx.flatMap
    (fun entry => Validate.validateType program entry.2 entry.1) = []
  buffers : program.interface.buffers.flatMap Validate.validateBuffer = []
  bodies : ∀ declared ∈ program.functions,
    Validate.validateBlock program declared 0 declared.body = []

variable {program : Program}

theorem Program.Accepted.validated (accepted : program.Accepted) :
    program.Validated where
  types := by
    simp only [Program.Accepted, validate, List.append_eq_nil_iff, Validate.programErrors_eq_nil,
      and_assoc] at accepted
    exact accepted.2.2.1
  buffers := by
    simp only [Program.Accepted, validate, List.append_eq_nil_iff, Validate.programErrors_eq_nil,
      and_assoc] at accepted
    obtain ⟨-, -, -, -, -, -, -, -, -, -, -, -, buffers, -⟩ := accepted
    exact buffers
  bodies declared mem := by
    obtain ⟨id, found⟩ := List.getElem?_of_mem mem
    have checked := accepted.function found
    simp only [Validate.validateFunction, List.append_eq_nil_iff] at checked
    exact checked.1.1.2

theorem channels_nonempty {channels : BufferChannels} {element : ScalarType}
    (valid : Validate.channelsValidationError channels element = none) : channels.Nonempty := by
  cases channels with
  | mono | dynamic => trivial
  | static count =>
    rintro rfl
    simp [Validate.channelsValidationError, Validate.bufferStaticChannelValidationError] at valid

theorem Program.Validated.nonempty (validated : program.Validated) :
    program.Nonempty where
  types ty mem := by
    obtain ⟨id, found⟩ := List.getElem?_of_mem mem
    have valid := List.flatMap_eq_nil_iff.mp validated.types (ty, id)
      (List.mem_zipIdx_iff_getElem?.mpr found)
    cases ty with
    | array element len =>
      simp only [Validate.validateType, List.append_eq_nil_iff, Validate.errorUnless_eq_nil,
        decide_eq_true_iff] at valid
      exact valid.1.2
    | buffer element channels access =>
      exact channels_nonempty (errorOf_eq_nil valid)
    | bufferSpan element channels access len =>
      simp only [Validate.validateType, List.append_eq_nil_iff, Validate.errorUnless_eq_nil,
        decide_eq_true_iff] at valid
      exact ⟨valid.1.1.ne', channels_nonempty (errorOf_eq_nil valid.2)⟩
    | scalar | tuple | struct | slice => trivial
  buffers declared mem :=
    channels_nonempty (errorOf_eq_nil (List.flatMap_eq_nil_iff.mp validated.buffers declared mem))

/-- The declared type of the destination of a valid assignment to a local. -/
theorem validateAssign_local {function : Function} {localId : LocalId} {value : Rvalue}
    (valid : Validate.validateOperation program function (.assign ⟨.localVar localId, []⟩ value)
      = []) :
    Validate.validateRvalue program function value = [] ∧
      ∃ expected, Validate.rvalueMatchesType program function value expected = true := by
  simp only [Validate.validateOperation, Validate.validateAssign, List.append_eq_nil_iff,
    Validate.errorUnless_eq_nil, and_assoc] at valid
  obtain ⟨place, rvalue, -, -, matched⟩ := valid
  refine ⟨rvalue, ?_⟩
  rcases found : function.locals[localId]? with _ | declared
  · simp only [Validate.validatePlace, Validate.validatePlaceBase, Validate.requireLocal,
      List.append_eq_nil_iff, Validate.errorUnless_eq_nil, decide_eq_true_iff] at place
    exact absurd (List.getElem?_eq_none_iff.mp found) (Nat.not_le.mpr place.1)
  · have type : program.placeType function ⟨.localVar localId, []⟩ = some declared.ty := by
      simp [Program.placeType, Program.baseType, found]
    rw [type] at matched
    exact ⟨declared.ty, by simpa using matched⟩

end Onda.Mir
