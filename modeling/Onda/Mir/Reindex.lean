import Onda.Mir.Ir

/-!
# Reindexing locals and parameters

A pass that removes locals or parameters of a function gives the remaining ones
new ids and rewrites every occurrence.  The functions that rewrite locals and
those that rewrite parameters walk over the same syntax, so both are instances of
one definition: a `Mapping` maps either kind of id, and the other kind is mapped
to itself.

A rewrite gives `none` where the mapping has no new id for an id that occurs; the
source panics there.  Locals that are only stored to may be mapped although they are
not mapped where they are read.
-/

namespace Onda.Mir

open Structured

/-- New ids of the locals and the parameters of a function.  `writes` is for a local
that is the destination of an assignment or the result of a call. -/
structure Mapping where
  locals : LocalId → Option LocalId
  writes : LocalId → Option LocalId
  params : ParameterId → Option ParameterId

namespace Mapping

def identity : Mapping := ⟨some, some, some⟩

@[simp] theorem identity_locals (id : LocalId) : identity.locals id = some id := rfl

@[simp] theorem identity_writes (id : LocalId) : identity.writes id = some id := rfl

@[simp] theorem identity_params (id : ParameterId) : identity.params id = some id := rfl

/-- Only locals are mapped, as by `rewrite_block_locals`. -/
def ofLocals (mapping : List (Option LocalId)) : Mapping :=
  ⟨fun id => mapping[id]?.join, fun id => mapping[id]?.join, some⟩

end Mapping

section Rewrite

variable (mapping : Mapping)

def rewriteValue : Value → Option Value
  | .localVar localId => (mapping.locals localId).map .localVar
  | .constant value => some (.constant value)

def rewriteOptional : Option Value → Option (Option Value)
  | none => some none
  | some value => (rewriteValue mapping value).map some

def rewritePlaceBase (locals : LocalId → Option LocalId) : PlaceBase → Option PlaceBase
  | .localVar localId => (locals localId).map .localVar
  | .parameter parameter => (mapping.params parameter).map .parameter
  | base => some base

def rewriteProjection : Projection → Option Projection
  | .field field => some (.field field)
  | .index index bounds => (rewriteValue mapping index).map (.index · bounds)

def rewritePlace (place : Place) : Option Place := do
  some ⟨← rewritePlaceBase mapping mapping.locals place.base,
    ← place.projections.mapM (rewriteProjection mapping)⟩

def rewriteDestination (place : Place) : Option Place := do
  some ⟨← rewritePlaceBase mapping mapping.writes place.base,
    ← place.projections.mapM (rewriteProjection mapping)⟩

def rewriteBufferRef : BufferRef → Option BufferRef
  | .direct buffer => some (.direct buffer)
  | .arrayElement first len selector bounds =>
    (rewriteValue mapping selector).map (.arrayElement first len · bounds)

def rewriteBufferParamRef : BufferParamRef → Option BufferParamRef
  | .direct parameter => (mapping.params parameter).map .direct
  | .arrayElement span selector bounds => do
    some (.arrayElement (← mapping.params span) (← rewriteValue mapping selector) bounds)

def rewriteBufferSpanRef : BufferSpanRef → Option BufferSpanRef
  | .interface first len => some (.interface first len)
  | .parameter span start len => (mapping.params span).map (.parameter · start len)

def rewriteSliceSource : SliceSource → Option SliceSource
  | .place place => (rewritePlace mapping place).map .place
  | .buffer buffer channel => do
    some (.buffer (← rewriteBufferRef mapping buffer) (← rewriteOptional mapping channel))
  | .bufferParam parameter channel => do
    some (.bufferParam (← rewriteBufferParamRef mapping parameter) (← rewriteOptional mapping channel))
  | .constData data => some (.constData data)

def rewriteRvalue : Rvalue → Option Rvalue
  | .use value => (rewriteValue mapping value).map .use
  | .load place => (rewritePlace mapping place).map .load
  | .initAll => some .initAll
  | .unary op operand => (rewriteValue mapping operand).map (.unary op)
  | .binary op lhs rhs => do some (.binary op (← rewriteValue mapping lhs) (← rewriteValue mapping rhs))
  | .compare op lhs rhs => do some (.compare op (← rewriteValue mapping lhs) (← rewriteValue mapping rhs))
  | .cast value target => (rewriteValue mapping value).map (.cast · target)
  | .intrinsic intrinsic args =>
    (args.mapM (rewriteValue mapping)).map (.intrinsic intrinsic)
  | .processFrame offset => (rewriteValue mapping offset).map .processFrame
  | .normalizeIndex index length bounds => do
    some (.normalizeIndex (← rewriteValue mapping index) (← rewriteValue mapping length) bounds)
  | .inputLoad input element bounds frame => do
    some (.inputLoad input (← rewriteOptional mapping element) bounds (← rewriteValue mapping frame))
  | .outputLoad output element bounds frame => do
    some (.outputLoad output (← rewriteOptional mapping element) bounds
      (← rewriteValue mapping frame))
  | .bufferLoad buffer channel index bounds => do
    some (.bufferLoad (← rewriteBufferRef mapping buffer) (← rewriteOptional mapping channel)
      (← rewriteValue mapping index) bounds)
  | .bufferParamLoad parameter channel index bounds => do
    some (.bufferParamLoad (← rewriteBufferParamRef mapping parameter) (← rewriteOptional mapping channel)
      (← rewriteValue mapping index) bounds)
  | .bufferLen buffer => (rewriteBufferRef mapping buffer).map .bufferLen
  | .bufferChannels buffer => (rewriteBufferRef mapping buffer).map .bufferChannels
  | .bufferSampleRate buffer => (rewriteBufferRef mapping buffer).map .bufferSampleRate
  | .bufferIsBound buffer => (rewriteBufferRef mapping buffer).map .bufferIsBound
  | .bufferParamLen parameter => (rewriteBufferParamRef mapping parameter).map .bufferParamLen
  | .bufferParamChannels parameter => (rewriteBufferParamRef mapping parameter).map .bufferParamChannels
  | .bufferParamSampleRate parameter => (rewriteBufferParamRef mapping parameter).map .bufferParamSampleRate
  | .bufferParamIsBound parameter => (rewriteBufferParamRef mapping parameter).map .bufferParamIsBound
  | .constDataLoad data index bounds =>
    (rewriteValue mapping index).map (.constDataLoad data · bounds)
  | .makeSlice source start len bounds access => do
    some (.makeSlice (← rewriteSliceSource mapping source) (← rewriteValue mapping start)
      (← rewriteValue mapping len) bounds access)
  | .sliceLoad slice index bounds => do
    some (.sliceLoad (← rewriteValue mapping slice) (← rewriteValue mapping index) bounds)
  | .sliceLen slice => (rewriteValue mapping slice).map .sliceLen

def rewriteCallArgument : CallArgument → Option CallArgument
  | .value value => (rewriteValue mapping value).map .value
  | .place place => (rewritePlace mapping place).map .place
  | .sliceElement slice index bounds => do
    some (.sliceElement (← rewriteValue mapping slice) (← rewriteValue mapping index) bounds)
  | .arrayWindow array start bounds => do
    some (.arrayWindow (← rewritePlace mapping array) (← rewriteValue mapping start) bounds)
  | .sliceWindow slice start bounds => do
    some (.sliceWindow (← rewriteValue mapping slice) (← rewriteValue mapping start) bounds)
  | .buffer buffer => (rewriteBufferRef mapping buffer).map .buffer
  | .bufferParam parameter => (rewriteBufferParamRef mapping parameter).map .bufferParam
  | .bufferSpan span => (rewriteBufferSpanRef mapping span).map .bufferSpan

def rewriteSliceCopy (copy : SliceCopy) : Option SliceCopy := do
  some ⟨← rewriteValue mapping copy.destination, ← rewriteValue mapping copy.source⟩

def rewriteOperation : Operation → Option Operation
  | .assign destination value => do
    some (.assign (← rewriteDestination mapping destination) (← rewriteRvalue mapping value))
  | .call results function args => do
    some (.call (← results.mapM mapping.writes) function
      (← args.mapM (rewriteCallArgument mapping)))
  | .publishDelegate delegate args =>
    (args.mapM (rewriteCallArgument mapping)).map (.publishDelegate delegate)
  | .publishLog site arguments =>
    (arguments.mapM (rewriteValue mapping)).map (.publishLog site)
  | .outputStore output element bounds frame value => do
    some (.outputStore output (← rewriteOptional mapping element) bounds
      (← rewriteValue mapping frame) (← rewriteValue mapping value))
  | .controlOutputStore output element bounds value => do
    some (.controlOutputStore output (← rewriteOptional mapping element) bounds
      (← rewriteValue mapping value))
  | .bufferStore buffer channel index value bounds => do
    some (.bufferStore (← rewriteBufferRef mapping buffer) (← rewriteOptional mapping channel)
      (← rewriteValue mapping index) (← rewriteValue mapping value) bounds)
  | .bufferParamStore parameter channel index value bounds => do
    some (.bufferParamStore (← rewriteBufferParamRef mapping parameter) (← rewriteOptional mapping channel)
      (← rewriteValue mapping index) (← rewriteValue mapping value) bounds)
  | .sliceStore slice index value bounds => do
    some (.sliceStore (← rewriteValue mapping slice) (← rewriteValue mapping index)
      (← rewriteValue mapping value) bounds)
  | .sliceFill destination value => do
    some (.sliceFill (← rewriteValue mapping destination) (← rewriteValue mapping value))
  | .sliceCopy copies preflight =>
    (copies.mapM (rewriteSliceCopy mapping)).map (.sliceCopy · preflight)

mutual

def rewriteStatement : Statement → Option Statement
  | .op operation => (rewriteOperation mapping operation).map .op
  | .ite condition thenBlock elseBlock => do
    some (.ite (← rewriteValue mapping condition) (← rewriteBlock thenBlock)
      (← rewriteBlock elseBlock))
  | .loop body => (rewriteBlock body).map .loop
  | .brk => some .brk
  | .cont => some .cont
  | .ret values => (values.mapM (rewriteValue mapping)).map .ret

def rewriteBlock : Block → Option Block
  | [] => some []
  | statement :: rest => do some ((← rewriteStatement statement) :: (← rewriteBlock rest))

end

end Rewrite

/-! ### The identity -/

/-- Nothing changes where every element is mapped to itself. -/
theorem mapM_eq_some_self {α : Type} {f : α → Option α} (same : ∀ element, f element = some element)
    (list : List α) : list.mapM f = some list := by
  induction list with
  | nil => rfl
  | cons head tail ih => simp [List.mapM_cons, same, ih]

section Identity

@[simp] theorem rewriteValue_identity (value : Value) :
    rewriteValue .identity value = some value := by
  cases value <;> rfl

@[simp] theorem rewriteOptional_identity (value : Option Value) :
    rewriteOptional .identity value = some value := by
  cases value <;> simp [rewriteOptional]

@[simp] theorem rewriteProjection_identity (projection : Projection) :
    rewriteProjection .identity projection = some projection := by
  cases projection <;> simp [rewriteProjection]

@[simp] theorem rewritePlaceBase_identity (base : PlaceBase) :
    rewritePlaceBase .identity some base = some base := by
  cases base <;> rfl

@[simp] theorem rewritePlace_identity (place : Place) :
    rewritePlace .identity place = some place := by
  have base : rewritePlaceBase .identity Mapping.identity.locals place.base = some place.base :=
    rewritePlaceBase_identity place.base
  simp [rewritePlace, base, mapM_eq_some_self rewriteProjection_identity]

@[simp] theorem rewriteDestination_identity (place : Place) :
    rewriteDestination .identity place = some place := by
  have base : rewritePlaceBase .identity Mapping.identity.writes place.base = some place.base :=
    rewritePlaceBase_identity place.base
  simp [rewriteDestination, base, mapM_eq_some_self rewriteProjection_identity]

@[simp] theorem rewriteBufferRef_identity (ref : BufferRef) :
    rewriteBufferRef .identity ref = some ref := by
  cases ref <;> simp [rewriteBufferRef]

@[simp] theorem rewriteBufferParamRef_identity (ref : BufferParamRef) :
    rewriteBufferParamRef .identity ref = some ref := by
  cases ref <;> simp [rewriteBufferParamRef]

@[simp] theorem rewriteBufferSpanRef_identity (span : BufferSpanRef) :
    rewriteBufferSpanRef .identity span = some span := by
  cases span <;> simp [rewriteBufferSpanRef]

@[simp] theorem rewriteSliceSource_identity (source : SliceSource) :
    rewriteSliceSource .identity source = some source := by
  cases source <;> simp [rewriteSliceSource]

@[simp] theorem rewriteRvalue_identity (value : Rvalue) :
    rewriteRvalue .identity value = some value := by
  cases value <;> simp [rewriteRvalue, mapM_eq_some_self rewriteValue_identity]

@[simp] theorem rewriteCallArgument_identity (argument : CallArgument) :
    rewriteCallArgument .identity argument = some argument := by
  cases argument <;> simp [rewriteCallArgument]

@[simp] theorem rewriteSliceCopy_identity (copy : SliceCopy) :
    rewriteSliceCopy .identity copy = some copy := by
  simp [rewriteSliceCopy]

@[simp] theorem rewriteOperation_identity (operation : Operation) :
    rewriteOperation .identity operation = some operation := by
  have results (results : List LocalId) : results.mapM Mapping.identity.writes = some results :=
    mapM_eq_some_self (fun _ => rfl) results
  cases operation <;>
    simp [rewriteOperation, results, mapM_eq_some_self rewriteValue_identity,
      mapM_eq_some_self rewriteCallArgument_identity, mapM_eq_some_self rewriteSliceCopy_identity]

end Identity

end Onda.Mir
