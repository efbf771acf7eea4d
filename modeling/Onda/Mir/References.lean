import Onda.Mir.Reindex
import Mathlib.Data.List.Forall2

/-!
# References to locals and parameters

The locals a statement reads and writes (`passes.rs`) and the parameters it mentions
(`parameter_pruning.rs`), and what they are for: two mappings that agree on what a
block refers to rewrite it in the same way, and neither is undefined on it.
-/

namespace Onda.Mir

open Structured

/-! ### Locals -/

section Reads

def valueReads : Value → List LocalId
  | .localVar localId => [localId]
  | .constant _ => []

def optionalReads : Option Value → List LocalId
  | some value => valueReads value
  | none => []

def bufferRefReads : BufferRef → List LocalId
  | .arrayElement _ _ selector _ => valueReads selector
  | .direct _ => []

def bufferParamRefReads : BufferParamRef → List LocalId
  | .arrayElement _ selector _ => valueReads selector
  | .direct _ => []

def projectionReads : Projection → List LocalId
  | .index index _ => valueReads index
  | .field _ => []

def baseLocals : PlaceBase → List LocalId
  | .localVar localId => [localId]
  | _ => []

/-- The base of a destination is not read. -/
def destinationReads (place : Place) : List LocalId :=
  place.projections.flatMap projectionReads

def placeReads (place : Place) : List LocalId :=
  baseLocals place.base ++ destinationReads place

def sliceSourceReads : SliceSource → List LocalId
  | .place place => placeReads place
  | .buffer ref channel => bufferRefReads ref ++ optionalReads channel
  | .bufferParam ref channel => bufferParamRefReads ref ++ optionalReads channel
  | .constData _ => []

def rvalueReads : Rvalue → List LocalId
  | .initAll => []
  | .use value | .sliceLen value | .unary _ value | .cast value _ | .processFrame value
  | .constDataLoad _ value _ => valueReads value
  | .load place => placeReads place
  | .binary _ lhs rhs | .compare _ lhs rhs => valueReads lhs ++ valueReads rhs
  | .intrinsic _ args => args.flatMap valueReads
  | .normalizeIndex index length _ => valueReads index ++ valueReads length
  | .inputLoad _ element _ frame | .outputLoad _ element _ frame =>
    optionalReads element ++ valueReads frame
  | .bufferLoad ref channel index _ =>
    bufferRefReads ref ++ optionalReads channel ++ valueReads index
  | .bufferParamLoad ref channel index _ =>
    bufferParamRefReads ref ++ optionalReads channel ++ valueReads index
  | .makeSlice source start len _ _ =>
    sliceSourceReads source ++ valueReads start ++ valueReads len
  | .sliceLoad slice index _ => valueReads slice ++ valueReads index
  | .bufferLen ref | .bufferChannels ref | .bufferSampleRate ref | .bufferIsBound ref =>
    bufferRefReads ref
  | .bufferParamLen ref | .bufferParamChannels ref | .bufferParamSampleRate ref
  | .bufferParamIsBound ref => bufferParamRefReads ref

def callArgumentReads : CallArgument → List LocalId
  | .value value => valueReads value
  | .place place => placeReads place
  | .arrayWindow array start _ => placeReads array ++ valueReads start
  | .sliceElement slice index _ => valueReads slice ++ valueReads index
  | .sliceWindow slice start _ => valueReads slice ++ valueReads start
  | .buffer ref => bufferRefReads ref
  | .bufferParam ref => bufferParamRefReads ref
  | .bufferSpan _ => []

def sliceCopyReads (copy : SliceCopy) : List LocalId :=
  valueReads copy.destination ++ valueReads copy.source

def operationReads : Operation → List LocalId
  | .assign destination value => destinationReads destination ++ rvalueReads value
  | .call _ _ args | .publishDelegate _ args => args.flatMap callArgumentReads
  | .publishLog _ arguments => arguments.flatMap valueReads
  | .outputStore _ element _ frame value =>
    optionalReads element ++ valueReads frame ++ valueReads value
  | .controlOutputStore _ element _ value => optionalReads element ++ valueReads value
  | .bufferStore ref channel index value _ =>
    bufferRefReads ref ++ optionalReads channel ++ valueReads index ++ valueReads value
  | .bufferParamStore ref channel index value _ =>
    bufferParamRefReads ref ++ optionalReads channel ++ valueReads index ++ valueReads value
  | .sliceStore slice index value _ => valueReads slice ++ valueReads index ++ valueReads value
  | .sliceFill destination value => valueReads destination ++ valueReads value
  | .sliceCopy copies _ => copies.flatMap sliceCopyReads

/-- `collect_statement_write`: the base of an assignment, the results of a call. -/
def operationWrites : Operation → List LocalId
  | .assign destination _ => baseLocals destination.base
  | .call results _ _ => results
  | _ => []

/-- `collect_statement_read_references`: nested blocks are not looked into. -/
def statementReads : Statement → List LocalId
  | .op operation => operationReads operation
  | .ite condition _ _ => valueReads condition
  | .ret values => values.flatMap valueReads
  | .loop _ | .brk | .cont => []

mutual

def nestedReads : Statement → List LocalId
  | .op operation => operationReads operation
  | .ite condition thenBlock elseBlock =>
    valueReads condition ++ (blockReads thenBlock ++ blockReads elseBlock)
  | .loop body => blockReads body
  | .ret values => values.flatMap valueReads
  | .brk | .cont => []

/-- `collect_read_references` -/
def blockReads : Block → List LocalId
  | [] => []
  | statement :: rest => nestedReads statement ++ blockReads rest

end

mutual

def nestedWrites : Statement → List LocalId
  | .op operation => operationWrites operation
  | .ite _ thenBlock elseBlock => blockWrites thenBlock ++ blockWrites elseBlock
  | .loop body => blockWrites body
  | .brk | .cont | .ret _ => []

/-- `collect_block_writes` -/
def blockWrites : Block → List LocalId
  | [] => []
  | statement :: rest => nestedWrites statement ++ blockWrites rest

end

/-- All local storage mentioned by a block, including writes and addresses. -/
def referencedLocals (block : Block) : List LocalId := blockWrites block ++ blockReads block

end Reads

/-! ### Parameters -/

section Parameters

def baseParameters : PlaceBase → List ParameterId
  | .parameter parameter => [parameter]
  | _ => []

def spanParameters : BufferSpanRef → List ParameterId
  | .parameter span _ _ => [span]
  | .interface _ _ => []

def sliceSourceParameters : SliceSource → List ParameterId
  | .place place => baseParameters place.base
  | .bufferParam ref _ => [ref.first]
  | .buffer .. | .constData _ => []

def rvalueParameters : Rvalue → List ParameterId
  | .load place => baseParameters place.base
  | .bufferParamLoad ref _ _ _ | .bufferParamLen ref | .bufferParamChannels ref
  | .bufferParamSampleRate ref | .bufferParamIsBound ref => [ref.first]
  | .makeSlice source _ _ _ _ => sliceSourceParameters source
  | _ => []

def callArgumentParameters : CallArgument → List ParameterId
  | .place place | .arrayWindow place _ _ => baseParameters place.base
  | .bufferParam ref => [ref.first]
  | .bufferSpan span => spanParameters span
  | .value _ | .sliceElement .. | .sliceWindow .. | .buffer _ => []

def operationParameters : Operation → List ParameterId
  | .assign destination value => baseParameters destination.base ++ rvalueParameters value
  | .call _ _ args | .publishDelegate _ args => args.flatMap callArgumentParameters
  | .bufferParamStore ref _ _ _ _ => [ref.first]
  | _ => []

mutual

def statementParameters : Statement → List ParameterId
  | .op operation => operationParameters operation
  | .ite _ thenBlock elseBlock => blockParameters thenBlock ++ blockParameters elseBlock
  | .loop body => blockParameters body
  | .brk | .cont | .ret _ => []

/-- The parameters a block mentions. -/
def blockParameters : Block → List ParameterId
  | [] => []
  | statement :: rest => statementParameters statement ++ blockParameters rest

end

end Parameters

/-! ### Agreement -/

/-- Two partial results are there, and are the same. -/
def Agree {α : Type} (first second : Option α) : Prop :=
  ∃ value, first = some value ∧ second = some value

namespace Agree

variable {α β : Type} {first second : Option α}

theorem some (value : α) : Agree (Option.some value) (Option.some value) := ⟨value, rfl, rfl⟩

theorem map (agree : Agree first second) (f : α → β) : Agree (first.map f) (second.map f) := by
  obtain ⟨value, rfl, rfl⟩ := agree
  exact .some (f value)

theorem bind (agree : Agree first second) {f g : α → Option β} (next : ∀ value, Agree (f value) (g value)) :
    Agree (first >>= f) (second >>= g) := by
  obtain ⟨value, rfl, rfl⟩ := agree
  exact next value

theorem mapM {f g : α → Option β} {list : List α} (each : ∀ element ∈ list, Agree (f element) (g element)) :
    Agree (list.mapM f) (list.mapM g) := by
  induction list with
  | nil => exact .some []
  | cons head tail ih =>
    rw [List.mapM_cons, List.mapM_cons]
    refine (each head (by simp)).bind fun value => ?_
    exact (ih fun element mem => each element (by simp [mem])).bind fun values => .some _

end Agree

/-- The mappings agree on these locals and parameters. -/
structure Mapping.AgreeOn (mapping mapping' : Mapping) (reads : List LocalId)
    (params : List ParameterId) : Prop where
  locals : ∀ localId ∈ reads, Agree (mapping.locals localId) (mapping'.locals localId)
  params : ∀ parameter ∈ params, Agree (mapping.params parameter) (mapping'.params parameter)

namespace Mapping.AgreeOn

variable {mapping mapping' : Mapping} {reads reads' : List LocalId}
  {params params' : List ParameterId}

theorem mono (agree : mapping.AgreeOn mapping' reads params)
    (fewer : ∀ localId ∈ reads', localId ∈ reads := by simp +contextual)
    (fewerParams : ∀ parameter ∈ params', parameter ∈ params := by simp +contextual) :
    mapping.AgreeOn mapping' reads' params' :=
  ⟨fun localId mem => agree.locals localId (fewer localId mem),
    fun parameter mem => agree.params parameter (fewerParams parameter mem)⟩

theorem value {value : Value} (agree : mapping.AgreeOn mapping' (valueReads value) []) :
    Agree (rewriteValue mapping value) (rewriteValue mapping' value) := by
  cases value with
  | localVar localId => exact (agree.locals localId (by simp [valueReads])).map _
  | constant value => exact .some _

theorem optional {value : Option Value}
    (agree : mapping.AgreeOn mapping' (optionalReads value) []) :
    Agree (rewriteOptional mapping value) (rewriteOptional mapping' value) := by
  cases value with
  | none => exact .some _
  | some value => exact agree.value.map _

/-- What holds of a list holds of each of its elements. -/
theorem element {α : Type} {list : List α} {locals : α → List LocalId}
    {parameters : α → List ParameterId}
    (agree : mapping.AgreeOn mapping' (list.flatMap locals) (list.flatMap parameters)) {element : α}
    (mem : element ∈ list) : mapping.AgreeOn mapping' (locals element) (parameters element) :=
  agree.mono (fun _ inner => List.mem_flatMap.mpr ⟨element, mem, inner⟩)
    fun _ inner => List.mem_flatMap.mpr ⟨element, mem, inner⟩

theorem values {values : List Value}
    (agree : mapping.AgreeOn mapping' (values.flatMap valueReads) []) :
    Agree (values.mapM (rewriteValue mapping)) (values.mapM (rewriteValue mapping')) :=
  .mapM fun value mem => (agree.mono fun _ inner => List.mem_flatMap.mpr ⟨value, mem, inner⟩).value

theorem projections {projections : List Projection}
    (agree : mapping.AgreeOn mapping' (projections.flatMap projectionReads) []) :
    Agree (projections.mapM (rewriteProjection mapping))
      (projections.mapM (rewriteProjection mapping')) := by
  refine .mapM fun projection mem => ?_
  have inner : mapping.AgreeOn mapping' (projectionReads projection) [] :=
    agree.mono fun _ inner => List.mem_flatMap.mpr ⟨projection, mem, inner⟩
  cases projection with
  | field field => exact .some _
  | index index bounds => exact (value inner).map _

theorem place {place : Place}
    (agree : mapping.AgreeOn mapping' (placeReads place) (baseParameters place.base)) :
    Agree (rewritePlace mapping place) (rewritePlace mapping' place) := by
  have base : Agree (rewritePlaceBase mapping mapping.locals place.base)
      (rewritePlaceBase mapping' mapping'.locals place.base) := by
    rcases place with ⟨base, path⟩
    cases base with
    | localVar localId => exact (agree.locals localId (by simp [placeReads, baseLocals])).map _
    | parameter parameter => exact (agree.params parameter (by simp [baseParameters])).map _
    | state | param | eventParam => exact .some _
  exact base.bind fun _ => (projections (agree.mono (by simp +contextual [placeReads,
    destinationReads]))).bind fun _ => .some _

theorem destination {place : Place}
    (agree : mapping.AgreeOn mapping' (destinationReads place) (baseParameters place.base))
    (writes : ∀ localId ∈ baseLocals place.base,
      Agree (mapping.writes localId) (mapping'.writes localId)) :
    Agree (rewriteDestination mapping place) (rewriteDestination mapping' place) := by
  have base : Agree (rewritePlaceBase mapping mapping.writes place.base)
      (rewritePlaceBase mapping' mapping'.writes place.base) := by
    rcases place with ⟨base, path⟩
    cases base with
    | localVar localId => exact (writes localId (by simp [baseLocals])).map _
    | parameter parameter => exact (agree.params parameter (by simp [baseParameters])).map _
    | state | param | eventParam => exact .some _
  exact base.bind fun _ => (projections (agree.mono fun _ mem => mem)).bind fun _ => .some _

theorem bufferRef {ref : BufferRef} (agree : mapping.AgreeOn mapping' (bufferRefReads ref) []) :
    Agree (rewriteBufferRef mapping ref) (rewriteBufferRef mapping' ref) := by
  cases ref with
  | direct buffer => exact .some _
  | arrayElement first len selector bounds => exact (value agree).map _

theorem bufferParamRef {ref : BufferParamRef}
    (agree : mapping.AgreeOn mapping' (bufferParamRefReads ref) [ref.first]) :
    Agree (rewriteBufferParamRef mapping ref) (rewriteBufferParamRef mapping' ref) := by
  have span := agree.params ref.first (by simp)
  cases ref with
  | direct parameter => exact span.map _
  | arrayElement first selector bounds =>
    exact span.bind fun _ => (value (agree.mono fun _ mem => mem)).bind fun _ => .some _

theorem spanRef {span : BufferSpanRef} (agree : mapping.AgreeOn mapping' [] (spanParameters span)) :
    Agree (rewriteBufferSpanRef mapping span) (rewriteBufferSpanRef mapping' span) := by
  cases span with
  | interface first len => exact .some _
  | parameter span start len =>
    exact (agree.params span (by simp [spanParameters])).map _

theorem sliceSource {source : SliceSource}
    (agree : mapping.AgreeOn mapping' (sliceSourceReads source) (sliceSourceParameters source)) :
    Agree (rewriteSliceSource mapping source) (rewriteSliceSource mapping' source) := by
  cases source with
  | place place => exact agree.place.map _
  | buffer ref channel =>
    exact (bufferRef (agree.mono (by simp +contextual [sliceSourceReads]))).bind fun _ =>
      (optional (agree.mono (by simp +contextual [sliceSourceReads]))).bind fun _ => .some _
  | bufferParam ref channel =>
    exact (bufferParamRef (agree.mono (by simp +contextual [sliceSourceReads])
      (by simp [sliceSourceParameters]))).bind fun _ =>
        (optional (agree.mono (by simp +contextual [sliceSourceReads]))).bind fun _ => .some _
  | constData data => exact .some _

theorem rvalue {value : Rvalue}
    (agree : mapping.AgreeOn mapping' (rvalueReads value) (rvalueParameters value)) :
    Agree (rewriteRvalue mapping value) (rewriteRvalue mapping' value) := by
  -- Operands read no parameters.
  have locals {reads : List LocalId} (part : ∀ localId ∈ reads, localId ∈ rvalueReads value) :
      mapping.AgreeOn mapping' reads [] := agree.mono part
  cases value with
  | initAll => exact .some _
  | use value | sliceLen value | cast value target | processFrame value
  | constDataLoad data value bounds => exact (Mapping.AgreeOn.value agree).map _
  | unary op value => exact (Mapping.AgreeOn.value agree).map _
  | load place => exact agree.place.map _
  | intrinsic intrinsic args => exact agree.values.map _
  | binary op lhs rhs | compare op lhs rhs | normalizeIndex lhs rhs bounds
  | sliceLoad lhs rhs bounds =>
    exact (Mapping.AgreeOn.value (locals (by simp +contextual [rvalueReads]))).bind fun _ =>
      (Mapping.AgreeOn.value (locals (by simp +contextual [rvalueReads]))).bind fun _ => .some _
  | inputLoad port element bounds frame | outputLoad port element bounds frame =>
    exact (optional (locals (by simp +contextual [rvalueReads]))).bind fun _ =>
      (Mapping.AgreeOn.value (locals (by simp +contextual [rvalueReads]))).bind fun _ => .some _
  | bufferLoad ref channel index bounds =>
    exact (bufferRef (locals (by simp +contextual [rvalueReads]))).bind fun _ =>
      (optional (locals (by simp +contextual [rvalueReads]))).bind fun _ =>
        (Mapping.AgreeOn.value (locals (by simp +contextual [rvalueReads]))).bind fun _ => .some _
  | bufferParamLoad ref channel index bounds =>
    exact (bufferParamRef (agree.mono (by simp +contextual [rvalueReads])
      (by simp [rvalueParameters]))).bind fun _ =>
        (optional (locals (by simp +contextual [rvalueReads]))).bind fun _ =>
          (Mapping.AgreeOn.value (locals (by simp +contextual [rvalueReads]))).bind fun _ => .some _
  | bufferLen ref | bufferChannels ref | bufferSampleRate ref | bufferIsBound ref =>
    exact (bufferRef agree).map _
  | bufferParamLen ref | bufferParamChannels ref | bufferParamSampleRate ref
  | bufferParamIsBound ref => exact (bufferParamRef agree).map _
  | makeSlice source start len bounds access =>
    exact (sliceSource (agree.mono (by simp +contextual [rvalueReads])
      (by simp [rvalueParameters]))).bind fun _ =>
        (Mapping.AgreeOn.value (locals (by simp +contextual [rvalueReads]))).bind fun _ =>
          (Mapping.AgreeOn.value (locals (by simp +contextual [rvalueReads]))).bind fun _ => .some _

theorem callArgument {argument : CallArgument}
    (agree : mapping.AgreeOn mapping' (callArgumentReads argument)
      (callArgumentParameters argument)) :
    Agree (rewriteCallArgument mapping argument) (rewriteCallArgument mapping' argument) := by
  cases argument with
  | value value => exact (Mapping.AgreeOn.value agree).map _
  | place place => exact (Mapping.AgreeOn.place agree).map _
  | sliceElement slice index bounds | sliceWindow slice start bounds =>
    exact (value (agree.mono (by simp +contextual [callArgumentReads]))).bind fun _ =>
      (value (agree.mono (by simp +contextual [callArgumentReads]))).bind fun _ => .some _
  | arrayWindow array start bounds =>
    exact (place (agree.mono (by simp +contextual [callArgumentReads])
      (by simp [callArgumentParameters]))).bind fun _ =>
        (value (agree.mono (by simp +contextual [callArgumentReads]))).bind fun _ => .some _
  | buffer ref => exact (bufferRef agree).map _
  | bufferParam ref => exact (bufferParamRef agree).map _
  | bufferSpan span => exact (spanRef agree).map _

theorem sliceCopy {copy : SliceCopy} (agree : mapping.AgreeOn mapping' (sliceCopyReads copy) []) :
    Agree (rewriteSliceCopy mapping copy) (rewriteSliceCopy mapping' copy) :=
  (value (agree.mono (by simp +contextual [sliceCopyReads]))).bind fun _ =>
    (value (agree.mono (by simp +contextual [sliceCopyReads]))).bind fun _ => .some _

theorem operation {operation : Operation}
    (agree : mapping.AgreeOn mapping' (operationReads operation) (operationParameters operation))
    (writes : ∀ localId ∈ operationWrites operation,
      Agree (mapping.writes localId) (mapping'.writes localId)) :
    Agree (rewriteOperation mapping operation) (rewriteOperation mapping' operation) := by
  have locals {reads : List LocalId} (part : ∀ localId ∈ reads, localId ∈ operationReads operation) :
      mapping.AgreeOn mapping' reads [] := agree.mono part
  cases operation with
  | assign target value =>
    exact (destination (agree.mono (by simp +contextual [operationReads])
      (by simp +contextual [operationParameters])) writes).bind fun _ =>
        (rvalue (agree.mono (by simp +contextual [operationReads])
          (by simp +contextual [operationParameters]))).bind fun _ => .some _
  | call results function args =>
    exact (Agree.mapM writes).bind fun _ =>
      (Agree.mapM fun argument mem => (agree.element mem).callArgument).bind fun _ => .some _
  | publishDelegate delegate args =>
    exact (Agree.mapM fun argument mem => (agree.element mem).callArgument).map _
  | publishLog site arguments => exact agree.values.map _
  | outputStore output element bounds frame value =>
    exact (optional (locals (by simp +contextual [operationReads]))).bind fun _ =>
      (Mapping.AgreeOn.value (locals (by simp +contextual [operationReads]))).bind fun _ =>
        (Mapping.AgreeOn.value (locals (by simp +contextual [operationReads]))).bind fun _ => .some _
  | controlOutputStore output element bounds value =>
    exact (optional (locals (by simp +contextual [operationReads]))).bind fun _ =>
      (Mapping.AgreeOn.value (locals (by simp +contextual [operationReads]))).bind fun _ => .some _
  | bufferStore ref channel index value bounds =>
    exact (bufferRef (locals (by simp +contextual [operationReads]))).bind fun _ =>
      (optional (locals (by simp +contextual [operationReads]))).bind fun _ =>
        (Mapping.AgreeOn.value (locals (by simp +contextual [operationReads]))).bind fun _ =>
          (Mapping.AgreeOn.value (locals (by simp +contextual [operationReads]))).bind fun _ =>
            .some _
  | bufferParamStore ref channel index value bounds =>
    exact (bufferParamRef (agree.mono (by simp +contextual [operationReads])
      (by simp [operationParameters]))).bind fun _ =>
        (optional (locals (by simp +contextual [operationReads]))).bind fun _ =>
          (Mapping.AgreeOn.value (locals (by simp +contextual [operationReads]))).bind fun _ =>
            (Mapping.AgreeOn.value (locals (by simp +contextual [operationReads]))).bind fun _ =>
              .some _
  | sliceStore slice index value bounds =>
    exact (Mapping.AgreeOn.value (locals (by simp +contextual [operationReads]))).bind fun _ =>
      (Mapping.AgreeOn.value (locals (by simp +contextual [operationReads]))).bind fun _ =>
        (Mapping.AgreeOn.value (locals (by simp +contextual [operationReads]))).bind fun _ => .some _
  | sliceFill target value =>
    exact (Mapping.AgreeOn.value (locals (by simp +contextual [operationReads]))).bind fun _ =>
      (Mapping.AgreeOn.value (locals (by simp +contextual [operationReads]))).bind fun _ => .some _
  | sliceCopy copies preflight =>
    exact (Agree.mapM fun copy mem => sliceCopy (agree.mono
      fun _ inner => List.mem_flatMap.mpr ⟨copy, mem, inner⟩)).map _

mutual

theorem statement : ∀ {statement : Statement},
    mapping.AgreeOn mapping' (nestedReads statement) (statementParameters statement) →
    (∀ localId ∈ nestedWrites statement,
      Agree (mapping.writes localId) (mapping'.writes localId)) →
    Agree (rewriteStatement mapping statement) (rewriteStatement mapping' statement)
  | .op _, agree, writes => (agree.operation writes).map _
  | .ite _ _ _, agree, writes =>
    (value (agree.mono (by simp +contextual [nestedReads]))).bind fun _ =>
      (block (agree.mono (by simp +contextual [nestedReads])
        (by simp +contextual [statementParameters]))
        fun localId mem => writes localId (List.mem_append_left _ mem)).bind fun _ =>
          (block (agree.mono (by simp +contextual [nestedReads])
            (by simp +contextual [statementParameters]))
            fun localId mem => writes localId (List.mem_append_right _ mem)).bind fun _ => .some _
  | .loop _, agree, writes => (block agree writes).map _
  | .brk, _, _ | .cont, _, _ => .some _
  | .ret _, agree, _ => agree.values.map _

/-- Mappings that agree on what a block refers to rewrite it in the same way. -/
theorem block : ∀ {block : Block},
    mapping.AgreeOn mapping' (blockReads block) (blockParameters block) →
    (∀ localId ∈ blockWrites block, Agree (mapping.writes localId) (mapping'.writes localId)) →
    Agree (rewriteBlock mapping block) (rewriteBlock mapping' block)
  | [], _, _ => .some _
  | _ :: _, agree, writes =>
    (statement (agree.mono (by simp +contextual [blockReads])
      (by simp +contextual [blockParameters]))
      fun localId mem => writes localId (List.mem_append_left _ mem)).bind fun _ =>
        (Mapping.AgreeOn.block (agree.mono (by simp +contextual [blockReads])
          (by simp +contextual [blockParameters]))
          fun localId mem => writes localId (List.mem_append_right _ mem)).bind fun _ => .some _

end

end Mapping.AgreeOn

end Onda.Mir
