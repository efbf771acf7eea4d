import Mathlib.Data.List.Basic
import Onda.Mir.Ir

/-!
# Definite assignment

The part of validation that decides whether every local is written before it is
read, and whether every frame operand of an audio access comes from
`ProcessFrame`.

For each local the validator keeps the set of initialization paths it has seen
written (`covered`, where a path covers everything below it), whether the local
holds the result of a `ProcessFrame`, and the local array that a slice local is
known to span completely.  States are joined at the end of an `If` and over the
breaks of a `Loop`.

**A loop body is checked once**, from the state before the loop; the states in
which the body falls through or continues are computed and not used.
-/

namespace Onda.Mir.Validate

open Structured

/-! ### Initialization paths -/

inductive InitProjection where
  | field (field : Nat)
  | index (index : Nat)
deriving DecidableEq, Repr

abbrev InitPath := List InitProjection

structure LocalInitialization where
  /-- A set of paths, without repetitions. -/
  covered : List InitPath := []
  processFrame : Bool := false
  fullSliceBacking : Option LocalId := none
deriving DecidableEq, Repr

/-- One entry for each local of the function. -/
abbrev AssignmentState := List LocalInitialization

structure AssignmentFlow where
  fallthrough : Option AssignmentState := none
  breaks : List AssignmentState := []
  continues : List AssignmentState := []

def AssignmentState.new (localCount : Nat) : AssignmentState :=
  List.replicate localCount {}

def localDisplay (function : Function) (localId : LocalId) : String :=
  match (function.locals[localId]?).bind (·.name) with
  | some name => s!"%{localId} ('{name}')"
  | none => s!"%{localId}"

/-- The index of a projection, when it is a constant `u32`. -/
def staticIndex : Value → Option Nat
  | .constant (.i32 index) => if 0 ≤ index.toInt then some index.toNat else none
  | _ => none

def staticInitializationPath : List Projection → Option InitPath
  | [] => some []
  | .field field :: rest => (staticInitializationPath rest).map (.field field :: ·)
  | .index index _ :: rest =>
    match staticIndex index with
    | some index => (staticInitializationPath rest).map (.index index :: ·)
    | none => none

/-- The constant part of a place before its first dynamic index. -/
def staticInitializationPrefix : List Projection → InitPath
  | [] => []
  | .field field :: rest => .field field :: staticInitializationPrefix rest
  | .index index _ :: rest =>
    match staticIndex index with
    | some index => .index index :: staticInitializationPrefix rest
    | none => []

def pathIsPrefix (region path : InitPath) : Bool := region.isPrefixOf path

def initializationIsCovered (covered : List InitPath) (requested : InitPath) : Bool :=
  covered.any fun region => pathIsPrefix region requested

/-- The type below `root` along an in-range path. -/
def typeAtInitializationPath (program : Program) (root : TypeId) :
    InitPath → Option TypeId
  | [] => some root
  | .field field :: rest => do
    let .struct definition ← program.types[root]? | none
    let member ← (← program.structs[definition]?).fields[field]?
    typeAtInitializationPath program member.ty rest
  | .index index :: rest => do
    let .array element len ← program.types[root]? | none
    if index < len then typeAtInitializationPath program element rest else none

/-- The components of an aggregate, unless there are more of them than covered
paths. -/
def directInitializationChildren (program : Program) (ty : TypeId)
    (coveredCount : Nat) : Option (List InitProjection) := do
  match ← program.types[ty]? with
  | .array _ len =>
    if coveredCount < len then none else some ((List.range len).map .index)
  | .struct definition =>
    let fieldCount := (← program.structs[definition]?).fields.length
    if coveredCount < fieldCount then none
    else some ((List.range fieldCount).map .field)
  | _ => none

/-- Replaces the covered components of `parent` by `parent`, when they are all
covered. -/
def normalizeParent (program : Program) (root : TypeId) (parent : InitPath)
    (covered : List InitPath) : List InitPath :=
  match typeAtInitializationPath program root parent with
  | none => covered
  | some parentTy =>
    match directInitializationChildren program parentTy covered.length with
    | none => covered
    | some children =>
      if children.all fun child => initializationIsCovered covered (parent ++ [child]) then
        (covered.filter fun path => !pathIsPrefix parent path).insert parent
      else covered

/-- Normalizes every ancestor of an inserted path, innermost first. -/
def normalizeInitializationCoverage (program : Program) (root : TypeId)
    (covered : List InitPath) (inserted : InitPath) : List InitPath :=
  (List.range inserted.length).reverse.foldl
    (fun covered depth => normalizeParent program root (inserted.take depth) covered)
    covered

/-! ### Joins -/

/-- The longer of two comparable paths. -/
def intersectPaths (left right : InitPath) : Option InitPath :=
  if pathIsPrefix left right then some right
  else if pathIsPrefix right left then some left
  else none

def intersectCovered (lhs rhs : List InitPath) : List InitPath :=
  (lhs.flatMap fun left => rhs.filterMap (intersectPaths left)).foldl
    (fun covered path => covered.insert path) []

def intersectLocals (program : Program) (ty : Option TypeId)
    (lhs rhs : LocalInitialization) : LocalInitialization :=
  let common := intersectCovered lhs.covered rhs.covered
  let covered := match ty with
    | none => common
    | some ty => common.foldl (normalizeInitializationCoverage program ty) common
  { covered := covered
    processFrame := lhs.processFrame && rhs.processFrame && covered.contains []
    fullSliceBacking :=
      if lhs.fullSliceBacking = rhs.fullSliceBacking then lhs.fullSliceBacking else none }

def intersectTwoAssignmentStates (program : Program) (function : Function)
    (lhs rhs : AssignmentState) : AssignmentState :=
  (lhs.zip rhs).mapIdx fun index pair =>
    intersectLocals program ((function.locals[index]?).map (·.ty)) pair.1 pair.2

def mergeAssignmentFallthrough (program : Program) (function : Function) :
    Option AssignmentState → Option AssignmentState → Option AssignmentState
  | some lhs, some rhs => some (intersectTwoAssignmentStates program function lhs rhs)
  | some state, none => some state
  | none, some state => some state
  | none, none => none

def intersectAssignmentStates (program : Program) (function : Function) :
    List AssignmentState → Option AssignmentState
  | [] => none
  | first :: rest => some (rest.foldl (intersectTwoAssignmentStates program function) first)

/-! ### Reads -/

section Reads

variable (function : Function) (state : AssignmentState)

def assignmentReadValue : Value → List String
  | .constant _ => []
  | .localVar localId =>
    match state[localId]? with
    | none => []
    | some initialization =>
      if initialization.covered.contains [] then []
      else [s!"local {localDisplay function localId} is read before it is definitely assigned"]

def assignmentReadOptionalValue : Option Value → List String
  | some value => assignmentReadValue function state value
  | none => []

def assignmentReadBufferRef : BufferRef → List String
  | .arrayElement _ _ selector _ => assignmentReadValue function state selector
  | .direct _ => []

def assignmentReadBufferParamRef : BufferParamRef → List String
  | .arrayElement _ selector _ => assignmentReadValue function state selector
  | .direct _ => []

/-- Whether the validator knows that a local holds the result of a
`ProcessFrame`. -/
def holdsProcessFrame (localId : LocalId) : Bool :=
  match state[localId]? with
  | some initialization => initialization.processFrame
  | none => false

def assignmentReadProcessFrame (value : Value) (operation : String) : List String :=
  assignmentReadValue function state value ++
    match value with
    | .constant _ => [s!"{operation} frame must be dominated by process_frame"]
    | .localVar localId =>
      if holdsProcessFrame state localId then []
      else [s!"{operation} frame must be dominated by process_frame"]

def assignmentReadPlaceIndices (place : Place) : List String :=
  place.projections.flatMap fun projection =>
    match projection with
    | .index index _ => assignmentReadValue function state index
    | .field _ => []

def assignmentReadPlace (place : Place) : List String :=
  assignmentReadPlaceIndices function state place ++
    match place.base with
    | .localVar localId =>
      match state[localId]? with
      | none => []
      | some initialization =>
        match staticInitializationPath place.projections with
        | none =>
          if initializationIsCovered initialization.covered
              (staticInitializationPrefix place.projections) then []
          else
            [s!"local {localDisplay function localId} is indexed before it is definitely assigned"]
        | some path =>
          if initializationIsCovered initialization.covered path then []
          else
            [s!"local {localDisplay function localId} is read before it is definitely assigned"]
    | _ => []

end Reads

/-- The type of the storage a slice is made from is a slice. -/
def placeIsSlice (program : Program) (function : Function) (place : Place) : Bool :=
  match (program.placeType function place).bind (program.types[·]?) with
  | some (.slice ..) => true
  | _ => false

def assignmentReadRvalue (program : Program) (function : Function)
    (state : AssignmentState) : Rvalue → List String
  | .initAll => []
  | .use value | .sliceLen value => assignmentReadValue function state value
  | .load place => assignmentReadPlace function state place
  | .unary _ operand => assignmentReadValue function state operand
  | .binary _ lhs rhs | .compare _ lhs rhs =>
    [lhs, rhs].flatMap (assignmentReadValue function state)
  | .cast value _ => assignmentReadValue function state value
  | .intrinsic _ args => args.flatMap (assignmentReadValue function state)
  | .processFrame offset => assignmentReadValue function state offset
  | .normalizeIndex index length _ =>
    [index, length].flatMap (assignmentReadValue function state)
  | .inputLoad _ element _ frame | .outputLoad _ element _ frame =>
    assignmentReadOptionalValue function state element
      ++ assignmentReadProcessFrame function state frame "audio I/O"
  | .bufferLoad buffer channel index _ =>
    assignmentReadBufferRef function state buffer
      ++ assignmentReadOptionalValue function state channel
      ++ assignmentReadValue function state index
  | .bufferParamLoad parameter channel index _ =>
    assignmentReadBufferParamRef function state parameter
      ++ assignmentReadOptionalValue function state channel
      ++ assignmentReadValue function state index
  | .bufferLen buffer | .bufferChannels buffer | .bufferSampleRate buffer
  | .bufferIsBound buffer => assignmentReadBufferRef function state buffer
  | .bufferParamLen parameter | .bufferParamChannels parameter
  | .bufferParamSampleRate parameter | .bufferParamIsBound parameter =>
    assignmentReadBufferParamRef function state parameter
  | .constDataLoad _ index _ => assignmentReadValue function state index
  | .makeSlice source start len _ _ =>
    (match source with
      | .place place =>
        assignmentReadPlaceIndices function state place
          ++ if placeIsSlice program function place then
              assignmentReadPlace function state place
            else []
      | .buffer buffer channel =>
        assignmentReadBufferRef function state buffer
          ++ assignmentReadOptionalValue function state channel
      | .bufferParam parameter channel =>
        assignmentReadBufferParamRef function state parameter
          ++ assignmentReadOptionalValue function state channel
      | .constData _ => [])
      ++ assignmentReadValue function state start
      ++ assignmentReadValue function state len
  | .sliceLoad slice index _ =>
    [slice, index].flatMap (assignmentReadValue function state)

def assignmentReadArgument (function : Function) (state : AssignmentState) :
    CallArgument → List String
  | .value value => assignmentReadValue function state value
  | .place place => assignmentReadPlace function state place
  | .sliceElement slice index _ =>
    assignmentReadValue function state slice ++ assignmentReadValue function state index
  | .arrayWindow array start _ =>
    assignmentReadPlace function state array ++ assignmentReadValue function state start
  | .sliceWindow slice start _ =>
    assignmentReadValue function state slice ++ assignmentReadValue function state start
  | .buffer buffer => assignmentReadBufferRef function state buffer
  | .bufferParam parameter => assignmentReadBufferParamRef function state parameter
  | .bufferSpan _ => []

/-! ### Writes -/

/-- Updates the entry of one local. -/
def updateLocal (state : AssignmentState) (localId : LocalId)
    (update : LocalInitialization → LocalInitialization) : AssignmentState :=
  state.modify localId update

/-- The local is written as a whole. -/
def assignmentWriteLocal (localId : LocalId) (processFrame : Bool)
    (state : AssignmentState) : AssignmentState :=
  updateLocal state localId fun _ =>
    { covered := [[]], processFrame := processFrame, fullSliceBacking := none }

def assignmentWritePlace (program : Program) (function : Function) (place : Place)
    (processFrame : Bool) (state : AssignmentState) : AssignmentState :=
  match place.base with
  | .localVar localId =>
    if place.projections = [] then assignmentWriteLocal localId processFrame state
    else
      updateLocal state localId fun initialization =>
        { covered :=
            match staticInitializationPath place.projections with
            | none => initialization.covered
            | some path =>
              match (function.locals[localId]?).map (·.ty) with
              | none => initialization.covered.insert path
              | some ty =>
                normalizeInitializationCoverage program ty
                  (initialization.covered.insert path) path
          processFrame := false
          fullSliceBacking := none }
  | _ => state

/-- The local array an assigned slice spans from its first to its last
element. -/
def fullLocalArraySlice (program : Program) (function : Function)
    (state : AssignmentState) : Rvalue → Option LocalId
  | .use (.localVar source) => (state[source]?).bind (·.fullSliceBacking)
  | .makeSlice (.place ⟨.localVar backing, []⟩) (.constant (.i32 start))
      (.constant (.i32 sliceLen)) _ _ => do
    if start = 0 then
      let .array _ len ← program.types[(← function.locals[backing]?).ty]? | none
      if 0 ≤ sliceLen.toInt ∧ sliceLen.toNat = len then some backing else none
    else none
  | _ => none

/-- A store through a slice that spans a local array writes the array. -/
def assignmentWriteFullSlice (slice : Value) (state : AssignmentState) :
    AssignmentState :=
  match slice with
  | .localVar slice =>
    match (state[slice]?).bind (·.fullSliceBacking) with
    | some backing => assignmentWriteLocal backing false state
    | none => state
  | .constant _ => state

/-- An assignment; a whole local also takes over what the value spans. -/
def assignmentAssign (program : Program) (function : Function) (destination : Place)
    (value : Rvalue) (state : AssignmentState) : AssignmentState :=
  let written := assignmentWritePlace program function destination
    value.isProcessFrame state
  match destination with
  | ⟨.localVar localId, []⟩ =>
    updateLocal written localId fun initialization =>
      { initialization with
        fullSliceBacking := fullLocalArraySlice program function state value }
  | _ => written

/-- The local whose value a writable reference argument may replace. -/
def readWriteArgumentLocal : CallArgument → Option LocalId
  | .place ⟨.localVar localId, _⟩ => some localId
  | .arrayWindow ⟨.localVar localId, _⟩ _ _ => some localId
  | .sliceWindow (.localVar localId) _ _ => some localId
  | _ => none

def assignmentInvalidateReadWriteArgument (argument : CallArgument)
    (state : AssignmentState) : AssignmentState :=
  match readWriteArgumentLocal argument with
  | some localId =>
    updateLocal state localId fun initialization =>
      { initialization with processFrame := false }
  | none => state

/-! ### Statements -/

/-- The parameters a call is made against. -/
def calleeParams (program : Program) (callee : FunctionId) : List FunctionParam :=
  match program.functions[callee]? with
  | some function => function.params
  | none => []

def assignmentReadCallArguments (program : Program) (function : Function)
    (state : AssignmentState) (callee : FunctionId) (args : List CallArgument) :
    List String :=
  args.zipIdx.flatMap fun argument =>
    match ((calleeParams program callee)[argument.2]?).map (·.mode), argument.1 with
    | some .resultReference, .place place => assignmentReadPlaceIndices function state place
    | some .resultReference, _ => []
    | _, argument => assignmentReadArgument function state argument

/-- What a call does to its reference arguments. -/
def assignmentWriteArgument (program : Program) (function : Function)
    (state : AssignmentState) (argument : CallArgument × FunctionParam) :
    AssignmentState :=
  match argument.2.mode, argument.1 with
  | .resultReference, .place place => assignmentWritePlace program function place false state
  | .readWriteReference, argument => assignmentInvalidateReadWriteArgument argument state
  | _, _ => state

/-- The index reads of result-reference destinations. -/
def assignmentReadResultArguments (program : Program) (function : Function)
    (state : AssignmentState) (callee : FunctionId) (args : List CallArgument) :
    List String :=
  (args.zip (calleeParams program callee)).flatMap fun argument =>
    match argument.2.mode, argument.1 with
    | .resultReference, .place place => assignmentReadPlaceIndices function state place
    | _, _ => []

def validateAssignmentStatement (program : Program) (function : Function)
    (operation : Operation) (state : AssignmentState) :
    List String × AssignmentState :=
  match operation with
  | .assign destination value =>
    (assignmentReadRvalue program function state value
        ++ assignmentReadPlaceIndices function state destination,
      assignmentAssign program function destination value state)
  | .call results callee args =>
    (assignmentReadCallArguments program function state callee args
        ++ assignmentReadResultArguments program function state callee args,
      results.foldl (fun state result => assignmentWriteLocal result false state)
        ((args.zip (calleeParams program callee)).foldl
          (assignmentWriteArgument program function) state))
  | .publishDelegate _ args =>
    (args.flatMap fun argument =>
      match argument with
      | .buffer _ | .bufferParam _ | .bufferSpan _ => []
      | argument => assignmentReadArgument function state argument, state)
  | .publishLog _ arguments =>
    (arguments.flatMap (assignmentReadValue function state), state)
  | .outputStore _ element _ frame value =>
    (assignmentReadOptionalValue function state element
      ++ assignmentReadProcessFrame function state frame "audio output store"
      ++ assignmentReadValue function state value, state)
  | .controlOutputStore _ element _ value =>
    (assignmentReadOptionalValue function state element
      ++ assignmentReadValue function state value, state)
  | .bufferStore buffer channel index value _ =>
    (assignmentReadBufferRef function state buffer
      ++ assignmentReadOptionalValue function state channel
      ++ [index, value].flatMap (assignmentReadValue function state), state)
  | .bufferParamStore parameter channel index value _ =>
    (assignmentReadBufferParamRef function state parameter
      ++ assignmentReadOptionalValue function state channel
      ++ [index, value].flatMap (assignmentReadValue function state), state)
  | .sliceStore slice index value _ =>
    ([slice, index, value].flatMap (assignmentReadValue function state), state)
  | .sliceFill destination value =>
    ([destination, value].flatMap (assignmentReadValue function state),
      assignmentWriteFullSlice destination state)
  | .sliceCopy copies _ =>
    (copies.flatMap fun copy =>
        [copy.destination, copy.source].flatMap (assignmentReadValue function state),
      copies.foldl (fun state copy => assignmentWriteFullSlice copy.destination state)
        state)

mutual

def validateAssignmentFlow (program : Program) (function : Function) :
    Statement → AssignmentState → List String × AssignmentFlow
  | .op operation, state =>
    let (errors, next) := validateAssignmentStatement program function operation state
    (errors, { fallthrough := some next })
  | .ite condition thenBlock elseBlock, state =>
    let (thenErrors, thenFlow) :=
      validateAssignmentBlock program function thenBlock state
    let (elseErrors, elseFlow) :=
      validateAssignmentBlock program function elseBlock state
    (assignmentReadValue function state condition ++ thenErrors ++ elseErrors,
      { fallthrough := mergeAssignmentFallthrough program function
          thenFlow.fallthrough elseFlow.fallthrough
        breaks := thenFlow.breaks ++ elseFlow.breaks
        continues := thenFlow.continues ++ elseFlow.continues })
  | .loop body, state =>
    let (errors, bodyFlow) := validateAssignmentBlock program function body state
    (errors,
      { fallthrough := intersectAssignmentStates program function bodyFlow.breaks })
  | .brk, state => ([], { breaks := [state] })
  | .cont, state => ([], { continues := [state] })
  | .ret values, state => (values.flatMap (assignmentReadValue function state), {})

def validateAssignmentBlock (program : Program) (function : Function) :
    List Statement → AssignmentState → List String × AssignmentFlow
  | [], state => ([], { fallthrough := some state })
  | statement :: rest, state =>
    let (errors, flow) := validateAssignmentFlow program function statement state
    match flow.fallthrough with
    | none => (errors, flow)
    | some next =>
      let (moreErrors, tail) := validateAssignmentBlock program function rest next
      (errors ++ moreErrors,
        { fallthrough := tail.fallthrough
          breaks := flow.breaks ++ tail.breaks
          continues := flow.continues ++ tail.continues })

end

def validateDefiniteAssignment (program : Program) (function : Function) :
    List String :=
  (validateAssignmentBlock program function function.body
    (AssignmentState.new function.locals.length)).1

end Onda.Mir.Validate
