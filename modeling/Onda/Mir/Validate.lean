import Mathlib.Data.List.Dedup
import Mathlib.Data.List.Sort
import Onda.Mir.Validate.Assignment
import Onda.Mir.Validate.Body

/-!
# Validation of programs

`validate` collects the errors of a program in the order in which they are
reported; a program is accepted when there are none.  Acceptance here is
acceptance without producer proofs: unchecked bounds, result references, integer
range invariants, pinned state and omitted copy preflights are errors.
-/

namespace Onda.Mir

namespace Validate

open Structured

structure ValidationError where
  message : String
  function : Option FunctionId := none
deriving DecidableEq, Repr

/-- Errors of the program as a whole. -/
def programErrors (messages : List String) : List ValidationError :=
  messages.map fun message => { message := message }

def functionErrors (function : FunctionId) (messages : List String) :
    List ValidationError :=
  messages.map fun message => { message := message, function := some function }

def MIR_SCHEMA_VERSION : Nat := 7

/-- Largest block representable by signed 32-bit indexing. -/
def MAX_BLOCK_SIZE : Nat := i32Max

/-- Names of the positional process-entry parameters. -/
def PROCESS_PARAM_NAMES : List String := ["start_frame", "frames", "flags"]

def CompileConfig.validationErrors (config : CompileConfig) : List String :=
  let rate := config.sampleRate.toNat
  if !binary32.isFinite rate || binary32.isNegative rate || binary32.magnitude rate = 0 then
    ["sample rate must be finite and greater than zero"]
  else
    errorUnless (0 < config.blockSize ∧ config.blockSize ≤ MAX_BLOCK_SIZE)
      s!"block size must be between 1 and {MAX_BLOCK_SIZE} frames"

section Interface

variable (program : Program)

/-! ### Names -/

/-- A declared name, its kind and the names of its parameters. -/
structure InterfaceName where
  name : String
  kind : String
  owner : String := ""
  parameters : List String := []

/-- Every interface name, in the order of declaration. -/
def interfaceNames (interface : Interface) : List InterfaceName :=
  (interface.inputs.map fun input => { name := input.name, kind := "an input" })
    ++ (interface.outputs.map fun output =>
      { name := output.name, kind := "an audio output" })
    ++ (interface.controlOutputs.map fun output =>
      { name := output.name, kind := "a control output" })
    ++ (interface.params.map fun param => { name := param.name, kind := "a parameter" })
    ++ (interface.buffers.map fun buffer => { name := buffer.name, kind := "a buffer" })
    ++ (interface.bufferArrays.map fun array =>
      { name := array.name, kind := "a buffer array" })
    ++ (interface.events.map fun event =>
      { name := event.name, kind := "an event", owner := "event",
        parameters := event.params.map (·.name) })
    ++ interface.delegates.map fun delegate =>
      { name := delegate.name, kind := "a delegate", owner := "delegate",
        parameters := delegate.params.map (·.name) }

def duplicateParameters (owner name : String) : List String → List String → List String
  | _, [] => []
  | earlier, parameter :: rest =>
    errorUnless (!earlier.contains parameter)
        s!"{owner} '{name}' has duplicate parameter name '{parameter}'"
      ++ duplicateParameters owner name (parameter :: earlier) rest

/-- A name is compared with its last previous use. -/
def duplicateNames : List (String × String) → List InterfaceName → List String
  | _, [] => []
  | earlier, entry :: rest =>
    (match earlier.lookup entry.name with
      | some previous =>
        [s!"interface name '{entry.name}' is used by both {previous} and {entry.kind}"]
      | none => [])
      ++ duplicateParameters entry.owner entry.name [] entry.parameters
      ++ duplicateNames ((entry.name, entry.kind) :: earlier) rest

def validateInterfaceNames : List String :=
  duplicateNames [] (interfaceNames program.interface)

/-! ### Ports, parameters and state -/

/-- The type of an interface item is portable storage. -/
def validateStorageType (ty : TypeId) (context : String) : List String :=
  requireType program ty ++ rejectRuntimeHandleStorage program ty context

/-- A declared range and the default against it. -/
def validateRange (range : Option ValueRange) (ty : TypeId)
    (default : Option ConstantValue) (context : String) : List String :=
  match range with
  | none => []
  | some range =>
    match valueRangeValidationError program range ty with
    | some reason => [s!"{context} range {reason}"]
    | none =>
      errorUnless (default.all (constantIsWithinRange range))
        s!"{context} default is outside its declared range"

def validateDefault (default : Option ConstantValue) (ty : TypeId) (context : String) :
    List String :=
  errorUnless (default.all fun value => constantMatchesType program value ty)
    s!"{context} default does not match type {typeName program ty}"

def validateInput (input : Input) : List String :=
  let context := s!"input '{input.name}'"
  validateStorageType program input.ty context
    ++ validateDefault program input.default input.ty context
    ++ validateRange program input.range input.ty input.default context

def validateParam (param : Param) : List String :=
  let context := s!"parameter '{param.name}'"
  let element := match program.types[param.ty]? with
    | some (.array element _) => element
    | _ => param.ty
  validateStorageType program param.ty context
    ++ validateDefault program (some param.default) param.ty context
    ++ validateRange program param.range element (some param.default) context

def stateStorage : StatePersistence → String
  | .snapshot => "snapshot state"
  | .instanceScratch => "instance-scratch state"
  | .controlMirror => "control-mirror state"

/-- An integer range is a producer proof. -/
def validateIntegerRange (range : Option IntegerRangeInvariant) (ty : TypeId)
    (context : String) : List String :=
  match range with
  | none => []
  | some range =>
    s!"{context} integer range requires trusted producer validation"
      :: errorOf (integerRangeValidationError program range ty) fun reason =>
        s!"{context} integer range {reason}"

def validateStateSlot (slot : StateSlot) : List String :=
  let context := s!"{stateStorage slot.persistence} '{slot.name}'"
  validateStorageType program slot.ty context
    ++ errorUnless (!slot.pinned)
      s!"{context} pinned initialization requires trusted producer validation"
    ++ validateIntegerRange program slot.integerRange slot.ty context

def validateControlOutputMirror (output : ControlOutput) : List String :=
  match program.state[output.mirror]? with
  | none =>
    [s!"control output '{output.name}' references missing mirror state {output.mirror}"]
  | some slot =>
    errorUnless (slot.persistence = .controlMirror)
        (s!"control output '{output.name}' mirror state '{slot.name}' is not a control "
          ++ "mirror")
      ++ errorUnless (program.typesEquivalent output.ty slot.ty)
        (s!"control output '{output.name}' type {typeName program output.ty} does not match "
          ++ s!"mirror state '{slot.name}' type {typeName program slot.ty}")

def validateMirrorCount (slot : StateSlot) (state : StateId) : List String :=
  if slot.persistence ≠ .controlMirror then []
  else
    match program.interface.controlOutputs.countP fun output => output.mirror == state with
    | 0 => [s!"control mirror state '{slot.name}' is not referenced by a control output"]
    | 1 => []
    | count =>
      [s!"control mirror state '{slot.name}' is referenced by {count} control outputs"]

def validateControlOutputMirrors : List String :=
  program.interface.controlOutputs.flatMap (validateControlOutputMirror program)
    ++ program.state.zipIdx.flatMap fun entry => validateMirrorCount program entry.1 entry.2

/-! ### Buffers and constant data -/

def validateBuffer (buffer : Buffer) : List String :=
  errorOf (channelsValidationError buffer.channels buffer.element) fun reason =>
    s!"buffer '{buffer.name}' {reason}"

/-- One buffer of an array: it belongs to no earlier array and has the
descriptor of the first buffer. -/
def validateBufferArraySlot (group : BufferArray) (expected : Buffer)
    (occupied : List (BufferId × String)) (index : BufferId) : List String :=
  (match occupied.lookup index with
    | some previous =>
      [s!"buffer arrays '{previous}' and '{group.name}' overlap at buffer {index}"]
    | none => [])
    ++ match program.interface.buffers[index]? with
      | some buffer =>
        errorUnless (sameDescriptor buffer expected)
          (s!"buffer array '{group.name}' contains incompatible descriptor "
            ++ s!"'{buffer.name}'")
      | none => []

def validateBufferArraysFrom (occupied : List (BufferId × String)) :
    List BufferArray → List String
  | [] => []
  | group :: rest =>
    let buffers := program.interface.buffers
    if group.len = 0 then
      s!"buffer array '{group.name}' has zero length"
        :: validateBufferArraysFrom occupied rest
    else
      match buffers[group.first]? with
      | some expected =>
        if group.first + group.len ≤ buffers.length then
          let indices := List.range' group.first group.len
          indices.flatMap (validateBufferArraySlot program group expected occupied)
            ++ validateBufferArraysFrom
              (indices.map (fun index => (index, group.name)) ++ occupied) rest
        else outOfRange group ++ validateBufferArraysFrom occupied rest
      | none => outOfRange group ++ validateBufferArraysFrom occupied rest
where
  outOfRange (group : BufferArray) : List String :=
    [s!"buffer array '{group.name}' range {group.first}..{group.first + group.len} exceeds "
      ++ s!"{program.interface.buffers.length} buffers"]

def validateConstData (data : ConstData) : List String :=
  errorUnless (data.values.length ≤ i32Max)
      s!"constant data '{data.name}' length exceeds the signed i32 MIR boundary"
    ++ errorUnless (scalarSequenceFitsI32Bytes data.values.length data.element)
      s!"constant data '{data.name}' logical byte size exceeds the signed i32 MIR boundary"
    ++ data.values.flatMap fun value =>
      errorUnless (value.ty = data.element)
        (s!"constant data '{data.name}' contains {debugScalar value.ty}, expected "
          ++ debugScalar data.element)

def validateLogSite (index : Nat) (site : LogSite) : List String :=
  let payloadSize :=
    min (site.argumentTypes.map ScalarType.logicalByteWidth).sum (2 ^ 32 - 1)
  errorUnless (site.payloadSize = payloadSize)
    s!"log site {index} payload size is {site.payloadSize}, expected {payloadSize}"

/-! ### Entry points and messages -/

def requireFunctionKind (id : FunctionId) (expected : FunctionKind) (label : String) :
    List String :=
  match program.functions[id]? with
  | some function =>
    errorUnless (function.kind = expected)
      (s!"{label} {id} has kind {debugKind function.kind}, expected "
        ++ debugKind expected)
  | none => [s!"{label} references missing function {id}"]

def validateParameterlessEntrySignature (id : FunctionId) (label : String) :
    List ValidationError :=
  match program.functions[id]? with
  | none => []
  | some function =>
    functionErrors id
      (errorUnless function.params.isEmpty
          (s!"{label} must not declare function parameters; entry ABI values use dedicated "
            ++ "MIR places")
        ++ errorUnless function.results.isEmpty s!"{label} must not return values")

def validateProcessParam (index : Nat) (param : FunctionParam) (expectedName : String) :
    List String :=
  errorUnless (param.name = expectedName)
      s!"process parameter {index} must be named '{expectedName}', found '{param.name}'"
    ++ errorUnless (param.mode = .value)
      s!"process parameter '{expectedName}' must use value passing mode"
    ++ errorUnless (typeIsScalar program param.ty .i32)
      s!"process parameter '{expectedName}' must have type i32"

def validateProcessEntrySignature : List ValidationError :=
  match program.functions[program.entryPoints.process]? with
  | none => []
  | some function =>
    functionErrors program.entryPoints.process
      (errorUnless function.results.isEmpty "process entry point must not return values"
        ++ if function.params.length ≠ PROCESS_PARAM_NAMES.length then
            ["process entry point must have exactly 3 parameters (start_frame, frames, flags)"]
          else
            (function.params.zip PROCESS_PARAM_NAMES).zipIdx.flatMap fun param =>
              validateProcessParam program param.2 param.1.1 param.1.2)

/-- The only runtime handle of an event parameter is a read-only slice. -/
def validateEventParam (event : Event) (param : EventParam) : List String :=
  let context := s!"event '{event.name}' parameter '{param.name}'"
  requireType program param.ty
    ++ (if typeContainsRuntimeHandle program param.ty then
        match program.types[param.ty]? with
        | some (.slice _ .readOnly) => []
        | some (.slice ..) => [s!"{context} slice must be read-only"]
        | _ => [s!"{context} may only use a direct read-only slice as a runtime handle"]
      else [])
    ++ validateDefault program param.default param.ty context

def validateEvent (id : EventId) (event : Event) : List ValidationError :=
  programErrors (event.params.flatMap (validateEventParam program event)
      ++ requireFunctionKind program event.handler (.event id) "event handler")
    ++ validateParameterlessEntrySignature program event.handler
      s!"event '{event.name}' handler"

def validateDelegateParam (delegate : Delegate) (param : DelegateParam) : List String :=
  let context := s!"delegate '{delegate.name}' parameter '{param.name}'"
  requireType program param.ty ++
    match program.types[param.ty]? with
    | some (.scalar _) | some (.slice _ .readOnly) | none => []
    | some (.array element _) =>
      match program.types[element]? with
      | some (.scalar _) => []
      | _ => [s!"{context} fixed array element must be a primitive scalar"]
    | some (.slice ..) => [s!"{context} slice must be read-only"]
    | some _ =>
      [s!"{context} must be a primitive scalar, fixed primitive array, or read-only "
        ++ "primitive slice"]

/-- Entry-point kinds belong to the registered entry points. -/
def validateEntryRole (id : FunctionId) (function : Function) : List String :=
  match function.kind with
  | .init =>
    errorUnless (id = program.entryPoints.init)
      "init-kind function is not the program init entry point"
  | .process =>
    errorUnless (id = program.entryPoints.process)
      "process-kind function is not the program process entry point"
  | .event event =>
    match program.interface.events[event]? with
    | none => [s!"event-kind function references missing event {event}"]
    | some declared =>
      errorUnless (declared.handler = id)
        ("event-kind function is not the registered handler for event "
          ++ s!"'{declared.name}'")
  | .user => []

end Interface

/-! ### Control flow -/

structure ControlFlow where
  fallsThrough : Bool := false
  returns : Bool := false
  breaks : Bool := false
  continues : Bool := false

def ControlFlow.union (lhs rhs : ControlFlow) : ControlFlow where
  fallsThrough := lhs.fallsThrough || rhs.fallsThrough
  returns := lhs.returns || rhs.returns
  breaks := lhs.breaks || rhs.breaks
  continues := lhs.continues || rhs.continues

mutual

def statementControlFlow : Statement → ControlFlow
  | .op _ => { fallsThrough := true }
  | .ite _ thenBlock elseBlock =>
    (blockControlFlow thenBlock).union (blockControlFlow elseBlock)
  | .loop body =>
    -- Only a reachable break reaches the statement after the loop.
    { fallsThrough := (blockControlFlow body).breaks
      returns := (blockControlFlow body).returns }
  | .brk => { breaks := true }
  | .cont => { continues := true }
  | .ret _ => { returns := true }

/-- Statements after one that does not fall through are unreachable. -/
def blockControlFlow : List Statement → ControlFlow
  | [] => { fallsThrough := true }
  | statement :: rest =>
    let head := statementControlFlow statement
    if head.fallsThrough then
      ControlFlow.union { head with fallsThrough := false } (blockControlFlow rest)
    else head

end

/-! ### The call graph -/

mutual

def statementCallees (functionCount : Nat) : Statement → List FunctionId
  | .op (.call _ function _) => if function < functionCount then [function] else []
  | .op _ => []
  | .ite _ thenBlock elseBlock =>
    blockCallees functionCount thenBlock ++ blockCallees functionCount elseBlock
  | .loop body => blockCallees functionCount body
  | .brk | .cont | .ret _ => []

def blockCallees (functionCount : Nat) : List Statement → List FunctionId
  | [] => []
  | statement :: rest =>
    statementCallees functionCount statement ++ blockCallees functionCount rest

end

mutual

def statementContainsPublication : Statement → Bool
  | .op (.publishDelegate ..) => true
  | .op _ => false
  | .ite _ thenBlock elseBlock =>
    blockContainsPublication thenBlock || blockContainsPublication elseBlock
  | .loop body => blockContainsPublication body
  | .brk | .cont | .ret _ => false

def blockContainsPublication : List Statement → Bool
  | [] => false
  | statement :: rest =>
    statementContainsPublication statement || blockContainsPublication rest

end

section CallGraph

variable (program : Program)

/-- The functions the body of a function calls. -/
def callees (function : FunctionId) : List FunctionId :=
  match program.functions[function]? with
  | some declared => blockCallees program.functions.length declared.body
  | none => []

/-- A visit marks functions on the way down (`active`) and when they are left
(`done`); the cycle is the active path from the function that is met again. -/
def findCallCycleFrom :
    Nat → List FunctionId → List FunctionId → List FunctionId →
      List FunctionId × Option (List FunctionId)
  | _, _, done, [] => (done, none)
  | 0, _, done, _ => (done, none)
  | fuel + 1, path, done, function :: rest =>
    if function ∈ done then findCallCycleFrom fuel path done rest
    else if function ∈ path then
      (done, some (path.reverse.dropWhile (· ≠ function) ++ [function]))
    else
      match findCallCycleFrom fuel (function :: path) done
          ((callees program function).insertionSort (· ≤ ·)).dedup with
      | (done, none) => findCallCycleFrom fuel path (function :: done) rest
      | (done, some cycle) => (done, some cycle)

/-- The visits below one function are at most one for each edge and each
function on the way. -/
def findCallCycle : Option (List FunctionId) :=
  let count := program.functions.length
  (findCallCycleFrom program ((count + 1) * (count + 2)) [] [] (List.range count)).2

def validateAcyclicCallGraph : List ValidationError :=
  match findCallCycle program with
  | none => []
  | some cycle =>
    let names := cycle.map fun index =>
      match program.functions[index]? with
      | some function => function.name
      | none => ""
    functionErrors (cycle.headD 0)
      ["recursive call cycle is not realtime-safe: " ++ " -> ".intercalate names]

/-- Functions reachable from the pending ones, each reported once. -/
def validatePublicationFrom : Nat → List FunctionId → List FunctionId →
    List ValidationError
  | _, _, [] => []
  | 0, _, _ => []
  | fuel + 1, visited, index :: pending =>
    if index ∈ visited then validatePublicationFrom fuel visited pending
    else
      match program.functions[index]? with
      | none => validatePublicationFrom fuel visited pending
      | some function =>
        functionErrors index
            (errorUnless (!blockContainsPublication function.body)
              "init entry point reaches delegate publication")
          ++ validatePublicationFrom fuel (index :: visited)
            ((callees program index).reverse ++ pending)

def validateInitCannotReachPublication : List ValidationError :=
  let edges := ((List.range program.functions.length).map fun index =>
    (callees program index).length).sum
  validatePublicationFrom program (edges + 1) [] [program.entryPoints.init]

/-! ### Functions -/

def validateFunctionParam (param : FunctionParam) : List String :=
  requireType program param.ty
    ++ errorUnless (param.mode ≠ .resultReference
        || (match program.types[param.ty]? with
          | some (.scalar _) | some (.array ..) => true
          | _ => false))
      "result reference must refer to fixed scalar or array storage"
    ++ errorUnless (param.mode ≠ .resultReference)
      "result reference requires trusted producer validation"
    ++ validateIntegerRange program param.integerRange param.ty s!"parameter '{param.name}'"
    ++ match program.types[param.ty]? with
      | some (.bufferSpan ..) =>
        errorUnless (param.mode = .value)
          s!"buffer span parameter '{param.name}' must use value passing mode"
      | some (.buffer ..) =>
        errorUnless (param.mode ≠ .value)
          s!"buffer parameter '{param.name}' must use reference passing mode"
      | _ => []

/-- The name of a local in the debug format of an optional string. -/
def debugLocalName : Option String → String
  | some name => s!"Some(\"{name}\")"
  | none => "None"

def validateLocal (declared : Local) : List String :=
  requireType program declared.ty
    ++ validateIntegerRange program declared.integerRange declared.ty
      s!"local {debugLocalName declared.name}"

def validateFunction (function : Function) : List String :=
  errorUnless (function.params.length ≤ MAX_FUNCTION_PARAMETER_COUNT)
      (s!"function declares {function.params.length} parameters, exceeding the limit of "
        ++ s!"{MAX_FUNCTION_PARAMETER_COUNT}")
    ++ errorUnless (function.locals.length ≤ MAX_FUNCTION_LOCAL_COUNT)
      (s!"function declares {function.locals.length} locals, exceeding the limit of "
        ++ s!"{MAX_FUNCTION_LOCAL_COUNT}")
    ++ function.params.flatMap (validateFunctionParam program)
    ++ function.results.flatMap (fun result =>
      requireType program result ++ rejectRuntimeHandleStorage program result "function result")
    ++ function.locals.flatMap (validateLocal program)
    ++ rejectUncheckedBounds function.body
    ++ validateBlock program function 0 function.body
    ++ validateDefiniteAssignment program function
    ++ errorUnless (function.results.isEmpty || !(blockControlFlow function.body).fallsThrough)
      ("result-bearing function has a reachable path that falls through without returning "
        ++ "a value")

end CallGraph

end Validate

open Validate

/-- The errors of a program, without producer proofs. -/
def validate (program : Program) : List ValidationError :=
  programErrors
      (errorUnless (program.schemaVersion = MIR_SCHEMA_VERSION)
          (s!"schema version {program.schemaVersion} does not match compiler schema version "
            ++ s!"{MIR_SCHEMA_VERSION}")
        ++ CompileConfig.validationErrors program.config
        ++ program.types.zipIdx.flatMap (fun entry => validateType program entry.2 entry.1)
        ++ program.structs.flatMap (validateStruct program)
        ++ validateFixedAggregateTypes program
        ++ validateInterfaceNames program
        ++ program.interface.inputs.flatMap (validateInput program)
        ++ program.interface.outputs.flatMap (fun output =>
          validateStorageType program output.ty s!"output '{output.name}'")
        ++ program.interface.controlOutputs.flatMap (fun output =>
          validateStorageType program output.ty s!"control output '{output.name}'")
        ++ program.interface.params.flatMap (validateParam program)
        ++ program.state.flatMap (validateStateSlot program)
        ++ validateControlOutputMirrors program
        ++ program.interface.buffers.flatMap validateBuffer
        ++ validateBufferArraysFrom program [] program.interface.bufferArrays
        ++ program.constData.flatMap validateConstData
        ++ program.logSites.zipIdx.flatMap (fun entry => validateLogSite entry.2 entry.1)
        ++ requireFunctionKind program program.entryPoints.init .init "init entry point")
    ++ validateParameterlessEntrySignature program program.entryPoints.init
      "init entry point"
    ++ programErrors
      (requireFunctionKind program program.entryPoints.process .process
        "process entry point")
    ++ validateProcessEntrySignature program
    ++ program.interface.events.zipIdx.flatMap (fun entry =>
      validateEvent program entry.2 entry.1)
    ++ programErrors (program.interface.delegates.flatMap fun delegate =>
      delegate.params.flatMap (validateDelegateParam program delegate))
    ++ program.functions.zipIdx.flatMap (fun entry =>
      functionErrors entry.2 (validateEntryRole program entry.2 entry.1))
    ++ program.functions.zipIdx.flatMap (fun entry =>
      functionErrors entry.2 (validateFunction program entry.1))
    ++ validateInitCannotReachPublication program
    ++ validateAcyclicCallGraph program

/-- The programs validation accepts without producer proofs. -/
def Program.Accepted (program : Program) : Prop := validate program = []

instance (program : Program) : Decidable program.Accepted :=
  decidable_of_iff ((validate program).isEmpty = true) List.isEmpty_iff

end Onda.Mir
