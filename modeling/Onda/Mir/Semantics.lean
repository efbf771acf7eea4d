import Onda.Mir.Evaluation

/-!
# Execution

The meaning of a program.  A `State` is the memory, the number of activations
started so far and the trace, newest event first; nothing is ever taken off the
trace, so a property of a run is a property of its trace.

`operate` executes one operation, with the execution of a callee as a
parameter; `Machine.invoke` ties the knot on the call depth, and
`Machine.enter` is a call from the host.
-/

namespace Onda.Mir

open Structured

structure State where
  memory : Memory
  /-- The next activation. -/
  next : Nat
  trace : List TraceEvent := []

namespace State

def note (state : State) (event : TraceEvent) : State :=
  { state with trace := event :: state.trace }

/-- The run reaches a step of an activation. -/
def reach (state : State) (act : Activation) (step : Step) : State :=
  state.note (.step act.id act.functionId step state.memory)

/-- Evaluates, recording what was read. -/
def run {α : Type} (state : State) (action : Run α) : State × Except Stop α :=
  ({ state with
      trace := ((action state.memory).1.map .observe).reverse ++ state.trace },
    (action state.memory).2)

/-- One store; a store to an unbound buffer, or of no cell, leaves no trace. -/
def store (state : State) (activation : Nat) (store : Write) : State :=
  if store.effective then
    { state with
      memory := state.memory.write store
      trace := .write activation store :: state.trace }
  else state

def commit (state : State) (activation : Nat) (stores : List Write) : State :=
  stores.foldl (fun state store => state.store activation store) state

end State

/-! ### Calls -/

/-- Storage owned by an activation for one of its parameters. -/
def argumentLoc (activation : Nat) (parameter : ParameterId) (ty : TypeId) : Loc :=
  { object := .argument activation parameter, path := [], view := .whole, ty := ty }

/-- An argument passed as a copy. -/
def bindData (machine : Machine) (callee : Nat) (index : ParameterId) (ty : TypeId)
    (data : Data) : Run (Loc × List Write) := do
  let loc := argumentLoc callee index ty
  pure (loc, [← storeLoc machine loc data])

/-- The storage as a parameter of a callee sees it. -/
def Loc.passedTo (loc : Loc) (callee : Nat) (index : ParameterId) (ty : TypeId) : Loc :=
  { loc with ty := ty, through := (callee, index) :: loc.through }

/-- An argument passed as a reference: the parameter is another name for the
storage, which has to have the parameter's shape. -/
def bindLoc (machine : Machine) (callee : Nat) (index : ParameterId) (ty : TypeId)
    (loc : Loc) : Run (Loc × List Write) := do
  let declared ← Eval.orThrow .stuck (machine.program.shape ty)
  let actual ← Eval.orThrow .stuck (machine.program.shape loc.ty)
  Eval.require (actual = declared) .stuck
  pure (loc.passedTo callee index ty, [])

def evalSpan (act : Activation) : BufferSpanRef → Run Leaf
  | .interface first len => pure (.span first len)
  | .parameter span start len => do
    let loc ← Eval.orThrow .stuck act.params[span]?
    match (← Eval.ask) loc.object (loc.cell []) with
    | some (.span first sourceLen) =>
      Eval.require (start + len ≤ sourceLen) .stuck
      pure (.span (first + start) len)
    | _ => Eval.throw .stuck

/-- The element count and type of a fixed-array parameter. -/
def arrayParameter (machine : Machine) (ty : TypeId) : Run (TypeId × Nat) := do
  match ← Eval.orThrow .stuck machine.program.types[ty]? with
  | .array element len => pure (element, len)
  | _ => Eval.throw .stuck

def bindArgument (machine : Machine) (act : Activation) (callee : Nat)
    (index : ParameterId) (param : FunctionParam) (argument : CallArgument) :
    Run (Loc × List Write) := do
  match param.mode, argument with
  | .value, .value value => do
    bindData machine callee index param.ty (← evalValue machine act value)
  | .value, .place place => do
    bindData machine callee index param.ty
      (← readLoc machine act (← lowerPlace machine act place))
  | .value, .bufferSpan span => do
    bindData machine callee index param.ty (Data.leaf (← evalSpan act span))
  | _, .buffer buffer => do
    let selected ← selectBuffer machine act buffer
    bindData machine callee index param.ty (Data.leaf (.buffer selected.buffer))
  | .value, _ => Eval.throw .stuck
  | _, .place place => do
    bindLoc machine callee index param.ty (← lowerPlace machine act place)
  | _, .sliceElement slice position bounds => do
    let desc ← evalSlice machine act slice
    let position ← evalI32 machine act position
    let position ← ofExcept (normalizeIndex position.toInt desc.len bounds)
    Eval.require (machine.program.isScalar param.ty = some desc.element) .stuck
    bindLoc machine callee index param.ty
      { object := desc.object, path := desc.elementPath position, view := .whole,
        ty := param.ty, viaSlice := true, neutral := desc.neutral }
  | _, .arrayWindow array start bounds => do
    let loc ← lowerPlace machine act array
    let (item, len) ← arrayParameter machine loc.ty
    let (element, required) ← arrayParameter machine param.ty
    Eval.require (required ≤ len) .stuck
    Eval.require (machine.program.shape item = machine.program.shape element) .stuck
    let start ← evalI32 machine act start
    let start ← ofExcept (normalizeWindow start.toInt len required bounds)
    bindLoc machine callee index param.ty (loc.window start param.ty)
  | _, .sliceWindow slice start bounds => do
    let desc ← evalSlice machine act slice
    let (element, required) ← arrayParameter machine param.ty
    Eval.require (machine.program.isScalar element = some desc.element) .stuck
    let broken := if bounds = .unchecked then Stop.undefined else .failure
    Eval.require (desc.stride = 1 ∧ required ≤ desc.len) broken
    let start ← evalI32 machine act start
    let start ← ofExcept (normalizeWindow start.toInt desc.len required bounds)
    bindLoc machine callee index param.ty
      { object := desc.object, path := desc.path,
        view := if desc.single then .single else .window (desc.start + start),
        ty := param.ty, viaSlice := true, neutral := desc.neutral }
  | _, .bufferParam (.direct parameter) => do
    bindLoc machine callee index param.ty (← Eval.orThrow .stuck act.params[parameter]?)
  | _, .bufferParam ref => do
    let selected ← selectBufferParam machine act ref
    bindData machine callee index param.ty (Data.leaf (.buffer selected.buffer))
  | _, _ => Eval.throw .stuck

/-- All arguments of a call, left to right. -/
def bindArguments (machine : Machine) (act : Activation) (callee : Nat)
    (params : List FunctionParam) (args : List CallArgument) :
    Run (List (Loc × List Write)) := do
  Eval.require (params.length = args.length) .stuck
  (params.zip args).zipIdx.mapM fun argument =>
    bindArgument machine act callee argument.2 argument.1.1 argument.1.2

/-- How a callee runs: the execution of its body from a state. -/
abbrev Invoke := Activation → State → State × Outcome (List Data) Stop

/-- Stores the results of a call into the caller's locals. -/
def storeResults (machine : Machine) (act : Activation) (results : List LocalId)
    (values : List Data) : Run (List Write) := do
  Eval.require (results.length = values.length) .stuck
  (results.zip values).mapM fun result => do
    storeLoc machine (← Eval.orThrow .stuck (act.localLoc result.1)) result.2

/-- Evaluates stores and performs them. -/
def State.perform (state : State) (activation : Nat) (action : Run (List Write)) :
    State × Option Stop :=
  match state.run action with
  | (state, .ok stores) => (state.commit activation stores, none)
  | (state, .error reason) => (state, some reason)

/-- The activation a call starts. -/
def calleeActivation (state : State) (function : FunctionId) (callee : Function)
    (bound : List (Loc × List Write)) : Activation :=
  { id := state.next, functionId := function, function := callee,
    params := bound.map Prod.fst }

/-- The state a callee starts in: its own argument storage is filled. -/
def State.started (state : State) (bound : List (Loc × List Write)) : State :=
  State.commit { state with next := state.next + 1 } state.next
    (bound.flatMap Prod.snd)

/-- What a call does with the outcome of the callee. -/
def finishCall (machine : Machine) (act : Activation) (results : List LocalId) :
    State × Outcome (List Data) Stop → State × Option Stop
  | (state, .ret values) => state.perform act.id (storeResults machine act results values)
  | (state, .fall) => state.perform act.id (storeResults machine act results [])
  | (state, .stop reason) => (state, some reason)
  | (state, _) => (state, some .stuck)

def operateCall (machine : Machine) (act : Activation) (invoke : Invoke)
    (results : List LocalId) (function : FunctionId) (args : List CallArgument)
    (state : State) : State × Option Stop :=
  match machine.program.functions[function]? with
  | none => (state, some .stuck)
  | some callee =>
    match state.run (bindArguments machine act state.next callee.params args) with
    | (state, .error reason) => (state, some reason)
    | (state, .ok bound) =>
      finishCall machine act results
        (invoke (calleeActivation state function callee bound) (state.started bound))

/-! ### Slice copies -/

/-- Two slices of one array whose spans of elements meet. -/
def SliceDesc.overlaps (lhs rhs : SliceDesc) (len : Nat) : Bool :=
  !lhs.neutral && !rhs.neutral && lhs.object == rhs.object && lhs.path == rhs.path
    && decide (0 < len)
    && decide (lhs.start ≤ rhs.start + (len - 1) * rhs.stride)
    && decide (rhs.start ≤ lhs.start + (len - 1) * lhs.stride)

/-- The pairs of a slice copy, checked before the first store. -/
def evalCopies (machine : Machine) (act : Activation) (copies : List SliceCopy)
    (preflight : SliceCopyPreflight) : Run (List (SliceDesc × SliceDesc)) :=
  copies.mapM fun copy => do
    let destination ← evalSlice machine act copy.destination
    let source ← evalSlice machine act copy.source
    Eval.require (destination.element = source.element) .stuck
    let clash := decide (destination.stride ≠ source.stride)
      && destination.overlaps source (min destination.len source.len)
    Eval.require (!clash) (if preflight = .required then .failure else .undefined)
    pure (destination, source)

/-- One pair: every element is read before the first one is stored. -/
def copySlice (machine : Machine) (act : Activation) (destination source : SliceDesc) :
    Run (List Write) :=
  (List.range (min destination.len source.len)).mapM fun index => do
    storeElement (destination.elementAt index)
      (← loadElement machine act (source.elementAt index))

def operateCopies (machine : Machine) (act : Activation) :
    List (SliceDesc × SliceDesc) → State → State × Option Stop
  | [], state => (state, none)
  | (destination, source) :: rest, state =>
    match state.perform act.id (copySlice machine act destination source) with
    | (state, none) => operateCopies machine act rest state
    | (state, some reason) => (state, some reason)

/-! ### Publication -/

def loadSlice (machine : Machine) (act : Activation) (slice : SliceDesc) : Run Data :=
  (List.range slice.len).mapM fun index => do
    let value ← loadElement machine act (slice.elementAt index)
    pure ([index], .scalar value)

/-- The payload of one delegate parameter: a scalar, or the elements of a slice
of the declared length. -/
def evalPayload (machine : Machine) (act : Activation) (param : DelegateParam)
    (argument : CallArgument) : Run Data := do
  let .value value := argument | Eval.throw .stuck
  match ← Eval.orThrow .stuck machine.program.types[param.ty]? with
  | .scalar _ => evalValue machine act value
  | .slice .. => loadSlice machine act (← evalSlice machine act value)
  | .array _ len =>
    let slice ← evalSlice machine act value
    Eval.require (slice.len = len) .failure
    loadSlice machine act slice
  | _ => Eval.throw .stuck

/-- The tensors of a sequence parameter have the published logical length. -/
def checkGroup (machine : Machine) (act : Activation) (args : List CallArgument)
    (group : PayloadGroup) : Run Unit := do
  let .value length ← Eval.orThrow .stuck args[group.lengthParameter]?
    | Eval.throw .stuck
  let length ← evalI32 machine act length
  Eval.require (0 ≤ length.toInt) .failure
  group.tensors.forM fun tensor => do
    let .value value ← Eval.orThrow .stuck args[tensor.1]? | Eval.throw .stuck
    let slice ← evalSlice machine act value
    Eval.require (slice.len = length.toInt * tensor.2) .failure

def publishDelegate (machine : Machine) (act : Activation) (delegate : DelegateId)
    (args : List CallArgument) : Run (List Write) := do
  let declared ← Eval.orThrow .stuck machine.program.interface.delegates[delegate]?
  Eval.require (declared.params.length = args.length) .stuck
  declared.groups.forM (checkGroup machine act args)
  let payload ← (declared.params.zip args).mapM fun parameter =>
    evalPayload machine act parameter.1 parameter.2
  Eval.emit (.delegate delegate payload)
  pure []

/-! ### Operations -/

/-- The storage of a control output, or of one of its elements. -/
def controlOutputLoc (machine : Machine) (act : Activation) (declared : ControlOutput)
    (element : Option Value) (bounds : BoundsMode) : Run Loc :=
  let root : Loc :=
    { object := .state declared.mirror, path := [], view := .whole, ty := declared.ty }
  match element with
  | none => pure root
  | some index => projectLoc machine act root (.index index bounds)

/-- The stores of an operation that neither calls nor copies slices. -/
def evalStores (machine : Machine) (act : Activation) : Operation → Run (List Write)
  | .assign destination value => do
    let loc ← lowerPlace machine act destination
    let data ← evalRvalue machine act value
    pure [← storeLoc machine loc data value.isProcessFrame]
  | .publishDelegate delegate args => publishDelegate machine act delegate args
  | .publishLog site arguments => do
    let payload ← arguments.mapM (evalValue machine act)
    Eval.emit (.log site payload)
    pure []
  | .outputStore output element bounds frame value => do
    let declared ← Eval.orThrow .stuck machine.program.interface.outputs[output]?
    let sample ← audioElement machine act (.output output) declared.ty element bounds frame
    let value ← evalScalar machine act value
    let present := ((← Eval.ask) sample.object sample.path).isSome
    Eval.require present .undefined
    pure [← storeElement sample value]
  | .controlOutputStore output element bounds value => do
    let declared ← Eval.orThrow .stuck machine.program.interface.controlOutputs[output]?
    let loc ← controlOutputLoc machine act declared element bounds
    pure [← storeLoc machine loc (← evalValue machine act value)]
  | .bufferStore buffer channel index value bounds => do
    let selected ← selectBuffer machine act buffer
    let sample ← bufferElement machine act selected channel index bounds
    pure [← storeElement sample (← evalScalar machine act value)]
  | .bufferParamStore parameter channel index value bounds => do
    let selected ← selectBufferParam machine act parameter
    let sample ← bufferElement machine act selected channel index bounds
    pure [← storeElement sample (← evalScalar machine act value)]
  | .sliceStore slice index value bounds => do
    let desc ← evalSlice machine act slice
    let position ← evalI32 machine act index
    let position ← ofExcept (normalizeIndex position.toInt desc.len bounds)
    pure [← storeElement (desc.elementAt position) (← evalScalar machine act value)]
  | .sliceFill destination value => do
    let desc ← evalSlice machine act destination
    let value ← evalScalar machine act value
    (List.range desc.len).mapM fun index => storeElement (desc.elementAt index) value
  | .call .. | .sliceCopy .. => Eval.throw .stuck

def operate (machine : Machine) (act : Activation) (invoke : Invoke)
    (operation : Operation) (state : State) : State × Option Stop :=
  let state := state.reach act (.operation operation)
  match operation with
  | .call results function args =>
    operateCall machine act invoke results function args state
  | .sliceCopy copies preflight =>
    match state.run (evalCopies machine act copies preflight) with
    | (state, .ok pairs) => operateCopies machine act pairs state
    | (state, .error reason) => (state, some reason)
  | operation => state.perform act.id (evalStores machine act operation)

/-! ### Runs -/

/-- The meaning of the body of an activation. -/
def Activation.semantics (machine : Machine) (act : Activation) (invoke : Invoke) :
    Sem State Operation Value (List Value) (List Data) Stop where
  op operation state := operate machine act invoke operation state
  cond condition state :=
    (state.reach act (.condition condition)).run (evalBool machine act condition)
  ret values state :=
    (state.reach act (.result values)).run (values.mapM (evalValue machine act))
  again entry state := state.note (.again act.id act.functionId entry.trace.length)
  spent := .outOfFuel

/-- Runs an activation with at most `depth` nested calls and `budget` passes of
each loop. -/
def Machine.invoke (machine : Machine) (budget : Nat) : Nat → Invoke
  | 0, _, state => (state, .stop .outOfFuel)
  | depth + 1, act, state =>
    execBlock (act.semantics machine (machine.invoke budget depth)) budget
      act.function.body state

/-- The activation the host starts: every parameter has storage of its own. -/
def rootActivation (function : FunctionId) (callee : Function) : Activation :=
  { id := 0, functionId := function, function := callee,
    params := callee.params.mapIdx fun index param => argumentLoc 0 index param.ty }

/-- The memory a call from the host starts in. -/
def rootMemory (memory : Memory) (args : List Data) : Memory := fun object path =>
  match object with
  | .localVar .. => none
  | .argument 0 parameter => (args[parameter]?).bind fun data => data.lookup path
  | .argument .. => none
  | object => memory object path

/-- A call of `function` from the host. -/
def Machine.enter (machine : Machine) (budget depth : Nat) (function : FunctionId)
    (args : List Data) (memory : Memory) : State × Outcome (List Data) Stop :=
  match machine.program.functions[function]? with
  | none => ({ memory := memory, next := 0 }, .stop .stuck)
  | some callee =>
    machine.invoke budget depth (rootActivation function callee)
      { memory := rootMemory memory args, next := 1 }

end Onda.Mir
