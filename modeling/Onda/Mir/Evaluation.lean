import Onda.Lib.Eval
import Onda.Mir.ConstantEval
import Onda.Mir.Memory

/-!
# Evaluation of operands, places and rvalues

Everything a statement computes before it stores.  Evaluation reads the memory
through `Eval`, so it cannot change it; what it reads from storage other than
the plain operand locals is reported as `Observation.read`.

### How an evaluation ends without a value

* `failure`: the deterministic runtime failure of a checked operation.
* `undefined`: a producer's promise is broken (an unchecked index is out of
  range, an audio frame is outside the block).  The backends give no meaning
  to what follows.
* `uninitialized`: a local is read that was never written.
* `stuck`: the operation is ill-typed.  Validated programs do not get there.
* `outOfFuel`: the loop or call budget of the run is spent.
-/

namespace Onda.Mir

open Structured

inductive Stop where
  | failure
  | undefined
  | uninitialized
  | stuck
  | outOfFuel
deriving DecidableEq, Repr

/-! ### The host -/

/-- What the host binds to a buffer slot.  An unbound slot has one frame; its
reads are zero and its stores are lost. -/
structure BufferBinding where
  frames : Nat
  channels : Nat
  sampleRate : BitVec 32
  bound : Bool
  frames_pos : 0 < frames
  channels_pos : 0 < channels
  extent : frames * channels < 2 ^ 31

/-- Everything outside the program one call depends on. -/
structure Host where
  floats : FloatOps
  buffers : BufferId → BufferBinding
  startFrame : BitVec 32
  frames : BitVec 32
  initAll : Bool

structure Machine where
  program : Program
  host : Host

/-! ### Events -/

/-- Cells of one object touched by an access. -/
structure Access where
  object : Object
  paths : List Path
  viaSlice : Bool := false
  through : List (Nat × ParameterId) := []
deriving DecidableEq, Repr

/-- A point of a run at which a statement starts. -/
inductive Step where
  | operation (operation : Operation)
  | condition (condition : Value)
  | result (values : List Value)
deriving DecidableEq, Repr

/-- What an evaluation does besides computing a value. -/
inductive Observation where
  | read (activation : Nat) (access : Access)
  | delegate (delegate : DelegateId) (payload : List Data)
  | log (site : LogSiteId) (payload : List Data)

inductive TraceEvent where
  | step (activation : Nat) (function : FunctionId) (step : Step) (memory : Memory)
  /-- A loop repeats that was entered when the trace had `entry` events. -/
  | again (activation : Nat) (function : FunctionId) (entry : Nat)
  | observe (observation : Observation)
  | write (activation : Nat) (store : Write)

abbrev Run := Eval Memory Observation Stop

/-- One activation of a function; `params` is the storage bound to each of its
parameters. -/
structure Activation where
  id : Nat
  functionId : FunctionId
  function : Function
  params : List Loc

/-! ### Shapes -/

namespace Program

/-- The leaves of consecutive components. -/
def branches (leaves : List (List (Path × LeafKind))) : List (Path × LeafKind) :=
  leaves.zipIdx.flatMap fun component =>
    component.1.map fun leaf => (component.2 :: leaf.1, leaf.2)

/-- The leaves of a type.  A chain of component types of a well-founded table
is no longer than the table. -/
def leafPaths (program : Program) : Nat → TypeId → Option (List (Path × LeafKind))
  | 0, _ => none
  | fuel + 1, ty => do
    match ← program.types[ty]? with
    | .scalar scalar => pure [([], .scalar scalar)]
    | .slice element _ => pure [([], .slice element)]
    | .buffer .. => pure [([], .buffer)]
    | .bufferSpan .. => pure [([], .span)]
    | .array element len =>
      let leaves ← program.leafPaths fuel element
      pure (branches (List.replicate len leaves))
    | .struct definition =>
      let fields := (← program.structs[definition]?).fields
      pure (branches (← fields.mapM fun field => program.leafPaths fuel field.ty))
    | .tuple elements =>
      pure (branches (← elements.mapM (program.leafPaths fuel)))

/-- The shape of the values of a type. -/
def shape (program : Program) (ty : TypeId) : Option (List (Path × LeafKind)) :=
  program.leafPaths (program.types.length + 1) ty

def isScalar (program : Program) (ty : TypeId) : Option ScalarType :=
  match program.types[ty]? with
  | some (.scalar scalar) => some scalar
  | _ => none

end Program

/-! ### Reading storage -/

/-- What reading an absent cell means: only locals can be unwritten, and audio
storage ends at the block. -/
def missing : Object → Stop
  | .localVar .. => .uninitialized
  | .input _ | .output _ => .undefined
  | _ => .stuck

/-- The content of a cell; constant data is part of the program. -/
def readCell (machine : Machine) (memory : Memory) : Object → Path → Option Leaf
  | .constData data, [index] => do
    let values := (← machine.program.constData[data]?).values
    pure (.scalar (← values[index]?))
  | object, path => memory object path

def Loc.access (loc : Loc) (shape : List (Path × LeafKind)) : Access :=
  { object := loc.object, paths := shape.map fun leaf => loc.cell leaf.1,
    viaSlice := loc.viaSlice, through := loc.through }

/-- One leaf of a location. -/
def readLeaf (machine : Machine) (loc : Loc) (leaf : Path × LeafKind) :
    Run (Path × Leaf) :=
  if loc.neutral then
    match leaf.2 with
    | .scalar scalar => pure (leaf.1, .scalar (.zero scalar))
    | _ => Eval.throw .stuck
  else do
    let content := readCell machine (← Eval.ask) loc.object (loc.cell leaf.1)
    let content ← Eval.orThrow (missing loc.object) content
    Eval.require (content.kind = leaf.2) .stuck
    pure (leaf.1, content)

/-- The value stored at a location, without an event. -/
def fetch (machine : Machine) (loc : Loc) : Run Data := do
  let shape ← Eval.orThrow .stuck (machine.program.shape loc.ty)
  shape.mapM (readLeaf machine loc)

/-- The value stored at a location. -/
def readLoc (machine : Machine) (act : Activation) (loc : Loc) : Run Data := do
  let shape ← Eval.orThrow .stuck (machine.program.shape loc.ty)
  Eval.emit (.read act.id (loc.access shape))
  shape.mapM (readLeaf machine loc)

/-- The store of a value at a location. -/
def storeLoc (machine : Machine) (loc : Loc) (data : Data)
    (processFrame : Bool := false) : Run Write := do
  let shape ← Eval.orThrow .stuck (machine.program.shape loc.ty)
  Eval.require (data.shape = shape) .stuck
  pure { object := loc.object, cells := data.map fun leaf => (loc.cell leaf.1, leaf.2),
         viaSlice := loc.viaSlice, neutral := loc.neutral, through := loc.through,
         processFrame := processFrame }

/-- One scalar of an array-like storage. -/
structure Element where
  object : Object
  path : Path
  element : ScalarType
  viaSlice : Bool := false
  neutral : Bool := false
  through : List (Nat × ParameterId) := []

def Element.access (element : Element) : Access :=
  { object := element.object, paths := [element.path], viaSlice := element.viaSlice,
    through := element.through }

def SliceDesc.elementAt (slice : SliceDesc) (index : Nat) : Element :=
  { object := slice.object, path := slice.elementPath index, element := slice.element,
    viaSlice := true, neutral := slice.neutral }

def loadElement (machine : Machine) (act : Activation) (element : Element) :
    Run ScalarValue := do
  Eval.emit (.read act.id element.access)
  if element.neutral then pure (.zero element.element)
  else
    let content := readCell machine (← Eval.ask) element.object element.path
    match ← Eval.orThrow (missing element.object) content with
    | .scalar value =>
      Eval.require (value.ty = element.element) .stuck
      pure value
    | _ => Eval.throw .stuck

def storeElement (element : Element) (value : ScalarValue) : Run Write := do
  Eval.require (value.ty = element.element) .stuck
  pure { object := element.object, cells := [(element.path, .scalar value)],
         viaSlice := element.viaSlice, neutral := element.neutral,
         through := element.through }

/-! ### Operands -/

def Activation.localLoc (act : Activation) (localId : LocalId) : Option Loc := do
  let declared ← act.function.locals[localId]?
  pure { object := .localVar act.id localId, path := [], view := .whole, ty := declared.ty }

def evalValue (machine : Machine) (act : Activation) : Value → Run Data
  | .constant value => pure (Data.leaf (.scalar value))
  | .localVar localId => do
    fetch machine (← Eval.orThrow .stuck (act.localLoc localId))

def evalLeaf (machine : Machine) (act : Activation) (value : Value) : Run Leaf := do
  match ← evalValue machine act value with
  | [([], leaf)] => pure leaf
  | _ => Eval.throw .stuck

def evalScalar (machine : Machine) (act : Activation) (value : Value) :
    Run ScalarValue := do
  match ← evalLeaf machine act value with
  | .scalar value => pure value
  | _ => Eval.throw .stuck

def evalI32 (machine : Machine) (act : Activation) (value : Value) :
    Run (BitVec 32) := do
  match ← evalScalar machine act value with
  | .i32 value => pure value
  | _ => Eval.throw .stuck

def evalBool (machine : Machine) (act : Activation) (value : Value) : Run Bool := do
  match ← evalScalar machine act value with
  | .bool value => pure value
  | _ => Eval.throw .stuck

def evalSlice (machine : Machine) (act : Activation) (value : Value) :
    Run SliceDesc := do
  match ← evalLeaf machine act value with
  | .slice desc => pure desc
  | _ => Eval.throw .stuck

/-! ### Bounds -/

/-- An index into a collection of `len` elements under a bounds mode. -/
def normalizeIndex (index : Int) (len : Nat) : BoundsMode → Except Stop Nat
  | .clamp =>
    if len = 0 then .error .failure
    else .ok (min (max index 0) (len - 1 : Int)).toNat
  | .checked => if 0 ≤ index ∧ index < len then .ok index.toNat else .error .failure
  | .unchecked => if 0 ≤ index ∧ index < len then .ok index.toNat else .error .undefined

/-- The `NormalizeIndex` operation, whose length is any `i32`. -/
def normalizeDynamicIndex (index length : BitVec 32) :
    BoundsMode → Except Stop (BitVec 32)
  | .clamp =>
    if length.toInt ≤ 0 then .error .failure
    else .ok (ConstantEval.signedMin (ConstantEval.signedMax index 0) (length - 1))
  | .checked => if index.ult length then .ok index else .error .failure
  | .unchecked =>
    if 0 ≤ index.toInt ∧ index.toInt < length.toInt then .ok index
    else .error .undefined

/-- A subrange of a collection of `sourceLen` elements. -/
def normalizeRange (start len : Int) (sourceLen : Nat) :
    BoundsMode → Except Stop (Nat × Nat)
  | .clamp =>
    let first := min (max start 0) sourceLen
    .ok (first.toNat, (min (max len 0) (sourceLen - first)).toNat)
  | .checked =>
    if 0 ≤ start ∧ 0 ≤ len ∧ start ≤ sourceLen ∧ len ≤ sourceLen - start then
      .ok (start.toNat, len.toNat)
    else .error .failure
  | .unchecked =>
    if 0 ≤ start ∧ 0 ≤ len ∧ start ≤ sourceLen ∧ len ≤ sourceLen - start then
      .ok (start.toNat, len.toNat)
    else .error .undefined

/-- The start of a window of `required` out of `len` elements. -/
def normalizeWindow (start : Int) (len required : Nat) : BoundsMode → Except Stop Nat
  | .clamp => .ok (min (max start 0) (len - required : Int)).toNat
  | .checked =>
    if 0 ≤ start ∧ start ≤ len - required then .ok start.toNat else .error .failure
  | .unchecked =>
    if 0 ≤ start ∧ start ≤ len - required then .ok start.toNat else .error .undefined

def ofExcept {α : Type} : Except Stop α → Run α
  | .ok value => pure value
  | .error reason => Eval.throw reason

/-! ### Places -/

/-- The storage behind a place base. -/
def Activation.baseStorage (machine : Machine) (act : Activation) :
    PlaceBase → Option Loc
  | .localVar localId => act.localLoc localId
  | .parameter parameter => act.params[parameter]?
  | .state state => do
    let slot ← machine.program.state[state]?
    pure { object := .state state, path := [], view := .whole, ty := slot.ty }
  | .param param => do
    let declared ← machine.program.interface.params[param]?
    pure { object := .param param, path := [], view := .whole, ty := declared.ty }
  | .eventParam param => do
    let ty ← machine.program.baseType act.function (.eventParam param)
    pure { object := .eventParam param, path := [], view := .whole, ty := ty }

def projectLoc (machine : Machine) (act : Activation) (loc : Loc) :
    Projection → Run Loc
  | .field field => do
    match ← Eval.orThrow .stuck machine.program.types[loc.ty]? with
    | .struct definition =>
      let declared ← Eval.orThrow .stuck machine.program.structs[definition]?
      let member ← Eval.orThrow .stuck declared.fields[field]?
      pure (loc.child field member.ty)
    | _ => Eval.throw .stuck
  | .index index bounds => do
    match ← Eval.orThrow .stuck machine.program.types[loc.ty]? with
    | .array element len =>
      let position ← evalI32 machine act index
      pure (loc.child (← ofExcept (normalizeIndex position.toInt len bounds)) element)
    | _ => Eval.throw .stuck

/-- The storage a place denotes. -/
def lowerPlace (machine : Machine) (act : Activation) (place : Place) : Run Loc := do
  let root ← Eval.orThrow .stuck (act.baseStorage machine place.base)
  place.projections.foldlM (projectLoc machine act) root

/-! ### Buffers -/

/-- Channel count under a declared layout. -/
def channelCount (machine : Machine) (buffer : BufferId) : BufferChannels → Nat
  | .mono => 1
  | .static channels => channels
  | .dynamic => (machine.host.buffers buffer).channels

/-- A selected buffer, with how it was declared where it was selected. -/
structure SelectedBuffer where
  buffer : BufferId
  element : ScalarType
  channels : BufferChannels
  through : List (Nat × ParameterId) := []

def selectBuffer (machine : Machine) (act : Activation) (ref : BufferRef) :
    Run SelectedBuffer := do
  let declared ← Eval.orThrow .stuck machine.program.interface.buffers[ref.first]?
  match ref with
  | .direct buffer =>
    pure { buffer := buffer, element := declared.element, channels := declared.channels }
  | .arrayElement first len selector bounds =>
    let position ← evalI32 machine act selector
    let offset ← ofExcept (normalizeIndex position.toInt len bounds)
    pure { buffer := first + offset, element := declared.element,
           channels := declared.channels }

/-- The descriptor behind a buffer parameter. -/
def selectBufferParam (machine : Machine) (act : Activation) (ref : BufferParamRef) :
    Run SelectedBuffer := do
  let loc ← Eval.orThrow .stuck act.params[ref.first]?
  let declared ← Eval.orThrow .stuck machine.program.types[loc.ty]?
  match ref, declared with
  | .direct _, .buffer element channels _ =>
    match ← fetch machine loc with
    | [(_, .buffer buffer)] =>
      pure { buffer := buffer, element := element, channels := channels,
             through := loc.through }
    | _ => Eval.throw .stuck
  | .arrayElement _ selector bounds, .bufferSpan element channels _ len =>
    let position ← evalI32 machine act selector
    let offset ← ofExcept (normalizeIndex position.toInt len bounds)
    match ← fetch machine loc with
    | [(_, .span first _)] =>
      pure { buffer := first + offset, element := element, channels := channels,
             through := loc.through }
    | _ => Eval.throw .stuck
  | _, _ => Eval.throw .stuck

/-- The position of a frame of a channel among the samples of a buffer. -/
def bufferPosition (machine : Machine) (act : Activation) (channels frame : Nat)
    (bounds : BoundsMode) : Option Value → Run Nat
  | none => pure frame
  | some channel => do
    let position ← evalI32 machine act channel
    let lane ← ofExcept (normalizeIndex position.toInt channels bounds)
    pure (frame * channels + lane)

/-- The sample a buffer access denotes. -/
def bufferElement (machine : Machine) (act : Activation) (selected : SelectedBuffer)
    (channel : Option Value) (index : Value) (bounds : BoundsMode) : Run Element := do
  let binding := machine.host.buffers selected.buffer
  let channels := channelCount machine selected.buffer selected.channels
  let position ← evalI32 machine act index
  let frame ← ofExcept (normalizeIndex position.toInt binding.frames bounds)
  let flat ← bufferPosition machine act channels frame bounds channel
  pure { object := .buffer selected.buffer, path := [flat], element := selected.element,
         neutral := !binding.bound, through := selected.through }

/-- The slice over one channel, or over the flat frames, of a buffer. -/
def bufferSlice (machine : Machine) (act : Activation) (selected : SelectedBuffer)
    (channel : Option Value) : Run SliceDesc := do
  let binding := machine.host.buffers selected.buffer
  let channels := channelCount machine selected.buffer selected.channels
  let whole : SliceDesc :=
    { object := .buffer selected.buffer, path := [], single := false, start := 0,
      stride := 1, len := binding.frames, element := selected.element,
      neutral := !binding.bound }
  match channel with
  | none => pure whole
  | some channel =>
    let position ← evalI32 machine act channel
    let lane := (min (max position.toInt 0) (channels - 1 : Int)).toNat
    pure { whole with start := lane, stride := channels }

/-! ### Slices -/

def SliceDesc.narrow (slice : SliceDesc) (start len : Nat) : SliceDesc :=
  { slice with start := slice.start + start * slice.stride, len := len }

/-- The whole of an array or scalar location as a slice. -/
def Loc.slice (loc : Loc) (len : Nat) (element : ScalarType) : SliceDesc :=
  match loc.view with
  | .whole =>
    { object := loc.object, path := loc.path, single := false, start := 0, stride := 1,
      len := len, element := element, neutral := loc.neutral }
  | .window start =>
    { object := loc.object, path := loc.path, single := false, start := start,
      stride := 1, len := len, element := element, neutral := loc.neutral }
  | .single =>
    { object := loc.object, path := loc.path, single := true, start := 0, stride := 1,
      len := len, element := element, neutral := loc.neutral }

/-- The whole collection a slice is made from. -/
def sliceSource (machine : Machine) (act : Activation) : SliceSource → Run SliceDesc
  | .place place => do
    let loc ← lowerPlace machine act place
    match ← Eval.orThrow .stuck machine.program.types[loc.ty]? with
    | .scalar element => pure (Loc.slice { loc with view := .single } 1 element)
    | .array item len =>
      let element ← Eval.orThrow .stuck (machine.program.isScalar item)
      pure (loc.slice len element)
    | .slice .. =>
      match ← readLoc machine act loc with
      | [(_, .slice desc)] => pure desc
      | _ => Eval.throw .stuck
    | _ => Eval.throw .stuck
  | .buffer buffer channel => do
    bufferSlice machine act (← selectBuffer machine act buffer) channel
  | .bufferParam parameter channel => do
    bufferSlice machine act (← selectBufferParam machine act parameter) channel
  | .constData data => do
    let declared ← Eval.orThrow .stuck machine.program.constData[data]?
    pure { object := .constData data, path := [], single := false, start := 0,
           stride := 1, len := declared.values.length, element := declared.element }

/-! ### Audio -/

/-- The sample of an audio port at a frame. -/
def audioElement (machine : Machine) (act : Activation) (object : Object) (ty : TypeId)
    (element : Option Value) (bounds : BoundsMode) (frame : Value) : Run Element := do
  match ← Eval.orThrow .stuck machine.program.types[ty]? with
  | .scalar scalar =>
    let frame ← evalI32 machine act frame
    Eval.require (0 ≤ frame.toInt) .undefined
    pure { object := object, path := [frame.toNat], element := scalar }
  | .array item len =>
    let scalar ← Eval.orThrow .stuck (machine.program.isScalar item)
    let position ← evalI32 machine act (← Eval.orThrow .stuck element)
    let port ← ofExcept (normalizeIndex position.toInt len bounds)
    let frame ← evalI32 machine act frame
    Eval.require (0 ≤ frame.toInt) .undefined
    pure { object := object, path := [port, frame.toNat], element := scalar }
  | _ => Eval.throw .stuck

/-! ### Rvalues -/

def scalarResult (value : ScalarValue) : Data := Data.leaf (.scalar value)

/-- An integer division by zero fails; any other undefined operation is
ill-typed. -/
def binaryStop (op : BinaryOp) (rhs : ScalarValue) : Stop :=
  match op, rhs with
  | .divide, .i32 0 | .divide, .i64 0 | .remainder, .i32 0 | .remainder, .i64 0 =>
    .failure
  | _, _ => .stuck

def evalRvalue (machine : Machine) (act : Activation) : Rvalue → Run Data
  | .use value => evalValue machine act value
  | .load place => do readLoc machine act (← lowerPlace machine act place)
  | .initAll => pure (scalarResult (.bool machine.host.initAll))
  | .unary op operand => do
    let operand ← evalScalar machine act operand
    scalarResult <$> Eval.orThrow .stuck (ConstantEval.unary op operand)
  | .binary op lhs rhs => do
    let lhs ← evalScalar machine act lhs
    let rhs ← evalScalar machine act rhs
    scalarResult <$> Eval.orThrow (binaryStop op rhs)
      (ConstantEval.binary machine.host.floats op lhs rhs)
  | .compare op lhs rhs => do
    let lhs ← evalScalar machine act lhs
    let rhs ← evalScalar machine act rhs
    let holds ← Eval.orThrow .stuck (ConstantEval.compare op lhs rhs)
    pure (scalarResult (.bool holds))
  | .cast value target => do
    let value ← evalScalar machine act value
    scalarResult <$> Eval.orThrow .stuck
      (ConstantEval.cast machine.host.floats value target)
  | .intrinsic intrinsic args => do
    let args ← args.mapM (evalScalar machine act)
    scalarResult <$> Eval.orThrow .stuck
      (ConstantEval.intrinsic machine.host.floats intrinsic args)
  | .processFrame offset => do
    let offset ← evalI32 machine act offset
    Eval.require (offset.ult machine.host.frames) .failure
    pure (scalarResult (.i32 (machine.host.startFrame + offset)))
  | .normalizeIndex index length bounds => do
    let index ← evalI32 machine act index
    let length ← evalI32 machine act length
    let normalized ← ofExcept (normalizeDynamicIndex index length bounds)
    pure (scalarResult (.i32 normalized))
  | .inputLoad input element bounds frame => do
    let declared ← Eval.orThrow .stuck machine.program.interface.inputs[input]?
    let sample ← audioElement machine act (.input input) declared.ty element bounds frame
    scalarResult <$> loadElement machine act sample
  | .outputLoad output element bounds frame => do
    let declared ← Eval.orThrow .stuck machine.program.interface.outputs[output]?
    let sample ← audioElement machine act (.output output) declared.ty element bounds frame
    scalarResult <$> loadElement machine act sample
  | .bufferLoad buffer channel index bounds => do
    let selected ← selectBuffer machine act buffer
    let sample ← bufferElement machine act selected channel index bounds
    scalarResult <$> loadElement machine act sample
  | .bufferParamLoad parameter channel index bounds => do
    let selected ← selectBufferParam machine act parameter
    let sample ← bufferElement machine act selected channel index bounds
    scalarResult <$> loadElement machine act sample
  | .bufferLen buffer => do
    let selected ← selectBuffer machine act buffer
    pure (bufferLength machine selected)
  | .bufferChannels buffer => do
    let selected ← selectBuffer machine act buffer
    pure (bufferChannelCount machine selected)
  | .bufferSampleRate buffer => do
    let selected ← selectBuffer machine act buffer
    pure (bufferRate machine selected)
  | .bufferIsBound buffer => do
    let selected ← selectBuffer machine act buffer
    pure (bufferBound machine selected)
  | .bufferParamLen parameter => do
    let selected ← selectBufferParam machine act parameter
    pure (bufferLength machine selected)
  | .bufferParamChannels parameter => do
    let selected ← selectBufferParam machine act parameter
    pure (bufferChannelCount machine selected)
  | .bufferParamSampleRate parameter => do
    let selected ← selectBufferParam machine act parameter
    pure (bufferRate machine selected)
  | .bufferParamIsBound parameter => do
    let selected ← selectBufferParam machine act parameter
    pure (bufferBound machine selected)
  | .constDataLoad data index bounds => do
    let declared ← Eval.orThrow .stuck machine.program.constData[data]?
    let position ← evalI32 machine act index
    let position ← ofExcept (normalizeIndex position.toInt declared.values.length bounds)
    scalarResult <$> loadElement machine act
      { object := .constData data, path := [position], element := declared.element }
  | .makeSlice source start len bounds _ => do
    let start ← evalI32 machine act start
    let source ← sliceSource machine act source
    let len ← evalI32 machine act len
    let range ← ofExcept (normalizeRange start.toInt len.toInt source.len bounds)
    pure (Data.leaf (.slice (source.narrow range.1 range.2)))
  | .sliceLoad slice index bounds => do
    let desc ← evalSlice machine act slice
    let position ← evalI32 machine act index
    let position ← ofExcept (normalizeIndex position.toInt desc.len bounds)
    scalarResult <$> loadElement machine act (desc.elementAt position)
  | .sliceLen slice => do
    let desc ← evalSlice machine act slice
    pure (scalarResult (.i32 (BitVec.ofNat 32 desc.len)))
where
  bufferLength (machine : Machine) (selected : SelectedBuffer) : Data :=
    scalarResult (.i32 (BitVec.ofNat 32 (machine.host.buffers selected.buffer).frames))
  bufferChannelCount (machine : Machine) (selected : SelectedBuffer) : Data :=
    scalarResult
      (.i32 (BitVec.ofNat 32 (channelCount machine selected.buffer selected.channels)))
  bufferRate (machine : Machine) (selected : SelectedBuffer) : Data :=
    scalarResult (.f32 (machine.host.buffers selected.buffer).sampleRate)
  bufferBound (machine : Machine) (selected : SelectedBuffer) : Data :=
    scalarResult (.bool (machine.host.buffers selected.buffer).bound)

end Onda.Mir
