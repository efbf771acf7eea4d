import Onda.Mir.Locations
import Onda.Mir.Semantics

/-!
# What operations store

One lemma for each part of an operation that produces stores or binds
parameters: which object is stored to, how it was reached, and which kinds of
content its cells receive.  Everything later that depends on where a program
can write is derived from these lemmas.
-/

namespace Onda.Mir

open Structured

/-! ### Values read from storage -/

section Reads

variable {machine : Machine} {act : Activation} {env : Memory}

/-- The content of the leaves of a location. -/
structure Loc.Holds (machine : Machine) (env : Memory) (loc : Loc) (data : Data) :
    Prop where
  shaped : machine.program.shape loc.ty = some data.shape
  content : loc.neutral = false → ∀ entry ∈ data,
    readCell machine env loc.object (loc.cell entry.1) = some entry.2

theorem readLeaf_returns (loc : Loc) (leaf : Path × LeafKind) :
    Eval.Returns env
      (fun entry => (entry.1, entry.2.kind) = leaf ∧ (loc.neutral = false →
        readCell machine env loc.object (loc.cell entry.1) = some entry.2))
      (readLeaf machine loc leaf) := by
  unfold readLeaf
  split
  · next neutral =>
    split
    · next scalar kind =>
      refine Eval.Returns.pure ⟨Prod.ext rfl ?_, by simp [neutral]⟩
      simp [Leaf.kind, kind]
    · exact Eval.Returns.throw
  · refine Eval.Returns.ask.bind fun memory same => ?_
    subst same
    refine Eval.Returns.orThrow.bind fun content found => ?_
    refine Eval.Returns.require.bind fun _ kind => ?_
    refine Eval.Returns.pure ⟨?_, fun _ => found⟩
    rw [decide_eq_true_iff] at kind
    rw [kind]

private theorem mapM_readLeaf_returns (loc : Loc) (shape : List (Path × LeafKind))
    (declared : machine.program.shape loc.ty = some shape) :
    Eval.Returns env (loc.Holds machine env) (shape.mapM (readLeaf machine loc)) := by
  refine (Eval.Returns.mapM fun leaf _ => readLeaf_returns loc leaf).mono fun data all => ?_
  constructor
  · rw [declared, Data.shape]
    congr 1
    clear declared
    induction all with
    | nil => rfl
    | cons head _ ih => rw [List.map_cons, head.1, ← ih]
  · intro regular entry mem
    clear declared
    induction all with
    | nil => simp at mem
    | cons head _ ih =>
      rcases List.mem_cons.mp mem with rfl | later
      · exact head.2 regular
      · exact ih later

theorem fetch_returns (loc : Loc) :
    Eval.Returns env (loc.Holds machine env) (fetch machine loc) := by
  unfold fetch
  exact Eval.Returns.orThrow.bind fun shape declared =>
    mapM_readLeaf_returns loc shape declared

/-! ### Operands -/

/-- The single leaf an operand evaluates to. -/
def Value.Is (env : Memory) (act : Activation) (leaf : Leaf) : Value → Prop
  | .constant value => leaf = .scalar value
  | .localVar localId => env (.localVar act.id localId) [] = some leaf

theorem Activation.localLoc_eq {localId : LocalId} {loc : Loc}
    (found : act.localLoc localId = some loc) :
    ∃ declared, act.function.locals[localId]? = some declared ∧
      loc = { object := .localVar act.id localId, path := [], view := .whole,
              ty := declared.ty } := by
  simp only [Activation.localLoc, Option.bind_eq_bind, Option.bind_eq_some_iff,
    Option.pure_def, Option.some.injEq] at found
  obtain ⟨declared, atLocal, rfl⟩ := found
  exact ⟨declared, atLocal, rfl⟩

theorem evalLeaf_returns (value : Value) :
    Eval.Returns env (fun leaf => value.Is env act leaf) (evalLeaf machine act value) := by
  unfold evalLeaf evalValue
  cases value with
  | constant value =>
    refine (Eval.Returns.pure (Q := fun data => data = Data.leaf (.scalar value)) rfl).bind
      fun data same => ?_
    subst same
    exact Eval.Returns.pure rfl
  | localVar localId =>
    refine Eval.Returns.bind (Q := fun data => ∃ loc, act.localLoc localId = some loc ∧
      loc.Holds machine env data) ?_ fun data known => ?_
    · refine Eval.Returns.orThrow.bind fun loc found => ?_
      exact (fetch_returns loc).mono fun data holds => ⟨loc, found, holds⟩
    · obtain ⟨loc, found, holds⟩ := known
      obtain ⟨declared, _, rfl⟩ := Activation.localLoc_eq found
      split
      · next leaf =>
        have content := holds.content rfl ([], leaf) (by simp)
        exact Eval.Returns.pure (by simpa [Value.Is, readCell, Loc.cell] using content)
      · exact Eval.Returns.throw

theorem evalSlice_returns (value : Value) :
    Eval.Returns env (fun desc => value.Is env act (.slice desc))
      (evalSlice machine act value) := by
  unfold evalSlice
  refine (evalLeaf_returns value).bind fun leaf holds => ?_
  split
  · exact Eval.Returns.pure holds
  · exact Eval.Returns.throw

end Reads

/-! ### Single stores -/

section SingleStores

variable {machine : Machine} {act : Activation} {env : Memory}

/-- A store into storage: its cells are leaves of the location. -/
structure Write.Into (program : Program) (store : Write) (loc : Loc) : Prop where
  object : store.object = loc.object
  viaSlice : store.viaSlice = loc.viaSlice
  neutral : store.neutral = loc.neutral
  cells : ∀ leaves, program.shape loc.ty = some leaves →
    ∀ cell ∈ store.cells, ∃ leaf ∈ leaves, cell.1 = loc.cell leaf.1 ∧ cell.2.kind = leaf.2

theorem Write.Into.within {program : Program} {store : Write} {inner outer : Loc}
    (into : store.Into program inner) (inside : inner.Within program outer) :
    store.Into program outer where
  object := into.object.trans inside.object
  viaSlice := into.viaSlice.trans inside.viaSlice
  neutral := into.neutral.trans inside.neutral
  cells leaves found cell mem := by
    obtain ⟨part, shaped, deeper⟩ := inside.cells leaves found
    obtain ⟨leaf, memPart, sameCell, sameKind⟩ := into.cells part shaped cell mem
    obtain ⟨whole, memWhole, atCell, kind⟩ := deeper leaf memPart
    exact ⟨whole, memWhole, sameCell.trans atCell, sameKind.trans kind⟩

/-- The exact store of a value at a location. -/
structure Write.Fills (program : Program) (store : Write) (loc : Loc) (data : Data)
    (processFrame : Bool) : Prop where
  shaped : program.shape loc.ty = some data.shape
  eq : store = { object := loc.object,
                 cells := data.map fun leaf => (loc.cell leaf.1, leaf.2),
                 viaSlice := loc.viaSlice, neutral := loc.neutral, through := loc.through,
                 processFrame := processFrame }

theorem storeLoc_returns (loc : Loc) (data : Data) (processFrame : Bool) :
    Eval.Returns env
      (fun store => store.Fills machine.program loc data processFrame)
      (storeLoc machine loc data processFrame) := by
  unfold storeLoc
  refine Eval.Returns.orThrow.bind fun shape declared => ?_
  refine Eval.Returns.require.bind fun _ shaped => ?_
  refine Eval.Returns.pure ⟨?_, rfl⟩
  rw [declared, decide_eq_true_iff.mp shaped]

theorem Write.Fills.into {program : Program} {store : Write} {loc : Loc} {data : Data}
    {processFrame : Bool} (fills : store.Fills program loc data processFrame) :
    store.Into program loc := by
  obtain ⟨shaped, rfl⟩ := fills
  refine ⟨rfl, rfl, rfl, fun leaves found cell mem => ?_⟩
  obtain rfl : data.shape = leaves := by
    rw [shaped] at found
    exact Option.some.inj found
  obtain ⟨leaf, memData, rfl⟩ := List.mem_map.mp mem
  exact ⟨(leaf.1, leaf.2.kind), List.mem_map.mpr ⟨leaf, memData, rfl⟩, rfl, rfl⟩

/-- The store of a scalar in an array-like storage. -/
def Element.store (element : Element) (value : ScalarValue) : Write :=
  { object := element.object, cells := [(element.path, .scalar value)],
    viaSlice := element.viaSlice, neutral := element.neutral, through := element.through }

theorem storeElement_returns (element : Element) (value : ScalarValue) :
    Eval.Returns env
      (fun store => store = element.store value ∧ value.ty = element.element)
      (storeElement element value) := by
  unfold storeElement
  refine Eval.Returns.require.bind fun _ typed => ?_
  exact Eval.Returns.pure ⟨rfl, by simpa using typed⟩

end SingleStores

/-! ### Stores of operations -/

section Operations

variable {machine : Machine} {act : Activation} {env : Memory}

/-- The buffers a selection of a buffer reference can end at. -/
theorem selectBuffer_returns (ref : BufferRef) :
    Eval.Returns env (fun selected => selected.buffer ∈ ref.possibleIndices)
      (selectBuffer machine act ref) := by
  unfold selectBuffer
  refine Eval.Returns.any.bind fun declared _ => ?_
  cases ref with
  | direct buffer => exact Eval.Returns.pure (by simp [BufferRef.possibleIndices])
  | arrayElement first len selector bounds =>
    refine Eval.Returns.any.bind fun position _ => ?_
    refine (returns_ofExcept fun offset normalized => normalized).bind
      fun offset normalized => ?_
    have inRange := normalizeIndex_lt normalized
    exact Eval.Returns.pure (by simp [BufferRef.possibleIndices, inRange])

theorem bufferElement_returns (selected : SelectedBuffer) (channel : Option Value)
    (index : Value) (bounds : BoundsMode) :
    Eval.Returns env
      (fun sample => sample.object = .buffer selected.buffer ∧ sample.viaSlice = false ∧
        sample.through = selected.through)
      (bufferElement machine act selected channel index bounds) := by
  unfold bufferElement
  refine Eval.Returns.any.bind fun position _ => ?_
  refine Eval.Returns.any.bind fun frame _ => ?_
  refine Eval.Returns.any.bind fun flat _ => ?_
  exact Eval.Returns.pure ⟨rfl, rfl, rfl⟩

theorem audioElement_returns (object : Object) (ty : TypeId) (element : Option Value)
    (bounds : BoundsMode) (frame : Value) :
    Eval.Returns env
      (fun sample => sample.object = object ∧ sample.viaSlice = false ∧
        sample.through = [])
      (audioElement machine act object ty element bounds frame) := by
  unfold audioElement
  refine Eval.Returns.any.bind fun declared _ => ?_
  split
  · refine Eval.Returns.any.bind fun frame _ => Eval.Returns.any.bind fun _ _ => ?_
    exact Eval.Returns.pure ⟨rfl, rfl, rfl⟩
  · refine Eval.Returns.any.bind fun scalar _ => Eval.Returns.any.bind fun element _ => ?_
    refine Eval.Returns.any.bind fun position _ => Eval.Returns.any.bind fun port _ => ?_
    refine Eval.Returns.any.bind fun frame _ => Eval.Returns.any.bind fun _ _ => ?_
    exact Eval.Returns.pure ⟨rfl, rfl, rfl⟩
  · exact Eval.Returns.throw

theorem controlOutputLoc_returns (declared : ControlOutput) (element : Option Value)
    (bounds : BoundsMode) :
    Eval.Returns env
      (fun loc => loc.object = .state declared.mirror ∧ loc.viaSlice = false)
      (controlOutputLoc machine act declared element bounds) := by
  cases element with
  | none => exact Eval.Returns.pure ⟨rfl, rfl⟩
  | some index =>
    exact (projectLoc_within _ _).mono fun inner inside => ⟨inside.object, inside.viaSlice⟩

/-- The store of element `index` of a slice. -/
structure Write.ToElement (store : Write) (desc : SliceDesc) (index : Nat) : Prop where
  inRange : index < desc.len
  eq : ∃ value : ScalarValue, value.ty = desc.element ∧
    store = (desc.elementAt index).store value

/-- What each store of an operation is. -/
def Operation.Stores (machine : Machine) (act : Activation) (env : Memory)
    (store : Write) : Operation → Prop
  | .assign destination value =>
    ∃ root loc data, act.Denotes machine destination root loc ∧
      store.Fills machine.program loc data value.isProcessFrame
  | .outputStore output .. => store.object = .output output ∧ store.viaSlice = false
  | .controlOutputStore output .. =>
    ∃ declared, machine.program.interface.controlOutputs[output]? = some declared ∧
      store.object = .state declared.mirror ∧ store.viaSlice = false
  | .bufferStore ref .. =>
    ∃ buffer ∈ ref.possibleIndices, store.object = .buffer buffer ∧ store.viaSlice = false
  | .bufferParamStore .. => ∃ buffer, store.object = .buffer buffer ∧ store.viaSlice = false
  | .sliceStore slice .. =>
    ∃ desc index, slice.Is env act (.slice desc) ∧ store.ToElement desc index
  | .sliceFill destination _ =>
    ∃ desc index, destination.Is env act (.slice desc) ∧ store.ToElement desc index
  | .sliceCopy copies _ =>
    ∃ copy ∈ copies, ∃ desc index, copy.destination.Is env act (.slice desc) ∧
      store.ToElement desc index
  | .call .. | .publishDelegate .. | .publishLog .. => False

/-- An assignment stores its value, once. -/
theorem evalAssign_returns (destination : Place) (value : Rvalue) :
    Eval.Returns env
      (fun stores => ∃ root loc data store, stores = [store] ∧
        act.Denotes machine destination root loc ∧
        (evalRvalue machine act value env).2 = .ok data ∧
        store.Fills machine.program loc data value.isProcessFrame)
      (evalStores machine act (.assign destination value)) := by
  unfold evalStores
  refine (lowerPlace_returns destination).bind fun loc denoted => ?_
  obtain ⟨root, denotes⟩ := denoted
  refine Eval.Returns.self.bind fun data evaluated => ?_
  refine (storeLoc_returns loc data _).bind fun store fills => ?_
  exact Eval.Returns.pure ⟨root, loc, data, store, rfl, denotes, evaluated, fills⟩

/-- **Stores of an operation.** -/
theorem evalStores_returns (operation : Operation) :
    Eval.Returns env
      (fun stores => ∀ store ∈ stores, operation.Stores machine act env store)
      (evalStores machine act operation) := by
  cases operation with
  | assign destination value =>
    refine (evalAssign_returns destination value).mono fun stores assigned other mem => ?_
    obtain ⟨root, loc, data, store, rfl, denotes, _, fills⟩ := assigned
    obtain rfl : other = store := by simpa using mem
    exact ⟨root, loc, data, denotes, fills⟩
  | call => exact Eval.Returns.throw
  | publishDelegate delegate args =>
    unfold evalStores publishDelegate
    refine Eval.Returns.any.bind fun declared _ => Eval.Returns.any.bind fun _ _ => ?_
    refine Eval.Returns.any.bind fun _ _ => Eval.Returns.any.bind fun payload _ => ?_
    exact Eval.Returns.any.bind fun _ _ => Eval.Returns.pure (by simp)
  | publishLog site arguments =>
    refine Eval.Returns.any.bind fun payload _ => Eval.Returns.any.bind fun _ _ => ?_
    exact Eval.Returns.pure (by simp)
  | outputStore output element bounds frame value =>
    refine Eval.Returns.any.bind fun declared _ => ?_
    refine (audioElement_returns _ _ _ _ _).bind fun sample located => ?_
    refine Eval.Returns.any.bind fun value _ => Eval.Returns.any.bind fun memory _ => ?_
    refine Eval.Returns.any.bind fun _ _ => ?_
    refine (storeElement_returns sample value).bind fun store stored => ?_
    refine Eval.Returns.pure fun other mem => ?_
    obtain rfl : other = store := by simpa using mem
    obtain ⟨rfl, _⟩ := stored
    exact ⟨located.1, located.2.1⟩
  | controlOutputStore output element bounds value =>
    refine Eval.Returns.orThrow.bind fun declared found => ?_
    refine (controlOutputLoc_returns declared element bounds).bind fun loc located => ?_
    refine Eval.Returns.any.bind fun data _ => ?_
    refine (storeLoc_returns loc data _).bind fun store fills => ?_
    refine Eval.Returns.pure fun other mem => ?_
    obtain rfl : other = store := by simpa using mem
    exact ⟨declared, found, fills.into.object.trans located.1,
      fills.into.viaSlice.trans located.2⟩
  | bufferStore buffer channel index value bounds =>
    refine (selectBuffer_returns buffer).bind fun selected possible => ?_
    refine (bufferElement_returns selected channel index bounds).bind
      fun sample located => ?_
    refine Eval.Returns.any.bind fun value _ => ?_
    refine (storeElement_returns sample value).bind fun store stored => ?_
    refine Eval.Returns.pure fun other mem => ?_
    obtain rfl : other = store := by simpa using mem
    obtain ⟨rfl, _⟩ := stored
    exact ⟨selected.buffer, possible, located.1, located.2.1⟩
  | bufferParamStore parameter channel index value bounds =>
    refine Eval.Returns.any.bind fun selected _ => ?_
    refine (bufferElement_returns selected channel index bounds).bind
      fun sample located => ?_
    refine Eval.Returns.any.bind fun value _ => ?_
    refine (storeElement_returns sample value).bind fun store stored => ?_
    refine Eval.Returns.pure fun other mem => ?_
    obtain rfl : other = store := by simpa using mem
    obtain ⟨rfl, _⟩ := stored
    exact ⟨selected.buffer, located.1, located.2.1⟩
  | sliceStore slice index value bounds =>
    refine (evalSlice_returns slice).bind fun desc held => ?_
    refine Eval.Returns.any.bind fun position _ => ?_
    refine (returns_ofExcept fun first normalized => normalized).bind
      fun first normalized => ?_
    refine Eval.Returns.any.bind fun value _ => ?_
    refine (storeElement_returns _ value).bind fun store stored => ?_
    refine Eval.Returns.pure fun other mem => ?_
    obtain rfl : other = store := by simpa using mem
    exact ⟨desc, first, held, normalizeIndex_lt normalized, value, stored.2, stored.1⟩
  | sliceFill destination value =>
    refine (evalSlice_returns destination).bind fun desc held => ?_
    refine Eval.Returns.any.bind fun value _ => ?_
    refine (Eval.Returns.mapM fun index _ =>
      storeElement_returns (desc.elementAt index) value).mono fun stores all store mem => ?_
    obtain ⟨index, inRange, stored⟩ := exists_of_forall₂_mem all mem
    exact ⟨desc, index, held, List.mem_range.mp inRange, value, stored.2, stored.1⟩
  | sliceCopy => exact Eval.Returns.throw

/-- The pairs of a slice copy are the descriptors its operands hold. -/
theorem evalCopies_returns (copies : List SliceCopy) (preflight : SliceCopyPreflight) :
    Eval.Returns env
      (fun pairs => List.Forall₂
        (fun copy pair => copy.destination.Is env act (.slice pair.1) ∧
          copy.source.Is env act (.slice pair.2)) copies pairs)
      (evalCopies machine act copies preflight) := by
  refine Eval.Returns.mapM fun copy _ => ?_
  refine (evalSlice_returns copy.destination).bind fun destination held => ?_
  refine (evalSlice_returns copy.source).bind fun source atSource => ?_
  refine Eval.Returns.any.bind fun _ _ => Eval.Returns.any.bind fun _ _ => ?_
  exact Eval.Returns.pure ⟨held, atSource⟩

theorem copySlice_returns (destination source : SliceDesc) :
    Eval.Returns env
      (fun stores => List.Forall₂ (fun index store => store.ToElement destination index)
        (List.range (min destination.len source.len)) stores)
      (copySlice machine act destination source) := by
  refine Eval.Returns.mapM fun index inRange => ?_
  refine Eval.Returns.any.bind fun value _ => ?_
  refine (storeElement_returns _ value).mono fun store stored => ?_
  have bound := List.mem_range.mp inRange
  exact ⟨by omega, value, stored.2, stored.1⟩

theorem storeResults_returns (results : List LocalId) (values : List Data) :
    Eval.Returns env
      (fun stores => results.length = values.length ∧
        List.Forall₂ (fun result store => ∃ loc, act.localLoc result.1 = some loc ∧
          store.Fills machine.program loc result.2 false) (results.zip values) stores)
      (storeResults machine act results values) := by
  unfold storeResults
  refine Eval.Returns.require.bind fun _ lengths => ?_
  refine (Eval.Returns.mapM fun result _ => ?_).mono fun stores all =>
    ⟨by simpa using lengths, all⟩
  exact Eval.Returns.orThrow.bind fun loc found =>
    (storeLoc_returns loc result.2 false).mono fun store fills => ⟨loc, found, fills⟩

end Operations

/-! ### Parameters of a call -/

/-- The place whose storage an argument passes on. -/
def CallArgument.referencedPlace : CallArgument → Option Place
  | .place target | .arrayWindow target _ _ => some target
  | _ => none

/-- The slice whose elements an argument passes on. -/
def CallArgument.referencedSlice : CallArgument → Option Value
  | .sliceElement elements _ _ | .sliceWindow elements _ _ => some elements
  | _ => none

/-- Every leaf of a location is an element of a slice. -/
structure Loc.OfSlice (program : Program) (loc : Loc) (desc : SliceDesc) : Prop where
  object : loc.object = desc.object
  viaSlice : loc.viaSlice = true
  neutral : loc.neutral = desc.neutral
  cells : ∀ leaves, program.shape loc.ty = some leaves → ∀ leaf ∈ leaves,
    ∃ index < desc.len, loc.cell leaf.1 = desc.elementPath index ∧
      leaf.2 = .scalar desc.element

/-- What a parameter of a call is bound to. -/
inductive Bound (machine : Machine) (act : Activation) (env : Memory) (callee : Nat)
    (index : ParameterId) (param : FunctionParam) (argument : CallArgument) :
    Loc → List Write → Prop where
  /-- A copy in storage of the callee. -/
  | own {data : Data} {store : Write}
      (fills : store.Fills machine.program (argumentLoc callee index param.ty) data false) :
      Bound machine act env callee index param argument
        (argumentLoc callee index param.ty) [store]
  /-- Storage of a place of the caller. -/
  | place {place : Place} {root denoted inner : Loc}
      (byReference : param.mode ≠ .value)
      (passes : argument.referencedPlace = some place)
      (denotes : act.Denotes machine place root denoted)
      (inside : inner.Within machine.program denoted)
      (isWhole : argument = .place place → inner = denoted)
      (shaped : machine.program.shape inner.ty = machine.program.shape param.ty)
      (fixed : (machine.program.shape param.ty).isSome) :
      Bound machine act env callee index param argument
        (inner.passedTo callee index param.ty) []
  /-- Elements of a slice of the caller. -/
  | slice {slice : Value} {desc : SliceDesc} {loc : Loc}
      (byReference : param.mode ≠ .value)
      (passes : argument.referencedSlice = some slice)
      (holds : slice.Is env act (.slice desc))
      (elements : loc.OfSlice machine.program desc)
      (typed : loc.ty = param.ty) (reached : loc.through = [(callee, index)]) :
      Bound machine act env callee index param argument loc []
  /-- A buffer descriptor parameter of the caller. -/
  | bufferParam {parameter : ParameterId} {root : Loc}
      (byReference : param.mode ≠ .value)
      (passes : argument = .bufferParam (.direct parameter))
      (found : act.params[parameter]? = some root)
      (shaped : machine.program.shape root.ty = machine.program.shape param.ty)
      (fixed : (machine.program.shape param.ty).isSome) :
      Bound machine act env callee index param argument
        (root.passedTo callee index param.ty) []

section Arguments

variable {machine : Machine} {act : Activation} {env : Memory} {callee : Nat}
  {index : ParameterId} {param : FunctionParam}

theorem bindData_returns (argument : CallArgument) (data : Data) :
    Eval.Returns env
      (fun bound => Bound machine act env callee index param argument bound.1 bound.2)
      (bindData machine callee index param.ty data) := by
  unfold bindData
  refine (storeLoc_returns _ data false).bind fun store fills => ?_
  exact Eval.Returns.pure (Bound.own fills)

theorem bindLoc_returns (loc : Loc) :
    Eval.Returns env
      (fun bound => bound = (loc.passedTo callee index param.ty, []) ∧
        machine.program.shape loc.ty = machine.program.shape param.ty ∧
        (machine.program.shape param.ty).isSome)
      (bindLoc machine callee index param.ty loc) := by
  unfold bindLoc
  refine Eval.Returns.orThrow.bind fun declared atParam => ?_
  refine Eval.Returns.orThrow.bind fun actual atLoc => ?_
  refine Eval.Returns.require.bind fun _ same => ?_
  refine Eval.Returns.pure ⟨rfl, ?_, by simp [atParam]⟩
  rw [atParam, atLoc, decide_eq_true_iff.mp same]

theorem arrayParameter_returns (ty : TypeId) :
    Eval.Returns env
      (fun array => machine.program.types[ty]? = some (.array array.1 array.2))
      (arrayParameter machine ty) := by
  unfold arrayParameter
  refine Eval.Returns.orThrow.bind fun declared found => ?_
  split
  · exact Eval.Returns.pure found
  · exact Eval.Returns.throw

private theorem isScalar_eq {program : Program} {ty : TypeId} {scalar : ScalarType}
    (found : program.isScalar ty = some scalar) :
    program.types[ty]? = some (.scalar scalar) := by
  unfold Program.isScalar at found
  split at found
  · next declared => rw [declared, Option.some.inj found]
  · simp at found

/-- An element of a slice as the storage of a scalar parameter. -/
private theorem sliceElement_elements {desc : SliceDesc} {position : Nat} {loc : Loc}
    (scalar : machine.program.types[param.ty]? = some (.scalar desc.element))
    (inRange : position < desc.len)
    (eq : loc = { object := desc.object, path := desc.elementPath position, view := .whole,
                  ty := param.ty, viaSlice := true, neutral := desc.neutral,
                  through := [(callee, index)] }) :
    loc.OfSlice machine.program desc := by
  subst eq
  refine ⟨rfl, rfl, rfl, fun leaves found leaf mem => ?_⟩
  rw [Program.shape_scalar scalar] at found
  obtain rfl := Option.some.inj found
  obtain rfl : leaf = ([], .scalar desc.element) := by simpa using mem
  exact ⟨position, inRange, by simp [Loc.cell], rfl⟩

/-- A window of a slice as the storage of an array parameter. -/
private theorem sliceWindow_elements {desc : SliceDesc} {start required : Nat}
    {element : TypeId} {loc : Loc}
    (isArray : machine.program.types[param.ty]? = some (.array element required))
    (scalar : machine.program.types[element]? = some (.scalar desc.element))
    (contiguous : desc.stride = 1) (inRange : start + required ≤ desc.len)
    (eq : loc = { object := desc.object, path := desc.path,
                  view := if desc.single then .single else .window (desc.start + start),
                  ty := param.ty, viaSlice := true, neutral := desc.neutral,
                  through := [(callee, index)] }) :
    loc.OfSlice machine.program desc := by
  subst eq
  refine ⟨rfl, rfl, rfl, fun leaves found leaf mem => ?_⟩
  obtain ⟨component, atElement, rfl⟩ := Program.shape_array isArray found
  rw [Program.shape_scalar scalar] at atElement
  obtain rfl := Option.some.inj atElement
  obtain ⟨position, rest, chosen, path, atIndex, inside⟩ := Program.mem_branches.mp mem
  rw [List.getElem?_replicate] at atIndex
  split at atIndex
  · next bound =>
    obtain rfl := Option.some.inj atIndex
    obtain ⟨rfl, kind⟩ : rest = [] ∧ leaf.2 = .scalar desc.element := by
      simpa using inside
    refine ⟨start + position, by omega, ?_, kind⟩
    rw [path]
    by_cases single : desc.single
    · simp [Loc.cell, SliceDesc.elementPath, single]
    · simp [Loc.cell, SliceDesc.elementPath, single, contiguous, Nat.add_assoc]
  · simp at atIndex

/-- **Parameter binding.** -/
theorem bindArgument_returns (argument : CallArgument) :
    Eval.Returns env
      (fun bound => Bound machine act env callee index param argument bound.1 bound.2)
      (bindArgument machine act callee index param argument) := by
  unfold bindArgument
  split
  · exact Eval.Returns.any.bind fun data _ => bindData_returns _ data
  · refine Eval.Returns.any.bind fun loc _ => ?_
    exact Eval.Returns.any.bind fun data _ => bindData_returns _ data
  · exact Eval.Returns.any.bind fun leaf _ => bindData_returns _ _
  · exact Eval.Returns.any.bind fun selected _ => bindData_returns _ _
  · exact Eval.Returns.throw
  · next place notValue =>
    refine (lowerPlace_returns place).bind fun denoted known => ?_
    obtain ⟨root, denotes⟩ := known
    refine (bindLoc_returns denoted).mono fun bound result => ?_
    obtain ⟨rfl, shaped, fixed⟩ := result
    exact Bound.place (by simpa using notValue) rfl denotes (Loc.Within.refl _)
      (fun _ => rfl) shaped fixed
  · next _ slice position bounds notValue =>
    refine (evalSlice_returns slice).bind fun desc holds => ?_
    refine Eval.Returns.any.bind fun number _ => ?_
    refine (returns_ofExcept fun first normalized => normalized).bind
      fun first normalized => ?_
    refine Eval.Returns.require.bind fun _ scalar => ?_
    refine (bindLoc_returns _).mono fun bound result => ?_
    obtain ⟨rfl, -, -⟩ := result
    have typed := isScalar_eq (decide_eq_true_iff.mp scalar)
    exact Bound.slice (by simpa using notValue) rfl holds
      (sliceElement_elements typed (normalizeIndex_lt normalized) rfl) rfl rfl
  · next _ array start bounds notValue =>
    refine (lowerPlace_returns array).bind fun denoted known => ?_
    obtain ⟨root, denotes⟩ := known
    refine (arrayParameter_returns denoted.ty).bind fun actual isArray => ?_
    refine (arrayParameter_returns param.ty).bind fun declared isWindow => ?_
    refine Eval.Returns.require.bind fun _ fits => ?_
    refine Eval.Returns.require.bind fun _ sameItem => ?_
    refine Eval.Returns.any.bind fun number _ => ?_
    refine (returns_ofExcept fun first normalized => normalized).bind
      fun first normalized => ?_
    refine (bindLoc_returns _).mono fun bound result => ?_
    obtain ⟨rfl, shaped, fixed⟩ := result
    have bounded := normalizeWindow_le (by simpa using fits) normalized
    exact Bound.place (by simpa using notValue) rfl denotes
      (Loc.window_within isArray isWindow (decide_eq_true_iff.mp sameItem) fixed bounded)
      (by simp) shaped fixed
  · next _ slice start bounds notValue =>
    refine (evalSlice_returns slice).bind fun desc holds => ?_
    refine (arrayParameter_returns param.ty).bind fun declared isArray => ?_
    refine Eval.Returns.require.bind fun _ scalar => ?_
    refine Eval.Returns.require.bind fun _ contiguous => ?_
    refine Eval.Returns.any.bind fun number _ => ?_
    refine (returns_ofExcept fun first normalized => normalized).bind
      fun first normalized => ?_
    refine (bindLoc_returns _).mono fun bound result => ?_
    obtain ⟨rfl, -, -⟩ := result
    have typed := isScalar_eq (decide_eq_true_iff.mp scalar)
    obtain ⟨stride, fits⟩ := decide_eq_true_iff.mp contiguous
    exact Bound.slice (by simpa using notValue) rfl holds
      (sliceWindow_elements isArray typed stride (normalizeWindow_le fits normalized) rfl)
      rfl rfl
  · next parameter _ notValue =>
    refine Eval.Returns.orThrow.bind fun root found => ?_
    refine (bindLoc_returns root).mono fun bound result => ?_
    obtain ⟨rfl, shaped, fixed⟩ := result
    exact Bound.bufferParam (by simpa using notValue) rfl found shaped fixed
  · exact Eval.Returns.any.bind fun selected _ => bindData_returns _ _
  · exact Eval.Returns.throw

/-- Every parameter of a call is bound, in order. -/
structure Binds (machine : Machine) (act : Activation) (env : Memory) (callee : Nat)
    (params : List FunctionParam) (args : List CallArgument)
    (bound : List (Loc × List Write)) : Prop where
  arity : params.length = args.length
  length : bound.length = params.length
  each : ∀ (index : Nat) param argument entry, params[index]? = some param →
    args[index]? = some argument → bound[index]? = some entry →
    Bound machine act env callee index param argument entry.1 entry.2

theorem bindArguments_returns (params : List FunctionParam) (args : List CallArgument) :
    Eval.Returns env (Binds machine act env callee params args)
      (bindArguments machine act callee params args) := by
  unfold bindArguments
  refine Eval.Returns.require.bind fun _ lengths => ?_
  have arity : params.length = args.length := by simpa using lengths
  refine (Eval.Returns.mapM fun argument _ => bindArgument_returns _).mono fun bound all => ?_
  have length : bound.length = params.length := by
    rw [← all.length_eq, List.length_zipIdx, List.length_zip, arity, Nat.min_self]
  refine ⟨arity, length, fun index param argument entry atParams atArgs atBound => ?_⟩
  have atZip : (params.zip args).zipIdx[index]? = some ((param, argument), index) := by
    simp [List.getElem?_zip_eq_some, atParams, atArgs]
  obtain ⟨inZip, zipEq⟩ := List.getElem?_eq_some_iff.mp atZip
  obtain ⟨inBound, boundEq⟩ := List.getElem?_eq_some_iff.mp atBound
  have holds := all.get inZip inBound
  simpa only [List.get_eq_getElem, zipEq, boundEq] using holds

/-- A bound parameter has its argument. -/
theorem Binds.entry {params : List FunctionParam} {args : List CallArgument}
    {bound : List (Loc × List Write)}
    (binds : Binds machine act env callee params args bound) {index : Nat}
    {entry : Loc × List Write} (found : bound[index]? = some entry) :
    ∃ param argument, params[index]? = some param ∧ args[index]? = some argument ∧
      Bound machine act env callee index param argument entry.1 entry.2 := by
  have inBound := (List.getElem?_eq_some_iff.mp found).1
  have inParams : index < params.length := by rw [← binds.length]; exact inBound
  have inArgs : index < args.length := by rw [← binds.arity]; exact inParams
  exact ⟨_, _, List.getElem?_eq_getElem inParams, List.getElem?_eq_getElem inArgs,
    binds.each index _ _ entry (List.getElem?_eq_getElem inParams)
      (List.getElem?_eq_getElem inArgs) found⟩

end Arguments

end Onda.Mir
