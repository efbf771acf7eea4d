import Onda.Mir.History
import Onda.Mir.Validate.Facts

/-!
# Where a call can store

The stores of a call, everything it calls included, are made through a slice, or
go to storage every activation shares, to storage of activations started since,
or to storage of the call's own parameters.  In the last case the parameter is
writable, or the stored cells are buffer descriptors: a buffer parameter is
forwarded by reference whatever its own mode is.
-/

namespace Onda.Mir

open Structured Validate

/-- An activation as calls create it. -/
structure Activation.WellFormed (machine : Machine) (act : Activation) : Prop where
  declared : machine.program.functions[act.functionId]? = some act.function
  params : act.params.length = act.function.params.length
  typed : ∀ (index : Nat) loc param, act.params[index]? = some loc →
    act.function.params[index]? = some param → loc.ty = param.ty
  /-- Storage passed by reference is older than the activation. -/
  older : ∀ loc ∈ act.params, loc.viaSlice = false → ∀ owner,
    loc.object.activation? = some owner →
      owner < act.id ∨ ∃ index, loc.object = .argument act.id index

/-- The cells of a store are buffer descriptors. -/
def Write.StoresBuffers (store : Write) : Prop :=
  ∀ cell ∈ store.cells, cell.2.kind = .buffer

/-- A store through the parameter `index`. -/
structure Activation.StoresParam (machine : Machine) (act : Activation) (store : Write)
    (index : ParameterId) (loc : Loc) (param : FunctionParam) : Prop where
  bound : act.params[index]? = some loc
  declared : act.function.params[index]? = some param
  into : store.Into machine.program loc
  writable : param.mode.isWritableReference = true ∨ store.StoresBuffers

/-- Where an activation can store, when `fresh` is the next activation as it
starts. -/
inductive Activation.MayStore (machine : Machine) (act : Activation) (fresh : Nat)
    (store : Write) : Prop where
  | viaSlice (reached : store.viaSlice = true)
  | shared (global : store.object.activation? = none)
  | own (owner : store.object.activation? = some act.id)
  | started (owner : Nat) (owned : store.object.activation? = some owner)
      (later : fresh ≤ owner)
  | param (index : ParameterId) (loc : Loc) (param : FunctionParam)
      (through : act.StoresParam machine store index loc param)

namespace Activation

/-- The stores of an activation among the events of a trace. -/
def Footprint (machine : Machine) (act : Activation) (fresh : Nat) : TraceEvent → Prop
  | .write writer store =>
    store.effective = true ∧ act.MayStore machine fresh store ∧ act.id ≤ writer
  | _ => True

variable {machine : Machine} {act : Activation} {env : Memory} {fresh : Nat}

/-! ### Bases of places -/

variable {argument : CallArgument} {target : Function} {function : FunctionId}
  {param : FunctionParam} {bound : List (Loc × List Write)} {args : List CallArgument}
  {stores : List Write} {loc root : Loc} {localId : LocalId} {callee : Nat} {index : ParameterId}
  {store : Write}

/-- A base is a local, a parameter or storage every activation shares. -/
theorem baseStorage_cases {base : PlaceBase} (found : act.baseStorage machine base = some root) :
    (∃ localId, base = .localVar localId ∧ act.localLoc localId = some root) ∨
      (∃ parameter, base = .parameter parameter ∧ act.params[parameter]? = some root) ∨
      root.object.activation? = none ∧ root.viaSlice = false := by
  cases base with
  | localVar localId => exact Or.inl ⟨localId, rfl, found⟩
  | parameter parameter => exact Or.inr (Or.inl ⟨parameter, rfl, found⟩)
  | state | param | eventParam =>
    simp only [baseStorage, Option.bind_eq_bind, Option.bind_eq_some_iff, Option.pure_def,
      Option.some.injEq] at found
    obtain ⟨_, _, rfl⟩ := found
    exact Or.inr (Or.inr ⟨rfl, rfl⟩)

theorem localLoc_owner (found : act.localLoc localId = some loc)
    : loc.object = .localVar act.id localId := by
  obtain ⟨_, _, rfl⟩ := localLoc_eq found
  rfl

/-- No parameter is another name for a local of the activation. -/
theorem WellFormed.param_ne_local (wellFormed : act.WellFormed machine) (mem : loc ∈ act.params)
    (direct : loc.viaSlice = false) (localId : LocalId) :
    loc.object ≠ .localVar act.id localId := by
  intro isLocal
  rcases wellFormed.older loc mem direct act.id (by rw [isLocal]; rfl) with
    older | ⟨index, isArgument⟩
  · exact Nat.lt_irrefl _ older
  · rw [isLocal] at isArgument
    simp at isArgument

/-- Only the places of a local reach it directly. -/
theorem WellFormed.base_local (wellFormed : act.WellFormed machine) {base : PlaceBase}
    (found : act.baseStorage machine base = some root) (direct : root.viaSlice = false)
    (isLocal : root.object = .localVar act.id localId) :
    base = .localVar localId ∧ act.localLoc localId = some root := by
  rcases baseStorage_cases found with ⟨other, rfl, atLocal⟩ | ⟨index, _, atParam⟩ | ⟨global, -⟩
  · have owned := localLoc_owner atLocal
    rw [isLocal] at owned
    obtain ⟨-, rfl⟩ := Object.localVar.inj owned
    exact ⟨rfl, atLocal⟩
  · exact absurd isLocal
      (wellFormed.param_ne_local (List.mem_of_getElem? atParam) direct localId)
  · rw [isLocal] at global
    simp [Object.activation?] at global

/-- A store at a place of the activation, where the place is writable. -/
theorem mayStore_place {place : Place} (wellFormed : act.WellFormed machine)
    (denotes : act.Denotes machine place root loc) (into : store.Into machine.program loc)
    (writable : placeIsWritable machine.program act.function place = true ∨
      store.StoresBuffers) : act.MayStore machine fresh store := by
  have atRoot : store.Into machine.program root := into.within denotes.within
  rcases baseStorage_cases denotes.base with
    ⟨localId, isLocal, found⟩ | ⟨parameter, isParam, found⟩ | ⟨global, -⟩
  · exact .own (by rw [atRoot.object, localLoc_owner found]; rfl)
  · have bound : parameter < act.function.params.length := by
      rw [← wellFormed.params]
      exact (List.getElem?_eq_some_iff.mp found).1
    obtain ⟨param, declared⟩ : ∃ param, act.function.params[parameter]? = some param :=
      ⟨_, List.getElem?_eq_getElem bound⟩
    refine .param parameter root param ⟨found, declared, atRoot, writable.imp_left ?_⟩
    intro checked
    simpa [placeIsWritable, isParam, declared] using checked
  · exact .shared (by rw [atRoot.object, global])

/-! ### Parameters of callees -/

/-- The type of a buffer parameter the arguments of a call are checked
against. -/
theorem bufferParam_type {program : Program} {ty : TypeId} (function : Function)
    (ref : BufferParamRef) (matched : bufferParamRefMatchesType program function ref ty = true) :
    ∃ element channels access, program.types[ty]? = some (.buffer element channels access) := by
  have served {element : ScalarType} {channels : BufferChannels} {access : AccessMode}
      (serves : bufferServes program ty element channels access = true) :
      ∃ element channels access,
        program.types[ty]? = some (.buffer element channels access) := by
    unfold bufferServes at serves
    split at serves
    · next declared => exact ⟨_, _, _, declared⟩
    · simp at serves
  unfold bufferParamRefMatchesType at matched
  split at matched
  · exact served matched
  · exact served matched
  · simp at matched

/-- A store through a parameter of a callee is a store of the caller. -/
theorem mayStore_bound (wellFormed : act.WellFormed machine) (later : fresh ≤ callee)
    (bound : Bound machine act env callee index param argument loc stores)
    (matched : callArgumentMatches machine.program act.function argument param = true)
    (into : store.Into machine.program loc)
    (writable : param.mode.isWritableReference = true ∨ store.StoresBuffers) :
    act.MayStore machine fresh store := by
  cases bound with
  | own fills => exact .started callee (by rw [into.object]; rfl) later
  | slice byReference passes holds elements =>
    exact .viaSlice (by rw [into.viaSlice, elements.viaSlice])
  | @place place root denoted inner byReference passes denotes inside isWhole shaped fixed =>
    have atPlace : store.Into machine.program denoted :=
      (into.within (Loc.renamed_within shaped)).within inside
    refine mayStore_place wellFormed denotes atPlace (writable.imp_left fun isWritable => ?_)
    -- A writable reference is only passed on from a writable place.
    cases argument with
    | place target =>
      obtain rfl : target = place := by simpa [CallArgument.referencedPlace] using passes
      revert matched
      cases mode : param.mode with
      | value => exact absurd mode byReference
      | readOnlyReference => simp [mode, PassingMode.isWritableReference] at isWritable
      | readWriteReference =>
        simp only [callArgumentMatches, mode]
        split
        · simp [PassingMode.isWritableReference]
        · simp
      | resultReference => simp only [callArgumentMatches, mode, Bool.and_eq_true]; tauto
    | arrayWindow array start bounds =>
      obtain rfl : array = place := by simpa [CallArgument.referencedPlace] using passes
      revert matched
      cases mode : param.mode with
      | value => exact absurd mode byReference
      | readOnlyReference => simp [mode, PassingMode.isWritableReference] at isWritable
      | readWriteReference =>
        simp only [callArgumentMatches, mode, arrayWindowMatches]
        split
        · simp only [referenceAccess, placeAccess, accessPermits, Bool.and_eq_true]
          split <;> simp_all
        · simp
      | resultReference => simp [callArgumentMatches, mode]
    | _ => simp [CallArgument.referencedPlace] at passes
  | @bufferParam parameter root byReference passes found shaped fixed =>
    subst passes
    have atRoot : store.Into machine.program root := into.within (Loc.renamed_within shaped)
    have isBuffer : ∃ element channels access,
        machine.program.types[param.ty]? = some (.buffer element channels access) := by
      refine bufferParam_type act.function (.direct parameter) ?_
      cases mode : param.mode with
      | value => exact absurd mode byReference
      | readOnlyReference | readWriteReference =>
        simpa only [callArgumentMatches, mode] using matched
      | resultReference => simp [callArgumentMatches, mode] at matched
    obtain ⟨element, channels, access, declared⟩ := isBuffer
    have bounded : parameter < act.function.params.length := by
      rw [← wellFormed.params]
      exact (List.getElem?_eq_some_iff.mp found).1
    refine .param parameter root _
      ⟨found, List.getElem?_eq_getElem bounded, atRoot, Or.inr fun cell mem => ?_⟩
    obtain ⟨leaf, memLeaf, -, kind⟩ :=
      into.cells _ (Program.shape_buffer declared) cell mem
    obtain rfl : leaf = ([], .buffer) := by simpa using memLeaf
    exact kind

/-! ### Callees -/

/-- Storage a callee is given by reference is older than the callee. -/
private theorem bound_older (wellFormed : act.WellFormed machine) (earlier : act.id < callee)
    (bound : Bound machine act env callee index param argument loc stores)
    (direct : loc.viaSlice = false) {owner : Nat} (owned : loc.object.activation? = some owner) :
    owner < callee ∨ ∃ index, loc.object = .argument callee index := by
  have fromParam {root : Loc} {parameter : ParameterId}
      (found : act.params[parameter]? = some root) (same : loc.object = root.object)
      (sameWay : loc.viaSlice = root.viaSlice) : owner < callee := by
    have memParams := List.mem_of_getElem? found
    rcases wellFormed.older root memParams (sameWay ▸ direct) owner (same ▸ owned) with
      older | ⟨other, isArgument⟩
    · exact older.trans earlier
    · rw [same, isArgument] at owned
      obtain rfl : act.id = owner := by simpa [Object.activation?] using owned
      exact earlier
  cases bound with
  | own => exact Or.inr ⟨index, rfl⟩
  | slice _ _ _ elements => rw [elements.viaSlice] at direct; simp at direct
  | place _ _ denotes inside =>
    have sameObject := inside.object.trans denotes.within.object
    have sameWay := inside.viaSlice.trans denotes.within.viaSlice
    rcases baseStorage_cases denotes.base with
      ⟨localId, _, found⟩ | ⟨parameter, _, found⟩ | ⟨global, -⟩
    · change _ = some owner at owned
      rw [Loc.passedTo, sameObject, localLoc_owner found] at owned
      obtain rfl : act.id = owner := by simpa [Object.activation?] using owned
      exact Or.inl earlier
    · exact Or.inl (fromParam found sameObject sameWay)
    · rw [Loc.passedTo, sameObject, global] at owned
      simp at owned
  | bufferParam _ _ found => exact Or.inl (fromParam found rfl rfl)

private theorem bound_ty (bound : Bound machine act env callee index param argument loc stores) :
    loc.ty = param.ty := by
  cases bound with
  | own | place | bufferParam => rfl
  | slice _ _ _ _ typed => exact typed

/-- A call starts a well-formed activation. -/
theorem callee_wellFormed {state : State} (wellFormed : act.WellFormed machine)
    (earlier : act.id < state.next) (found : machine.program.functions[function]? = some target)
    (binds : Binds machine act env state.next target.params args bound) :
    (calleeActivation state function target bound).WellFormed machine where
  declared := found
  params := by simp [calleeActivation, binds.length]
  typed index loc param atLocs atParams := by
    obtain ⟨entry, atBound, rfl⟩ : ∃ entry, bound[index]? = some entry ∧ entry.1 = loc := by
      simpa [calleeActivation] using atLocs
    obtain ⟨other, argument, declared, _, isBound⟩ := binds.entry atBound
    obtain rfl : param = other := by
      change target.params[index]? = some param at atParams
      exact Option.some.inj (atParams.symm.trans declared)
    exact bound_ty isBound
  older loc mem direct owner owned := by
    obtain ⟨entry, inBound, rfl⟩ := List.mem_map.mp mem
    obtain ⟨index, atBound⟩ := List.mem_iff_getElem?.mp inBound
    obtain ⟨_, _, _, _, isBound⟩ := binds.entry atBound
    exact bound_older wellFormed earlier isBound direct owned

/-- A store of a callee is a store of the caller. -/
theorem mayStore_callee {state : State} {next : Nat} (wellFormed : act.WellFormed machine)
    (later : fresh ≤ state.next) (checked : CheckedCall machine.program act.function target args)
    (binds : Binds machine act env state.next target.params args bound)
    (stored : (calleeActivation state function target bound).MayStore machine next store)
    (laterStill : fresh ≤ next) : act.MayStore machine fresh store := by
  cases stored with
  | viaSlice reached => exact .viaSlice reached
  | shared global => exact .shared global
  | own owner => exact .started state.next owner later
  | started owner owned laterOwner => exact .started owner owned (laterStill.trans laterOwner)
  | param index loc param through =>
    obtain ⟨entry, atBound, rfl⟩ : ∃ entry, bound[index]? = some entry ∧ entry.1 = loc := by
      simpa [calleeActivation] using through.bound
    obtain ⟨other, argument, declared, atArgs, isBound⟩ := binds.entry atBound
    obtain rfl : param = other :=
      Option.some.inj (through.declared.symm.trans declared)
    exact mayStore_bound wellFormed later isBound
      (checked.matched index argument param atArgs declared) through.into through.writable

/-- The arguments a callee receives as copies are stored in its own storage. -/
theorem bound_store_owner (bound : Bound machine act env callee index param argument loc stores)
    (mem : store ∈ stores) :
    store.object = .argument callee index ∧ store.viaSlice = false := by
  cases bound with
  | own fills =>
    rw [List.mem_singleton.mp mem]
    exact ⟨fills.into.object, fills.into.viaSlice⟩
  | place | slice | bufferParam => simp at mem

/-- A store of an operation of the activation's body. -/
theorem mayStore_operation {operation : Operation} (wellFormed : act.WellFormed machine)
    (checked : validateOperation machine.program act.function operation = [])
    (stored : operation.Stores machine act env store) : act.MayStore machine fresh store := by
  have ofElement {desc : SliceDesc} {index : Nat} (element : store.ToElement desc index) :
      act.MayStore machine fresh store := by
    obtain ⟨value, _, rfl⟩ := element.eq
    exact .viaSlice rfl
  cases operation with
  | assign destination value =>
    obtain ⟨root, loc, data, denotes, fills⟩ := stored
    exact mayStore_place wellFormed denotes fills.into
      (Or.inl (validateAssign_writable checked))
  | call | publishDelegate | publishLog => exact stored.elim
  | outputStore => exact .shared (by rw [stored.1]; rfl)
  | controlOutputStore =>
    obtain ⟨declared, _, object, _⟩ := stored
    exact .shared (by rw [object]; rfl)
  | bufferStore =>
    obtain ⟨buffer, _, object, _⟩ := stored
    exact .shared (by rw [object]; rfl)
  | bufferParamStore =>
    obtain ⟨buffer, object, _⟩ := stored
    exact .shared (by rw [object]; rfl)
  | sliceStore | sliceFill =>
    obtain ⟨desc, index, _, element⟩ := stored
    exact ofElement element
  | sliceCopy =>
    obtain ⟨copy, _, desc, index, _, element⟩ := stored
    exact ofElement element

end Activation

/-! ### Whole calls -/

/-- **Footprint of a call.**  Every store of a call is one the activation may
make. -/
theorem invoke_footprint {machine : Machine} (accepted : machine.program.Accepted)
    (budget depth : Nat) {act : Activation} (wellFormed : act.WellFormed machine)
    {state : State} (entered : act.id < state.next) :
    state.Extends (act.Footprint machine state.next)
      (machine.invoke budget depth act state).1 := by
  induction depth generalizing act state with
  | zero => exact State.Extends.refl state
  | succ depth ih =>
    refine execBlock_keeps (State.keeps_extends (fun _ _ => trivial) (fun _ => trivial)
      (fun _ => trivial) ?_) (State.Extends.refl state)
    intro operation mem now reached
    have checked := accepted.operation wellFormed.declared mem
    have laterNow : state.next ≤ now.next := reached.next_le
    refine (State.extends_reach now act (.operation operation) trivial).trans ?_
    by_cases isCall : ∃ results function args, operation = .call results function args
    · obtain ⟨results, function, args, rfl⟩ := isCall
      refine State.extends_operateCall (fun _ => trivial) ?_ ?_
      · intro target bound found binds mid sameNext sameMemory
        have laterMid : state.next ≤ mid.next := sameNext ▸ laterNow
        have earlier : act.id < mid.next := Nat.lt_of_lt_of_le entered laterMid
        rw [← sameNext] at binds
        have started : mid.Extends (act.Footprint machine state.next) (mid.started bound) := by
          refine State.extends_started fun entry inBound store inEntry effective => ?_
          obtain ⟨index, atBound⟩ := List.mem_iff_getElem?.mp inBound
          obtain ⟨_, _, _, _, isBound⟩ := binds.entry atBound
          have owned := (Activation.bound_store_owner isBound inEntry).1
          exact ⟨effective, .started mid.next (by rw [owned]; rfl) laterMid, earlier.le⟩
        refine started.trans ((ih (Activation.callee_wellFormed wellFormed earlier found binds)
          (by simp [calleeActivation])).mono fun event stored => ?_)
        cases event with
        | write activation store =>
          exact ⟨stored.1, Activation.mayStore_callee wellFormed laterMid
            (validateCall_checked checked found) binds stored.2.1
            (by rw [State.started_next]; omega), earlier.le.trans stored.2.2⟩
        | _ => trivial
      · intro result loc data store found _ fills effective
        exact ⟨effective,
          .own (by rw [fills.into.object, Activation.localLoc_owner found]; rfl), Nat.le_refl _⟩
    · refine State.extends_operate (fun results function args same =>
        isCall ⟨results, function, args, same⟩) (fun _ => trivial) ?_
      exact fun store stored effective =>
        ⟨effective, Activation.mayStore_operation wellFormed checked stored, Nat.le_refl _⟩

end Onda.Mir
