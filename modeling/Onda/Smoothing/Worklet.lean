import Onda.Smoothing.RunSession

/-!
# Ramps of the worklet

The JavaScript host has its parameters in the memory of the module, at places of their own.  While
there are no ramps whole parameters are written past them; the ramps read their targets from memory
before they begin again.
-/

namespace Onda.Smoothing

open Onda.Frontend (PrimitiveType)

/-! ### The JavaScript host -/

/-- The place of an entry in the memory of the module. -/
structure WebSlot where
  offset : Nat
  f32 : Bool

def webStorage : Storage WebSlot Nat where
  address := WebSlot.offset
  isF32 := WebSlot.f32

def scalarByteSize : PrimitiveType → Nat
  | .bool => 1
  | .i32 | .f32 => 4
  | .i64 | .f64 => 8

/-- What the worklet reads of the metadata of a parameter. -/
structure ParamInfo (F : Type) where
  scalar : PrimitiveType
  stepped : Bool
  byteOffset : Nat
  arrayLen : Nat
  default : Option (Nat → F)

section Web

variable {F : Type} (floats : Floats F)

namespace ParamInfo

variable (info : ParamInfo F)

def continuous : Bool := (info.scalar = .f32 ∨ info.scalar = .f64) ∧ info.stepped = false

def offset (element : Nat) : Nat := info.byteOffset + element * scalarByteSize info.scalar

def limit : Nat := info.byteOffset + info.arrayLen * scalarByteSize info.scalar

def slot (element : Nat) : WebSlot := ⟨info.offset element, info.scalar = .f32⟩

/-- A scalar as memory holds it. -/
def scalarValue (value : F) : F := if info.scalar = .f32 then floats.toF32 value else value

/-- `writeStorage` -/
def writeStorage (values : Nat → F) (memory : Nat → F) : Nat → F :=
  (List.range info.arrayLen).foldl
    (fun memory element => Function.update memory (info.offset element) (info.scalarValue floats (values element)))
    memory

end ParamInfo

/-- Parameters with storage of their own each. -/
structure ParamTable (F : Type) where
  params : List (ParamInfo F)
  apart : ∀ (first second : Nat) (info info' : ParamInfo F), first < second →
    params[first]? = some info → params[second]? = some info' →
      info.limit ≤ info'.byteOffset ∨ info'.limit ≤ info.byteOffset

/-- What the worklet has of its parameters and their ramps. -/
structure WebSession (F : Type) where
  table : ParamTable F
  addresses : List (List Nat)
  ramps : Ramps WebSlot F
  memory : Nat → F

namespace Ramps

variable {S A : Type} (storage : Storage S A) (ramps : Ramps S F)

/-- `readTargets` -/
def readTargets (memory : A → F) : Ramps S F :=
  { ramps with
    entries := ramps.entries.map fun entry =>
      let value := stored floats storage entry.slot (memory (storage.address entry.slot))
      { entry with current := value, start := value, target := value } }

/-- The targets are read where there are no ramps. -/
def reread (memory : A → F) : Ramps S F :=
  if ramps.samples = 0 then ramps.readTargets floats storage memory else ramps

/-- The writes of `settle`. -/
def writeTargets [DecidableEq A] (memory : A → F) : A → F :=
  ramps.entries.foldl (fun memory entry =>
    Function.update memory (storage.address entry.slot) (stored floats storage entry.slot entry.target)) memory

end Ramps

/-- One more parameter for the constructor of `ParamSmoothing`, which reads its values. -/
def addParamInfo (samples : Nat) (memory : Nat → F) (out : List (List Nat) × List (Entry WebSlot F))
    (info : ParamInfo F) : List (List Nat) × List (Entry WebSlot F) :=
  if info.continuous then
    (out.1 ++ [(List.range info.arrayLen).map (out.2.length + ·)],
      out.2 ++ (List.range info.arrayLen).map fun element =>
        let slot := info.slot element
        let value := stored floats webStorage slot (memory slot.offset)
        { slot := slot, current := value, start := value, target := value, elapsed := samples, active := false })
  else (out.1 ++ [[]], out.2)

/-- The values that are written before the ramps are there. -/
def initialMemory (table : ParamTable F) (values : Nat → Nat → F) (memory : Nat → F) : Nat → F :=
  table.params.zipIdx.foldl (fun memory param => param.1.writeStorage floats (values param.2) memory) memory

namespace WebSession

def build (table : ParamTable F) (samples : Nat) (values : Nat → Nat → F) (blank : Nat → F) : WebSession F :=
  let memory := initialMemory floats table values blank
  let out := table.params.foldl (addParamInfo floats samples memory) ([], [])
  { table := table, addresses := out.1, ramps := ⟨samples, out.2, [], false⟩, memory := memory }

variable (session : WebSession F)

/-- `setParamScalar` -/
def setElement (param element : Nat) (value : F) (initialized : Bool) : Option (WebSession F) :=
  match (session.table.params[param]?).filter fun info => element < info.arrayLen with
  | none => some session
  | some info =>
    match lookup session.addresses (param, element) with
    | none => some { session with
        memory := Function.update session.memory (info.offset element) (info.scalarValue floats value) }
    | some id => (session.ramps.entries[id]?).map fun entry =>
      let written := session.ramps.setParam floats webStorage id entry value initialized session.memory
      { session with ramps := written.1, memory := written.2 }

/-- `setParam` for a whole parameter: it is written at once where no ramp is enabled for it.  Else
its elements are set one by one. -/
def setWhole (param : Nat) (values : Nat → F) : WebSession F :=
  match session.table.params[param]? with
  | none => session
  | some info =>
    if 0 < session.ramps.samples ∧ info.continuous then session
    else { session with memory := info.writeStorage floats values session.memory }

/-- `setDuration`: the values of the processor are read where there were no ramps. -/
def setDuration (samples : Nat) : Option (WebSession F) :=
  if samples = session.ramps.samples then some session
  else
    ((session.ramps.reread floats webStorage session.memory).setDuration floats webStorage
      (fun entry => stored floats webStorage entry.slot entry.target) samples session.memory).map fun next =>
        { session with ramps := next.1, memory := next.2 }

def beginBlock (frames : Nat) : Option (WebSession F) :=
  (session.ramps.advance floats webStorage frames session.memory).map fun next =>
    { session with ramps := next.1, memory := next.2 }

/-- `settle`: the targets are written. -/
def settle : WebSession F :=
  let ramps := session.ramps.reread floats webStorage session.memory
  { session with
    ramps := ramps.settleEntries Entry.target fun entry => stored floats webStorage entry.slot entry.target
    memory := ramps.writeTargets floats webStorage session.memory }

/-- `writeParamDefaults` -/
def writeParamDefaults (memory : Nat → F) : Nat → F :=
  session.table.params.foldl (fun memory info =>
    match info.default with
    | some values => info.writeStorage floats values memory
    | none => memory) memory

/-- `writeParamDefaults` and `reset`. -/
def resetParams : WebSession F :=
  let memory := session.writeParamDefaults floats session.memory
  settle floats { session with ramps := session.ramps.readTargets floats webStorage memory, memory := memory }

end WebSession

/-- What can be done with the parameters of a worklet. -/
inductive WebCall (F : Type) where
  | setElement (param element : Nat) (value : F) (initialized : Bool)
  | setWhole (param : Nat) (values : Nat → F)
  | setDuration (samples : Nat)
  | beginBlock (frames : Nat)
  | settle
  | resetParams

namespace WebCall

def frames : WebCall F → Nat
  | .beginBlock frames => frames
  | _ => 0

/-- A write that goes past the ramps. -/
def Bypasses : WebCall F → Prop
  | .setWhole .. => True
  | _ => False

end WebCall

def WebSession.perform (session : WebSession F) : WebCall F → Option (WebSession F)
  | .setElement param element value initialized => session.setElement floats param element value initialized
  | .setWhole param values => some (session.setWhole floats param values)
  | .setDuration samples => session.setDuration floats samples
  | .beginBlock frames => session.beginBlock floats frames
  | .settle => some (session.settle floats)
  | .resetParams => some (session.resetParams floats)

end Web

/-! ### What a worklet keeps -/

section WebFacts

variable {F : Type} {floats : Floats F}

/-! #### Storage -/

theorem scalarByteSize_pos (scalar : PrimitiveType) : 0 < scalarByteSize scalar := by
  cases scalar <;> decide

variable {addresses : List (List Nat)} {out : List (List Nat) × List (Entry WebSlot F)}
  {positions : List (Nat × Nat)} {params : List (ParamInfo F)} {slots : List WebSlot}
  {count index : Nat} {memory : Nat → F} {info : ParamInfo F} {table : ParamTable F}
  {slot : WebSlot}

/-- Elements of parameters do not share storage. -/
theorem ParamTable.offset_inj (table : ParamTable F) {first second element element' : Nat}
    {info' : ParamInfo F} (here : table.params[first]? = some info)
    (there : table.params[second]? = some info') (inside : element < info.arrayLen)
    (inside' : element' < info'.arrayLen) (same : info.offset element = info'.offset element') :
    first = second ∧ element = element' := by
  have below : ∀ {info : ParamInfo F} {element : Nat}, element < info.arrayLen →
      info.byteOffset ≤ info.offset element ∧ info.offset element < info.limit := by
    intro info element inside
    have positive := scalarByteSize_pos info.scalar
    have product := Nat.mul_lt_mul_of_pos_right inside positive
    exact ⟨Nat.le_add_right _ _, Nat.add_lt_add_left product _⟩
  have one := below inside
  have two := below inside'
  rcases Nat.lt_trichotomy first second with before | rfl | behind
  · have := table.apart first second info info' before here there
    omega
  · obtain rfl := Option.some.inj (here.symm.trans there)
    have product := Nat.add_left_cancel same
    exact ⟨rfl, Nat.eq_of_mul_eq_mul_right (scalarByteSize_pos info.scalar) product⟩
  · have := table.apart second first info' info behind there here
    omega

/-- What all writes to an address have in common, and its first value. -/
theorem foldl_update {ι A : Type} [DecidableEq A] (places : ι → A) (values : ι → F) (holds : F → Prop)
    {items : List ι} {memory : A → F} {address : A} (start : holds (memory address))
    (writes : ∀ item ∈ items, places item = address → holds (values item)) :
    holds ((items.foldl (fun memory item => Function.update memory (places item) (values item)) memory)
      address) := by
  induction items generalizing memory with
  | nil => exact start
  | cons item items ih =>
    refine ih ?_ fun other mem => writes other (List.mem_cons_of_mem _ mem)
    dsimp only
    by_cases here : address = places item
    · rw [here, Function.update_self]
      exact writes item List.mem_cons_self here.symm
    · rwa [Function.update_of_ne here]

/-- Where something is written, what all writes have in common. -/
theorem foldl_update_written {ι A : Type} [DecidableEq A] (places : ι → A) (values : ι → F)
    (holds : F → Prop) {items : List ι} {memory : A → F} {address : A} (written : ι) (mem : written ∈ items)
    (place : places written = address)
    (writes : ∀ item ∈ items, places item = address → holds (values item)) :
    holds ((items.foldl (fun memory item => Function.update memory (places item) (values item)) memory)
      address) := by
  induction items generalizing memory with
  | nil => cases mem
  | cons item items ih =>
    have later : ∀ other ∈ items, places other = address → holds (values other) :=
      fun other mem => writes other (List.mem_cons_of_mem _ mem)
    rw [List.foldl_cons]
    rcases List.mem_cons.1 mem with rfl | mem
    · refine foldl_update places values holds ?_ later
      rw [place, Function.update_self]
      exact writes written List.mem_cons_self place
    · exact ih mem later

/-! #### Places -/

/-- The entries are at the places of their parameters. -/
structure Placed (params : List (ParamInfo F)) (addresses : List (List Nat)) (slots : List WebSlot) : Prop where
  found : ∀ position id, lookup addresses position = some id →
    ∃ info, params[position.1]? = some info ∧ slots[id]? = some (info.slot position.2)
  origin : ∀ (id : Nat) (slot : WebSlot), slots[id]? = some slot → ∃ index element info,
    lookup addresses (index, element) = some id ∧ params[index]? = some info ∧ element < info.arrayLen
      ∧ info.continuous = true ∧ slot = info.slot element

/-- Two entries at one place are one. -/
theorem Placed.unique (placed : Placed table.params addresses slots) {first second : Nat}
    {slot' : WebSlot} (here : slots[first]? = some slot) (there : slots[second]? = some slot')
    (same : slot.offset = slot'.offset) :
    first = second := by
  obtain ⟨index, element, info, look, found, inside, -, rfl⟩ := placed.origin first slot here
  obtain ⟨index', element', info', look', found', inside', -, rfl⟩ := placed.origin second slot' there
  obtain ⟨rfl, rfl⟩ := table.offset_inj found found' inside inside' same
  exact Option.some.inj (look.symm.trans look')

theorem Placed.nodup (placed : Placed table.params addresses slots)
    : (slots.map WebSlot.offset).Nodup := by
  refine List.nodup_iff_getElem?_ne_getElem?.2 fun first second before inside same => ?_
  rw [List.length_map] at inside
  have there := List.getElem?_eq_getElem inside
  have here := List.getElem?_eq_getElem (Nat.lt_trans before inside)
  rw [List.getElem?_map, List.getElem?_map, here, there] at same
  exact absurd (placed.unique here there (Option.some.inj same)) (Nat.ne_of_lt before)

/-- A write to a parameter meets an entry at its own place only. -/
theorem Placed.meets (placed : Placed table.params addresses slots) {id element : Nat}
    (here : slots[id]? = some slot) (found : table.params[index]? = some info)
    (inside : element < info.arrayLen) (same : info.offset element = slot.offset) :
    lookup addresses (index, element) = some id ∧ info.continuous = true ∧ slot = info.slot element := by
  obtain ⟨index', element', info', look, found', inside', continuous, rfl⟩ := placed.origin id slot here
  obtain ⟨rfl, rfl⟩ := table.offset_inj found found' inside inside' same
  obtain rfl := Option.some.inj (found.symm.trans found')
  exact ⟨look, continuous, rfl⟩

/-- Entries hold values of their types. -/
def Typed (floats : Floats F) (slots : List WebSlot) (memory : Nat → F) : Prop :=
  ∀ slot ∈ slots, stored floats webStorage slot (memory slot.offset) = memory slot.offset

theorem stored_slot (info : ParamInfo F) (element : Nat) (value : F) :
    stored floats webStorage (info.slot element) value = info.scalarValue floats value := by
  simp only [stored, webStorage, ParamInfo.slot, ParamInfo.scalarValue, decide_eq_true_eq]

theorem Typed.writeStorage (placed : Placed table.params addresses slots)
    (typed : Typed floats slots memory) (found : table.params[index]? = some info)
    (values : Nat → F) :
    Typed floats slots (info.writeStorage floats values memory) := by
  intro slot mem
  obtain ⟨id, here⟩ := List.getElem?_of_mem mem
  refine foldl_update info.offset (fun element => info.scalarValue floats (values element))
    (fun value => stored floats webStorage slot value = value) (typed slot mem) fun element inside same => ?_
  obtain ⟨-, -, rfl⟩ := placed.meets here found (List.mem_range.1 inside) same
  rw [← stored_slot info element, stored_stored]

/-- Storage of a parameter without ramps has no entries. -/
theorem writeStorage_discrete (placed : Placed table.params addresses slots)
    (found : table.params[index]? = some info) (discrete : info.continuous ≠ true)
    (values : Nat → F) (mem : slot ∈ slots) :
    info.writeStorage floats values memory slot.offset = memory slot.offset := by
  obtain ⟨id, here⟩ := List.getElem?_of_mem mem
  refine foldl_update info.offset (fun element => info.scalarValue floats (values element))
    (fun value => value = memory slot.offset) rfl fun element inside same => ?_
  exact absurd (placed.meets here found (List.mem_range.1 inside) same).2.1 discrete

/-! #### Calls -/

/-- The slots of a table. -/
def slotAt (params : List (ParamInfo F)) (position : Nat × Nat) : Option WebSlot :=
  (params[position.1]?).map fun info => info.slot position.2

/-- The first parameters of a worklet, and no others, have their entries. -/
structure WebBuilt (floats : Floats F) (params : List (ParamInfo F)) (memory : Nat → F) (count : Nat)
    (positions : List (Nat × Nat)) (out : List (List Nat) × List (Entry WebSlot F)) : Prop where
  length : out.1.length = count
  addressed : Addressed out.1 positions
  inside : ∀ position ∈ positions, position.1 < count ∧ ∃ info, params[position.1]? = some info
    ∧ position.2 < info.arrayLen ∧ info.continuous = true
  placed : (out.2.map Entry.slot).map some = positions.map (slotAt params)
  fresh : ∀ entry ∈ out.2, entry.active = false
    ∧ entry.target = stored floats webStorage entry.slot (memory entry.slot.offset)

theorem WebBuilt.addParamInfo (built : WebBuilt floats params memory count positions out)
    (here : params[count]? = some info) (samples : Nat) :
    ∃ positions', WebBuilt floats params memory (count + 1) positions'
      (addParamInfo floats samples memory out info) := by
  have length : out.2.length = positions.length := by
    simpa using congrArg List.length built.placed
  have before : ∀ position ∈ positions, position.1 < out.1.length :=
    fun position mem => built.length ▸ (built.inside position mem).1
  unfold Smoothing.addParamInfo
  split
  case isTrue continuous =>
    refine ⟨positions ++ (List.range info.arrayLen).map (count, ·), by simp [built.length], ?_, ?_, ?_, ?_⟩
    · have grown := built.addressed.concat before info.arrayLen
      rw [built.length, ← length] at grown
      exact grown
    · intro position mem
      rcases List.mem_append.1 mem with mem | mem
      · obtain ⟨inside, declared⟩ := built.inside position mem
        exact ⟨Nat.lt_succ_of_lt inside, declared⟩
      · obtain ⟨element, inside, rfl⟩ := List.mem_map.1 mem
        exact ⟨Nat.lt_succ_self count, info, here, List.mem_range.1 inside, continuous⟩
    · rw [List.map_append, List.map_append, List.map_append, built.placed]
      congr 1
      simp only [List.map_map]
      refine List.map_congr_left fun element _ => ?_
      simp [slotAt, here]
    · intro entry mem
      rcases List.mem_append.1 mem with mem | mem
      · exact built.fresh entry mem
      · obtain ⟨element, -, rfl⟩ := List.mem_map.1 mem
        exact ⟨rfl, rfl⟩
  case isFalse =>
    refine ⟨positions, by simp [built.length], ?_, fun position mem => ?_, built.placed, built.fresh⟩
    · have grown := built.addressed.concat before 0
      rwa [List.range_zero, List.map_nil, List.map_nil, List.append_nil] at grown
    · obtain ⟨inside, declared⟩ := built.inside position mem
      exact ⟨Nat.lt_succ_of_lt inside, declared⟩

theorem WebBuilt.foldl {rest : List (ParamInfo F)}
    (built : WebBuilt floats params memory count positions out) (left : params.drop count = rest)
    (samples : Nat) : ∃ positions', WebBuilt floats params memory (count + rest.length) positions'
      (rest.foldl (Smoothing.addParamInfo floats samples memory) out) := by
  induction rest generalizing count positions out with
  | nil => exact ⟨positions, built⟩
  | cons info rest ih =>
    have here : params[count]? = some info := by
      rw [← List.head?_drop, left, List.head?_cons]
    have later : params.drop (count + 1) = rest := by
      rw [← List.tail_drop, left, List.tail_cons]
    obtain ⟨positions', built⟩ := built.addParamInfo here samples
    rw [List.foldl_cons, List.length_cons, Nat.add_comm rest.length 1, ← Nat.add_assoc]
    exact ih built later

theorem WebBuilt.places (built : WebBuilt floats params memory count positions out) :
    Placed params out.1 (out.2.map Entry.slot) := by
  have same : ∀ id : Nat, ((out.2.map Entry.slot)[id]?).map some = (positions[id]?).map (slotAt params) := by
    intro id
    rw [← List.getElem?_map, built.placed, List.getElem?_map]
  refine ⟨fun position id look => ?_, fun id slot here => ?_⟩
  · have there := (built.addressed position id).1 look
    obtain ⟨-, info, found, -⟩ := built.inside position (List.mem_of_getElem? there)
    have both := same id
    rw [there, Option.map_some, slotAt, found, Option.map_some] at both
    obtain ⟨slot, here, equal⟩ := Option.map_eq_some_iff.1 both
    exact ⟨info, found, Option.some.inj equal ▸ here⟩
  · have both := same id
    rw [here, Option.map_some] at both
    obtain ⟨⟨index, element⟩, there, equal⟩ := Option.map_eq_some_iff.1 both.symm
    obtain ⟨-, info, found, inside, continuous⟩ := built.inside _ (List.mem_of_getElem? there)
    rw [slotAt, found, Option.map_some] at equal
    exact ⟨index, element, info, (built.addressed _ id).2 there, found, inside, continuous,
      (Option.some.inj equal).symm⟩

structure WebSession.Sound (floats : Floats F) (plain : Prop) (session : WebSession F) : Prop where
  ramps : session.ramps.Sound floats webStorage
  placed : Placed session.table.params session.addresses (session.ramps.entries.map Entry.slot)
  typed : Typed floats (session.ramps.entries.map Entry.slot) session.memory
  tracks : session.ramps.samples ≠ 0 ∨ plain → Tracks webStorage (· = ·) session.ramps session.memory

/-- Changes of entries store values of their types. -/
theorem Typed.touched {change : Entry WebSlot F → Option (Entry WebSlot F × Option F)} {ids : List Nat}
    {before after : Cells WebSlot Nat F} (touched : Touched webStorage change ids before after)
    (typed : Typed floats (before.entries.map Entry.slot) before.memory)
    (apart : Apart webStorage before.entries)
    (writes : ∀ entry changed value, change entry = some changed → changed.2 = some value →
      stored floats webStorage entry.slot value = value) :
    Typed floats (after.entries.map Entry.slot) after.memory := by
  rw [touched.slots]
  intro slot mem
  have was := typed slot mem
  obtain ⟨entry, among, rfl⟩ := List.mem_map.1 mem
  obtain ⟨id, here⟩ := List.getElem?_of_mem among
  by_cases listed : id ∈ ids
  · obtain ⟨changed, steps, -, written⟩ := touched.changed id listed entry here
    have written : after.memory entry.slot.offset = changed.2.getD (before.memory entry.slot.offset) := written
    rw [written]
    cases value : changed.2 with
    | none => exact was
    | some value' => exact writes entry changed value' steps value
  · have unwritten : after.memory entry.slot.offset = before.memory entry.slot.offset :=
      touched.elsewhere _ fun other mem entry' there clash => listed (apart.unique there here clash ▸ mem)
    rw [unwritten]
    exact was

variable (floats) in
theorem Entry.advance_typed (samples frames : Nat) (entry : Entry WebSlot F)
    (changed : Entry WebSlot F × Option F) (value : F)
    (steps : entry.advance floats webStorage samples frames = some changed) (written : changed.2 = some value) :
    stored floats webStorage entry.slot value = value := by
  obtain ⟨left, -, rfl⟩ := Option.map_eq_some_iff.1 steps
  obtain rfl := Option.some.inj written
  exact stored_stored _ _

variable (floats) in
theorem Entry.redraw_typed (reached : Entry WebSlot F → F) (previous samples : Nat) (entry : Entry WebSlot F)
    (changed : Entry WebSlot F × Option F) (value : F)
    (steps : entry.redraw floats webStorage reached previous samples = some changed)
    (written : changed.2 = some value) : stored floats webStorage entry.slot value = value := by
  rw [Entry.redraw] at steps
  split at steps
  · obtain rfl := Option.some.inj steps
    obtain rfl := Option.some.inj written
    exact stored_stored _ _
  · obtain rfl := Option.some.inj steps
    cases written

namespace Ramps

variable {S A : Type} {storage : Storage S A} {ramps : Ramps S F}

variable (floats storage) in
theorem slots_readTargets (memory : A → F) :
    (ramps.readTargets floats storage memory).entries.map Entry.slot = ramps.entries.map Entry.slot := by
  simp [Ramps.readTargets]

theorem entry_readTargets {memory : A → F} {id : Nat} {entry' : Entry S F}
    (there : (ramps.readTargets floats storage memory).entries[id]? = some entry') :
    ∃ entry, ramps.entries[id]? = some entry ∧ entry'.slot = entry.slot ∧ entry'.active = entry.active
      ∧ entry'.elapsed = entry.elapsed
      ∧ entry'.target = stored floats storage entry.slot (memory (storage.address entry.slot)) := by
  obtain ⟨entry, here, rfl⟩ := Option.map_eq_some_iff.1 (List.getElem?_map.symm.trans there)
  exact ⟨entry, here, rfl, rfl, rfl, rfl⟩

theorem Sound.readTargets (sound : ramps.Sound floats storage) (memory : A → F) :
    (ramps.readTargets floats storage memory).Sound floats storage := by
  refine ⟨sound.apart.of_slots (slots_readTargets floats storage memory), sound.once, fun id => ?_, ?_, ?_⟩
  · rw [show (ramps.readTargets floats storage memory).active = ramps.active from rfl, sound.listed]
    constructor
    · rintro ⟨entry, here, active⟩
      unfold Ramps.readTargets
      dsimp only
      rw [List.getElem?_map, here]
      exact ⟨_, rfl, active⟩
    · rintro ⟨entry', there, active⟩
      obtain ⟨entry, here, -, same, -⟩ := entry_readTargets there
      exact ⟨entry, here, same ▸ active⟩
  · intro id entry' there active
    obtain ⟨entry, here, -, same, elapsed, -⟩ := entry_readTargets there
    rw [elapsed]
    exact sound.within id entry here (same ▸ active)
  · intro id entry' there
    obtain ⟨entry, -, slot, -, -, target⟩ := entry_readTargets there
    rw [slot, target, stored_stored]

/-- Targets that were read are what is stored. -/
theorem readTargets_tracks {ramps : Ramps WebSlot F} {memory : Nat → F}
    (typed : Typed floats (ramps.entries.map Entry.slot) memory) :
    Tracks webStorage (· = ·) (ramps.readTargets floats webStorage memory) memory := by
  intro id entry' there _
  obtain ⟨entry, here, slot, -, -, target⟩ := entry_readTargets there
  rw [slot, target]
  exact (typed _ (mem_slots here)).symm

/-- What `settle` writes. -/
theorem writeTargets_entry [DecidableEq A] (sound : ramps.Sound floats storage) (memory : A → F) {id : Nat}
    {entry : Entry S F} (here : ramps.entries[id]? = some entry) :
    ramps.writeTargets floats storage memory (storage.address entry.slot) = entry.target := by
  refine foldl_update_written (fun entry : Entry S F => storage.address entry.slot)
    (fun entry => stored floats storage entry.slot entry.target) (· = entry.target) entry
    (List.mem_of_getElem? here) rfl fun other mem same => ?_
  obtain ⟨id', there⟩ := List.getElem?_of_mem mem
  obtain rfl := sound.apart.unique there here same
  obtain rfl := Option.some.inj (here.symm.trans there)
  exact sound.typed id' entry here

end Ramps

namespace WebSession

variable {session : WebSession F} {plain : Prop}

theorem Sound.setElement (sound : session.Sound floats plain) (param element : Nat) (value : F)
    (initialized : Bool) :
    ∃ next, session.setElement floats param element value initialized = some next ∧ next.Sound floats plain := by
  rw [WebSession.setElement]
  cases declared : (session.table.params[param]?).filter fun info => element < info.arrayLen with
  | none => exact ⟨session, rfl, sound⟩
  | some info =>
    obtain ⟨found, inside⟩ := Option.filter_eq_some_iff.1 declared
    have inside := of_decide_eq_true inside
    dsimp only
    cases look : lookup session.addresses (param, element) with
    | none =>
      -- no entry is at this place
      have away : ∀ slot ∈ session.ramps.entries.map Entry.slot, slot.offset ≠ info.offset element := by
        intro slot mem same
        obtain ⟨id, here⟩ := List.getElem?_of_mem mem
        have listed := (sound.placed.meets here found inside same.symm).1
        rw [look] at listed
        cases listed
      refine ⟨_, rfl, sound.ramps, sound.placed, fun slot mem => ?_, fun enabled id entry here inactive => ?_⟩
      · dsimp only
        rw [Function.update_of_ne (away slot mem)]
        exact sound.typed slot mem
      · have apart := away entry.slot (mem_slots here)
        show Function.update _ _ _ entry.slot.offset = _
        rw [Function.update_of_ne apart]
        exact sound.tracks enabled id entry here inactive
    | some id =>
      obtain ⟨info', found', there⟩ := sound.placed.found (param, element) id look
      obtain ⟨entry, here, -⟩ := Option.map_eq_some_iff.1 (List.getElem?_map.symm.trans there)
      dsimp only
      rw [here, Option.map_some]
      have slots := Ramps.slots_setParam floats webStorage here value initialized session.memory
      have samples : (session.ramps.setParam floats webStorage id entry value initialized
          session.memory).1.samples = session.ramps.samples := Ramps.samples_setTarget _ _ _ _
      refine ⟨_, rfl, sound.ramps.setTarget here _ _, slots ▸ sound.placed, ?_, fun enabled => ?_⟩
      · dsimp only
        rw [slots]
        intro slot mem
        have was := sound.typed slot mem
        by_cases place : slot.offset = entry.slot.offset
        · have at_entry : (session.ramps.entries.map Entry.slot)[id]? = some entry.slot := by
            rw [List.getElem?_map, here]
            rfl
          obtain ⟨other, at_slot⟩ := List.getElem?_of_mem mem
          obtain rfl := sound.placed.unique at_slot at_entry place
          obtain rfl := Option.some.inj (at_slot.symm.trans at_entry)
          unfold Ramps.setParam
          dsimp only
          split
          case isTrue => exact was
          case isFalse =>
            rw [webStorage, Function.update_self]
            exact stored_stored _ _
        · rw [Ramps.setParam_memory_ne value initialized place]
          exact was
      · exact Ramps.setParam_tracks sound.ramps (fun _ => rfl) here _ _ (sound.tracks (samples ▸ enabled))

theorem Sound.setWhole (sound : session.Sound floats plain) (param : Nat) (values : Nat → F) (bypasses : ¬plain) :
    (session.setWhole floats param values).Sound floats plain := by
  rw [WebSession.setWhole]
  split
  case h_1 => exact sound
  case h_2 info found =>
    split
    case isTrue => exact sound
    case isFalse direct =>
      refine ⟨sound.ramps, sound.placed, sound.typed.writeStorage sound.placed found values,
        fun enabled id entry here inactive => ?_⟩
      have on : session.ramps.samples ≠ 0 := enabled.resolve_right bypasses
      have discrete : info.continuous ≠ true := fun continuous => direct ⟨Nat.pos_of_ne_zero on, continuous⟩
      show info.writeStorage floats values session.memory entry.slot.offset = _
      rw [writeStorage_discrete sound.placed found discrete values (mem_slots here)]
      exact sound.tracks (.inl on) id entry here inactive

/-- Ramps whose targets are what is stored, where there were no ramps. -/
theorem Sound.reread (sound : session.Sound floats plain) :
    Sound floats True { session with ramps := session.ramps.reread floats webStorage session.memory } := by
  rw [Ramps.reread]
  split
  case isTrue =>
    have slots := @Ramps.slots_readTargets _ floats _ _ webStorage session.ramps session.memory
    refine ⟨sound.ramps.readTargets _, slots ▸ sound.placed, slots ▸ sound.typed, fun _ => ?_⟩
    exact Ramps.readTargets_tracks sound.typed
  case isFalse enabled =>
    exact ⟨sound.ramps, sound.placed, sound.typed, fun _ => sound.tracks (.inl enabled)⟩

theorem Sound.weaken (sound : session.Sound floats True) : session.Sound floats plain :=
  ⟨sound.ramps, sound.placed, sound.typed, fun _ => sound.tracks (.inr trivial)⟩

theorem Sound.setDuration (sound : session.Sound floats plain) (samples : Nat) :
    ∃ next, session.setDuration floats samples = some next ∧ next.Sound floats plain := by
  rw [WebSession.setDuration]
  split
  case isTrue => exact ⟨session, rfl, sound⟩
  case isFalse changes =>
    have reread := sound.reread
    generalize session.ramps.reread floats webStorage session.memory = ramps at reread ⊢
    obtain ⟨next, memory, run, next_sound, count, -, unchanged, changed⟩ := reread.ramps.setDuration
      (fun entry => stored floats webStorage entry.slot entry.target) samples session.memory
    dsimp only at run
    rw [run]
    refine ⟨_, rfl, ?_⟩
    by_cases same : samples = ramps.samples
    · obtain ⟨rfl, rfl⟩ := unchanged same
      exact reread.weaken
    · have touched := changed same
      refine ⟨next_sound, touched.slots ▸ reread.placed, ?_, fun _ => ?_⟩
      · exact reread.typed.touched touched reread.ramps.apart (Entry.redraw_typed floats _ _ _)
      · exact Ramps.setDuration_tracks reread.ramps (fun _ => rfl) touched (reread.tracks (.inr trivial))

theorem Sound.beginBlock (sound : session.Sound floats plain) (frames : Nat) :
    ∃ next, session.beginBlock floats frames = some next ∧ next.Sound floats plain := by
  obtain ⟨next, memory, run, next_sound, count, -, touched⟩ := sound.ramps.advance frames session.memory
  rw [WebSession.beginBlock, run]
  refine ⟨_, rfl, next_sound, touched.slots ▸ sound.placed, ?_, fun enabled => ?_⟩
  · exact sound.typed.touched touched sound.ramps.apart (Entry.advance_typed floats _ _)
  · exact Ramps.advance_tracks sound.ramps (fun _ => rfl) touched (sound.tracks (count ▸ enabled))

theorem Sound.settle (sound : session.Sound floats plain) : (session.settle floats).Sound floats plain := by
  have reread := sound.reread
  rw [WebSession.settle]
  generalize session.ramps.reread floats webStorage session.memory = ramps at reread ⊢
  have slots := slots_settleEntries ramps Entry.target fun entry => stored floats webStorage entry.slot entry.target
  refine ⟨reread.ramps.settleEntries fun entry mem => ?_, slots ▸ reread.placed, ?_, fun _ => ?_⟩
  · obtain ⟨id, here⟩ := List.getElem?_of_mem mem
    exact reread.ramps.typed id entry here
  · dsimp only
    rw [slots]
    intro slot mem
    obtain ⟨entry, among, rfl⟩ := List.mem_map.1 mem
    obtain ⟨id, here⟩ := List.getElem?_of_mem among
    have written := Ramps.writeTargets_entry reread.ramps session.memory here
    rw [show ramps.writeTargets floats webStorage session.memory entry.slot.offset = entry.target from written]
    exact reread.ramps.typed id entry here
  · intro id entry' there _
    obtain ⟨entry, here, slot, target⟩ := entry_settleEntries there
    rw [slot, target]
    exact Ramps.writeTargets_entry reread.ramps session.memory here

theorem Sound.resetParams (sound : session.Sound floats plain) :
    (session.resetParams floats).Sound floats plain := by
  have defaults : Typed floats (session.ramps.entries.map Entry.slot)
      (session.writeParamDefaults floats session.memory) := by
    rw [WebSession.writeParamDefaults]
    have each : ∀ (infos : List (ParamInfo F)) (memory : Nat → F), (∀ info ∈ infos, info ∈ session.table.params) →
        Typed floats (session.ramps.entries.map Entry.slot) memory →
        Typed floats (session.ramps.entries.map Entry.slot) (infos.foldl (fun memory info =>
          match info.default with
          | some values => info.writeStorage floats values memory
          | none => memory) memory) := by
      intro infos
      induction infos with
      | nil => exact fun _ _ typed => typed
      | cons info infos ih =>
        intro memory known typed
        refine ih _ (fun other mem => known other (List.mem_cons_of_mem _ mem)) ?_
        obtain ⟨index, found⟩ := List.getElem?_of_mem (known info List.mem_cons_self)
        dsimp only
        split
        · exact typed.writeStorage sound.placed found _
        · exact typed
    exact each _ _ (fun _ mem => mem) sound.typed
  have slots := @Ramps.slots_readTargets _ floats _ _ webStorage session.ramps
    (session.writeParamDefaults floats session.memory)
  have reread : Sound floats True { session with
      ramps := session.ramps.readTargets floats webStorage (session.writeParamDefaults floats session.memory)
      memory := session.writeParamDefaults floats session.memory } :=
    ⟨sound.ramps.readTargets _, slots ▸ sound.placed, slots ▸ defaults, fun _ =>
      Ramps.readTargets_tracks defaults⟩
  exact reread.settle.weaken

/-- The values of all elements are written, each of its type. -/
theorem initialMemory_typed {table : ParamTable F} {addresses : List (List Nat)} {slots : List WebSlot}
    (placed : Placed table.params addresses slots) (values : Nat → Nat → F) (blank : Nat → F) :
    Typed floats slots (initialMemory floats table values blank) := by
  have flat : initialMemory floats table values blank
      = (table.params.zipIdx.flatMap fun param => (List.range param.1.arrayLen).map fun element =>
          (param, element)).foldl (fun memory write => Function.update memory (write.1.1.offset write.2)
            (write.1.1.scalarValue floats (values write.1.2 write.2))) blank := by
    rw [initialMemory, List.foldl_flatMap]
    congr 1
    funext memory param
    rw [ParamInfo.writeStorage, List.foldl_map]
  rw [flat]
  intro slot mem
  obtain ⟨id, here⟩ := List.getElem?_of_mem mem
  obtain ⟨index, element, info, look, found, inside, continuous, rfl⟩ := placed.origin id slot here
  refine foldl_update_written (fun write : (ParamInfo F × Nat) × Nat => write.1.1.offset write.2)
    (fun write => write.1.1.scalarValue floats (values write.1.2 write.2))
    (fun value => stored floats webStorage (info.slot element) value = value) ((info, index), element) ?_ rfl ?_
  · exact List.mem_flatMap.2 ⟨(info, index), List.mem_zipIdx_iff_getElem?.2 found,
      List.mem_map.2 ⟨element, List.mem_range.2 inside, rfl⟩⟩
  · rintro ⟨⟨info', index'⟩, element'⟩ among same
    obtain ⟨param, param_mem, among⟩ := List.mem_flatMap.1 among
    obtain ⟨other, inside', equal⟩ := List.mem_map.1 among
    obtain ⟨rfl, rfl⟩ := Prod.mk.inj equal
    have found' := List.mem_zipIdx_iff_getElem?.1 param_mem
    have equal := (placed.meets here found' (List.mem_range.1 inside') same).2.2
    rw [equal, ← stored_slot info' other, stored_stored]

variable (floats) in
/-- A new worklet is sound. -/
theorem build_sound (plain : Prop) (table : ParamTable F) (samples : Nat) (values : Nat → Nat → F)
    (blank : Nat → F) : (build floats table samples values blank).Sound floats plain := by
  have start : WebBuilt floats table.params (initialMemory floats table values blank) 0 [] ([], []) :=
    ⟨rfl, fun position id => by simp [lookup], fun _ mem => absurd mem List.not_mem_nil, rfl,
      fun _ mem => absurd mem List.not_mem_nil⟩
  obtain ⟨positions, built⟩ := start.foldl List.drop_zero samples
  have placed := built.places
  have typed := @initialMemory_typed _ floats _ _ _ placed values blank
  have fresh : ∀ (id : Nat) (entry : Entry WebSlot F),
      (build floats table samples values blank).ramps.entries[id]? = some entry → entry.active = false
        ∧ entry.target = stored floats webStorage entry.slot
          (initialMemory floats table values blank entry.slot.offset) :=
    fun id entry here => built.fresh entry (List.mem_of_getElem? here)
  refine ⟨⟨?_, .nil, fun id => ⟨fun mem => absurd mem List.not_mem_nil, ?_⟩, ?_, ?_⟩, placed, typed,
    fun _ id entry here _ => ?_⟩
  · have distinct := placed.nodup
    rwa [List.map_map] at distinct
  · rintro ⟨entry, here, active⟩
    rw [(fresh id entry here).1] at active
    cases active
  · intro id entry here active
    rw [(fresh id entry here).1] at active
    cases active
  · intro id entry here
    rw [(fresh id entry here).2, stored_stored]
  · rw [(fresh id entry here).2]
    exact (typed _ (mem_slots here)).symm

theorem perform_sound (sound : session.Sound floats plain) (call : WebCall F) (plainly : plain → ¬call.Bypasses) :
    ∃ next, session.perform floats call = some next ∧ next.Sound floats plain := by
  cases call with
  | setElement param element value initialized => exact sound.setElement param element value initialized
  | setWhole param values => exact ⟨_, rfl, sound.setWhole param values fun holds => plainly holds trivial⟩
  | setDuration samples => exact sound.setDuration samples
  | beginBlock frames => exact sound.beginBlock frames
  | settle => exact ⟨_, rfl, sound.settle⟩
  | resetParams => exact ⟨_, rfl, sound.resetParams⟩

theorem run_sound (sound : session.Sound floats plain) (calls : List (WebCall F))
    (plainly : plain → ∀ call ∈ calls, ¬call.Bypasses) :
    ∃ last, Steps.run (perform floats) session calls = some last ∧ last.Sound floats plain := by
  induction calls generalizing session with
  | nil => exact ⟨session, rfl, sound⟩
  | cons call calls ih =>
    obtain ⟨next, step, sound⟩ := perform_sound sound call fun holds => plainly holds call List.mem_cons_self
    obtain ⟨last, run, sound⟩ :=
      ih sound fun holds other mem => plainly holds other (List.mem_cons_of_mem _ mem)
    exact ⟨last, by rw [Steps.run, step, Option.bind_some, run], sound⟩

/-- A call that changes neither the target of an entry nor the duration. -/
theorem perform_progress (sound : session.Sound floats plain) {call : WebCall F} {next : WebSession F}
    (step : session.perform floats call = some next) (samples : next.ramps.samples = session.ramps.samples)
    {id : Nat} {before after : Entry WebSlot F} (was : session.ramps.entries[id]? = some before)
    (is : next.ramps.entries[id]? = some after) (steady : after.target = before.target) :
    before.Progress session.ramps.samples call.frames after := by
  cases call with
  | setElement param element value initialized =>
    have step : session.setElement floats param element value initialized = some next := step
    rw [WebSession.setElement] at step
    split at step
    case h_1 =>
      obtain rfl := Option.some.inj step
      obtain rfl := Option.some.inj (was.symm.trans is)
      exact .refl _ _
    case h_2 info found =>
      split at step
      case h_1 =>
        obtain rfl := Option.some.inj step
        obtain rfl := Option.some.inj (was.symm.trans is)
        exact .refl _ _
      case h_2 other look =>
        obtain ⟨entry, here, rfl⟩ := Option.map_eq_some_iff.1 step
        exact Ramps.setTarget_progress here _ _ was is steady
  | setWhole param values =>
    have same : next.ramps = session.ramps := by
      obtain rfl := Option.some.inj step
      rw [WebSession.setWhole]
      split
      · rfl
      · split
        · rfl
        · rfl
    rw [same, was] at is
    obtain rfl := Option.some.inj is
    exact .refl _ _
  | setDuration count =>
    have step : session.setDuration floats count = some next := step
    rw [WebSession.setDuration] at step
    split at step
    case isTrue =>
      obtain rfl := Option.some.inj step
      obtain rfl := Option.some.inj (was.symm.trans is)
      exact .refl _ _
    case isFalse changes =>
      obtain ⟨ramps, memory, run, -, is_count, -⟩ := sound.reread.ramps.setDuration
        (fun entry => stored floats webStorage entry.slot entry.target) count session.memory
      dsimp only at run
      rw [run] at step
      obtain rfl := Option.some.inj step
      exact absurd (is_count.symm.trans samples) changes
  | beginBlock frames =>
    obtain ⟨ramps, memory, run, -, -, -, touched⟩ := sound.ramps.advance frames session.memory
    have step : session.beginBlock floats frames = some next := step
    rw [WebSession.beginBlock, run] at step
    obtain rfl := Option.some.inj step
    exact Ramps.advance_progress sound.ramps touched was is
  | settle =>
    obtain rfl := Option.some.inj step
    obtain ⟨entry, -, rfl⟩ := Option.map_eq_some_iff.1 (List.getElem?_map.symm.trans is)
    exact nofun
  | resetParams =>
    obtain rfl := Option.some.inj step
    obtain ⟨entry, -, rfl⟩ := Option.map_eq_some_iff.1 (List.getElem?_map.symm.trans is)
    exact nofun

/-- Ramps of a worklet come to an end. -/
theorem session_settles (sound : session.Sound floats plain) {last : WebSession F} {calls : List (WebCall F)}
    (plainly : plain → ∀ call ∈ calls, ¬call.Bypasses) {id : Nat}
    (ran : Steps.run (perform floats) session calls = some last)
    (steady : Steps.Meets (perform floats) (KeepsTarget WebSession.ramps (perform floats) id) session calls)
    (enough : last.ramps.samples ≤ (calls.map WebCall.frames).sum) {entry : Entry WebSlot F}
    (here : last.ramps.entries[id]? = some entry) :
    entry.active = false
      ∧ (last.ramps.samples ≠ 0 ∨ plain → last.memory entry.slot.offset = entry.target) := by
  have kept : ∀ (state : WebSession F) (call : WebCall F) (next : WebSession F), state.Sound floats False →
      state.perform floats call = some next → next.Sound floats False := by
    intro state call next sound step
    obtain ⟨other, step', sound⟩ := perform_sound sound call False.elim
    obtain rfl := Option.some.inj (step'.symm.trans step)
    exact sound
  have start : session.Sound floats False :=
    ⟨sound.ramps, sound.placed, sound.typed, fun enabled => sound.tracks (enabled.imp_right False.elim)⟩
  have inactive := run_settles kept (fun _ sound => sound.ramps)
    (fun state call next sound step samples id before after was is same =>
      perform_progress sound step samples was is same) start ran steady enough entry here
  refine ⟨inactive, fun enabled => ?_⟩
  obtain ⟨other, ran', sound⟩ := run_sound sound calls plainly
  obtain rfl := Option.some.inj (ran'.symm.trans ran)
  exact sound.tracks enabled id entry here inactive

end WebSession

end WebFacts

end Onda.Smoothing
