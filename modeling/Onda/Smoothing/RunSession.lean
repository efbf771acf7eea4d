import Onda.Frontend.Expr
import Onda.Smoothing.RampFacts

/-!
# Ramps of the Rust host

A `RunSession` has the parameters of its instance, the values that were set, and the ramps between
them.  A write that no ramp handles is stored, and so are the defaults and the values that were set
when parameters are reset and instances are rebuilt.
-/

namespace Onda.Smoothing

/-! ### Tables of addresses -/

/-- An entry is found by the index of its parameter and its element. -/
def lookup (addresses : List (List Nat)) (address : Nat × Nat) : Option Nat :=
  (addresses[address.1]?).bind fun elements => elements[address.2]?

/-- The table leads to the entries at their positions. -/
def Addressed (addresses : List (List Nat)) (positions : List (Nat × Nat)) : Prop :=
  ∀ position id, lookup addresses position = some id ↔ positions[id]? = some position

variable {addresses : List (List Nat)} {positions : List (Nat × Nat)}

theorem Addressed.nodup (addressed : Addressed addresses positions) : positions.Nodup := by
  refine List.nodup_iff_getElem?_ne_getElem?.2 fun first second before inside same => ?_
  have there : positions[second]? = some positions[second] := List.getElem?_eq_getElem inside
  have one := (addressed _ first).2 (same.trans there)
  have two := (addressed _ second).2 there
  exact absurd (Option.some.inj (one.symm.trans two)) (Nat.ne_of_lt before)

/-- The table gets a row, for the entries that are added behind the others. -/
theorem Addressed.concat (addressed : Addressed addresses positions)
    (index_lt : ∀ position ∈ positions, position.1 < addresses.length) (count : Nat) :
    Addressed (addresses ++ [(List.range count).map (positions.length + ·)])
      (positions ++ (List.range count).map (addresses.length, ·)) := by
  rintro ⟨index, element⟩ id
  have later : positions.length ≤ id → ((positions ++ (List.range count).map (addresses.length, ·))[id]?
      = some (index, element) ↔ index = addresses.length ∧ element = id - positions.length ∧ element < count) := by
    intro behind
    rw [List.getElem?_append_right behind, List.getElem?_map, Option.map_eq_some_iff]
    constructor
    · rintro ⟨other, found, same⟩
      obtain ⟨inside, rfl⟩ := List.getElem?_eq_some_iff.1 found
      rw [List.length_range] at inside
      rw [List.getElem_range] at same
      obtain ⟨rfl, rfl⟩ := Prod.mk.inj same
      exact ⟨rfl, rfl, inside⟩
    · rintro ⟨rfl, rfl, inside⟩
      exact ⟨_, List.getElem?_range inside, rfl⟩
  have earlier : id < positions.length → ((positions ++ (List.range count).map (addresses.length, ·))[id]?
      = some (index, element) ↔ positions[id]? = some (index, element)) :=
    fun inside => by rw [List.getElem?_append_left inside]
  rw [lookup]
  rcases Nat.lt_trichotomy index addresses.length with before | rfl | beyond
  · rw [List.getElem?_append_left before]
    refine (addressed (index, element) id).trans ?_
    rcases Nat.lt_or_ge id positions.length with inside | behind
    · exact (earlier inside).symm
    · rw [later behind, List.getElem?_eq_none behind]
      exact ⟨fun found => (by cases found), fun both => absurd both.1 (Nat.ne_of_lt before)⟩
  · rw [List.getElem?_concat_length, Option.bind_some, List.getElem?_map, Option.map_eq_some_iff]
    rcases Nat.lt_or_ge id positions.length with inside | behind
    · rw [earlier inside]
      constructor
      · rintro ⟨position, -, rfl⟩
        exact absurd inside (Nat.not_lt_of_le (Nat.le_add_right _ _))
      · exact fun found => absurd (index_lt _ (List.mem_of_getElem? found)) (Nat.lt_irrefl _)
    · rw [later behind]
      constructor
      · rintro ⟨position, found, rfl⟩
        obtain ⟨inside, rfl⟩ := List.getElem?_eq_some_iff.1 found
        rw [List.length_range] at inside
        rw [List.getElem_range, Nat.add_sub_cancel_left]
        exact ⟨rfl, rfl, inside⟩
      · rintro ⟨-, rfl, inside⟩
        exact ⟨_, List.getElem?_range inside, Nat.add_sub_cancel' behind⟩
  · rw [List.getElem?_eq_none (by simp; omega)]
    refine ⟨fun found => (by cases found), fun found => ?_⟩
    rcases Nat.lt_or_ge id positions.length with inside | behind
    · exact absurd (index_lt _ (List.mem_of_getElem? ((earlier inside).1 found))) (Nat.lt_asymm beyond)
    · exact absurd ((later behind).1 found).1 (Nat.ne_of_gt beyond)

/-! ### The Rust host -/

open Onda.Frontend (PrimitiveType)

/-- The place of an entry of the Rust host. -/
structure HostSlot (F : Type) where
  index : Nat
  element : Nat
  ty : PrimitiveType
  default : F

def hostStorage (F : Type) : Storage (HostSlot F) (Nat × Nat) where
  address slot := (slot.index, slot.element)
  isF32 slot := slot.ty = .f32

/-- What a session reads of a declared parameter.  A default is a value of its type. -/
structure ParamDesc {F : Type} (floats : Floats F) where
  elemTy : PrimitiveType
  stepped : Bool
  arrayLen : Nat
  default : Nat → F
  default_f32 : elemTy = .f32 → ∀ element, floats.toF32 (default element) = default element

section Host

variable {F : Type} {floats : Floats F}

def ParamDesc.continuous (desc : ParamDesc floats) : Bool :=
  (desc.elemTy = .f32 ∨ desc.elemTy = .f64) ∧ desc.stepped = false

/-- `scalar_param_bytes`.  Values of the other types are numbers of their type already. -/
def ParamDesc.bytes (desc : ParamDesc floats) (value : F) : F :=
  if desc.elemTy = .f32 then floats.toF32 value else value

/-- What a `RunSession` has of its parameters and their ramps. -/
structure RunSession {F : Type} (floats : Floats F) where
  params : List (ParamDesc floats)
  addresses : List (List Nat)
  ramps : Ramps (HostSlot F) F
  /-- The parameters in the instance. -/
  memory : Nat × Nat → F
  paramValues : Nat × Nat → Option F

/-- One more parameter for `ParamSmoothing::new`. -/
def addParam (samples : Nat) (out : List (List Nat) × List (Entry (HostSlot F) F))
    (param : ParamDesc floats × Nat) : List (List Nat) × List (Entry (HostSlot F) F) :=
  if param.1.continuous then
    (out.1 ++ [(List.range param.1.arrayLen).map (out.2.length + ·)],
      out.2 ++ (List.range param.1.arrayLen).map fun element =>
        { slot := ⟨param.2, element, param.1.elemTy, param.1.default element⟩
          current := param.1.default element
          start := param.1.default element
          target := param.1.default element
          elapsed := samples
          active := false })
  else (out.1 ++ [[]], out.2)

namespace RunSession

/-- The parameter at an address. -/
def desc? (params : List (ParamDesc floats)) (address : Nat × Nat) : Option (ParamDesc floats) :=
  (params[address.1]?).filter fun desc => address.2 < desc.arrayLen

/-- A new instance, with the values that were set. -/
def boundInstance (params : List (ParamDesc floats)) (values : Nat × Nat → Option F)
    (blank : Nat × Nat → F) (address : Nat × Nat) : F :=
  match desc? params address with
  | some desc =>
    match values address with
    | some value => desc.bytes value
    | none => desc.default address.2
  | none => blank address

/-- A session without values that were set. -/
def build (params : List (ParamDesc floats)) (samples : Nat) (blank : Nat × Nat → F) : RunSession floats :=
  let out := params.zipIdx.foldl (addParam samples) ([], [])
  { params := params
    addresses := out.1
    ramps := ⟨samples, out.2, [], false⟩
    memory := boundInstance params (fun _ => none) blank
    paramValues := fun _ => none }

variable (session : RunSession floats)

/-- `set_param` with a number that fits the domain.  Nothing is done for an unknown parameter. -/
def setParam (address : Nat × Nat) (number : F) : Option (RunSession floats) :=
  match desc? session.params address with
  | none => some session
  | some desc =>
    let value := desc.bytes number
    let values := Function.update session.paramValues address (some value)
    match lookup session.addresses address with
    | none => some { session with
        paramValues := values
        memory := Function.update session.memory address (desc.bytes value) }
    | some id => (session.ramps.entries[id]?).map fun entry =>
      let written := session.ramps.setParam floats (hostStorage F) id entry value true session.memory
      { session with paramValues := values, ramps := written.1, memory := written.2 }

/-- `set_param_smoothing_seconds`, with the number of samples. -/
def setParamSmoothing (samples : Nat) : Option (RunSession floats) :=
  (session.ramps.setDuration floats (hostStorage F) Entry.target samples session.memory).map fun next =>
    { session with ramps := next.1, memory := next.2 }

/-- `begin_block`: a block without frames does nothing. -/
def beginBlock (frames : Nat) : Option (RunSession floats) :=
  if frames = 0 then some session
  else
    (session.ramps.advance floats (hostStorage F) frames session.memory).map fun next =>
      { session with ramps := next.1, memory := next.2 }

/-- `reset_params`: the defaults are stored, and the ramps end at them. -/
def resetParams : RunSession floats :=
  { session with
    memory := boundInstance session.params (fun _ => none) session.memory
    paramValues := fun _ => none
    ramps := session.ramps.settleEntries (·.slot.default) (·.slot.default) }

/-- `rebuild_instance` and `replace_prepared_buffer`: the ramps end at their targets. -/
def rebuildInstance : RunSession floats :=
  { session with
    memory := boundInstance session.params session.paramValues session.memory
    ramps := session.ramps.settleEntries Entry.target Entry.target }

end RunSession

/-- What can be done with the parameters of a session. -/
inductive HostCall (F : Type) where
  | setParam (address : Nat × Nat) (number : F)
  | setParamSmoothing (samples : Nat)
  | beginBlock (frames : Nat)
  | resetParams
  | rebuildInstance

/-- The frames of a block that begins. -/
def HostCall.frames : HostCall F → Nat
  | .beginBlock frames => frames
  | _ => 0

namespace RunSession

def perform (session : RunSession floats) : HostCall F → Option (RunSession floats)
  | .setParam address number => session.setParam address number
  | .setParamSmoothing samples => session.setParamSmoothing samples
  | .beginBlock frames => session.beginBlock frames
  | .resetParams => some session.resetParams
  | .rebuildInstance => some session.rebuildInstance

end RunSession

end Host

/-! ### What a session keeps -/

section HostFacts

variable {F : Type} {floats : Floats F}

/-- A value is the target, or equals it as a float. -/
def Shows (floats : Floats F) (value target : F) : Prop := value = target ∨ floats.eq value target = true

/-- The slots are those of declared parameters. -/
def Declared (params : List (ParamDesc floats)) (slots : List (HostSlot F)) : Prop :=
  ∀ slot ∈ slots, ∃ desc, RunSession.desc? params (slot.index, slot.element) = some desc
    ∧ slot.ty = desc.elemTy ∧ slot.default = desc.default slot.element

/-- The values that were set stand for the targets. -/
def Requested (floats : Floats F) (values : Nat × Nat → Option F) (entries : List (Entry (HostSlot F) F)) :
    Prop :=
  ∀ (id : Nat) (entry : Entry (HostSlot F) F), entries[id]? = some entry →
    Shows floats (match values (entry.slot.index, entry.slot.element) with
      | some value => stored floats (hostStorage F) entry.slot value
      | none => entry.slot.default) entry.target

theorem Requested.of_same {values : Nat × Nat → Option F} {before after : List (Entry (HostSlot F) F)}
    (requested : Requested floats values before) (same : SameTargets before after) :
    Requested floats values after := by
  intro id entry' there
  obtain ⟨entry, here, slot, target⟩ := same id entry' there
  rw [slot, target]
  exact requested id entry here

structure RunSession.Sound (session : RunSession floats) : Prop where
  ramps : session.ramps.Sound floats (hostStorage F)
  addressed : Addressed session.addresses
    ((session.ramps.entries.map Entry.slot).map (hostStorage F).address)
  declared : Declared session.params (session.ramps.entries.map Entry.slot)
  tracks : Tracks (hostStorage F) (Shows floats) session.ramps session.memory
  requested : Requested floats session.paramValues session.ramps.entries

theorem Shows.refl (value : F) : Shows floats value value := .inl rfl

namespace RunSession

variable {session : RunSession floats}

variable {slot : HostSlot F} {slots : List (HostSlot F)}
  {out : List (List Nat) × List (Entry (HostSlot F) F)} {params : List (ParamDesc floats)}
  {count : Nat} {desc : ParamDesc floats}

/-- A slot stores what its parameter does. -/
theorem stored_eq (declared : Declared params slots) (mem : slot ∈ slots)
    (found : desc? params (slot.index, slot.element) = some desc) (value : F) :
    stored floats (hostStorage F) slot value = desc.bytes value := by
  obtain ⟨desc', found', ty, -⟩ := declared slot mem
  obtain rfl := Option.some.inj (found'.symm.trans found)
  simp only [stored, hostStorage, ParamDesc.bytes, ty, decide_eq_true_eq]

/-- In a new instance an entry finds its value, or its default. -/
theorem boundInstance_slot (declared : Declared params slots) (mem : slot ∈ slots)
    (values : Nat × Nat → Option F) (blank : Nat × Nat → F)
    : boundInstance params values blank (slot.index, slot.element)
      = match values (slot.index, slot.element) with
        | some value => stored floats (hostStorage F) slot value
        | none => slot.default := by
  obtain ⟨desc, found, ty, default⟩ := declared slot mem
  rw [boundInstance, found]
  cases values (slot.index, slot.element) with
  | none => exact default.symm
  | some value => exact (stored_eq declared mem found value).symm

theorem stored_default (declared : Declared params slots) (mem : slot ∈ slots) :
    stored floats (hostStorage F) slot slot.default = slot.default := by
  obtain ⟨desc, found, ty, default⟩ := declared slot mem
  rw [stored_eq declared mem found, default, ParamDesc.bytes]
  split
  case isTrue float => exact desc.default_f32 float _
  case isFalse => rfl

theorem Sound.setParam (sound : session.Sound) (address : Nat × Nat) (number : F) :
    ∃ next, session.setParam address number = some next ∧ next.Sound := by
  rw [RunSession.setParam]
  cases found : desc? session.params address with
  | none => exact ⟨session, rfl, sound⟩
  | some desc =>
    dsimp only
    cases look : lookup session.addresses address with
    | none =>
      have away : ∀ (id : Nat) (entry : Entry (HostSlot F) F), session.ramps.entries[id]? = some entry →
          (entry.slot.index, entry.slot.element) ≠ address := by
        rintro id entry here rfl
        have listed := (sound.addressed ((hostStorage F).address entry.slot) id).2 (by
          rw [List.getElem?_map, List.getElem?_map, here]
          rfl)
        rw [hostStorage, look] at listed
        cases listed
      refine ⟨_, rfl, sound.ramps, sound.addressed, sound.declared, ?_, ?_⟩
      · intro id entry here inactive
        have apart := away id entry here
        dsimp only [hostStorage]
        rw [Function.update_of_ne apart]
        exact sound.tracks id entry here inactive
      · intro id entry here
        dsimp only
        rw [Function.update_of_ne (away id entry here)]
        exact sound.requested id entry here
    | some id =>
      have there := (sound.addressed address id).1 look
      rw [List.map_map, List.getElem?_map, Option.map_eq_some_iff] at there
      obtain ⟨entry, here, place⟩ := there
      obtain rfl : (entry.slot.index, entry.slot.element) = address := place
      dsimp only
      rw [here, Option.map_some]
      have slots := Ramps.slots_setParam floats (hostStorage F) here (desc.bytes number)
        true session.memory
      refine ⟨_, rfl, sound.ramps.setTarget here _ _, slots ▸ sound.addressed, slots ▸ sound.declared,
        Ramps.setParam_tracks sound.ramps Shows.refl here _ _ sound.tracks, fun other entry' there => ?_⟩
      obtain ⟨others, written, at_id, slot, outcome⟩ :=
        Ramps.setTarget_cases floats (hostStorage F) here (desc.bytes number) true
      dsimp only
      by_cases same : other = id
      · subst same
        obtain rfl := Option.some.inj (at_id.symm.trans there)
        rw [slot, Function.update_self]
        rcases outcome with ⟨-, target, -⟩ | ⟨-, rfl, equal⟩ | ⟨-, -, target, -⟩
        · exact .inl target.symm
        · exact .inr equal
        · exact .inl target.symm
      · have was : session.ramps.entries[other]? = some entry' := (others other same).symm.trans there
        have apart : (entry'.slot.index, entry'.slot.element) ≠ (entry.slot.index, entry.slot.element) :=
          fun clash => same (sound.ramps.apart.unique was here clash)
        rw [Function.update_of_ne apart]
        exact sound.requested other entry' was

theorem Sound.setParamSmoothing (sound : session.Sound) (samples : Nat) :
    ∃ next, session.setParamSmoothing samples = some next ∧ next.Sound := by
  obtain ⟨ramps, memory, run, ramps_sound, -, -, unchanged, changed⟩ :=
    sound.ramps.setDuration Entry.target samples session.memory
  rw [RunSession.setParamSmoothing, run]
  refine ⟨_, rfl, ?_⟩
  by_cases same : samples = session.ramps.samples
  · obtain ⟨rfl, rfl⟩ := unchanged same
    exact sound
  · have touched := changed same
    refine ⟨ramps_sound, ?_, ?_, Ramps.setDuration_tracks sound.ramps Shows.refl touched sound.tracks, ?_⟩
    · exact touched.slots ▸ sound.addressed
    · exact touched.slots ▸ sound.declared
    · exact sound.requested.of_same (touched.sameTargets (Entry.redraw_keeps floats _ _ _ _))

theorem Sound.beginBlock (sound : session.Sound) (frames : Nat) :
    ∃ next, session.beginBlock frames = some next ∧ next.Sound := by
  rw [RunSession.beginBlock]
  split
  case isTrue => exact ⟨session, rfl, sound⟩
  case isFalse =>
    obtain ⟨ramps, memory, run, ramps_sound, -, -, touched⟩ := sound.ramps.advance frames session.memory
    rw [run]
    refine ⟨_, rfl, ramps_sound, ?_, ?_, Ramps.advance_tracks sound.ramps Shows.refl touched sound.tracks, ?_⟩
    · exact touched.slots ▸ sound.addressed
    · exact touched.slots ▸ sound.declared
    · exact sound.requested.of_same (touched.sameTargets (Entry.advance_keeps floats _ _ _))

theorem Sound.resetParams (sound : session.Sound) : session.resetParams.Sound := by
  refine ⟨sound.ramps.settleEntries fun entry mem => ?_, ?_, ?_, ?_, ?_⟩
  · exact stored_default sound.declared (List.mem_map_of_mem mem)
  · exact (slots_settleEntries session.ramps _ _).symm ▸ sound.addressed
  · exact (slots_settleEntries session.ramps _ _).symm ▸ sound.declared
  · intro id entry' there _
    obtain ⟨entry, here, slot, target⟩ := entry_settleEntries there
    rw [slot, target]
    exact .inl (boundInstance_slot sound.declared (mem_slots here) (fun _ => none) session.memory)
  · intro id entry' there
    obtain ⟨entry, here, slot, target⟩ := entry_settleEntries there
    rw [slot, target]
    exact .refl _

theorem Sound.rebuildInstance (sound : session.Sound) : session.rebuildInstance.Sound := by
  refine ⟨sound.ramps.settleEntries fun entry mem => ?_, ?_, ?_, ?_, ?_⟩
  · obtain ⟨id, here⟩ := List.getElem?_of_mem mem
    exact sound.ramps.typed id entry here
  · exact (slots_settleEntries session.ramps _ _).symm ▸ sound.addressed
  · exact (slots_settleEntries session.ramps _ _).symm ▸ sound.declared
  · intro id entry' there _
    obtain ⟨entry, here, slot, target⟩ := entry_settleEntries there
    rw [slot, target]
    show Shows floats (boundInstance session.params session.paramValues session.memory
      (entry.slot.index, entry.slot.element)) _
    rw [boundInstance_slot sound.declared (mem_slots here)]
    exact sound.requested id entry here
  · intro id entry' there
    obtain ⟨entry, here, slot, target⟩ := entry_settleEntries there
    rw [slot, target]
    exact sound.requested id entry here

/-- The first parameters of a session, and no others, have their entries. -/
structure Built (params : List (ParamDesc floats)) (count : Nat)
    (out : List (List Nat) × List (Entry (HostSlot F) F)) : Prop where
  length : out.1.length = count
  index_lt : ∀ entry ∈ out.2, entry.slot.index < count
  addressed : Addressed out.1 ((out.2.map Entry.slot).map (hostStorage F).address)
  declared : Declared params (out.2.map Entry.slot)
  fresh : ∀ entry ∈ out.2, entry.active = false ∧ entry.target = entry.slot.default

theorem Built.slot_lt (built : Built params count out) :
    ∀ position ∈ (out.2.map Entry.slot).map (hostStorage F).address, position.1 < out.1.length := by
  intro position mem
  rw [List.map_map] at mem
  obtain ⟨entry, inside, rfl⟩ := List.mem_map.1 mem
  exact built.length ▸ built.index_lt entry inside

theorem Built.addParam (built : Built params count out) (here : params[count]? = some desc)
    (samples : Nat) :
    Built params (count + 1) (addParam samples out (desc, count)) := by
  unfold Smoothing.addParam
  split
  case isTrue =>
    refine ⟨?_, ?_, ?_, ?_, ?_⟩
    · simp [built.length]
    · intro entry mem
      rcases List.mem_append.1 mem with mem | mem
      · exact Nat.lt_succ_of_lt (built.index_lt entry mem)
      · obtain ⟨element, -, rfl⟩ := List.mem_map.1 mem
        exact Nat.lt_succ_self count
    · have grown := built.addressed.concat built.slot_lt desc.arrayLen
      rw [List.length_map, List.length_map, built.length] at grown
      simp only [List.map_append, List.map_map] at grown ⊢
      exact grown
    · intro slot mem
      rw [List.map_append, List.mem_append] at mem
      rcases mem with mem | mem
      · exact built.declared slot mem
      · rw [List.map_map] at mem
        obtain ⟨element, inside, rfl⟩ := List.mem_map.1 mem
        exact ⟨desc, by simp [desc?, here, List.mem_range.1 inside], rfl, rfl⟩
    · intro entry mem
      rcases List.mem_append.1 mem with mem | mem
      · exact built.fresh entry mem
      · obtain ⟨element, -, rfl⟩ := List.mem_map.1 mem
        exact ⟨rfl, rfl⟩
  case isFalse =>
    refine ⟨by simp [built.length], fun entry mem => Nat.lt_succ_of_lt (built.index_lt entry mem), ?_,
      built.declared, built.fresh⟩
    have grown := built.addressed.concat built.slot_lt 0
    rwa [List.range_zero, List.map_nil, List.map_nil, List.append_nil] at grown

theorem Built.foldl {rest : List (ParamDesc floats)} (built : Built params count out)
    (left : params.drop count = rest) (samples : Nat) :
    Built params (count + rest.length) ((rest.zipIdx count).foldl (Smoothing.addParam samples) out) := by
  induction rest generalizing count out with
  | nil => exact built
  | cons desc rest ih =>
    have here : params[count]? = some desc := by
      rw [← List.head?_drop, left, List.head?_cons]
    have later : params.drop (count + 1) = rest := by
      rw [← List.tail_drop, left, List.tail_cons]
    rw [List.zipIdx_cons, List.foldl_cons, List.length_cons, Nat.add_comm rest.length 1, ← Nat.add_assoc]
    exact ih (built.addParam here samples) later

/-- A new session is sound. -/
theorem build_sound (params : List (ParamDesc floats)) (samples : Nat) (blank : Nat × Nat → F) :
    (build params samples blank).Sound := by
  have start : Built params 0 ([], []) :=
    ⟨rfl, nofun, fun position id => by simp [lookup], nofun, nofun⟩
  have built := start.foldl List.drop_zero samples
  have inactive : ∀ (id : Nat) (entry : Entry (HostSlot F) F),
      (build params samples blank).ramps.entries[id]? = some entry →
      entry.active = false ∧ entry.target = entry.slot.default :=
    fun id entry here => built.fresh entry (List.mem_of_getElem? here)
  refine ⟨⟨?_, .nil, fun id => ⟨nofun, ?_⟩, ?_, ?_⟩, built.addressed, built.declared, ?_, ?_⟩
  · have distinct := built.addressed.nodup
    rwa [List.map_map] at distinct
  · rintro ⟨entry, here, active⟩
    rw [(inactive id entry here).1] at active
    cases active
  · intro id entry here active
    rw [(inactive id entry here).1] at active
    cases active
  · intro id entry here
    rw [(inactive id entry here).2]
    exact stored_default built.declared (mem_slots here)
  · intro id entry here _
    rw [(inactive id entry here).2]
    exact .inl (boundInstance_slot built.declared (mem_slots here) (fun _ => none) blank)
  · intro id entry here
    rw [(inactive id entry here).2]
    exact .refl _

theorem perform_sound (sound : session.Sound) (call : HostCall F) :
    ∃ next, session.perform call = some next ∧ next.Sound := by
  cases call with
  | setParam address number => exact sound.setParam address number
  | setParamSmoothing samples => exact sound.setParamSmoothing samples
  | beginBlock frames => exact sound.beginBlock frames
  | resetParams => exact ⟨_, rfl, sound.resetParams⟩
  | rebuildInstance => exact ⟨_, rfl, sound.rebuildInstance⟩

theorem run_sound (sound : session.Sound) (calls : List (HostCall F)) :
    ∃ last, Steps.run perform session calls = some last ∧ last.Sound := by
  induction calls generalizing session with
  | nil => exact ⟨session, rfl, sound⟩
  | cons call calls ih =>
    obtain ⟨next, step, sound⟩ := perform_sound sound call
    obtain ⟨last, run, sound⟩ := ih sound
    exact ⟨last, by rw [Steps.run, step, Option.bind_some, run], sound⟩

/-- A call that changes neither the target of an entry nor the duration. -/
theorem perform_progress (sound : session.Sound) {call : HostCall F} {next : RunSession floats}
    (step : session.perform call = some next) (samples : next.ramps.samples = session.ramps.samples)
    {id : Nat} {before after : Entry (HostSlot F) F} (was : session.ramps.entries[id]? = some before)
    (is : next.ramps.entries[id]? = some after) (steady : after.target = before.target) :
    before.Progress session.ramps.samples call.frames after := by
  cases call with
  | setParam address number =>
    have step : session.setParam address number = some next := step
    rw [RunSession.setParam] at step
    split at step
    case h_1 =>
      obtain rfl := Option.some.inj step
      obtain rfl := Option.some.inj (was.symm.trans is)
      exact .refl _ _
    case h_2 desc found =>
      dsimp only at step
      split at step
      case h_1 =>
        obtain rfl := Option.some.inj step
        obtain rfl := Option.some.inj (was.symm.trans is)
        exact .refl _ _
      case h_2 other look =>
        obtain ⟨entry, here, rfl⟩ := Option.map_eq_some_iff.1 step
        exact Ramps.setTarget_progress here _ _ was is steady
  | setParamSmoothing count =>
    obtain ⟨ramps, memory, run, -, is_count, -, unchanged, -⟩ :=
      sound.ramps.setDuration Entry.target count session.memory
    have step : session.setParamSmoothing count = some next := step
    rw [RunSession.setParamSmoothing, run] at step
    obtain rfl := Option.some.inj step
    obtain ⟨rfl, -⟩ := unchanged (is_count.symm.trans samples)
    obtain rfl := Option.some.inj (was.symm.trans is)
    exact .refl _ _
  | beginBlock frames =>
    have step : session.beginBlock frames = some next := step
    rw [RunSession.beginBlock] at step
    split at step
    case isTrue none =>
      obtain rfl := Option.some.inj step
      obtain rfl := Option.some.inj (was.symm.trans is)
      rw [HostCall.frames, none]
      exact .refl _ _
    case isFalse =>
      obtain ⟨ramps, memory, run, -, -, -, touched⟩ := sound.ramps.advance frames session.memory
      rw [run] at step
      obtain rfl := Option.some.inj step
      exact Ramps.advance_progress sound.ramps touched was is
  | resetParams =>
    obtain rfl := Option.some.inj step
    obtain ⟨entry, -, rfl⟩ := Option.map_eq_some_iff.1 (List.getElem?_map.symm.trans is)
    exact nofun
  | rebuildInstance =>
    obtain rfl := Option.some.inj step
    obtain ⟨entry, -, rfl⟩ := Option.map_eq_some_iff.1 (List.getElem?_map.symm.trans is)
    exact nofun

/-- The block of a session updates each active entry once, and no other one. -/
theorem beginBlock_updates (sound : session.Sound) {frames : Nat} (positive : 0 < frames) :
    ∃ next, session.beginBlock frames = some next
      ∧ Touched (hostStorage F) (Entry.advance floats (hostStorage F) session.ramps.samples frames)
        session.ramps.active ⟨session.ramps.entries, session.memory⟩ ⟨next.ramps.entries, next.memory⟩ := by
  obtain ⟨ramps, memory, run, -, -, -, touched⟩ := sound.ramps.advance frames session.memory
  rw [RunSession.beginBlock, if_neg (Nat.pos_iff_ne_zero.1 positive), run]
  exact ⟨_, rfl, touched⟩

/-- Ramps of a session come to an end. -/
theorem session_settles (sound : session.Sound) {last : RunSession floats} {calls : List (HostCall F)} {id : Nat}
    (ran : Steps.run perform session calls = some last)
    (steady : Steps.Meets perform (KeepsTarget RunSession.ramps perform id) session calls)
    (enough : last.ramps.samples ≤ (calls.map HostCall.frames).sum) {entry : Entry (HostSlot F) F}
    (here : last.ramps.entries[id]? = some entry) :
    entry.active = false ∧ Shows floats (last.memory ((hostStorage F).address entry.slot)) entry.target := by
  have kept : ∀ (state : RunSession floats) (call : HostCall F) (next : RunSession floats), state.Sound →
      state.perform call = some next → next.Sound := by
    intro state call next sound step
    obtain ⟨other, step', sound⟩ := perform_sound sound call
    obtain rfl := Option.some.inj (step'.symm.trans step)
    exact sound
  have inactive := run_settles kept (fun _ sound => sound.ramps)
    (fun state call next sound step samples id before after was is same =>
      perform_progress sound step samples was is same) sound ran steady enough entry here
  exact ⟨inactive, (Steps.stable kept sound ran).tracks id entry here inactive⟩

end RunSession

end HostFacts

end Onda.Smoothing
