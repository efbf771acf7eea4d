import Onda.Payload.HostRoundTrip

/-!
# What the encoder refuses

Whatever values it is given, the encoder ends with a payload or with an error: it has checked
every place before it writes to it.

### Calls with a property
-/

namespace Onda.Payload

section Settles

variable {α β : Type} {P : α → Prop} {Q : β → Prop}

/-- The call does not panic, and what it returns has the property. -/
def Settles (P : α → Prop) (call : Checked α) : Prop :=
  Calm call ∧ ∀ value, call = .ok value → P value

theorem Settles.ok {value : α} (holds : P value) : Settles P (.ok value) :=
  ⟨Calm.ok value, fun _ same => Except.ok.inj same ▸ holds⟩

variable {call : Checked α}

theorem Calm.settles (calm : Calm call) :
    Settles (fun value => call = .ok value) call :=
  ⟨calm, fun _ same => same⟩

theorem Calm.rejects (calm : Calm call) (refused : ∀ value, call ≠ .ok value)
    : ∃ error, call = Payload.reject error := by
  cases call with
  | ok value => exact absurd rfl (refused value)
  | error failure =>
    cases failure with
    | rejected error => exact ⟨error, rfl⟩
    | panicked => exact absurd rfl calm

theorem Settles.bind {first : Checked α} {next : α → Checked β} (settles : Settles P first)
    (later : ∀ value, P value → Settles Q (next value)) : Settles Q (first >>= next) := by
  cases first with
  | error failure => exact ⟨fun panicked => settles.1 (by cases panicked; rfl), fun _ same => by cases same⟩
  | ok value => exact later value (settles.2 value rfl)

theorem Settles.imp {P' : α → Prop} (settles : Settles P call)
    (implies : ∀ value, P value → P' value) : Settles P' call :=
  ⟨settles.1, fun value same => implies value (settles.2 value same)⟩

theorem Settles.okOr (error : PayloadError) (value : Option α) :
    Settles (fun found => value = some found) (okOr error value) :=
  (Calm.okOr error value).settles.imp fun _ same => okOr_ok_iff.mp same

theorem Settles.refuseIf (refused : Prop) [Decidable refused] (error : PayloadError) :
    Settles (fun _ => ¬refused) (refuseIf refused error) :=
  (Calm.refuseIf refused error).settles.imp fun _ same => refuseIf_ok_iff.mp same

theorem Settles.expect {value : Option α} {found : α} (here : value = some found) :
    Settles (fun other => other = found) (expect value) := by
  subst here
  exact Settles.ok rfl

end Settles

/-! ### Visits -/

section Quiet

variable {V σ : Type} {source : PayloadSource V}
  {visit : Nat → ScalarEncoding → V → σ → Checked σ} {P : σ → Prop}

/-- A visit of the type does not panic and keeps the property of the state. -/
def Quiet (source : PayloadSource V) (visit : Nat → ScalarEncoding → V → σ → Checked σ)
    (P : σ → Prop) (ty : PayloadType) : Prop :=
  ∀ value start state, P state →
    Settles (fun step => P step.2) (visitValues source visit ty value start state)

theorem quiet_elements {elements : List PayloadType}
    (quiet : ∀ ty ∈ elements, Quiet source visit P ty) (value : V) (index start : Nat) {state : σ}
    (holds : P state) : Settles (fun step => P step.2)
      (visitElements source visit elements value index start state) := by
  induction elements generalizing index start state with
  | nil => exact Settles.ok holds
  | cons ty elements ih =>
    rw [visitElements]
    exact (Settles.okOr _ _).bind fun member _ =>
      (quiet ty (by simp) member start state holds).bind fun step kept =>
        ih (fun ty mem => quiet ty (by simp [mem])) (index + 1) step.1 kept

theorem quiet_fields {fields : List PayloadField}
    (quiet : ∀ field ∈ fields, Quiet source visit P field.ty) (value : V) (index start : Nat)
    {state : σ} (holds : P state) : Settles (fun step => P step.2)
      (visitFields source visit fields value index start state) := by
  induction fields generalizing index start state with
  | nil => exact Settles.ok holds
  | cons field fields ih =>
    obtain ⟨name, ty, default⟩ := field
    rw [visitFields]
    exact (Settles.okOr _ _).bind fun member _ =>
      (quiet (.mk name ty default) (by simp) member start state holds).bind fun step kept =>
        ih (fun field mem => quiet field (by simp [mem])) (index + 1) step.1 kept

theorem quiet_run {element : PayloadType} (quiet : Quiet source visit P element) (value : V)
    (start : Nat) (indices : List Nat) {step : Nat × σ} (holds : P step.2) :
    Settles (fun step => P step.2) (indices.foldlM (fun (step : Nat × σ) index => do
      let member ← okOr .invalidValue (source.member value index none)
      visitValues source visit element member start step.2) step) := by
  induction indices generalizing step with
  | nil => exact Settles.ok holds
  | cons index indices ih =>
    rw [List.foldlM_cons]
    exact ((Settles.okOr _ _).bind fun member _ => quiet member start step.2 holds).bind
      fun step kept => ih kept

variable (visits : ∀ leaf encoding value state, P state →
  Settles P (visit leaf encoding value state))

include visits

theorem quiet_scalar {ty : PayloadType} (scalar : ty.isScalar) : Quiet source visit P ty := by
  cases ty with
  | tuple | struct | array | slice => cases scalar
  | scalar encoding range =>
    intro value start state holds
    rw [visitValues]
    exact (visits start encoding value state holds).bind fun state kept => Settles.ok kept

theorem PayloadType.Plain.quiet {ty : PayloadType} (plain : ty.Plain) :
    Quiet source visit P ty := by
  induction plain with
  | scalar encoding range => exact quiet_scalar visits rfl
  | tuple elements scalars =>
    intro value start state holds
    rw [visitValues]
    exact (Settles.refuseIf _ _).bind fun _ _ =>
      quiet_elements (fun ty mem => quiet_scalar visits (scalars ty mem)) value 0 start holds
  | struct name fields plain quiet =>
    intro value start state holds
    rw [visitValues]
    exact (Settles.refuseIf _ _).bind fun _ _ => quiet_fields quiet value 0 start holds
  | array element len nonempty plain quiet =>
    intro value start state holds
    rw [visitValues]
    exact (Settles.okOr _ _).bind fun len _ => (Settles.refuseIf _ _).bind fun _ _ =>
      quiet_run quiet value start _ holds

theorem quiet_field {field : PayloadField} {one : PlannedField} {start : Nat}
    (planned : one.Of field start) : Quiet source visit P field.ty := by
  have plain := planned.plain
  obtain ⟨name, ty, default⟩ := field
  cases ty with
  | slice element =>
    intro value start state holds
    show Settles _ (visitValues source visit (.slice element) value start state)
    rw [visitValues]
    exact (Settles.okOr _ _).bind fun len _ =>
      quiet_run (plain.quiet visits) value start _ holds
  | scalar | tuple | struct | array => exact plain.quiet visits

end Quiet

/-! ### Encoding -/

section Encoding

variable {V : Type} {source : PayloadSource V} {plan : PayloadPlan}

/-- The host's own conversion of a scalar ends with a scalar or an error. -/
def PayloadSource.Composed (source : PayloadSource V) : Prop :=
  ∀ value encoding, Calm (source.writeScalar value encoding)

theorem encodeScalar_settles (fills : source.Fills) (composed : source.Composed)
    (start leaf : Nat) (encoding : ScalarEncoding) (value : V) {state : Encoding}
    (room : state.offsets.length = plan.tensors.length) :
    Settles (fun state => state.offsets.length = plan.tensors.length)
      (encodeScalar source plan start leaf encoding value state) := by
  have placed : Settles (fun offset => offset + encoding.byteSize ≤ state.output.length)
      (scalarPlace plan start leaf encoding state) := by
    refine (Settles.okOr _ _).bind fun tensor found => (Settles.refuseIf _ _).bind fun _ _ => ?_
    obtain ⟨inside, -⟩ := List.getElem?_eq_some_iff.mp found
    refine (Settles.expect (List.getElem?_eq_getElem (by omega))).bind fun offset _ => ?_
    refine (Settles.okOr _ _).bind fun field ranged => Settles.ok ?_
    unfold getRange at ranged
    split at ranged
    · rename_i inRange
      exact inRange.2
    · cases ranged
  -- The range has been looked up before the scalar is written, so the copy has its room.
  refine placed.bind fun offset inside => ?_
  refine ((composed value encoding).settles.imp (fills value encoding)).bind fun scalar wide => ?_
  rw [storeScalar, copyInto, if_pos ⟨Nat.le_add_right _ _, inside, by
    rw [wide, Nat.add_sub_cancel_left]⟩]
  refine Settles.ok ?_
  rw [List.length_set, room]

theorem encodeFields_settles (fills : source.Fills) (composed : source.Composed)
    {fields : List PayloadField} {row : List PlannedField} {start : Nat}
    (planned : PlannedRow fields start row) (values : List V) {state : Encoding}
    (room : state.offsets.length = plan.tensors.length) :
    Settles (fun state => state.offsets.length = plan.tensors.length)
      (encodeFields source plan (fields.zip ((row.map PlannedField.param).zip values)) state) := by
  induction planned generalizing values state with
  | nil => exact Settles.ok room
  | @cons field fields start one row here _ ih =>
    cases values with
    | nil => exact Settles.ok room
    | cons value values =>
      rw [List.map_cons, List.zip_cons_cons, List.zip_cons_cons, encodeFields]
      have quiet := @quiet_field V Encoding source
        (encodeScalar source plan one.param.tensors.start)
        (fun state => state.offsets.length = plan.tensors.length)
        (fun leaf encoding value state => encodeScalar_settles fills composed _ leaf encoding value)
        field one start here
      exact (quiet value 0 state room).bind fun step kept => ih values kept

variable {lengths : List Int}

theorem writeLengths_settles {pairs : List (ParameterPlan × V)} {dynamic : Nat}
    (room : lengths.length = dynamic + (pairs.filter fun pair => pair.1.dynamic).length)
    (small : ∀ len ∈ lengths.take dynamic, len < 2 ^ 31) :
    Settles (fun lengths => ∀ len ∈ lengths, len < 2 ^ 31)
      (writeLengths source pairs dynamic lengths) := by
  induction pairs generalizing dynamic lengths with
  | nil =>
    rw [List.take_of_length_le (by simpa using room.le)] at small
    exact Settles.ok small
  | cons pair pairs ih =>
    obtain ⟨param, value⟩ := pair
    rw [writeLengths]
    by_cases isDynamic : param.dynamic
    · rw [if_pos isDynamic]
      rw [List.filter_cons_of_pos (by exact isDynamic), List.length_cons] at room
      have inside : dynamic < lengths.length := by omega
      have counted : Settles (fun len => len < 2 ^ 31) (lengthOfValue source value) := by
        refine (Settles.okOr _ _).bind fun len _ => ?_
        split
        · exact Settles.ok (by omega)
        · exact ⟨Calm.reject _, fun _ same => by cases same⟩
      refine counted.bind fun len bounded =>
        (Settles.expect (List.getElem?_eq_getElem inside)).bind fun _ _ => ih ?_ ?_
      · rw [List.length_set]
        omega
      · intro other mem
        rw [List.take_add_one, List.take_set_of_le le_rfl, List.getElem?_set_self inside,
          List.mem_append] at mem
        rcases mem with first | last
        · exact small other first
        · obtain rfl : other = len := by simpa using last
          exact bounded
    · rw [if_neg isDynamic]
      rw [List.filter_cons_of_neg (by exact isDynamic)] at room
      exact ih room small

theorem valueLengths_settles (values : List V) (room : lengths.length = plan.dynamicParameters) :
    Settles (fun lengths => ∀ len ∈ lengths, len < 2 ^ 31)
      (valueLengths source plan values lengths) := by
  refine (Settles.refuseIf _ _).bind fun _ complete => writeLengths_settles ?_ (by simp)
  have firsts : (plan.params.zip values).map Prod.fst = plan.params :=
    List.map_fst_zip (by simpa using Nat.le_of_eq (not_not.mp complete).symm)
  rw [room, Nat.zero_add, PayloadPlan.dynamicParameters]
  conv_lhs => rw [← firsts]
  rw [List.filter_map, List.length_map]
  rfl

theorem sizes_calm (sound : plan.Sound) (lengths : List Int) : Calm (plan.sizes lengths) := by
  refine Calm.bind (Calm.walkParams (fun _ _ lengths => ?_) (fun _ _ => Calm.ok _) sound.inside _)
    fun ends => (Calm.refuseIf _ _).bind fun _ => Calm.ok _
  cases lengths with
  | nil => exact Calm.reject _
  | cons len lengths =>
    refine Calm.bind ?_ fun _ => Calm.ok _
    unfold usizeOfI32
    split
    · exact Calm.ok _
    · exact Calm.reject _

/-- The walk of `encode` gets to its end once the sizes have been computed. -/
theorem encodeWalk_settles (sound : plan.Sound) (distinct : ∀ lens, Lengths plan.params lens →
      (plan.slots lens).filterMap Slot.tensor = List.range' 0 plan.tensors.length)
    {sizes : Nat × Nat} (small : ∀ len ∈ lengths, len < 2 ^ 31)
    (sized : plan.sizes lengths = .ok sizes) {offsets : List Nat} {output : Bytes}
    (room : offsets.length = plan.tensors.length) (space : sizes.1 ≤ output.length) :
    Settles (fun ends => ends.state.offsets.length = plan.tensors.length)
      (plan.walk (fun offset _ => encodeLength lengths offset) encodeStart
        ⟨0, offsets, output⟩) := by
  -- The walk is the one `sizes` has made, over lengths that `sizes` has accepted.
  obtain ⟨lens, fixed, taken, wire, wireFits, extent, workspaceFits⟩ :=
    PayloadPlan.lens_of_sizes sound sized
  have tensors := distinct lens fixed
  obtain ⟨state, fills, walked, -, -, -, -, -, kept⟩ :=
    @encodeWalk plan.tensors (plan.slots lens) (plan.made_slots lens)
      (by rw [tensors]; exact List.nodup_range') lengths 0 taken
      (by
        intro len mem
        have bounded := small (Int.ofNat len) (by rw [taken]; exact List.mem_map_of_mem mem)
        rw [Int.ofNat_eq_natCast] at bounded
        exact_mod_cast bounded)
      offsets
      (by
        rw [tensors, room]
        intro index mem
        simpa using (List.mem_range'_1.mp mem).2)
      [] output 0 (by rw [wire, wireEnd, Nat.zero_add] at space; exact space)
  have walks : plan.walk (fun offset _ => encodeLength lengths offset) encodeStart
      ⟨0, offsets, output⟩ = .ok ⟨sizes.1, sizes.2, state⟩ :=
    (walkParams_ok_iff _ _ sound.inside).mpr ⟨lens, fixed,
      (reaches_iff _ _ (plan.slots_regular lens) PayloadPlan.zero_le_i32Max PayloadPlan.zero_le_i32Max).mpr
        ⟨wire, wireFits, extent, workspaceFits, walked⟩⟩
  rw [walks]
  exact Settles.ok (kept.trans room)

end Encoding

namespace PayloadPlan

variable {V : Type} {source : PayloadSource V} {schema : PayloadSchema} {plan : PayloadPlan}
  {row : List PlannedField}

/-- The slots of parameters with any lengths cover the tensors one after the other. -/
theorem tensors_row {before : List PayloadTensor} {fields : List PayloadField}
    (planned : PlannedRow fields before.length row) {lens : List Nat}
    (fixed : Lengths (row.map PlannedField.param) lens) :
    (Payload.slots (before ++ row.flatMap PlannedField.tensors) (row.map PlannedField.param)
        lens).filterMap Slot.tensor =
      List.range' before.length (row.flatMap PlannedField.tensors).length := by
  generalize started : before.length = start at planned
  induction planned generalizing before lens with
  | nil =>
    cases fixed
    rfl
  | @cons field fields start one row here _ ih =>
    subst started
    obtain ⟨len, lens, -, fixedLater, rfl⟩ := List.forall₂_cons_left_iff.mp fixed
    have later := @ih (before ++ one.tensors) lens fixedLater (by simp)
    rw [List.append_assoc] at later
    have inside : ∀ index ∈ List.range' before.length one.tensors.length,
        index < (before ++ (one.tensors ++ row.flatMap PlannedField.tensors)).length := by
      intro index mem
      have bound := (List.mem_range'_1.mp mem).2
      simp only [List.length_append]
      omega
    obtain ⟨first, -⟩ := @tensorSlots_inside _ len _ inside
    rw [List.flatMap_cons, List.map_cons, slots_cons, paramSlots_eq here, List.length_append,
      List.filterMap_append, List.filterMap_append, first, later,
      show (if field.ty.carried.2 then [Slot.ofLength len] else []).filterMap Slot.tensor = [] by
        split <;> rfl, List.nil_append, List.range'_append_1]

/-- **No panic.** Whatever the values, the encoder ends with a payload or with an error. -/
theorem Describes.encode_calm (describes : plan.Describes schema.params row)
    (named : plan.schema = schema) (fills : source.Fills) (composed : source.Composed)
    (workspace : PayloadEncoderWorkspace) (values : List V) :
    Calm (workspace.encode source plan values) := by
  have settles : Settles (fun _ => True) (workspace.encode source plan values) := by
    refine (Settles.refuseIf _ _).bind fun _ lengthRoom =>
      (Settles.refuseIf _ _).bind fun _ offsetRoom => ?_
    refine (valueLengths_settles values ?_).bind fun lengths small => ?_
    · rw [List.length_take]
      omega
    refine (sizes_calm describes.sound lengths).settles.bind fun sizes sized =>
      (Settles.refuseIf _ _).bind fun _ space => ?_
    refine (encodeWalk_settles describes.sound ?_ small sized ?_ (not_lt.mp space)).bind
      fun begun room => ?_
    · intro lens fixed
      rw [describes.params] at fixed
      have covered := @tensors_row row [] schema.params describes.planned lens fixed
      rw [List.nil_append, ← describes.tensors, ← describes.params] at covered
      exact covered
    · rw [List.length_take]
      omega
    rw [named, describes.params]
    exact (encodeFields_settles fills composed describes.planned values room).bind
      fun _ _ => Settles.ok trivial
  exact settles.1

theorem Describes.encodeValues_calm (describes : plan.Describes schema.params row)
    (named : plan.schema = schema) (fills : source.Fills) (composed : source.Composed)
    (values : List V) : Calm (Payload.encodeValues source plan values) :=
  (valueLengths_settles values List.length_replicate).1.bind fun lengths =>
    (sizes_calm describes.sound lengths).bind fun _ =>
      ((Calm.refuseIf _ _).bind fun _ => Calm.ok _).bind fun workspace =>
        (describes.encode_calm named fills composed workspace values).bind fun _ => Calm.ok _

end PayloadPlan

end Onda.Payload
