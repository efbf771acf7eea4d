import Onda.Payload.HostCodec

/-!
# Encoding and decoding host values

The encoder writes the wire form of what its values read as, whatever its workspace held
before, and the decoder builds the values of a wire form.

### Lengths
-/

namespace Onda.Payload

open Regions

section Lengths

variable {V : Type} {source : PayloadSource V} {fields : List PayloadField}
  {row : List PlannedField} {start : Nat}

theorem dynamicLengths_cons (field : PayloadField) (tree : HostValue)
    (trees : List HostValue) : dynamicLengths (field :: fields) (tree :: trees) =
      (if field.ty.carried.2 then [tree.members.length] else []) ++
        dynamicLengths fields trees := by
  simp only [dynamicLengths, List.zip_cons_cons, List.filterMap_cons]
  split <;> simp_all

/-- A slice has as many elements as its host value says. -/
theorem sequenceLen_of_reads {field : PayloadField} (dynamic : field.ty.carried.2) {value : V}
    {tree : HostValue} (reads : field.ty.Reads source value tree) :
    source.sequenceLen value = some tree.members.length := by
  obtain ⟨name, ty, default⟩ := field
  cases ty with
  | slice element => exact reads.2.1
  | scalar | tuple | struct | array => cases dynamic

theorem writeLengths_row (planned : PlannedRow fields start row) {values : List V}
    {trees : List HostValue} (complete : values.length = fields.length)
    (reads : ReadRow source fields values trees)
    (fits : List.Forall₂ PayloadField.Fits fields trees) {dynamic : Nat} {lengths : List Int}
    (room : lengths.length = dynamic + (dynamicLengths fields trees).length) :
    writeLengths source ((row.map PlannedField.param).zip values) dynamic lengths =
      .ok (lengths.take dynamic ++ (dynamicLengths fields trees).map Int.ofNat) := by
  induction planned generalizing values trees dynamic lengths with
  | nil =>
    cases reads
    have whole : lengths.take dynamic = lengths := List.take_of_length_le room.le
    simp [writeLengths, dynamicLengths, whole]
  | @cons field fields start one row here _ ih =>
    cases values with
    | nil => cases complete
    | cons value values =>
      obtain ⟨tree, trees, readsHere, readsLater, rfl⟩ := List.forall₂_cons_left_iff.mp reads
      obtain ⟨fitsHere, fitsLater⟩ := List.forall₂_cons.mp fits
      have completeLater : values.length = fields.length := by simpa using complete
      rw [dynamicLengths_cons, List.length_append] at room
      rw [dynamicLengths_cons, List.map_cons, List.zip_cons_cons, writeLengths, here.dynamic]
      by_cases dynamicHere : field.ty.carried.2
      · rw [if_pos dynamicHere] at room ⊢
        rw [if_pos dynamicHere]
        have small := fitsHere.2 dynamicHere
        have inside : dynamic < lengths.length := by
          rw [room]
          simp only [List.length_singleton]
          omega
        have counted : lengthOfValue source value = .ok (Int.ofNat tree.members.length) := by
          simp only [lengthOfValue, bind_ok_iff, okOr_ok_iff]
          exact ⟨_, sequenceLen_of_reads dynamicHere readsHere, if_pos small⟩
        have later := @ih values trees completeLater readsLater fitsLater (dynamic + 1)
          (lengths.set dynamic (Int.ofNat tree.members.length)) (by
            rw [List.length_set, room, List.length_singleton, Nat.add_assoc])
        rw [counted, show ((.ok (Int.ofNat tree.members.length) : Checked Int) >>= _) = _ from rfl]
        show (expect lengths[dynamic]? >>= _) = _
        rw [List.getElem?_eq_getElem inside]
        show writeLengths source _ (dynamic + 1) _ = _
        rw [later, List.take_add_one, List.take_set_of_le le_rfl, List.getElem?_set_self inside]
        simp [List.append_assoc]
      · rw [if_neg dynamicHere] at room ⊢
        rw [if_neg (by simpa using dynamicHere)]
        exact ih completeLater readsLater fitsLater (by simpa using room)

theorem plannedRow_length (planned : PlannedRow fields start row) :
    row.length = fields.length := by
  induction planned with
  | nil => rfl
  | cons _ _ ih => rw [List.length_cons, List.length_cons, ih]

theorem dynamic_row (planned : PlannedRow fields start row) {trees : List HostValue}
    (fits : List.Forall₂ PayloadField.Fits fields trees) :
    ((row.map PlannedField.param).filter ParameterPlan.dynamic).length =
      (dynamicLengths fields trees).length := by
  induction planned generalizing trees with
  | nil =>
    cases fits
    rfl
  | @cons field fields start one row here _ ih =>
    obtain ⟨tree, trees, fitsHere, fitsLater, rfl⟩ := List.forall₂_cons_left_iff.mp fits
    rw [dynamicLengths_cons, List.map_cons, List.filter_cons, here.dynamic, List.length_append,
      ← ih fitsLater]
    by_cases dynamic : field.ty.carried.2
    · rw [if_pos dynamic, if_pos dynamic, List.length_cons, List.length_singleton, Nat.add_comm]
    · rw [if_neg dynamic, if_neg dynamic, List.length_nil, Nat.zero_add]

theorem dynamicLengths_small {trees : List HostValue}
    (fits : List.Forall₂ PayloadField.Fits fields trees) :
    ∀ len ∈ dynamicLengths fields trees, len < 2 ^ 31 := by
  induction fits with
  | nil => simp [dynamicLengths]
  | cons here _ ih =>
    intro len mem
    rw [dynamicLengths_cons, List.mem_append] at mem
    rcases mem with first | later
    · split at first
      · rw [List.mem_singleton.mp first]
        exact here.2 ‹_›
      · cases first
    · exact ih len later

variable {tensors : List PayloadTensor}

/-- `sizes` takes the lengths one after the other. -/
theorem nextLength_slots {tensors : List PayloadTensor} {slots : List Slot}
    (made : ∀ slot ∈ slots, slot.Made tensors) {wire workspace : Nat} {rest : List Int} :
    (place slots wire workspace).foldlM (visitPlaced (fun _ _ => PayloadPlan.nextLength)
        (fun _ lengths => .ok lengths)) ((lengthSlots slots).map Int.ofNat ++ rest) =
      .ok rest := by
  induction slots generalizing wire workspace with
  | nil => rfl
  | cons slot slots ih =>
    have later := @ih fun slot mem => made slot (by simp [mem])
    rw [place, List.foldlM_cons, bind_ok_iff]
    cases made slot (by simp) with
    | length len =>
      refine ⟨(lengthSlots slots).map Int.ofNat ++ rest, ?_, later⟩
      rw [visitPlaced_ofLength]
      refine ⟨_, ?_, rfl⟩
      show PayloadPlan.nextLength (Int.ofNat len :: _) = _
      simp [PayloadPlan.nextLength, usizeOfI32, bind, Except.bind]
      rfl
    | tensor index len leaf found => exact ⟨_, rfl, later⟩

/-- What `sizes` takes from the lengths are the lengths of the slots. -/
theorem taken_of_nextLength {slots : List Slot} (made : ∀ slot ∈ slots, slot.Made tensors)
    {wire workspace : Nat} {lengths rest : List Int}
    (walked : (place slots wire workspace).foldlM (visitPlaced
      (fun _ _ => PayloadPlan.nextLength) (fun _ lengths => .ok lengths)) lengths = .ok rest) :
    lengths = (lengthSlots slots).map Int.ofNat ++ rest := by
  induction slots generalizing wire workspace lengths with
  | nil =>
    cases walked
    rfl
  | cons slot slots ih =>
    rw [place, List.foldlM_cons, bind_ok_iff] at walked
    obtain ⟨next, first, later⟩ := walked
    have taken := ih (fun slot mem => made slot (by simp [mem])) later
    cases made slot (by simp) with
    | length len =>
      obtain ⟨found, read, visited⟩ := (visitPlaced_ofLength _ _).mp first
      obtain rfl : found = next := Except.ok.inj visited
      cases lengths with
      | nil => cases read
      | cons head lengths =>
        simp only [PayloadPlan.nextLength, usizeOfI32, bind_ok_iff, Except.ok.injEq,
          Prod.mk.injEq] at read
        obtain ⟨len', converted, rfl, rfl⟩ := read
        split at converted
        · obtain rfl := Except.ok.inj converted
          rw [taken]
          show head :: _ = Int.ofNat head.toNat :: _
          rw [Int.ofNat_eq_natCast, Int.toNat_of_nonneg ‹_›]
          rfl
        · cases converted
    | tensor index len leaf found =>
      obtain rfl : lengths = next := Except.ok.inj first
      exact taken

theorem lengthSlots_paramSlots (tensors : List PayloadTensor) (param : ParameterPlan) (len : Nat) :
    lengthSlots (paramSlots tensors param len) = if param.dynamic then [len] else [] := by
  have none : lengthSlots (tensorSlots tensors len param.tensors.indices) = [] := by
    unfold lengthSlots tensorSlots
    rw [List.filterMap_filterMap, List.filterMap_eq_nil_iff]
    intro index _
    cases tensors[index]? <;> rfl
  unfold lengthSlots at none ⊢
  rw [paramSlots, List.filterMap_append, none, List.append_nil]
  split <;> rfl

/-- The lengths of the slots tell the lengths of the parameters. -/
theorem lens_unique {tensors : List PayloadTensor} {params : List ParameterPlan}
    {lens lens' : List Nat} (lengths : Lengths params lens) (lengths' : Lengths params lens')
    (same : lengthSlots (slots tensors params lens) = lengthSlots (slots tensors params lens')) :
    lens = lens' := by
  induction lengths generalizing lens' with
  | nil =>
    cases lengths'
    rfl
  | @cons param len params lens static _ ih =>
    obtain ⟨len', lens', static', later', rfl⟩ := List.forall₂_cons_left_iff.mp lengths'
    have appended (left right : List Slot) :
        lengthSlots (left ++ right) = lengthSlots left ++ lengthSlots right :=
      List.filterMap_append
    rw [slots_cons, slots_cons, appended, appended, lengthSlots_paramSlots,
      lengthSlots_paramSlots] at same
    by_cases dynamic : param.dynamic
    · rw [if_pos dynamic, if_pos dynamic] at same
      obtain ⟨rfl, later⟩ := List.cons.inj same
      rw [ih later' later]
    · rw [if_neg dynamic, if_neg dynamic] at same
      have fixed : param.dynamic = false := by simpa using dynamic
      rw [static fixed, static' fixed, ih later' same]

/-- Values whose lengths are written fit their fields. -/
theorem fits_of_writeLengths (planned : PlannedRow fields start row) (fills : source.Fills)
    {values : List V} {trees : List HostValue} (complete : values.length = fields.length)
    (reads : ReadRow source fields values trees) {dynamic : Nat} {lengths lengths' : List Int}
    (written : writeLengths source ((row.map PlannedField.param).zip values) dynamic lengths =
      .ok lengths') : List.Forall₂ PayloadField.Fits fields trees := by
  induction planned generalizing values trees dynamic lengths with
  | nil =>
    cases reads
    exact .nil
  | @cons field fields start one row here _ ih =>
    cases values with
    | nil => cases complete
    | cons value values =>
      obtain ⟨tree, trees, readsHere, readsLater, rfl⟩ := List.forall₂_cons_left_iff.mp reads
      have completeLater : values.length = fields.length := by simpa using complete
      have matched := readable_field here fills value tree readsHere
      rw [List.map_cons, List.zip_cons_cons, writeLengths, here.dynamic] at written
      -- A slice that is too long for an `i32` has been refused when its length was written.
      by_cases dynamicHere : field.ty.carried.2
      · rw [if_pos dynamicHere] at written
        simp only [bind_ok_iff, lengthOfValue, okOr_ok_iff,
          sequenceLen_of_reads dynamicHere readsHere] at written
        obtain ⟨len, ⟨len', counted, small⟩, -, -, later⟩ := written
        obtain rfl := Option.some.inj counted
        refine .cons ⟨matched, fun _ => ?_⟩ (ih completeLater readsLater later)
        by_contra large
        rw [if_neg large] at small
        cases small
      · rw [if_neg (by simpa using dynamicHere)] at written
        exact .cons ⟨matched, fun dynamic => absurd dynamic dynamicHere⟩
          (ih completeLater readsLater written)

end Lengths

/-! ### Encoding -/

namespace PayloadPlan

variable {V : Type} {source : PayloadSource V} {schema : PayloadSchema} {plan : PayloadPlan}
  {row : List PlannedField} {values : List V} {trees : List HostValue}

theorem new_schema {floats : FloatText} (accepted : PayloadPlan.new floats schema = .ok plan) :
    plan.schema = schema := by
  simp only [PayloadPlan.new, bind_ok_iff, Except.ok.injEq] at accepted
  obtain ⟨_, -, _, -, planning, -, _, -, rfl⟩ := accepted
  rfl

/-- The slots of a payload of the plan. -/
theorem Describes.slots (describes : plan.Describes schema.params row)
    (fits : schema.Fits trees) :
    (plan.slots (schema.lengths trees)).filterMap Slot.tensor =
      List.range' 0 plan.tensors.length ∧
    lengthSlots (plan.slots (schema.lengths trees)) = dynamicLengths schema.params trees ∧
    List.Forall₂ (Shows (rowColumns schema.params trees) 0) (plan.slots (schema.lengths trees))
      (List.zipWith PayloadField.pieces schema.params trees).flatten := by
  have rows := @slots_row schema.params row [] describes.planned trees fits
  rw [List.nil_append, ← describes.tensors, ← describes.params] at rows
  exact rows

theorem Describes.dynamicParameters (describes : plan.Describes schema.params row)
    (fits : schema.Fits trees) :
    plan.dynamicParameters = (dynamicLengths schema.params trees).length := by
  rw [PayloadPlan.dynamicParameters, describes.params, dynamic_row describes.planned fits]

theorem Describes.valueLengths (describes : plan.Describes schema.params row)
    (complete : values.length = schema.params.length)
    (reads : ReadRow source schema.params values trees) (fits : schema.Fits trees)
    {lengths : List Int} (room : lengths.length = plan.dynamicParameters) :
    valueLengths source plan values lengths =
      .ok ((dynamicLengths schema.params trees).map Int.ofNat) := by
  have params : plan.params.length = schema.params.length := by
    rw [describes.params, List.length_map, plannedRow_length describes.planned]
  have written := @writeLengths_row V source schema.params row 0 describes.planned values trees
    complete reads fits 0 lengths (by
      rw [room, describes.dynamicParameters fits, Nat.zero_add])
  rw [Payload.valueLengths, describes.params, bind_ok_iff]
  refine ⟨(), refuseIf_ok_iff.mpr ?_, by simpa using written⟩
  rw [← describes.params, params]
  simpa using complete

theorem Describes.sizes (describes : plan.Describes schema.params row)
    (represents : plan.Represents schema (schema.wireForm trees) trees) :
    plan.sizes ((dynamicLengths schema.params trees).map Int.ofNat) =
      .ok ((schema.wireForm trees).length, plan.workspaceExtent (schema.lengths trees)) := by
  have splits := describes.splits_of_represents represents
  obtain ⟨-, lengths, -⟩ := describes.slots represents.fits
  have visited := @nextLength_slots plan.tensors _ (plan.made_slots (schema.lengths trees)) 0 0 []
  rw [lengths, List.append_nil] at visited
  have walked : plan.walk (fun _ _ => nextLength) (fun _ lengths => .ok lengths)
      ((dynamicLengths schema.params trees).map Int.ofNat) =
      .ok ⟨(schema.wireForm trees).length, plan.workspaceExtent (schema.lengths trees), []⟩ :=
    (walkParams_ok_iff _ _ describes.sound.inside).mpr ⟨schema.lengths trees, splits.lengths,
      (reaches_iff _ _ (plan.slots_regular _) zero_le_i32Max zero_le_i32Max).mpr
        ⟨splits.wireEnd.symm, splits.wireFits, rfl, splits.workspaceFits, visited⟩⟩
  rw [PayloadPlan.sizes, walked]
  rfl

variable {sizes : Nat × Nat}

/-- `sizes` accepts the lengths of parameters whose payload is not too large. -/
theorem lens_of_sizes (sound : plan.Sound) {lengths : List Int}
    (sized : plan.sizes lengths = .ok sizes) :
    ∃ lens, Lengths plan.params lens ∧
      lengths = (lengthSlots (plan.slots lens)).map Int.ofNat ∧
      sizes.1 = wireEnd (plan.slots lens) 0 ∧ sizes.1 ≤ i32Max ∧
      sizes.2 = plan.workspaceExtent lens ∧ sizes.2 ≤ i32Max := by
  simp only [PayloadPlan.sizes, walk, bind_ok_iff, walkParams_ok_iff _ _ sound.inside,
    refuseIf_ok_iff, exists_const, Except.ok.injEq, not_not] at sized
  obtain ⟨ends, ⟨lens, fixed, reaches⟩, spent, rfl⟩ := sized
  obtain ⟨wire, wireFits, extent, workspaceFits, visited⟩ :=
    (reaches_iff _ _ (plan.slots_regular lens) zero_le_i32Max zero_le_i32Max).mp reaches
  have taken := taken_of_nextLength (plan.made_slots lens) visited
  rw [spent, List.append_nil] at taken
  exact ⟨lens, fixed, taken, wire, wireFits, extent, workspaceFits⟩

/-- Values whose sizes are computed have a wire form. -/
theorem Describes.represents_of_sizes (describes : plan.Describes schema.params row)
    (fills : source.Fills) (complete : values.length = schema.params.length)
    (reads : ReadRow source schema.params values trees) {lengths before : List Int}
    (room : before.length = plan.dynamicParameters)
    (valued : Payload.valueLengths source plan values before = .ok lengths)
    (sized : plan.sizes lengths = .ok sizes) :
    plan.Represents schema (schema.wireForm trees) trees := by
  have written := valued
  simp only [Payload.valueLengths, bind_ok_iff, describes.params] at written
  obtain ⟨-, -, written⟩ := written
  have fits := fits_of_writeLengths describes.planned fills complete reads written
  have same := Except.ok.inj ((describes.valueLengths complete reads fits room).symm.trans valued)
  obtain ⟨lens, fixed, taken, wire, wireFits, extent, workspaceFits⟩ :=
    lens_of_sizes describes.sound sized
  obtain ⟨-, slotLengths, -⟩ := describes.slots fits
  obtain ⟨fixedHere, holds⟩ := (@holds_row_iff [] schema.params row describes.planned
    (schema.lengths trees) (List.zipWith PayloadField.pieces schema.params trees).flatten).mpr
    ⟨trees, fits, rfl, rfl⟩
  rw [List.nil_append, ← describes.tensors, ← describes.params] at holds
  rw [← describes.params] at fixedHere
  -- The lengths that `sizes` has taken are those of the slices, so they are the only ones.
  have unique : lens = schema.lengths trees := by
    refine @lens_unique plan.tensors _ _ _ fixed fixedHere ?_
    have both : (lengthSlots (plan.slots lens)).map Int.ofNat =
        (lengthSlots (plan.slots (schema.lengths trees))).map Int.ofNat := by
      rw [← taken, ← same, slotLengths]
    exact List.map_injective_iff.mpr (fun a b => Int.ofNat.inj) both
  subst unique
  have total : (schema.wireForm trees).length = sizes.1 := by
    rw [wire, wireEnd, Nat.zero_add]
    exact holds_length_eq holds
  exact ⟨fits, rfl, total.trans_le wireFits, extent ▸ workspaceFits⟩

theorem exists_related {α β : Type} {R : α → β → Prop} {left : List α} {right : List β}
    (related : List.Forall₂ R left right) {item : α} (mem : item ∈ left) :
    ∃ other, R item other := by
  induction related with
  | nil => cases mem
  | cons here _ ih =>
    rcases List.mem_cons.mp mem with rfl | mem
    · exact ⟨_, here⟩
    · exact ih mem

theorem map_eq_of_related {α β : Type} {R : α → β → Prop} {convert : α → β} {left : List α}
    {right : List β} (related : List.Forall₂ R left right)
    (converts : ∀ item ∈ left, ∀ other, R item other → convert item = other) :
    left.map convert = right := by
  induction related with
  | nil => rfl
  | cons here _ ih =>
    rw [List.map_cons, converts _ (by simp) _ here, ih fun item mem => converts item (by simp [mem])]

/-- A filled slot is the piece of its tensor. -/
theorem filled_bytes {columns : List (List Bytes)} {items : List Stored}
    (tracked : ∀ leaf, columnOf items leaf = cell columns 0 leaf) {fill : Fill} {piece : Bytes}
    (shows : Shows columns 0 fill.slot piece) (wide : piece.length = fill.slot.bytes)
    (fresh : fill.done = [] ∧ (fill.slot.tensor ≠ none → fill.stale.length = fill.slot.bytes)) :
    (fill.after items).bytes = piece := by
  cases tensor : fill.slot.tensor with
  | none =>
    have length : piece = Wire.littleEndian 4 fill.slot.len := by
      simpa only [Shows, tensor] using shows
    rw [length]
    simp [Fill.after, Fill.bytes, tensor]
  | some index =>
    have column : piece = (cell columns 0 index).flatten := by
      have both : 0 ≤ index ∧ piece = (cell columns 0 index).flatten := by
        simpa only [Shows, tensor] using shows
      exact both.2
    have spent : fill.stale.length = (columnOf items index).flatten.length := by
      rw [fresh.2 (by simp [tensor]), ← wide, column, tracked]
    rw [Fill.after_of_tensor tensor, @Fill.bytes_of_tensor ⟨fill.slot,
      fill.done ++ columnOf items index, fill.stale.drop (columnOf items index).flatten.length⟩
      index tensor, fresh.1,
      List.nil_append, List.drop_of_length_le spent.le, List.append_nil, column, tracked]

/-- **The encoder** writes the wire form of the trees its values read as, whatever the workspace
held before. -/
theorem Describes.encode (describes : plan.Describes schema.params row)
    (named : plan.schema = schema) (complete : values.length = schema.params.length)
    (reads : ReadRow source schema.params values trees)
    (represents : plan.Represents schema (schema.wireForm trees) trees)
    (workspace : PayloadEncoderWorkspace)
    (lengthRoom : plan.dynamicParameters ≤ workspace.lengths.length)
    (offsetRoom : plan.tensors.length ≤ workspace.offsets.length)
    (space : (schema.wireForm trees).length ≤ workspace.output.length) :
    ∃ workspace', workspace.encode source plan values =
        .ok (schema.wireForm trees, workspace') ∧
      workspace'.output =
        schema.wireForm trees ++ workspace.output.drop (schema.wireForm trees).length := by
  have splits := describes.splits_of_represents represents
  obtain ⟨tensors, lengths, shows⟩ := describes.slots represents.fits
  have counted := describes.dynamicParameters represents.fits
  have valued := @Describes.valueLengths V source schema plan row values trees describes complete
    reads represents.fits (workspace.lengths.take plan.dynamicParameters) (by
      rw [List.length_take]
      omega)
  have sized := describes.sizes represents
  have total : ((plan.slots (schema.lengths trees)).map Slot.bytes).sum =
      (schema.wireForm trees).length := by
    rw [← splits.wireEnd, wireEnd, Nat.zero_add]
  have offsetsWide : (workspace.offsets.take plan.tensors.length).length = plan.tensors.length := by
    rw [List.length_take]
    omega
  obtain ⟨begun, fills, walked, slotsEq, fresh, output, starts, -, -⟩ :=
    @encodeWalk plan.tensors (plan.slots (schema.lengths trees)) (plan.made_slots _)
      (by rw [tensors]; exact List.nodup_range')
      ((dynamicLengths schema.params trees).map Int.ofNat) 0 (by rw [lengths, List.drop_zero])
      (by rw [lengths]; exact dynamicLengths_small represents.fits)
      (workspace.offsets.take plan.tensors.length)
      (by
        rw [tensors, offsetsWide]
        intro index mem
        simpa using (List.mem_range'_1.mp mem).2)
      [] workspace.output 0 (by rw [total]; exact space)
  have walks : plan.walk (fun offset _ =>
      encodeLength ((dynamicLengths schema.params trees).map Int.ofNat) offset) encodeStart
      ⟨0, workspace.offsets.take plan.tensors.length, workspace.output⟩ =
      .ok ⟨(schema.wireForm trees).length, plan.workspaceExtent (schema.lengths trees), begun⟩ :=
    (walkParams_ok_iff _ _ describes.sound.inside).mpr ⟨schema.lengths trees, splits.lengths,
      (reaches_iff _ _ (plan.slots_regular _) zero_le_i32Max zero_le_i32Max).mpr
        ⟨splits.wireEnd.symm, splits.wireFits, rfl, splits.workspaceFits, walked⟩⟩
  -- After the walk no tensor has a scalar yet, and every offset is where its slot begins.
  have filling : Filling fills (workspace.output.drop (schema.wireForm trees).length) begun := by
    refine ⟨?_, ?_⟩
    · rw [output, total, List.nil_append]
    · intro before fill after index split tensor
      have first := (fresh fill (by simp [split])).1
      rw [starts before fill after index split tensor, first, List.length_nil, Nat.zero_add,
        List.flatten_nil, List.length_nil, Nat.add_zero]
  have tracks := tracks_row describes.planned represents.fits
  have slotTensors : fills.filterMap (fun fill => fill.slot.tensor) =
      List.range' 0 plan.tensors.length := by
    rw [← tensors, ← slotsEq, List.filterMap_map]
    rfl
  have pieces : List.Forall₂ (fun (fill : Fill) piece =>
      Shows (rowColumns schema.params trees) 0 fill.slot piece ∧ piece.length = fill.slot.bytes)
      fills (List.zipWith PayloadField.pieces schema.params trees).flatten := by
    have both : List.Forall₂ (fun (slot : Slot) piece =>
        Shows (rowColumns schema.params trees) 0 slot piece ∧ piece.length = slot.bytes)
        (fills.map Fill.slot)
        (List.zipWith PayloadField.pieces schema.params trees).flatten := by
      rw [slotsEq]
      have holds := splits.holds
      revert shows holds
      generalize plan.slots (schema.lengths trees) = slots
      generalize (List.zipWith PayloadField.pieces schema.params trees).flatten = pieces
      intro shows holds
      induction shows with
      | nil => exact .nil
      | cons here _ ih =>
        obtain ⟨holdsHere, holdsLater⟩ := List.forall₂_cons.mp holds
        exact .cons ⟨here, holdsHere.length_eq⟩ (ih holdsLater)
    exact List.forall₂_map_left_iff.mp both
  obtain ⟨done, stored, filled⟩ := storeItems filling
    (by rw [slotTensors]; exact List.nodup_range')
    (by
      intro item mem
      obtain ⟨position, shape, found, leaf, typed, wide⟩ := tracks.known item mem
      have carries := carries_row describes.planned
      rw [← describes.tensors] at carries
      obtain ⟨inside, shapeEq⟩ := List.getElem?_eq_some_iff.mp found
      have insideTensors : position < plan.tensors.length := by
        rw [← carries.length_eq]
        exact inside
      have here := carries.get inside insideTensors
      rw [Nat.zero_add] at leaf
      refine ⟨plan.tensors[position], by rw [leaf, List.getElem?_eq_getElem insideTensors], ?_,
        by rw [wide, typed], ?_⟩
      · rw [typed, ← shapeEq]
        exact here.encoding
      · have present : item.leaf ∈ fills.filterMap (fun fill => fill.slot.tensor) := by
          rw [slotTensors, leaf]
          exact List.mem_range'_1.mpr ⟨Nat.zero_le _, by omega⟩
        obtain ⟨fill, inFills, tensor⟩ := List.mem_filterMap.mp present
        exact ⟨fill, inFills, tensor⟩)
    (by
      intro fill mem index tensor
      obtain ⟨piece, shows, wide⟩ : ∃ piece, Shows (rowColumns schema.params trees) 0 fill.slot
          piece ∧ piece.length = fill.slot.bytes := exists_related pieces mem
      have column : piece = (cell (rowColumns schema.params trees) 0 index).flatten := by
        have both : 0 ≤ index ∧ piece = (cell (rowColumns schema.params trees) 0 index).flatten := by
          simpa only [Shows, tensor] using shows
        exact both.2
      rw [tracks.columns, ← column, wide, (fresh fill mem).2 (by simp [tensor])])
  have whole : done.output =
      schema.wireForm trees ++ workspace.output.drop (schema.wireForm trees).length := by
    have same : (fills.map (Fill.after (payloadTrace schema.params trees 0))).map Fill.bytes =
        (List.zipWith PayloadField.pieces schema.params trees).flatten := by
      rw [List.map_map]
      exact map_eq_of_related pieces fun fill mem piece related =>
        filled_bytes tracks.columns related.1 related.2 (fresh fill mem)
    rw [filled.output, same]
    rfl
  have encodes := (@encodeFields_ok_iff V source plan _ _ _ describes.planned _ complete _ _).mpr
    ⟨trees, reads, stored⟩
  rw [← describes.params] at encodes
  refine ⟨⟨(dynamicLengths schema.params trees).map Int.ofNat ++
      workspace.lengths.drop plan.dynamicParameters,
    done.offsets ++ workspace.offsets.drop plan.tensors.length, done.output⟩, ?_, whole⟩
  simp only [PayloadEncoderWorkspace.encode, bind_ok_iff, refuseIf_ok_iff, exists_const,
    Except.ok.injEq]
  refine ⟨lengthRoom.not_gt, offsetRoom.not_gt, _, valued, _, sized, space.not_gt, _, walks,
    done, by rw [named]; exact encodes, ?_⟩
  rw [whole, List.take_left]

/-- `encode_values` gives the wire form. -/
theorem Describes.encodeValues (describes : plan.Describes schema.params row)
    (named : plan.schema = schema) (complete : values.length = schema.params.length)
    (reads : ReadRow source schema.params values trees)
    (represents : plan.Represents schema (schema.wireForm trees) trees) :
    encodeValues source plan values = .ok (schema.wireForm trees) := by
  have valued := @Describes.valueLengths V source schema plan row values trees describes complete
    reads represents.fits (List.replicate plan.dynamicParameters 0) List.length_replicate
  have sized := describes.sizes represents
  obtain ⟨workspace', encoded, output⟩ := describes.encode named complete reads represents
    ⟨List.replicate plan.dynamicParameters 0, List.replicate plan.tensors.length 0,
      List.replicate (schema.wireForm trees).length 0⟩ (by simp) (by simp) (by simp)
  have spent : (List.replicate (schema.wireForm trees).length (0 : UInt8)).drop
      (schema.wireForm trees).length = [] := List.drop_of_length_le (by simp)
  simp only [Payload.encodeValues, bind_ok_iff, Except.ok.injEq, PayloadEncoderWorkspace.new,
    refuseIf_ok_iff, exists_const]
  refine ⟨_, valued, _, sized, _, ⟨represents.wireFits.not_gt, rfl⟩, _, encoded, ?_⟩
  rw [output, spent, List.append_nil]

/-- **Refusals.** Values that the encoder accepts read as trees of the schema. -/
theorem Describes.reads_of_encode (describes : plan.Describes schema.params row)
    (named : plan.schema = schema) {workspace : PayloadEncoderWorkspace}
    {result : Bytes × PayloadEncoderWorkspace}
    (encoded : workspace.encode source plan values = .ok result) :
    values.length = schema.params.length ∧ ∃ trees, ReadRow source schema.params values trees := by
  simp only [PayloadEncoderWorkspace.encode, Payload.valueLengths, bind_ok_iff, refuseIf_ok_iff,
    exists_const, not_not] at encoded
  obtain ⟨-, -, lengths, ⟨complete, -⟩, sizes, -, -, begun, -, done, fields, -⟩ := encoded
  have counted : values.length = schema.params.length := by
    rw [complete, describes.params, List.length_map, plannedRow_length describes.planned]
  rw [named, describes.params] at fields
  obtain ⟨trees, reads, -⟩ := (encodeFields_ok_iff describes.planned counted).mp fields
  exact ⟨counted, trees, reads⟩

end PayloadPlan

/-! ### Decoding -/

section Decoding

variable {V : Type} {sink : PayloadSink V} {fields : List PayloadField} {row : List PlannedField}
  {start : Nat}

/-- The walk of `decode_values` reads the lengths and finds the pieces of the tensors. -/
theorem decodeWalk {tensors : List PayloadTensor} {slots : List Slot} {pieces : List Bytes}
    (made : ∀ slot ∈ slots, slot.Made tensors)
    (holds : List.Forall₂ (Holds tensors) slots pieces)
    (distinct : (slots.filterMap Slot.tensor).Nodup) {front : Bytes} {workspace : Nat}
    (fits : front.length + pieces.flatten.length ≤ i32Max) {lengths offsets : List Nat}
    (inside : ∀ index ∈ slots.filterMap Slot.tensor, index < offsets.length) :
    ∃ offsets', (place slots front.length workspace).foldlM
        (visitPlaced (decodeLength (front ++ pieces.flatten)) decodeStart) (lengths, offsets) =
        .ok (lengths ++ lengthSlots slots, offsets') ∧
      (∀ index, index ∉ slots.filterMap Slot.tensor → offsets'[index]? = offsets[index]?) ∧
      List.Forall₂ (fun (slot : Slot) piece => ∀ index, slot.tensor = some index →
        ∃ offset behind, offsets'[index]? = some offset ∧
          (front ++ pieces.flatten).drop offset = piece ++ behind) slots pieces := by
  induction holds generalizing front workspace lengths offsets with
  | nil => exact ⟨offsets, by simp [place, lengthSlots, pure, Except.pure], fun _ _ => rfl, .nil⟩
  | @cons slot piece slots pieces here holds ih =>
    have madeLater : ∀ slot ∈ slots, slot.Made tensors := fun slot mem => made slot (by simp [mem])
    have wide := here.length_eq
    rw [List.flatten_cons, List.length_append] at fits
    have later := @ih madeLater
    cases here with
    -- A length is read where it was written; the offsets stay.
    | length len small =>
      have four : (Wire.littleEndian 4 len).length = 4 := Wire.length_littleEndian 4 len
      obtain ⟨offsets', walked, others, found⟩ := @later distinct (front ++ Wire.littleEndian 4 len)
        ((Slot.ofLength len).after workspace) (by rw [List.length_append]; omega)
        (lengths ++ [len]) offsets inside
      simp only [List.append_assoc] at walked found
      refine ⟨offsets', ?_, others, .cons (fun index tensor => by cases tensor) found⟩
      rw [place, List.foldlM_cons, bind_ok_iff, List.flatten_cons]
      refine ⟨(lengths ++ [len], offsets), ?_, ?_⟩
      · rw [visitPlaced_ofLength]
        refine ⟨(lengths ++ [len], offsets), ?_, rfl⟩
        rw [decodeLength, bind_ok_iff]
        refine ⟨len, (readLength_ok_iff (by omega) (by
          simp only [List.length_append]; omega)).mpr ⟨?_, small⟩, rfl⟩
        rw [Regions.read, List.drop_left, List.take_left' four]
      · rw [List.length_append, four] at walked
        exact walked
    -- A tensor's offset is where its piece begins, and no later slot changes it.
    | tensor index len leaf scalars foundLeaf even count =>
      have tensorsCons : (Slot.ofTensor index len leaf :: slots).filterMap Slot.tensor =
          index :: slots.filterMap Slot.tensor := rfl
      rw [tensorsCons] at distinct inside
      obtain ⟨apart, distinctLater⟩ := List.nodup_cons.mp distinct
      have insideHere : index < offsets.length := inside index (by simp)
      obtain ⟨offsets', walked, others, found⟩ := @later distinctLater (front ++ scalars.flatten)
        ((Slot.ofTensor index len leaf).after workspace) (by rw [List.length_append]; omega)
        lengths (offsets.set index front.length)
        (fun index mem => by rw [List.length_set]; exact inside index (by simp [mem]))
      simp only [List.append_assoc] at walked found
      refine ⟨offsets', ?_, ?_, .cons ?_ found⟩
      · rw [place, List.foldlM_cons, bind_ok_iff, List.flatten_cons]
        refine ⟨(lengths, offsets.set index front.length), ?_, ?_⟩
        · show decodeStart (.tensor _) _ = _
          rw [decodeStart, bind_ok_iff]
          exact ⟨_, expect_ok_iff.mpr (List.getElem?_eq_getElem insideHere), rfl⟩
        · rw [List.length_append, wide] at walked
          exact walked
      · intro index' outside
        rw [tensorsCons, List.mem_cons, not_or] at outside
        rw [others index' outside.2, List.getElem?_set_ne (Ne.symm outside.1)]
      · intro index' tensor
        obtain rfl : index = index' := Option.some.inj tensor
        refine ⟨front.length, pieces.flatten, ?_, ?_⟩
        · rw [others index apart, List.getElem?_set_self insideHere]
        · rw [List.flatten_cons, List.drop_left]

/-- A slice is decoded element by element. -/
theorem decode_field {field : PayloadField} {one : PlannedField}
    (planned : one.Of field start) {input : Bytes}
    {tree : HostValue} (fits : field.ty.Matches tree) {offsets : List Nat} {first : Nat}
    (ready : Ready input offsets (field.ty.columns tree) first one.tensors.length) :
    ∃ cursor, decode sink input field.ty
        (if field.ty.carried.2 then tree.members.length else 0) ⟨offsets, first⟩ =
        .ok (field.ty.build sink tree, cursor) ∧
      Moved offsets cursor.offsets (field.ty.columns tree) first := by
  have plain := planned.plain
  obtain ⟨leaves, found, counted⟩ := planned.leaves
  rw [← planned.carries.length_eq] at ready
  obtain ⟨name, ty, default⟩ := field
  cases ty with
  -- Only a slice may be empty; then the leaf moves although no element has moved it.
  | slice element =>
    obtain ⟨cursor, decoded, leaf, moved⟩ := @decode_run V sink input element plain
      plain.decodable tree.members fits.2 first ⟨offsets, first⟩ ready
    refine ⟨⟨cursor.offsets, first + element.shapes.length⟩, ?_, moved⟩
    show decode sink input (.slice element) tree.members.length _ = _
    rw [decode, bind_ok_iff]
    refine ⟨_, decoded, ?_⟩
    rw [bind_ok_iff]
    refine ⟨_, @skipEmpty_of_planned _ _ found counted _ first _ ?_, rfl⟩
    rw [leaf]
    simp only [List.length_eq_zero_iff]
    rfl
  | scalar | tuple | struct | array =>
    obtain ⟨offsets', decoded, moved⟩ := plain.decodable tree ⟨offsets, first⟩ fits ready
    exact ⟨_, decoded, moved⟩

theorem decodeParams_row (planned : PlannedRow fields start row) {input : Bytes}
    {trees : List HostValue} (fits : List.Forall₂ PayloadField.Fits fields trees)
    {offsets : List Nat}
    (ready : Ready input offsets (rowColumns fields trees) start
      (row.flatMap PlannedField.tensors).length) :
    decodeParams sink input ((row.map PlannedField.param).zip fields)
        (dynamicLengths fields trees) offsets =
      .ok (List.zipWith (fun field tree => field.ty.build sink tree) fields trees) := by
  induction planned generalizing trees offsets with
  | nil =>
    cases fits
    rfl
  | @cons field fields start one row here _ ih =>
    obtain ⟨tree, trees, fitsHere, fitsLater, rfl⟩ := List.forall₂_cons_left_iff.mp fits
    have columns := (columns_of_field here fitsHere.1).length_eq
    rw [here.carries.length_eq] at columns
    rw [List.flatMap_cons, List.length_append, ← columns,
      show rowColumns (field :: fields) (tree :: trees) =
        field.ty.columns tree ++ rowColumns fields trees from rfl] at ready
    have first := ready.left
    rw [columns] at first
    have spanStart : one.param.tensors.start = start := by rw [here.span]
    obtain ⟨cursor, decoded, moved⟩ := @decode_field V sink _ _ _ here _ _ fitsHere.1 _ _ first
    have later := ready.right moved
    rw [columns] at later
    have taken : takeLength one.param (dynamicLengths (field :: fields) (tree :: trees)) =
        .ok (if field.ty.carried.2 then tree.members.length else 0, dynamicLengths fields trees) := by
      rw [dynamicLengths_cons, takeLength, here.dynamic]
      split <;> rfl
    rw [List.map_cons, List.zip_cons_cons, decodeParams, taken]
    show (decode sink input field.ty _ ⟨offsets, one.param.tensors.start⟩ >>= _) = _
    rw [spanStart, decoded]
    show (decodeParams sink input _ (dynamicLengths fields trees) cursor.offsets >>= _) = _
    rw [ih fitsLater later]
    rfl

/-- The tensors of the pieces lie where the walk has found them. -/
theorem ready_of_found {slots : List Slot} {pieces : List Bytes} {columns : List (List Bytes)}
    {count : Nat} {input : Bytes} {offsets : List Nat}
    (tensors : slots.filterMap Slot.tensor = List.range' 0 count)
    (shows : List.Forall₂ (Shows columns 0) slots pieces)
    (found : List.Forall₂ (fun (slot : Slot) piece => ∀ index, slot.tensor = some index →
      ∃ offset behind, offsets[index]? = some offset ∧ input.drop offset = piece ++ behind)
      slots pieces) : Ready input offsets columns 0 count := by
  intro leaf _ inside
  have named : leaf ∈ slots.filterMap Slot.tensor := by
    rw [tensors]
    exact List.mem_range'_1.mpr ⟨Nat.zero_le _, inside⟩
  obtain ⟨slot, mem, tensor⟩ := List.mem_filterMap.mp named
  clear named tensors
  induction shows with
  | nil => cases mem
  | @cons first piece slots pieces here _ ih =>
    obtain ⟨foundHere, foundLater⟩ := List.forall₂_cons.mp found
    rcases List.mem_cons.mp mem with rfl | mem
    · obtain ⟨offset, behind, at', drops⟩ := foundHere leaf tensor
      have column : 0 ≤ leaf ∧ piece = (cell columns 0 leaf).flatten := by
        simpa only [Shows, tensor] using here
      exact ⟨offset, behind, at', by rw [drops, column.2]⟩
    · exact ih foundLater mem

/-- **The decoder** builds the values of a wire form. -/
theorem PayloadPlan.Describes.decodeValues {schema : PayloadSchema} {plan : PayloadPlan}
    (describes : plan.Describes schema.params row) (named : plan.schema = schema) {input : Bytes}
    {trees : List HostValue} (represents : plan.Represents schema input trees) :
    plan.decodeValues sink input =
      .ok (List.zipWith (fun field tree => field.ty.build sink tree) schema.params trees) := by
  have splits := describes.splits_of_represents represents
  obtain ⟨tensors, lengths, shows⟩ := describes.slots represents.fits
  have required := (PayloadPlan.requiredWorkspace_ok_iff describes.sound).mpr ⟨_, _, splits, rfl⟩
  obtain ⟨offsets', walked, -, found⟩ := @decodeWalk plan.tensors
    (plan.slots (schema.lengths trees)) _ (plan.made_slots _) splits.holds
    (by rw [tensors]; exact List.nodup_range') [] 0
    (by rw [← splits.whole]; simpa using splits.wireFits) []
    (List.replicate plan.tensors.length 0) (by
      rw [tensors, List.length_replicate]
      intro index mem
      simpa using (List.mem_range'_1.mp mem).2)
  rw [List.nil_append, ← splits.whole] at walked found
  rw [List.nil_append, lengths] at walked
  have walks : plan.walk (decodeLength input) decodeStart
      (([] : List Nat), List.replicate plan.tensors.length 0) =
      .ok ⟨input.length, plan.workspaceExtent (schema.lengths trees),
        (dynamicLengths schema.params trees, offsets')⟩ :=
    (walkParams_ok_iff _ _ describes.sound.inside).mpr ⟨schema.lengths trees, splits.lengths,
      (reaches_iff _ _ (plan.slots_regular _) zero_le_i32Max zero_le_i32Max).mpr
        ⟨splits.wireEnd.symm, splits.wireFits, rfl, splits.workspaceFits, walked⟩⟩
  have ready := ready_of_found tensors shows found
  rw [describes.tensors] at ready
  rw [PayloadPlan.decodeValues, required]
  show (plan.walk _ _ _ >>= _) = _
  rw [walks]
  show decodeParams sink input (plan.params.zip plan.schema.params) _ _ = _
  rw [named, describes.params]
  exact decodeParams_row describes.planned represents.fits ready

end Decoding

end Onda.Payload
