import Onda.Payload.Traces

/-!
# Filling the output

The encoder fills the tensors of a payload side by side.  Each tensor has a part that is done
and a part that still holds old bytes; storing a scalar moves the boundary of one tensor.

### One scalar
-/

namespace Onda.Payload

open Regions

/-- A slot while the encoder is at work: the scalars it has, and the old bytes behind them. -/
structure Fill where
  slot : Slot
  done : List Bytes
  stale : Bytes

namespace Fill

def bytes (fill : Fill) : Bytes :=
  match fill.slot.tensor with
  | none => Wire.littleEndian 4 fill.slot.len
  | some _ => fill.done.flatten ++ fill.stale

/-- The slot once the items are stored. -/
def after (items : List Stored) (fill : Fill) : Fill :=
  match fill.slot.tensor with
  | none => fill
  | some index => ⟨fill.slot, fill.done ++ columnOf items index,
      fill.stale.drop (columnOf items index).flatten.length⟩

@[simp] theorem slot_after (items : List Stored) (fill : Fill) :
    (fill.after items).slot = fill.slot := by
  unfold after
  split <;> rfl

theorem after_of_tensor {fill : Fill} {index : Nat} (tensor : fill.slot.tensor = some index)
    (items : List Stored) : fill.after items = ⟨fill.slot, fill.done ++ columnOf items index,
      fill.stale.drop (columnOf items index).flatten.length⟩ := by
  unfold after
  rw [tensor]

theorem bytes_of_tensor {fill : Fill} {index : Nat} (tensor : fill.slot.tensor = some index) :
    fill.bytes = fill.done.flatten ++ fill.stale := by
  unfold bytes
  rw [tensor]

theorem after_nil (fill : Fill) : fill.after [] = fill := by
  unfold after
  split
  · rfl
  · simp

theorem after_after (items items' : List Stored) (fill : Fill) :
    (fill.after items).after items' = fill.after (items ++ items') := by
  cases tensor : fill.slot.tensor with
  | none => simp [after, tensor]
  | some index =>
    rw [after_of_tensor tensor, after_of_tensor tensor,
      @after_of_tensor ⟨fill.slot, fill.done ++ columnOf items index,
        fill.stale.drop (columnOf items index).flatten.length⟩ index tensor]
    simp [columnOf_append, List.append_assoc, List.drop_drop]

/-- Storing a scalar of another tensor leaves the slot. -/
theorem after_other {fill : Fill} {item : Stored}
    (other : fill.slot.tensor ≠ some item.leaf) : fill.after [item] = fill := by
  cases tensor : fill.slot.tensor with
  | none => simp [after, tensor]
  | some index =>
    have apart : item.leaf ≠ index := fun same => other (by rw [tensor, same])
    rw [after_of_tensor tensor, columnOf_cons_ne apart]
    simp

end Fill

/-- The output consists of the slots, and the next scalar of a tensor goes behind those it has. -/
structure Filling (fills : List Fill) (tail : Bytes) (state : Encoding) : Prop where
  output : state.output = (fills.map Fill.bytes).flatten ++ tail
  offsets : ∀ before fill after index, fills = before ++ fill :: after →
    fill.slot.tensor = some index → state.offsets[index]? =
      some ((before.map Fill.bytes).flatten.length + fill.done.flatten.length)

theorem write_middle {front old behind data : Bytes} (sameLength : data.length = old.length) :
    copyInto (front ++ (old ++ behind)) ⟨front.length, front.length + data.length⟩ data =
      .ok (front ++ (data ++ behind)) := by
  rw [copyInto_eq_write (by simp only [List.length_append]; omega), write, List.take_left,
    ← List.drop_drop, List.drop_left, sameLength, List.drop_left]

section Store

variable {plan : PayloadPlan}

/-- The place and the storage of a scalar, as one step. -/
def putScalar (plan : PayloadPlan) (start : Nat) (state : Encoding) (item : Stored) :
    Checked Encoding := do
  let offset ← scalarPlace plan start item.leaf item.encoding state
  storeScalar start item.leaf item.encoding offset item.scalar state

/-- The item with its leaf counted from the first tensor of the plan. -/
def Stored.shift (start : Nat) (item : Stored) : Stored :=
  { item with leaf := start + item.leaf }

theorem putScalar_shift (start : Nat) (state : Encoding) (item : Stored) :
    putScalar plan start state item = putScalar plan 0 state (item.shift start) := by
  simp only [putScalar, scalarPlace, storeScalar, Stored.shift, Nat.zero_add]
  rfl

/-- **One scalar.** It goes behind the scalars its tensor has, and nothing else changes. -/
theorem putScalar_fills {before after : List Fill} {fill : Fill} {tail : Bytes}
    {state : Encoding} {item : Stored} {tensor : PayloadTensor}
    (filling : Filling (before ++ fill :: after) tail state)
    (known : plan.tensors[item.leaf]? = some tensor) (typed : tensor.encoding = item.encoding)
    (wide : item.scalar.length = item.encoding.byteSize)
    (here : fill.slot.tensor = some item.leaf)
    (others : ∀ other ∈ before ++ after, other.slot.tensor ≠ some item.leaf)
    (room : item.encoding.byteSize ≤ fill.stale.length) :
    ∃ state', putScalar plan 0 state item = .ok state' ∧
      Filling ((before ++ fill :: after).map (Fill.after [item])) tail state' := by
  have offset := filling.offsets before fill after item.leaf rfl here
  obtain ⟨old, rest, oldWide, stale⟩ : ∃ old rest, old.length = item.scalar.length ∧
      fill.stale = old ++ rest :=
    ⟨fill.stale.take item.scalar.length, fill.stale.drop item.scalar.length, by
      rw [List.length_take]; omega, (List.take_append_drop _ _).symm⟩
  have output : state.output = ((before.map Fill.bytes).flatten ++ fill.done.flatten) ++
      (old ++ (rest ++ ((after.map Fill.bytes).flatten ++ tail))) := by
    rw [filling.output, List.map_append, List.map_cons, List.flatten_append, List.flatten_cons,
      Fill.bytes_of_tensor here, stale]
    simp only [List.append_assoc]
  have written := @write_middle ((before.map Fill.bytes).flatten ++ fill.done.flatten) old
    (rest ++ ((after.map Fill.bytes).flatten ++ tail)) item.scalar oldWide.symm
  rw [← output, List.length_append, wide] at written
  have keeps (row : List Fill) (apart : ∀ other ∈ row, other.slot.tensor ≠ some item.leaf) :
      row.map (Fill.after [item]) = row :=
    calc row.map (Fill.after [item]) = row.map id :=
          List.map_congr_left fun other mem => Fill.after_other (apart other mem)
      _ = row := List.map_id row
  have keepsBefore := keeps before fun other mem => others other (List.mem_append_left _ mem)
  have keepsAfter := keeps after fun other mem => others other (List.mem_append_right _ mem)
  have filled : fill.after [item] = ⟨fill.slot, fill.done ++ [item.scalar], rest⟩ := by
    rw [Fill.after_of_tensor here, columnOf_cons_self, columnOf_nil, List.flatten_singleton, stale,
      ← oldWide, List.drop_left]
  have filledBytes : (Fill.mk fill.slot (fill.done ++ [item.scalar]) rest).bytes =
      fill.done.flatten ++ (item.scalar ++ rest) := by
    rw [@Fill.bytes_of_tensor ⟨fill.slot, fill.done ++ [item.scalar], rest⟩ item.leaf here]
    simp only [List.flatten_append, List.flatten_singleton, List.append_assoc]
  have sameWidth : (fill.done.flatten ++ (item.scalar ++ rest)).length = fill.bytes.length := by
    rw [Fill.bytes_of_tensor here, stale]
    simp only [List.length_append]
    omega
  refine ⟨⟨state.dynamic, state.offsets.set item.leaf ((before.map Fill.bytes).flatten.length +
      fill.done.flatten.length + item.encoding.byteSize),
    ((before.map Fill.bytes).flatten ++ fill.done.flatten) ++
      (item.scalar ++ (rest ++ ((after.map Fill.bytes).flatten ++ tail)))⟩, ?_, ?_, ?_⟩
  · have inside : (before.map Fill.bytes).flatten.length + fill.done.flatten.length +
        item.encoding.byteSize ≤ state.output.length := by
      rw [output]
      simp only [List.length_append]
      omega
    simp only [putScalar, scalarPlace, storeScalar, bind_ok_iff, Nat.zero_add, okOr_ok_iff,
      refuseIf_ok_iff, expect_ok_iff, exists_const, not_not, Except.ok.injEq]
    exact ⟨_, ⟨tensor, known, typed, _, offset, _, getRange_eq_read inside, rfl⟩, _, written, rfl⟩
  · rw [List.map_append, List.map_cons, keepsBefore, keepsAfter, filled, List.map_append,
      List.map_cons, List.flatten_append, List.flatten_cons, filledBytes]
    simp only [List.append_assoc]
  · intro before' fill' after' index split tensor'
    rw [List.map_append, List.map_cons, keepsBefore, keepsAfter, filled] at split
    -- The offset of the filled slot has moved on; the slots on either side of it keep theirs,
    -- since the filled slot is as wide as before.
    have inside : item.leaf < state.offsets.length := (List.getElem?_eq_some_iff.mp offset).1
    rcases List.append_eq_append_iff.mp split with ⟨middle, rfl, rest'⟩ | ⟨middle, rfl, rest'⟩
    · cases middle with
      | nil =>
        obtain ⟨rfl, rfl⟩ := List.cons.inj rest'
        obtain rfl : item.leaf = index := Option.some.inj (here.symm.trans tensor')
        show (state.offsets.set _ _)[_]? = _
        rw [List.getElem?_set_self inside, List.append_nil, List.flatten_append,
          List.flatten_singleton, List.length_append, wide, Nat.add_assoc]
      | cons head middle =>
        obtain ⟨rfl, rfl⟩ := List.cons.inj rest'
        have apart : item.leaf ≠ index := by
          rintro rfl
          exact others fill' (by simp) tensor'
        show (state.offsets.set _ _)[_]? = _
        rw [List.getElem?_set_ne apart, filling.offsets (before ++ fill :: middle) fill' after' index
          (by simp) tensor']
        simp only [List.map_append, List.map_cons, List.flatten_append, List.flatten_cons,
          List.length_append, filledBytes] at sameWidth ⊢
        rw [← sameWidth]
    · cases middle with
      | nil =>
        obtain ⟨rfl, rfl⟩ := List.cons.inj rest'
        obtain rfl : item.leaf = index := Option.some.inj (here.symm.trans tensor')
        show (state.offsets.set _ _)[_]? = _
        rw [List.getElem?_set_self inside, List.append_nil, List.flatten_append,
          List.flatten_singleton, List.length_append, wide, Nat.add_assoc]
      | cons head middle =>
        obtain ⟨rfl, rfl⟩ := List.cons.inj rest'
        have apart : item.leaf ≠ index := by
          rintro rfl
          exact others fill' (by simp) tensor'
        show (state.offsets.set _ _)[_]? = _
        rw [List.getElem?_set_ne apart]
        exact filling.offsets before' fill' (middle ++ fill :: after) index (by simp) tensor'

/-- **All scalars.** Every tensor gets its column behind what it has. -/
theorem storeItems {fills : List Fill} {tail : Bytes} {state : Encoding} {items : List Stored}
    (filling : Filling fills tail state)
    (distinct : (fills.filterMap fun fill => fill.slot.tensor).Nodup)
    (known : ∀ item ∈ items, ∃ tensor, plan.tensors[item.leaf]? = some tensor ∧
      tensor.encoding = item.encoding ∧ item.scalar.length = item.encoding.byteSize ∧
      ∃ fill ∈ fills, fill.slot.tensor = some item.leaf)
    (room : ∀ fill ∈ fills, ∀ index, fill.slot.tensor = some index →
      (columnOf items index).flatten.length ≤ fill.stale.length) :
    ∃ state', items.foldlM (putScalar plan 0) state = .ok state' ∧
      Filling (fills.map (Fill.after items)) tail state' := by
  induction items generalizing fills state with
  | nil =>
    have same : fills.map (Fill.after []) = fills := by
      rw [show Fill.after [] = id from funext Fill.after_nil, List.map_id]
    exact ⟨state, rfl, by rw [same]; exact filling⟩
  | cons item items ih =>
    obtain ⟨tensor, found, typed, wide, fill, mem, here⟩ := known item (by simp)
    obtain ⟨before, after, rfl⟩ := List.append_of_mem mem
    have others : ∀ other ∈ before ++ after, other.slot.tensor ≠ some item.leaf := by
      rw [List.filterMap_append, List.filterMap_cons, here] at distinct
      have apart := (List.nodup_middle.mp distinct).notMem
      intro other inRest same
      apply apart
      rw [← List.filterMap_append]
      exact List.mem_filterMap.mpr ⟨other, inRest, same⟩
    have roomHere : item.encoding.byteSize ≤ fill.stale.length := by
      have whole := room fill (by simp) item.leaf here
      rw [columnOf_cons_self, List.flatten_cons, List.length_append] at whole
      omega
    -- The first scalar goes behind what its tensor has; the rest see the slot that much fuller.
    obtain ⟨between, stored, filled⟩ := putScalar_fills filling found typed wide here others roomHere
    obtain ⟨state', storedLater, filledLater⟩ := ih filled
      (by
        rw [List.filterMap_map]
        simpa only [Function.comp_def, Fill.slot_after] using distinct)
      (by
        intro later inItems
        obtain ⟨tensor, found, typed, wide, fill, mem, here⟩ := known later (by simp [inItems])
        exact ⟨tensor, found, typed, wide, fill.after [item], List.mem_map.mpr ⟨fill, mem, rfl⟩,
          by rw [Fill.slot_after]; exact here⟩)
      (by
        intro fill' mem index tensor'
        obtain ⟨other, inFills, rfl⟩ := List.mem_map.mp mem
        rw [Fill.slot_after] at tensor'
        have whole := room other inFills index tensor'
        rw [show item :: items = [item] ++ items from rfl, columnOf_append, List.flatten_append,
          List.length_append] at whole
        rw [Fill.after_of_tensor tensor', List.length_drop]
        omega)
    refine ⟨state', ?_, ?_⟩
    · rw [List.foldlM_cons, bind_ok_iff]
      exact ⟨between, stored, storedLater⟩
    · have whole : Fill.after items ∘ Fill.after [item] = Fill.after (item :: items) :=
        funext fun fill => Fill.after_after [item] items fill
      rw [List.map_map, whole] at filledLater
      exact filledLater

end Store

/-! ### The walk of the encoder -/

/-- The lengths behind the length slots, in order. -/
def lengthSlots (slots : List Slot) : List Nat :=
  slots.filterMap fun slot => if slot.tensor = none then some slot.len else none

/-- The walk writes the lengths and finds the start of every tensor. -/
theorem encodeWalk {tensors : List PayloadTensor} {slots : List Slot}
    (made : ∀ slot ∈ slots, slot.Made tensors)
    (distinct : (slots.filterMap Slot.tensor).Nodup) {lengths : List Int} {dynamic : Nat}
    (lens : lengths.drop dynamic = (lengthSlots slots).map Int.ofNat)
    (small : ∀ len ∈ lengthSlots slots, len < 2 ^ 31) {offsets : List Nat}
    (inside : ∀ index ∈ slots.filterMap Slot.tensor, index < offsets.length)
    {front rest : Bytes} {workspace : Nat} (room : (slots.map Slot.bytes).sum ≤ rest.length) :
    ∃ state fills, (place slots front.length workspace).foldlM
        (visitPlaced (fun offset _ => encodeLength lengths offset) encodeStart)
        ⟨dynamic, offsets, front ++ rest⟩ = .ok state ∧
      fills.map Fill.slot = slots ∧
      (∀ fill ∈ fills, fill.done = [] ∧
        (fill.slot.tensor ≠ none → fill.stale.length = fill.slot.bytes)) ∧
      state.output = front ++ ((fills.map Fill.bytes).flatten ++
        rest.drop (slots.map Slot.bytes).sum) ∧
      (∀ before fill after index, fills = before ++ fill :: after →
        fill.slot.tensor = some index → state.offsets[index]? =
          some (front.length + (before.map Fill.bytes).flatten.length)) ∧
      (∀ index, index ∉ slots.filterMap Slot.tensor → state.offsets[index]? = offsets[index]?) ∧
      state.offsets.length = offsets.length := by
  induction slots generalizing dynamic offsets front rest workspace with
  | nil =>
    refine ⟨_, [], rfl, rfl, by simp, by simp, ?_, fun _ _ => rfl, rfl⟩
    intro before fill after index split
    cases before <;> cases split
  | cons slot slots ih =>
    have madeLater : ∀ slot ∈ slots, slot.Made tensors := fun slot mem => made slot (by simp [mem])
    rw [List.map_cons, List.sum_cons] at room
    obtain ⟨old, rest, wide, rfl⟩ : ∃ old later, old.length = slot.bytes ∧ rest = old ++ later :=
      ⟨rest.take slot.bytes, rest.drop slot.bytes, by rw [List.length_take]; omega,
        (List.take_append_drop _ _).symm⟩
    rw [List.length_append] at room
    have roomLater : (slots.map Slot.bytes).sum ≤ rest.length := by omega
    cases made slot (by simp) with
    | length len =>
      -- The next length is written at once, and the walk goes on behind its four bytes.
      have four : old.length = 4 := wide
      have lensCons : lengthSlots (Slot.ofLength len :: slots) = len :: lengthSlots slots := rfl
      rw [lensCons, List.map_cons] at lens
      have found : lengths[dynamic]? = some (Int.ofNat len) := by
        rw [← List.head?_drop, lens]
        rfl
      have lensLater : lengths.drop (dynamic + 1) = (lengthSlots slots).map Int.ofNat := by
        rw [← List.tail_drop, lens]
        rfl
      have bits : Wire.wordBytes 4 (BitVec.ofInt 32 (Int.ofNat len)) = Wire.littleEndian 4 len := by
        have fits : len < 2 ^ 31 := small len (by simp [lensCons])
        rw [Wire.wordBytes, Int.ofNat_eq_natCast, BitVec.ofInt_natCast, BitVec.toNat_ofNat,
          Nat.mod_eq_of_lt (by omega)]
      have written := @write_middle front old rest (Wire.littleEndian 4 len) (by
        rw [Wire.length_littleEndian, four])
      rw [Wire.length_littleEndian] at written
      obtain ⟨state, fills, walked, slotsEq, fresh, output, starts, others, count⟩ :=
        @ih madeLater distinct (dynamic + 1) lensLater
          (fun len mem => small len (by simp [lensCons, mem])) offsets inside
          (front ++ Wire.littleEndian 4 len) rest ((Slot.ofLength len).after workspace) roomLater
      refine ⟨state, ⟨Slot.ofLength len, [], []⟩ :: fills, ?_, by rw [List.map_cons, slotsEq], ?_, ?_,
        ?_, others, count⟩
      · rw [place, List.foldlM_cons, bind_ok_iff]
        refine ⟨⟨dynamic + 1, offsets, front ++ (Wire.littleEndian 4 len ++ rest)⟩, ?_, ?_⟩
        · rw [visitPlaced_ofLength]
          refine ⟨⟨dynamic + 1, offsets, front ++ (Wire.littleEndian 4 len ++ rest)⟩, ?_, rfl⟩
          simp only [encodeLength, bind_ok_iff, expect_ok_iff, found, Option.some.injEq,
            exists_eq_left', bits, Except.ok.injEq]
          exact ⟨_, written, rfl⟩
        · rw [List.length_append, Wire.length_littleEndian, List.append_assoc] at walked
          exact walked
      · intro fill mem
        rcases List.mem_cons.mp mem with rfl | mem
        · exact ⟨rfl, fun tensor => absurd rfl tensor⟩
        · exact fresh fill mem
      · rw [output, List.map_cons, List.flatten_cons, List.map_cons, List.sum_cons,
          ← List.drop_drop, ← wide, List.drop_left]
        show _ = front ++ ((Wire.littleEndian 4 len ++ _) ++ _)
        simp only [List.append_assoc]
      · intro before fill after index split tensor
        cases before with
        | nil =>
          obtain ⟨rfl, rfl⟩ := List.cons.inj split
          cases tensor
        | cons head before =>
          obtain ⟨rfl, rfl⟩ := List.cons.inj split
          rw [starts before fill after index rfl tensor, List.map_cons, List.flatten_cons,
            List.length_append, List.length_append]
          show some (front.length + (Wire.littleEndian 4 len).length + _) =
            some (front.length + ((Wire.littleEndian 4 len).length + _))
          rw [Nat.add_assoc]
    | tensor index len leaf foundLeaf =>
      -- Only the offset is set: the bytes stay stale until the values are visited.
      have tensorsCons : (Slot.ofTensor index len leaf :: slots).filterMap Slot.tensor =
          index :: slots.filterMap Slot.tensor := rfl
      rw [tensorsCons] at distinct inside
      have here : index < offsets.length := inside index (by simp)
      obtain ⟨apart, distinctLater⟩ := List.nodup_cons.mp distinct
      obtain ⟨state, fills, walked, slotsEq, fresh, output, starts, others, count⟩ :=
        @ih madeLater distinctLater dynamic lens small (offsets.set index front.length)
          (fun index mem => by rw [List.length_set]; exact inside index (by simp [mem]))
          (front ++ old) rest ((Slot.ofTensor index len leaf).after workspace) roomLater
      refine ⟨state, ⟨Slot.ofTensor index len leaf, [], old⟩ :: fills, ?_,
        by rw [List.map_cons, slotsEq], ?_, ?_, ?_, ?_, by rw [count, List.length_set]⟩
      · rw [place, List.foldlM_cons, bind_ok_iff]
        refine ⟨⟨dynamic, offsets.set index front.length, front ++ (old ++ rest)⟩, ?_, ?_⟩
        · show encodeStart (.tensor _) _ = _
          simp only [encodeStart, bind_ok_iff, expect_ok_iff]
          exact ⟨_, List.getElem?_eq_getElem here, trivial⟩
        · rw [List.length_append, wide, List.append_assoc] at walked
          exact walked
      · intro fill mem
        rcases List.mem_cons.mp mem with rfl | mem
        · exact ⟨rfl, fun _ => wide⟩
        · exact fresh fill mem
      · rw [output, List.map_cons, List.flatten_cons, List.map_cons, List.sum_cons,
          ← List.drop_drop, ← wide, List.drop_left]
        show _ = front ++ ((([] : Bytes) ++ old ++ _) ++ _)
        simp only [List.append_assoc, List.nil_append]
      · intro before fill after index' split tensor
        cases before with
        | nil =>
          obtain ⟨rfl, rfl⟩ := List.cons.inj split
          obtain rfl : index = index' := Option.some.inj tensor
          rw [others index apart, List.getElem?_set_self here]
          rfl
        | cons head before =>
          obtain ⟨rfl, rfl⟩ := List.cons.inj split
          rw [starts before fill after index' rfl tensor, List.map_cons, List.flatten_cons,
            List.length_append, List.length_append]
          show some (front.length + old.length + _) =
            some (front.length + ((([] : Bytes) ++ old).length + _))
          rw [List.nil_append, Nat.add_assoc]
      · intro index' outside
        rw [tensorsCons, List.mem_cons, not_or] at outside
        rw [others index' outside.2, List.getElem?_set_ne (Ne.symm outside.1)]

end Onda.Payload
