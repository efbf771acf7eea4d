import Onda.Payload.Codec
import Onda.Payload.Encoder
import Onda.Payload.Decoder

/-!
# The host codec

Host values that read as trees of a schema are encoded as the wire form of the trees, and
decoding the wire form builds the host values of the trees.

### Fields
-/

namespace Onda.Payload

section Fields

variable {V σ : Type} {source : PayloadSource V} {field : PayloadField} {one : PlannedField}
  {start : Nat}

theorem leafCount_field (planned : one.Of field start) :
    leafCount field.ty = one.tensors.length := by
  rw [← planned.carries.length_eq, ← planned.plain.trackable.1]
  obtain ⟨name, ty, default⟩ := field
  cases ty <;> rfl

theorem readable_field (planned : one.Of field start) (fills : source.Fills) :
    Readable source field.ty := by
  have plain := planned.plain
  obtain ⟨name, ty, default⟩ := field
  cases ty with
  | slice element => exact readable_slice fills plain
  | scalar | tuple | struct | array => exact plain.readable fills

theorem traced_field (planned : one.Of field start)
    {visit : Nat → ScalarEncoding → V → σ → Checked σ} {put : σ → Stored → Checked σ}
    (visits : ∀ leaf encoding value state state', visit leaf encoding value state = .ok state' ↔
      ∃ scalar, source.writeScalar value encoding = .ok scalar ∧
        put state ⟨leaf, encoding, scalar⟩ = .ok state') :
    Traced source visit put field.ty := by
  have plain := planned.plain
  obtain ⟨name, ty, default⟩ := field
  cases ty with
  | slice element => exact traced_slice visits plain
  | scalar | tuple | struct | array => exact plain.traced visits

theorem columnOf_shift (items : List Stored) (leaf : Nat) :
    columnOf (items.map (Stored.shift start)) leaf =
      if start ≤ leaf then columnOf items (leaf - start) else [] := by
  induction items with
  | nil => simp
  | cons item items ih =>
    rw [List.map_cons]
    by_cases here : start + item.leaf = leaf
    · subst here
      have self := columnOf_cons_self (item.shift start) (items.map (Stored.shift start))
      rw [show (item.shift start).leaf = start + item.leaf from rfl, ih, if_pos (by omega)] at self
      rw [self, if_pos (by omega), Nat.add_sub_cancel_left, columnOf_cons_self]
      rfl
    · rw [columnOf_cons_ne (show (item.shift start).leaf ≠ leaf from here), ih]
      split
      · rw [columnOf_cons_ne (by omega)]
      · rfl

theorem Tracks.shift {shapes : List LeafShape} {columns : List (List Bytes)}
    {items : List Stored} (tracks : Tracks shapes columns 0 items) (start : Nat) :
    Tracks shapes columns start (items.map (Stored.shift start)) where
  known item mem := by
    obtain ⟨source, inItems, rfl⟩ := List.mem_map.mp mem
    obtain ⟨position, shape, found, leaf, rest⟩ := tracks.known source inItems
    refine ⟨position, shape, found, ?_, rest⟩
    show start + source.leaf = _
    rw [leaf, Nat.zero_add]
  columns leaf := by
    rw [columnOf_shift, tracks.columns]
    unfold cell
    split
    · rw [if_pos (Nat.zero_le _), Nat.sub_zero]
    · rfl

theorem tracks_field (planned : one.Of field start) {tree : HostValue}
    (fits : field.ty.Matches tree) (first : Nat) :
    Tracks field.ty.carried.1.shapes (field.ty.columns tree) first
      ((trace field.ty tree 0).map (Stored.shift first)) := by
  have plain := planned.plain
  refine Tracks.shift ?_ first
  obtain ⟨name, ty, default⟩ := field
  cases ty with
  | slice element => exact tracks_run plain plain.trackable fits.2 0
  | scalar | tuple | struct | array => exact plain.trackable.2 tree 0 fits

theorem encodeScalar_ok_iff {plan : PayloadPlan} (leaf : Nat) (encoding : ScalarEncoding)
    (value : V) (state state' : Encoding) :
    encodeScalar source plan start leaf encoding value state = .ok state' ↔
      ∃ scalar, source.writeScalar value encoding = .ok scalar ∧
        putScalar plan start state ⟨leaf, encoding, scalar⟩ = .ok state' := by
  simp only [encodeScalar, putScalar, bind_ok_iff]
  constructor
  · rintro ⟨offset, found, scalar, written, stored⟩
    exact ⟨scalar, written, offset, found, stored⟩
  · rintro ⟨scalar, written, offset, found, stored⟩
    exact ⟨offset, found, scalar, written, stored⟩

end Fields

/-! ### Rows of fields -/

/-- The columns of a row of trees. -/
def rowColumns (fields : List PayloadField) (trees : List HostValue) : List (List Bytes) :=
  (List.zipWith (fun field tree => field.ty.columns tree) fields trees).flatten

/-- The scalars of a row of trees, leaves counted from the first tensor of the plan. -/
def payloadTrace : List PayloadField → List HostValue → Nat → List Stored
  | field :: fields, tree :: trees, start =>
    (trace field.ty tree 0).map (Stored.shift start) ++
      payloadTrace fields trees (start + leafCount field.ty)
  | _, _, _ => []

/-- The lengths of the slices. -/
def dynamicLengths (fields : List PayloadField) (trees : List HostValue) : List Nat :=
  (fields.zip trees).filterMap fun pair =>
    if pair.1.ty.carried.2 then some pair.2.members.length else none

section Rows

variable {V : Type} {source : PayloadSource V} {plan : PayloadPlan} {fields : List PayloadField}
  {row : List PlannedField} {start : Nat}

/-- The host values read as the trees. -/
def ReadRow (source : PayloadSource V) (fields : List PayloadField) (values : List V)
    (trees : List HostValue) : Prop :=
  List.Forall₂ (fun (pair : PayloadField × V) tree => pair.1.ty.Reads source pair.2 tree)
    (fields.zip values) trees

/-- **Visiting a payload** stores the scalars of the trees its values read as. -/
theorem encodeFields_ok_iff (planned : PlannedRow fields start row) {values : List V}
    (complete : values.length = fields.length) {state state' : Encoding} :
    encodeFields source plan (fields.zip ((row.map PlannedField.param).zip values)) state =
        .ok state' ↔
      ∃ trees, ReadRow source fields values trees ∧
        (payloadTrace fields trees start).foldlM (putScalar plan 0) state = .ok state' := by
  induction planned generalizing values state with
  | nil =>
    constructor
    · intro encoded
      exact ⟨[], .nil, encoded⟩
    · rintro ⟨trees, reads, stored⟩
      cases reads
      exact stored
  | @cons field fields start one row here _ ih =>
    cases values with
    | nil => cases complete
    | cons value values =>
      have counted := leafCount_field here
      have spanStart : one.param.tensors.start = start := by rw [here.span]
      have traced := @traced_field V Encoding source _ _ _ here _ _
        (fun leaf encoding value state state' =>
          @encodeScalar_ok_iff V source one.param.tensors.start plan leaf encoding value state state')
      have shifted (tree : HostValue) (before after : Encoding) :
          (trace field.ty tree 0).foldlM (putScalar plan one.param.tensors.start) before =
              .ok after ↔
            ((trace field.ty tree 0).map (Stored.shift start)).foldlM (putScalar plan 0) before =
              .ok after := by
        rw [List.foldlM_map, spanStart, show putScalar plan start = _ from
          funext fun state => funext fun item => putScalar_shift start state item]
      simp only [List.map_cons, List.zip_cons_cons, encodeFields, bind_ok_iff]
      -- The visit of a field counts leaves from zero, the tensors of the plan from `start`.
      constructor
      · rintro ⟨⟨next, between⟩, visited, later⟩
        obtain ⟨tree, reads, -, stored⟩ := (traced _ _ _ _ _).mp visited
        obtain ⟨trees, readsLater, storedLater⟩ := (ih (by simpa using complete)).mp later
        refine ⟨tree :: trees, .cons reads readsLater, ?_⟩
        rw [payloadTrace, List.foldlM_append, bind_ok_iff, counted]
        exact ⟨between, (shifted tree _ _).mp stored, storedLater⟩
      · rintro ⟨trees, reads, stored⟩
        obtain ⟨tree, trees, readsHere, readsLater, rfl⟩ := List.forall₂_cons_left_iff.mp reads
        rw [payloadTrace, List.foldlM_append, bind_ok_iff, counted] at stored
        obtain ⟨between, stored, storedLater⟩ := stored
        exact ⟨(0 + leafCount field.ty, between),
          (traced _ _ _ _ _).mpr ⟨tree, readsHere, rfl, (shifted tree _ _).mpr stored⟩,
          (ih (by simpa using complete)).mpr ⟨trees, readsLater, storedLater⟩⟩

theorem tracks_row (planned : PlannedRow fields start row) {trees : List HostValue}
    (fits : List.Forall₂ PayloadField.Fits fields trees) :
    Tracks (fields.flatMap fun field => field.ty.carried.1.shapes) (rowColumns fields trees) start
      (payloadTrace fields trees start) := by
  induction planned generalizing trees with
  | nil =>
    cases fits
    exact Tracks.nil
  | @cons field fields start one row here _ ih =>
    obtain ⟨tree, trees, fitsHere, fitsLater, rfl⟩ := List.forall₂_cons_left_iff.mp fits
    have counted : leafCount field.ty = field.ty.carried.1.shapes.length := by
      rw [leafCount_field here, here.carries.length_eq]
    rw [List.flatMap_cons, payloadTrace, counted]
    refine (tracks_field here fitsHere.1 start).append
      (columns_of_field here fitsHere.1).length_eq ?_
    rw [here.carries.length_eq]
    exact ih fitsLater

theorem carries_row (planned : PlannedRow fields start row) :
    List.Forall₂ PayloadTensor.Carries (fields.flatMap fun field => field.ty.carried.1.shapes)
      (row.flatMap PlannedField.tensors) := by
  induction planned with
  | nil => exact .nil
  | cons here _ ih =>
    rw [List.flatMap_cons, List.flatMap_cons]
    exact List.rel_append here.carries ih

/-! ### What the slots show -/

/-- The piece of a slot: its length, or the column of its tensor. -/
def Shows (columns : List (List Bytes)) (start : Nat) (slot : Slot) (piece : Bytes) : Prop :=
  match slot.tensor with
  | none => piece = Wire.littleEndian 4 slot.len
  | some index => start ≤ index ∧ piece = (cell columns start index).flatten

theorem tensorSlots_inside {tensors : List PayloadTensor} {len : Nat} {indices : List Nat}
    (inside : ∀ index ∈ indices, index < tensors.length) :
    (tensorSlots tensors len indices).filterMap Slot.tensor = indices ∧
      lengthSlots (tensorSlots tensors len indices) = [] := by
  induction indices with
  | nil => exact ⟨rfl, rfl⟩
  | cons index indices ih =>
    have here : index < tensors.length := inside index (by simp)
    obtain ⟨found, none⟩ := ih fun index mem => inside index (by simp [mem])
    have split : tensorSlots tensors len (index :: indices) =
        Slot.ofTensor index len tensors[index] :: tensorSlots tensors len indices := by
      simp [tensorSlots, here]
    rw [split]
    exact ⟨by rw [List.filterMap_cons]; show index :: _ = _; rw [found], none⟩

theorem shows_tensors {tensors : List PayloadTensor} {len : Nat} {columns : List (List Bytes)}
    {first : Nat} (inside : first + columns.length ≤ tensors.length) :
    List.Forall₂ (Shows columns first) (tensorSlots tensors len
      (List.range' first columns.length)) (columns.map List.flatten) := by
  induction columns generalizing first with
  | nil => exact .nil
  | cons column columns ih =>
    rw [List.length_cons] at inside
    have here : first < tensors.length := by omega
    have split : tensorSlots tensors len (List.range' first (columns.length + 1)) =
        Slot.ofTensor first len tensors[first] ::
          tensorSlots tensors len (List.range' (first + 1) columns.length) := by
      rw [List.range'_succ]
      simp [tensorSlots, here]
    rw [List.length_cons, split, List.map_cons]
    refine .cons ⟨le_rfl, by simp [cell]⟩ ?_
    refine (@ih (first + 1) (by omega)).imp ?_
    intro slot piece shows
    unfold Shows at shows ⊢
    split
    · rename_i none
      simpa [none] using shows
    · rename_i index some
      simp only [some] at shows
      obtain ⟨behind, same⟩ := shows
      have gone : cell [column] first index = [] := cell_eq_nil_of_le (by simpa using behind)
      refine ⟨by omega, ?_⟩
      rw [same, show column :: columns = [column] ++ columns from rfl, cell_append, gone,
        List.nil_append]
      rfl

theorem Shows.left {columns columns' : List (List Bytes)} {slot : Slot} {piece : Bytes}
    (shows : Shows columns start slot piece)
    (inside : ∀ index, slot.tensor = some index → index < start + columns.length) :
    Shows (columns ++ columns') start slot piece := by
  unfold Shows at shows ⊢
  split
  · rename_i none
    simpa [none] using shows
  · rename_i index some
    simp only [some] at shows
    refine ⟨shows.1, ?_⟩
    rw [shows.2, cell_append, cell_eq_nil_of_lt (inside index some), List.append_nil]

theorem Shows.right {columns columns' : List (List Bytes)} {slot : Slot} {piece : Bytes}
    (shows : Shows columns' (start + columns.length) slot piece) :
    Shows (columns ++ columns') start slot piece := by
  unfold Shows at shows ⊢
  split
  · rename_i none
    simpa [none] using shows
  · rename_i index some
    simp only [some] at shows
    refine ⟨by omega, ?_⟩
    rw [shows.2, cell_append, cell_eq_nil_of_le shows.1, List.nil_append]

variable {before : List PayloadTensor}

/-- **The slots of a payload**: their tensors, their lengths and their pieces. -/
theorem slots_row (planned : PlannedRow fields before.length row) {trees : List HostValue}
    (fits : List.Forall₂ PayloadField.Fits fields trees) :
    (slots (before ++ row.flatMap PlannedField.tensors) (row.map PlannedField.param)
        (List.zipWith PayloadField.lengthOf fields trees)).filterMap Slot.tensor =
      List.range' before.length (row.flatMap PlannedField.tensors).length ∧
    lengthSlots (slots (before ++ row.flatMap PlannedField.tensors)
        (row.map PlannedField.param) (List.zipWith PayloadField.lengthOf fields trees)) =
      dynamicLengths fields trees ∧
    List.Forall₂ (Shows (rowColumns fields trees) before.length)
      (slots (before ++ row.flatMap PlannedField.tensors) (row.map PlannedField.param)
        (List.zipWith PayloadField.lengthOf fields trees))
      (List.zipWith PayloadField.pieces fields trees).flatten := by
  generalize started : before.length = start at planned
  induction planned generalizing before trees with
  | nil =>
    cases fits
    exact ⟨rfl, rfl, .nil⟩
  | @cons field fields start one row here _ ih =>
    subst started
    obtain ⟨tree, trees, fitsHere, fitsLater, rfl⟩ := List.forall₂_cons_left_iff.mp fits
    obtain ⟨tensors, lengths, shows⟩ := @ih (before ++ one.tensors) trees fitsLater (by simp)
    rw [List.append_assoc] at tensors lengths shows
    have columns := (columns_of_field here fitsHere.1).length_eq
    rw [here.carries.length_eq] at columns
    have inside : ∀ index ∈ List.range' before.length one.tensors.length,
        index < (before ++ (one.tensors ++ row.flatMap PlannedField.tensors)).length := by
      intro index mem
      have bound := (List.mem_range'_1.mp mem).2
      simp only [List.length_append]
      omega
    obtain ⟨tensorsHere, noLengths⟩ := @tensorSlots_inside _ (field.lengthOf tree) _ inside
    have showsHere := @shows_tensors (before ++ (one.tensors ++ row.flatMap PlannedField.tensors))
      (field.lengthOf tree) (field.ty.columns tree) before.length (by
        simp only [List.length_append]
        omega)
    rw [columns] at showsHere
    rw [List.flatMap_cons, List.map_cons, List.zipWith_cons_cons, List.zipWith_cons_cons,
      slots_cons, paramSlots_eq here, List.length_append, List.flatten_cons]
    have rowCons : rowColumns (field :: fields) (tree :: trees) =
        field.ty.columns tree ++ rowColumns fields trees := rfl
    have lengthsCons : dynamicLengths (field :: fields) (tree :: trees) =
        (if field.ty.carried.2 then [tree.members.length] else []) ++
          dynamicLengths fields trees := by
      simp only [dynamicLengths, List.zip_cons_cons, List.filterMap_cons]
      split <;> simp_all
    refine ⟨?_, ?_, ?_⟩
    · rw [List.filterMap_append, List.filterMap_append, tensorsHere, tensors,
        show (if field.ty.carried.2 then [Slot.ofLength (field.lengthOf tree)] else []).filterMap
          Slot.tensor = [] by split <;> rfl, List.nil_append, List.range'_append_1]
    · unfold lengthSlots at noLengths lengths ⊢
      rw [List.filterMap_append, List.filterMap_append, noLengths, lengths, lengthsCons,
        List.append_nil]
      congr 1
      by_cases dynamic : field.ty.carried.2
      · rw [if_pos dynamic, if_pos dynamic, show field.lengthOf tree = tree.members.length from
          if_pos dynamic]
        rfl
      · rw [if_neg dynamic, if_neg dynamic]
        rfl
    · rw [rowCons]
      refine List.rel_append ?_ (shows.imp fun slot piece shows => ?_)
      · unfold PayloadField.pieces
        refine List.rel_append ?_ ?_
        · by_cases dynamic : field.ty.carried.2
          · rw [if_pos dynamic, if_pos dynamic]
            refine .cons ?_ .nil
            show _ = Wire.littleEndian 4 (field.lengthOf tree)
            rw [show field.lengthOf tree = tree.members.length from if_pos dynamic]
          · rw [if_neg dynamic, if_neg dynamic]
            exact .nil
        · have known : ∀ slot ∈ tensorSlots
              (before ++ (one.tensors ++ row.flatMap PlannedField.tensors)) (field.lengthOf tree)
              (List.range' before.length one.tensors.length), ∀ index, slot.tensor = some index →
              index < before.length + (field.ty.columns tree).length := by
            intro slot mem index tensor
            have found : index ∈ List.range' before.length one.tensors.length := by
              rw [← tensorsHere]
              exact List.mem_filterMap.mpr ⟨slot, mem, tensor⟩
            rw [columns]
            exact (List.mem_range'_1.mp found).2
          clear tensorsHere noLengths
          revert known
          generalize tensorSlots _ _ _ = row at showsHere
          generalize List.map List.flatten _ = pieces at showsHere
          intro known
          induction showsHere with
          | nil => exact .nil
          | @cons slot piece row pieces here' _ ihRow =>
            exact .cons (here'.left (known slot (by simp)))
              (ihRow fun slot mem => known slot (by simp [mem]))
      · rw [← columns] at shows
        exact shows.right

end Rows

end Onda.Payload
