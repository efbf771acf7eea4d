import Onda.Payload.Traces

/-!
# Reading the columns back

The decoder keeps one offset for each tensor.  As long as the columns of a value lie at the
offsets, it builds the value and moves every offset behind the column.

### Offsets
-/

namespace Onda.Payload

open Regions

section Decode

variable {V : Type} {sink : PayloadSink V} {input : Bytes}

mutual

/-- The host value the sink builds for a tree of scalars. -/
def PayloadType.build (sink : PayloadSink V) : PayloadType → HostValue → V
  | .scalar encoding _, tree => sink.scalar encoding tree.bytes
  | .tuple elements, tree =>
    sink.aggregate (.tuple elements) (buildElements sink elements tree.members)
  | .struct name fields, tree =>
    sink.aggregate (.struct name fields) (buildFields sink fields tree.members)
  | .array element len, tree =>
    sink.aggregate (.array element len) (tree.members.map fun member => element.build sink member)
  | .slice element, tree =>
    sink.aggregate (.slice element) (tree.members.map fun member => element.build sink member)

def buildElements (sink : PayloadSink V) : List PayloadType → List HostValue → List V
  | ty :: elements, member :: members =>
    ty.build sink member :: buildElements sink elements members
  | _, _ => []

def buildFields (sink : PayloadSink V) : List PayloadField → List HostValue → List V
  | .mk _ ty _ :: fields, member :: members =>
    ty.build sink member :: buildFields sink fields members
  | _, _ => []

end

/-- The columns lie at the offsets. -/
def Ready (input : Bytes) (offsets : List Nat) (columns : List (List Bytes))
    (start count : Nat) : Prop :=
  ∀ leaf, start ≤ leaf → leaf < start + count → ∃ offset behind,
    offsets[leaf]? = some offset ∧
      input.drop offset = (cell columns start leaf).flatten ++ behind

/-- The offsets have moved behind the columns. -/
def Moved (offsets offsets' : List Nat) (columns : List (List Bytes)) (start : Nat) : Prop :=
  ∀ leaf, offsets'[leaf]? =
    (offsets[leaf]?).map fun offset => offset + (cell columns start leaf).flatten.length

variable {columns : List (List Bytes)} {members : List HostValue}
  {offsets offsets' offsets'' : List Nat} {count start : Nat} {element : PayloadType}

theorem cell_eq_nil_of_le {leaf : Nat} (behind : start + columns.length ≤ leaf)
    : cell columns start leaf = [] := by
  unfold cell
  rw [if_pos (by omega), List.getD_eq_default _ _ (by omega)]

theorem cell_eq_nil_of_lt {columns : List (List Bytes)} {start leaf : Nat}
    (before : leaf < start)
    : cell columns start leaf = [] := if_neg (by omega)

theorem Ready.left {left right : List (List Bytes)}
    (ready : Ready input offsets (left ++ right) start (left.length + count)) :
    Ready input offsets left start left.length := by
  intro leaf low high
  obtain ⟨offset, behind, found, here⟩ := ready leaf low (by omega)
  rw [cell_append, @cell_eq_nil_of_lt _ (start + left.length) _ high, List.append_nil] at here
  exact ⟨offset, behind, found, here⟩

theorem Ready.right {left right : List (List Bytes)}
    (ready : Ready input offsets (left ++ right) start (left.length + count))
    (moved : Moved offsets offsets' left start) :
    Ready input offsets' right (start + left.length) count := by
  intro leaf low high
  obtain ⟨offset, behind, found, here⟩ := ready leaf (by omega) (by omega)
  rw [cell_append, cell_eq_nil_of_le low, List.nil_append] at here
  refine ⟨offset, behind, ?_, here⟩
  rw [moved leaf, found, cell_eq_nil_of_le low]
  rfl

theorem Moved.append {left right : List (List Bytes)} (first : Moved offsets offsets' left start)
    (second : Moved offsets' offsets'' right (start + left.length)) :
    Moved offsets offsets'' (left ++ right) start := by
  intro leaf
  rw [second leaf, first leaf, cell_append, Option.map_map, List.flatten_append,
    List.length_append]
  congr 1
  funext offset
  exact Nat.add_assoc _ _ _

theorem Ready.head {left right : List (List Bytes)}
    (ready : Ready input offsets (List.zipWith (· ++ ·) left right) start count)
    (sameLength : left.length = right.length) : Ready input offsets left start count := by
  intro leaf low high
  obtain ⟨offset, behind, found, here⟩ := ready leaf low high
  rw [cell_join sameLength, List.flatten_append, List.append_assoc] at here
  exact ⟨offset, _, found, here⟩

theorem Ready.tail {left right : List (List Bytes)}
    (ready : Ready input offsets (List.zipWith (· ++ ·) left right) start count)
    (sameLength : left.length = right.length) (moved : Moved offsets offsets' left start) :
    Ready input offsets' right start count := by
  intro leaf low high
  obtain ⟨offset, behind, found, here⟩ := ready leaf low high
  rw [cell_join sameLength, List.flatten_append, List.append_assoc] at here
  refine ⟨offset + (cell left start leaf).flatten.length, behind, by rw [moved leaf, found]; rfl, ?_⟩
  rw [← List.drop_drop, here, List.drop_left]

theorem Moved.join {left right : List (List Bytes)} (sameLength : left.length = right.length)
    (first : Moved offsets offsets' left start) (second : Moved offsets' offsets'' right start) :
    Moved offsets offsets'' (List.zipWith (· ++ ·) left right) start := by
  intro leaf
  rw [second leaf, first leaf, cell_join sameLength, Option.map_map, List.flatten_append,
    List.length_append]
  congr 1
  funext offset
  exact Nat.add_assoc _ _ _

theorem Moved.refl (offsets : List Nat) (count start : Nat) :
    Moved offsets offsets (List.replicate count []) start := by
  intro leaf
  rw [cell_replicate]
  simp

/-! ### Decoding -/

/-- Decoding the type gives back every value whose columns lie at the offsets. -/
def Decodable (sink : PayloadSink V) (input : Bytes) (ty : PayloadType) : Prop :=
  ∀ tree (cursor : Cursor), ty.Matches tree →
    Ready input cursor.offsets (ty.columns tree) cursor.leaf ty.shapes.length →
    ∃ offsets', decode sink input ty 0 cursor =
        .ok (ty.build sink tree, ⟨offsets', cursor.leaf + ty.shapes.length⟩) ∧
      Moved cursor.offsets offsets' (ty.columns tree) cursor.leaf

theorem decodable_scalar {ty : PayloadType} (scalar : ty.isScalar) :
    Decodable sink input ty := by
  cases ty with
  | tuple | struct | array | slice => cases scalar
  | scalar encoding range =>
    rintro tree ⟨offsets, leaf⟩ ⟨-, wide⟩ ready
    obtain ⟨offset, behind, found, here⟩ := ready leaf le_rfl (Nat.lt_succ_self leaf)
    have first : cell [[tree.bytes]] leaf leaf = [tree.bytes] := by
      rw [cell, if_pos le_rfl, Nat.sub_self]
      rfl
    have column : (cell (PayloadType.columns (.scalar encoding range) tree) leaf leaf).flatten =
        tree.bytes := by
      show (cell [[tree.bytes]] leaf leaf).flatten = _
      rw [first, List.flatten_singleton]
    rw [show (⟨offsets, leaf⟩ : Cursor).leaf = leaf from rfl, column] at here
    have room : offset + encoding.byteSize ≤ input.length := by
      have whole := congrArg List.length here
      have sizePos := encoding.byteSize_pos
      rw [List.length_drop, List.length_append, wide] at whole
      omega
    have bytes : read input offset encoding.byteSize = tree.bytes := by
      rw [Regions.read, here, List.take_left' wide]
    refine ⟨offsets.set leaf (offset + encoding.byteSize), ?_, ?_⟩
    · simp only [decode, bind_ok_iff, expect_ok_iff, Except.ok.injEq]
      exact ⟨offset, found, _, sliceAt_eq_read room, by rw [bytes]; rfl⟩
    · intro other
      show (offsets.set _ _)[other]? = (offsets[other]?).map fun offset =>
        offset + (cell [[tree.bytes]] leaf other).flatten.length
      by_cases same : leaf = other
      · subst same
        have inside := (List.getElem?_eq_some_iff.mp found).1
        rw [List.getElem?_set_self inside, found, first, List.flatten_singleton, wide]
        rfl
      · have empty : cell [[tree.bytes]] leaf other = [] := by
          by_cases before : other < leaf
          · exact cell_eq_nil_of_lt before
          · refine cell_eq_nil_of_le ?_
            show leaf + 1 ≤ other
            omega
        rw [List.getElem?_set_ne same, empty]
        simp

/-- The elements of an array or a slice. -/
theorem decode_run {element : PayloadType} (plain : element.Plain)
    (decodable : Decodable sink input element) {members : List HostValue}
    (fits : ∀ member ∈ members, element.Matches member) {start : Nat} {cursor : Cursor}
    (ready : Ready input cursor.offsets
      (joinColumns element.shapes.length (members.map fun member => element.columns member)) start
      element.shapes.length) :
    ∃ cursor', decodeRun (fun cursor => decode sink input element 0 cursor) start members.length
        cursor = .ok (members.map fun member => element.build sink member, cursor') ∧
      cursor'.leaf = (if members = [] then cursor.leaf else start + element.shapes.length) ∧
      Moved cursor.offsets cursor'.offsets
        (joinColumns element.shapes.length (members.map fun member => element.columns member))
        start := by
  induction members generalizing cursor with
  | nil => exact ⟨cursor, rfl, (if_pos rfl).symm, Moved.refl _ _ _⟩
  | cons member members ih =>
    have here := plain.faithful.columned member (fits member (by simp))
    have later := columned_run plain.faithful fun other mem =>
      fits other (List.mem_cons_of_mem member mem)
    have sameLength := here.length_eq.trans later.length_eq.symm
    obtain ⟨offsets', decoded, moved⟩ := decodable member ⟨cursor.offsets, start⟩
      (fits member (by simp)) (ready.head sameLength)
    obtain ⟨cursor', decodedLater, leaf, movedLater⟩ := @ih
      (fun other mem => fits other (by simp [mem])) ⟨offsets', start + element.shapes.length⟩
      (ready.tail sameLength moved)
    refine ⟨cursor', ?_, ?_, Moved.join sameLength moved movedLater⟩
    · simp only [List.length_cons, decodeRun, bind_ok_iff, Except.ok.injEq]
      exact ⟨_, decoded, _, decodedLater, rfl⟩
    · rw [leaf, if_neg (List.cons_ne_nil member members)]
      split <;> rfl

theorem decode_elements {elements : List PayloadType} (faithful : ∀ ty ∈ elements, ty.Faithful)
    (decodable : ∀ ty ∈ elements, Decodable sink input ty)
    (fits : List.Forall₂ PayloadType.Matches elements members) {cursor : Cursor}
    (ready : Ready input cursor.offsets (elementsColumns elements members) cursor.leaf
      (elements.flatMap PayloadType.shapes).length) :
    ∃ offsets', decodeElements sink input elements cursor =
        .ok (buildElements sink elements members,
          ⟨offsets', cursor.leaf + (elements.flatMap PayloadType.shapes).length⟩) ∧
      Moved cursor.offsets offsets' (elementsColumns elements members) cursor.leaf := by
  induction fits generalizing cursor with
  | nil =>
    refine ⟨cursor.offsets, by simp [decodeElements, buildElements], ?_⟩
    intro leaf
    simp [elementsColumns, cell]
  | @cons ty member elements members here _ ih =>
    have counted := ((faithful ty (by simp)).columned member here).length_eq
    rw [List.flatMap_cons, List.length_append, elementsColumns, ← counted] at ready
    have first := ready.left
    rw [counted] at first
    obtain ⟨offsets', decoded, moved⟩ := decodable ty (by simp) member cursor here first
    obtain ⟨offsets'', decodedLater, movedLater⟩ := @ih (fun ty mem => faithful ty (by simp [mem]))
      (fun ty mem => decodable ty (by simp [mem])) ⟨offsets', cursor.leaf + ty.shapes.length⟩
      (by rw [← counted]; exact ready.right moved)
    refine ⟨offsets'', ?_, ?_⟩
    · rw [decodeElements, bind_ok_iff]
      refine ⟨_, decoded, ?_⟩
      rw [bind_ok_iff]
      refine ⟨_, decodedLater, ?_⟩
      rw [buildElements, List.flatMap_cons, List.length_append, Nat.add_assoc]
    · rw [elementsColumns]
      rw [← counted] at movedLater
      exact moved.append movedLater

theorem decodeFields_eq (fields : List PayloadField) (cursor : Cursor) :
    decodeFields sink input fields cursor =
      decodeElements sink input (fields.map PayloadField.ty) cursor := by
  induction fields generalizing cursor with
  | nil => simp [decodeFields, decodeElements]
  | cons field fields ih =>
    obtain ⟨name, ty, default⟩ := field
    simp only [decodeFields, List.map_cons, decodeElements, PayloadField.ty, ih]

theorem buildFields_eq (fields : List PayloadField) (members : List HostValue) :
    buildFields sink fields members =
      buildElements sink (fields.map PayloadField.ty) members := by
  induction fields generalizing members with
  | nil => simp [buildFields, buildElements]
  | cons field fields ih =>
    obtain ⟨name, ty, default⟩ := field
    cases members with
    | nil => simp [buildFields, buildElements]
    | cons member members =>
      rw [buildFields, List.map_cons, buildElements, ih]
      rfl

/-- The shapes of an element whose leaves `decode` counts. -/
theorem skipEmpty_of_planned {element : PayloadType} {leaves : List PayloadLeaf}
    (planned : element.leaves = .ok leaves) (counted : leaves.length = element.shapes.length)
    {len start : Nat} {cursor : Cursor}
    (leaf : cursor.leaf = if len = 0 then start else start + element.shapes.length) :
    skipEmpty element len cursor = .ok ⟨cursor.offsets, start + element.shapes.length⟩ := by
  unfold skipEmpty
  by_cases empty : len = 0
  · rw [if_pos empty] at leaf ⊢
    rw [planned]
    show Except.ok _ = _
    rw [counted, leaf]
  · rw [if_neg empty] at leaf ⊢
    rw [← leaf]

/-- **Decoding** a plain type.  Its arrays are not empty, so no leaf is ever skipped. -/
theorem PayloadType.Plain.decodable {ty : PayloadType} (plain : ty.Plain) :
    Decodable sink input ty := by
  induction plain with
  | scalar encoding range => exact decodable_scalar rfl
  | tuple elements scalars =>
    rintro tree cursor ⟨-, fits⟩ ready
    rw [PayloadType.shapes, elementsShapes_eq] at ready ⊢
    obtain ⟨offsets', decoded, moved⟩ := decode_elements
      (fun ty mem => faithful_scalar (scalars ty mem))
      (fun ty mem => decodable_scalar (scalars ty mem)) (elementsMatch_iff.mp fits) ready
    refine ⟨offsets', ?_, moved⟩
    rw [decode, bind_ok_iff]
    exact ⟨_, decoded, rfl⟩
  | struct name fields plain decodable =>
    have faithfulTypes : ∀ ty ∈ fields.map PayloadField.ty, ty.Faithful := by
      intro ty mem
      obtain ⟨field, inFields, rfl⟩ := List.mem_map.mp mem
      exact (plain field inFields).faithful
    have decodableTypes : ∀ ty ∈ fields.map PayloadField.ty, Decodable sink input ty := by
      intro ty mem
      obtain ⟨field, inFields, rfl⟩ := List.mem_map.mp mem
      exact decodable field inFields
    rintro tree cursor ⟨-, fits⟩ ready
    rw [PayloadType.shapes, fieldsShapes_eq] at ready ⊢
    rw [PayloadType.columns, fieldsColumns_eq] at ready ⊢
    obtain ⟨offsets', decoded, moved⟩ := decode_elements faithfulTypes decodableTypes
      (fieldsMatch_iff.mp fits) ready
    refine ⟨offsets', ?_, moved⟩
    rw [decode, bind_ok_iff, decodeFields_eq]
    refine ⟨_, decoded, ?_⟩
    rw [PayloadType.build, buildFields_eq]
  | array element len nonempty plain decodable =>
    rintro tree cursor ⟨-, counted, fits⟩ ready
    rw [PayloadType.shapes, List.length_map] at ready ⊢
    obtain ⟨cursor', decoded, leaf, moved⟩ := decode_run plain decodable fits ready
    have members : tree.members ≠ [] := by
      intro empty
      rw [empty] at counted
      exact nonempty counted.symm
    rw [if_neg members] at leaf
    refine ⟨cursor'.offsets, ?_, moved⟩
    rw [decode, bind_ok_iff, ← counted]
    refine ⟨_, decoded, ?_⟩
    rw [bind_ok_iff]
    exact ⟨cursor', by rw [skipEmpty, if_neg (by simpa using members)], by rw [← leaf]; rfl⟩

end Decode

end Onda.Payload
