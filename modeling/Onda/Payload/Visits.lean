import Onda.Payload.Columns
import Onda.Payload.Host

/-!
# What a visit of a host value sees

A host value reads as a tree of scalars or does not match its type.  Visiting it stores the
scalars of the tree in a fixed order, in which those of one leaf form its column.

### Reading host values
-/

namespace Onda.Payload

section Reads

variable {V : Type} (source : PayloadSource V)

mutual

/-- The host value has the form of the type, and these are its scalars. -/
def PayloadType.Reads : PayloadType → V → HostValue → Prop
  | .scalar encoding _, value, tree =>
    tree = .scalar tree.bytes ∧ source.writeScalar value encoding = .ok tree.bytes
  | .tuple elements, value, tree =>
    tree = .aggregate tree.members ∧ source.sequenceLen value = some elements.length ∧
      elementsRead elements value 0 tree.members
  | .struct _ fields, value, tree =>
    tree = .aggregate tree.members ∧ source.structLen value = some fields.length ∧
      fieldsRead fields value 0 tree.members
  | .array element len, value, tree =>
    tree = .aggregate tree.members ∧ source.sequenceLen value = some len ∧
      List.Forall₂ (fun index member => ∃ part, source.member value index none = some part ∧
        element.Reads part member) (List.range len) tree.members
  | .slice element, value, tree =>
    tree = .aggregate tree.members ∧ source.sequenceLen value = some tree.members.length ∧
      List.Forall₂ (fun index member => ∃ part, source.member value index none = some part ∧
        element.Reads part member) (List.range tree.members.length) tree.members

def elementsRead : List PayloadType → V → Nat → List HostValue → Prop
  | [], _, _, members => members = []
  | ty :: elements, value, index, members =>
    ∃ part member rest, members = member :: rest ∧ source.member value index none = some part ∧
      ty.Reads part member ∧ elementsRead elements value (index + 1) rest

def fieldsRead : List PayloadField → V → Nat → List HostValue → Prop
  | [], _, _, members => members = []
  | .mk name ty _ :: fields, value, index, members =>
    ∃ part member rest, members = member :: rest ∧
      source.member value index (some name) = some part ∧ ty.Reads part member ∧
      fieldsRead fields value (index + 1) rest

end

end Reads

/-! ### The order of a visit -/

/-- One scalar of a visit. -/
structure Stored where
  leaf : Nat
  encoding : ScalarEncoding
  scalar : Bytes

mutual

/-- The scalars of a value in the order of a visit that begins at leaf `start`. -/
def trace : PayloadType → HostValue → Nat → List Stored
  | .scalar encoding _, tree, start => [⟨start, encoding, tree.bytes⟩]
  | .tuple elements, tree, start => elementsTrace elements tree.members start
  | .struct _ fields, tree, start => fieldsTrace fields tree.members start
  | .array element _, tree, start => tree.members.flatMap fun member => trace element member start
  | .slice element, tree, start => tree.members.flatMap fun member => trace element member start

def elementsTrace : List PayloadType → List HostValue → Nat → List Stored
  | ty :: elements, member :: members, start =>
    trace ty member start ++ elementsTrace elements members (start + leafCount ty)
  | _, _, _ => []

def fieldsTrace : List PayloadField → List HostValue → Nat → List Stored
  | .mk _ ty _ :: fields, member :: members, start =>
    trace ty member start ++ fieldsTrace fields members (start + leafCount ty)
  | _, _, _ => []

end

section Visit

variable {V σ : Type} {source : PayloadSource V}
  {visit : Nat → ScalarEncoding → V → σ → Checked σ} {put : σ → Stored → Checked σ}
  (visits : ∀ leaf encoding value state state', visit leaf encoding value state = .ok state' ↔
    ∃ scalar, source.writeScalar value encoding = .ok scalar ∧
      put state ⟨leaf, encoding, scalar⟩ = .ok state')

/-- A visit of the type stores the scalars of the tree the value reads as. -/
def Traced (source : PayloadSource V) (visit : Nat → ScalarEncoding → V → σ → Checked σ)
    (put : σ → Stored → Checked σ) (ty : PayloadType) : Prop :=
  ∀ value start next state state', visitValues source visit ty value start state =
      .ok (next, state') ↔
    ∃ tree, ty.Reads source value tree ∧ next = start + leafCount ty ∧
      (trace ty tree start).foldlM put state = .ok state'

variable {next start : Nat} {element : PayloadType} {value : V} {state state' : σ}

theorem traced_elements {elements : List PayloadType}
    (traced : ∀ ty ∈ elements, Traced source visit put ty) {index : Nat} :
    visitElements source visit elements value index start state = .ok (next, state') ↔
      ∃ members, elementsRead source elements value index members ∧
        next = start + (elements.map leafCount).sum ∧
        (elementsTrace elements members start).foldlM put state = .ok state' := by
  induction elements generalizing index start state with
  | nil =>
    simp only [visitElements, elementsRead, elementsTrace, Except.ok.injEq, Prod.mk.injEq,
      List.map_nil, List.sum_nil, Nat.add_zero, exists_eq_left, List.foldlM_nil, pure, Except.pure]
    rw [eq_comm (a := start)]
  | cons ty elements ih =>
    simp only [visitElements, bind_ok_iff, okOr_ok_iff, elementsRead, List.map_cons, List.sum_cons]
    constructor
    · rintro ⟨part, found, ⟨between, state''⟩, visited, later⟩
      obtain ⟨tree, reads, rfl, stored⟩ := (traced ty (by simp) _ _ _ _ _).mp visited
      obtain ⟨members, readsLater, rfl, storedLater⟩ :=
        (ih fun ty mem => traced ty (by simp [mem])).mp later
      refine ⟨tree :: members, ⟨part, tree, members, rfl, found, reads, readsLater⟩,
        Nat.add_assoc _ _ _, ?_⟩
      rw [elementsTrace, List.foldlM_append, bind_ok_iff]
      exact ⟨state'', stored, storedLater⟩
    · rintro ⟨_, ⟨part, tree, members, rfl, found, reads, readsLater⟩, rfl, stored⟩
      rw [elementsTrace, List.foldlM_append, bind_ok_iff] at stored
      obtain ⟨state'', stored, storedLater⟩ := stored
      exact ⟨part, found, (start + leafCount ty, state''),
        (traced ty (by simp) _ _ _ _ _).mpr ⟨tree, reads, rfl, stored⟩,
        (ih fun ty mem => traced ty (by simp [mem])).mpr
          ⟨members, readsLater, (Nat.add_assoc _ _ _).symm, storedLater⟩⟩

theorem traced_fields {fields : List PayloadField}
    (traced : ∀ field ∈ fields, Traced source visit put field.ty) {index : Nat} :
    visitFields source visit fields value index start state = .ok (next, state') ↔
      ∃ members, fieldsRead source fields value index members ∧
        next = start + leafCount.fieldsLeafCount fields ∧
        (fieldsTrace fields members start).foldlM put state = .ok state' := by
  induction fields generalizing index start state with
  | nil =>
    simp only [visitFields, fieldsRead, fieldsTrace, Except.ok.injEq, Prod.mk.injEq,
      leafCount.fieldsLeafCount, Nat.add_zero, exists_eq_left, List.foldlM_nil, pure, Except.pure]
    rw [eq_comm (a := start)]
  | cons field fields ih =>
    obtain ⟨name, ty, default⟩ := field
    have tracedHere : Traced source visit put ty := traced (.mk name ty default) (by simp)
    simp only [visitFields, bind_ok_iff, okOr_ok_iff, fieldsRead, leafCount.fieldsLeafCount]
    constructor
    · rintro ⟨part, found, ⟨between, state''⟩, visited, later⟩
      obtain ⟨tree, reads, rfl, stored⟩ := (tracedHere _ _ _ _ _).mp visited
      obtain ⟨members, readsLater, rfl, storedLater⟩ :=
        (ih fun field mem => traced field (by simp [mem])).mp later
      refine ⟨tree :: members, ⟨part, tree, members, rfl, found, reads, readsLater⟩,
        Nat.add_assoc _ _ _, ?_⟩
      rw [fieldsTrace, List.foldlM_append, bind_ok_iff]
      exact ⟨state'', stored, storedLater⟩
    · rintro ⟨_, ⟨part, tree, members, rfl, found, reads, readsLater⟩, rfl, stored⟩
      rw [fieldsTrace, List.foldlM_append, bind_ok_iff] at stored
      obtain ⟨state'', stored, storedLater⟩ := stored
      exact ⟨part, found, (start + leafCount ty, state''),
        (tracedHere _ _ _ _ _).mpr ⟨tree, reads, rfl, stored⟩,
        (ih fun field mem => traced field (by simp [mem])).mpr
          ⟨members, readsLater, (Nat.add_assoc _ _ _).symm, storedLater⟩⟩

/-- The elements of an array or a slice. -/
theorem traced_run (traced : Traced source visit put element) {indices : List Nat} :
    indices.foldlM (fun (step : Nat × σ) index => do
        let member ← okOr .invalidValue (source.member value index none)
        visitValues source visit element member start step.2) (start + leafCount element, state) =
        .ok (next, state') ↔
      ∃ members, List.Forall₂ (fun index member => ∃ part,
          source.member value index none = some part ∧ element.Reads source part member)
          indices members ∧ next = start + leafCount element ∧
        (members.flatMap fun member => trace element member start).foldlM put state =
          .ok state' := by
  induction indices generalizing state with
  | nil =>
    simp only [List.foldlM_nil, pure, Except.pure, Except.ok.injEq, Prod.mk.injEq,
      List.forall₂_nil_left_iff, exists_eq_left, List.flatMap_nil]
    rw [eq_comm (a := start + leafCount element)]
  | cons index indices ih =>
    simp only [List.foldlM_cons, bind_ok_iff, okOr_ok_iff, List.forall₂_cons_left_iff]
    constructor
    · rintro ⟨⟨between, state''⟩, ⟨part, found, visited⟩, later⟩
      obtain ⟨tree, reads, rfl, stored⟩ := (traced _ _ _ _ _).mp visited
      obtain ⟨members, readsLater, rfl, storedLater⟩ := ih.mp later
      refine ⟨tree :: members, ⟨tree, members, ⟨part, found, reads⟩, readsLater, rfl⟩, rfl, ?_⟩
      rw [List.flatMap_cons, List.foldlM_append, bind_ok_iff]
      exact ⟨state'', stored, storedLater⟩
    · rintro ⟨_, ⟨tree, members, ⟨part, found, reads⟩, readsLater, rfl⟩, rfl, stored⟩
      rw [List.flatMap_cons, List.foldlM_append, bind_ok_iff] at stored
      obtain ⟨state'', stored, storedLater⟩ := stored
      exact ⟨(start + leafCount element, state''), ⟨part, found,
        (traced _ _ _ _ _).mpr ⟨tree, reads, rfl, stored⟩⟩,
        ih.mpr ⟨members, readsLater, rfl, storedLater⟩⟩

include visits

theorem traced_scalar (encoding : ScalarEncoding) (range : Option IntegerRangeMetadata) :
    Traced source visit put (.scalar encoding range) := by
  intro value start next state state'
  simp only [visitValues, bind_ok_iff, Except.ok.injEq, Prod.mk.injEq, visits, PayloadType.Reads,
    leafCount, trace, List.foldlM_cons, List.foldlM_nil, pure, Except.pure]
  constructor
  · rintro ⟨_, ⟨scalar, written, stored⟩, rfl, rfl⟩
    exact ⟨.scalar scalar, ⟨rfl, written⟩, rfl, _, stored, rfl⟩
  · rintro ⟨tree, ⟨-, written⟩, rfl, _, stored, rfl⟩
    exact ⟨_, ⟨tree.bytes, written, stored⟩, rfl, rfl⟩

/-- **Visits.** A visit succeeds when the value reads as a tree whose scalars can all be
stored. -/
theorem PayloadType.Plain.traced {ty : PayloadType} (plain : ty.Plain) :
    Traced source visit put ty := by
  induction plain with
  | scalar encoding range => exact traced_scalar visits encoding range
  | tuple elements scalars =>
    have traced : ∀ ty ∈ elements, Traced source visit put ty := by
      intro ty mem
      have scalar := scalars ty mem
      cases ty with
      | scalar encoding range => exact traced_scalar visits encoding range
      | tuple | struct | array | slice => cases scalar
    have counted : (elements.map leafCount).sum = elements.length := by
      clear traced
      induction elements with
      | nil => rfl
      | cons ty elements ih =>
        have scalar := scalars ty (by simp)
        rw [List.map_cons, List.sum_cons, ih fun ty mem => scalars ty (by simp [mem])]
        cases ty with
        | scalar encoding range => rw [leafCount, List.length_cons, Nat.add_comm]
        | tuple | struct | array | slice => cases scalar
    intro value start next state state'
    simp only [visitValues, bind_ok_iff, refuseIf_ok_iff, exists_const, not_not,
      traced_elements traced, PayloadType.Reads, leafCount, trace, counted]
    constructor
    · rintro ⟨wide, members, reads, rfl, stored⟩
      exact ⟨.aggregate members, ⟨rfl, wide, reads⟩, rfl, stored⟩
    · rintro ⟨tree, ⟨-, wide, reads⟩, rfl, stored⟩
      exact ⟨wide, tree.members, reads, rfl, stored⟩
  | struct name fields plain traced =>
    intro value start next state state'
    simp only [visitValues, bind_ok_iff, refuseIf_ok_iff, exists_const, not_not,
      traced_fields traced, PayloadType.Reads, leafCount, trace]
    constructor
    · rintro ⟨wide, members, reads, rfl, stored⟩
      exact ⟨.aggregate members, ⟨rfl, wide, reads⟩, rfl, stored⟩
    · rintro ⟨tree, ⟨-, wide, reads⟩, rfl, stored⟩
      exact ⟨wide, tree.members, reads, rfl, stored⟩
  | array element len nonempty plain traced =>
    intro value start next state state'
    simp only [visitValues, bind_ok_iff, refuseIf_ok_iff, okOr_ok_iff, exists_const, not_not,
      PayloadType.Reads, leafCount, trace]
    constructor
    · rintro ⟨_, wide, rfl, visited⟩
      obtain ⟨members, reads, rfl, stored⟩ := (traced_run traced).mp visited
      exact ⟨.aggregate members, ⟨rfl, wide, reads⟩, rfl, stored⟩
    · rintro ⟨tree, ⟨-, wide, reads⟩, rfl, stored⟩
      exact ⟨len, wide, rfl, (traced_run traced).mpr ⟨tree.members, reads, rfl, stored⟩⟩

/-- A slice of plain elements is visited like an array. -/
theorem traced_slice (plain : element.Plain) :
    Traced source visit put (.slice element) := by
  have traced := plain.traced visits
  intro value start next state state'
  simp only [visitValues, bind_ok_iff, okOr_ok_iff, PayloadType.Reads, leafCount, trace]
  constructor
  · rintro ⟨len, wide, visited⟩
    obtain ⟨members, reads, rfl, stored⟩ := (traced_run traced).mp visited
    have counted : members.length = len := by
      rw [← reads.length_eq, List.length_range]
    exact ⟨.aggregate members, ⟨rfl, by rw [wide, ← counted]; rfl, by rw [← counted] at reads; exact reads⟩,
      rfl, stored⟩
  · rintro ⟨tree, ⟨-, wide, reads⟩, rfl, stored⟩
    exact ⟨_, wide, (traced_run traced).mpr ⟨tree.members, reads, rfl, stored⟩⟩

end Visit

end Onda.Payload
