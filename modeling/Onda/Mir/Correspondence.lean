import Onda.Lib.Refinement
import Onda.Mir.Reindex
import Onda.Mir.Semantics

/-!
# Corresponding storage

Two programs that differ in the locals and parameters of their functions own
different storage.  A `World` says, for each activation so far, which of its
locals and arguments correspond to which of the other program's; shared storage
corresponds to itself.  Corresponding storage holds corresponding content, and
storage without a counterpart may hold anything.

Worlds grow as activations start.  Everything defined here is kept by later
worlds, since an activation never changes its correspondence.
-/

namespace Onda.Mir

open Structured

/-- A mapping that keeps different ids different. -/
structure Embedding extends Mapping where
  writes_of_locals : ∀ localId id, locals localId = some id → writes localId = some id
  writes_inj : ∀ first second id, writes first = some id → writes second = some id →
    first = second
  params_inj : ∀ first second id, params first = some id → params second = some id →
    first = second

theorem Embedding.locals_inj (embedding : Embedding) {first second id : LocalId}
    (one : embedding.locals first = some id) (two : embedding.locals second = some id) :
    first = second :=
  embedding.writes_inj first second id (embedding.writes_of_locals first id one)
    (embedding.writes_of_locals second id two)

/-- The correspondence of the storage of all activations so far. -/
structure World where
  next : Nat
  embedding : Nat → Embedding

namespace World

instance : Preorder World where
  le world later := world.next ≤ later.next
    ∧ ∀ activation < world.next, later.embedding activation = world.embedding activation
  le_refl _ := ⟨le_rfl, fun _ _ => rfl⟩
  le_trans _ _ _ first second := ⟨first.1.trans second.1, fun activation old =>
    (second.2 activation (old.trans_le first.1)).trans (first.2 activation old)⟩

/-- Corresponding objects. -/
inductive Objects (world : World) : Object → Object → Prop
  | localVar {activation : Nat} {localId localId' : LocalId} (started : activation < world.next)
      (mapped : (world.embedding activation).locals localId = some localId') :
      Objects world (.localVar activation localId) (.localVar activation localId')
  | argument {activation : Nat} {parameter parameter' : ParameterId}
      (started : activation < world.next)
      (mapped : (world.embedding activation).params parameter = some parameter') :
      Objects world (.argument activation parameter) (.argument activation parameter')
  | shared {object : Object} (global : object.activation? = none) : Objects world object object

/-- Corresponding contents of cells: descriptors of corresponding storage. -/
inductive Leaves (world : World) : Leaf → Leaf → Prop
  | scalar (value : ScalarValue) : Leaves world (.scalar value) (.scalar value)
  | slice {desc : SliceDesc} {object : Object} (objects : world.Objects desc.object object) :
      Leaves world (.slice desc) (.slice { desc with object := object })
  | buffer (buffer : BufferId) : Leaves world (.buffer buffer) (.buffer buffer)
  | span (first : BufferId) (len : Nat) : Leaves world (.span first len) (.span first len)

/-- Corresponding values. -/
abbrev Datas (world : World) : Data → Data → Prop :=
  List.Forall₂ fun entry entry' => entry.1 = entry'.1 ∧ world.Leaves entry.2 entry'.2

/-- Corresponding objects hold corresponding content, and nothing is stored yet for
activations to come. -/
structure Memories (world : World) (memory memory' : Memory) : Prop where
  cells : ∀ object object' path, world.Objects object object' →
    Option.Rel world.Leaves (memory object path) (memory' object' path)
  fresh : ∀ object activation, object.activation? = some activation → world.next ≤ activation →
    ∀ path, memory object path = none ∧ memory' object path = none

variable {world later : World}

variable {leaf' : Leaf} {object object' : Object}

theorem Objects.mono (objects : world.Objects object object') (after : world ≤ later)
    : later.Objects object object' := by
  cases objects with
  | localVar started mapped =>
    exact .localVar (started.trans_le after.1) (by rw [after.2 _ started]; exact mapped)
  | argument started mapped =>
    exact .argument (started.trans_le after.1) (by rw [after.2 _ started]; exact mapped)
  | shared global => exact .shared global

theorem Leaves.mono {leaf : Leaf} (leaves : world.Leaves leaf leaf') (after : world ≤ later)
    : later.Leaves leaf leaf' := by
  cases leaves with
  | scalar value => exact .scalar value
  | slice objects => exact .slice (objects.mono after)
  | buffer buffer => exact .buffer buffer
  | span first len => exact .span first len

/-- An object has one counterpart at most, and is the counterpart of one. -/
theorem Objects.unique {first second : Object} (one : world.Objects first object)
    (two : world.Objects second object) : first = second := by
  cases one with
  | localVar started mapped =>
    cases two with
    | localVar _ mapped' => rw [(world.embedding _).locals_inj mapped mapped']
    | shared global => cases global
  | argument started mapped =>
    cases two with
    | argument _ mapped' => rw [(world.embedding _).params_inj _ _ _ mapped mapped']
    | shared global => cases global
  | shared global =>
    cases two with
    | localVar | argument => cases global
    | shared => rfl

theorem Objects.functional {first second : Object} (one : world.Objects object first)
    (two : world.Objects object second) : first = second := by
  cases one with
  | localVar started mapped =>
    cases two with
    | localVar _ mapped' => rw [Option.some.inj (mapped.symm.trans mapped')]
    | shared global => cases global
  | argument started mapped =>
    cases two with
    | argument _ mapped' => rw [Option.some.inj (mapped.symm.trans mapped')]
    | shared global => cases global
  | shared global =>
    cases two with
    | localVar | argument => cases global
    | shared => rfl

theorem Objects.owner (objects : world.Objects object object') :
    object'.activation? = object.activation? := by
  cases objects <;> rfl

theorem Leaves.kind {leaf : Leaf} (leaves : world.Leaves leaf leaf') :
    leaf'.kind = leaf.kind := by
  cases leaves <;> rfl

theorem Datas.shape {data data' : Data} (datas : world.Datas data data') :
    data'.shape = data.shape := by
  induction datas with
  | nil => rfl
  | cons head _ ih =>
    unfold Data.shape at ih ⊢
    rw [List.map_cons, List.map_cons, ih, head.1, head.2.kind]

theorem Datas.leaf {leaf : Leaf} (leaves : world.Leaves leaf leaf') :
    world.Datas (Data.leaf leaf) (Data.leaf leaf') :=
  .cons ⟨rfl, leaves⟩ .nil

theorem Datas.scalar (value : ScalarValue) :
    world.Datas (scalarResult value) (scalarResult value) :=
  .leaf (.scalar value)

/-! ### Stores -/

/-- Stores to corresponding storage, or to storage without a counterpart on either
side. -/
structure Writes (world : World) (store store' : Write) : Prop where
  objects : world.Objects store.object store'.object
    ∨ (∀ object, ¬world.Objects store.object object) ∧ ∀ object, ¬world.Objects object store'.object
  owner : store'.object.activation? = store.object.activation?
    ∧ ∀ activation, store.object.activation? = some activation → activation < world.next
  cells : world.Datas store.cells store'.cells
  neutral : store'.neutral = store.neutral

theorem Memories.set {memory memory' : Memory} (memories : world.Memories memory memory')
    (objects : world.Objects object object'
      ∨ (∀ other, ¬world.Objects object other) ∧ ∀ other, ¬world.Objects other object')
    (owner : object'.activation? = object.activation?
      ∧ ∀ activation, object.activation? = some activation → activation < world.next) (path : Path)
    {leaf : Leaf} (leaves : world.Leaves leaf leaf') :
    world.Memories (memory.set object path leaf) (memory'.set object' path leaf') where
  cells other other' place others := by
    unfold Memory.set
    rcases objects with objects | ⟨left, right⟩
    · by_cases same : other = object ∧ place = path
      · obtain ⟨rfl, rfl⟩ := same
        rw [if_pos ⟨rfl, rfl⟩, if_pos ⟨others.functional objects, rfl⟩]
        exact .some leaves
      · have differs : ¬(other' = object' ∧ place = path) := fun ⟨eq, samePath⟩ =>
          same ⟨(eq ▸ others).unique objects, samePath⟩
        rw [if_neg same, if_neg differs]
        exact memories.cells other other' place others
    · have differs : ¬(other = object ∧ place = path) := fun same => left other' (same.1 ▸ others)
      have differs' : ¬(other' = object' ∧ place = path) := fun same =>
        right other (same.1 ▸ others)
      rw [if_neg differs, if_neg differs']
      exact memories.cells other other' place others
  fresh other activation owned later place := by
    have old : ∀ target : Object, target.activation? = object.activation? → other ≠ target := by
      rintro target sameOwner rfl
      have := owner.2 activation (sameOwner ▸ owned)
      omega
    unfold Memory.set
    have differs : ¬(other = object ∧ place = path) := fun same => old object rfl same.1
    have differs' : ¬(other = object' ∧ place = path) := fun same => old object' owner.1 same.1
    rw [if_neg differs, if_neg differs']
    exact memories.fresh other activation owned later place

theorem Memories.write {memory memory' : Memory} (memories : world.Memories memory memory')
    {store store' : Write} (writes : world.Writes store store') :
    world.Memories (memory.write store) (memory'.write store') := by
  unfold Memory.write
  rw [writes.neutral]
  split
  · exact memories
  · have cells := writes.cells
    unfold Memory.setAll
    generalize store.cells = data at cells
    generalize store'.cells = data' at cells
    induction cells generalizing memory memory' with
    | nil => exact memories
    | cons head _ ih =>
      rw [List.foldl_cons, List.foldl_cons, ← head.1]
      exact ih (memories.set writes.objects writes.owner _ head.2)

end World

end Onda.Mir
