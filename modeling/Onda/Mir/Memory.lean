import Mathlib.Tactic.Common
import Onda.Mir.Ir

/-!
# Storage

Storage is a set of objects, one for each local of each activation and one for
each piece of state, interface or constant storage.  An object is a tree of
cells; the memory stores the leaves of that tree by their path, so an aggregate
is the set of its leaves and a partial write is a write of fewer of them.

**A cell that was never written is absent.**  Nothing removes a cell:
`Memory.write_isSome` is the reason why a fact of the form "this cell has been
written" is never lost.

A `Loc` is storage of a type: a whole subtree, a window into an array, or a
scalar seen as an array of length one.  A `SliceDesc` is what a slice local
holds at run time.
-/

namespace Onda.Mir

/-- A route from the root of an object to one of its cells. -/
abbrev Path := List Nat

/-- Storage objects.  Every activation of a function owns fresh objects for its
locals and for the arguments it receives by value. -/
inductive Object where
  | localVar (activation : Nat) (localId : LocalId)
  | argument (activation : Nat) (parameter : ParameterId)
  | state (state : StateId)
  | param (param : ParamId)
  | eventParam (param : EventParamId)
  | payload (param : EventParamId)
  | buffer (buffer : BufferId)
  | constData (data : ConstDataId)
  | input (input : InputId)
  | output (output : OutputId)
deriving DecidableEq, Repr

/-- Storage that only exists while an activation runs. -/
def Object.activation? : Object → Option Nat
  | .localVar activation _ | .argument activation _ => some activation
  | _ => none

/-- A slice descriptor: `len` elements from `start`, `stride` apart, of the
array of scalars at `path` in `object`.  A `single` descriptor denotes the
scalar at `path` itself. -/
structure SliceDesc where
  object : Object
  path : Path
  single : Bool
  start : Nat
  stride : Nat
  len : Nat
  element : ScalarType
  /-- The descriptor of an unbound buffer: reads are zero, stores are lost. -/
  neutral : Bool := false
deriving DecidableEq, Repr

/-- Where element `index` of a slice lives. -/
def SliceDesc.elementPath (slice : SliceDesc) (index : Nat) : Path :=
  if slice.single then slice.path
  else slice.path ++ [slice.start + index * slice.stride]

/-- What a cell can hold. -/
inductive Leaf where
  | scalar (value : ScalarValue)
  | slice (desc : SliceDesc)
  | buffer (buffer : BufferId)
  | span (first : BufferId) (len : Nat)
deriving DecidableEq, Repr

inductive LeafKind where
  | scalar (scalar : ScalarType)
  | slice (element : ScalarType)
  | buffer
  | span
deriving DecidableEq, Repr

def Leaf.kind : Leaf → LeafKind
  | .scalar value => .scalar value.ty
  | .slice desc => .slice desc.element
  | .buffer _ => .buffer
  | .span .. => .span

/-- A value at run time: its leaves, by path. -/
abbrev Data := List (Path × Leaf)

/-- The value of a single leaf. -/
def Data.leaf (leaf : Leaf) : Data := [([], leaf)]

/-- The shape of a value: which leaves it has. -/
def Data.shape (data : Data) : List (Path × LeafKind) :=
  data.map fun entry => (entry.1, entry.2.kind)

/-! ### Locations -/

/-- How the subtree at a location is seen. -/
inductive View where
  | whole
  /-- An array starting at element `start` of the array stored there. -/
  | window (start : Nat)
  /-- An array of length one made of the scalar stored there. -/
  | single
deriving DecidableEq, Repr

/-- Typed storage. -/
structure Loc where
  object : Object
  path : Path
  view : View
  ty : TypeId
  /-- The storage was reached through a slice descriptor. -/
  viaSlice : Bool := false
  /-- Storage of an unbound buffer. -/
  neutral : Bool := false
  /-- The reference parameters the storage was passed through, innermost
  first. -/
  through : List (Nat × ParameterId) := []
deriving DecidableEq, Repr

namespace Loc

/-- The path inside the object of a path inside the location. -/
def cell (loc : Loc) (path : Path) : Path :=
  match loc.view, path with
  | .whole, _ => loc.path ++ path
  | .window start, index :: rest => loc.path ++ (start + index) :: rest
  | .window _, [] => loc.path
  | .single, _ :: rest => loc.path ++ rest
  | .single, [] => loc.path

/-- A component of a location. -/
def child (loc : Loc) (index : Nat) (ty : TypeId) : Loc :=
  { loc with path := loc.cell [index], view := .whole, ty := ty }

@[simp] theorem child_object (loc : Loc) (index : Nat) (ty : TypeId) :
    (loc.child index ty).object = loc.object := rfl

@[simp] theorem child_viaSlice (loc : Loc) (index : Nat) (ty : TypeId) :
    (loc.child index ty).viaSlice = loc.viaSlice := rfl

@[simp] theorem child_ty (loc : Loc) (index : Nat) (ty : TypeId) :
    (loc.child index ty).ty = ty := rfl

/-- Paths of a component are paths of the whole. -/
theorem child_cell (loc : Loc) (index : Nat) (ty : TypeId) (path : Path) :
    (loc.child index ty).cell path = loc.cell (index :: path) := by
  cases view : loc.view <;> simp [child, cell, view]

/-- The array part of a location that starts at element `start`. -/
def window (loc : Loc) (start : Nat) (ty : TypeId) : Loc :=
  match loc.view with
  | .whole => { loc with view := .window start, ty := ty }
  | .window first => { loc with view := .window (first + start), ty := ty }
  | .single => { loc with ty := ty }

@[simp] theorem window_object (loc : Loc) (start : Nat) (ty : TypeId) :
    (loc.window start ty).object = loc.object := by
  unfold window; split <;> rfl

@[simp] theorem window_viaSlice (loc : Loc) (start : Nat) (ty : TypeId) :
    (loc.window start ty).viaSlice = loc.viaSlice := by
  unfold window; split <;> rfl

end Loc

/-! ### Memory -/

abbrev Memory := Object → Path → Option Leaf

/-- One store: absolute cells of one object, with what is known about how the
storage was reached. -/
structure Write where
  object : Object
  cells : Data
  viaSlice : Bool := false
  neutral : Bool := false
  through : List (Nat × ParameterId) := []
  /-- The stored value was produced by `ProcessFrame`. -/
  processFrame : Bool := false
deriving DecidableEq, Repr

/-- The store changes the memory: a store to an unbound buffer is lost. -/
def Write.effective (store : Write) : Bool := !store.neutral && !store.cells.isEmpty

namespace Memory

def set (memory : Memory) (object : Object) (path : Path) (leaf : Leaf) : Memory :=
  fun other place => if other = object ∧ place = path then some leaf else memory other place

theorem set_object_ne {memory : Memory} {object other : Object} (path place : Path)
    (leaf : Leaf) (differ : other ≠ object) :
    memory.set object path leaf other place = memory other place := by
  simp [set, differ]

/-- All cells of one object. -/
def setAll (memory : Memory) (object : Object) (cells : Data) : Memory :=
  cells.foldl (fun memory cell => memory.set object cell.1 cell.2) memory

/-- A store; a store to an unbound buffer is lost. -/
def write (memory : Memory) (store : Write) : Memory :=
  if store.neutral then memory else memory.setAll store.object store.cells

theorem setAll_object_ne {memory : Memory} {object other : Object} (cells : Data)
    (path : Path) (differ : other ≠ object) :
    memory.setAll object cells other path = memory other path := by
  induction cells generalizing memory with
  | nil => rfl
  | cons cell rest ih =>
    rw [setAll, List.foldl_cons, ← setAll, ih, set_object_ne _ _ _ differ]

theorem write_object_ne {memory : Memory} {store : Write} {other : Object}
    (path : Path) (differ : other ≠ store.object) :
    memory.write store other path = memory other path := by
  unfold write
  split
  · rfl
  · exact setAll_object_ne _ _ differ

end Memory

end Onda.Mir
