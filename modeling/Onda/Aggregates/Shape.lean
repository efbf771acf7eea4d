import Onda.Aggregates.Declarations
import Onda.Lib.Separated
import Onda.Project.PathKeys

/-!
# Shapes and their leaves

The shape of a struct has its nested structs resolved.  The common planner lists its leaves, with
the fixed extents around each of them as axes.
-/

namespace Onda.Aggregates

open Onda.Frontend (PrimitiveType)
open Onda.Project (decimal)
open Separated (Below Clash)

/-- `PayloadType`, without ranges and defaults. -/
inductive PayloadType where
  | scalar (encoding : PrimitiveType)
  | tuple (elements : List PayloadType)
  | struct (name : Name) (fields : List (Name × PayloadType))
  | array (element : PayloadType) (len : Nat)
  | slice (element : PayloadType)

namespace PayloadType

def isScalar : PayloadType → Bool
  | .scalar _ => true
  | _ => false

/-- `layout::array_element`. -/
def arrayElement : PayloadType → Bool
  | .scalar _ | .struct _ _ => true
  | _ => false

end PayloadType

/-- `PayloadLeaf`. -/
structure PayloadLeaf where
  path : Name
  encoding : PrimitiveType
  shape : List Nat
deriving DecidableEq

/-- `child_path`. -/
def childPath (parent child : Name) : Name :=
  if parent = [] then child else parent ++ dot :: child

/-- `__` and a number. -/
def tupleName (index : Nat) : Name := 95 :: 95 :: decimal index

/-- `layout::unique_fields`. -/
def uniqueFields (fields : List (Name × PayloadType)) : Bool :=
  fields.all (fun field => field.1 ≠ []) && decide ((fields.map Prod.fst).Nodup)

/-- A type with the path to it, and the extents around it. -/
structure Pending where
  ty : PayloadType
  path : Name
  shape : List Nat

/-- The elements of a tuple, with their paths. -/
def tupleItems (elements : List PayloadType) (path : Name) (shape : List Nat) : List Pending :=
  elements.zipIdx.map fun entry => ⟨entry.1, childPath path (tupleName entry.2), shape⟩

/-- The fields of a struct, with their paths. -/
def structItems (fields : List (Name × PayloadType)) (path : Name) (shape : List Nat) : List Pending :=
  fields.map fun field => ⟨field.2, childPath path field.1, shape⟩

/-- The loop of `leaves`, the next pending type first: `none` when it is out of fuel, and an error for
an invalid schema. -/
def leavesFrom : Nat → List Pending → List PayloadLeaf → Option (Option (List PayloadLeaf))
  | 0, _, _ => none
  | _ + 1, [], leaves => some (some leaves)
  | fuel + 1, item :: pending, leaves =>
    match item.ty with
    | .scalar encoding => leavesFrom fuel pending (leaves ++ [⟨item.path, encoding, item.shape⟩])
    | .tuple elements =>
      if elements = [] ∨ ¬elements.all PayloadType.isScalar then some none
      else
        leavesFrom fuel (tupleItems elements item.path item.shape ++ pending) leaves
    | .struct name fields =>
      if name = [] ∨ fields = [] ∨ ¬uniqueFields fields then some none
      else
        leavesFrom fuel (structItems fields item.path item.shape ++ pending) leaves
    | .array element len =>
      if len = 0 ∨ ¬element.arrayElement then some none
      else leavesFrom fuel (⟨element, item.path, item.shape ++ [len]⟩ :: pending) leaves
    | .slice _ => some none

mutual

/-- The types within a type. -/
def PayloadType.nodes : PayloadType → Nat
  | .scalar _ => 1
  | .tuple elements => 1 + nodesOfElements elements
  | .struct _ fields => 1 + nodesOfFields fields
  | .array element _ => 1 + element.nodes
  | .slice element => 1 + element.nodes

def nodesOfElements : List PayloadType → Nat
  | [] => 0
  | element :: elements => element.nodes + nodesOfElements elements

def nodesOfFields : List (Name × PayloadType) → Nat
  | [] => 0
  | field :: fields => nodesOfField field + nodesOfFields fields

def nodesOfField : Name × PayloadType → Nat
  | (_, ty) => ty.nodes

end

/-- `leaves`. -/
def PayloadType.leaves (ty : PayloadType) : Option (Option (List PayloadLeaf)) :=
  leavesFrom (ty.nodes + 1) [⟨ty, [], []⟩] []

mutual

/-- The leaves of a type, slices apart. -/
def PayloadType.leafCount : PayloadType → Nat
  | .scalar _ => 1
  | .tuple elements => leafCountOfElements elements
  | .struct _ fields => leafCountOfFields fields
  | .array element _ => element.leafCount
  | .slice _ => 0

def leafCountOfElements : List PayloadType → Nat
  | [] => 0
  | element :: elements => element.leafCount + leafCountOfElements elements

def leafCountOfFields : List (Name × PayloadType) → Nat
  | [] => 0
  | field :: fields => leafCountOfField field + leafCountOfFields fields

def leafCountOfField : Name × PayloadType → Nat
  | (_, ty) => ty.leafCount

end

/-- Field names are single components. -/
inductive Clean : PayloadType → Prop where
  | scalar (encoding : PrimitiveType) : Clean (.scalar encoding)
  | tuple {elements : List PayloadType} (each : ∀ element ∈ elements, Clean element) :
      Clean (.tuple elements)
  | struct {name : Name} {fields : List (Name × PayloadType)}
      (names : ∀ field ∈ fields, dot ∉ field.1) (each : ∀ field ∈ fields, Clean field.2) :
      Clean (.struct name fields)
  | array {element : PayloadType} {len : Nat} (inner : Clean element) : Clean (.array element len)

/-! ### Paths -/

/-- Paths none of which is another one, above or below another one. -/
structure Apart (paths : List Name) : Prop where
  apart : paths.Pairwise fun first second => ¬Clash dot first second
  root : [] ∈ paths → paths = [[]]

theorem Apart.perm {paths other : List Name} (apart : Apart paths) (perm : paths.Perm other) :
    Apart other := by
  refine ⟨(perm.pairwise_iff fun clash back => clash back.symm).1 apart.apart, fun mem => ?_⟩
  have single := apart.root (perm.mem_iff.2 mem)
  rw [single] at perm
  exact perm.symm.eq_singleton

/-- A name without a dot has nothing below a prefix of it. -/
theorem not_below_component {first second : Name} (free : dot ∉ second) :
    ¬first ++ [dot] <+: second := by
  intro before
  exact free (before.subset (by simp))

/-- The children of a path are apart. -/
theorem childPath_apart {path first second : Name} (different : first ≠ second)
    (firstFree : dot ∉ first) (secondFree : dot ∉ second) :
    ¬Clash dot (childPath path first) (childPath path second) := by
  have within : ∀ {left right : Name}, dot ∉ right →
      ¬Below dot (childPath path left) (childPath path right) := by
    intro left right free before
    unfold childPath Below at before
    split at before
    · exact not_below_component free before
    · have split : path ++ dot :: left ++ [dot] = path ++ ([dot] ++ (left ++ [dot])) := by simp
      have other : path ++ dot :: right = path ++ ([dot] ++ right) := by simp
      rw [split, other, List.prefix_append_right_inj, List.prefix_append_right_inj] at before
      exact not_below_component free before
  rintro (same | below | above)
  · unfold childPath at same
    split at same
    · exact different same
    · exact different (List.cons.inj (List.append_cancel_left same)).2
  · exact within secondFree below
  · exact within firstFree above

/-- What is apart from a path is apart from its children. -/
theorem childPath_outside {path other name : Name} (nonempty : path ≠ []) (free : dot ∉ name)
    (apart : ¬Clash dot path other) : ¬Clash dot (childPath path name) other := by
  unfold childPath
  rw [if_neg nonempty]
  have extends_ : path ++ [dot] <+: path ++ dot :: name := ⟨name, by simp⟩
  rintro (same | below | above)
  · exact apart (.inr (.inl (show path ++ [dot] <+: other from same ▸ extends_)))
  · exact apart (.inr (.inl (extends_.trans ((List.prefix_append _ _).trans below))))
  · -- The other path ends within the path, or it has a dot in the name.
    have above : other ++ [dot] <+: path ++ dot :: name := above
    rcases Nat.lt_or_ge path.length other.length with longer | shorter
    · have split : path ++ [dot] <+: other ++ [dot] :=
        List.prefix_of_prefix_length_le extends_ above (by simp; omega)
      obtain ⟨rest, same⟩ := split
      obtain ⟨tail, whole⟩ := above
      rw [← same, List.append_assoc, List.append_assoc] at whole
      have inner : rest ++ tail = name := by simpa using List.append_cancel_left whole
      have last : rest ≠ [] := by
        rintro rfl
        have lengths := congrArg List.length same
        simp at lengths
        omega
      have dotted : dot ∈ rest := by
        have ends : (path ++ [dot] ++ rest).getLast? = (other ++ [dot]).getLast? := by rw [same]
        rw [List.getLast?_append_of_ne_nil _ last, List.getLast?_concat] at ends
        exact List.mem_of_getLast? ends
      exact free (inner ▸ List.mem_append_left _ dotted)
    · have inside : other ++ [dot] <+: path ++ [dot] :=
        List.prefix_of_prefix_length_le above extends_ (by simp; omega)
      rcases Nat.lt_or_ge other.length path.length with less | equal
      · have below : other ++ [dot] <+: path :=
          List.prefix_of_prefix_length_le inside (List.prefix_append _ _) (by simp; omega)
        exact apart (.inr (.inr below))
      · have same : other ++ [dot] = path ++ [dot] := inside.eq_of_length (by simp; omega)
        exact apart (.inl (List.append_cancel_right same).symm)

theorem childPath_ne_nil {path name : Name} (nonempty : name ≠ []) : childPath path name ≠ [] := by
  unfold childPath
  split
  · exact nonempty
  · simp

/-- A path is replaced by its children. -/
theorem Apart.children {path : Name} {names rest : List Name} (apart : Apart (path :: rest))
    (distinct : names.Nodup) (free : ∀ name ∈ names, dot ∉ name) (nonempty : ∀ name ∈ names, name ≠ []) :
    Apart (names.map (childPath path) ++ rest) := by
  obtain ⟨outside, among⟩ := List.pairwise_cons.1 apart.apart
  refine ⟨List.pairwise_append.2 ⟨?_, among, ?_⟩, fun mem => ?_⟩
  · refine List.pairwise_map.2 (distinct.imp_of_mem fun first second different => ?_)
    exact childPath_apart different (free _ first) (free _ second)
  · intro child mem other inside
    obtain ⟨name, listed, rfl⟩ := List.mem_map.1 mem
    refine childPath_outside ?_ (free name listed) (outside other inside)
    rintro rfl
    have single := apart.root List.mem_cons_self
    rw [(List.cons.inj single).2] at inside
    cases inside
  · rcases List.mem_append.1 mem with mem | mem
    · obtain ⟨name, listed, empty⟩ := List.mem_map.1 mem
      exact absurd empty (childPath_ne_nil (nonempty name listed))
    · have single := apart.root (List.mem_cons_of_mem _ mem)
      rw [(List.cons.inj single).2] at mem
      cases mem

theorem dot_not_mem_tupleName (index : Nat) : dot ∉ tupleName index := by
  intro mem
  have digit : dot ∈ decimal index := by simpa [tupleName, dot] using mem
  exact absurd (Project.decimal_digit digit).1 (by decide)

theorem tupleName_injective : Function.Injective tupleName := by
  intro first second same
  exact Project.decimal_injective (List.cons.inj (List.cons.inj same).2).2

/-! ### The planner -/

theorem nodesOfElements_eq (elements : List PayloadType) :
    nodesOfElements elements = (elements.map PayloadType.nodes).sum := by
  induction elements with
  | nil => rw [nodesOfElements, List.map_nil, List.sum_nil]
  | cons element elements ih => rw [nodesOfElements, ih, List.map_cons, List.sum_cons]

theorem nodesOfFields_eq (fields : List (Name × PayloadType)) :
    nodesOfFields fields = (fields.map fun field => field.2.nodes).sum := by
  induction fields with
  | nil => rw [nodesOfFields, List.map_nil, List.sum_nil]
  | cons field fields ih => rw [nodesOfFields, nodesOfField, ih, List.map_cons, List.sum_cons]

theorem leafCountOfElements_eq (elements : List PayloadType) :
    leafCountOfElements elements = (elements.map PayloadType.leafCount).sum := by
  induction elements with
  | nil => rw [leafCountOfElements, List.map_nil, List.sum_nil]
  | cons element elements ih => rw [leafCountOfElements, ih, List.map_cons, List.sum_cons]

theorem leafCountOfFields_eq (fields : List (Name × PayloadType)) :
    leafCountOfFields fields = (fields.map fun field => field.2.leafCount).sum := by
  induction fields with
  | nil => rw [leafCountOfFields, List.map_nil, List.sum_nil]
  | cons field fields ih => rw [leafCountOfFields, leafCountOfField, ih, List.map_cons, List.sum_cons]

/-- A measure of what is left to plan. -/
def total (measure : PayloadType → Nat) (pending : List Pending) : Nat :=
  (pending.map fun item => measure item.ty).sum

theorem total_cons (measure : PayloadType → Nat) (item : Pending) (pending : List Pending) :
    total measure (item :: pending) = measure item.ty + total measure pending := by
  rw [total, List.map_cons, List.sum_cons]
  rfl

theorem total_tupleItems (measure : PayloadType → Nat) (elements : List PayloadType) (path : Name)
    (shape : List Nat) (pending : List Pending) :
    total measure (tupleItems elements path shape ++ pending)
      = (elements.map measure).sum + total measure pending := by
  unfold total tupleItems
  rw [List.map_append, List.sum_append, List.map_map]
  congr 2
  conv_rhs => rw [← List.zipIdx_map_fst 0 elements, List.map_map]
  rfl

theorem total_structItems (measure : PayloadType → Nat) (fields : List (Name × PayloadType))
    (path : Name) (shape : List Nat) (pending : List Pending) :
    total measure (structItems fields path shape ++ pending)
      = (fields.map fun field => measure field.2).sum + total measure pending := by
  unfold total structItems
  rw [List.map_append, List.sum_append, List.map_map]
  rfl

/-- The paths of leaves and of what is pending. -/
def paths (pending : List Pending) (leaves : List PayloadLeaf) : List Name :=
  pending.map Pending.path ++ leaves.map PayloadLeaf.path

theorem paths_tupleItems (elements : List PayloadType) (path : Name) (shape : List Nat)
    (pending : List Pending) (leaves : List PayloadLeaf) :
    paths (tupleItems elements path shape ++ pending) leaves
      = ((List.range elements.length).map tupleName).map (childPath path) ++ paths pending leaves := by
  unfold paths tupleItems
  rw [List.map_append, List.append_assoc, List.map_map, List.map_map, List.range_eq_range',
    ← List.zipIdx_map_snd 0 elements, List.map_map]
  rfl

theorem paths_structItems (fields : List (Name × PayloadType)) (path : Name) (shape : List Nat)
    (pending : List Pending) (leaves : List PayloadLeaf) :
    paths (structItems fields path shape ++ pending) leaves
      = (fields.map Prod.fst).map (childPath path) ++ paths pending leaves := by
  unfold paths structItems
  rw [List.map_append, List.append_assoc, List.map_map, List.map_map]
  rfl

/-- What the planner ends with: `count` leaves with different paths, unless the schema is invalid. -/
def Planned (count : Nat) : Option (List PayloadLeaf) → Prop
  | none => True
  | some leaves => (leaves.map PayloadLeaf.path).Nodup ∧ leaves.length = count

theorem leavesFrom_spec {fuel : Nat} {pending : List Pending} {leaves : List PayloadLeaf}
    (enough : total PayloadType.nodes pending < fuel) (clean : ∀ item ∈ pending, Clean item.ty)
    (apart : Apart (paths pending leaves)) :
    ∃ result, leavesFrom fuel pending leaves = some result
      ∧ Planned (leaves.length + total PayloadType.leafCount pending) result := by
  induction fuel generalizing pending leaves with
  | zero => exact absurd enough (Nat.not_lt_zero _)
  | succ fuel ih =>
    cases pending with
    | nil =>
      refine ⟨some leaves, rfl, ?_, rfl⟩
      have leavesApart : (leaves.map PayloadLeaf.path).Pairwise fun first second =>
          ¬Clash dot first second := apart.apart
      exact leavesApart.imp fun clash same => clash (.inl same)
    | cons item pending =>
      obtain ⟨here, others⟩ := List.forall_mem_cons.1 clean
      obtain ⟨ty, path, shape⟩ := item
      have whole : paths (⟨ty, path, shape⟩ :: pending) leaves = path :: paths pending leaves := rfl
      rw [total_cons] at enough ⊢
      rw [whole] at apart
      unfold leavesFrom
      dsimp only at here enough ⊢
      cases here with
      | scalar encoding =>
        rw [PayloadType.nodes] at enough
        have next := @ih pending (leaves ++ [⟨path, encoding, shape⟩]) (by omega) others
          (apart.perm (by
            unfold paths
            rw [List.map_append, ← List.append_assoc, List.map_singleton]
            exact (List.perm_append_singleton path _).symm))
        rwa [List.length_append, List.length_singleton, Nat.add_assoc] at next
      | @tuple elements each =>
        dsimp only
        split
        · exact ⟨none, rfl, trivial⟩
        · rw [PayloadType.nodes, nodesOfElements_eq] at enough
          rw [PayloadType.leafCount, leafCountOfElements_eq, ← total_tupleItems _ _ path shape]
          refine ih ?_ ?_ ?_
          · rw [total_tupleItems]
            omega
          · intro item mem
            rcases List.mem_append.1 mem with mem | mem
            · obtain ⟨entry, listed, rfl⟩ := List.mem_map.1 mem
              exact each entry.1 (List.fst_mem_of_mem_zipIdx listed)
            · exact others item mem
          · rw [paths_tupleItems]
            refine apart.children (List.nodup_range.map tupleName_injective) ?_ ?_
            · intro name mem
              obtain ⟨index, -, rfl⟩ := List.mem_map.1 mem
              exact dot_not_mem_tupleName index
            · intro name mem
              obtain ⟨index, -, rfl⟩ := List.mem_map.1 mem
              exact List.cons_ne_nil _ _
      | @struct name fields names each =>
        dsimp only
        split
        · exact ⟨none, rfl, trivial⟩
        · rename_i valid
          push Not at valid
          obtain ⟨nonempty, distinct⟩ := Bool.and_eq_true_iff.1 valid.2.2
          rw [PayloadType.nodes, nodesOfFields_eq] at enough
          rw [PayloadType.leafCount, leafCountOfFields_eq, ← total_structItems _ _ path shape]
          refine ih ?_ ?_ ?_
          · rw [total_structItems]
            omega
          · intro item mem
            rcases List.mem_append.1 mem with mem | mem
            · obtain ⟨field, listed, rfl⟩ := List.mem_map.1 mem
              exact each field listed
            · exact others item mem
          · rw [paths_structItems]
            refine apart.children (of_decide_eq_true distinct) ?_ ?_
            · intro name mem
              obtain ⟨field, listed, rfl⟩ := List.mem_map.1 mem
              exact names field listed
            · intro name mem
              obtain ⟨field, listed, rfl⟩ := List.mem_map.1 mem
              exact of_decide_eq_true (List.all_eq_true.1 nonempty field listed)
      | @array element len inner =>
        dsimp only
        split
        · exact ⟨none, rfl, trivial⟩
        · rw [PayloadType.nodes] at enough
          have next := @ih (⟨element, path, shape ++ [len]⟩ :: pending) leaves
            (by rw [total_cons]; dsimp only; omega) (List.forall_mem_cons.2 ⟨inner, others⟩) apart
          rwa [total_cons] at next

/-- **Leaves.** The planner ends, and no two leaves have one path. -/
theorem PayloadType.leaves_spec {ty : PayloadType} (clean : Clean ty) :
    ∃ result, ty.leaves = some result ∧ Planned ty.leafCount result := by
  have planned := @leavesFrom_spec (ty.nodes + 1) [⟨ty, [], []⟩] [] (Nat.lt_succ_self _)
    (List.forall_mem_singleton.2 clean) ⟨List.pairwise_singleton _ _, fun _ => rfl⟩
  rwa [total_cons, List.length_nil, Nat.zero_add] at planned

end Onda.Aggregates
