import Onda.Mir.Correspondence

/-!
# Corresponding evaluations

In corresponding memories, an operand, a place or an rvalue and its rewritten form
evaluate to corresponding values, emit the same visible events and fail alike.
There is one lemma for each function that evaluates.
-/

namespace Onda.Mir

open Structured Structured.Eval

/-! ### What is visible -/

/-- Ways to stop that give a run no meaning: a producer's promise is broken, or the
program is not one that the validator accepts. -/
def Stop.Escapes : Stop → Prop
  | .undefined | .uninitialized | .stuck => True
  | .failure | .outOfFuel => False

/-- A descriptor of storage that only exists while an activation runs shows
nothing. -/
def Leaf.observed : Leaf → Option Leaf
  | .slice desc => if desc.object.activation?.isSome then none else some (.slice desc)
  | leaf => some leaf

def Data.observed (data : Data) : List (Path × Option Leaf) :=
  data.map fun entry => (entry.1, entry.2.observed)

/-- The events that leave the program: publications, and stores to storage that
outlives a run. -/
inductive Visible where
  | delegate (delegate : DelegateId) (payload : List (List (Path × Option Leaf)))
  | log (site : LogSiteId) (payload : List (List (Path × Option Leaf)))
  | store (object : Object) (cells : List (Path × Option Leaf))

def Observation.visible : Observation → Option Visible
  | .read .. => none
  | .delegate id payload => some (.delegate id (payload.map Data.observed))
  | .log site payload => some (.log site (payload.map Data.observed))

def observer : Observer Observation Stop Visible := ⟨Observation.visible, Stop.Escapes⟩

/-- A machine with other functions. -/
def Machine.withFunctions (machine : Machine) (functions : List Function) : Machine :=
  { machine with program := { machine.program with functions := functions } }

theorem leafPaths_withFunctions (program : Program) (functions : List Function) (fuel : Nat) :
    ∀ ty, Program.leafPaths { program with functions := functions } fuel ty
      = program.leafPaths fuel ty := by
  induction fuel with
  | zero => exact fun _ => rfl
  | succ fuel ih =>
    intro ty
    have same : (Program.leafPaths { program with functions := functions } fuel)
        = program.leafPaths fuel := funext ih
    simp only [Program.leafPaths, same]

@[simp] theorem shape_withFunctions (machine : Machine) (functions : List Function) (ty : TypeId) :
    (machine.withFunctions functions).program.shape ty = machine.program.shape ty :=
  leafPaths_withFunctions machine.program functions _ ty

namespace World

variable {world : World}

theorem Leaves.observed {leaf leaf' : Leaf} (leaves : world.Leaves leaf leaf') :
    leaf'.observed = leaf.observed := by
  cases leaves with
  | scalar | buffer | span => rfl
  | @slice desc object objects =>
    simp only [Leaf.observed, objects.owner]
    split
    · rfl
    case isFalse shared =>
      have same : object = desc.object := by
        cases object_eq : desc.object <;> rw [object_eq] at objects <;> cases objects <;>
          first
          | rfl
          | (rw [object_eq] at shared; exact absurd rfl shared)
      subst same
      rfl

theorem Datas.observed {data data' : Data} (datas : world.Datas data data') :
    data'.observed = data.observed := by
  induction datas with
  | nil => rfl
  | cons head _ ih =>
    unfold Data.observed at ih ⊢
    rw [List.map_cons, List.map_cons, ih, head.1, head.2.observed]

/-! ### Locations and activations -/

/-- The same location in objects that `R` relates. -/
structure Locs (R : Object → Object → Prop) (loc loc' : Loc) : Prop where
  object : R loc.object loc'.object
  path : loc'.path = loc.path
  view : loc'.view = loc.view
  ty : loc'.ty = loc.ty
  neutral : loc'.neutral = loc.neutral

/-- The same activation in both runs. -/
structure Activations (world : World) (act act' : Activation) : Prop where
  id : act'.id = act.id
  started : act.id < world.next
  kind : act'.function.kind = act.function.kind
  locals : ∀ localId localId', (world.embedding act.id).writes localId = some localId' →
    (act'.function.locals[localId']?).map Local.ty = (act.function.locals[localId]?).map Local.ty
  params : ∀ parameter parameter', (world.embedding act.id).params parameter = some parameter' →
    Option.Rel (Locs world.Objects) act.params[parameter]? act'.params[parameter']?

/-- The mapping of the ids that occur in the function of an activation. -/
def mapping (world : World) (act : Activation) : Mapping := (world.embedding act.id).toMapping

variable {R : Object → Object → Prop} {loc loc' : Loc}

theorem Locs.cell (locs : Locs R loc loc') (path : Path) : loc'.cell path = loc.cell path := by
  unfold Loc.cell
  rw [locs.view, locs.path]

theorem Locs.child (locs : Locs R loc loc') (index : Nat) (ty : TypeId) :
    Locs R (loc.child index ty) (loc'.child index ty) :=
  ⟨locs.object, locs.cell [index], rfl, rfl, locs.neutral⟩

theorem Locs.mono {later : World} (locs : Locs world.Objects loc loc') (after : world ≤ later) :
    Locs later.Objects loc loc' :=
  ⟨locs.object.mono after, locs.path, locs.view, locs.ty, locs.neutral⟩

theorem Activations.mono {later : World} {act act' : Activation}
    (acts : world.Activations act act') (after : world ≤ later) : later.Activations act act' where
  id := acts.id
  started := acts.started.trans_le after.1
  kind := acts.kind
  locals := by
    rw [after.2 _ acts.started]
    exact acts.locals
  params parameter parameter' mapped := by
    rw [after.2 _ acts.started] at mapped
    exact optionRel_imp (acts.params parameter parameter' mapped) fun _ _ locs => locs.mono after

end World

/-! ### Reading and storing -/

section Evaluation

variable {machine : Machine} {functions : List Function} {world : World} {memory memory' : Memory}
  {act act' : Activation}

variable {element element' : Element} {loc loc' : Loc} {localId localId' : LocalId}
  {object object' : Object} {desc' : SliceDesc} {value value' : Value}

theorem missing_counterpart (objects : world.Objects object object') :
    missing object' = missing object := by
  cases objects <;> rfl

theorem readCell_corresponds (memories : world.Memories memory memory')
    (objects : world.Objects object object') (path : Path) :
    Option.Rel world.Leaves (readCell machine memory object path)
      (readCell (machine.withFunctions functions) memory' object' path) := by
  have plain := memories.cells object object' path objects
  cases objects with
  | localVar | argument => exact plain
  | shared =>
    unfold readCell
    split
    case h_1 _ data index _ =>
      change Option.Rel world.Leaves
        ((machine.program.constData[data]?).bind fun data =>
          (data.values[index]?).bind fun value => some (.scalar value))
        ((machine.program.constData[data]?).bind fun data =>
          (data.values[index]?).bind fun value => some (.scalar value))
      cases machine.program.constData[data]? with
      | none => exact .none
      | some data =>
        rw [Option.bind_some]
        cases data.values[index]? with
        | none => exact .none
        | some value => exact .some (.scalar value)
    case h_2 => exact plain

theorem readLeaf_corresponds (memories : world.Memories memory memory')
    (locs : World.Locs world.Objects loc loc') (leaf : Path × LeafKind) :
    Refines observer memory memory'
      (fun entry entry' => entry.1 = entry'.1 ∧ world.Leaves entry.2 entry'.2)
      (readLeaf machine loc leaf) (readLeaf (machine.withFunctions functions) loc' leaf) := by
  unfold readLeaf
  rw [locs.neutral]
  split
  · split
    · exact .pure ⟨rfl, .scalar _⟩
    · exact .throw
  · refine .bind .ask ?_
    rintro _ _ ⟨rfl, rfl⟩
    rw [missing_counterpart locs.object, locs.cell]
    refine .bind (.orThrow (readCell_corresponds memories locs.object _))
      fun content content' leaves => ?_
    refine .bind (.require (by rw [leaves.kind])) fun _ _ _ => ?_
    exact .pure ⟨rfl, leaves⟩

theorem mapM_readLeaf_corresponds (memories : world.Memories memory memory')
    (locs : World.Locs world.Objects loc loc') (shape : List (Path × LeafKind)) :
    Refines observer memory memory' world.Datas (shape.mapM (readLeaf machine loc))
      (shape.mapM (readLeaf (machine.withFunctions functions) loc')) :=
  .mapM (List.forall₂_same.mpr fun _ _ => rfl) fun leaf _ same =>
    same ▸ readLeaf_corresponds memories locs leaf

theorem fetch_corresponds (memories : world.Memories memory memory')
    (locs : World.Locs world.Objects loc loc') :
    Refines observer memory memory' world.Datas (fetch machine loc)
      (fetch (machine.withFunctions functions) loc') := by
  unfold fetch
  rw [shape_withFunctions, locs.ty]
  refine .bind (.lookup _) ?_
  rintro shape _ ⟨rfl, -⟩
  exact mapM_readLeaf_corresponds memories locs shape

theorem readLoc_corresponds (memories : world.Memories memory memory')
    (locs : World.Locs world.Objects loc loc') :
    Refines observer memory memory' world.Datas (readLoc machine act loc)
      (readLoc (machine.withFunctions functions) act' loc') := by
  unfold readLoc
  rw [shape_withFunctions, locs.ty]
  refine .bind (.lookup _) ?_
  rintro shape _ ⟨rfl, -⟩
  exact .bind (.emit rfl) fun _ _ _ => mapM_readLeaf_corresponds memories locs shape

/-! ### Elements and stores -/

/-- The same element in objects that `R` relates. -/
structure World.Elements (R : Object → Object → Prop) (sample sample' : Element) : Prop where
  object : R sample.object sample'.object
  path : sample'.path = sample.path
  element : sample'.element = sample.element
  neutral : sample'.neutral = sample.neutral

/-- Corresponding descriptors. -/
def World.Slices (world : World) (desc desc' : SliceDesc) : Prop :=
  world.Leaves (.slice desc) (.slice desc')

theorem World.Slices.elementAt {desc : SliceDesc} (slices : world.Slices desc desc') (index : Nat) :
    World.Elements world.Objects (desc.elementAt index) (desc'.elementAt index) := by
  cases slices with
  | slice objects => exact ⟨objects, rfl, rfl, rfl⟩

theorem World.Slices.len {desc : SliceDesc} (slices : world.Slices desc desc') :
    desc'.len = desc.len := by
  cases slices with
  | slice objects => rfl

theorem loadElement_corresponds (memories : world.Memories memory memory')
    (elements : World.Elements world.Objects element element') :
    Refines observer memory memory' Eq (loadElement machine act element)
      (loadElement (machine.withFunctions functions) act' element') := by
  unfold loadElement
  refine .bind (.emit rfl) fun _ _ _ => ?_
  rw [elements.neutral]
  split
  · rw [elements.element]
    exact .pure rfl
  · refine .bind .ask ?_
    rintro _ _ ⟨rfl, rfl⟩
    rw [missing_counterpart elements.object, elements.path]
    refine .bind (.orThrow (readCell_corresponds memories elements.object _))
      fun content content' leaves => ?_
    cases leaves with
    | scalar value =>
      exact .bind (.require (by rw [elements.element])) fun _ _ _ => .pure rfl
    | slice | buffer | span => exact .throw

/-- Stores of the world: to corresponding storage, or to storage without a
counterpart. -/
def World.Targets (world : World) (object object' : Object) : Prop :=
  (world.Objects object object'
    ∨ (∀ other, ¬world.Objects object other) ∧ ∀ other, ¬world.Objects other object')
  ∧ object'.activation? = object.activation?
  ∧ ∀ activation, object.activation? = some activation → activation < world.next

theorem World.Objects.target (objects : world.Objects object object') :
    world.Targets object object' := by
  refine ⟨.inl objects, objects.owner, fun activation owned => ?_⟩
  cases objects with
  | localVar started | argument started =>
    cases owned
    exact started
  | shared global => rw [global] at owned; cases owned

theorem storeElement_corresponds (elements : World.Elements world.Targets element element')
    (value : ScalarValue) :
    Refines observer memory memory' world.Writes (storeElement element value)
      (storeElement element' value) := by
  unfold storeElement
  refine .bind (.require (by rw [elements.element])) fun _ _ _ => .pure ?_
  refine ⟨elements.object.1, elements.object.2, ?_, elements.neutral⟩
  rw [elements.path]
  exact .cons ⟨rfl, .scalar value⟩ .nil

theorem storeLoc_corresponds (locs : World.Locs world.Targets loc loc') {data data' : Data}
    (datas : world.Datas data data') (frame frame' : Bool) :
    Refines observer memory memory' world.Writes (storeLoc machine loc data frame)
      (storeLoc (machine.withFunctions functions) loc' data' frame') := by
  unfold storeLoc
  rw [shape_withFunctions, locs.ty]
  refine .bind (.lookup _) ?_
  rintro shape _ ⟨rfl, -⟩
  refine .bind (.require (by rw [datas.shape])) fun _ _ _ => .pure ?_
  refine ⟨locs.object.1, locs.object.2, ?_, locs.neutral⟩
  refine List.forall₂_map_left_iff.mpr (List.forall₂_map_right_iff.mpr (datas.imp ?_))
  rintro ⟨path, leaf⟩ ⟨path', leaf'⟩ ⟨rfl, leaves⟩
  exact ⟨(locs.cell path).symm, leaves⟩

/-! ### Operands -/

theorem World.Activations.localTarget (acts : world.Activations act act')
    (mapped : (world.mapping act).writes localId = some localId') :
    world.Targets (.localVar act.id localId) (.localVar act.id localId') := by
  refine ⟨?_, rfl, by rintro _ ⟨⟩; exact acts.started⟩
  cases read : (world.mapping act).locals localId with
  | some other =>
    have same := (world.embedding act.id).writes_of_locals localId other read
    obtain rfl : other = localId' := Option.some.inj (same.symm.trans mapped)
    exact .inl (.localVar acts.started read)
  | none =>
    refine .inr ⟨fun object objects => ?_, fun object objects => ?_⟩
    · cases objects with
      | localVar _ mapped' => exact absurd (read.symm.trans mapped') (by simp)
      | shared global => cases global
    · cases objects with
      | localVar _ mapped' =>
        have written := (world.embedding act.id).writes_of_locals _ _ mapped'
        rw [(world.embedding act.id).writes_inj _ _ _ written mapped] at mapped'
        exact absurd (read.symm.trans mapped') (by simp)
      | shared global => cases global

/-- The declared types of a local and its new id agree, so their storage does. -/
theorem localLoc_of_objects (acts : world.Activations act act') {R : Object → Object → Prop}
    (written : (world.mapping act).writes localId = some localId')
    (objects : R (.localVar act.id localId) (.localVar act.id localId')) :
    Option.Rel (World.Locs R) (act.localLoc localId) (act'.localLoc localId') := by
  have types := acts.locals localId localId' written
  unfold Activation.localLoc
  rw [acts.id]
  rcases found : act.function.locals[localId]? with _ | declared
  · rw [found, Option.map_none, Option.map_eq_none_iff] at types
    rw [types]
    exact .none
  · rw [found, Option.map_some, Option.map_eq_some_iff] at types
    obtain ⟨declared', found', same⟩ := types
    rw [found']
    exact .some ⟨objects, rfl, rfl, same, rfl⟩

theorem localLoc_corresponds (acts : world.Activations act act')
    (mapped : (world.mapping act).locals localId = some localId') :
    Option.Rel (World.Locs world.Objects) (act.localLoc localId) (act'.localLoc localId') :=
  localLoc_of_objects acts ((world.embedding act.id).writes_of_locals _ _ mapped)
    (.localVar acts.started mapped)

theorem resultLoc_corresponds (acts : world.Activations act act')
    (mapped : (world.mapping act).writes localId = some localId') :
    Option.Rel (World.Locs world.Targets) (act.localLoc localId) (act'.localLoc localId') :=
  localLoc_of_objects acts mapped (acts.localTarget mapped)

variable (memories : world.Memories memory memory') (acts : world.Activations act act')
include memories acts

theorem evalValue_corresponds {value value' : Value}
    (rewritten : rewriteValue (world.mapping act) value = some value') :
    Refines observer memory memory' world.Datas (evalValue machine act value)
      (evalValue (machine.withFunctions functions) act' value') := by
  cases value with
  | constant value =>
    cases rewritten
    exact .pure (.scalar value)
  | localVar localId =>
    obtain ⟨localId', mapped, rfl⟩ := Option.map_eq_some_iff.mp rewritten
    exact .bind (.orThrow (localLoc_corresponds acts mapped)) fun loc loc' locs =>
      fetch_corresponds memories locs

theorem evalLeaf_corresponds (rewritten : rewriteValue (world.mapping act) value = some value') :
    Refines observer memory memory' world.Leaves (evalLeaf machine act value)
      (evalLeaf (machine.withFunctions functions) act' value') := by
  unfold evalLeaf
  refine .bind (evalValue_corresponds memories acts rewritten) fun data data' datas => ?_
  cases datas with
  | nil => exact .throw
  | @cons entry entry' rest rest' head tail =>
    obtain ⟨path, leaf⟩ := entry
    obtain ⟨path', leaf'⟩ := entry'
    obtain ⟨rfl, leaves⟩ := head
    cases tail with
    | nil =>
      cases path with
      | nil => exact .pure leaves
      | cons => exact .throw
    | cons => cases path <;> exact .throw

theorem evalScalar_corresponds (rewritten : rewriteValue (world.mapping act) value = some value') :
    Refines observer memory memory' Eq (evalScalar machine act value)
      (evalScalar (machine.withFunctions functions) act' value') := by
  unfold evalScalar
  refine .bind (evalLeaf_corresponds memories acts rewritten) fun leaf leaf' leaves => ?_
  cases leaves with
  | scalar value => exact .pure rfl
  | slice | buffer | span => exact .throw

theorem evalI32_corresponds (rewritten : rewriteValue (world.mapping act) value = some value') :
    Refines observer memory memory' Eq (evalI32 machine act value)
      (evalI32 (machine.withFunctions functions) act' value') := by
  unfold evalI32
  refine .bind (evalScalar_corresponds memories acts rewritten) ?_
  rintro value _ rfl
  cases value with
  | i32 value => exact .pure rfl
  | f32 | f64 | i64 | bool => exact .throw

theorem evalBool_corresponds (rewritten : rewriteValue (world.mapping act) value = some value') :
    Refines observer memory memory' Eq (evalBool machine act value)
      (evalBool (machine.withFunctions functions) act' value') := by
  unfold evalBool
  refine .bind (evalScalar_corresponds memories acts rewritten) ?_
  rintro value _ rfl
  cases value with
  | bool value => exact .pure rfl
  | f32 | f64 | i32 | i64 => exact .throw

theorem evalSlice_corresponds (rewritten : rewriteValue (world.mapping act) value = some value') :
    Refines observer memory memory' world.Slices (evalSlice machine act value)
      (evalSlice (machine.withFunctions functions) act' value') := by
  unfold evalSlice
  refine .bind (evalLeaf_corresponds memories acts rewritten) fun leaf leaf' leaves => ?_
  cases leaves with
  | slice objects => exact .pure (.slice objects)
  | scalar | buffer | span => exact .throw

end Evaluation

end Onda.Mir
