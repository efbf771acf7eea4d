import Onda.Payload.Plan

/-!
# The layout of a payload

A walk decides the place of every region while it goes.  Here the places are
computed first: the lengths of a payload determine its row of *slots*, and a
walk that succeeds visits the slots at their places, one after the other.

### Sequencing
-/

namespace Onda.Payload

section Steps

variable {α β : Type}

theorem bind_ok_iff {first : Checked α} {next : α → Checked β} {result : β} :
    first >>= next = .ok result ↔ ∃ value, first = .ok value ∧ next value = .ok result := by
  cases first with
  | error failure => simp [bind, Except.bind]
  | ok value => simp [bind, Except.bind]

variable {value : Option α} {error : PayloadError} {result : α}

@[simp] theorem refuseIf_ok_iff {refused : Prop} [Decidable refused] {done : Unit}
    : refuseIf refused error = .ok done ↔ ¬refused := by
  unfold refuseIf
  split <;> simp_all [reject]

@[simp] theorem okOr_ok_iff :
    okOr error value = .ok result ↔ value = some result := by
  cases value <;> simp [okOr, reject]

@[simp] theorem expect_ok_iff :
    expect value = .ok result ↔ value = some result := by
  cases value <;> simp [expect]

@[simp] theorem reject_ne_ok :
    reject error ≠ (.ok result : Checked α) := by
  simp [reject]

@[simp] theorem checkedAdd_ok_iff {a b sum : Nat} :
    checkedAdd a b = .ok sum ↔ a + b ≤ i32Max ∧ a + b = sum := by
  unfold checkedAdd
  split <;> simp_all

@[simp] theorem checkedMul_ok_iff {a b product : Nat} :
    checkedMul a b = .ok product ↔ a * b ≤ i32Max ∧ a * b = product := by
  unfold checkedMul
  split <;> simp_all

end Steps

/-- The next multiple of an alignment. -/
def roundUp (offset alignment : Nat) : Nat := (offset + (alignment - 1)) / alignment * alignment

@[simp] theorem aligned_ok_iff {offset alignment prepared : Nat} :
    aligned offset alignment = .ok prepared ↔
      offset + (alignment - 1) ≤ i32Max ∧ roundUp offset alignment = prepared := by
  simp [aligned, bind_ok_iff, roundUp]

/-! ### Slots -/

/-- A region before it has a place: a length prefix, or the elements of a tensor. -/
structure Slot where
  tensor : Option Nat
  len : Nat
  elements : Nat
  bytes : Nat
  alignment : Nat

/-- A slot and where it lies. -/
structure Placed where
  slot : Slot
  wire : Nat
  workspace : Nat

namespace Slot

def ofLength (len : Nat) : Slot := ⟨none, len, 1, 4, 4⟩

def ofTensor (index len : Nat) (leaf : PayloadTensor) : Slot :=
  ⟨some index, len, leaf.elements * len, leaf.elements * len * leaf.encoding.byteSize,
    leaf.encoding.byteSize⟩

/-- The alignments of the layout divide `2 ^ 31`. -/
def Regular (slot : Slot) : Prop :=
  slot.alignment = 1 ∨ slot.alignment = 4 ∨ slot.alignment = 8

theorem regular_ofLength (len : Nat) : (ofLength len).Regular := .inr (.inl rfl)

theorem regular_ofTensor (index len : Nat) (leaf : PayloadTensor) :
    (ofTensor index len leaf).Regular := by
  unfold Regular ofTensor
  cases leaf.encoding with
  | bool => exact .inl rfl
  | f32 | i32 => exact .inr (.inl rfl)
  | f64 | i64 => exact .inr (.inr rfl)

/-- Padding fits where the padded offset does. -/
theorem Regular.padding_fits {slot : Slot} (regular : slot.Regular) {offset : Nat}
    (fits : roundUp offset slot.alignment ≤ i32Max) :
    offset + (slot.alignment - 1) ≤ i32Max := by
  unfold roundUp i32Max at *
  rcases regular with one | four | eight
  · rw [one] at fits ⊢
    omega
  · rw [four] at fits ⊢
    omega
  · rw [eight] at fits ⊢
    omega

theorem Regular.le_roundUp {slot : Slot} (regular : slot.Regular) (offset : Nat) :
    offset ≤ roundUp offset slot.alignment := by
  unfold roundUp
  rcases regular with one | four | eight
  · rw [one]
    omega
  · rw [four]
    omega
  · rw [eight]
    omega

/-- The workspace position behind a slot. -/
def after (slot : Slot) (workspace : Nat) : Nat :=
  roundUp workspace slot.alignment + slot.bytes

end Slot

/-- The region a placed slot stands for. -/
def Placed.region (placed : Placed) : Region :=
  match placed.slot.tensor with
  | none => .length ⟨placed.wire, placed.wire + placed.slot.bytes⟩
      ⟨placed.workspace, placed.workspace + placed.slot.bytes⟩
  | some index => .tensor ⟨index, placed.slot.len, placed.slot.elements,
      ⟨placed.wire, placed.wire + placed.slot.bytes⟩,
      ⟨placed.workspace, placed.workspace + placed.slot.bytes⟩⟩

/-- Slots one behind the other: packed on the wire, aligned in the workspace. -/
def place : List Slot → Nat → Nat → List Placed
  | [], _, _ => []
  | slot :: slots, wire, workspace =>
    ⟨slot, wire, roundUp workspace slot.alignment⟩ ::
      place slots (wire + slot.bytes) (slot.after workspace)

def wireEnd (slots : List Slot) (wire : Nat) : Nat := wire + (slots.map Slot.bytes).sum

def workspaceEnd (slots : List Slot) (workspace : Nat) : Nat :=
  slots.foldl (fun workspace slot => slot.after workspace) workspace

@[simp] theorem wireEnd_nil (wire : Nat) : wireEnd [] wire = wire := rfl

@[simp] theorem wireEnd_cons (slot : Slot) (slots : List Slot) (wire : Nat) :
    wireEnd (slot :: slots) wire = wireEnd slots (wire + slot.bytes) := by
  simp [wireEnd, Nat.add_assoc]

@[simp] theorem workspaceEnd_nil (workspace : Nat) : workspaceEnd [] workspace = workspace := rfl

@[simp] theorem workspaceEnd_cons (slot : Slot) (slots : List Slot) (workspace : Nat) :
    workspaceEnd (slot :: slots) workspace = workspaceEnd slots (slot.after workspace) := rfl

theorem le_wireEnd (slots : List Slot) (wire : Nat) : wire ≤ wireEnd slots wire :=
  Nat.le_add_right _ _

theorem le_workspaceEnd {slots : List Slot} (regular : ∀ slot ∈ slots, slot.Regular)
    (workspace : Nat) : workspace ≤ workspaceEnd slots workspace := by
  induction slots generalizing workspace with
  | nil => exact le_rfl
  | cons slot slots ih =>
    have here := (regular slot (by simp)).le_roundUp workspace
    have later := ih (fun slot mem => regular slot (by simp [mem])) (slot.after workspace)
    rw [workspaceEnd_cons]
    unfold Slot.after at later ⊢
    omega

/-! ### Walking over slots -/

section Walk

variable {σ : Type} (length : Nat → Nat → σ → Checked (Nat × σ))
  (visit : Region → σ → Checked σ)

/-- One slot of a walk.  The length that is found is the one the slot stands for. -/
def visitPlaced (state : σ) (placed : Placed) : Checked σ :=
  match placed.slot.tensor with
  | none => do
    let found ← length placed.wire placed.workspace state
    if found.1 = placed.slot.len then visit placed.region found.2 else .error .panicked
  | some _ => visit placed.region state

/-- A walk gets over one slot. -/
def Advances (slot : Slot) (before after : Walked σ) : Prop :=
  after.wire = before.wire + slot.bytes ∧ after.wire ≤ i32Max ∧
    after.workspace = slot.after before.workspace ∧ after.workspace ≤ i32Max ∧
    visitPlaced length visit before.state
      ⟨slot, before.wire, roundUp before.workspace slot.alignment⟩ = .ok after.state

/-- A walk gets over a row of slots. -/
def Reaches : List Slot → Walked σ → Walked σ → Prop
  | [], before, after => before = after
  | slot :: slots, before, after =>
    ∃ between, Advances length visit slot before between ∧ Reaches slots between after

variable {len : Nat} {after : Walked σ}

theorem reaches_append {left right : List Slot} {before : Walked σ} :
    Reaches length visit (left ++ right) before after ↔
      ∃ between, Reaches length visit left before between ∧
        Reaches length visit right between after := by
  induction left generalizing before with
  | nil => simp [Reaches]
  | cons slot left ih =>
    simp only [List.cons_append, Reaches, ih]
    constructor
    · rintro ⟨first, advances, between, early, late⟩
      exact ⟨between, ⟨first, advances, early⟩, late⟩
    · rintro ⟨between, ⟨first, advances, early⟩, late⟩
      exact ⟨first, advances, between, early, late⟩

/-- **A walk in one piece.** It ends behind the last slot, within the extent of an
`i32`, and has visited every slot at its place. -/
theorem reaches_iff {slots : List Slot} (regular : ∀ slot ∈ slots, slot.Regular) {before : Walked σ}
    (wireFits : before.wire ≤ i32Max) (workspaceFits : before.workspace ≤ i32Max) :
    Reaches length visit slots before after ↔
      after.wire = wireEnd slots before.wire ∧ after.wire ≤ i32Max ∧
        after.workspace = workspaceEnd slots before.workspace ∧ after.workspace ≤ i32Max ∧
        (place slots before.wire before.workspace).foldlM (visitPlaced length visit)
          before.state = .ok after.state := by
  induction slots generalizing before with
  | nil =>
    constructor
    · rintro rfl
      exact ⟨rfl, wireFits, rfl, workspaceFits, rfl⟩
    · rintro ⟨wire, -, workspace, -, state⟩
      cases before
      cases after
      simp only [wireEnd_nil, workspaceEnd_nil, place, List.foldlM_nil, pure, Except.pure,
        Except.ok.injEq] at wire workspace state
      simp [Reaches, wire, workspace, state]
  | cons slot slots ih =>
    have regularLater : ∀ slot ∈ slots, slot.Regular := fun slot mem => regular slot (by simp [mem])
    simp only [Reaches, place, List.foldlM_cons, bind_ok_iff, wireEnd_cons, workspaceEnd_cons]
    constructor
    · rintro ⟨between, ⟨wire, wireLe, workspace, workspaceLe, visited⟩, later⟩
      rw [ih regularLater wireLe workspaceLe, wire, workspace] at later
      obtain ⟨wireAfter, wireAfterLe, workspaceAfter, workspaceAfterLe, rest⟩ := later
      exact ⟨wireAfter, wireAfterLe, workspaceAfter, workspaceAfterLe, _, visited, rest⟩
    · rintro ⟨wire, wireLe, workspace, workspaceLe, state, visited, rest⟩
      have wireBetween : before.wire + slot.bytes ≤ i32Max := by
        have later := le_wireEnd slots (before.wire + slot.bytes)
        omega
      have workspaceBetween : slot.after before.workspace ≤ i32Max := by
        have later := le_workspaceEnd regularLater (slot.after before.workspace)
        omega
      refine ⟨⟨before.wire + slot.bytes, slot.after before.workspace, state⟩,
        ⟨rfl, wireBetween, rfl, workspaceBetween, visited⟩, ?_⟩
      rw [ih regularLater wireBetween workspaceBetween]
      exact ⟨wire, wireLe, workspace, workspaceLe, rest⟩

variable (tensors : List PayloadTensor)

/-- The slots of a parameter's tensors. -/
def tensorSlots (len : Nat) (indices : List Nat) : List Slot :=
  indices.filterMap fun index => tensors[index]?.map (Slot.ofTensor index len)

/-- The indices of a parameter's tensors. -/
def Span.indices (span : Span) : List Nat := List.range' span.start (span.stop - span.start)

def paramSlots (param : ParameterPlan) (len : Nat) : List Slot :=
  (if param.dynamic then [Slot.ofLength len] else []) ++
    tensorSlots tensors len param.tensors.indices

/-- One length for each parameter, which is one where the parameter is fixed. -/
def Lengths (params : List ParameterPlan) (lens : List Nat) : Prop :=
  List.Forall₂ (fun param len => param.dynamic = false → len = 1) params lens

def slots (params : List ParameterPlan) (lens : List Nat) : List Slot :=
  (List.zipWith (paramSlots tensors) params lens).flatten

/-- Every slot is a length prefix or the elements of a tensor of the plan. -/
inductive Slot.Made : Slot → Prop where
  | length (len : Nat) : Slot.Made (Slot.ofLength len)
  | tensor (index len : Nat) (leaf : PayloadTensor) (found : tensors[index]? = some leaf) :
    Slot.Made (Slot.ofTensor index len leaf)

theorem Slot.Made.regular {slot : Slot} (made : slot.Made tensors) : slot.Regular := by
  cases made with
  | length len => exact Slot.regular_ofLength len
  | tensor index len leaf => exact Slot.regular_ofTensor index len leaf

theorem slots_made (params : List ParameterPlan) (lens : List Nat) :
    ∀ slot ∈ slots tensors params lens, slot.Made tensors := by
  intro slot mem
  simp only [slots, List.mem_flatten] at mem
  obtain ⟨row, inRow, mem⟩ := mem
  obtain ⟨param, len, rfl⟩ : ∃ param len, row = paramSlots tensors param len := by
    obtain ⟨position, inside, rfl⟩ := List.mem_iff_getElem.mp inRow
    exact ⟨_, _, List.getElem_zipWith⟩
  simp only [paramSlots, List.mem_append] at mem
  rcases mem with prefixed | carried
  · split at prefixed
    · rw [List.mem_singleton.mp prefixed]
      exact .length len
    · cases prefixed
  · simp only [tensorSlots, List.mem_filterMap, Option.map_eq_some_iff] at carried
    obtain ⟨index, -, leaf, found, rfl⟩ := carried
    exact .tensor index len leaf found

variable {tensors}

theorem walkTensors_ok_iff {indices : List Nat} (inside : ∀ index ∈ indices, index < tensors.length)
    {before : Walked σ} :
    walkTensors tensors visit len indices before = .ok after ↔
      Reaches length visit (tensorSlots tensors len indices) before after := by
  induction indices generalizing before with
  | nil => simp [walkTensors, tensorSlots, Reaches]
  | cons index indices ih =>
    have here : index < tensors.length := inside index (by simp)
    have found : tensors[index]? = some tensors[index] := List.getElem?_eq_getElem here
    have slotsCons : tensorSlots tensors len (index :: indices) =
        Slot.ofTensor index len tensors[index] :: tensorSlots tensors len indices := by
      simp [tensorSlots, found]
    have regular := Slot.regular_ofTensor index len tensors[index]
    have sizePos := tensors[index].encoding.byteSize_pos
    rw [slotsCons, Reaches, walkTensors, found]
    simp only [bind_ok_iff, expect_ok_iff, Option.some.injEq, checkedMul_ok_iff, aligned_ok_iff,
      checkedAdd_ok_iff, ih (fun index mem => inside index (by simp [mem]))]
    constructor
    · rintro ⟨_, rfl, _, ⟨-, rfl⟩, _, ⟨-, rfl⟩, _, ⟨-, rfl⟩, _, ⟨wireLe, rfl⟩, _,
        ⟨workspaceLe, rfl⟩, state, visited, later⟩
      exact ⟨⟨_, _, state⟩, ⟨rfl, wireLe, rfl, workspaceLe, visited⟩, later⟩
    · rintro ⟨⟨wire, workspace, state⟩, ⟨wireEq, wireLe, workspaceEq, workspaceLe, visited⟩,
        later⟩
      simp only at wireEq wireLe workspaceEq workspaceLe visited
      subst wireEq workspaceEq
      have extent : tensors[index].elements * len * tensors[index].encoding.byteSize ≤ i32Max :=
        le_trans (Nat.le_add_left _ _) wireLe
      have count : tensors[index].elements * len ≤ i32Max :=
        le_trans (Nat.le_mul_of_pos_right _ sizePos) extent
      have padded := regular.padding_fits (le_trans (Nat.le_add_right _ _) workspaceLe)
      exact ⟨_, rfl, _, ⟨count, rfl⟩, _, ⟨extent, rfl⟩, _, ⟨padded, rfl⟩, _, ⟨wireLe, rfl⟩, _,
        ⟨workspaceLe, rfl⟩, state, visited, later⟩

theorem visitPlaced_ofLength {state state' : σ} {wire workspace : Nat} :
    visitPlaced length visit state ⟨Slot.ofLength len, wire, workspace⟩ = .ok state' ↔
      ∃ found, length wire workspace state = .ok (len, found) ∧
        visit (.length ⟨wire, wire + 4⟩ ⟨workspace, workspace + 4⟩) found = .ok state' := by
  show (length wire workspace state >>= fun found =>
    if found.1 = len then _ else _) = _ ↔ _
  rw [bind_ok_iff]
  constructor
  · rintro ⟨⟨found, rest⟩, read, visited⟩
    by_cases same : found = len
    · rw [if_pos same] at visited
      exact ⟨rest, same ▸ read, visited⟩
    · rw [if_neg same] at visited
      cases visited
  · rintro ⟨rest, read, visited⟩
    exact ⟨(len, rest), read, (if_pos rfl).trans visited⟩

theorem walkLength_ok_iff {before : Walked σ} :
    walkLength length visit before = .ok (len, after) ↔
      Reaches length visit [Slot.ofLength len] before after := by
  simp only [walkLength, Reaches, Advances, visitPlaced_ofLength, bind_ok_iff,
    aligned_ok_iff, checkedAdd_ok_iff, Except.ok.injEq, Prod.mk.injEq, exists_eq_right]
  constructor
  · rintro ⟨_, ⟨-, rfl⟩, found, read, _, ⟨wireLe, rfl⟩, _, ⟨workspaceLe, rfl⟩, state, visited,
      rfl, rfl⟩
    exact ⟨rfl, wireLe, rfl, workspaceLe, found.2, read, visited⟩
  · rintro ⟨wireEq, wireLe, workspaceEq, workspaceLe, found, read, visited⟩
    have padded := (Slot.regular_ofLength len).padding_fits
      (le_trans (Nat.le_add_right _ _) (workspaceEq ▸ workspaceLe))
    obtain ⟨wire, workspace, state⟩ := after
    simp only at wireEq wireLe workspaceEq workspaceLe visited
    subst wireEq workspaceEq
    exact ⟨_, ⟨padded, rfl⟩, (len, found), read, _, ⟨wireLe, rfl⟩, _, ⟨workspaceLe, rfl⟩, state,
      visited, rfl, rfl⟩

theorem walkHead_ok_iff {param : ParameterPlan} {before : Walked σ} :
    walkHead length visit param before = .ok (len, after) ↔
      (param.dynamic = false → len = 1) ∧
        Reaches length visit (if param.dynamic then [Slot.ofLength len] else []) before after := by
  unfold walkHead
  by_cases dynamic : param.dynamic
  · rw [if_pos dynamic, if_pos dynamic, walkLength_ok_iff]
    simp [dynamic]
  · rw [if_neg dynamic, if_neg dynamic, Except.ok.injEq, Prod.mk.injEq]
    have static : param.dynamic = false := by simpa using dynamic
    constructor
    · rintro ⟨rfl, rfl⟩
      exact ⟨fun _ => rfl, rfl⟩
    · rintro ⟨one, same⟩
      exact ⟨(one static).symm, same⟩

/-- **The walk follows the layout.** It succeeds with the lengths it finds when it gets over
the slots that these lengths determine. -/
theorem walkParams_ok_iff {params : List ParameterPlan}
    (inside : ∀ param ∈ params, ∀ index ∈ param.tensors.indices, index < tensors.length)
    {before : Walked σ} :
    walkParams tensors length visit params before = .ok after ↔
      ∃ lens, Lengths params lens ∧
        Reaches length visit (slots tensors params lens) before after := by
  induction params generalizing before with
  | nil =>
    constructor
    · intro walked
      exact ⟨[], .nil, Except.ok.inj walked⟩
    · rintro ⟨lens, fixed, reaches⟩
      cases fixed
      exact congrArg Except.ok reaches
  | cons param params ih =>
    have tensorsInside := inside param (by simp)
    have ih' := @ih (fun param mem => inside param (by simp [mem]))
    have slotsCons (len : Nat) (lens : List Nat) : slots tensors (param :: params) (len :: lens) =
        paramSlots tensors param len ++ slots tensors params lens := rfl
    simp only [walkParams, bind_ok_iff]
    constructor
    · rintro ⟨⟨len, begun⟩, first, between, carried, later⟩
      obtain ⟨static, head⟩ := (walkHead_ok_iff length visit).mp first
      obtain ⟨lens, fixed, reaches⟩ := ih'.mp later
      replace carried := (walkTensors_ok_iff length visit tensorsInside).mp carried
      refine ⟨len :: lens, .cons static fixed, ?_⟩
      rw [slotsCons, paramSlots, List.append_assoc, reaches_append]
      exact ⟨begun, head, (reaches_append length visit).mpr ⟨between, carried, reaches⟩⟩
    · rintro ⟨lens, fixed, reaches⟩
      cases fixed with
      | @cons _ len _ lens static fixed =>
        rw [slotsCons, paramSlots, List.append_assoc, reaches_append] at reaches
        obtain ⟨begun, head, reaches⟩ := reaches
        obtain ⟨between, carried, later⟩ := (reaches_append length visit).mp reaches
        exact ⟨(len, begun), (walkHead_ok_iff length visit).mpr ⟨static, head⟩, between,
          (walkTensors_ok_iff length visit tensorsInside).mpr carried,
          ih'.mpr ⟨lens, fixed, later⟩⟩

end Walk

end Onda.Payload
