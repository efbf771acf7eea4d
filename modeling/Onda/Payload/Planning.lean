import Onda.Payload.Columns
import Onda.Payload.Prepared

/-!
# What planning finds

The stack of `leaves` visits the columns of a type in order, and the plan of a schema is a
row of parameters, each with the tensors of its type.

### Leaves
-/

namespace Onda.Payload

/-- The column a leaf stands for. -/
def PayloadLeaf.signature (leaf : PayloadLeaf) : LeafShape :=
  ⟨leaf.encoding, leaf.shape.prod, leaf.integerRange⟩

/-- The columns a pending type still contributes. -/
def PendingShape.shapes (pending : PendingShape) : List LeafShape :=
  pending.ty.shapes.map (LeafShape.scale pending.shape.prod)

theorem LeafShape.scale_scale (len outer : Nat) (shape : LeafShape) :
    (shape.scale len).scale outer = shape.scale (outer * len) := by
  simp only [LeafShape.scale, Nat.mul_assoc, Nat.mul_comm len outer]

variable {lengthPrefix : Bool} {leaves : List PayloadLeaf} {planning planning' : Planning}

/-- **The worklist is the recursion.** The leaves are the columns of the types on the stack, in
order, and no slice occurs in these types. -/
theorem leavesLoop_spec {fuel : Nat} {pending : List PendingShape} {done : List PayloadLeaf}
    (planned : leavesLoop fuel pending done = .ok leaves) :
    (∀ item ∈ pending, item.ty.Plain) ∧
      leaves.map PayloadLeaf.signature =
        done.map PayloadLeaf.signature ++ pending.flatMap PendingShape.shapes := by
  induction fuel generalizing pending done with
  | zero =>
    cases pending with
    | nil =>
      cases planned
      simp
    | cons item pending => cases planned
  | succ fuel ih =>
    cases pending with
    | nil =>
      cases planned
      simp
    | cons item pending =>
      obtain ⟨ty, path, shape⟩ := item
      rw [List.forall_mem_cons, List.flatMap_cons]
      cases ty with
      | scalar encoding range =>
        obtain ⟨plain, found⟩ := ih planned
        refine ⟨⟨.scalar encoding range, plain⟩, ?_⟩
        rw [found]
        simp [PendingShape.shapes, PayloadType.shapes, LeafShape.scale, PayloadLeaf.signature]
      | tuple elements =>
        simp only [leavesLoop, bind_ok_iff, refuseIf_ok_iff, exists_const] at planned
        obtain ⟨scalars, rest⟩ := planned
        obtain ⟨plain, found⟩ := ih rest
        refine ⟨⟨.tuple elements fun ty mem => ?_,
          fun item mem => plain item (List.mem_append_right _ mem)⟩, ?_⟩
        · by_contra notScalar
          exact scalars (.inr (List.any_eq_true.mpr ⟨ty, mem, by simpa using notScalar⟩))
        · rw [found, List.flatMap_append, List.flatMap_map]
          congr 2
          show elements.zipIdx.flatMap (fun item => item.1.shapes.map (LeafShape.scale shape.prod)) =
            (elementsShapes elements).map (LeafShape.scale shape.prod)
          rw [elementsShapes_eq, List.map_flatMap, ← List.flatMap_map Prod.fst
            (fun ty : PayloadType => ty.shapes.map (LeafShape.scale shape.prod)),
            List.zipIdx_map_fst]
      | struct name fields =>
        simp only [leavesLoop, bind_ok_iff, refuseIf_ok_iff, exists_const] at planned
        obtain ⟨-, _, -, rest⟩ := planned
        obtain ⟨plain, found⟩ := ih rest
        refine ⟨⟨.struct name fields fun field mem => ?_,
          fun item mem => plain item (List.mem_append_right _ mem)⟩, ?_⟩
        · exact plain ⟨field.ty, childPath path field.name, shape⟩
            (List.mem_append_left _ (List.mem_map.mpr ⟨field, mem, rfl⟩))
        · rw [found, List.flatMap_append, List.flatMap_map]
          congr 2
          show fields.flatMap (fun field => field.ty.shapes.map (LeafShape.scale shape.prod)) =
            (fieldsShapes fields).map (LeafShape.scale shape.prod)
          rw [fieldsShapes_eq, List.map_flatMap, List.flatMap_map]
      | array element len =>
        simp only [leavesLoop, bind_ok_iff, refuseIf_ok_iff, exists_const] at planned
        obtain ⟨allowed, rest⟩ := planned
        obtain ⟨plain, found⟩ := ih rest
        rw [List.forall_mem_cons] at plain
        refine ⟨⟨.array element len (fun empty => allowed (.inl empty)) plain.1, plain.2⟩, ?_⟩
        rw [found, List.flatMap_cons]
        congr 2
        simp only [PendingShape.shapes, PayloadType.shapes, List.map_map]
        apply List.map_congr_left
        intro column _
        show column.scale (shape ++ [len]).prod = (column.scale len).scale shape.prod
        rw [LeafShape.scale_scale, List.prod_append, List.prod_singleton]
      | slice element => cases planned

theorem leaves_spec {ty : PayloadType} (planned : ty.leaves = .ok leaves) :
    ty.Plain ∧ leaves.map PayloadLeaf.signature = ty.shapes := by
  obtain ⟨plain, found⟩ := leavesLoop_spec planned
  refine ⟨plain ⟨ty, "", []⟩ (by simp), ?_⟩
  rw [found]
  simp only [List.map_nil, List.nil_append, List.flatMap_singleton, PendingShape.shapes,
    List.prod_nil]
  have once : LeafShape.scale 1 = id := by
    funext shape
    simp [LeafShape.scale]
  rw [once, List.map_id]

/-! ### Tensors -/

theorem foldlM_checkedMul {start product : Nat} {extents : List Nat}
    (planned : extents.foldlM checkedMul start = .ok product) : product = start * extents.prod := by
  induction extents generalizing start with
  | nil =>
    cases planned
    simp
  | cons extent extents ih =>
    simp only [List.foldlM_cons, bind_ok_iff, checkedMul_ok_iff] at planned
    obtain ⟨_, ⟨-, rfl⟩, rest⟩ := planned
    rw [ih rest, List.prod_cons, Nat.mul_assoc]

/-- The tensor carries a column. -/
structure PayloadTensor.Carries (shape : LeafShape) (tensor : PayloadTensor) : Prop where
  encoding : tensor.encoding = shape.encoding
  elements : tensor.elements = shape.extent
  domain : tensor.domain = domainOf shape.encoding shape.range

/-- **Domains.** A range the planner accepts has values, and they are values of its type. -/
theorem prepareDomain_fits {encoding : ScalarEncoding} {range : IntegerRangeMetadata}
    {domain : IntegerDomain} (prepared : prepareDomain encoding range = .ok domain) :
    DomainFits encoding domain := by
  unfold prepareDomain at prepared
  simp only [bind_ok_iff, okOr_ok_iff, refuseIf_ok_iff, exists_const, Except.ok.injEq] at prepared
  obtain ⟨limits, limited, min, -, max, -, inLimits, wrap, -, rfl⟩ := prepared
  simp only [not_or, gt_iff_lt, not_lt] at inLimits
  obtain ⟨-, -, low, high, ordered⟩ := inLimits
  cases encoding with
  | i32 =>
    cases limited
    exact ⟨ordered, .inl ⟨rfl, low, Int.lt_of_le_sub_one high⟩⟩
  | i64 =>
    cases limited
    exact ⟨ordered, .inr ⟨rfl, low, Int.lt_of_le_sub_one high⟩⟩
  | f32 | f64 | bool => cases limited

theorem planTensor_spec {name : String} {parameter : Nat} {leaf : PayloadLeaf}
    {tensor : PayloadTensor} (planned : planTensor name parameter lengthPrefix leaf = .ok tensor) :
    tensor.Carries leaf.signature ∧ ∀ domain, tensor.domain = some domain →
      DomainFits tensor.encoding domain := by
  simp only [planTensor, bind_ok_iff, Except.ok.injEq] at planned
  obtain ⟨elements, folded, domain, ranged, rfl⟩ := planned
  have counted := foldlM_checkedMul folded
  rw [Nat.one_mul] at counted
  unfold leafDomain at ranged
  split at ranged
  · cases ranged
    rename_i noRange
    refine ⟨⟨rfl, counted, ?_⟩, fun domain found => by cases found⟩
    simp [domainOf, PayloadLeaf.signature, noRange]
  · rename_i range hasRange
    simp only [bind_ok_iff, Except.ok.injEq] at ranged
    obtain ⟨prepared, accepted, rfl⟩ := ranged
    refine ⟨⟨rfl, counted, ?_⟩, ?_⟩
    · simp [domainOf, PayloadLeaf.signature, hasRange, accepted]
    · rintro _ ⟨⟩
      exact prepareDomain_fits accepted

theorem planTensors_spec {name : String} {parameter : Nat} {tensors : List PayloadTensor}
    (planned : planTensors name lengthPrefix leaves parameter = .ok tensors) :
    List.Forall₂ PayloadTensor.Carries (leaves.map PayloadLeaf.signature) tensors ∧
      ∀ tensor ∈ tensors, ∀ domain, tensor.domain = some domain →
        DomainFits tensor.encoding domain := by
  induction leaves generalizing parameter tensors with
  | nil =>
    cases planned
    exact ⟨.nil, by simp⟩
  | cons leaf leaves ih =>
    simp only [planTensors, bind_ok_iff, Except.ok.injEq] at planned
    obtain ⟨tensor, here, rest, later, rfl⟩ := planned
    obtain ⟨carries, fits⟩ := planTensor_spec here
    obtain ⟨carriesLater, fitsLater⟩ := ih later
    refine ⟨.cons carries carriesLater, ?_⟩
    intro other mem
    rcases List.mem_cons.mp mem with rfl | mem
    · exact fits
    · exact fitsLater other mem

/-! ### Parameters -/

/-- What planning makes of one field: its parameter and its tensors. -/
structure PlannedField where
  param : ParameterPlan
  tensors : List PayloadTensor

/-- The plan of a field whose tensors begin at `start`. -/
structure PlannedField.Of (field : PayloadField) (start : Nat) (planned : PlannedField) : Prop where
  plain : field.ty.carried.1.Plain
  leaves : ∃ leaves, field.ty.carried.1.leaves = .ok leaves ∧
    leaves.length = field.ty.carried.1.shapes.length
  dynamic : planned.param.dynamic = field.ty.carried.2
  span : planned.param.tensors = ⟨start, start + planned.tensors.length⟩
  carries : List.Forall₂ PayloadTensor.Carries field.ty.carried.1.shapes planned.tensors
  domains : ∀ tensor ∈ planned.tensors, ∀ domain, tensor.domain = some domain →
    DomainFits tensor.encoding domain

/-- The plans of a row of fields, their tensors one behind the other from `start` on. -/
inductive PlannedRow : List PayloadField → Nat → List PlannedField → Prop where
  | nil (start : Nat) : PlannedRow [] start []
  | cons {field : PayloadField} {fields : List PayloadField} {start : Nat}
    {planned : PlannedField} {row : List PlannedField} (here : planned.Of field start)
    (later : PlannedRow fields (start + planned.tensors.length) row) :
    PlannedRow (field :: fields) start (planned :: row)

theorem planField_spec {field : PayloadField} (planned : planField planning field = .ok planning') :
    ∃ one : PlannedField, one.Of field planning.tensors.length ∧
      planning'.params = planning.params ++ [one.param] ∧
      planning'.tensors = planning.tensors ++ one.tensors := by
  simp only [planField, bind_ok_iff, refuseIf_ok_iff, exists_const, Except.ok.injEq] at planned
  obtain ⟨-, leaves, found, -, tensors, made, rfl⟩ := planned
  obtain ⟨plain, shapes⟩ := leaves_spec found
  obtain ⟨carries, domains⟩ := planTensors_spec made
  rw [shapes] at carries
  have counted : leaves.length = field.ty.carried.1.shapes.length := by
    rw [← shapes, List.length_map]
  exact ⟨⟨_, tensors⟩, ⟨plain, ⟨leaves, found, counted⟩, rfl, rfl, carries, domains⟩, rfl, rfl⟩

theorem planFields_spec {fields : List PayloadField}
    (planned : fields.foldlM planField planning = .ok planning') :
    ∃ row, PlannedRow fields planning.tensors.length row ∧
      planning'.params = planning.params ++ row.map PlannedField.param ∧
      planning'.tensors = planning.tensors ++ row.flatMap PlannedField.tensors := by
  induction fields generalizing planning with
  | nil =>
    cases planned
    exact ⟨[], .nil _, by simp, by simp⟩
  | cons field fields ih =>
    simp only [List.foldlM_cons, bind_ok_iff] at planned
    obtain ⟨between, first, rest⟩ := planned
    obtain ⟨one, here, params, tensors⟩ := planField_spec first
    obtain ⟨row, later, paramsLater, tensorsLater⟩ := ih rest
    rw [tensors, List.length_append] at later
    refine ⟨one :: row, .cons here later, ?_, ?_⟩
    · rw [paramsLater, params, List.map_cons, List.append_assoc, List.singleton_append]
    · rw [tensorsLater, tensors, List.flatMap_cons, List.append_assoc]

namespace PayloadPlan

/-- The plan consists of the plans of the fields. -/
structure Describes (plan : PayloadPlan) (fields : List PayloadField)
    (row : List PlannedField) : Prop where
  planned : PlannedRow fields 0 row
  params : plan.params = row.map PlannedField.param
  tensors : plan.tensors = row.flatMap PlannedField.tensors

variable {fields : List PayloadField} {row : List PlannedField} {plan : PayloadPlan}

theorem new_spec {floats : FloatText} {schema : PayloadSchema}
    (accepted : PayloadPlan.new floats schema = .ok plan) :
    ∃ row, plan.Describes schema.params row := by
  simp only [PayloadPlan.new, bind_ok_iff, Except.ok.injEq] at accepted
  obtain ⟨_, -, _, -, planning, planned, _, -, rfl⟩ := accepted
  obtain ⟨row, here, params, tensors⟩ := planFields_spec planned
  exact ⟨row, here, params, tensors⟩

theorem plannedRow_inside {start : Nat} (planned : PlannedRow fields start row) :
    ∀ one ∈ row, one.param.tensors.stop ≤ start + (row.flatMap PlannedField.tensors).length := by
  induction planned with
  | nil => simp
  | @cons field fields start first row here _ ih =>
    intro one mem
    rw [List.flatMap_cons, List.length_append]
    rcases List.mem_cons.mp mem with rfl | mem
    · rw [here.span]
      show start + one.tensors.length ≤ _
      omega
    · have later := ih one mem
      omega

theorem plannedRow_domains {start : Nat} (planned : PlannedRow fields start row) :
    ∀ one ∈ row, ∀ tensor ∈ one.tensors, ∀ domain, tensor.domain = some domain →
      DomainFits tensor.encoding domain := by
  induction planned with
  | nil => simp
  | cons here _ ih =>
    intro one mem
    rcases List.mem_cons.mp mem with rfl | mem
    · exact here.domains
    · exact ih one mem

/-- **Plans are sound.** -/
theorem Describes.sound (describes : plan.Describes fields row) : plan.Sound := by
  refine ⟨?_, ?_⟩
  · rw [describes.params, describes.tensors]
    intro param mem index inSpan
    obtain ⟨one, inRow, rfl⟩ := List.mem_map.mp mem
    have stops := plannedRow_inside describes.planned one inRow
    obtain ⟨low, high⟩ := List.mem_range'_1.mp inSpan
    omega
  · rw [describes.tensors]
    intro tensor mem
    obtain ⟨one, inRow, inOne⟩ := List.mem_flatMap.mp mem
    exact plannedRow_domains describes.planned one inRow tensor inOne

end PayloadPlan

end Onda.Payload
