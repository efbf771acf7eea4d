import Onda.Payload.HostRefusals

/-!
# Encoding and decoding are inverse

A host builds again what the encoder has read, and reads back what the decoder has built.
With such a host the codec loses nothing in either direction.

### Hosts whose values read back
-/

namespace Onda.Payload

/-- The type is built from a sequence. -/
def PayloadType.isSequence : PayloadType → Bool
  | .tuple _ | .array _ _ | .slice _ => true
  | _ => false

/-- The host reads back what it has built, as long as bools are zero or one. -/
structure Mirrors {V : Type} (source : PayloadSource V) (sink : PayloadSink V) : Prop where
  scalar : ∀ encoding (bytes : Bytes), bytes.length = encoding.byteSize →
    (encoding = .bool → bytes = [0] ∨ bytes = [1]) →
    source.writeScalar (sink.scalar encoding bytes) encoding = .ok bytes
  sequenceLen : ∀ ty members, ty.isSequence →
    source.sequenceLen (sink.aggregate ty members) = some members.length
  element : ∀ ty members index, ty.isSequence →
    source.member (sink.aggregate ty members) index none = members[index]?
  structLen : ∀ name fields members,
    source.structLen (sink.aggregate (.struct name fields) members) = some members.length
  field : ∀ name fields members index field, fields[index]? = some field →
    source.member (sink.aggregate (.struct name fields) members) index
      (some (PayloadField.name field)) = members[index]?

/-- The host builds what it has read. -/
structure Returns {V : Type} (source : PayloadSource V) (sink : PayloadSink V) : Prop where
  scalar : ∀ value encoding bytes, source.writeScalar value encoding = .ok bytes →
    sink.scalar encoding bytes = value
  sequence : ∀ ty value members, ty.isSequence →
    source.sequenceLen value = some members.length →
    (∀ index part, members[index]? = some part → source.member value index none = some part) →
    sink.aggregate ty members = value
  struct : ∀ name fields value members, members.length = fields.length →
    source.structLen value = some fields.length →
    (∀ index field part, fields[index]? = some field → members[index]? = some part →
      source.member value index (some (PayloadField.name field)) = some part) →
    sink.aggregate (.struct name fields) members = value

/-- Every bool among the scalars is zero or one. -/
def BoolsExact (items : List Stored) : Prop :=
  ∀ item ∈ items, item.encoding = .bool → item.scalar = [0] ∨ item.scalar = [1]

theorem BoolsExact.left {left right : List Stored} (exact' : BoolsExact (left ++ right)) :
    BoolsExact left := fun item mem => exact' item (List.mem_append_left _ mem)

theorem BoolsExact.right {left right : List Stored} (exact' : BoolsExact (left ++ right)) :
    BoolsExact right := fun item mem => exact' item (List.mem_append_right _ mem)

section Mirror

variable {V : Type} {source : PayloadSource V} {sink : PayloadSink V}

/-- What is built for a tree of the type reads as the tree. -/
def Mirrored (source : PayloadSource V) (sink : PayloadSink V) (ty : PayloadType) : Prop :=
  ∀ tree start, ty.Matches tree → BoolsExact (trace ty tree start) →
    ty.Reads source (ty.build sink tree) tree

variable {members : List HostValue} {fields : List PayloadField} {elements : List PayloadType}
  {index start : Nat} {element : PayloadType} {value : V}

theorem length_buildElements (fits : List.Forall₂ PayloadType.Matches elements members) :
    (buildElements sink elements members).length = elements.length := by
  induction fits with
  | nil => rfl
  | cons _ _ ih => rw [buildElements, List.length_cons, List.length_cons, ih]

theorem length_buildFields
    (fits : List.Forall₂ PayloadType.Matches (fields.map PayloadField.ty) members) :
    (buildFields sink fields members).length = fields.length := by
  rw [buildFields_eq, length_buildElements fits, List.length_map]

theorem mirrored_elements (fits : List.Forall₂ PayloadType.Matches elements members)
    (mirrored : ∀ ty ∈ elements, Mirrored source sink ty)
    (exact' : BoolsExact (elementsTrace elements members start))
    (parts : ∀ position, source.member value (index + position) none =
      (buildElements sink elements members)[position]?) :
    elementsRead source elements value index members := by
  induction fits generalizing start index with
  | nil => rfl
  | @cons ty member elements members here _ ih =>
    rw [elementsTrace] at exact'
    rw [buildElements] at parts
    refine ⟨ty.build sink member, member, members, rfl, parts 0,
      mirrored ty (by simp) member start here exact'.left,
      ih (fun ty mem => mirrored ty (by simp [mem])) exact'.right fun position => ?_⟩
    rw [Nat.add_assoc, Nat.add_comm 1 position, parts, List.getElem?_cons_succ]

theorem mirrored_fields
    (fits : List.Forall₂ PayloadType.Matches (fields.map PayloadField.ty) members)
    (mirrored : ∀ field ∈ fields, Mirrored source sink field.ty)
    (exact' : BoolsExact (fieldsTrace fields members start))
    (parts : ∀ position field, fields[position]? = some field →
      source.member value (index + position) (some field.name) =
        (buildFields sink fields members)[position]?) :
    fieldsRead source fields value index members := by
  induction fields generalizing members start index with
  | nil =>
    cases fits
    rfl
  | cons field fields ih =>
    obtain ⟨name, ty, default⟩ := field
    obtain ⟨member, members, here, fitsLater, rfl⟩ := List.forall₂_cons_left_iff.mp fits
    rw [fieldsTrace] at exact'
    rw [buildFields] at parts
    refine ⟨ty.build sink member, member, members, rfl, parts 0 _ rfl,
      mirrored (.mk name ty default) (by simp) member start here exact'.left,
      ih fitsLater (fun field mem => mirrored field (by simp [mem])) exact'.right ?_⟩
    intro position field found
    rw [Nat.add_assoc, Nat.add_comm 1 position, parts (position + 1) field (by simpa using found),
      List.getElem?_cons_succ]

theorem mirrored_run (mirrored : Mirrored source sink element)
    (fits : ∀ member ∈ members, element.Matches member)
    (exact' : BoolsExact (members.flatMap fun member => trace element member start))
    (parts : ∀ index, source.member value index none =
      (members.map fun member => element.build sink member)[index]?) :
    List.Forall₂ (fun index member => ∃ part, source.member value index none = some part ∧
      element.Reads source part member) (List.range members.length) members := by
  refine List.forall₂_iff_get.mpr ⟨List.length_range, ?_⟩
  intro index inRange inside
  have mem : members.get ⟨index, inside⟩ ∈ members := List.get_mem _ _
  refine ⟨element.build sink (members.get ⟨index, inside⟩), ?_, ?_⟩
  · rw [parts, List.get_eq_getElem, List.getElem_range, List.getElem?_map,
      List.getElem?_eq_getElem inside]
    rfl
  · exact mirrored _ start (fits _ mem) fun item inTrace =>
      exact' item (List.mem_flatMap.mpr ⟨_, mem, inTrace⟩)

section

variable (mirrors : Mirrors source sink)

include mirrors

theorem mirrored_scalar {ty : PayloadType} (scalar : ty.isScalar) : Mirrored source sink ty := by
  cases ty with
  | tuple | struct | array | slice => cases scalar
  | scalar encoding range =>
    rintro tree start ⟨spelled, wide⟩ exact'
    exact ⟨spelled, mirrors.scalar encoding tree.bytes wide fun isBool =>
      exact' ⟨start, encoding, tree.bytes⟩ (List.mem_singleton.mpr rfl) isBool⟩

theorem PayloadType.Plain.mirrored {ty : PayloadType} (plain : ty.Plain) :
    Mirrored source sink ty := by
  induction plain with
  | scalar encoding range => exact mirrored_scalar mirrors rfl
  | tuple elements scalars =>
    rintro tree start ⟨spelled, fits⟩ exact'
    have row := elementsMatch_iff.mp fits
    refine ⟨spelled, ?_, mirrored_elements row
      (fun ty mem => mirrored_scalar mirrors (scalars ty mem)) exact' fun position => ?_⟩
    · rw [PayloadType.build, mirrors.sequenceLen _ _ rfl, length_buildElements row]
    · rw [PayloadType.build, mirrors.element _ _ _ rfl, Nat.zero_add]
  | struct name fields plain mirrored =>
    rintro tree start ⟨spelled, fits⟩ exact'
    have row := fieldsMatch_iff.mp fits
    refine ⟨spelled, ?_, mirrored_fields row mirrored exact' fun position field found => ?_⟩
    · rw [PayloadType.build, mirrors.structLen, length_buildFields row]
    · rw [PayloadType.build, Nat.zero_add, mirrors.field _ _ _ _ _ found]
  | array element len nonempty plain mirrored =>
    rintro tree start ⟨spelled, counted, fits⟩ exact'
    refine ⟨spelled, ?_, ?_⟩
    · rw [PayloadType.build, mirrors.sequenceLen _ _ rfl, List.length_map, counted]
    · rw [← counted]
      exact mirrored_run mirrored fits exact' fun index => mirrors.element _ _ _ rfl

theorem mirrored_field {field : PayloadField} {one : PlannedField} {start : Nat}
    (planned : one.Of field start) : Mirrored source sink field.ty := by
  have plain := planned.plain
  obtain ⟨name, ty, default⟩ := field
  cases ty with
  | slice element =>
    rintro tree start ⟨spelled, fits⟩ exact'
    refine ⟨spelled, ?_, mirrored_run (plain.mirrored mirrors) fits exact'
      fun index => mirrors.element _ _ _ rfl⟩
    show source.sequenceLen (sink.aggregate (.slice element) _) = _
    rw [mirrors.sequenceLen _ _ rfl, List.length_map]
  -- Everything else is plain.
  | scalar | tuple | struct | array => exact plain.mirrored mirrors

/-- The values built for a row of trees read as the trees. -/
theorem mirrored_row {fields : List PayloadField} {row : List PlannedField} {start : Nat}
    (planned : PlannedRow fields start row) {trees : List HostValue}
    (fits : List.Forall₂ PayloadField.Fits fields trees)
    (exact' : BoolsExact (payloadTrace fields trees start)) :
    ReadRow source fields
      (List.zipWith (fun field tree => field.ty.build sink tree) fields trees) trees := by
  induction planned generalizing trees with
  | nil =>
    cases fits
    exact .nil
  | @cons field fields start one row here _ ih =>
    obtain ⟨tree, trees, fitsHere, fitsLater, rfl⟩ := List.forall₂_cons_left_iff.mp fits
    rw [payloadTrace, leafCount_field here] at exact'
    have first : BoolsExact (trace field.ty tree 0) := by
      intro item mem
      exact exact'.left (item.shift start) (List.mem_map_of_mem mem)
    exact .cons (mirrored_field mirrors here tree 0 fitsHere.1 first) (ih fitsLater exact'.right)

end

/-- A value that reads as a tree of the type is built again. -/
def Returned (source : PayloadSource V) (sink : PayloadSink V) (ty : PayloadType) : Prop :=
  ∀ value tree, ty.Reads source value tree → ty.build sink tree = value

theorem returned_elements (returned : ∀ ty ∈ elements, Returned source sink ty)
    (reads : elementsRead source elements value index members) :
    (buildElements sink elements members).length = elements.length ∧
      ∀ position part, (buildElements sink elements members)[position]? = some part →
        source.member value (index + position) none = some part := by
  induction elements generalizing index members with
  | nil => simp [buildElements]
  | cons ty elements ih =>
    obtain ⟨part, member, rest, rfl, found, here, later⟩ := reads
    obtain ⟨counted, parts⟩ := ih (fun ty mem => returned ty (by simp [mem])) later
    rw [buildElements, returned ty (by simp) part member here]
    refine ⟨by rw [List.length_cons, counted, List.length_cons], ?_⟩
    intro position part' at'
    cases position with
    | zero =>
      rw [← at']
      exact found
    | succ position =>
      rw [Nat.add_comm position 1, ← Nat.add_assoc]
      exact parts position part' (by simpa using at')

theorem returned_fields (returned : ∀ field ∈ fields, Returned source sink field.ty)
    (reads : fieldsRead source fields value index members) :
    (buildFields sink fields members).length = fields.length ∧
      ∀ position field part, fields[position]? = some field →
        (buildFields sink fields members)[position]? = some part →
        source.member value (index + position) (some field.name) = some part := by
  induction fields generalizing index members with
  | nil => simp [buildFields]
  | cons field fields ih =>
    obtain ⟨name, ty, default⟩ := field
    obtain ⟨part, member, rest, rfl, found, here, later⟩ := reads
    obtain ⟨counted, parts⟩ := ih (fun field mem => returned field (by simp [mem])) later
    have built : ty.build sink member = part :=
      returned (.mk name ty default) (by simp) part member here
    rw [buildFields, built]
    refine ⟨by rw [List.length_cons, counted, List.length_cons], ?_⟩
    intro position field part' known at'
    cases position with
    | zero =>
      obtain rfl := Option.some.inj known
      rw [← at']
      exact found
    | succ position =>
      rw [Nat.add_comm position 1, ← Nat.add_assoc]
      exact parts position field part' (by simpa using known) (by simpa using at')

theorem returned_run (returned : Returned source sink element)
    (reads : List.Forall₂ (fun index member => ∃ part,
      source.member value index none = some part ∧ element.Reads source part member)
      (List.range members.length) members) :
    ∀ index part, (members.map fun member => element.build sink member)[index]? = some part →
      source.member value index none = some part := by
  intro index part at'
  obtain ⟨member, found, built⟩ := List.getElem?_map .. ▸ at' |> Option.map_eq_some_iff.mp
  obtain ⟨inside, rfl⟩ := List.getElem?_eq_some_iff.mp found
  obtain ⟨part', found', readsHere⟩ :=
    (List.forall₂_iff_get.mp reads).2 index (by simpa using inside) inside
  rw [List.get_eq_getElem, List.getElem_range] at found'
  rw [found', ← built]
  exact congrArg some (returned part' _ readsHere).symm

section

variable (returns : Returns source sink)

include returns

theorem returned_scalar {ty : PayloadType} (scalar : ty.isScalar) : Returned source sink ty := by
  cases ty with
  | tuple | struct | array | slice => cases scalar
  | scalar encoding range =>
    rintro value tree ⟨-, written⟩
    exact returns.scalar value encoding _ written

theorem PayloadType.Plain.returned {ty : PayloadType} (plain : ty.Plain) :
    Returned source sink ty := by
  induction plain with
  | scalar encoding range => exact returned_scalar returns rfl
  | tuple elements scalars =>
    rintro value tree ⟨-, counted, reads⟩
    obtain ⟨len, parts⟩ :=
      returned_elements (fun ty mem => returned_scalar returns (scalars ty mem)) reads
    refine returns.sequence _ value _ rfl (by rw [len, counted]) fun index part at' => ?_
    rw [← parts index part at', Nat.zero_add]
  | struct name fields plain returned =>
    rintro value tree ⟨-, counted, reads⟩
    obtain ⟨len, parts⟩ := returned_fields returned reads
    refine returns.struct name fields value _ len counted ?_
    intro index field part known at'
    rw [← parts index field part known at', Nat.zero_add]
  | array element len nonempty plain returned =>
    rintro value tree ⟨-, counted, reads⟩
    have same : len = tree.members.length := by simpa using reads.length_eq
    subst same
    exact returns.sequence _ value _ rfl (by rw [List.length_map, counted])
      (returned_run returned reads)

theorem returned_field {field : PayloadField} {one : PlannedField} {start : Nat}
    (planned : one.Of field start) : Returned source sink field.ty := by
  have plain := planned.plain
  obtain ⟨name, ty, default⟩ := field
  cases ty with
  | slice element =>
    rintro value tree ⟨-, counted, reads⟩
    exact returns.sequence _ value _ rfl (by rw [List.length_map, counted])
      (returned_run (plain.returned returns) reads)
  | scalar | tuple | struct | array => exact plain.returned returns

/-- Values that read as a row of trees are built again. -/
theorem returned_row {fields : List PayloadField} {row : List PlannedField} {start : Nat}
    (planned : PlannedRow fields start row) {values : List V} {trees : List HostValue}
    (complete : values.length = fields.length) (reads : ReadRow source fields values trees) :
    List.zipWith (fun field tree => field.ty.build sink tree) fields trees = values := by
  induction planned generalizing values trees with
  | nil => exact (List.length_eq_zero_iff.mp complete).symm
  | @cons field fields start one row here _ ih =>
    cases values with
    | nil => cases complete
    | cons value values =>
      obtain ⟨tree, trees, readsHere, readsLater, rfl⟩ := List.forall₂_cons_left_iff.mp reads
      rw [List.zipWith_cons_cons, returned_field returns here value tree readsHere,
        ih (by simpa using complete) readsLater]

end

end Mirror

/-! ### The two directions -/

/-- There is one value for each parameter, and it has the form of the parameter's type. -/
def PayloadSchema.Accepts {V : Type} (schema : PayloadSchema) (source : PayloadSource V)
    (values : List V) : Prop :=
  values.length = schema.params.length ∧ ∃ trees, ReadRow source schema.params values trees

section Codec

variable {V : Type} {source : PayloadSource V} {sink : PayloadSink V} {schema : PayloadSchema}
  {plan : PayloadPlan} {row : List PlannedField}

theorem decode_encode (describes : plan.Describes schema.params row)
    (named : plan.schema = schema) (fills : source.Fills) (returns : Returns source sink)
    {values : List V} (matched : schema.Accepts source values) {lengths : List Int}
    {sizes : Nat × Nat} (valued : valueLengths source plan values
      (List.replicate plan.dynamicParameters 0) = .ok lengths)
    (sized : plan.sizes lengths = .ok sizes) :
    ∃ wire, wire.length = sizes.1 ∧ encodeValues source plan values = .ok wire ∧
      (∀ workspace : PayloadEncoderWorkspace,
        plan.dynamicParameters ≤ workspace.lengths.length →
        plan.tensors.length ≤ workspace.offsets.length →
        sizes.1 ≤ workspace.output.length →
        ∃ workspace', workspace.encode source plan values = .ok (wire, workspace')) ∧
      plan.decodeValues sink wire = .ok values := by
  obtain ⟨complete, trees, reads⟩ := matched
  -- Both computations have succeeded, so the trees have a wire form within an `i32`.
  have represents := describes.represents_of_sizes fills complete reads List.length_replicate
    valued sized
  have same := Except.ok.inj ((describes.valueLengths complete reads represents.fits
    List.length_replicate).symm.trans valued)
  have known := describes.sizes represents
  rw [same, sized] at known
  obtain rfl := Except.ok.inj known
  refine ⟨schema.wireForm trees, rfl, describes.encodeValues named complete reads represents,
    ?_, ?_⟩
  · intro workspace lengthRoom offsetRoom space
    obtain ⟨workspace', encoded, -⟩ :=
      describes.encode named complete reads represents workspace lengthRoom offsetRoom space
    exact ⟨workspace', encoded⟩
  · rw [describes.decodeValues named represents, returned_row returns describes.planned complete
      reads]

theorem encode_decode (describes : plan.Describes schema.params row)
    (named : plan.schema = schema) (mirrors : Mirrors source sink) {input : Bytes}
    {required : Nat} (sufficient : plan.requiredWorkspace input = .ok required) :
    ∃ trees values, plan.Represents schema input trees ∧
      plan.decodeValues sink input = .ok values ∧
      (BoolsExact (payloadTrace schema.params trees 0) →
        encodeValues source plan values = .ok input) := by
  obtain ⟨lens, pieces, splits, -⟩ :=
    (PayloadPlan.requiredWorkspace_ok_iff describes.sound).mp sufficient
  obtain ⟨trees, fits, rfl, -, wire, wireFits, workspaceFits⟩ := describes.splits_iff.mp splits
  have represents : plan.Represents schema input trees := ⟨fits, wire, wireFits, workspaceFits⟩
  refine ⟨trees, _, represents, describes.decodeValues named represents, fun exact' => ?_⟩
  have reads := mirrored_row mirrors describes.planned fits exact'
  have complete : (List.zipWith (fun (field : PayloadField) tree => field.ty.build sink tree)
      schema.params trees).length = schema.params.length := by
    rw [List.length_zipWith, ← fits.length_eq, Nat.min_self]
  rw [wire]
  exact describes.encodeValues named complete reads (wire ▸ represents)

theorem encode_refuses (describes : plan.Describes schema.params row)
    (named : plan.schema = schema) (fills : source.Fills) (composed : source.Composed)
    {values : List V} (unmatched : ¬schema.Accepts source values) :
    (∃ error, encodeValues source plan values = reject error) ∧
      ∀ workspace : PayloadEncoderWorkspace, ∃ error,
        workspace.encode source plan values = reject error := by
  have refuses (workspace : PayloadEncoderWorkspace) (result : Bytes × PayloadEncoderWorkspace) :
      workspace.encode source plan values ≠ .ok result :=
    fun encoded => unmatched (describes.reads_of_encode named encoded)
  constructor
  · refine (describes.encodeValues_calm named fills composed values).rejects fun wire encoded => ?_
    simp only [encodeValues, bind_ok_iff] at encoded
    obtain ⟨-, -, -, -, workspace, -, result, encoded, -⟩ := encoded
    exact refuses workspace result encoded
  · intro workspace
    exact (describes.encode_calm named fills composed workspace values).rejects (refuses workspace)

end Codec

def treeSource : PayloadSource HostValue where
  sequenceLen
    | .scalar _ => none
    | .aggregate members => some members.length
  structLen
    | .scalar _ => none
    | .aggregate members => some members.length
  member
    | .scalar _, _, _ => none
    | .aggregate members, index, _ => members[index]?
  writeScalar
    | .scalar bytes, encoding =>
      if bytes.length = encoding.byteSize then .ok bytes else reject .invalidValue
    | .aggregate _, _ => reject .invalidValue

def treeSink : PayloadSink HostValue where
  scalar _ bytes := .scalar bytes
  aggregate _ members := .aggregate members

variable {value : HostValue}

theorem treeSource_writeScalar {encoding : ScalarEncoding} {bytes : Bytes} :
    treeSource.writeScalar value encoding = .ok bytes ↔
      value = .scalar bytes ∧ bytes.length = encoding.byteSize := by
  cases value with
  | aggregate members => simp [treeSource, reject]
  | scalar spelled =>
    by_cases wide : spelled.length = encoding.byteSize
    · simp only [treeSource, if_pos wide, Except.ok.injEq, HostValue.scalar.injEq]
      exact ⟨fun same => ⟨same, same ▸ wide⟩, fun both => both.1⟩
    · simp only [treeSource, if_neg wide, reject, reduceCtorEq, HostValue.scalar.injEq, false_iff]
      rintro ⟨rfl, wide'⟩
      exact wide wide'

theorem treeSource_composed : treeSource.Composed := by
  intro value encoding
  cases value with
  | aggregate members => exact Calm.reject _
  | scalar bytes =>
    unfold treeSource
    dsimp only
    split
    · exact Calm.ok _
    · exact Calm.reject _

theorem aggregate_of_parts {members : List HostValue}
    (counted : treeSource.sequenceLen value = some members.length)
    (parts : ∀ index part, members[index]? = some part →
      treeSource.member value index none = some part) : HostValue.aggregate members = value := by
  cases value with
  | scalar bytes => cases counted
  | aggregate held =>
    have same : held.length = members.length := Option.some.inj counted
    refine congrArg HostValue.aggregate (List.ext_getElem same.symm fun index inside inHeld => ?_)
    have found := parts index members[index] (List.getElem?_eq_getElem inside)
    exact (Option.some.inj ((List.getElem?_eq_getElem inHeld).symm.trans found)).symm

theorem treeSource_returns : Returns treeSource treeSink where
  scalar value encoding bytes written := (treeSource_writeScalar.mp written).1.symm
  sequence ty value members _ counted parts := aggregate_of_parts counted parts
  struct name fields value members complete counted parts := by
    have held : treeSource.sequenceLen value = some members.length := by
      rw [complete, ← counted]
      cases value <;> rfl
    refine aggregate_of_parts held fun index part found => ?_
    have inside : index < fields.length := by
      rw [← complete]
      exact (List.getElem?_eq_some_iff.mp found).1
    rw [← parts index fields[index] part (List.getElem?_eq_getElem inside) found]
    cases value <;> rfl

theorem treeSource_mirrors : Mirrors treeSource treeSink where
  scalar _ _ wide _ := treeSource_writeScalar.mpr ⟨rfl, wide⟩
  sequenceLen _ _ _ := rfl
  element _ _ _ _ := rfl
  structLen _ _ _ := rfl
  field _ _ _ _ _ _ := rfl

/-- The values are read as they are. -/
theorem levelValues_accepted : levelSchema.Accepts treeSource levelValues := by
  refine ⟨rfl, levelValues, .cons ⟨rfl, rfl⟩ (.cons ⟨rfl, rfl, ?_⟩ .nil)⟩
  exact .cons ⟨.scalar [7], rfl, rfl, rfl⟩ (.cons ⟨.scalar [0], rfl, rfl, rfl⟩ .nil)

end Onda.Payload
