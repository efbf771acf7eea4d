import Onda.Payload.Canonical

/-!
# The payload codec

The wire form of a list of host values, and what the codec does with it: exactly the wire
forms that are not too large can be prepared, encoding gives the wire form of the canonical
values, and a refusal leaves the caller's buffers.

### Wire forms
-/

namespace Onda.Payload

open Wire

namespace PayloadField

/-- The number of elements a parameter carries. -/
def lengthOf (field : PayloadField) (value : HostValue) : Nat :=
  if field.ty.carried.2 then value.members.length else 1

/-- A slice begins with its length; the columns follow, each in one piece. -/
def pieces (field : PayloadField) (value : HostValue) : List Bytes :=
  (if field.ty.carried.2 then [littleEndian 4 value.members.length] else []) ++
    (field.ty.columns value).map List.flatten

/-- The value has the form of the field's type, and its length is an `i32`. -/
def Fits (field : PayloadField) (value : HostValue) : Prop :=
  field.ty.Matches value ∧ (field.ty.carried.2 → value.members.length < 2 ^ 31)

end PayloadField

namespace PayloadSchema

/-- One value for each parameter. -/
def Fits (schema : PayloadSchema) (values : List HostValue) : Prop :=
  List.Forall₂ PayloadField.Fits schema.params values

/-- **The wire form**: for each parameter its length, if it is a slice, and its columns. -/
def wireForm (schema : PayloadSchema) (values : List HostValue) : Bytes :=
  (List.zipWith PayloadField.pieces schema.params values).flatten.flatten

def lengths (schema : PayloadSchema) (values : List HostValue) : List Nat :=
  List.zipWith PayloadField.lengthOf schema.params values

/-- `targets` are the values with their scalars in canonical form. -/
def Normalized (schema : PayloadSchema) (values targets : List HostValue) : Prop :=
  List.Forall₂ (fun (pair : PayloadField × HostValue) target =>
    pair.1.lengthOf target = pair.1.lengthOf pair.2 ∧
      ColumnsNormalized pair.1.ty.carried.1.shapes (pair.1.ty.columns pair.2)
        (pair.1.ty.columns target)) (schema.params.zip values) targets

/-- The values in canonical form. -/
def normalize (schema : PayloadSchema) (values : List HostValue) : List HostValue :=
  List.zipWith (fun field value => field.ty.normalize value) schema.params values

end PayloadSchema

/-! ### Columns and pieces -/

section Pieces

variable {before after : List PayloadTensor} {shapes : List LeafShape}
  {tensors : List PayloadTensor} {len : Nat}

theorem tensorSlots_cons (tensor : PayloadTensor) :
    tensorSlots (before ++ (tensor :: tensors ++ after)) len
        (List.range' before.length (tensors.length + 1)) =
      Slot.ofTensor before.length len tensor ::
        tensorSlots ((before ++ [tensor]) ++ (tensors ++ after)) len
          (List.range' (before ++ [tensor]).length tensors.length) := by
  rw [List.range'_succ, tensorSlots, List.filterMap_cons, List.length_append,
    List.length_singleton, List.append_assoc]
  simp [tensorSlots]

/-- **Slots hold columns.** The pieces of a parameter's tensors are the columns of `len`
values, each in one piece. -/
theorem holds_columns_iff (carries : List.Forall₂ PayloadTensor.Carries shapes tensors)
    {pieces : List Bytes} :
    List.Forall₂ (Holds (before ++ (tensors ++ after)))
        (tensorSlots (before ++ (tensors ++ after)) len
          (List.range' before.length tensors.length)) pieces ↔
      ∃ columns, Columned len shapes columns ∧ pieces = columns.map List.flatten := by
  induction carries generalizing before pieces with
  | nil =>
    constructor
    · intro holds
      cases holds
      exact ⟨[], .nil, rfl⟩
    · rintro ⟨columns, columned, rfl⟩
      cases columned
      exact .nil
  | @cons shape tensor shapes tensors here _ ih =>
    have found : (before ++ (tensor :: tensors ++ after))[before.length]? = some tensor := by simp
    have later := @ih (before ++ [tensor])
    rw [List.length_cons, tensorSlots_cons]
    simp only [List.append_assoc, List.nil_append, List.cons_append] at later found ⊢
    constructor
    · intro holds
      obtain ⟨piece, pieces, first, rest, rfl⟩ := List.forall₂_cons_left_iff.mp holds
      obtain ⟨columns, columned, rfl⟩ := later.mp rest
      generalize spelled : Slot.ofTensor before.length len tensor = slot at first
      cases first with
      | length => cases spelled
      | tensor index len' leaf scalars foundLeaf even count =>
        obtain ⟨sameIndex, sameLen, -⟩ : some before.length = some index ∧ len = len' ∧ True := by
          simp only [Slot.ofTensor, Slot.mk.injEq] at spelled
          exact ⟨spelled.1, spelled.2.1, trivial⟩
        obtain rfl := Option.some.inj sameIndex
        subst sameLen
        obtain rfl : leaf = tensor := Option.some.inj (foundLeaf.symm.trans found)
        refine ⟨scalars :: columns, .cons ⟨?_, ?_⟩ columned, rfl⟩
        · rw [count, here.elements]
        · rw [← here.encoding]
          exact even
    · rintro ⟨columns, columned, rfl⟩
      obtain ⟨column, columns, ⟨count, even⟩, rest, rfl⟩ := List.forall₂_cons_left_iff.mp columned
      rw [← here.elements] at count
      rw [← here.encoding] at even
      exact .cons (.tensor before.length len tensor column found even count)
        (later.mpr ⟨columns, rest, rfl⟩)

/-- The canonical pieces of a parameter are its canonical columns. -/
theorem image_columns (carries : List.Forall₂ PayloadTensor.Carries shapes tensors)
    {columns : List (List Bytes)} (columned : Columned len shapes columns) :
    List.zipWith (image (before ++ (tensors ++ after)) false)
        (tensorSlots (before ++ (tensors ++ after)) len
          (List.range' before.length tensors.length)) (columns.map List.flatten) =
      (normalizeColumns shapes columns).map List.flatten := by
  induction carries generalizing before columns with
  | nil =>
    cases columned
    rfl
  | @cons shape tensor shapes tensors here _ ih =>
    have found : (before ++ (tensor :: tensors ++ after))[before.length]? = some tensor := by simp
    obtain ⟨column, columns, ⟨count, even⟩, rest, rfl⟩ := List.forall₂_cons_left_iff.mp columned
    have later := @ih (before ++ [tensor]) columns rest
    rw [← here.encoding] at even
    rw [List.length_cons, tensorSlots_cons, List.map_cons, List.zipWith_cons_cons,
      image_ofTensor found even, normalizeColumns, List.zipWith_cons_cons, List.map_cons]
    simp only [List.append_assoc, List.nil_append, List.cons_append] at later ⊢
    rw [later, here.encoding, here.domain]
    rfl

end Pieces

/-! ### Fields -/

section Fields

variable {field : PayloadField} {one : PlannedField} {before after : List PayloadTensor}

theorem paramSlots_eq (planned : one.Of field before.length) (len : Nat) :
    paramSlots (before ++ (one.tensors ++ after)) one.param len =
      (if field.ty.carried.2 then [Slot.ofLength len] else []) ++
        tensorSlots (before ++ (one.tensors ++ after)) len
          (List.range' before.length one.tensors.length) := by
  rw [paramSlots, planned.dynamic, planned.span, Span.indices, Nat.add_sub_cancel_left]

variable {value : HostValue} {start : Nat}

/-- The columns of a run of a slice, or of a fixed value. -/
theorem columns_of_field (planned : one.Of field start) (fits : field.ty.Matches value) :
    Columned (field.lengthOf value) field.ty.carried.1.shapes (field.ty.columns value) := by
  have faithful := planned.plain.faithful
  unfold PayloadField.lengthOf
  cases field with
  | mk name ty default =>
    cases ty with
    | slice element => exact columned_run faithful fits.2
    | scalar | tuple | struct | array => exact faithful.columned value fits

theorem value_of_columns (planned : one.Of field start) {len : Nat}
    (static : field.ty.carried.2 = false → len = 1) {columns : List (List Bytes)}
    (columned : Columned len field.ty.carried.1.shapes columns) :
    ∃ value, field.ty.Matches value ∧ field.lengthOf value = len ∧
      field.ty.columns value = columns := by
  have faithful := planned.plain.faithful
  cases field with
  | mk name ty default =>
    cases ty with
    | slice element =>
      obtain ⟨members, counted, fits, same⟩ := onto_run faithful columned
      exact ⟨.aggregate members, ⟨rfl, fits⟩, counted, same⟩
    | scalar | tuple | struct | array =>
      obtain rfl := static rfl
      obtain ⟨value, fits, same⟩ := faithful.onto columns columned
      exact ⟨value, fits, rfl, same⟩

theorem normal_of_field (planned : one.Of field start) (fits : field.Fits value) :
    field.Fits (field.ty.normalize value) ∧
      field.lengthOf (field.ty.normalize value) = field.lengthOf value ∧
      field.ty.columns (field.ty.normalize value) =
        normalizeColumns field.ty.carried.1.shapes (field.ty.columns value) := by
  have faithful := planned.plain.faithful
  obtain ⟨fits, small⟩ := fits
  cases field with
  | mk name ty default =>
    cases ty with
    | slice element =>
      have counted : (value.members.map fun member => element.normalize member).length =
          value.members.length := List.length_map _
      exact ⟨⟨⟨rfl, matches_run faithful fits.2⟩, fun dynamic => counted.trans_lt (small dynamic)⟩,
        counted, normal_run faithful fits.2⟩
    | scalar | tuple | struct | array =>
      obtain ⟨matched, same⟩ := faithful.normal value fits
      exact ⟨⟨matched, fun dynamic => by cases dynamic⟩, rfl, same⟩

/-- **One parameter.** Its slots hold the pieces of the values of its type. -/
theorem holds_field_iff (planned : one.Of field before.length) {len : Nat}
    {pieces : List Bytes} :
    ((one.param.dynamic = false → len = 1) ∧
        List.Forall₂ (Holds (before ++ (one.tensors ++ after)))
          (paramSlots (before ++ (one.tensors ++ after)) one.param len) pieces) ↔
      ∃ value, field.Fits value ∧ len = field.lengthOf value ∧ pieces = field.pieces value := by
  rw [paramSlots_eq planned, planned.dynamic]
  constructor
  · rintro ⟨static, holds⟩
    by_cases dynamic : field.ty.carried.2
    · rw [if_pos dynamic, List.singleton_append, List.forall₂_cons_left_iff] at holds
      obtain ⟨piece, pieces, first, rest, rfl⟩ := holds
      obtain ⟨columns, columned, rfl⟩ := (holds_columns_iff planned.carries).mp rest
      obtain ⟨value, fits, rfl, rfl⟩ := value_of_columns planned static columned
      have counted : field.lengthOf value = value.members.length := if_pos dynamic
      generalize spelled : Slot.ofLength (field.lengthOf value) = slot at first
      cases first with
      | tensor => cases spelled
      | length len small =>
        have same : field.lengthOf value = len := congrArg Slot.len spelled
        refine ⟨value, ⟨fits, fun _ => by omega⟩, rfl, ?_⟩
        rw [PayloadField.pieces, if_pos dynamic, ← counted, same]
        rfl
    · rw [if_neg dynamic, List.nil_append] at holds
      obtain ⟨columns, columned, rfl⟩ := (holds_columns_iff planned.carries).mp holds
      obtain ⟨value, fits, rfl, rfl⟩ := value_of_columns planned static columned
      exact ⟨value, ⟨fits, fun dynamic' => absurd dynamic' dynamic⟩, rfl, by
        rw [PayloadField.pieces, if_neg dynamic, List.nil_append]⟩
  · rintro ⟨value, ⟨fits, small⟩, rfl, rfl⟩
    refine ⟨fun static => if_neg (by simp [static]), ?_⟩
    have rest := (@holds_columns_iff before after _ _ _ planned.carries _).mpr
      ⟨_, columns_of_field planned fits, rfl⟩
    unfold PayloadField.pieces
    by_cases dynamic : field.ty.carried.2
    · have counted : field.lengthOf value = value.members.length := if_pos dynamic
      rw [if_pos dynamic, if_pos dynamic, ← counted]
      exact .cons (.length _ (by rw [counted]; exact small dynamic)) rest
    · rw [if_neg dynamic, if_neg dynamic]
      exact rest

theorem image_field (planned : one.Of field before.length) (fits : field.Fits value) :
    List.zipWith (image (before ++ (one.tensors ++ after)) false)
        (paramSlots (before ++ (one.tensors ++ after)) one.param (field.lengthOf value))
        (field.pieces value) =
      field.pieces (field.ty.normalize value) := by
  obtain ⟨-, sameLength, sameColumns⟩ := normal_of_field planned fits
  have columns := @image_columns before after _ _ _ planned.carries _
    (columns_of_field planned fits.1)
  rw [← sameColumns] at columns
  rw [paramSlots_eq planned, PayloadField.pieces, PayloadField.pieces]
  by_cases dynamic : field.ty.carried.2
  · have counted : (field.ty.normalize value).members.length = value.members.length := by
      simpa only [PayloadField.lengthOf, if_pos dynamic] using sameLength
    rw [if_pos dynamic, if_pos dynamic, if_pos dynamic, counted]
    simp only [List.singleton_append, List.zipWith_cons_cons, columns, image_ofLength]
    rfl
  · rw [if_neg dynamic, if_neg dynamic, if_neg dynamic]
    simpa using columns

end Fields

/-! ### Whole payloads -/

section Rows

theorem slots_cons (tensors : List PayloadTensor) (param : ParameterPlan)
    (params : List ParameterPlan) (len : Nat) (lens : List Nat) :
    slots tensors (param :: params) (len :: lens) =
      paramSlots tensors param len ++ slots tensors params lens := rfl

variable {before : List PayloadTensor} {fields : List PayloadField} {row : List PlannedField}

/-- **The parameters of a schema**, one behind the other. -/
theorem holds_row_iff (planned : PlannedRow fields before.length row) {lens : List Nat}
    {pieces : List Bytes} :
    (Lengths (row.map PlannedField.param) lens ∧
        List.Forall₂ (Holds (before ++ row.flatMap PlannedField.tensors))
          (slots (before ++ row.flatMap PlannedField.tensors)
            (row.map PlannedField.param) lens) pieces) ↔
      ∃ values, List.Forall₂ PayloadField.Fits fields values ∧
        lens = List.zipWith PayloadField.lengthOf fields values ∧
        pieces = (List.zipWith PayloadField.pieces fields values).flatten := by
  generalize started : before.length = start at planned
  induction planned generalizing before lens pieces with
  | nil =>
    constructor
    · rintro ⟨lengths, holds⟩
      cases lengths
      cases holds
      exact ⟨[], .nil, rfl, rfl⟩
    · rintro ⟨values, fits, rfl, rfl⟩
      cases fits
      exact ⟨.nil, .nil⟩
  | @cons field fields start one row here _ ih =>
    subst started
    have later := fun lens pieces => @ih (before ++ one.tensors) lens pieces (by simp)
    simp only [List.append_assoc] at later
    rw [List.flatMap_cons, List.map_cons]
    constructor
    · rintro ⟨lengths, holds⟩
      obtain ⟨len, lens, static, fixed, rfl⟩ := List.forall₂_cons_left_iff.mp lengths
      rw [slots_cons, forall₂_append_left_iff] at holds
      obtain ⟨front, back, first, rest, rfl⟩ := holds
      obtain ⟨value, fits, rfl, rfl⟩ := (holds_field_iff here).mp ⟨static, first⟩
      obtain ⟨values, fitsLater, rfl, rfl⟩ := (later lens back).mp ⟨fixed, rest⟩
      exact ⟨value :: values, .cons fits fitsLater, rfl, rfl⟩
    · rintro ⟨values, fits, rfl, rfl⟩
      obtain ⟨value, values, fitsHere, fitsLater, rfl⟩ := List.forall₂_cons_left_iff.mp fits
      obtain ⟨static, first⟩ := (@holds_field_iff _ _ before (row.flatMap PlannedField.tensors)
        here _ _).mpr ⟨value, fitsHere, rfl, rfl⟩
      obtain ⟨fixed, rest⟩ := (later _ _).mpr ⟨values, fitsLater, rfl, rfl⟩
      exact ⟨.cons static fixed, forall₂_append_left_iff.mpr ⟨_, _, first, rest, rfl⟩⟩

/-- Canonical values have the lengths of the values and the canonical pieces. -/
theorem image_row (planned : PlannedRow fields before.length row) {values : List HostValue}
    (fits : List.Forall₂ PayloadField.Fits fields values) :
    List.zipWith (image (before ++ row.flatMap PlannedField.tensors) false)
        (slots (before ++ row.flatMap PlannedField.tensors) (row.map PlannedField.param)
          (List.zipWith PayloadField.lengthOf fields values))
        (List.zipWith PayloadField.pieces fields values).flatten =
      (List.zipWith PayloadField.pieces fields
        (List.zipWith (fun field value => field.ty.normalize value) fields values)).flatten := by
  generalize started : before.length = start at planned
  induction planned generalizing before values with
  | nil =>
    cases fits
    rfl
  | @cons field fields start one row here _ ih =>
    subst started
    obtain ⟨value, values, fitsHere, fitsLater, rfl⟩ := List.forall₂_cons_left_iff.mp fits
    have later := @ih (before ++ one.tensors) values fitsLater (by simp)
    have holds := ((@holds_field_iff _ _ before (row.flatMap PlannedField.tensors) here _ _).mpr
      ⟨value, fitsHere, rfl, rfl⟩).2
    simp only [List.append_assoc] at later
    simp only [List.flatMap_cons, List.map_cons, List.zipWith_cons_cons, List.flatten_cons,
      slots_cons]
    rw [List.zipWith_append holds.length_eq, image_field here fitsHere, later]

theorem fits_normalize (planned : PlannedRow fields before.length row) {values : List HostValue}
    (fits : List.Forall₂ PayloadField.Fits fields values) :
    List.Forall₂ PayloadField.Fits fields
        (List.zipWith (fun field value => field.ty.normalize value) fields values) ∧
      List.zipWith PayloadField.lengthOf fields
          (List.zipWith (fun field value => field.ty.normalize value) fields values) =
        List.zipWith PayloadField.lengthOf fields values ∧
      List.zipWith PayloadField.pieces fields (List.zipWith
          (fun field value => field.ty.normalize value) fields
          (List.zipWith (fun field value => field.ty.normalize value) fields values)) =
        List.zipWith PayloadField.pieces fields
          (List.zipWith (fun field value => field.ty.normalize value) fields values) := by
  generalize started : before.length = start at planned
  induction planned generalizing before values with
  | nil =>
    cases fits
    exact ⟨.nil, rfl, rfl⟩
  | @cons field fields start one row here _ ih =>
    subst started
    obtain ⟨value, values, fitsHere, fitsLater, rfl⟩ := List.forall₂_cons_left_iff.mp fits
    obtain ⟨matched, sameLength, sameColumns⟩ := normal_of_field here fitsHere
    obtain ⟨-, sameLength', sameColumns'⟩ := normal_of_field here matched
    obtain ⟨matchedLater, lengthsLater, piecesLater⟩ :=
      @ih (before ++ one.tensors) values fitsLater (by simp)
    refine ⟨.cons matched matchedLater, ?_, ?_⟩
    · simp only [List.zipWith_cons_cons, sameLength, lengthsLater]
    · have twice := normalizeColumns_twice (columns_of_field here fitsHere.1)
      rw [sameColumns, twice, ← sameColumns] at sameColumns'
      have samePieces : field.pieces (field.ty.normalize (field.ty.normalize value)) =
          field.pieces (field.ty.normalize value) := by
        unfold PayloadField.pieces
        by_cases dynamic : field.ty.carried.2
        · have counted : (field.ty.normalize (field.ty.normalize value)).members.length =
              (field.ty.normalize value).members.length := by
            simpa only [PayloadField.lengthOf, if_pos dynamic] using sameLength'
          rw [sameColumns', counted]
        · rw [sameColumns', if_neg dynamic, if_neg dynamic]
      simp only [List.zipWith_cons_cons, samePieces, piecesLater]

theorem normalized_row {start : Nat} (planned : PlannedRow fields start row)
    {values : List HostValue} (fits : List.Forall₂ PayloadField.Fits fields values) :
    List.Forall₂ (fun (pair : PayloadField × HostValue) target =>
      pair.1.lengthOf target = pair.1.lengthOf pair.2 ∧
        ColumnsNormalized pair.1.ty.carried.1.shapes (pair.1.ty.columns pair.2)
          (pair.1.ty.columns target)) (fields.zip values)
      (List.zipWith (fun field value => field.ty.normalize value) fields values) := by
  induction planned generalizing values with
  | nil =>
    cases fits
    exact .nil
  | @cons field fields start one row here _ ih =>
    obtain ⟨value, values, fitsHere, fitsLater, rfl⟩ := List.forall₂_cons_left_iff.mp fits
    obtain ⟨-, sameLength, sameColumns⟩ := normal_of_field here fitsHere
    refine .cons ⟨sameLength, ?_⟩ (ih fitsLater)
    show ColumnsNormalized _ (field.ty.columns value) (field.ty.columns (field.ty.normalize value))
    rw [sameColumns]
    exact columnsNormalized (columns_of_field here fitsHere.1)

end Rows

namespace PayloadPlan

variable {schema : PayloadSchema} {plan : PayloadPlan} {row : List PlannedField}

variable {input : Bytes} {values : List HostValue}

/-- **Well-formed payloads are wire forms.** -/
theorem Describes.splits_iff (describes : plan.Describes schema.params row) {lens : List Nat}
    {pieces : List Bytes} :
    plan.Splits input lens pieces ↔
      ∃ values, schema.Fits values ∧ lens = schema.lengths values ∧
        pieces = (List.zipWith PayloadField.pieces schema.params values).flatten ∧
        input = schema.wireForm values ∧ input.length ≤ i32Max ∧
        plan.workspaceExtent (schema.lengths values) ≤ i32Max := by
  have row := @holds_row_iff [] schema.params row describes.planned lens pieces
  rw [List.nil_append, ← describes.tensors, ← describes.params] at row
  constructor
  · rintro ⟨lengths, holds, whole, wireFits, workspaceFits⟩
    obtain ⟨values, fits, rfl, rfl⟩ := row.mp ⟨lengths, holds⟩
    exact ⟨values, fits, rfl, rfl, whole, wireFits, workspaceFits⟩
  · rintro ⟨values, fits, rfl, rfl, whole, wireFits, workspaceFits⟩
    obtain ⟨lengths, holds⟩ := row.mpr ⟨values, fits, rfl, rfl⟩
    exact ⟨lengths, holds, whole, wireFits, workspaceFits⟩

theorem Describes.normalizedPieces (describes : plan.Describes schema.params row)
    (fits : schema.Fits values) :
    plan.normalizedPieces (schema.lengths values)
        (List.zipWith PayloadField.pieces schema.params values).flatten =
      (List.zipWith PayloadField.pieces schema.params (schema.normalize values)).flatten := by
  have images := @image_row [] schema.params row describes.planned values fits
  rw [List.nil_append, ← describes.tensors, ← describes.params] at images
  exact images

/-- The input is the wire form of values of the schema, and neither the wire form nor its
workspace exceeds an `i32`. -/
structure Represents (plan : PayloadPlan) (schema : PayloadSchema) (input : Bytes)
    (values : List HostValue) : Prop where
  fits : schema.Fits values
  wire : input = schema.wireForm values
  wireFits : input.length ≤ i32Max
  workspaceFits : plan.workspaceExtent (schema.lengths values) ≤ i32Max

theorem Describes.splits_of_represents (describes : plan.Describes schema.params row)
    (represents : plan.Represents schema input values) :
    plan.Splits input (schema.lengths values)
      (List.zipWith PayloadField.pieces schema.params values).flatten :=
  describes.splits_iff.mpr ⟨values, represents.fits, rfl, rfl, represents.wire,
    represents.wireFits, represents.workspaceFits⟩

/-- **Round trip.** A payload that has a wire form is prepared, and encoding the result gives
the wire form of the canonical values. -/
theorem Describes.prepare_encode (describes : plan.Describes schema.params row) (bigEndian : Bool)
    {workspace : Bytes} {address : Nat} (represents : plan.Represents schema input values)
    (suits : plan.Suits workspace address (schema.lengths values)) :
    ∃ prepared, (plan.prepare bigEndian input workspace address).1 = .ok prepared ∧
      (∀ output : Bytes, input.length ≤ output.length →
        prepared.encode bigEndian output = (.ok input.length,
          schema.wireForm (schema.normalize values) ++ output.drop input.length)) ∧
      ∀ output : Bytes, output.length < input.length →
        prepared.encode bigEndian output = (reject .insufficientCapacity, output) := by
  have splits := describes.splits_of_represents represents
  refine ⟨_, congrArg Prod.fst (prepare_of_splits describes.sound splits suits), ?_, ?_⟩
  · intro output space
    rw [encode_of_splits describes.sound splits suits.1 space,
      describes.normalizedPieces represents.fits]
    rfl
  · intro output short
    exact if_pos short

/-- The canonical values have a wire form as long as that of the values. -/
theorem Describes.represents_normalize (describes : plan.Describes schema.params row)
    (represents : plan.Represents schema input values) :
    plan.Represents schema (schema.wireForm (schema.normalize values)) (schema.normalize values) ∧
      schema.lengths (schema.normalize values) = schema.lengths values ∧
      (schema.wireForm (schema.normalize values)).length = input.length ∧
      schema.wireForm (schema.normalize (schema.normalize values)) =
        schema.wireForm (schema.normalize values) := by
  obtain ⟨fits, lengths, pieces⟩ := @fits_normalize [] schema.params row describes.planned values
    represents.fits
  have splits := describes.splits_of_represents represents
  have canonical := splits.normalized
  rw [describes.normalizedPieces represents.fits] at canonical
  have sameLength : (schema.wireForm (schema.normalize values)).length = input.length := by
    show (List.flatten _).length = _
    rw [holds_length_eq canonical.holds, ← holds_length_eq splits.holds, ← splits.whole]
  have sameLengths : schema.lengths (schema.normalize values) = schema.lengths values := lengths
  refine ⟨⟨fits, rfl, canonical.wireFits, ?_⟩, sameLengths, sameLength, ?_⟩
  · rw [sameLengths]
    exact represents.workspaceFits
  · exact congrArg (fun pieces => pieces.flatten.flatten) pieces

end PayloadPlan

/-- **The payload codec.** Exactly the wire forms within the extent of an `i32` are prepared, in
every workspace that is large enough and aligned.  Encoding then gives the wire form of the
canonical values, which is prepared again and encodes to itself.  Every refusal leaves the
workspace and the output as they were. -/
theorem payload_codec_exact {floats : FloatText} {schema : PayloadSchema} {plan : PayloadPlan}
    (accepted : PayloadPlan.new floats schema = .ok plan) (bigEndian : Bool)
    (input workspace : Bytes) (address : Nat) :
    ((∃ prepared, (plan.prepare bigEndian input workspace address).1 = .ok prepared) ↔
      ∃ values, plan.Represents schema input values ∧
        plan.Suits workspace address (schema.lengths values)) ∧
    (∀ values, plan.Represents schema input values →
      plan.Suits workspace address (schema.lengths values) →
      ∃ prepared targets, (plan.prepare bigEndian input workspace address).1 = .ok prepared ∧
        schema.Fits targets ∧ schema.Normalized values targets ∧
        (∀ output : Bytes, input.length ≤ output.length →
          prepared.encode bigEndian output =
            (.ok input.length, schema.wireForm targets ++ output.drop input.length)) ∧
        (∀ output : Bytes, output.length < input.length →
          prepared.encode bigEndian output = (reject .insufficientCapacity, output)) ∧
        ∀ (workspace' : Bytes) (address' : Nat),
          plan.Suits workspace' address' (schema.lengths values) →
          ∃ again, (plan.prepare bigEndian (schema.wireForm targets) workspace' address').1 =
              .ok again ∧
            ∀ output : Bytes, input.length ≤ output.length →
              again.encode bigEndian output =
                (.ok input.length, schema.wireForm targets ++ output.drop input.length)) ∧
    ((∀ values, plan.Represents schema input values →
        ¬plan.Suits workspace address (schema.lengths values)) →
      ∃ error, plan.prepare bigEndian input workspace address = (reject error, workspace)) := by
  obtain ⟨row, describes⟩ := PayloadPlan.new_spec accepted
  have refuses : (∀ values, plan.Represents schema input values →
      ¬plan.Suits workspace address (schema.lengths values)) →
      ∃ error, plan.prepare bigEndian input workspace address = (reject error, workspace) := by
    intro unfit
    apply PayloadPlan.prepare_refuses describes.sound
    intro lens pieces splits
    obtain ⟨values, fits, rfl, -, wire, wireFits, workspaceFits⟩ := describes.splits_iff.mp splits
    exact unfit values ⟨fits, wire, wireFits, workspaceFits⟩
  refine ⟨⟨?_, ?_⟩, ?_, refuses⟩
  · rintro ⟨prepared, prepares⟩
    by_contra unfit
    push Not at unfit
    obtain ⟨error, refused⟩ := refuses unfit
    rw [refused] at prepares
    cases prepares
  · rintro ⟨values, represents, suits⟩
    obtain ⟨prepared, prepares, -⟩ := describes.prepare_encode bigEndian represents suits
    exact ⟨prepared, prepares⟩
  · intro values represents suits
    obtain ⟨prepared, prepares, encodes, refusesOutput⟩ :=
      describes.prepare_encode bigEndian represents suits
    obtain ⟨canonical, lengths, sameLength, once⟩ := describes.represents_normalize represents
    refine ⟨prepared, schema.normalize values, prepares, canonical.fits,
      normalized_row describes.planned represents.fits, encodes, refusesOutput, ?_⟩
    intro workspace' address' suits'
    obtain ⟨again, preparesAgain, encodesAgain, -⟩ :=
      describes.prepare_encode bigEndian canonical (lengths.symm ▸ suits')
    refine ⟨again, preparesAgain, fun output space => ?_⟩
    rw [encodesAgain output (sameLength.le.trans space), once, sameLength]

/-! A level between zero and ten, and a row of switches. -/

def levelSchema : PayloadSchema :=
  ⟨[.mk "level" (.scalar .i32 (some ⟨⟨"i32", "0"⟩, ⟨"i32", "10"⟩, "clamp"⟩)) none,
    .mk "switches" (.slice (.scalar .bool none)) none]⟩

def levelPlan : PayloadPlan where
  schema := levelSchema
  params := [⟨false, none, ⟨0, 1⟩⟩, ⟨true, none, ⟨1, 2⟩⟩]
  tensors := [⟨"level", 0, false, .i32, [], 1, some ⟨0, 10, false⟩⟩,
    ⟨"switches", 1, true, .bool, [], 1, none⟩]

theorem levelSchema_accepted (floats : FloatText) :
    PayloadPlan.new floats levelSchema = .ok levelPlan := rfl

/-- A level of twelve and two switches, the first of them spelled with a seven. -/
def levelValues : List HostValue :=
  [.scalar [12, 0, 0, 0], .aggregate [.scalar [7], .scalar [0]]]

theorem levelValues_represented :
    levelPlan.Represents levelSchema [12, 0, 0, 0, 2, 0, 0, 0, 7, 0] levelValues where
  fits := by
    refine .cons ⟨⟨rfl, rfl⟩, fun dynamic => by cases dynamic⟩ (.cons ⟨⟨rfl, ?_⟩, ?_⟩ .nil)
    · intro member mem
      simp only [HostValue.members, List.mem_cons, List.not_mem_nil, or_false] at mem
      rcases mem with rfl | rfl
      · exact ⟨rfl, rfl⟩
      · exact ⟨rfl, rfl⟩
    · intro _
      decide
  wire := by decide
  wireFits := by decide
  workspaceFits := by decide

theorem payload_codec_exact_level :
    ∃ prepared targets,
      (levelPlan.prepare false [12, 0, 0, 0, 2, 0, 0, 0, 7, 0] (List.replicate 16 0) 0).1 =
        .ok prepared ∧ levelSchema.Normalized levelValues targets ∧
      prepared.encode false (List.replicate 10 0) = (.ok 10, levelSchema.wireForm targets ++ []) := by
  obtain ⟨prepared, targets, prepares, -, normalized, encodes, -⟩ :=
    (payload_codec_exact (levelSchema_accepted ⟨fun _ => none, fun _ => none⟩) false
      [12, 0, 0, 0, 2, 0, 0, 0, 7, 0] (List.replicate 16 0) 0).2.1 levelValues
      levelValues_represented ⟨by decide, by decide⟩
  exact ⟨prepared, targets, prepares, normalized, encodes (List.replicate 10 0) (by decide)⟩

end Onda.Payload
