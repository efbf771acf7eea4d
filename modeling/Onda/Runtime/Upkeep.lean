import Onda.Runtime.Standing
import Onda.Runtime.Tables

/-!
# What every operation keeps of an instance

The flag of a surface stands for a table that is exact for the current bindings.  An image that
was allocated once passes the checks of every later initialization, whatever is bound.
-/

namespace Onda.Runtime

open Effects
open Onda.Project (Platform f32IsFinite f32LeZero)

variable {W V : Type} (platform : Platform) (native : NativeCode W V) (program : JitProgram)

/-! ### Rows of the buffer tables -/

/-- What `validate_buffer_abi` asks of a row. -/
structure RowFits (desc : DeclaredBuffer) (row : BoundBuffer) : Prop where
  rate : ¬(¬f32IsFinite row.sampleRateHz ∨ f32LeZero row.sampleRateHz)
  dimensions : ¬(row.framesI32 = 0 ∨ row.channelsI32 = 0)
  aligned : ¬(row.ptr ≠ 0 ∧ ¬primitiveTypeAlignment desc.elemTy ∣ row.ptr)
  channels : ∀ expected, expectedChannels desc = some expected → row.channelsI32 = expected
  elements : ¬I32_MAX < row.framesI32 * row.channelsI32
  bytes : ¬I32_MAX < row.framesI32 * row.channelsI32 * primitiveTypeBytes desc.elemTy

theorem configCheck_ok {refused : Prop} [Decidable refused] {message : String} :
    configCheck refused message = .ok () ↔ ¬refused := by
  unfold configCheck
  by_cases test : refused
  · rw [if_pos test]
    exact ⟨fun same => (by cases same), fun passes => absurd test passes⟩
  · rw [if_neg test]
    exact ⟨fun _ => test, fun _ => rfl⟩

variable {row : BoundBuffer} {desc : DeclaredBuffer} {inst : Instance} {tables : List BoundBuffer}

theorem checkRowChannels_ok {index : Nat} {channels : Nat} :
    checkRowChannels index desc channels = .ok () ↔
      ∀ expected, expectedChannels desc = some expected → channels = expected := by
  unfold checkRowChannels
  cases expectedChannels desc with
  | none => exact ⟨fun _ expected same => (by cases same), fun _ => rfl⟩
  | some expected =>
    dsimp only
    rw [configCheck_ok, not_not]
    exact ⟨fun same other here => same.trans (Option.some.inj here), fun all => all expected rfl⟩

/-- Two checks, one after the other. -/
theorem checks_ok {first second : Except String Unit} :
    (first >>= fun _ => second) = .ok () ↔ first = .ok () ∧ second = .ok () := by
  cases first with
  | error message => exact ⟨fun same => (by cases same), fun both => (by cases both.1)⟩
  | ok value => exact ⟨fun same => ⟨rfl, same⟩, fun both => both.2⟩

theorem checkBufferRow_ok {index : Nat} :
    checkBufferRow index desc row = .ok () ↔ RowFits desc row := by
  unfold checkBufferRow
  simp only [checks_ok, configCheck_ok, checkRowChannels_ok]
  constructor
  · rintro ⟨rate, dimensions, aligned, channels, elements, bytes⟩
    exact ⟨rate, dimensions, aligned, channels, elements, bytes⟩
  · rintro ⟨rate, dimensions, aligned, channels, elements, bytes⟩
    exact ⟨rate, dimensions, aligned, channels, elements, bytes⟩

theorem forM_ok {α : Type} {check : α → Except String Unit} {items : List α} :
    items.forM check = .ok () ↔ ∀ item ∈ items, check item = .ok () := by
  induction items with
  | nil => exact ⟨fun _ item mem => (by cases mem), fun _ => rfl⟩
  | cons item items ih =>
    show (check item >>= fun _ => items.forM check) = .ok () ↔ _
    rw [checks_ok, ih, List.forall_mem_cons]

theorem validateBufferAbi_ok {buffers : List DeclaredBuffer} :
    validateBufferAbi buffers tables = .ok () ↔
      tables.length = buffers.length ∧ ∀ pair ∈ buffers.zip tables, RowFits pair.1 pair.2 := by
  unfold validateBufferAbi
  rw [checks_ok, configCheck_ok, not_not, forM_ok]
  simp only [checkBufferRow_ok]
  refine and_congr_right fun _ => ⟨fun all pair mem => ?_, fun all item mem => ?_⟩
  · obtain ⟨idx, inside, rfl⟩ := List.getElem_of_mem mem
    refine all ((buffers.zip tables)[idx], idx) ?_
    rw [List.mk_mem_zipIdx_iff_getElem?, List.getElem?_eq_getElem inside]
  · exact all item.1 (List.fst_mem_of_mem_zipIdx mem)

/-- The initialization checks of the native program. -/
theorem checkInit_ok {params : Bytes} :
    native.checkInit program params tables = .ok () ↔
      params.length = native.paramsSize ∧ program.stateSizeBytes = native.stateSize ∧
        validateBufferAbi program.buffers tables = .ok () ∧ native.stateAligned = true := by
  unfold NativeCode.checkInit
  simp only [checks_ok, configCheck_ok, not_not, Bool.not_eq_false]

/-! ### What is kept -/

/-- Every output channel of the table is there. -/
def NoNull (table : List Nat) : Prop :=
  ∀ desc ∈ program.outputs, ∀ ch ∈ List.range desc.arrayLen,
    table[saturatingAdd platform desc.slotOffset ch]? ≠ some 0

/-- What the flag of a surface stands for. -/
def Surface.Exact (inst : Instance) : Surface → Prop
  | .inputs => inst.inputPtrs = inst.inputTable platform program ∧
      (requiredChannels platform program.inputs = 0 ∨ ∀ item ∈ program.inputs.zipIdx,
        Bound platform inst.inputBindings inst.config.framesPerBlock item)
  | .outputs => inst.outputPtrs = inst.outputTable platform program ∧
      (requiredChannels platform program.outputs = 0 ∨
        (∀ item ∈ program.outputs.zipIdx,
          Bound platform inst.outputBindings inst.config.framesPerBlock item) ∧
        NoNull platform program (inst.outputTable platform program))
  | .buffers => inst.bufferTables = inst.bufferTable program

/-- The native checks that do not depend on the bindings. -/
structure Accepts (config : InstanceConfig) (params : Bytes) : Prop where
  params : params.length = native.paramsSize
  state : program.stateSizeBytes = native.stateSize
  aligned : native.stateAligned = true
  fallback : ∀ desc ∈ program.buffers, RowFits desc (fallbackRow config desc)

structure Upkeep (inst : Instance) : Prop where
  rate : ¬(¬f32IsFinite inst.config.sampleRate ∨ f32LeZero inst.config.sampleRate)
  fallback : ∀ desc ∈ program.buffers, fallbackChannels desc = .ok (fallbackCount desc)
  bound : ∀ (desc : DeclaredBuffer) (idx : Nat), program.buffers[idx]? = some desc → ∀ row,
    (inst.bufferBindings[idx]?).join = some row → RowFits desc row
  inputs : Blank platform program.inputs inst.inputPtrs
  outputs : inst.outputPtrs.length = requiredChannels platform program.outputs
  buffers : inst.bufferTables.length = program.buffers.length
  short : inst.params.length < platform.usizeMax
  exact : ∀ surface : Surface, surface.flag inst = true → surface.Exact platform program inst
  accepts : ∀ storage initialized, inst.state = .allocated storage initialized →
    Accepts native program inst.config inst.params

variable {platform native program}

/-- A row of the computed table fits if the fallback does. -/
theorem Upkeep.rows (upkeep : Upkeep platform native program inst)
    (fallback : ∀ desc ∈ program.buffers, RowFits desc (fallbackRow inst.config desc)) :
    validateBufferAbi program.buffers (inst.bufferTable program) = .ok () := by
  rw [validateBufferAbi_ok]
  unfold Instance.bufferTable
  refine ⟨by rw [List.length_map, List.length_zipIdx], fun pair mem => ?_⟩
  obtain ⟨idx, inside, rfl⟩ := List.getElem_of_mem mem
  rw [List.length_zip, List.length_map, List.length_zipIdx, Nat.min_self] at inside
  rw [List.getElem_zip, List.getElem_map, List.getElem_zipIdx]
  dsimp only
  rw [Nat.zero_add]
  cases here : (inst.bufferBindings[idx]?).join with
  | none => exact fallback _ (List.getElem_mem inside)
  | some row => exact upkeep.bound _ idx (List.getElem?_eq_getElem inside) row here

/-- An instance that was allocated passes the checks of an initialization. -/
theorem Upkeep.checkInit (upkeep : Upkeep platform native program inst)
    (accepts : Accepts native program inst.config inst.params) :
    native.checkInit program inst.params (inst.bufferTable program) = .ok () := by
  rw [checkInit_ok]
  exact ⟨accepts.params, accepts.state, upkeep.rows accepts.fallback, accepts.aligned⟩

theorem primitiveTypeBytes_le (ty : PrimitiveType) : primitiveTypeBytes ty ≤ 8 := by
  cases ty <;> decide

/-- If a row fits a buffer then so does the row of the unbound buffer: it has one frame. -/
theorem RowFits.fallback {config : InstanceConfig} (fits : RowFits desc row)
    (rate : ¬(¬f32IsFinite config.sampleRate ∨ f32LeZero config.sampleRate)) :
    RowFits desc (fallbackRow config desc) := by
  have few := primitiveTypeBytes_le desc.elemTy
  have frames : 1 ≤ row.framesI32 := by
    have dimensions := fits.dimensions
    omega
  -- either the declaration says how many channels there are, or there is one
  have counted : fallbackCount desc = row.channelsI32 ∨ fallbackCount desc = 1 := by
    have channels := fits.channels
    unfold expectedChannels at channels
    unfold fallbackCount
    cases same : desc.channels with
    | mono => exact .inr rfl
    | dynamic => exact .inr rfl
    | static expected =>
      rw [same] at channels
      exact .inl (channels expected rfl).symm
  have positive : fallbackCount desc ≠ 0 := by
    have dimensions := fits.dimensions
    omega
  have extent : fallbackCount desc * primitiveTypeBytes desc.elemTy ≤ I32_MAX := by
    rcases counted with same | one
    · rw [same]
      refine Nat.le_trans (Nat.mul_le_mul_right _ ?_) (Nat.le_of_not_lt fits.bytes)
      exact Nat.le_mul_of_pos_left _ frames
    · rw [one, Nat.one_mul]
      exact Nat.le_trans few (by decide)
  have elements : fallbackCount desc ≤ I32_MAX := by
    rcases counted with same | one
    · rw [same]
      exact Nat.le_trans (Nat.le_mul_of_pos_left _ frames) (Nat.le_of_not_lt fits.elements)
    · rw [one]
      decide
  refine ⟨rate, ?_, ?_, ?_, ?_, ?_⟩
  · rintro (none | none)
    · cases none
    · exact positive none
  · exact fun both => both.1 rfl
  · intro expected same
    unfold expectedChannels at same
    show fallbackCount desc = expected
    unfold fallbackCount
    cases shape : desc.channels with
    | mono =>
      rw [shape] at same
      exact Option.some.inj same
    | dynamic =>
      rw [shape] at same
      cases same
    | static channels =>
      rw [shape] at same
      exact Option.some.inj same
  · show ¬I32_MAX < 1 * fallbackCount desc
    rw [Nat.one_mul]
    exact Nat.not_lt.mpr elements
  · show ¬I32_MAX < 1 * fallbackCount desc * primitiveTypeBytes desc.elemTy
    rw [Nat.one_mul]
    exact Nat.not_lt.mpr extent

/-- The first initialization that passes the checks allocates the image for good. -/
theorem Upkeep.accepted (upkeep : Upkeep platform native program inst)
    (passed : native.checkInit program inst.params (inst.bufferTable program) = .ok ()) :
    Accepts native program inst.config inst.params := by
  obtain ⟨params, state, rows, aligned⟩ := (checkInit_ok native program).mp passed
  refine ⟨params, state, aligned, fun desc mem => ?_⟩
  obtain ⟨idx, inside, rfl⟩ := List.getElem_of_mem mem
  have fits := (validateBufferAbi_ok.mp rows).2
    (program.buffers[idx], ((inst.bufferBindings[idx]?).join).getD
      (fallbackRow inst.config program.buffers[idx])) (by
      have length : (inst.bufferTable program).length = program.buffers.length := by
        unfold Instance.bufferTable
        rw [List.length_map, List.length_zipIdx]
      refine List.mem_iff_getElem.mpr ⟨idx, ?_, ?_⟩
      · rw [List.length_zip, length, Nat.min_self]
        exact inside
      · rw [List.getElem_zip]
        unfold Instance.bufferTable
        rw [List.getElem_map, List.getElem_zipIdx]
        dsimp only
        rw [Nat.zero_add])
  exact fits.fallback upkeep.rate

end Onda.Runtime
