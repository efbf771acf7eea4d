import Onda.Mir.Locations
import Onda.Mir.Validate.Facts

/-!
# The type table

The references in the type table of an accepted program lead to declared types.
-/

namespace Onda.Mir

open Validate

namespace Validate

/-- The references of the type table lead to declared types. -/
structure TableClosed (program : Program) : Prop where
  components : ∀ (index : Nat) ty, program.types[index]? = some ty →
    ∀ component ∈ componentTypes program ty, component < program.types.length
  structs : ∀ (index : Nat) definition, program.types[index]? = some (.struct definition) →
    (program.structs[definition]?).isSome

end Validate

namespace Program.Accepted

variable {program : Program}

/-- The checks of the type table. -/
private theorem table (accepted : program.Accepted) :
    (∀ entry ∈ program.types.zipIdx, validateType program entry.2 entry.1 = []) ∧
      (∀ declared ∈ program.structs, validateStruct program declared = []) ∧
      validateFixedAggregateTypes program = [] := by
  simp only [Program.Accepted, validate, List.append_eq_nil_iff, programErrors_eq_nil,
    and_assoc, List.flatMap_eq_nil_iff] at accepted
  obtain ⟨-, -, types, structs, aggregates, -⟩ := accepted
  exact ⟨types, structs, aggregates⟩

theorem tableClosed (accepted : program.Accepted) : TableClosed program := by
  obtain ⟨types, structs, -⟩ := accepted.table
  have checked (index : Nat) (ty : MirType) (declared : program.types[index]? = some ty) :
      validateType program index ty = [] :=
    types (ty, index) (List.mem_zipIdx_iff_getElem?.mpr declared)
  refine ⟨fun index ty declared component mem => ?_, fun index definition declared => ?_⟩
  · have fine := checked index ty declared
    cases ty with
    | scalar | slice | buffer | bufferSpan => simp [componentTypes] at mem
    | tuple elements =>
      have each := List.flatMap_eq_nil_iff.mp fine component (by simpa [componentTypes] using mem)
      simpa [requireType] using each
    | array element len =>
      obtain rfl : component = element := by simpa [componentTypes] using mem
      simp only [validateType, List.append_eq_nil_iff] at fine
      simpa [requireType] using fine.1.1
    | struct definition =>
      simp only [componentTypes] at mem
      split at mem
      · next target found =>
        obtain ⟨field, inFields, rfl⟩ := List.mem_map.mp mem
        have fields := structs target (List.mem_of_getElem? found)
        simp only [validateStruct, List.append_eq_nil_iff] at fields
        have each := List.flatMap_eq_nil_iff.mp fields.2 field inFields
        simpa [requireType] using each
      · simp at mem
  · have fine := checked index _ declared
    simpa [validateType] using fine

end Program.Accepted

end Onda.Mir
