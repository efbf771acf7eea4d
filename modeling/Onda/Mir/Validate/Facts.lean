import Onda.Mir.Validate

/-!
# What acceptance says

An accepted program reports no error anywhere, so every function, every
statement and every operand has passed its own check.  The lemmas here split the
empty list of errors along the structure of the program.
-/

namespace Onda.Mir

open Structured Validate

namespace Validate

@[simp] theorem errorUnless_eq_nil {condition : Bool} {message : String} :
    errorUnless condition message = [] ↔ condition = true := by
  cases condition <;> simp [errorUnless]

variable {function : Function} {messages : List String} {program : Program}

@[simp] theorem functionErrors_eq_nil {function : FunctionId} :
    functionErrors function messages = [] ↔ messages = [] := by
  simp [functionErrors]

@[simp] theorem programErrors_eq_nil :
    programErrors messages = [] ↔ messages = [] := by
  simp [programErrors]

section Blocks

variable {program : Program} {function : Function}

mutual

theorem validateStatement_operation {operation : Operation} : ∀ {depth : Nat}
    (statement : Statement), validateStatement program function depth statement = [] →
    .op operation ∈ statement.atoms → validateOperation program function operation = []
  | _, .op other, checked, mem => by
    obtain rfl : operation = other := by simpa [Stm.atoms] using mem
    simpa [validateStatement] using checked
  | _, .ite condition thenBlock elseBlock, checked, mem => by
    simp only [validateStatement, List.append_eq_nil_iff] at checked
    simp only [Stm.atoms, List.mem_cons, reduceCtorEq, List.mem_append, false_or] at mem
    rcases mem with mem | mem
    · exact validateBlock_operation thenBlock checked.1.2 mem
    · exact validateBlock_operation elseBlock checked.2 mem
  | _, .loop body, checked, mem => by
    simp only [validateStatement] at checked
    exact validateBlock_operation body checked (by simpa [Stm.atoms] using mem)
  | _, .brk, _, mem => by simp [Stm.atoms] at mem
  | _, .cont, _, mem => by simp [Stm.atoms] at mem
  | _, .ret values, _, mem => by simp [Stm.atoms] at mem

theorem validateBlock_operation {operation : Operation} : ∀ {depth : Nat}
    (block : List Statement), validateBlock program function depth block = [] →
    .op operation ∈ blockAtoms block → validateOperation program function operation = []
  | _, [], _, mem => by simp [blockAtoms] at mem
  | _, statement :: rest, checked, mem => by
    simp only [validateBlock, List.append_eq_nil_iff] at checked
    rcases List.mem_append.mp (by simpa [blockAtoms] using mem) with mem | mem
    · exact validateStatement_operation statement checked.1 mem
    · exact validateBlock_operation rest checked.2 mem

end

end Blocks

/-- The destination of an accepted assignment may be written. -/
theorem validateAssign_writable {destination : Place} {value : Rvalue}
    (checked : validateOperation program function (.assign destination value) = []) :
    placeIsWritable program function destination = true := by
  simp only [validateOperation, validateAssign, List.append_eq_nil_iff,
    errorUnless_eq_nil] at checked
  exact checked.1.2

/-- The target and the arguments of an accepted call. -/
structure CheckedCall (program : Program) (function target : Function)
    (args : List CallArgument) : Prop where
  isUser : target.kind = .user
  matched : ∀ (index : Nat) argument param, args[index]? = some argument →
    target.params[index]? = some param →
    callArgumentMatches program function argument param = true

theorem validateCall_checked {target : Function} {results : List LocalId} {callee : FunctionId}
    {args : List CallArgument}
    (checked : validateOperation program function (.call results callee args) = [])
    (found : program.functions[callee]? = some target) :
    CheckedCall program function target args := by
  simp only [validateOperation, validateCall, found, List.append_eq_nil_iff,
    errorUnless_eq_nil] at checked
  refine ⟨by simpa using checked.1.1.1.1.1.1, fun index argument param atArgs atParams => ?_⟩
  have each := List.flatMap_eq_nil_iff.mp checked.2 ((argument, param), index) (by
    rw [List.mem_zipIdx_iff_getElem?]
    simp [List.getElem?_zip_eq_some, atArgs, atParams])
  simpa using each

end Validate

/-! ### Accepted programs -/

namespace Program.Accepted

variable {program : Program}

variable {declared : Function} {id : FunctionId}

/-- Every function of an accepted program passes the checks of functions. -/
theorem function (accepted : program.Accepted) (found : program.functions[id]? = some declared) :
    validateFunction program declared = [] := by
  simp only [Program.Accepted, validate, List.append_eq_nil_iff] at accepted
  have all := accepted.1.1.2
  have each := List.flatMap_eq_nil_iff.mp all (declared, id)
    (List.mem_zipIdx_iff_getElem?.mpr found)
  simpa using each

theorem operation (accepted : program.Accepted) (found : program.functions[id]? = some declared)
    {operation : Operation} (mem : .op operation ∈ blockAtoms declared.body) :
    validateOperation program declared operation = [] := by
  have checked := accepted.function found
  simp only [validateFunction, List.append_eq_nil_iff] at checked
  exact validateBlock_operation declared.body checked.1.1.2 mem

theorem assignment (accepted : program.Accepted) (found : program.functions[id]? = some declared) :
    validateDefiniteAssignment program declared = [] := by
  have checked := accepted.function found
  simp only [validateFunction, List.append_eq_nil_iff] at checked
  exact checked.1.2

/-- Result references need a producer proof. -/
theorem notResultReference (accepted : program.Accepted)
    (found : program.functions[id]? = some declared) {param : FunctionParam}
    (mem : param ∈ declared.params) :
    param.mode ≠ .resultReference := by
  have checked := accepted.function found
  simp only [validateFunction, List.append_eq_nil_iff] at checked
  have each := List.flatMap_eq_nil_iff.mp checked.1.1.1.1.1.1.2 param mem
  simp only [validateFunctionParam, List.append_eq_nil_iff, errorUnless_eq_nil,
    decide_eq_true_iff] at each
  exact each.1.1.2

end Program.Accepted

end Onda.Mir
