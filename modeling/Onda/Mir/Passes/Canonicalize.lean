import Onda.Mir.MayFail
import Onda.Mir.ProgramRefinement

/-!
# Canonicalization

Two steps of a canonicalization round (`passes.rs`): `simplify_block_algebra`
replaces integer operations by one of their operands or by a constant, and
`canonicalize_block` folds operations on constants, selects the branch of a
constant condition and drops the statements after one that does not fall through.
Loops stay: a loop that cannot be left is a statement that does not fall through.

Folding uses the same scalar operations as execution.  The float arithmetic of the
compiler is a parameter, which has to be that of the host.
-/

namespace Onda.Mir

open Structured Structured.Eval Simulation

namespace Canonicalize

/-! ### Folding -/

def constant : Value → Option ScalarValue
  | .constant value => some value
  | .localVar _ => none

/-- Float constants have to be finite to be folded by an intrinsic. -/
def isFinite : ScalarValue → Bool
  | .f32 bits => binary32.isFinite bits.toNat
  | .f64 bits => binary64.isFinite bits.toNat
  | _ => true

/-- The intrinsics that are folded. -/
def isFoldable : Intrinsic → Bool
  | .abs | .floor | .ceil | .round | .trunc | .min | .max => true
  | _ => false

def foldIntrinsic (floats : FloatOps) (intrinsic : Intrinsic) (args : List ScalarValue) :
    Option ScalarValue :=
  if !isFoldable intrinsic || args.any (fun value => !isFinite value) then none
  else ConstantEval.intrinsic floats intrinsic args

def foldRvalue (floats : FloatOps) : Rvalue → Option ScalarValue
  | .unary op operand => do ConstantEval.unary op (← constant operand)
  | .binary op lhs rhs => do ConstantEval.binary floats op (← constant lhs) (← constant rhs)
  | .compare op lhs rhs => do
    (ConstantEval.compare op (← constant lhs) (← constant rhs)).map .bool
  | .cast value target => do ConstantEval.cast floats (← constant value) target
  | .intrinsic intrinsic args => do foldIntrinsic floats intrinsic (← args.mapM constant)
  | _ => none

/-! ### Algebraic identities -/

/-- The scalar type of an operand; the declaration of a local is the one of the
function. -/
def scalarTypeOfValue (types : List MirType) (locals : List Local) (value : Value) :
    Option ScalarType :=
  Analysis.valueScalarType types locals value

def scalarValueIsZero : Value → Bool
  | .constant (.i32 value) => value == 0
  | .constant (.i64 value) => value == 0
  | _ => false

def scalarValueIsOne : Value → Bool
  | .constant (.i32 value) => value == 1
  | .constant (.i64 value) => value == 1
  | _ => false

def scalarValueIsAllOnes : Value → Bool
  | .constant (.i32 value) => value == -1
  | .constant (.i64 value) => value == -1
  | _ => false

/-- The zero of an integer type. -/
def integerZero : ScalarType → Value
  | .i64 => .constant (.i64 0)
  | _ => .constant (.i32 0)

def simplifyBinary (op : BinaryOp) (lhs rhs : Value) (scalar : ScalarType) : Option Value :=
  match op with
  | .add =>
    if scalarValueIsZero rhs then some lhs
    else if scalarValueIsZero lhs then some rhs else none
  | .subtract =>
    if scalarValueIsZero rhs then some lhs
    else if lhs = rhs then some (integerZero scalar) else none
  | .multiply =>
    if scalarValueIsOne rhs then some lhs
    else if scalarValueIsOne lhs then some rhs
    else if scalarValueIsZero lhs || scalarValueIsZero rhs then some (integerZero scalar)
    else none
  | .divide => if scalarValueIsOne rhs then some lhs else none
  | .remainder => if scalarValueIsOne rhs then some (integerZero scalar) else none
  | .bitAnd =>
    if scalarValueIsZero lhs || scalarValueIsZero rhs then some (integerZero scalar)
    else if scalarValueIsAllOnes rhs then some lhs
    else if scalarValueIsAllOnes lhs then some rhs else none
  | .bitOr =>
    if scalarValueIsZero rhs then some lhs
    else if scalarValueIsZero lhs then some rhs else none
  | .bitXor =>
    if scalarValueIsZero rhs then some lhs
    else if scalarValueIsZero lhs then some rhs
    else if lhs = rhs then some (integerZero scalar) else none
  | .shiftLeft | .shiftRight => if scalarValueIsZero rhs then some lhs else none

/-- What an operand compared with itself gives. -/
def compareIdentical : CompareOp → Bool
  | .equal | .lessEqual | .greaterEqual => true
  | .notEqual | .less | .greater => false

def simplifyRvalueAlgebra (types : List MirType) (locals : List Local) : Rvalue → Option Value
  | .binary op lhs rhs => do
    let scalar ← scalarTypeOfValue types locals lhs
    if scalar.isInteger then simplifyBinary op lhs rhs scalar else none
  | .compare op lhs rhs =>
    if lhs = rhs then do
      match ← scalarTypeOfValue types locals lhs with
      -- A NaN does not equal itself.
      | .f32 | .f64 => none
      | _ => some (.constant (.bool (compareIdentical op)))
    else none
  | _ => none

/-- An rvalue, or the operand that replaces it. -/
def simplifyRvalue (types : List MirType) (locals : List Local) (value : Rvalue) : Rvalue :=
  match simplifyRvalueAlgebra types locals value with
  | some replacement => .use replacement
  | none => value

mutual

def simplifyStatementAlgebra (types : List MirType) (locals : List Local) : Statement → Statement
  | .op (.assign destination value) =>
    .op (.assign destination (simplifyRvalue types locals value))
  | .ite condition thenBlock elseBlock =>
    .ite condition (simplifyBlockAlgebra types locals thenBlock)
      (simplifyBlockAlgebra types locals elseBlock)
  | .loop body => .loop (simplifyBlockAlgebra types locals body)
  | statement => statement

def simplifyBlockAlgebra (types : List MirType) (locals : List Local) : Block → Block
  | [] => []
  | statement :: rest =>
    simplifyStatementAlgebra types locals statement :: simplifyBlockAlgebra types locals rest

end

/-! ### Reachable statements -/

mutual

def statementFallsThrough : Statement → Bool
  | .ret _ | .brk | .cont => false
  | .ite _ thenBlock elseBlock => blockFallsThrough thenBlock || blockFallsThrough elseBlock
  | .loop body => blockContainsReachableBreak body
  | .op _ => true

def blockFallsThrough : Block → Bool
  | [] => true
  | statement :: rest => statementFallsThrough statement && blockFallsThrough rest

/-- The statement itself breaks, or a branch of it. -/
def statementBreaks : Statement → Bool
  | .brk => true
  | .ite _ thenBlock elseBlock =>
    blockContainsReachableBreak thenBlock || blockContainsReachableBreak elseBlock
  | _ => false

def blockContainsReachableBreak : Block → Bool
  | [] => false
  | statement :: rest =>
    statementBreaks statement
      || statementFallsThrough statement && blockContainsReachableBreak rest

end

/-- The statements up to the first one that does not fall through. -/
def reachablePrefix : Block → Block
  | [] => []
  | statement :: rest =>
    if statementFallsThrough statement then statement :: reachablePrefix rest else [statement]

/-- `first`, and where it falls through `rest`; what is unreachable is dropped. -/
def cut (first rest : Block) : Block :=
  reachablePrefix first ++ if blockFallsThrough first then rest else []

/-- An rvalue, or the constant it is folded to. -/
def foldedRvalue (floats : FloatOps) (value : Rvalue) : Rvalue :=
  match foldRvalue floats value with
  | some folded => .use (.constant folded)
  | none => value

mutual

/-- The statements that replace one. -/
def canonicalizeStatement (floats : FloatOps) : Statement → Block
  | .op (.assign destination value) =>
    [.op (.assign destination (foldedRvalue floats value))]
  | .ite (.constant (.bool condition)) thenBlock elseBlock =>
    if condition then canonicalizeBlock floats thenBlock else canonicalizeBlock floats elseBlock
  | .ite condition thenBlock elseBlock =>
    [.ite condition (canonicalizeBlock floats thenBlock) (canonicalizeBlock floats elseBlock)]
  | .loop body => [.loop (canonicalizeBlock floats body)]
  | statement => [statement]

def canonicalizeBlock (floats : FloatOps) : Block → Block
  | [] => []
  | statement :: rest =>
    cut (canonicalizeStatement floats statement) (canonicalizeBlock floats rest)

end

end Canonicalize

/-- Both steps on one function. -/
def Function.canonicalize (floats : FloatOps) (types : List MirType) (function : Function) :
    Function :=
  { function with
    body := Canonicalize.canonicalizeBlock floats
      (Canonicalize.simplifyBlockAlgebra types function.locals function.body) }

def Program.canonicalize (floats : FloatOps) (program : Program) : Program :=
  { program with functions := program.functions.map (·.canonicalize floats program.types) }

end Onda.Mir
