import Onda.Tasks.Semantics

/-!
# Lowering of task controls

Every `await` becomes a resume call and a branch to the code of an unavailable activation: it
neutralizes outputs, clears the availability field and ends with the abort marker.  In a processor
the marker returns from the function; at the top level it breaks, and each loop that contains it
is followed by a check that breaks again.
-/

namespace Onda.Tasks

variable {V W : Type}

/-- `TaskResumeResult`. -/
inductive TaskResumeResult where
  | returned
  | runtimeField

/-! ### Task controls -/

section Controls

variable (unavailable : List (Stmt V W)) (result : TaskResumeResult)

mutual

/-- What `rewrite_task_controls` leaves of one statement. -/
def Stmt.rewriteTaskControls : Stmt V W → List (Stmt V W)
  | .await task =>
    match result with
    | .returned => [.branch (.notResumed task) unavailable []]
    | .runtimeField => [.resume task, .branch (.notResult task) unavailable []]
  | .branch guard thenBranch elseBranch =>
    [.branch guard (rewriteTaskControls thenBranch) (rewriteTaskControls elseBranch)]
  | .loop head body => [.loop head (rewriteTaskControls body)]
  | .assign target run => [.assign target run]
  | .effect run => [.effect run]
  | .reset task => [.reset task]
  | .brk => [.brk]
  | .cont => [.cont]
  | .ret => [.ret]
  | .resume task => [.resume task]
  | .setAvailable available => [.setAvailable available]
  | .abort => [.abort]

/-- `rewrite_task_controls`. -/
def rewriteTaskControls : List (Stmt V W) → List (Stmt V W)
  | [] => []
  | stmt :: stmts => stmt.rewriteTaskControls ++ rewriteTaskControls stmts

end

end Controls

mutual

def Stmt.containsTaskAbort : Stmt V W → Bool
  | .abort => true
  | .branch _ thenBranch elseBranch =>
    containsTaskAbort thenBranch || containsTaskAbort elseBranch
  | .loop _ body => containsTaskAbort body
  | .assign _ _ | .effect _ | .await _ | .reset _ | .brk | .cont | .ret | .resume _
  | .setAvailable _ => false

/-- `contains_task_abort`. -/
def containsTaskAbort : List (Stmt V W) → Bool
  | [] => false
  | stmt :: stmts => stmt.containsTaskAbort || containsTaskAbort stmts

end

mutual

def Stmt.propagateTaskAbort : Stmt V W → List (Stmt V W)
  | .branch guard thenBranch elseBranch =>
    [.branch guard (propagateTaskAbortThroughLoops thenBranch)
      (propagateTaskAbortThroughLoops elseBranch)]
  | .loop head body =>
    .loop head (propagateTaskAbortThroughLoops body) ::
      if containsTaskAbort (propagateTaskAbortThroughLoops body) then
        [.branch .notAvailable [.abort] []]
      else []
  | .assign target run => [.assign target run]
  | .effect run => [.effect run]
  | .await task => [.await task]
  | .reset task => [.reset task]
  | .brk => [.brk]
  | .cont => [.cont]
  | .ret => [.ret]
  | .resume task => [.resume task]
  | .setAvailable available => [.setAvailable available]
  | .abort => [.abort]

/-- `propagate_task_abort_through_loops`. -/
def propagateTaskAbortThroughLoops : List (Stmt V W) → List (Stmt V W)
  | [] => []
  | stmt :: stmts => stmt.propagateTaskAbort ++ propagateTaskAbortThroughLoops stmts

end

section Markers

variable (marker : Stmt V W)

mutual

def Stmt.replaceTaskAbort : Stmt V W → Stmt V W
  | .abort => marker
  | .branch guard thenBranch elseBranch =>
    .branch guard (replaceTaskAbort thenBranch) (replaceTaskAbort elseBranch)
  | .loop head body => .loop head (replaceTaskAbort body)
  | .assign target run => .assign target run
  | .effect run => .effect run
  | .await task => .await task
  | .reset task => .reset task
  | .brk => .brk
  | .cont => .cont
  | .ret => .ret
  | .resume task => .resume task
  | .setAvailable available => .setAvailable available

/-- The markers of a body, replaced. -/
def replaceTaskAbort : List (Stmt V W) → List (Stmt V W)
  | [] => []
  | stmt :: stmts => stmt.replaceTaskAbort :: replaceTaskAbort stmts

end

end Markers

/-- `materialize_task_abort_in_stmts`: the marker of a processor's function returns. -/
def materializeTaskAbort : List (Stmt V W) → List (Stmt V W) := replaceTaskAbort .ret

/-- `lower_statements` on the markers of the process function: each breaks. -/
def lowerTaskAbort : List (Stmt V W) → List (Stmt V W) := replaceTaskAbort .brk

/-! ### Neutral outputs -/

/-- The declared type of an output port. -/
inductive PortType where
  | scalar
  | array (len : Nat)
deriving DecidableEq

namespace PortType

/-- The cells of a port. -/
def cells : PortType → Nat
  | scalar => 1
  | array len => len

end PortType

/-- The first `len` cells of `name` are zero. -/
def Store.clear [Zero V] (name : String) (len : Nat) (store : Store V W) : Store V W :=
  { store with cells := fun other cell => if other = name ∧ cell < len then 0 else
      store.cells other cell }

/-- `neutral_output_stmts`; for an array, the generated loop that writes zero to each element. -/
def neutralOutputStmts [Zero V] (name : String) (ty : Option PortType) : List (Stmt V W) :=
  match ty with
  | none | some .scalar => [.assign (.var name) (Store.clear name 1)]
  | some (.array len) => if 0 < len then [.assign (.index name) (Store.clear name len)] else []

/-- The declared type of a name. -/
def declaredType (declarations : List (String × PortType)) (name : String) : Option PortType :=
  (declarations.find? (·.1 = name)).map (·.2)

/-- The cells of a name; an undeclared output is a scalar. -/
def declaredCells (declarations : List (String × PortType)) (name : String) : Nat :=
  ((declaredType declarations name).getD .scalar).cells

/-- The store with the cells of the named outputs at zero. -/
def Store.neutralize [Zero V] (names : List String) (declarations : List (String × PortType))
    (store : Store V W) : Store V W where
  cells name cell :=
    if name ∈ names ∧ cell < declaredCells declarations name then 0 else store.cells name cell
  world := store.world

/-- `collect_neutral_outputs`: the order of the names does not matter. -/
def collectNeutralOutputs [Zero V] (names : List String) (declarations : List (String × PortType)) :
    List (Stmt V W) :=
  names.flatMap fun name => neutralOutputStmts name (declaredType declarations name)

/-- A numbered port name: the prefix and at least one digit. -/
def isNumbered (stem name : String) : Bool :=
  stem.toList.isPrefixOf name.toList && name.toList.drop stem.length ≠ [] &&
    (name.toList.drop stem.length).all Char.isDigit

mutual

def Stmt.collectNumberedOutputs (stem : String) : Stmt V W → List String
  | .assign (.var name) _ => if isNumbered stem name then [name] else []
  | .branch _ thenBranch elseBranch =>
    collectNumberedOutputs stem thenBranch ++ collectNumberedOutputs stem elseBranch
  | .loop _ body => collectNumberedOutputs stem body
  | .assign (.index _) _ | .assign (.indexedMember _) _ | .assign (.slice _) _
  | .assign (.tuple _) _ | .effect _ | .await _ | .reset _ | .brk | .cont | .ret | .resume _
  | .setAvailable _ | .abort => []

/-- `collect_numbered_outputs`. -/
def collectNumberedOutputs (stem : String) : List (Stmt V W) → List String
  | [] => []
  | stmt :: stmts => stmt.collectNumberedOutputs stem ++ collectNumberedOutputs stem stmts

end

/-- The names that an assignment target writes, as `infer_io_from_stmt` reads them. -/
def AssignTarget.bases : AssignTarget → List String
  | var name => [name]
  | index base | indexedMember base | slice base => [base]
  | tuple names => names.filterMap id

mutual

def Stmt.inferredOutputs (stem : String) : Stmt V W → List String
  | .assign target _ => target.bases.filter (isNumbered stem)
  | .branch _ thenBranch elseBranch =>
    inferredOutputs stem thenBranch ++ inferredOutputs stem elseBranch
  | .loop _ body => inferredOutputs stem body
  | .effect _ | .await _ | .reset _ | .brk | .cont | .ret | .resume _ | .setAvailable _
  | .abort => []

/-- The numbered names that a body assigns, in any form: `infer_io_from_stmt` on its targets. -/
def inferredOutputs (stem : String) : List (Stmt V W) → List String
  | [] => []
  | stmt :: stmts => stmt.inferredOutputs stem ++ inferredOutputs stem stmts

end

/-- `parse_numbered_port_index`; 0 for a name that is not numbered. -/
def portIndex (stem name : String) : Nat :=
  if isNumbered stem name then
    (name.toList.drop stem.length).foldl (fun index digit => 10 * index + (digit.toNat - 48)) 0
  else 0

/-- The greatest index among some names. -/
def maxPortIndex (stem : String) (names : List String) : Nat :=
  names.foldr (fun name greatest => max (portIndex stem name) greatest) 0

/-! ### Source code -/

/-- A guard that source code can have. -/
def Guard.isSource : Guard V W → Bool
  | .source _ => true
  | .available | .notAvailable | .notResumed _ | .notResult _ => false

mutual

def Stmt.isSource : Stmt V W → Bool
  | .assign _ _ | .effect _ | .await _ | .reset _ | .brk | .cont | .ret => true
  | .branch guard thenBranch elseBranch =>
    guard.isSource && isSource thenBranch && isSource elseBranch
  | .loop _ body => isSource body
  | .resume _ | .setAvailable _ | .abort => false

/-- Code with no generated statement. -/
def isSource : List (Stmt V W) → Bool
  | [] => true
  | stmt :: stmts => stmt.isSource && isSource stmts

end

mutual

def Stmt.awaits : Stmt V W → Bool
  | .await _ => true
  | .branch _ thenBranch elseBranch => awaits thenBranch || awaits elseBranch
  | .loop _ body => awaits body
  | .assign _ _ | .effect _ | .reset _ | .brk | .cont | .ret | .resume _ | .setAvailable _
  | .abort => false

/-- The code contains an `await`. -/
def awaits : List (Stmt V W) → Bool
  | [] => false
  | stmt :: stmts => stmt.awaits || awaits stmts

end

/-- Source code of an owner. -/
structure SourceCode (V W : Type) where
  body : List (Stmt V W)
  source : isSource body = true

/-- Source code outside the block-pre body, where `await` is not allowed. -/
structure PlainCode (V W : Type) extends SourceCode V W where
  plain : awaits body = false

/-! ### Owners -/

/-- `OutputTiming`. -/
inductive OutputTiming where
  | sample
  | block
deriving DecidableEq

def OutputTiming.stem : OutputTiming → String
  | sample => "out"
  | block => "kout"

/-- The code of an owner after lowering. -/
structure LoweredOwner (V W : Type) where
  pre : List (Stmt V W)
  sample : List (Stmt V W)
  post : List (Stmt V W)

/-- `ProcessorDef`: a processor with tasks.  The block hooks are the calls that the generated
functions make for child processors, after the block-pre body and before the block-post body. -/
structure Processor (V W : Type) where
  outs : List (String × PortType)
  outsTiming : OutputTiming
  blockPre : SourceCode V W
  sample : PlainCode V W
  blockPost : PlainCode V W
  /-- The other code that may assign outputs: events and local functions. -/
  elsewhere : List (Stmt V W)
  /-- The names in the expressions of the code that outputs are inferred from. -/
  mentioned : List String
  preHooks : Store V W → Store V W
  postHooks : Store V W → Store V W

namespace Processor

variable [Zero V] (proc : Processor V W)

def assigned : List String :=
  inferredOutputs proc.outsTiming.stem (proc.blockPre.body ++ proc.sample.body ++
    proc.blockPost.body ++ proc.elsewhere)

/-- The number of inferred outputs: audio outputs are inferred from the sample code alone. -/
def inferredMax : Nat :=
  maxPortIndex proc.outsTiming.stem
    ((if proc.outsTiming = .sample then inferredOutputs proc.outsTiming.stem proc.sample.body
      else proc.assigned) ++ proc.mentioned)

/-- The output ports: the declared ones, and the inferred ones that some code assigns. -/
def outputs : List String :=
  proc.outs.map (·.1) ++
    proc.assigned.filter fun name =>
      0 < portIndex proc.outsTiming.stem name ∧
        portIndex proc.outsTiming.stem name ≤ proc.inferredMax

/-- The outputs that `lower_tasks` neutralizes. -/
def neutralNames : List String :=
  proc.outs.map (·.1) ++ collectNumberedOutputs proc.outsTiming.stem proc.blockPre.body ++
    collectNumberedOutputs proc.outsTiming.stem proc.sample.body

def neutralOutputs : List (Stmt V W) := collectNeutralOutputs proc.neutralNames proc.outs

/-- The code of an activation whose await did not complete. -/
def unavailable : List (Stmt V W) :=
  (if proc.outsTiming = .block then proc.neutralOutputs else []) ++ [.setAvailable false, .abort]

/-- The code of a sample in an unavailable block. -/
def unavailableSample : List (Stmt V W) :=
  (if proc.outsTiming = .sample then proc.neutralOutputs else []) ++ [.abort]

/-- `lower_tasks` on a processor, with the markers materialized in its generated functions.  The
step of a processor with control outputs is its block-pre code alone. -/
def lower : LoweredOwner V W where
  pre := materializeTaskAbort
    (.setAvailable true :: (rewriteTaskControls proc.unavailable .returned proc.blockPre.body ++
      [.effect proc.preHooks]))
  sample :=
    if proc.outsTiming = .sample then
      materializeTaskAbort
        (.branch .notAvailable proc.unavailableSample [] ::
          rewriteTaskControls proc.unavailable .returned proc.sample.body)
    else []
  post :=
    if proc.outsTiming = .sample then
      materializeTaskAbort
        (.branch .notAvailable [.abort] [] :: .effect proc.postHooks ::
          rewriteTaskControls proc.unavailable .returned proc.blockPost.body)
    else []

end Processor

/-- A program whose top level has tasks.  Its block hooks are the calls for its processors, before
the block-pre body and after the block-post body. -/
structure Program (V W : Type) where
  outs : List (String × PortType)
  kouts : List (String × PortType)
  blockPre : SourceCode V W
  sample : PlainCode V W
  blockPost : PlainCode V W
  preHooks : Store V W → Store V W
  postHooks : Store V W → Store V W

namespace Program

variable [Zero V] (program : Program V W)

/-- The audio output ports: the declared ones and the inferred ones. -/
def audioOutputs : List String :=
  program.outs.map (·.1) ++
    (inferredOutputs "out" program.sample.body).filter fun name => 0 < portIndex "out" name

/-- `begin_audio_output_frame`: each frame starts with outputs at zero. -/
def beginAudioOutputFrame : Store V W → Store V W :=
  Store.neutralize program.audioOutputs program.outs

def neutralAudioNames : List String :=
  program.outs.map (·.1) ++ collectNumberedOutputs "out" program.sample.body

def neutralControlNames : List String :=
  program.kouts.map (·.1) ++ collectNumberedOutputs "kout" program.blockPre.body ++
    collectNumberedOutputs "kout" program.blockPost.body

def neutralAudioOutputs : List (Stmt V W) :=
  collectNeutralOutputs program.neutralAudioNames program.outs

def neutralControlOutputs : List (Stmt V W) :=
  collectNeutralOutputs program.neutralControlNames program.kouts

def unavailable : List (Stmt V W) :=
  program.neutralControlOutputs ++ [.setAvailable false, .abort]

/-- `lower_top_level_tasks`, with the markers lowered in the process function.  An abortable
block-pre body is the body of a loop that runs once, so that a break leaves it. -/
def lower : LoweredOwner V W where
  pre := lowerTaskAbort
    (.effect program.preHooks :: .setAvailable true ::
      propagateTaskAbortThroughLoops
        (rewriteTaskControls program.unavailable .runtimeField program.blockPre.body))
  sample := lowerTaskAbort
    [.effect program.beginAudioOutputFrame,
      .branch .available
      (rewriteTaskControls program.unavailable .runtimeField program.sample.body)
      program.neutralAudioOutputs]
  post := lowerTaskAbort
    [.branch .available
      (rewriteTaskControls program.unavailable .runtimeField program.blockPost.body) [],
      .effect program.postHooks]

end Program

end Onda.Tasks
