import Onda.Tasks.Aborts

/-!
# Blocks of an owner with tasks

The process function runs the pre code at the begin of a block, the sample code for each frame and
the post code at the end; a block may take several calls.  `Activation` says what blocks mean
without task controls in the code: an unfinished await ends the block's code, its frames are
quiet, and the next block begins anew.
-/

namespace Onda.Tasks

variable {V W : Type}

/-! ### Blocks -/

/-- What happens between the code of two frames: inputs arrive, events run. -/
abbrev Input (V W : Type) := Store V W → Store V W

/-- New inputs reach the store alone. -/
def Machine.input (arrive : Input V W) (machine : Machine V W) : Machine V W :=
  { machine with store := arrive machine.store }

/-- Code that runs in a block; `none` when a loop used up its budget. -/
abbrev Step (V W : Type) := Machine V W → Option (Machine V W)

/-- The frames of one call, with the store that each of them shows. -/
def runFrames (step : Step V W) :
    List (Input V W) → Machine V W → Option (List (Store V W) × Machine V W)
  | [], machine => some ([], machine)
  | arrive :: frames, machine =>
    (step (machine.input arrive)).bind fun machine =>
      (runFrames step frames machine).map fun rest => (machine.store :: rest.1, rest.2)

/-- One call of the process function: its flags and its frames. -/
structure Segment (V W : Type) where
  begins : Bool
  frames : List (Input V W)
  ends : Bool

/-- The calls of one block: the first has the begin flag, the last has the end flag. -/
def segments (begins : Bool) (first : List (Input V W)) :
    List (List (Input V W)) → List (Segment V W)
  | [] => [⟨begins, first, true⟩]
  | second :: rest => ⟨begins, first, false⟩ :: segments false second rest

/-- The frames of a block and the calls they are cut into. -/
structure Block (V W : Type) where
  first : List (Input V W)
  rest : List (List (Input V W))

namespace LoweredOwner

variable (tasks : TaskDefs V W) (budget : Nat) (owner : LoweredOwner V W)

/-- Generated code, to its end or to a return. -/
def run (code : List (Stmt V W)) : Step V W := fun machine =>
  if (execAll tasks budget code machine).2 = .spent then none
  else some (execAll tasks budget code machine).1

/-- `lower_process`. -/
def process (segment : Segment V W) (machine : Machine V W) :
    Option (List (Store V W) × Machine V W) :=
  (if segment.begins then run tasks budget owner.pre machine else some machine).bind fun machine =>
    (runFrames (run tasks budget owner.sample) segment.frames machine).bind fun shown =>
      if segment.ends then
        (run tasks budget owner.post shown.2).map fun machine => (shown.1, machine)
      else some shown

/-- Calls in order. -/
def runSegments : List (Segment V W) → Machine V W → Option (List (Store V W) × Machine V W)
  | [], machine => some ([], machine)
  | segment :: rest, machine =>
    (owner.process tasks budget segment machine).bind fun shown =>
      (runSegments rest shown.2).map fun more => (shown.1 ++ more.1, more.2)

/-- The blocks of a run, each with the stores that its frames show. -/
def runBlocks : List (Block V W) → Machine V W → Option (List (List (Store V W)) × Machine V W)
  | [], machine => some ([], machine)
  | block :: rest, machine =>
    (owner.runSegments tasks budget (segments true block.first block.rest) machine).bind
      fun shown => (runBlocks rest shown.2).map fun more => (shown.1 :: more.1, more.2)

end LoweredOwner

/-! ### Blocks as written -/

/-- The code of an owner as written, with what an unavailable block does in its place. -/
structure Activation (V W : Type) where
  pre : List (Stmt V W)
  sample : List (Stmt V W)
  post : List (Stmt V W)
  /-- Where an await ends the block. -/
  stopped : Store V W → Store V W
  /-- A frame of a block that an await has ended. -/
  quiet : Store V W → Store V W
  /-- What remains to be done at the end of such a block; no code of the owner. -/
  release : Store V W → Store V W

namespace Activation

variable (tasks : TaskDefs V W) (budget : Nat) (owner : Activation V W)

/-- One block: either an await does not complete, and then the frames are quiet and no other
code runs, or pre, sample and post code run. -/
def block (frames : List (Input V W)) (machine : Machine V W) :
    Option (List (Store V W) × Machine V W) :=
  match execAll tasks budget owner.pre machine with
  | (_, .spent) => none
  | (machine, .unfinished) =>
    (runFrames (fun machine => some (machine.input owner.quiet)) frames
        (machine.input owner.stopped)).map fun shown => (shown.1, shown.2.input owner.release)
  | (machine, _) =>
    (runFrames (LoweredOwner.run tasks budget owner.sample) frames machine).bind fun shown =>
      (LoweredOwner.run tasks budget owner.post shown.2).map fun machine => (shown.1, machine)

/-- Blocks in order: each begins with the pre code. -/
def runBlocks : List (Block V W) → Machine V W → Option (List (List (Store V W)) × Machine V W)
  | [], machine => some ([], machine)
  | block :: rest, machine =>
    (owner.block tasks budget (block.first ++ block.rest.flatten) machine).bind fun shown =>
      (runBlocks rest shown.2).map fun more => (shown.1 :: more.1, more.2)

end Activation

/-! ### Segments make blocks -/

section Segments

variable {tasks : TaskDefs V W} {budget : Nat}

theorem runFrames_append (step : Step V W) (first second : List (Input V W))
    (machine : Machine V W) :
    runFrames step (first ++ second) machine =
      (runFrames step first machine).bind fun shown =>
        (runFrames step second shown.2).map fun more => (shown.1 ++ more.1, more.2) := by
  induction first generalizing machine with
  | nil => simp [runFrames]
  | cons arrive first ih =>
    simp only [List.cons_append, runFrames]
    cases step (machine.input arrive) with
    | none => rfl
    | some machine =>
      simp only [Option.bind_some, ih]
      cases runFrames step first machine with
      | none => rfl
      | some shown =>
        simp only [Option.bind_some, Option.map_some, Option.map_map]
        rfl

/-- The end of a block, whatever its calls: the rest of the frames and the post code. -/
theorem LoweredOwner.runSegments_rest (owner : LoweredOwner V W) (begins : Bool)
    (first : List (Input V W)) (rest : List (List (Input V W))) (machine : Machine V W) :
    owner.runSegments tasks budget (segments begins first rest) machine =
      (if begins then run tasks budget owner.pre machine else some machine).bind fun machine =>
        (runFrames (run tasks budget owner.sample) (first ++ rest.flatten) machine).bind
          fun shown =>
            (run tasks budget owner.post shown.2).map fun machine => (shown.1, machine) := by
  induction rest generalizing begins first machine with
  | nil =>
    simp only [segments, LoweredOwner.runSegments, LoweredOwner.process, List.flatten_nil,
      List.append_nil, if_true]
    cases (if begins then run tasks budget owner.pre machine else some machine) with
    | none => rfl
    | some machine =>
      simp only [Option.bind_some]
      cases runFrames (run tasks budget owner.sample) first machine with
      | none => rfl
      | some shown =>
        simp only [Option.bind_some]
        cases run tasks budget owner.post shown.2 with
        | none => rfl
        | some machine => simp
  | cons second rest ih =>
    simp only [segments, LoweredOwner.runSegments, LoweredOwner.process, Bool.false_eq_true,
      if_false, ih, List.flatten_cons]
    cases (if begins then run tasks budget owner.pre machine else some machine) with
    | none => rfl
    | some machine =>
      simp only [Option.bind_some, runFrames_append _ first]
      cases runFrames (run tasks budget owner.sample) first machine with
      | none => rfl
      | some shown =>
        simp only [Option.bind_some]
        cases runFrames (run tasks budget owner.sample) (second ++ rest.flatten) shown.2 with
        | none => rfl
        | some more =>
          simp only [Option.bind_some, Option.map_some]
          cases run tasks budget owner.post more.2 <;> rfl

end Segments

end Onda.Tasks
