import Mathlib
import Onda.Tasks.Owners

/-!
# Runs of owners with tasks

An unfinished await ends a block and nothing else.  A processor whose outputs lowering does not
all find keeps old values in them: `stereoPair` assigns its outputs by a tuple alone.
-/

namespace Onda.Tasks

variable {V W : Type}

/-- What declares tasks. -/
inductive Owner (V W : Type) where
  | processor (proc : Processor V W)
  | program (program : Program V W)

namespace Owner

variable [Zero V]

def lower : Owner V W → LoweredOwner V W
  | .processor proc => proc.lower
  | .program top => top.lower

def written : Owner V W → Activation V W
  | .processor proc => proc.written
  | .program top => top.written

/-- The outputs of the sample code, or of the block code of a processor with control outputs. -/
def outputs : Owner V W → List String
  | .processor proc => proc.outputs
  | .program top => top.audioOutputs

def outs : Owner V W → List (String × PortType)
  | .processor proc => proc.outs
  | .program top => top.outs

/-- Where a block that an await ends clears outputs: at each frame, and for control outputs at
the await. -/
def silence : Owner V W → Store V W → Store V W
  | .processor proc => if proc.outsTiming = .sample then proc.written.quiet else proc.written.stopped
  | .program top => top.written.quiet

def Covered : Owner V W → Prop
  | .processor proc => proc.Covered
  | .program _ => True

/-- Lowered blocks show what blocks as written show, and a block that an await ends is silent. -/
def StopsBlocks (owner : Owner V W) : Prop :=
  (∀ (tasks : TaskDefs V W) (budget : Nat) (blocks : List (Block V W))
    (machine machine' : Machine V W), SameStore machine machine' →
      Option.Rel (SameShown SameStore) (owner.written.runBlocks tasks budget blocks machine)
        (owner.lower.runBlocks tasks budget blocks machine')) ∧
  ∀ store, ∀ name ∈ owner.outputs, ∀ cell < declaredCells owner.outs name,
    (owner.silence store).cells name cell = 0

theorem realizes {owner : Owner V W} (covered : owner.Covered) (tasks : TaskDefs V W)
    (budget : Nat) : Realizes tasks budget owner.lower owner.written := by
  cases owner with
  | processor proc => exact Processor.Covered.realizes covered
  | program top => exact top.realizes

theorem neutralize_silent {names : List String} {declarations : List (String × PortType)}
    {name : String} (here : name ∈ names) {cell : Nat} (inside : cell < declaredCells declarations name)
    (store : Store V W) : (Store.neutralize names declarations store).cells name cell = 0 :=
  if_pos ⟨here, inside⟩

theorem silent (owner : Owner V W) (store : Store V W) {name : String}
    (output : name ∈ owner.outputs) {cell : Nat} (inside : cell < declaredCells owner.outs name) :
    (owner.silence store).cells name cell = 0 := by
  cases owner with
  | processor proc =>
    have quiet : name ∈ proc.quietNames := List.mem_append_left _ output
    by_cases timing : proc.outsTiming = .sample
    · rw [silence, if_pos timing, (proc.written_sample timing).2]
      exact neutralize_silent quiet inside store
    · have control : proc.outsTiming = .block := by
        cases here : proc.outsTiming with
        | sample => exact absurd here timing
        | block => rfl
      have stopped : proc.written.stopped = Store.neutralize proc.quietNames proc.outs :=
        if_pos control
      rw [silence, if_neg timing, stopped]
      exact neutralize_silent quiet inside store
  | program top => exact neutralize_silent (List.mem_append_left _ output) inside store

end Owner

/-! ### Outputs that lowering does not find -/

/-- Sets one cell. -/
def Store.set (name : String) (value : Nat) (store : Store Nat Bool) : Store Nat Bool :=
  { store with cells := fun other cell => if other = name then value else store.cells other cell }

/-- Assignments of 7 to each name of some targets. -/
def sevens (targets : List AssignTarget) : List (Stmt Nat Bool) :=
  targets.map fun target =>
    .assign target fun store => target.bases.foldl (fun store name => store.set name 7) store

theorem sevens_plain (targets : List AssignTarget) :
    isSource (sevens targets) = true ∧ awaits (sevens targets) = false := by
  induction targets with
  | nil => exact ⟨rfl, rfl⟩
  | cons target targets ih => exact ih

/-- A processor that awaits a task before its block. -/
def awaiting (targets : List AssignTarget) : Processor Nat Bool where
  outs := []
  outsTiming := .sample
  blockPre := ⟨[.await "load"], rfl⟩
  sample := ⟨⟨sevens targets, (sevens_plain targets).1⟩, (sevens_plain targets).2⟩
  blockPost := ⟨⟨[], rfl⟩, rfl⟩
  elsewhere := []
  mentioned := []
  preHooks := id
  postHooks := id

/-- A task that completes while the world allows it. -/
def whileAllowed : TaskDefs Nat Bool where
  resume _ store := (store.world, store)
  reset _ := id

/-- Two blocks; the world changes in the last frame of the first. -/
def twoBlocks : List (Block Nat Bool) :=
  [⟨[id, fun store => { store with world := false }], []⟩, ⟨[id], []⟩]

def fresh : Machine Nat Bool where
  store := ⟨fun _ _ => 0, true⟩
  available := false
  result _ := false

/-- The value of the second output in each frame of a run. -/
def secondOutput (shown : List (List (Store Nat Bool))) : List (List Nat) :=
  shown.map fun frames => frames.map fun store => store.cells "out2" 0

end Onda.Tasks
