import Onda.Tasks.Blocks

/-!
# Lowered owners realize their code as written

`Realizes` is what one block needs of lowered code, a condition for each of its parts; blocks and
runs follow from it.  Processors and programs then meet the conditions by the simulation of task
controls.
-/

namespace Onda.Tasks

variable {V W : Type} {tasks : TaskDefs V W} {budget : Nat}

/-- The states of an unavailable block. -/
structure Idle (machine machine' : Machine V W) : Prop where
  store : machine'.store = machine.store
  available : machine'.available = false

def SameStore (machine machine' : Machine V W) : Prop := machine'.store = machine.store

/-- What frames show, and the states they lead to. -/
def SameShown (related : Machine V W → Machine V W → Prop) {α : Type}
    (shown shown' : α × Machine V W) : Prop :=
  shown'.1 = shown.1 ∧ related shown.2 shown'.2

variable {machine machine' : Machine V W} {α : Type} {first : Option α} {β : Type}
  {second : Option β} {related : α → β → Prop}

theorem Together.input (together : Together machine machine') (arrive : Input V W)
    : Together (machine.input arrive) (machine'.input arrive) :=
  ⟨congrArg arrive together.store, together.available⟩

theorem Idle.input (idle : Idle machine machine') (arrive : Input V W)
    : Idle (machine.input arrive) (machine'.input arrive) :=
  ⟨congrArg arrive idle.store, idle.available⟩

theorem rel_bind {γ δ : Type} {related' : γ → δ → Prop} {f : α → Option γ} {g : β → Option δ}
    (start : Option.Rel related first second)
    (steps : ∀ x y, related x y → Option.Rel related' (f x) (g y)) :
    Option.Rel related' (first.bind f) (second.bind g) := by
  cases start with
  | none => exact .none
  | some here => exact steps _ _ here

theorem rel_map {γ δ : Type} {related' : γ → δ → Prop} {f : α → γ} {g : β → δ}
    (start : Option.Rel related first second) (steps : ∀ x y, related x y → related' (f x) (g y)) :
    Option.Rel related' (first.map f) (second.map g) := by
  cases start with
  | none => exact .none
  | some here => exact .some (steps _ _ here)

theorem rel_weaken {related' : α → β → Prop} (weaker : ∀ x y, related x y → related' x y)
    (start : Option.Rel related first second) : Option.Rel related' first second := by
  cases start with
  | none => exact .none
  | some here => exact .some (weaker _ _ here)

/-- Frame by frame; the induction is on the frames. -/
theorem runFrames_related {related : Machine V W → Machine V W → Prop} {step step' : Step V W}
    (same : ∀ machine machine', related machine machine' → SameStore machine machine')
    (arrives : ∀ arrive machine machine', related machine machine' →
      related (Machine.input arrive machine) (Machine.input arrive machine'))
    (steps : ∀ machine machine', related machine machine' →
      Option.Rel related (step machine) (step' machine'))
    (frames : List (Input V W)) (machine machine' : Machine V W)
    (start : related machine machine') :
    Option.Rel (SameShown related) (runFrames step frames machine)
      (runFrames step' frames machine') := by
  induction frames generalizing machine machine' with
  | nil => exact .some ⟨rfl, start⟩
  | cons arrive frames ih =>
    refine rel_bind (steps _ _ (arrives arrive machine machine' start)) ?_
    intro after after' related_after
    refine rel_map (ih after after' related_after) ?_
    intro shown shown' rest
    refine ⟨?_, rest.2⟩
    rw [rest.1, same after after' related_after]

/-- What lowered code does in place of code as written. -/
structure Realizes (tasks : TaskDefs V W) (budget : Nat) (owner : LoweredOwner V W)
    (written : Activation V W) : Prop where
  spent : ∀ machine machine', SameStore machine machine' →
    (execAll tasks budget written.pre machine).2 = .spent →
      LoweredOwner.run tasks budget owner.pre machine' = none
  unfinished : ∀ machine machine', SameStore machine machine' →
    (execAll tasks budget written.pre machine).2 = .unfinished →
      Option.Rel Idle
        (some ((execAll tasks budget written.pre machine).1.input written.stopped))
        (LoweredOwner.run tasks budget owner.pre machine')
  finished : ∀ machine machine', SameStore machine machine' →
    (execAll tasks budget written.pre machine).2 ≠ .spent →
    (execAll tasks budget written.pre machine).2 ≠ .unfinished →
      Option.Rel Together (some (execAll tasks budget written.pre machine).1)
        (LoweredOwner.run tasks budget owner.pre machine')
  sample : ∀ machine machine', Together machine machine' →
    Option.Rel Together (LoweredOwner.run tasks budget written.sample machine)
      (LoweredOwner.run tasks budget owner.sample machine')
  post : ∀ machine machine', Together machine machine' →
    Option.Rel SameStore (LoweredOwner.run tasks budget written.post machine)
      (LoweredOwner.run tasks budget owner.post machine')
  quiet : ∀ machine machine', Idle machine machine' →
    Option.Rel Idle (some (machine.input written.quiet))
      (LoweredOwner.run tasks budget owner.sample machine')
  release : ∀ machine machine', Idle machine machine' →
    Option.Rel SameStore (some (machine.input written.release))
      (LoweredOwner.run tasks budget owner.post machine')

namespace Realizes

variable {owner : LoweredOwner V W} {written : Activation V W}

variable {machine machine' : Machine V W}

/-- A block that no await ends. -/
theorem finished_block (realizes : Realizes tasks budget owner written) (frames : List (Input V W))
    (together : Together machine machine') :
    Option.Rel (SameShown SameStore)
      ((runFrames (LoweredOwner.run tasks budget written.sample) frames machine).bind fun shown =>
        (LoweredOwner.run tasks budget written.post shown.2).map fun machine => (shown.1, machine))
      ((runFrames (LoweredOwner.run tasks budget owner.sample) frames machine').bind fun shown =>
        (LoweredOwner.run tasks budget owner.post shown.2).map
          fun machine => (shown.1, machine)) := by
  have frames_related := runFrames_related (fun _ _ related => related.store)
    (fun arrive _ _ related => Together.input related arrive) realizes.sample frames machine
    machine' together
  refine rel_bind frames_related ?_
  intro shown shown' related
  exact rel_map (realizes.post _ _ related.2) fun _ _ same => ⟨related.1, same⟩

/-- A block that an await has ended. -/
theorem quiet_block (realizes : Realizes tasks budget owner written) (frames : List (Input V W))
    (idle : Idle machine machine') :
    Option.Rel (SameShown SameStore)
      ((runFrames (fun machine => some (machine.input written.quiet)) frames machine).map
        fun shown => (shown.1, shown.2.input written.release))
      ((runFrames (LoweredOwner.run tasks budget owner.sample) frames machine').bind fun shown =>
        (LoweredOwner.run tasks budget owner.post shown.2).map
          fun machine => (shown.1, machine)) := by
  have frames_related := runFrames_related (fun _ _ related => related.store)
    (fun arrive _ _ related => Idle.input related arrive) realizes.quiet frames machine
    machine' idle
  rw [Option.map_eq_bind]
  refine rel_bind frames_related ?_
  intro shown shown' related
  exact rel_map (realizes.release _ _ related.2) fun _ _ same => ⟨related.1, same⟩

/-- One block: its pre code decides which of the two it is. -/
theorem block (realizes : Realizes tasks budget owner written) (block : Block V W)
    (same : SameStore machine machine') :
    Option.Rel (SameShown SameStore)
      (written.block tasks budget (block.first ++ block.rest.flatten) machine)
      (owner.runSegments tasks budget (segments true block.first block.rest) machine') := by
  rw [LoweredOwner.runSegments_rest, if_pos rfl, Activation.block]
  have spent := realizes.spent machine machine' same
  have unfinished := realizes.unfinished machine machine' same
  have finished := realizes.finished machine machine' same
  rcases ran : execAll tasks budget written.pre machine with ⟨after, flow⟩
  rw [ran] at spent unfinished finished
  rcases entered : LoweredOwner.run tasks budget owner.pre machine' with _ | after'
  all_goals rw [entered] at spent unfinished finished
  · cases flow with
    | spent => exact .none
    | unfinished => cases unfinished rfl
    | next | brk | cont | ret => cases finished (by simp) (by simp)
  · cases flow with
    | spent => cases spent rfl
    | unfinished =>
      cases unfinished rfl with
      | some idle => exact realizes.quiet_block _ idle
    | next | brk | cont | ret =>
      cases finished (by simp) (by simp) with
      | some together => exact realizes.finished_block _ together

/-- A run of blocks. -/
theorem runBlocks (realizes : Realizes tasks budget owner written) (blocks : List (Block V W))
    (same : SameStore machine machine') :
    Option.Rel (SameShown SameStore) (written.runBlocks tasks budget blocks machine)
      (owner.runBlocks tasks budget blocks machine') := by
  induction blocks generalizing machine machine' with
  | nil => exact .some ⟨rfl, same⟩
  | cons block blocks ih =>
    rw [Activation.runBlocks, LoweredOwner.runBlocks]
    refine rel_bind (realizes.block block same) ?_
    intro shown shown' related
    refine rel_map (ih related.2) ?_
    intro more more' rest
    refine ⟨?_, rest.2⟩
    rw [rest.1, related.1]

end Realizes

end Onda.Tasks
