import Onda.Smoothing.Worklet

/-!
# Ramps settle

In both hosts the ramps keep their invariants in every run, and a parameter is at its target once
blocks with the frames of a ramp have begun.
-/

namespace Onda.Smoothing

/-! ### Ramps settle -/

section Settling

variable {F : Type} (floats : Floats F)

/-- What holds of ramps after any run: the active entries are listed, each once, none is beyond its
end, and the next block with frames can begin and updates each active entry once. -/
structure Kept {S A : Type} (storage : Storage S A) (ramps : Ramps S F) (memory : A → F)
    (begins : Nat → Option (Ramps S F × (A → F))) : Prop where
  once : ramps.active.Nodup
  listed : ∀ id : Nat, id ∈ ramps.active ↔ ∃ entry, ramps.entries[id]? = some entry ∧ entry.active = true
  within : ∀ (id : Nat) (entry : Entry S F), ramps.entries[id]? = some entry → entry.active = true →
    entry.elapsed ≤ ramps.samples
  updates : ∀ frames, 0 < frames → ∃ next memory', begins frames = some (next, memory')
    ∧ Touched storage (Entry.advance floats storage ramps.samples frames) ramps.active
      ⟨ramps.entries, memory⟩ ⟨next.entries, memory'⟩

/-- In both hosts, for all parameters and all runs: the remaining length is never below zero, so the
run goes on; what is said in `Kept` holds; and an entry whose target and duration have stayed while
blocks with the frames of its ramp began is inactive, with its target stored.  In the Rust host a
stored value may differ from the target while it equals it as a float, and in the worklet the value
of a disabled ramp may have been written past it. -/
theorem ramps_settle :
    (∀ (params : List (ParamDesc floats)) (samples : Nat) (blank : Nat × Nat → F) (calls : List (HostCall F)),
      ∃ session, Steps.run RunSession.perform (RunSession.build params samples blank) calls = some session
        ∧ Kept floats (hostStorage F) session.ramps session.memory
          (fun frames => (session.beginBlock frames).map fun next => (next.ramps, next.memory))
        ∧ ∀ (later : List (HostCall F)) (last : RunSession floats) (id : Nat) (entry : Entry (HostSlot F) F),
          Steps.run RunSession.perform session later = some last →
          Steps.Meets RunSession.perform (KeepsTarget RunSession.ramps RunSession.perform id) session later →
          last.ramps.samples ≤ (later.map HostCall.frames).sum → last.ramps.entries[id]? = some entry →
          entry.active = false
            ∧ Shows floats (last.memory (entry.slot.index, entry.slot.element)) entry.target)
    ∧ ∀ (table : ParamTable F) (samples : Nat) (values : Nat → Nat → F) (blank : Nat → F)
        (calls : List (WebCall F)),
      ∃ session, Steps.run (WebSession.perform floats) (WebSession.build floats table samples values blank) calls
          = some session
        ∧ Kept floats webStorage session.ramps session.memory
          (fun frames => (session.beginBlock floats frames).map fun next => (next.ramps, next.memory))
        ∧ ∀ (later : List (WebCall F)) (last : WebSession F) (id : Nat) (entry : Entry WebSlot F),
          Steps.run (WebSession.perform floats) session later = some last →
          Steps.Meets (WebSession.perform floats) (KeepsTarget WebSession.ramps (WebSession.perform floats) id)
            session later →
          last.ramps.samples ≤ (later.map WebCall.frames).sum → last.ramps.entries[id]? = some entry →
          entry.active = false
            ∧ (last.ramps.samples ≠ 0 ∨ (∀ call ∈ calls ++ later, ¬call.Bypasses) →
              last.memory entry.slot.offset = entry.target) := by
  refine ⟨fun params samples blank calls => ?_, fun table samples values blank calls => ?_⟩
  · obtain ⟨session, run, sound⟩ := RunSession.run_sound (RunSession.build_sound params samples blank) calls
    refine ⟨session, run, ⟨sound.ramps.once, sound.ramps.listed, fun id entry here active =>
      (sound.ramps.within id entry here active).1, fun frames positive => ?_⟩, ?_⟩
    · obtain ⟨next, begins, touched⟩ := RunSession.beginBlock_updates sound positive
      exact ⟨next.ramps, next.memory, by rw [begins]; rfl, touched⟩
    · intro later last id entry ran steady enough here
      exact RunSession.session_settles sound ran steady enough here
  · obtain ⟨session, run, sound⟩ := WebSession.run_sound
      (WebSession.build_sound floats False table samples values blank) calls False.elim
    refine ⟨session, run, ⟨sound.ramps.once, sound.ramps.listed, fun id entry here active =>
      (sound.ramps.within id entry here active).1, fun frames _ => ?_⟩, ?_⟩
    · obtain ⟨next, memory, begins, -, -, -, touched⟩ := sound.ramps.advance frames session.memory
      exact ⟨next, memory, by rw [WebSession.beginBlock, begins]; rfl, touched⟩
    · intro later last id entry ran steady enough here
      obtain ⟨same, run', plainly⟩ := WebSession.run_sound
        (WebSession.build_sound floats (∀ call ∈ calls ++ later, ¬call.Bypasses) table samples values blank)
        calls fun plain call mem => plain call (List.mem_append_left _ mem)
      obtain rfl := Option.some.inj (run'.symm.trans run)
      exact WebSession.session_settles plainly
        (fun plain call mem => plain call (List.mem_append_right _ mem)) ran steady enough here

/-! ### A change of the duration -/

/-- Whole numbers for floats, with ramps that stay at their start. -/
def steps : Floats Nat where
  eq first second := first = second
  isFinite _ := true
  toF32 value := value
  interpolate start _ _ _ := start
  eq_self _ := decide_eq_true rfl
  toF32_toF32 _ := rfl

/-- One parameter of type `f64`. -/
def gain : ParamDesc steps where
  elemTy := .f64
  stepped := false
  arrayLen := 1
  default _ := 0
  default_f32 := nofun

/-- The first block has begun, and a target is set. -/
def started : List (HostCall Nat) := [.beginBlock 1, .setParam (0, 0) 1]

/-- The duration is changed from 100 to 80 samples behind 50 frames. -/
def shortening : List (HostCall Nat) := [.beginBlock 50, .setParamSmoothing 80, .beginBlock 40]

/-- The duration, the progress and the targets of the entries, and the stored parameter. -/
def summary (session : RunSession steps) : Nat × List (Bool × Nat × Nat) × Nat :=
  (session.ramps.samples,
    session.ramps.entries.map fun entry => (entry.active, entry.elapsed, entry.target), session.memory (0, 0))

def afterCalls (calls : List (HostCall Nat)) : Option (RunSession steps) :=
  Steps.run RunSession.perform (RunSession.build [gain] 100 fun _ => 0) calls

/-- Blocks with 90 frames have begun since the target was set, which is more than the 80 samples of a
ramp: the entry is active and its parameter is not at the target.  And a block without frames
updates no entry. -/
theorem shortened_active :
    (afterCalls started).map summary = some (100, [(true, 0, 1)], 0)
      ∧ (afterCalls (started ++ shortening)).map summary = some (80, [(true, 40, 1)], 0)
      ∧ 80 ≤ (shortening.map HostCall.frames).sum
      ∧ ((afterCalls started).bind fun session => session.beginBlock 0).map summary
        = (afterCalls started).map summary :=
  ⟨by decide, by decide, by decide, by decide⟩

end Settling

end Onda.Smoothing
