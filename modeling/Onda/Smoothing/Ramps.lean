import Mathlib.Data.List.Nodup
import Mathlib.Logic.Function.Basic
import Onda.Lib.Sweep

/-!
# Parameter ramps

The ramps that a host draws between the values of continuous parameters, block by block.  Each
element of such a parameter has an entry, and the entries whose values are on their way are
listed.  The part that the two hosts share: an entry is told a target, the duration changes, and
a block begins.
-/

namespace Onda.Smoothing

/-- What the ramps use of floats.  `interpolate` is between the two ends of a ramp. -/
structure Floats (F : Type) where
  eq : F → F → Bool
  isFinite : F → Bool
  /-- To `f32` and back. -/
  toF32 : F → F
  interpolate : (start target : F) → (elapsed samples : Nat) → F
  eq_self : ∀ {value}, isFinite value = true → eq value value = true
  toF32_toF32 : ∀ value, toF32 (toF32 value) = toF32 value

/-- Where the value of an entry is stored, and whether as an `f32`. -/
structure Storage (S A : Type) where
  address : S → A
  isF32 : S → Bool

structure Entry (S F : Type) where
  slot : S
  current : F
  start : F
  target : F
  elapsed : Nat
  active : Bool

/-- `ParamSmoothing`, without the table of addresses. -/
structure Ramps (S F : Type) where
  samples : Nat
  entries : List (Entry S F)
  active : List Nat
  started : Bool

/-- The remaining length is not below zero. -/
def remaining (samples elapsed : Nat) : Option Nat :=
  if elapsed ≤ samples then some (samples - elapsed) else none

section Model

variable {S A F : Type} [DecidableEq A] (floats : Floats F) (storage : Storage S A)

/-- The value that is stored for one that is written. -/
def stored (slot : S) (value : F) : F := if storage.isF32 slot then floats.toF32 value else value

/-- What a loop over entries works on. -/
structure Cells (S A F : Type) where
  entries : List (Entry S F)
  memory : A → F

/-- A value may be stored. -/
def write (memory : A → F) (address : A) : Option F → A → F
  | some value => Function.update memory address value
  | none => memory

/-- One entry is changed, and a value may be stored at its address.  It stays while active. -/
def touch (change : Entry S F → Option (Entry S F × Option F)) (id : Nat) (cells : Cells S A F) :
    Option (Cells S A F × Bool) :=
  (cells.entries[id]?).bind fun entry =>
    (change entry).map fun changed =>
      (⟨cells.entries.set id changed.1,
        write cells.memory (storage.address entry.slot) changed.2⟩, changed.1.active)

/-- The step of `begin_block`. -/
def Entry.advance (samples frames : Nat) (entry : Entry S F) : Option (Entry S F × Option F) :=
  (remaining samples entry.elapsed).map fun left =>
    let elapsed := entry.elapsed + min frames left
    let value := if elapsed = samples then entry.target
      else floats.interpolate entry.start entry.target elapsed samples
    ({ entry with
        elapsed := elapsed
        current := stored floats storage entry.slot value
        active := elapsed ≠ samples }, some (stored floats storage entry.slot value))

/-- The step of `set_duration` for an active entry, which is at `reached` when there are no ramps
any more. -/
def Entry.redraw (reached : Entry S F → F) (previous samples : Nat) (entry : Entry S F) :
    Option (Entry S F × Option F) :=
  if samples = 0 then
    some ({ entry with current := reached entry, start := reached entry, elapsed := 0, active := false },
      some (stored floats storage entry.slot entry.target))
  else
    some ({ entry with
      start := entry.current, elapsed := if entry.elapsed = previous then samples else 0 }, none)

namespace Ramps

variable (ramps : Ramps S F)

def setEntry (id : Nat) (entry : Entry S F) : Ramps S F :=
  { ramps with entries := ramps.entries.set id entry }

/-- `set_target` for an entry: whether a ramp handles the write. -/
def setTarget (id : Nat) (entry : Entry S F) (value : F) (initialized : Bool) : Ramps S F × Bool :=
  let target := stored floats storage entry.slot value
  if ramps.samples = 0 ∨ !initialized ∨ !ramps.started ∨ !floats.isFinite target
      ∨ !floats.isFinite entry.current then
    (ramps.setEntry id { entry with current := target, target := target, elapsed := ramps.samples }, false)
  else if floats.eq target entry.target then (ramps, true)
  else
    let entries := ramps.entries.set id { entry with
      start := entry.current
      target := target
      elapsed := if floats.eq target entry.current then ramps.samples else 0
      active := true }
    ({ ramps with
        entries := entries
        active := if entry.active then ramps.active else ramps.active ++ [id] }, true)

/-- A value is written: one that no ramp handles is stored. -/
def setParam (id : Nat) (entry : Entry S F) (value : F) (initialized : Bool) (memory : A → F) :
    Ramps S F × (A → F) :=
  let outcome := ramps.setTarget floats storage id entry value initialized
  (outcome.1, if outcome.2 then memory
    else Function.update memory (storage.address entry.slot) (stored floats storage entry.slot value))

/-- `set_duration`, with the number of samples. -/
def setDuration (reached : Entry S F → F) (samples : Nat) (memory : A → F) :
    Option (Ramps S F × (A → F)) :=
  if samples = ramps.samples then some (ramps, memory)
  else
    (Sweep.visits (touch storage (Entry.redraw floats storage reached ramps.samples samples)) ramps.active
      ⟨ramps.entries, memory⟩).map fun visited =>
        ({ ramps with
            samples := samples
            entries := visited.1.entries
            active := if samples = 0 then [] else ramps.active }, visited.1.memory)

/-- The loop of `begin_block`. -/
def advance (frames : Nat) (memory : A → F) : Option (Ramps S F × (A → F)) :=
  (Sweep.sweep (touch storage (Entry.advance floats storage ramps.samples frames))
    ramps.active.length 0 ramps.active ⟨ramps.entries, memory⟩).map fun swept =>
      ({ ramps with entries := swept.1.entries, active := swept.2, started := true }, swept.1.memory)

/-- Every entry is at its target. -/
def settleEntries (target current : Entry S F → F) : Ramps S F :=
  { ramps with
    active := []
    started := false
    entries := ramps.entries.map fun entry =>
      { entry with
        target := target entry, current := current entry, start := target entry
        elapsed := ramps.samples, active := false } }

end Ramps

end Model

end Onda.Smoothing
