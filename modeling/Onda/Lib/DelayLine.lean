import Mathlib.Logic.Function.Basic
import Mathlib.Tactic.Common

/-!
# Delay lines

A ring of cells with a head: a value that is pushed is read again after as many pushes as the ring
has cells.
-/

namespace Onda

structure DelayLine (V : Type) where
  cells : Nat → V
  head : Nat

namespace DelayLine

variable {V : Type}

/-- The oldest value. -/
def read (line : DelayLine V) : V := line.cells line.head

/-- Overwrites the oldest value. -/
def push (length : Nat) (line : DelayLine V) (value : V) : DelayLine V where
  cells := Function.update line.cells line.head value
  head := (line.head + 1) % length

theorem push_cells (length : Nat) (line : DelayLine V) (value : V) :
    (line.push length value).cells = Function.update line.cells line.head value := rfl

/-- A line of zeros. -/
def empty [Zero V] : DelayLine V := ⟨fun _ => 0, 0⟩

/-- A line into which values were pushed. -/
structure Holds [Zero V] (length : Nat) (values : List V) (line : DelayLine V) : Prop where
  head : line.head = values.length % length
  recent : ∀ index (inside : index < values.length), values.length ≤ index + length →
    line.cells (index % length) = values[index]
  untouched : ∀ cell, values.length ≤ cell → cell < length → line.cells cell = 0

theorem holds_empty [Zero V] (length : Nat) : Holds length [] (empty : DelayLine V) where
  head := by simp [empty]
  recent index inside := absurd inside (Nat.not_lt_zero index)
  untouched _ _ _ := rfl

/-- A push adds a value. -/
theorem Holds.push [Zero V] {length : Nat} {values : List V} {line : DelayLine V}
    (holds : Holds length values line) (value : V) :
    Holds length (values ++ [value]) (line.push length value) where
  head := by
    rw [DelayLine.push, holds.head, List.length_append, List.length_singleton, Nat.mod_add_mod]
  recent := by
    intro index inside near
    rw [List.length_append, List.length_singleton] at inside near
    rw [push_cells, holds.head]
    by_cases last : index = values.length
    · subst last
      simp
    · have older : index < values.length := by omega
      have apart : index % length ≠ values.length % length := by
        intro same
        -- two indices less than a turn apart have different cells
        have gap : (values.length - index) % length = 0 :=
          Nat.sub_mod_eq_zero_of_mod_eq same.symm
        rw [Nat.mod_eq_of_lt (by omega)] at gap
        omega
      rw [Function.update_of_ne apart, holds.recent index older (by omega),
        List.getElem_append_left older]
  untouched := by
    intro cell beyond inside
    rw [List.length_append, List.length_singleton] at beyond
    rw [push_cells, holds.head, Nat.mod_eq_of_lt (by omega),
      Function.update_of_ne (by omega), holds.untouched cell (by omega) inside]

/-- What a line of zeros shows after some pushes. -/
def delayed [Zero V] (length : Nat) (values : List V) : V :=
  if inside : length ≤ values.length ∧ 0 < length then
    values[values.length - length]
  else 0

theorem Holds.read [Zero V] {length : Nat} {values : List V} {line : DelayLine V}
    (holds : Holds length values line) (positive : 0 < length) :
    line.read = delayed length values := by
  unfold DelayLine.read delayed
  rw [holds.head]
  by_cases full : length ≤ values.length
  · rw [dif_pos ⟨full, positive⟩, Nat.mod_eq_sub_mod full]
    exact holds.recent _ (by omega) (by omega)
  · rw [dif_neg fun both => full both.1, Nat.mod_eq_of_lt (by omega)]
    exact holds.untouched _ (by omega) (by omega)

end DelayLine

end Onda
