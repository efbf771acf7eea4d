import Mathlib.Data.List.Basic
import Mathlib.Logic.Function.Basic
import Mathlib.Tactic.Common

/-!
# Windows of a stream in a ring

A ring of cells shows the last part of a stream: position `i` lies in cell `i % size`.  Positions
less than a turn apart lie in different cells.
-/

namespace Onda.Window

variable {α : Type} {size : Nat}

theorem cell_ne {first second : Nat} (before : first < second) (near : second < first + size) :
    first % size ≠ second % size := by
  intro same
  have gap : (second - first) % size = 0 := Nat.sub_mod_eq_zero_of_mod_eq same.symm
  rw [Nat.mod_eq_of_lt (by omega)] at gap
  omega

/-- The cells hold the stream from a position on. -/
def Holds (size : Nat) (stream : List α) (low : Nat) (cells : Nat → α) : Prop :=
  ∀ index (inside : index < stream.length), low ≤ index → cells (index % size) = stream[index]

theorem holds_nil (low : Nat) (cells : Nat → α) : Holds size [] low cells :=
  fun _ inside => absurd inside (Nat.not_lt_zero _)

/-- The window may begin later. -/
theorem Holds.later {stream : List α} {low high : Nat} {cells : Nat → α}
    (holds : Holds size stream low cells) (le : low ≤ high) : Holds size stream high cells :=
  fun index inside above => holds index inside (Nat.le_trans le above)

/-- A value is added where there is room for it. -/
theorem Holds.add {stream : List α} {low : Nat} {cells : Nat → α}
    (holds : Holds size stream low cells) (room : stream.length < low + size) (value : α) :
    Holds size (stream ++ [value]) low
      (Function.update cells (stream.length % size) value) := by
  intro index inside above
  rw [List.length_append, List.length_singleton] at inside
  by_cases last : index = stream.length
  · subst last
    simp
  · have older : index < stream.length := by omega
    rw [Function.update_of_ne (cell_ne older (by omega)), holds index older above,
      List.getElem_append_left older]

/-! ### Counters that are kept as words -/

theorem word_sub_le {size low high : Nat} (le : low ≤ high) :
    high % size - low % size ≤ high - low := by
  have lows := Nat.div_add_mod low size
  have highs := Nat.div_add_mod high size
  have turns : size * (low / size) ≤ size * (high / size) :=
    Nat.mul_le_mul_left size (Nat.div_le_div_right le)
  omega

/-- Two counters less than a turn apart: the upper one is in the same turn, or in the next one. -/
theorem turns_eq {size low high : Nat} (le : low ≤ high) (near : high - low < size) :
    size * (high / size) = size * (low / size) ∨
      size * (high / size) = size * (low / size) + size := by
  have lows := Nat.div_add_mod low size
  have highs := Nat.div_add_mod high size
  have below := Nat.mod_lt low (show 0 < size by omega)
  obtain ⟨turns, more⟩ := Nat.exists_eq_add_of_le (Nat.div_le_div_right (c := size) le)
  rw [more, Nat.mul_add] at highs ⊢
  rcases turns with _ | _ | turns
  · exact .inl (by simp)
  · exact .inr (by simp)
  · -- two turns are too far
    rw [Nat.mul_add, Nat.mul_one] at highs
    have far : 0 ≤ size * turns := Nat.zero_le _
    have two : size * (turns + 1) = size * turns + size := Nat.mul_succ size turns
    omega

theorem word_sub_eq {size low high : Nat} (le : low ≤ high) (near : high - low < size)
    (unwrapped : low % size ≤ high % size) : high % size - low % size = high - low := by
  have lows := Nat.div_add_mod low size
  have highs := Nat.div_add_mod high size
  have below := Nat.mod_lt low (show 0 < size by omega)
  rcases turns_eq le near with same | next <;> omega

theorem word_distance {size low high : Nat} (le : low ≤ high) (near : high - low < size) :
    (high % size + size - low % size) % size = high - low := by
  have lows := Nat.div_add_mod low size
  have highs := Nat.div_add_mod high size
  have below := Nat.mod_lt low (show 0 < size by omega)
  rcases turns_eq le near with same | next
  · have sum : high % size + size - low % size = size + (high - low) := by omega
    rw [sum, Nat.add_mod_left, Nat.mod_eq_of_lt near]
  · have sum : high % size + size - low % size = high - low := by omega
    rw [sum, Nat.mod_eq_of_lt near]

end Onda.Window
