import Mathlib

/-!
# Writing regions of a buffer

A buffer is a list of symbols.  Writing a string at a position replaces as many
symbols as the string has.  A row of writes that never goes back can be read
back piece by piece, and a row without gaps that starts at the front turns
the buffer into the concatenation of the pieces and what lay behind them.

### One write
-/

namespace Regions

variable {σ : Type}

/-- The symbols of `[start, start + width)`. -/
def read (buffer : List σ) (start width : Nat) : List σ := (buffer.drop start).take width

/-- `data` in place of the symbols from `start` on. -/
def write (buffer : List σ) (start : Nat) (data : List σ) : List σ :=
  buffer.take start ++ (data ++ buffer.drop (start + data.length))

section One

variable {buffer data : List σ} {start : Nat} (room : start + data.length ≤ buffer.length)

theorem length_read {buffer : List σ} {start width : Nat}
    (room : start + width ≤ buffer.length) : (read buffer start width).length = width := by
  rw [read, List.length_take, List.length_drop]
  omega

include room

theorem length_write : (write buffer start data).length = buffer.length := by
  simp only [write, List.length_append, List.length_take, List.length_drop]
  omega

/-- What was written is read back. -/
theorem read_write_self : read (write buffer start data) start data.length = data := by
  have front : (buffer.take start).length = start := by
    rw [List.length_take]
    omega
  rw [read, write, List.drop_left' front, List.take_left]

/-- A write leaves what lies before it. -/
theorem read_write_before {position width : Nat} (before : position + width ≤ start) :
    read (write buffer start data) position width = read buffer position width := by
  have front : (buffer.take start).length = start := by
    rw [List.length_take]
    omega
  rw [read, read, write, List.drop_append_of_le_length (by omega), List.take_append_of_le_length
    (by rw [List.length_drop]; omega), List.drop_take, List.take_take]
  congr 1
  omega

end One

/-! ### Rows of writes -/

/-- The writes of a row, one after the other. -/
def writeAll (buffer : List σ) (pieces : List (Nat × List σ)) : List σ :=
  pieces.foldl (fun buffer piece => write buffer piece.1 piece.2) buffer

@[simp] theorem writeAll_nil (buffer : List σ) : writeAll buffer [] = buffer := rfl

@[simp] theorem writeAll_cons (buffer : List σ) (piece : Nat × List σ)
    (pieces : List (Nat × List σ)) :
    writeAll buffer (piece :: pieces) = writeAll (write buffer piece.1 piece.2) pieces := rfl

/-- The pieces follow one another between `first` and `last`. -/
def Ascending (last : Nat) : Nat → List (Nat × List σ) → Prop
  | first, [] => first ≤ last
  | first, piece :: pieces =>
    first ≤ piece.1 ∧ Ascending last (piece.1 + piece.2.length) pieces

variable {pieces : List (Nat × List σ)} {buffer : List σ} {first : Nat}

theorem Ascending.le {last : Nat} (ascending : Ascending last first pieces) : first ≤ last := by
  induction pieces generalizing first with
  | nil => exact ascending
  | cons piece pieces ih =>
    have later := ih ascending.2
    have early := ascending.1
    omega

theorem length_writeAll (ascending : Ascending buffer.length first pieces) :
    (writeAll buffer pieces).length = buffer.length := by
  induction pieces generalizing buffer first with
  | nil => rfl
  | cons piece pieces ih =>
    have kept := length_write ascending.2.le
    rw [writeAll_cons, ih (by rw [kept]; exact ascending.2), kept]

/-- A row of writes leaves what lies before its first one. -/
theorem read_writeAll_before {position width : Nat}
    (ascending : Ascending buffer.length first pieces) (before : position + width ≤ first) :
    read (writeAll buffer pieces) position width = read buffer position width := by
  induction pieces generalizing buffer first with
  | nil => rfl
  | cons piece pieces ih =>
    have kept := length_write ascending.2.le
    have early := ascending.1
    rw [writeAll_cons, ih (by rw [kept]; exact ascending.2) (by omega),
      read_write_before ascending.2.le (by omega)]

/-- **Reading back a row.** Every piece of the row is found where it was written. -/
theorem read_writeAll (ascending : Ascending buffer.length first pieces) :
    ∀ piece ∈ pieces, read (writeAll buffer pieces) piece.1 piece.2.length = piece.2 := by
  induction pieces generalizing buffer first with
  | nil => simp
  | cons piece pieces ih =>
    have kept := length_write ascending.2.le
    have later : Ascending (write buffer piece.1 piece.2).length
        (piece.1 + piece.2.length) pieces := by rw [kept]; exact ascending.2
    intro wanted mem
    rcases List.mem_cons.mp mem with rfl | mem
    · rw [writeAll_cons, read_writeAll_before later le_rfl, read_write_self ascending.2.le]
    · exact ih later wanted mem

/-! ### Rows without gaps -/

/-- The pieces one behind the other, from `start` on. -/
def consecutive : Nat → List (List σ) → List (Nat × List σ)
  | _, [] => []
  | start, piece :: pieces => (start, piece) :: consecutive (start + piece.length) pieces

/-- Consecutive writes put the concatenation of the pieces in their place. -/
theorem writeAll_consecutive {pieces : List (List σ)} {start : Nat}
    (room : start + pieces.flatten.length ≤ buffer.length) :
    writeAll buffer (consecutive start pieces) = write buffer start pieces.flatten := by
  induction pieces generalizing buffer start with
  | nil => simp [consecutive, write]
  | cons piece pieces ih =>
    rw [List.flatten_cons, List.length_append] at room
    have here : start + piece.length ≤ buffer.length := by omega
    have front : (buffer.take start ++ piece).length = start + piece.length := by
      rw [List.length_append, List.length_take]
      omega
    have split : write buffer start piece =
        (buffer.take start ++ piece) ++ buffer.drop (start + piece.length) := by
      rw [write, List.append_assoc]
    rw [consecutive, writeAll_cons, ih (by rw [length_write here]; omega), split, write,
      List.take_left' front, ← front, List.drop_append, List.drop_of_length_le (by omega), front,
      Nat.add_sub_cancel_left, List.drop_drop, write, List.flatten_cons]
    simp only [List.append_assoc, List.nil_append, List.length_append]
    rw [Nat.add_assoc]

end Regions
