import Onda.Lib.Regions

/-!
# Writing to places that are apart

Writes that are pairwise apart can be read back in whatever order they are made.
-/

namespace Regions

variable {σ : Type}

section Two

variable {buffer data : List σ} {start : Nat} (room : start + data.length ≤ buffer.length)

include room

/-- A write leaves what lies behind it. -/
theorem read_write_behind {position width : Nat} (behind : start + data.length ≤ position) :
    read (write buffer start data) position width = read buffer position width := by
  have front : (buffer.take start ++ data).length = start + data.length := by
    rw [List.length_append, List.length_take]
    omega
  rw [read, read, write, ← List.append_assoc, List.drop_append, front,
    List.drop_of_length_le (by omega), List.nil_append, List.drop_drop]
  congr 2
  omega

/-- A write leaves what it does not touch. -/
theorem read_write_apart {position width : Nat}
    (apart : position + width ≤ start ∨ start + data.length ≤ position) :
    read (write buffer start data) position width = read buffer position width := by
  rcases apart with before | behind
  · exact read_write_before room before
  · exact read_write_behind room behind

/-- The later of two writes to one place counts. -/
theorem write_write {other : List σ} (same : other.length = data.length) :
    write (write buffer start data) start other = write buffer start other := by
  have front : (buffer.take start).length = start := by
    rw [List.length_take]
    omega
  have whole : (buffer.take start ++ data).length = start + data.length := by
    rw [List.length_append, front]
  rw [write, write, write, List.take_left' front, ← List.append_assoc (buffer.take start) data,
    same, List.drop_left' whole]

end Two

/-! ### Writes to places that are apart -/

/-- Two places have no symbol in common. -/
def Apart (first second : Nat × Nat) : Prop :=
  first.1 + first.2 ≤ second.1 ∨ second.1 + second.2 ≤ first.1

/-- The place of a piece. -/
def place (piece : Nat × List σ) : Nat × Nat := (piece.1, piece.2.length)

variable {buffer : List σ} {pieces : List (Nat × List σ)}

/-- The writes leave what they do not touch. -/
theorem read_writeAll_apart
    (inside : ∀ piece ∈ pieces, piece.1 + piece.2.length ≤ buffer.length)
    {position width : Nat} (apart : ∀ piece ∈ pieces, Apart (position, width) (place piece)) :
    read (writeAll buffer pieces) position width = read buffer position width := by
  induction pieces generalizing buffer with
  | nil => rfl
  | cons piece pieces ih =>
    have room := inside piece List.mem_cons_self
    have kept := length_write room
    rw [writeAll_cons, ih (by
        rw [kept]
        exact fun other mem => inside other (List.mem_cons_of_mem _ mem))
      fun other mem => apart other (List.mem_cons_of_mem _ mem)]
    exact read_write_apart room (apart piece List.mem_cons_self)

/-- Every piece is found where it was written. -/
theorem read_writeAll_disjoint
    (inside : ∀ piece ∈ pieces, piece.1 + piece.2.length ≤ buffer.length)
    (disjoint : pieces.Pairwise fun first second => Apart (place first) (place second)) :
    ∀ piece ∈ pieces, read (writeAll buffer pieces) piece.1 piece.2.length = piece.2 := by
  induction pieces generalizing buffer with
  | nil => exact fun _ mem => by cases mem
  | cons piece pieces ih =>
    have room := inside piece List.mem_cons_self
    have kept := length_write room
    have later : ∀ other ∈ pieces,
        other.1 + other.2.length ≤ (write buffer piece.1 piece.2).length := by
      rw [kept]
      exact fun other mem => inside other (List.mem_cons_of_mem _ mem)
    obtain ⟨apart, disjoint⟩ := List.pairwise_cons.mp disjoint
    intro wanted mem
    rcases List.mem_cons.mp mem with rfl | mem
    · rw [writeAll_cons, read_writeAll_apart later apart, read_write_self room]
    · exact ih later disjoint wanted mem

end Regions
