import Mathlib

/-!
# Corners of a box

The image of a box `[a, b] × [c, d]` under a function that is monotone or
antitone in each argument lies between the least and the greatest value at the
four corners of the box.  The direction may change with the other argument, as
it does for products, and that is all interval arithmetic needs: products,
truncated quotients and arithmetic shifts are the instances proved here.
-/

namespace Interval

section Corners

variable {α β γ : Type} [Preorder α] [Preorder β] [LinearOrder γ]

/-- Monotone or antitone on a set. -/
def Directed (f : α → γ) (s : Set α) : Prop := MonotoneOn f s ∨ AntitoneOn f s

/-- On a segment a directed function stays between its values at the ends. -/
theorem Directed.between {f : α → γ} {a b x : α} (directed : Directed f (Set.Icc a b))
    (mem : x ∈ Set.Icc a b) : min (f a) (f b) ≤ f x ∧ f x ≤ max (f a) (f b) := by
  have nonempty : a ≤ b := mem.1.trans mem.2
  have left : a ∈ Set.Icc a b := Set.left_mem_Icc.mpr nonempty
  have right : b ∈ Set.Icc a b := Set.right_mem_Icc.mpr nonempty
  rcases directed with up | down
  · exact ⟨(min_le_left _ _).trans (up left mem mem.1),
      (up mem right mem.2).trans (le_max_right _ _)⟩
  · exact ⟨(min_le_right _ _).trans (down mem right mem.2),
      (down left mem mem.1).trans (le_max_left _ _)⟩

/-- **Corners.**  A function directed in each argument takes its extreme values
over a box at the corners. -/
theorem between_corners {f : α → β → γ} {a b x : α} {c d y : β}
    (first : Directed (fun x => f x y) (Set.Icc a b))
    (atLeft : Directed (f a) (Set.Icc c d)) (atRight : Directed (f b) (Set.Icc c d))
    (memX : x ∈ Set.Icc a b) (memY : y ∈ Set.Icc c d) :
    min (min (min (f a c) (f a d)) (f b c)) (f b d) ≤ f x y
      ∧ f x y ≤ max (max (max (f a c) (f a d)) (f b c)) (f b d) := by
  obtain ⟨above, below⟩ := first.between memX
  obtain ⟨leftAbove, leftBelow⟩ := atLeft.between memY
  obtain ⟨rightAbove, rightBelow⟩ := atRight.between memY
  constructor
  · rw [min_assoc]
    exact (min_le_min leftAbove rightAbove).trans above
  · rw [max_assoc]
    exact below.trans (max_le_max leftBelow rightBelow)

end Corners

/-! ### Products -/

theorem directed_mul_left (y : Int) (s : Set Int) : Directed (fun x => x * y) s := by
  rcases le_total 0 y with nonneg | nonpos
  · exact .inl fun _ _ _ _ le => Int.mul_le_mul_of_nonneg_right le nonneg
  · exact .inr fun _ _ _ _ le => Int.mul_le_mul_of_nonpos_right le nonpos

theorem directed_mul_right (x : Int) (s : Set Int) : Directed (fun y => x * y) s := by
  simpa only [mul_comm] using directed_mul_left x s

variable {a b c d x y : Int} {p q : Nat}

/-- A product lies between the products of the ends. -/
theorem mul_between (memX : x ∈ Set.Icc a b) (memY : y ∈ Set.Icc c d) :
    min (min (min (a * c) (a * d)) (b * c)) (b * d) ≤ x * y
      ∧ x * y ≤ max (max (max (a * c) (a * d)) (b * c)) (b * d) :=
  between_corners (f := fun x y : Int => x * y) (directed_mul_left y _)
    (directed_mul_right a _) (directed_mul_right b _) memX memY

/-! ### Truncated quotients -/

/-- A nonnegative dividend has a smaller quotient by a larger divisor. -/
theorem ediv_anti_of_nonneg {y' : Int} (nonneg : 0 ≤ x) (pos : 0 < y) (le : y ≤ y') :
    x / y' ≤ x / y := by
  rw [Int.le_ediv_iff_mul_le pos]
  calc x / y' * y ≤ x / y' * y' :=
        Int.mul_le_mul_of_nonneg_left le (Int.ediv_nonneg nonneg (by omega))
    _ ≤ x := Int.ediv_mul_le x (by omega)

theorem tdiv_le_tdiv_of_pos {x' : Int} (le : x ≤ x') (pos : 0 < y) :
    x.tdiv y ≤ x'.tdiv y := Int.tdiv_le_tdiv pos le

theorem directed_tdiv_left (nonzero : y ≠ 0) (s : Set Int) :
    Directed (fun x => x.tdiv y) s := by
  rcases lt_or_gt_of_ne nonzero with neg | pos
  · refine .inr fun x _ x' _ le => ?_
    have flipped := tdiv_le_tdiv_of_pos (y := -y) le (by omega)
    simp only [Int.tdiv_neg] at flipped
    show x'.tdiv y ≤ x.tdiv y
    omega
  · exact .inl fun _ _ _ _ le => tdiv_le_tdiv_of_pos le pos

/-- For a nonnegative dividend a positive divisor divides less the larger it
is. -/
theorem tdiv_anti_of_nonneg {y' : Int} (nonneg : 0 ≤ x) (pos : 0 < y) (le : y ≤ y') :
    x.tdiv y' ≤ x.tdiv y := by
  rw [Int.tdiv_eq_ediv_of_nonneg nonneg, Int.tdiv_eq_ediv_of_nonneg nonneg]
  exact ediv_anti_of_nonneg nonneg pos le

theorem directed_tdiv_right_of_pos (x : Int) {s : Set Int} (pos : ∀ y ∈ s, 0 < y) :
    Directed (fun y => x.tdiv y) s := by
  rcases le_total 0 x with nonneg | nonpos
  · exact .inr fun y mem y' _ le => tdiv_anti_of_nonneg nonneg (pos y mem) le
  · refine .inl fun y mem y' _ le => ?_
    have flipped := tdiv_anti_of_nonneg (x := -x) (by omega) (pos y mem) le
    simp only [Int.neg_tdiv] at flipped
    show x.tdiv y ≤ x.tdiv y'
    omega

theorem directed_tdiv_right (x : Int) (away : 0 < c ∨ d < 0) :
    Directed (fun y => x.tdiv y) (Set.Icc c d) := by
  rcases away with pos | neg
  · exact directed_tdiv_right_of_pos x fun y mem => lt_of_lt_of_le pos mem.1
  · -- Over negative divisors the direction is that of the opposite divisors.
    have mirrored := directed_tdiv_right_of_pos x (s := Set.Icc (-d) (-c))
      fun y mem => lt_of_lt_of_le (by omega) mem.1
    have into {y : Int} (mem : y ∈ Set.Icc c d) : -y ∈ Set.Icc (-d) (-c) :=
      ⟨by have := mem.2; omega, by have := mem.1; omega⟩
    rcases mirrored with up | down
    · refine .inl fun y mem y' mem' le => ?_
      have flipped := up (into mem') (into mem) (by omega)
      simp only [Int.tdiv_neg] at flipped
      show x.tdiv y ≤ x.tdiv y'
      omega
    · refine .inr fun y mem y' mem' le => ?_
      have flipped := down (into mem') (into mem) (by omega)
      simp only [Int.tdiv_neg] at flipped
      show x.tdiv y' ≤ x.tdiv y
      omega

/-- A quotient by divisors of one sign lies between the quotients of the
ends. -/
theorem tdiv_between (away : 0 < c ∨ d < 0) (memX : x ∈ Set.Icc a b) (memY : y ∈ Set.Icc c d) :
    min (min (min (a.tdiv c) (a.tdiv d)) (b.tdiv c)) (b.tdiv d) ≤ x.tdiv y
      ∧ x.tdiv y ≤ max (max (max (a.tdiv c) (a.tdiv d)) (b.tdiv c)) (b.tdiv d) := by
  have nonzero : y ≠ 0 := by
    have lower := memY.1
    have upper := memY.2
    omega
  exact between_corners (f := fun x y : Int => x.tdiv y) (directed_tdiv_left nonzero _)
    (directed_tdiv_right a away) (directed_tdiv_right b away) memX memY

/-! ### Shifts -/

theorem two_pow_le_two_pow (le : p ≤ q) : (2 : Int) ^ p ≤ 2 ^ q := by
  exact_mod_cast Nat.pow_le_pow_right (by decide) le

theorem directed_shiftLeft (x : Int) (s : Set Nat) :
    Directed (fun n : Nat => x * 2 ^ n) s := by
  rcases le_total 0 x with nonneg | nonpos
  · exact .inl fun _ _ _ _ le => Int.mul_le_mul_of_nonneg_left (two_pow_le_two_pow le) nonneg
  · exact .inr fun _ _ _ _ le => Int.mul_le_mul_of_nonpos_left nonpos (two_pow_le_two_pow le)

/-- A left shift lies between the left shifts of the ends. -/
theorem shiftLeft_between {n : Nat} (memX : x ∈ Set.Icc a b) (memN : n ∈ Set.Icc p q) :
    min (min (min (a * 2 ^ p) (a * 2 ^ q)) (b * 2 ^ p)) (b * 2 ^ q) ≤ x * 2 ^ n
      ∧ x * 2 ^ n ≤ max (max (max (a * 2 ^ p) (a * 2 ^ q)) (b * 2 ^ p)) (b * 2 ^ q) :=
  between_corners (f := fun (x : Int) (n : Nat) => x * 2 ^ n) (directed_mul_left _ _)
    (directed_shiftLeft a _) (directed_shiftLeft b _) memX memN

theorem directed_shiftRight_left (n : Nat) (s : Set Int) :
    Directed (fun x : Int => x / 2 ^ n) s :=
  .inl fun _ _ _ _ le => Int.ediv_le_ediv (by positivity) le

/-- Shifting further moves toward `0` from above and toward `-1` from below. -/
theorem directed_shiftRight_right (x : Int) (s : Set Nat) :
    Directed (fun n : Nat => x / 2 ^ n) s := by
  rcases le_total 0 x with nonneg | nonpos
  · refine .inr fun p _ q _ le => ?_
    exact ediv_anti_of_nonneg nonneg (by positivity) (two_pow_le_two_pow le)
  · refine .inl fun p _ q _ le => ?_
    -- The quotient at `p` is at most `0`, so dividing it further raises it.
    obtain ⟨extra, rfl⟩ := Nat.exists_eq_add_of_le le
    show x / 2 ^ p ≤ x / 2 ^ (p + extra)
    rw [pow_add, ← Int.ediv_ediv_of_nonneg (by positivity)]
    have below : x / 2 ^ p ≤ 0 := Int.ediv_nonpos_of_nonpos_of_neg nonpos (by positivity)
    rw [Int.le_ediv_iff_mul_le (by positivity)]
    have one : (1 : Int) ≤ 2 ^ extra := by exact_mod_cast Nat.one_le_two_pow
    nlinarith

/-- An arithmetic right shift lies between the right shifts of the ends. -/
theorem shiftRight_between {n : Nat} (memX : x ∈ Set.Icc a b) (memN : n ∈ Set.Icc p q) :
    min (min (min (a / 2 ^ p) (a / 2 ^ q)) (b / 2 ^ p)) (b / 2 ^ q) ≤ x / 2 ^ n
      ∧ x / 2 ^ n ≤ max (max (max (a / 2 ^ p) (a / 2 ^ q)) (b / 2 ^ p)) (b / 2 ^ q) :=
  between_corners (f := fun (x : Int) (n : Nat) => x / 2 ^ n) (directed_shiftRight_left n _)
    (directed_shiftRight_right a _) (directed_shiftRight_right b _) memX memN

end Interval
