import Mathlib.Data.Finset.Card
import Mathlib.Order.Interval.Finset.Nat
import Mathlib.Data.List.Infix

/-!
# Paths of separated components

A path is a list with a separator between its components.  A path is *below* another
one that it extends by a separator and more; two paths clash if they are equal or one
is below the other.

Of a family of paths that differ in one component only, every path clashes with one
member at most, unless it lies above the component.  So among more members than
there are paths one clashes with none of them (`exists_free`).
-/

namespace Onda.Separated

variable {α : Type} (sep : α)

/-- `path` lies below `ancestor`. -/
def Below (ancestor path : List α) : Prop := ancestor ++ [sep] <+: path

/-- Two paths that cannot both be files. -/
def Clash (left right : List α) : Prop := left = right ∨ Below sep left right ∨ Below sep right left

instance [DecidableEq α] (ancestor path : List α) : Decidable (Below sep ancestor path) :=
  inferInstanceAs (Decidable (_ <+: _))

variable {sep}

variable {before middle path : List α}

theorem Below.length_lt {ancestor : List α} (below : Below sep ancestor path) :
    ancestor.length < path.length := by
  have le := below.length_le
  rw [List.length_append, List.length_singleton] at le
  omega

theorem Below.irrefl (path : List α) : ¬Below sep path path :=
  fun below => Nat.lt_irrefl _ below.length_lt

theorem Clash.symm {left right : List α} (clash : Clash sep left right) : Clash sep right left := by
  rcases clash with same | below | above
  · exact .inl same.symm
  · exact .inr (.inr below)
  · exact .inr (.inl above)

/-- A separator ends the component that a prefix has begun. -/
theorem takeWhile_component [DecidableEq α] {rest : List α} (free : sep ∉ middle) :
    (middle ++ sep :: rest).takeWhile (· ≠ sep) = middle := by
  rw [List.takeWhile_append_of_pos fun element mem => by
    simpa using fun same : element = sep => free (same ▸ mem)]
  simp

/-- The component of a path that begins after so many elements. -/
def component [DecidableEq α] (sep : α) (start : Nat) (path : List α) : List α :=
  ((path ++ [sep]).drop start).takeWhile (· ≠ sep)

theorem component_of_prefix [DecidableEq α] (free : sep ∉ middle)
    (begins : before ++ middle ++ [sep] <+: path ++ [sep]) :
    component sep before.length path = middle := by
  obtain ⟨rest, eq⟩ := begins
  unfold component
  rw [← eq, List.append_assoc, List.append_assoc, List.drop_left, List.singleton_append,
    takeWhile_component free]

/-- A prefix that ends with a separator behind `before` ends with the component. -/
theorem closes_component (free : sep ∉ middle) (notAbove : ¬path ++ [sep] <+: before)
    (short : path ++ [sep] <+: before ++ middle ++ [sep]) :
    path ++ [sep] = before ++ middle ++ [sep] := by
  obtain ⟨rest, eq⟩ := short
  have begins : before <+: path ++ [sep] := by
    have inside : before <+: path ++ [sep] ++ rest := by
      rw [eq, List.append_assoc]
      exact List.prefix_append _ _
    exact (List.prefix_or_prefix_of_prefix inside (List.prefix_append _ _)).resolve_right notAbove
  obtain ⟨tail, split⟩ := begins
  rw [← split, List.append_assoc, List.append_assoc] at eq
  have eq := List.append_cancel_left eq
  rw [← split, List.append_assoc, List.append_cancel_left_eq]
  have last : sep ∈ tail := by
    rcases List.eq_nil_or_concat tail with rfl | ⟨front, element, rfl⟩
    · rw [List.append_nil] at split
      exact absurd (split ▸ List.prefix_refl _) notAbove
    · rw [List.concat_eq_append, ← List.append_assoc] at split
      obtain ⟨-, same⟩ := List.append_inj' split rfl
      simp at same
      simp [same]
  rcases List.append_eq_append_iff.mp eq with ⟨more, rfl, closing⟩ | ⟨more, rfl, closing⟩
  · exact absurd (List.mem_append_left _ last) free
  · cases more with
    | nil => exact absurd (by simpa using last) free
    | cons element more =>
      simp only [List.cons_append, List.cons.injEq, List.nil_eq, List.append_eq_nil_iff] at closing
      obtain ⟨rfl, rfl, rfl⟩ := closing
      rfl

/-- **Clashes.**  A path that clashes with `before ++ middle ++ after` and lies above no
component of `before` has the component `middle`. -/
theorem component_of_clash [DecidableEq α] {after : List α} (free : sep ∉ middle)
    (ends : after = [] ∨ ∃ rest, after = sep :: rest) (notAbove : ¬path ++ [sep] <+: before)
    (clash : Clash sep path (before ++ middle ++ after)) :
    component sep before.length path = middle := by
  apply component_of_prefix free
  have closes : before ++ middle ++ [sep] <+: before ++ middle ++ after ++ [sep] := by
    rcases ends with rfl | ⟨rest, rfl⟩
    · simp
    · refine ⟨rest ++ [sep], ?_⟩
      simp
  rcases clash with rfl | ⟨rest, above⟩ | below
  · exact closes
  · -- The path ends within or behind the component, and its separator closes one.
    have inside : path ++ [sep] <+: before ++ middle ++ after := ⟨rest, above⟩
    have whole : before ++ middle ++ [sep] <+: before ++ middle ++ after ++ [sep] := closes
    rcases List.prefix_or_prefix_of_prefix (inside.trans (List.prefix_append _ [sep])) whole with
      short | long
    · rw [closes_component free notAbove short]
    · exact long
  · have longer : before ++ middle ++ after ++ [sep] <+: path ++ [sep] :=
      List.IsPrefix.trans below (List.prefix_append _ _)
    exact closes.trans longer

/-- **A free member.**  Of a family of paths with different components between the same
ends, one clashes with none of fewer paths that do not lie above the component. -/
theorem exists_free [DecidableEq α] {ι : Type} [DecidableEq ι] (used : Finset ι)
    (path : ι → List α) {before after : List α} {middle : Nat → List α}
    (injective : Function.Injective middle) (free : ∀ number, sep ∉ middle number)
    (ends : after = [] ∨ ∃ rest, after = sep :: rest)
    (notAbove : ∀ key ∈ used, ¬path key ++ [sep] <+: before) (start : Nat) :
    ∃ number, start ≤ number ∧ number ≤ start + used.card
      ∧ ∀ key ∈ used, ¬Clash sep (path key) (before ++ middle number ++ after) := by
  by_contra none
  push Not at none
  -- Every member clashes with a path, and the path has its component.
  have taken : (Finset.Icc start (start + used.card)).image middle
      ⊆ used.image fun key => component sep before.length (path key) := by
    intro member mem
    obtain ⟨number, inside, rfl⟩ := Finset.mem_image.mp mem
    rw [Finset.mem_Icc] at inside
    obtain ⟨key, mem, clash⟩ := none number inside.1 inside.2
    exact Finset.mem_image.mpr ⟨key, mem,
      component_of_clash (free number) ends (notAbove key mem) clash⟩
  have few := (Finset.card_le_card taken).trans Finset.card_image_le
  rw [Finset.card_image_of_injective _ injective, Nat.card_Icc] at few
  omega

end Onda.Separated
