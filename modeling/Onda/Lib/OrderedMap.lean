import Mathlib

/-!
# Maps in key order

Association lists with strictly ascending keys, as an ordered tree map iterates
over them.  `insert` replaces the value of a key it holds.
-/

/-- A finite map as the list of its entries, in key order. -/
structure OrderedMap (κ α : Type) [LinearOrder κ] where
  entries : List (κ × α)
  ordered : (entries.map Prod.fst).Pairwise (· < ·)

namespace OrderedMap

open scoped List

variable {κ α : Type} [LinearOrder κ]

theorem ext {left right : OrderedMap κ α} (same : left.entries = right.entries) :
    left = right := by
  obtain ⟨entries, _⟩ := left
  obtain ⟨entries', _⟩ := right
  cases same
  rfl

def empty : OrderedMap κ α := ⟨[], List.Pairwise.nil⟩

def keys (map : OrderedMap κ α) : List κ := map.entries.map Prod.fst

def values (map : OrderedMap κ α) : List α := map.entries.map Prod.snd

/-- `insert` on the entries. -/
def insertEntry (key : κ) (value : α) : List (κ × α) → List (κ × α)
  | [] => [(key, value)]
  | (held, kept) :: rest =>
    if key < held then (key, value) :: (held, kept) :: rest
    else if key = held then (key, value) :: rest
    else (held, kept) :: insertEntry key value rest

variable {entries : List (κ × α)} {map : OrderedMap κ α} {value : α} {key : κ}

theorem mem_keys_insertEntry {key' : κ} :
    key' ∈ (insertEntry key value entries).map Prod.fst ↔
      key' = key ∨ key' ∈ entries.map Prod.fst := by
  induction entries with
  | nil => simp [insertEntry]
  | cons entry rest ih =>
    obtain ⟨held, kept⟩ := entry
    rw [insertEntry]
    split
    · simp
    split
    · rename_i same
      simp [same]
    · rw [List.map_cons, List.mem_cons, ih, List.map_cons, List.mem_cons]
      tauto

theorem ordered_insertEntry (ordered : (entries.map Prod.fst).Pairwise (· < ·)) :
    ((insertEntry key value entries).map Prod.fst).Pairwise (· < ·) := by
  induction entries with
  | nil => simp [insertEntry]
  | cons entry rest ih =>
    obtain ⟨held, kept⟩ := entry
    rw [List.map_cons, List.pairwise_cons] at ordered
    rw [insertEntry]
    split
    · rename_i before
      rw [List.map_cons, List.map_cons, List.pairwise_cons, List.pairwise_cons]
      refine ⟨?_, ordered⟩
      intro later mem
      rcases List.mem_cons.mp mem with rfl | mem
      · exact before
      · exact lt_trans before (ordered.1 later mem)
    split
    · rename_i same
      rw [List.map_cons, List.pairwise_cons]
      exact ⟨fun later mem => same ▸ ordered.1 later mem, ordered.2⟩
    · rename_i notBefore different
      rw [List.map_cons, List.pairwise_cons]
      refine ⟨?_, ih ordered.2⟩
      intro later mem
      rcases mem_keys_insertEntry.mp mem with rfl | mem
      · exact lt_of_le_of_ne (not_lt.mp notBefore) (Ne.symm different)
      · exact ordered.1 later mem

def insert (map : OrderedMap κ α) (key : κ) (value : α) : OrderedMap κ α :=
  ⟨insertEntry key value map.entries, ordered_insertEntry map.ordered⟩

def get? (map : OrderedMap κ α) (key : κ) : Option α :=
  (map.entries.find? fun entry => entry.1 = key).map Prod.snd

/-- A key above all others goes to the end. -/
theorem insertEntry_last (above : ∀ held ∈ entries.map Prod.fst, held < key) :
    insertEntry key value entries = entries ++ [(key, value)] := by
  induction entries with
  | nil => rfl
  | cons entry rest ih =>
    obtain ⟨held, kept⟩ := entry
    have less : held < key := above held (by simp)
    rw [insertEntry, if_neg (not_lt_of_gt less), if_neg (ne_of_gt less),
      ih fun later mem => above later (by simp [List.mem_cons, mem]), List.cons_append]

/-- A key that was not held adds its entry and moves no other. -/
theorem insertEntry_perm (fresh : key ∉ entries.map Prod.fst) :
    (insertEntry key value entries).Perm ((key, value) :: entries) := by
  induction entries with
  | nil => exact List.Perm.refl _
  | cons entry rest ih =>
    obtain ⟨held, kept⟩ := entry
    rw [List.map_cons, List.mem_cons, not_or] at fresh
    rw [insertEntry]
    split
    · exact List.Perm.refl _
    · rw [if_neg fresh.1]
      exact ((ih fresh.2).cons _).trans (List.Perm.swap _ _ _)

/-- Entries with distinct keys are found under their keys. -/
theorem get?_of_mem (mem : (key, value) ∈ map.entries) : map.get? key = some value := by
  obtain ⟨entries, ordered⟩ := map
  simp only [get?] at mem ⊢
  induction entries with
  | nil => cases mem
  | cons entry rest ih =>
    rw [List.map_cons, List.pairwise_cons] at ordered
    rcases List.mem_cons.mp mem with rfl | later
    · simp
    · have below : entry.1 < key := ordered.1 key (List.mem_map_of_mem later)
      rw [List.find?_cons_of_neg (by simpa using ne_of_lt below)]
      exact ih ordered.2 later

theorem mem_of_get? (found : map.get? key = some value) : (key, value) ∈ map.entries := by
  simp only [get?, Option.map_eq_some_iff] at found
  obtain ⟨⟨held, kept⟩, found, rfl⟩ := found
  have same : held = key := by simpa using List.find?_some found
  exact same ▸ List.mem_of_find?_eq_some found

theorem get?_eq_none_iff :
    map.get? key = none ↔ key ∉ map.keys := by
  constructor
  · intro absent mem
    obtain ⟨⟨held, value⟩, entry, rfl⟩ := List.mem_map.mp mem
    rw [get?_of_mem entry] at absent
    cases absent
  · intro absent
    cases found : map.get? key with
    | none => rfl
    | some value => exact absurd (List.mem_map_of_mem (mem_of_get? found)) absent

theorem mem_keys_insert {key' : κ} :
    key' ∈ (map.insert key value).keys ↔ key' = key ∨ key' ∈ map.keys :=
  mem_keys_insertEntry

/-- Inserts entries one after another. -/
def insertAll (map : OrderedMap κ α) (entries : List (κ × α)) : OrderedMap κ α :=
  entries.foldl (fun map entry => map.insert entry.1 entry.2) map

/-- Entries in key order, above all held keys, are appended. -/
theorem insertAll_ordered :
    ∀ {map : OrderedMap κ α}, (entries.map Prod.fst).Pairwise (· < ·) →
      (∀ held ∈ map.keys, ∀ entry ∈ entries, held < entry.1) →
      (map.insertAll entries).entries = map.entries ++ entries := by
  induction entries with
  | nil => exact fun _ _ => (List.append_nil _).symm
  | cons entry entries ih =>
    intro map ordered above
    rw [List.map_cons, List.pairwise_cons] at ordered
    have last : (map.insert entry.1 entry.2).entries = map.entries ++ [entry] :=
      insertEntry_last fun held mem => above held mem entry (by simp)
    have aboveLater : ∀ held ∈ (map.insert entry.1 entry.2).keys, ∀ later ∈ entries,
        held < later.1 := by
      intro held mem later laterMem
      rcases mem_keys_insert.mp mem with rfl | mem
      · exact ordered.1 later.1 (List.mem_map_of_mem laterMem)
      · exact above held mem later (by simp [laterMem])
    rw [insertAll, List.foldl_cons]
    exact (ih ordered.2 aboveLater).trans (by rw [last, List.append_assoc]; rfl)

/-- A map is rebuilt from its own entries. -/
theorem insertAll_entries (map : OrderedMap κ α) : empty.insertAll map.entries = map :=
  ext (insertAll_ordered map.ordered (by simp [empty, keys]))

/-- Entries with new, distinct keys are all there afterwards. -/
theorem insertAll_perm :
    ∀ {map : OrderedMap κ α}, (entries.map Prod.fst).Nodup →
      (∀ entry ∈ entries, entry.1 ∉ map.keys) →
      (map.insertAll entries).entries.Perm (map.entries ++ entries) := by
  induction entries with
  | nil => exact fun _ _ => by rw [List.append_nil]; exact List.Perm.refl _
  | cons entry entries ih =>
    intro map nodup fresh
    rw [List.map_cons, List.nodup_cons] at nodup
    have added : (map.insert entry.1 entry.2).entries.Perm (entry :: map.entries) :=
      insertEntry_perm (fresh entry (by simp))
    have freshLater : ∀ later ∈ entries, later.1 ∉ (map.insert entry.1 entry.2).keys := by
      intro later mem held
      rcases mem_keys_insert.mp held with same | held
      · exact nodup.1 (same ▸ List.mem_map_of_mem mem)
      · exact fresh later (by simp [mem]) held
    rw [insertAll, List.foldl_cons]
    calc _ ~ (map.insert entry.1 entry.2).entries ++ entries := ih nodup.2 freshLater
      _ ~ (entry :: map.entries) ++ entries := added.append_right entries
      _ ~ map.entries ++ entry :: entries := List.perm_middle.symm

end OrderedMap
