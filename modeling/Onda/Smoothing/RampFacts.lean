import Mathlib.Algebra.BigOperators.Group.List.Basic
import Mathlib.Algebra.Ring.Nat
import Mathlib.Tactic.Common
import Onda.Lib.Steps
import Onda.Smoothing.Ramps

/-!
# What ramps keep

The active entries are listed, each once, and none has gone beyond its end.  From it: the loops
over the active entries do not fail and change each of them once, an entry that stops leaves its
target behind, and a ramp whose target and duration stay ends with the frames of its length.
-/

namespace Onda.Smoothing

/-! ### Loops over entries -/

section Facts

variable {S A F : Type} {storage : Storage S A}

/-- No two entries are stored at one address. -/
def Apart (storage : Storage S A) (entries : List (Entry S F)) : Prop :=
  (entries.map fun entry => storage.address entry.slot).Nodup

variable {after before : Cells S A F} {entry entry' : Entry S F}
  {change : Entry S F → Option (Entry S F × Option F)} {entries : List (Entry S F)} {id : Nat}

theorem Apart.unique (apart : Apart storage entries) {other : Nat}
    (here : entries[id]? = some entry) (there : entries[other]? = some entry')
    (same : storage.address entry.slot = storage.address entry'.slot) : id = other := by
  have inside : id < (entries.map fun entry => storage.address entry.slot).length := by
    rw [List.length_map]
    exact (List.getElem?_eq_some_iff.1 here).1
  refine (List.getElem?_inj inside apart).1 ?_
  rw [List.getElem?_map, List.getElem?_map, here, there]
  exact congrArg some same

theorem Apart.of_slots {entries' : List (Entry S F)} (apart : Apart storage entries)
    (slots : entries'.map Entry.slot = entries.map Entry.slot) : Apart storage entries' := by
  have same : (entries'.map Entry.slot).map storage.address = (entries.map Entry.slot).map storage.address :=
    congrArg _ slots
  rw [List.map_map, List.map_map] at same
  show List.Nodup _
  rw [show entries'.map (fun entry => storage.address entry.slot) = _ from same]
  exact apart

theorem mem_slots (here : entries[id]? = some entry) : entry.slot ∈ entries.map Entry.slot :=
  List.mem_map_of_mem (List.mem_of_getElem? here)

/-- An entry is replaced by one with the same slot. -/
theorem slots_set (here : entries[id]? = some entry) (slot : entry'.slot = entry.slot) :
    (entries.set id entry').map Entry.slot = entries.map Entry.slot := by
  have inside : id < (entries.map Entry.slot).length := by
    rw [List.length_map]
    exact (List.getElem?_eq_some_iff.1 here).1
  refine List.ext_getElem? fun other => ?_
  rw [List.map_set, slot]
  by_cases same : id = other
  · subst same
    rw [List.getElem?_set_self inside, List.getElem?_map, here]
    rfl
  · rw [List.getElem?_set_ne same]

theorem slots_settleEntries (ramps : Ramps S F) (target current : Entry S F → F) :
    (ramps.settleEntries target current).entries.map Entry.slot = ramps.entries.map Entry.slot := by
  simp [Ramps.settleEntries]

theorem entry_settleEntries {ramps : Ramps S F} {target current : Entry S F → F}
    (there : (ramps.settleEntries target current).entries[id]? = some entry') :
    ∃ entry, ramps.entries[id]? = some entry ∧ entry'.slot = entry.slot ∧ entry'.target = target entry := by
  obtain ⟨entry, here, rfl⟩ := Option.map_eq_some_iff.1 (List.getElem?_map.symm.trans there)
  exact ⟨entry, here, rfl, rfl⟩

/-- What changes to the entries of a list lead to. -/
structure Touched (storage : Storage S A) (change : Entry S F → Option (Entry S F × Option F))
    (ids : List Nat) (before after : Cells S A F) : Prop where
  slots : after.entries.map Entry.slot = before.entries.map Entry.slot
  changed : ∀ id ∈ ids, ∀ entry, before.entries[id]? = some entry → ∃ changed,
    change entry = some changed ∧ after.entries[id]? = some changed.1
      ∧ after.memory (storage.address entry.slot)
        = changed.2.getD (before.memory (storage.address entry.slot))
  others : ∀ id, id ∉ ids → after.entries[id]? = before.entries[id]?
  elsewhere : ∀ address, (∀ id ∈ ids, ∀ entry, before.entries[id]? = some entry →
    storage.address entry.slot ≠ address) → after.memory address = before.memory address

theorem Touched.congr {ids ids' : List Nat} (touched : Touched storage change ids before after)
    (same : ∀ id, id ∈ ids ↔ id ∈ ids') : Touched storage change ids' before after where
  slots := touched.slots
  changed id mem := touched.changed id ((same id).2 mem)
  others id unlisted := touched.others id fun mem => unlisted ((same id).1 mem)
  elsewhere address away := touched.elsewhere address fun id mem => away id ((same id).1 mem)

/-- An entry comes from one that was changed, or that was not listed. -/
theorem Touched.origin {ids : List Nat} (touched : Touched storage change ids before after)
    (there : after.entries[id]? = some entry') :
    ∃ entry, before.entries[id]? = some entry
      ∧ (id ∈ ids → ∃ changed, change entry = some changed ∧ entry' = changed.1)
      ∧ (id ∉ ids → entry' = entry) := by
  have length := congrArg List.length touched.slots
  rw [List.length_map, List.length_map] at length
  obtain ⟨inside, -⟩ := List.getElem?_eq_some_iff.1 there
  obtain ⟨entry, here⟩ : ∃ entry, before.entries[id]? = some entry :=
    ⟨_, List.getElem?_eq_getElem (length ▸ inside)⟩
  refine ⟨entry, here, fun mem => ?_, fun unlisted => ?_⟩
  · obtain ⟨changed, steps, after, -⟩ := touched.changed id mem entry here
    exact ⟨changed, steps, Option.some.inj (there.symm.trans after)⟩
  · rw [touched.others id unlisted, here] at there
    exact (Option.some.inj there).symm

variable [DecidableEq A]

theorem write_self (memory : A → F) (address : A) (value : Option F) :
    write memory address value address = value.getD (memory address) := by
  cases value <;> simp [write]

theorem write_ne (memory : A → F) {address other : A} (apart : other ≠ address) (value : Option F) :
    write memory address value other = memory other := by
  cases value <;> simp [write, apart]

/-- Each listed entry is changed once, and those that are active afterwards stay. -/
theorem visits_touch {change : Entry S F → Option (Entry S F × Option F)}
    (keeps : ∀ entry changed, change entry = some changed → changed.1.slot = entry.slot)
    {ids : List Nat} (distinct : ids.Nodup) {cells : Cells S A F} (apart : Apart storage cells.entries)
    (able : ∀ id ∈ ids, ∃ entry changed, cells.entries[id]? = some entry ∧ change entry = some changed) :
    ∃ cells' left, Sweep.visits (touch storage change) ids cells = some (cells', left)
      ∧ Touched storage change ids cells cells' ∧ left.Nodup
      ∧ ∀ id, id ∈ left ↔ id ∈ ids ∧ ∃ entry, cells'.entries[id]? = some entry ∧ entry.active = true := by
  induction ids generalizing cells with
  | nil =>
    exact ⟨cells, [], rfl, ⟨rfl, nofun, fun _ _ => rfl, fun _ _ => rfl⟩, .nil, by simp⟩
  | cons first ids ih =>
    obtain ⟨fresh, distinct⟩ := List.nodup_cons.1 distinct
    obtain ⟨entry, changed, here, steps⟩ := able first List.mem_cons_self
    have inside : first < cells.entries.length := (List.getElem?_eq_some_iff.1 here).1
    let middle : Cells S A F := ⟨cells.entries.set first changed.1,
      write cells.memory (storage.address entry.slot) changed.2⟩
    have slots : middle.entries.map Entry.slot = cells.entries.map Entry.slot :=
      slots_set here (keeps entry changed steps)
    have same : ∀ id, id ≠ first → middle.entries[id]? = cells.entries[id]? :=
      fun id other => List.getElem?_set_ne (Ne.symm other)
    have settled : middle.entries[first]? = some changed.1 := List.getElem?_set_self inside
    obtain ⟨cells', left, run, touched, once, among⟩ := @ih distinct middle
      (apart.of_slots slots) fun id mem => by
        have other : id ≠ first := fun same => fresh (same ▸ mem)
        obtain ⟨entry, changed, there, steps⟩ := able id (List.mem_cons_of_mem _ mem)
        exact ⟨entry, changed, (same id other).trans there, steps⟩
    have first_after : cells'.entries[first]? = some changed.1 :=
      (touched.others first fresh).trans settled
    have first_memory : cells'.memory (storage.address entry.slot)
        = changed.2.getD (cells.memory (storage.address entry.slot)) := by
      rw [touched.elsewhere, ← write_self]
      intro id mem other there same_address
      rw [same id fun same => fresh (same ▸ mem)] at there
      exact fresh (apart.unique there here same_address ▸ mem)
    refine ⟨cells', if changed.1.active = true then first :: left else left, ?_, ⟨?_, ?_, ?_, ?_⟩, ?_, ?_⟩
    · rw [Sweep.visits]
      simp only [touch, here, steps, Option.bind_some, Option.map_some]
      rw [run]
      rfl
    · exact touched.slots.trans slots
    · intro id mem other there
      rcases List.mem_cons.1 mem with rfl | mem
      · obtain rfl := Option.some.inj (here.symm.trans there)
        exact ⟨changed, steps, first_after, first_memory⟩
      · have away : id ≠ first := fun same => fresh (same ▸ mem)
        obtain ⟨changed', steps', after, memory⟩ := touched.changed id mem other ((same id away).trans there)
        refine ⟨changed', steps', after, ?_⟩
        rw [memory]
        congr 1
        exact write_ne _ (fun same_address => away (apart.unique there here same_address)) _
    · intro id unlisted
      rw [List.mem_cons, not_or] at unlisted
      rw [touched.others id unlisted.2, same id unlisted.1]
    · intro address away
      rw [touched.elsewhere address]
      · exact write_ne _ (away first List.mem_cons_self entry here).symm _
      · intro id mem other there
        exact away id (List.mem_cons_of_mem _ mem) other
          ((same id fun same => fresh (same ▸ mem)).symm.trans there)
    · split
      case isTrue => exact List.nodup_cons.2 ⟨fun mem => fresh ((among first).1 mem).1, once⟩
      case isFalse => exact once
    · intro id
      by_cases away : id = first
      · subst away
        have unlisted : id ∉ left := fun mem => fresh ((among id).1 mem).1
        split
        case isTrue active => simp [first_after, active]
        case isFalse inactive => simp [first_after, inactive, unlisted]
      · split
        case isTrue => simp [away, among]
        case isFalse => simp [away, among]

end Facts

/-! ### What ramps keep -/

section Sound

variable {S A F : Type} (floats : Floats F) (storage : Storage S A)

/-- The active entries are listed, each once, and none has gone beyond its end. -/
structure Ramps.Sound (ramps : Ramps S F) : Prop where
  apart : Apart storage ramps.entries
  once : ramps.active.Nodup
  listed : ∀ id : Nat, id ∈ ramps.active ↔ ∃ entry : Entry S F,
    ramps.entries[id]? = some entry ∧ entry.active = true
  within : ∀ (id : Nat) (entry : Entry S F), ramps.entries[id]? = some entry → entry.active = true →
    entry.elapsed ≤ ramps.samples ∧ 0 < ramps.samples
  typed : ∀ (id : Nat) (entry : Entry S F), ramps.entries[id]? = some entry →
    stored floats storage entry.slot entry.target = entry.target

variable {floats storage}

theorem stored_stored (slot : S) (value : F) :
    stored floats storage slot (stored floats storage slot value) = stored floats storage slot value := by
  unfold stored
  split
  case isTrue => exact floats.toF32_toF32 value
  case isFalse => rfl

variable (floats storage) in
theorem Entry.advance_eq {entry : Entry S F} {samples : Nat} (within : entry.elapsed ≤ samples)
    (frames : Nat) : ∃ changed value, entry.advance floats storage samples frames = some (changed, some value)
      ∧ changed.slot = entry.slot ∧ changed.target = entry.target
      ∧ changed.elapsed = min (entry.elapsed + frames) samples
      ∧ (changed.active = true ↔ min (entry.elapsed + frames) samples ≠ samples)
      ∧ (changed.active = false → value = stored floats storage entry.slot entry.target) := by
  have elapsed : entry.elapsed + min frames (samples - entry.elapsed) = min (entry.elapsed + frames) samples := by
    omega
  rw [Entry.advance, remaining, if_pos within, Option.map_some]
  refine ⟨_, _, rfl, rfl, rfl, elapsed, ?_, ?_⟩
  · simp [elapsed]
  · intro ends
    have last := of_decide_eq_false ends
    rw [not_not] at last
    rw [if_pos last]

namespace Ramps

variable {ramps : Ramps S F}

variable {entry : Entry S F} {id : Nat}

/-- An entry is replaced, and listed when it is active. -/
theorem Sound.set (sound : ramps.Sound floats storage) {entry' : Entry S F}
    (here : ramps.entries[id]? = some entry) (slot : entry'.slot = entry.slot) {active : List Nat}
    (once : active.Nodup) (listed : ∀ other, other ∈ active
      ↔ other ≠ id ∧ other ∈ ramps.active ∨ other = id ∧ entry'.active = true)
    (within : entry'.active = true → entry'.elapsed ≤ ramps.samples ∧ 0 < ramps.samples)
    (typed : stored floats storage entry'.slot entry'.target = entry'.target) :
    Ramps.Sound floats storage { ramps with entries := ramps.entries.set id entry', active := active } := by
  have inside : id < ramps.entries.length := (List.getElem?_eq_some_iff.1 here).1
  refine ⟨sound.apart.of_slots (slots_set here slot), once, fun other => ?_, fun other changed there => ?_,
    fun other changed there => ?_⟩
  · rw [listed other]
    by_cases same : other = id
    · subst same
      simp [inside]
    · rw [List.getElem?_set_ne (Ne.symm same), ← sound.listed]
      simp [same]
  all_goals
    by_cases same : id = other
    · subst same
      obtain rfl := Option.some.inj ((List.getElem?_set_self inside).symm.trans there)
      assumption
    · rw [List.getElem?_set_ne same] at there
      first
        | exact sound.within other changed there
        | exact sound.typed other changed there

theorem Sound.setTarget (sound : ramps.Sound floats storage)
    (here : ramps.entries[id]? = some entry) (value : F) (initialized : Bool) :
    (ramps.setTarget floats storage id entry value initialized).1.Sound floats storage := by
  have mem : id ∈ ramps.active ↔ entry.active = true := by
    rw [sound.listed, here]
    simp
  unfold Ramps.setTarget
  dsimp only
  split
  case isTrue =>
    refine sound.set here ?_ sound.once (fun other => ?_)
      (fun active => ⟨Nat.le_refl _, (sound.within id entry here active).2⟩) ?_
    · rfl
    · by_cases same : other = id
      · subst same
        simp [mem]
      · simp [same]
    · exact stored_stored _ _
  case isFalse ramp =>
    simp only [not_or] at ramp
    have enabled : 0 < ramps.samples := Nat.pos_of_ne_zero ramp.1
    split
    case isTrue => exact sound
    case isFalse =>
      refine sound.set here ?_ ?_ (fun other => ?_) (fun _ => ⟨?_, enabled⟩) ?_
      · rfl
      · split
        case isTrue => exact sound.once
        case isFalse inactive =>
          refine List.nodup_append.2 ⟨sound.once, List.nodup_singleton _, ?_⟩
          rintro other listed _ single rfl
          exact inactive (mem.1 (List.mem_singleton.1 single ▸ listed))
      · by_cases same : other = id
        · subst same
          split
          case isTrue active => simp [mem, active]
          case isFalse => simp
        · split
          case isTrue => simp [same]
          case isFalse => simp [same]
      · dsimp only
        split
        case isTrue => exact Nat.le_refl _
        case isFalse => exact Nat.zero_le _
      · exact stored_stored _ _

theorem Sound.settleEntries (sound : ramps.Sound floats storage) {target current : Entry S F → F}
    (typed : ∀ entry : Entry S F, entry ∈ ramps.entries →
      stored floats storage entry.slot (target entry) = target entry) :
    (ramps.settleEntries target current).Sound floats storage := by
  have settled : ∀ (id : Nat) (entry : Entry S F),
      (ramps.settleEntries target current).entries[id]? = some entry →
      entry.active = false ∧ stored floats storage entry.slot entry.target = entry.target := by
    intro id entry there
    obtain ⟨entry, here, rfl⟩ := List.getElem?_map.symm.trans there |> Option.map_eq_some_iff.1
    exact ⟨rfl, typed entry (List.mem_of_getElem? here)⟩
  refine ⟨sound.apart.of_slots ?_, .nil, fun id => ⟨nofun, ?_⟩, ?_, fun id entry there => (settled id entry there).2⟩
  · simp [Ramps.settleEntries]
  · rintro ⟨entry, there, active⟩
    rw [(settled id entry there).1] at active
    cases active
  · intro id entry there active
    rw [(settled id entry there).1] at active
    cases active

variable [DecidableEq A] {memory : A → F}

/-- What the loop of `begin_block` does. -/
theorem Sound.advance (sound : ramps.Sound floats storage) (frames : Nat) (memory : A → F) :
    ∃ next memory', ramps.advance floats storage frames memory = some (next, memory')
      ∧ next.Sound floats storage ∧ next.samples = ramps.samples ∧ next.started = true
      ∧ Touched storage (Entry.advance floats storage ramps.samples frames) ramps.active
        ⟨ramps.entries, memory⟩ ⟨next.entries, memory'⟩ := by
  have keeps : ∀ (entry : Entry S F) changed, entry.advance floats storage ramps.samples frames = some changed →
      changed.1.slot = entry.slot := by
    intro entry changed steps
    obtain ⟨left, -, rfl⟩ := Option.map_eq_some_iff.1 steps
    rfl
  let cells : Cells S A F := ⟨ramps.entries, memory⟩
  obtain ⟨order, perm, related⟩ := Sweep.sweep_spec
    (touch storage (Entry.advance floats storage ramps.samples frames)) (Nat.le_refl ramps.active.length) []
    cells
  obtain ⟨cells', left, run, touched, once, among⟩ := @visits_touch S A F storage _ _ keeps order
    (perm.nodup_iff.2 sound.once) cells sound.apart fun id mem => by
      obtain ⟨entry, here, active⟩ := (sound.listed id).1 (perm.mem_iff.1 mem)
      obtain ⟨changed, value, steps, -⟩ := Entry.advance_eq floats storage (sound.within id entry here active).1 frames
      exact ⟨entry, _, here, steps⟩
  replace touched := touched.congr fun id => perm.mem_iff
  rw [run, List.nil_append, List.length_nil] at related
  unfold Ramps.advance
  show ∃ next memory', Option.map _ (Sweep.sweep
    (touch storage (Entry.advance floats storage ramps.samples frames)) ramps.active.length 0 ramps.active
    cells) = _ ∧ _
  generalize Sweep.sweep (touch storage (Entry.advance floats storage ramps.samples frames))
    ramps.active.length 0 ramps.active cells = swept at related ⊢
  obtain ⟨⟨after, active⟩, rfl, rfl, left', stays, rfl⟩ : ∃ result, swept = some result
      ∧ result.1 = cells' ∧ ∃ left', left'.Perm left ∧ result.2 = left' := by
    cases related with
    | some related => exact ⟨_, rfl, related⟩
  refine ⟨_, _, rfl, ⟨?_, ?_, ?_, ?_, ?_⟩, rfl, rfl, touched⟩
  · exact sound.apart.of_slots touched.slots
  · exact stays.nodup_iff.2 once
  · intro id
    dsimp only
    rw [stays.mem_iff, among, perm.mem_iff]
    refine and_iff_right_of_imp ?_
    rintro ⟨entry', there, active⟩
    by_contra unlisted
    obtain ⟨entry, here, -, same⟩ := touched.origin there
    exact unlisted ((sound.listed id).2 ⟨entry, here, same unlisted ▸ active⟩)
  · intro id entry' there active
    obtain ⟨entry, here, advanced, same⟩ := touched.origin there
    have listed : id ∈ ramps.active := by
      by_contra unlisted
      exact unlisted ((sound.listed id).2 ⟨entry, here, same unlisted ▸ active⟩)
    obtain ⟨changed, steps, rfl⟩ := advanced listed
    obtain ⟨other, here', was⟩ := (sound.listed id).1 listed
    obtain rfl := Option.some.inj (here.symm.trans here')
    obtain ⟨within, enabled⟩ := sound.within id entry here was
    obtain ⟨changed', value, steps', -, -, elapsed, -⟩ := Entry.advance_eq floats storage within frames
    obtain rfl := Option.some.inj (steps'.symm.trans steps)
    exact ⟨elapsed ▸ Nat.min_le_right _ _, enabled⟩
  · intro id entry' there
    obtain ⟨entry, here, advanced, same⟩ := touched.origin there
    by_cases listed : id ∈ ramps.active
    · obtain ⟨changed, steps, rfl⟩ := advanced listed
      obtain ⟨left, -, rfl⟩ := Option.map_eq_some_iff.1 steps
      exact sound.typed id entry here
    · rw [same listed]
      exact sound.typed id entry here

/-- What `set_duration` does. -/
theorem Sound.setDuration (sound : ramps.Sound floats storage) (reached : Entry S F → F) (samples : Nat)
    (memory : A → F) :
    ∃ next memory', ramps.setDuration floats storage reached samples memory = some (next, memory')
      ∧ next.Sound floats storage ∧ next.samples = samples ∧ next.started = ramps.started
      ∧ (samples = ramps.samples → next = ramps ∧ memory' = memory)
      ∧ (samples ≠ ramps.samples → Touched storage (Entry.redraw floats storage reached ramps.samples samples)
        ramps.active ⟨ramps.entries, memory⟩ ⟨next.entries, memory'⟩) := by
  by_cases unchanged : samples = ramps.samples
  · exact ⟨ramps, memory, by rw [Ramps.setDuration, if_pos unchanged], sound, unchanged.symm, rfl,
      fun _ => ⟨rfl, rfl⟩, fun changed => absurd unchanged changed⟩
  have keeps : ∀ (entry : Entry S F) changed,
      entry.redraw floats storage reached ramps.samples samples = some changed →
      changed.1.slot = entry.slot ∧ changed.1.target = entry.target ∧ changed.1.elapsed ≤ samples
        ∧ (changed.1.active = true ↔ entry.active = true ∧ 0 < samples) := by
    intro entry changed steps
    rw [Entry.redraw] at steps
    split at steps
    case isTrue none =>
      obtain rfl := Option.some.inj steps
      exact ⟨rfl, rfl, Nat.zero_le _, by simp [none]⟩
    case isFalse some =>
      obtain rfl := Option.some.inj steps
      refine ⟨rfl, rfl, ?_, by simp [Nat.pos_of_ne_zero some]⟩
      dsimp only
      split
      · exact Nat.le_refl _
      · exact Nat.zero_le _
  obtain ⟨cells', left, run, touched, -, -⟩ := @visits_touch S A F storage _ _
    (fun entry changed steps => (keeps entry changed steps).1) _ sound.once ⟨ramps.entries, memory⟩
    sound.apart fun id mem => by
      obtain ⟨entry, here, -⟩ := (sound.listed id).1 mem
      unfold Entry.redraw
      split
      · exact ⟨entry, _, here, rfl⟩
      · exact ⟨entry, _, here, rfl⟩
  have entries : ∀ (id : Nat) (entry' : Entry S F), cells'.entries[id]? = some entry' →
      ∃ entry, ramps.entries[id]? = some entry ∧ entry'.slot = entry.slot ∧ entry'.target = entry.target
        ∧ (entry'.active = true ↔ id ∈ ramps.active ∧ 0 < samples)
        ∧ (entry'.active = true → entry'.elapsed ≤ samples) := by
    intro id entry' there
    obtain ⟨entry, here, redrawn, same⟩ := touched.origin there
    have active : id ∈ ramps.active ↔ entry.active = true := by
      rw [sound.listed, here]
      simp
    by_cases listed : id ∈ ramps.active
    · obtain ⟨changed, steps, rfl⟩ := redrawn listed
      obtain ⟨slot, target, elapsed, stays⟩ := keeps entry changed steps
      exact ⟨entry, here, slot, target, by rw [stays, active], fun _ => elapsed⟩
    · obtain rfl := same listed
      have inactive := mt active.2 listed
      exact ⟨entry', here, rfl, rfl, by simp [inactive, listed], fun active => absurd active inactive⟩
  rw [Ramps.setDuration, if_neg unchanged, run, Option.map_some]
  refine ⟨_, _, rfl, ⟨?_, ?_, ?_, ?_, ?_⟩, rfl, rfl, fun same => absurd same unchanged, fun _ => touched⟩
  · exact sound.apart.of_slots touched.slots
  · dsimp only
    split
    case isTrue => exact .nil
    case isFalse => exact sound.once
  · intro id
    dsimp only
    constructor
    · intro mem
      split at mem
      case isTrue => cases mem
      case isFalse enabled =>
        obtain ⟨entry, here, -⟩ := (sound.listed id).1 mem
        obtain ⟨changed, -, there, -⟩ := touched.changed id mem entry here
        obtain ⟨-, -, -, -, active, -⟩ := entries id _ there
        exact ⟨_, there, active.2 ⟨mem, Nat.pos_of_ne_zero enabled⟩⟩
    · rintro ⟨entry', there, active⟩
      obtain ⟨-, -, -, -, listed, -⟩ := entries id entry' there
      obtain ⟨mem, enabled⟩ := listed.1 active
      rwa [if_neg (Nat.pos_iff_ne_zero.1 enabled)]
  · intro id entry' there active
    obtain ⟨-, -, -, -, listed, within⟩ := entries id entry' there
    exact ⟨within active, (listed.1 active).2⟩
  · intro id entry' there
    obtain ⟨entry, here, slot, target, -⟩ := entries id entry' there
    rw [slot, target]
    exact sound.typed id entry here

end Ramps

end Sound

/-! ### What a step does to an entry -/

section Steps

variable {S A F : Type} {floats : Floats F} {storage : Storage S A}

/-- A step that leaves the target and the duration alone: an entry that is still active was active
before and has moved on by the frames. -/
def Entry.Progress (samples frames : Nat) (before after : Entry S F) : Prop :=
  after.active = true → before.active = true ∧ min samples (before.elapsed + frames) ≤ after.elapsed
    ∧ (0 < frames → after.elapsed < samples)

theorem Entry.Progress.refl (samples : Nat) (entry : Entry S F) : entry.Progress samples 0 entry :=
  fun active => ⟨active, Nat.min_le_right _ _, fun frames => absurd frames (Nat.lt_irrefl 0)⟩

/-- Where no ramp is drawn, the stored value stands for the target. -/
def Tracks (storage : Storage S A) (shows : F → F → Prop) (ramps : Ramps S F) (memory : A → F) : Prop :=
  ∀ (id : Nat) (entry : Entry S F), ramps.entries[id]? = some entry → entry.active = false →
    shows (memory (storage.address entry.slot)) entry.target

/-- Slots and targets are as before. -/
def SameTargets (before after : List (Entry S F)) : Prop :=
  ∀ (id : Nat) (entry' : Entry S F), after[id]? = some entry' → ∃ entry, before[id]? = some entry
    ∧ entry'.slot = entry.slot ∧ entry'.target = entry.target

theorem Touched.sameTargets {change : Entry S F → Option (Entry S F × Option F)} {ids : List Nat}
    {before after : Cells S A F} (touched : Touched storage change ids before after)
    (keeps : ∀ entry changed, change entry = some changed →
      changed.1.slot = entry.slot ∧ changed.1.target = entry.target) :
    SameTargets before.entries after.entries := by
  intro id entry' there
  obtain ⟨entry, here, goes, kept⟩ := touched.origin there
  by_cases listed : id ∈ ids
  · obtain ⟨changed, steps, rfl⟩ := goes listed
    exact ⟨entry, here, keeps entry changed steps⟩
  · obtain rfl := kept listed
    exact ⟨entry', here, rfl, rfl⟩

variable (floats storage) in
theorem Entry.advance_keeps (samples frames : Nat) (entry : Entry S F) (changed : Entry S F × Option F)
    (steps : entry.advance floats storage samples frames = some changed) :
    changed.1.slot = entry.slot ∧ changed.1.target = entry.target := by
  obtain ⟨left, -, rfl⟩ := Option.map_eq_some_iff.1 steps
  exact ⟨rfl, rfl⟩

variable (floats storage) in
theorem Entry.redraw_keeps (reached : Entry S F → F) (previous samples : Nat) (entry : Entry S F)
    (changed : Entry S F × Option F)
    (steps : entry.redraw floats storage reached previous samples = some changed) :
    changed.1.slot = entry.slot ∧ changed.1.target = entry.target := by
  rw [Entry.redraw] at steps
  split at steps
  · obtain rfl := Option.some.inj steps
    exact ⟨rfl, rfl⟩
  · obtain rfl := Option.some.inj steps
    exact ⟨rfl, rfl⟩

namespace Ramps

variable {ramps : Ramps S F} {shows : F → F → Prop}

theorem samples_setTarget (id : Nat) (entry : Entry S F) (value : F) (initialized : Bool) :
    (ramps.setTarget floats storage id entry value initialized).1.samples = ramps.samples := by
  unfold Ramps.setTarget
  dsimp only
  split
  · rfl
  · split
    · rfl
    · rfl

variable {memory' : A → F} {after before entry : Entry S F} {id : Nat}

theorem slots_setTarget (here : ramps.entries[id]? = some entry) (value : F) (initialized : Bool) :
    (ramps.setTarget floats storage id entry value initialized).1.entries.map Entry.slot
      = ramps.entries.map Entry.slot := by
  unfold Ramps.setTarget
  dsimp only
  split
  · exact slots_set here rfl
  · split
    · rfl
    · exact slots_set here rfl

variable (floats storage) in
/-- The entries behind a write: the others are as before, and this one is set directly, ignores the
write or begins a ramp. -/
theorem setTarget_cases (here : ramps.entries[id]? = some entry) (value : F) (initialized : Bool) :
    (∀ other, other ≠ id → (ramps.setTarget floats storage id entry value initialized).1.entries[other]?
        = ramps.entries[other]?)
      ∧ ∃ entry', (ramps.setTarget floats storage id entry value initialized).1.entries[id]? = some entry'
        ∧ entry'.slot = entry.slot
        ∧ ((ramps.setTarget floats storage id entry value initialized).2 = false
            ∧ entry'.target = stored floats storage entry.slot value ∧ entry'.active = entry.active
            ∧ entry'.elapsed = ramps.samples
          ∨ (ramps.setTarget floats storage id entry value initialized).2 = true ∧ entry' = entry
            ∧ floats.eq (stored floats storage entry.slot value) entry.target = true
          ∨ (ramps.setTarget floats storage id entry value initialized).2 = true ∧ entry'.active = true
            ∧ entry'.target = stored floats storage entry.slot value ∧ entry'.target ≠ entry.target) := by
  have inside : id < ramps.entries.length := (List.getElem?_eq_some_iff.1 here).1
  unfold Ramps.setTarget
  dsimp only
  split
  case isTrue =>
    exact ⟨fun other apart => List.getElem?_set_ne (Ne.symm apart), _, List.getElem?_set_self inside, rfl,
      .inl ⟨rfl, rfl, rfl, rfl⟩⟩
  case isFalse ramp =>
    split
    case isTrue same => exact ⟨fun _ _ => rfl, entry, here, rfl, .inr (.inl ⟨rfl, rfl, same⟩)⟩
    case isFalse differs =>
      refine ⟨fun other apart => List.getElem?_set_ne (Ne.symm apart), _, List.getElem?_set_self inside, rfl,
        .inr (.inr ⟨rfl, rfl, rfl, fun same => ?_⟩)⟩
      simp only [not_or, Bool.not_eq_true', Bool.not_eq_false] at ramp
      exact differs (same ▸ floats.eq_self ramp.2.2.2.1)

theorem setTarget_progress (here : ramps.entries[id]? = some entry) (value : F) (initialized : Bool)
    {other : Nat} (was : ramps.entries[other]? = some before)
    (is : (ramps.setTarget floats storage id entry value initialized).1.entries[other]? = some after)
    (steady : after.target = before.target) : before.Progress ramps.samples 0 after := by
  obtain ⟨others, entry', there, -, outcome⟩ := setTarget_cases floats storage here value initialized
  by_cases same : other = id
  · subst same
    obtain rfl := Option.some.inj (here.symm.trans was)
    obtain rfl := Option.some.inj (there.symm.trans is)
    rcases outcome with ⟨-, -, active, elapsed⟩ | ⟨-, rfl, -⟩ | ⟨-, -, -, differs⟩
    · exact fun now => ⟨active ▸ now, elapsed ▸ Nat.min_le_left _ _, fun frames => absurd frames (Nat.lt_irrefl 0)⟩
    · exact .refl _ _
    · exact absurd steady differs
  · rw [others other same, was] at is
    obtain rfl := Option.some.inj is
    exact .refl _ _

variable [DecidableEq A] {memory : A → F}

variable (floats storage) in
theorem slots_setParam {id : Nat} {entry : Entry S F} (here : ramps.entries[id]? = some entry) (value : F)
    (initialized : Bool) (memory : A → F) :
    (ramps.setParam floats storage id entry value initialized memory).1.entries.map Entry.slot
      = ramps.entries.map Entry.slot :=
  slots_setTarget here value initialized

/-- A write leaves the addresses of other entries alone. -/
theorem setParam_memory_ne (value : F) (initialized : Bool) {address : A}
    (apart : address ≠ storage.address entry.slot) :
    (ramps.setParam floats storage id entry value initialized memory).2 address = memory address := by
  unfold Ramps.setParam
  dsimp only
  split
  · rfl
  · exact Function.update_of_ne apart _ _

theorem setParam_tracks (sound : ramps.Sound floats storage) (same : ∀ value, shows value value)
    (here : ramps.entries[id]? = some entry) (value : F) (initialized : Bool)
    (tracks : Tracks storage shows ramps memory) :
    Tracks storage shows (ramps.setParam floats storage id entry value initialized memory).1
      (ramps.setParam floats storage id entry value initialized memory).2 := by
  intro other after is inactive
  obtain ⟨others, entry', there, slot, outcome⟩ :=
    setTarget_cases floats storage here value initialized
  by_cases away : other = id
  · subst away
    obtain rfl := Option.some.inj (there.symm.trans is)
    rw [slot]
    unfold Ramps.setParam
    rcases outcome with ⟨direct, target, -⟩ | ⟨handled, rfl, -⟩ | ⟨-, active, -⟩
    · simp only [direct, target, Bool.false_eq_true, if_false, Function.update_self]
      exact same _
    · simp only [handled, if_true]
      exact tracks other _ here inactive
    · rw [inactive] at active
      cases active
  · have was : ramps.entries[other]? = some after := (others other away).symm.trans is
    rw [setParam_memory_ne]
    · exact tracks other after was inactive
    · exact fun clash => away (sound.apart.unique was here clash)

omit [DecidableEq A] in
/-- The loop of `begin_block` moves each entry on. -/
theorem advance_progress {next : Ramps S F} {frames : Nat} (sound : ramps.Sound floats storage)
    (touched : Touched storage (Entry.advance floats storage ramps.samples frames) ramps.active
      ⟨ramps.entries, memory⟩ ⟨next.entries, memory'⟩) (was : ramps.entries[id]? = some before)
    (is : next.entries[id]? = some after) :
    before.Progress ramps.samples frames after := by
  intro active
  have listed : id ∈ ramps.active := by
    by_contra unlisted
    rw [touched.others id unlisted, was] at is
    obtain rfl := Option.some.inj is
    exact unlisted ((sound.listed id).2 ⟨before, was, active⟩)
  obtain ⟨entry, here, was_active⟩ := (sound.listed id).1 listed
  obtain rfl := Option.some.inj (was.symm.trans here)
  obtain ⟨changed, steps, there, -⟩ := touched.changed id listed before was
  obtain rfl := Option.some.inj (there.symm.trans is)
  obtain ⟨changed', value, steps', -, -, elapsed, goes, -⟩ :=
    Entry.advance_eq floats storage (sound.within id before was was_active).1 frames
  obtain rfl := Option.some.inj (steps'.symm.trans steps)
  have open_end := goes.1 active
  refine ⟨was_active, ?_, fun _ => ?_⟩
  · dsimp only
    omega
  · dsimp only
    omega

omit [DecidableEq A] in
/-- A loop over the active entries: an entry that stops leaves its target behind. -/
theorem tracks_of_touched {change : Entry S F → Option (Entry S F × Option F)} {next : Ramps S F}
    (sound : ramps.Sound floats storage)
    (touched : Touched storage change ramps.active ⟨ramps.entries, memory⟩ ⟨next.entries, memory'⟩)
    (stops : ∀ (id : Nat) (entry : Entry S F), ramps.entries[id]? = some entry → entry.active = true →
      ∀ changed, change entry = some changed → changed.1.active = false →
        changed.1.slot = entry.slot
          ∧ shows (changed.2.getD (memory (storage.address entry.slot))) changed.1.target)
    (tracks : Tracks storage shows ramps memory) : Tracks storage shows next memory' := by
  intro id after is inactive
  obtain ⟨before, was, -, kept⟩ := touched.origin is
  by_cases listed : id ∈ ramps.active
  · obtain ⟨entry, here, active⟩ := (sound.listed id).1 listed
    obtain rfl := Option.some.inj (was.symm.trans here)
    obtain ⟨changed, steps, there, written⟩ := touched.changed id listed before was
    obtain rfl := Option.some.inj (there.symm.trans is)
    obtain ⟨slot, value⟩ := stops id before was active changed steps inactive
    dsimp only at written
    rwa [slot, written]
  · obtain rfl := kept listed
    have unwritten : memory' (storage.address after.slot) = memory (storage.address after.slot) :=
      touched.elsewhere _ fun other mem entry there clash =>
        listed (sound.apart.unique there was clash ▸ mem)
    rw [unwritten]
    exact tracks id after was inactive

omit [DecidableEq A] in
theorem advance_tracks {next : Ramps S F} {memory' : A → F} {frames : Nat}
    (sound : ramps.Sound floats storage) (same : ∀ value, shows value value)
    (touched : Touched storage (Entry.advance floats storage ramps.samples frames) ramps.active
      ⟨ramps.entries, memory⟩ ⟨next.entries, memory'⟩) :
    Tracks storage shows ramps memory → Tracks storage shows next memory' := by
  refine tracks_of_touched sound touched fun id entry here active changed steps inactive => ?_
  obtain ⟨changed', value, steps', slot, target, -, -, ends⟩ :=
    Entry.advance_eq floats storage (sound.within id entry here active).1 frames
  obtain rfl := Option.some.inj (steps'.symm.trans steps)
  refine ⟨slot, ?_⟩
  dsimp only at target inactive ⊢
  rw [target, Option.getD_some, ends inactive, sound.typed id entry here]
  exact same _

omit [DecidableEq A] in
theorem setDuration_tracks {next : Ramps S F} {memory' : A → F} {reached : Entry S F → F} {samples : Nat}
    (sound : ramps.Sound floats storage) (same : ∀ value, shows value value)
    (touched : Touched storage (Entry.redraw floats storage reached ramps.samples samples) ramps.active
      ⟨ramps.entries, memory⟩ ⟨next.entries, memory'⟩) :
    Tracks storage shows ramps memory → Tracks storage shows next memory' := by
  refine tracks_of_touched sound touched fun id entry here active changed steps inactive => ?_
  rw [Entry.redraw] at steps
  split at steps
  case isTrue =>
    obtain rfl := Option.some.inj steps
    refine ⟨rfl, ?_⟩
    rw [Option.getD_some, sound.typed id entry here]
    exact same _
  case isFalse =>
    obtain rfl := Option.some.inj steps
    rw [active] at inactive
    cases inactive

end Ramps

end Steps

/-! ### Runs -/

section Runs

variable {S A F σ α : Type} {floats : Floats F} {storage : Storage S A}

/-- A step that changes neither the target of an entry nor the duration. -/
def KeepsTarget (ramps : σ → Ramps S F) (step : σ → α → Option σ) (id : Nat) (state : σ) (call : α) : Prop :=
  ∀ next, step state call = some next → (ramps next).samples = (ramps state).samples
    ∧ ((ramps next).entries[id]?).map Entry.target = ((ramps state).entries[id]?).map Entry.target

/-- Once blocks with the frames of a ramp have begun and its target stayed, the ramp is over. -/
theorem run_settles {step : σ → α → Option σ} {ramps : σ → Ramps S F} {frames : α → Nat} {holds : σ → Prop}
    (kept : ∀ state call next, holds state → step state call = some next → holds next)
    (sound : ∀ state, holds state → (ramps state).Sound floats storage)
    (progress : ∀ state call next, holds state → step state call = some next →
      (ramps next).samples = (ramps state).samples → ∀ (id : Nat) (before after : Entry S F),
      (ramps state).entries[id]? = some before → (ramps next).entries[id]? = some after →
      after.target = before.target → before.Progress (ramps state).samples (frames call) after)
    {state last : σ} {calls : List α} {id : Nat} (start : holds state)
    (ran : Steps.run step state calls = some last)
    (steady : Steps.Meets step (KeepsTarget ramps step id) state calls)
    (enough : (ramps last).samples ≤ (calls.map frames).sum) (entry : Entry S F)
    (here : (ramps last).entries[id]? = some entry) : entry.active = false := by
  -- an active entry has gone at least as far as the frames that have begun
  have goes : ∀ (calls : List α) (state : σ) (begun : Nat), holds state →
      Steps.run step state calls = some last → Steps.Meets step (KeepsTarget ramps step id) state calls →
      (∀ before : Entry S F, (ramps state).entries[id]? = some before → before.active = true →
        begun ≤ before.elapsed ∧ begun < (ramps state).samples) →
      entry.active = true → begun + (calls.map frames).sum < (ramps last).samples := by
    intro calls
    induction calls with
    | nil =>
      intro state begun _ ran _ far active
      obtain rfl := Option.some.inj ran
      exact (far entry here active).2
    | cons call calls ih =>
      intro state begun start ran steady far active
      obtain ⟨next, stepped, ran⟩ := Steps.run_cons.1 ran
      obtain ⟨samples, target⟩ := steady.1 next stepped
      rw [List.map_cons, List.sum_cons, ← Nat.add_assoc]
      refine ih next _ (kept _ _ _ start stepped) ran (steady.2 next stepped) (fun after is now => ?_) active
      rw [is, Option.map_some] at target
      obtain ⟨before, was, same⟩ := Option.map_eq_some_iff.1 target.symm
      obtain ⟨was_active, elapsed, stops⟩ :=
        progress state call next start stepped samples id before after was is same.symm now
      obtain ⟨far, short⟩ := far before was was_active
      rw [samples]
      rcases Nat.eq_zero_or_pos (frames call) with none | some
      · omega
      · have := stops some
        omega
  by_contra active
  have short := goes calls state 0 start ran steady
    (fun before was now => ⟨Nat.zero_le _, ((sound state start).within id before was now).2⟩)
    (by simpa using active)
  omega

end Runs

end Onda.Smoothing
