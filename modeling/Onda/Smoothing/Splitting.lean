import Onda.Smoothing.Settling

/-!
# Blocks that are split

A host may begin the frames of a block in several blocks, as it does around events.  The ramps end
with the same values, however the frames are split.
-/

namespace Onda.Smoothing

variable {S A F : Type} {floats : Floats F} {storage : Storage S A}

/-- An entry that is still active goes on, and one that has ended stays as it is. -/
theorem Entry.advance_add {samples frames more : Nat} {entry : Entry S F} {changed : Entry S F × Option F}
    (steps : entry.advance floats storage samples frames = some changed) :
    entry.advance floats storage samples (frames + more) =
      if changed.1.active then changed.1.advance floats storage samples more else some changed := by
  unfold Entry.advance remaining at *
  split at steps
  · rename_i within
    obtain rfl := Option.some.inj steps
    by_cases ends : entry.elapsed + min frames (samples - entry.elapsed) = samples
    · have all : min (frames + more) (samples - entry.elapsed) = min frames (samples - entry.elapsed) := by
        omega
      simp [within, ends, all]
    · have sum : min (frames + more) (samples - entry.elapsed) = min frames (samples - entry.elapsed)
          + min more (samples - (entry.elapsed + min frames (samples - entry.elapsed))) := by omega
      have before : entry.elapsed + min frames (samples - entry.elapsed) ≤ samples := by omega
      simp [within, ends, before, sum, Nat.add_assoc]
  · cases steps

variable {change : Entry S F → Option (Entry S F × Option F)} {ids : List Nat} {before after after' : Cells S A F}

/-- Changes lead to one result. -/
theorem Touched.unique (first : Touched storage change ids before after)
    (second : Touched storage change ids before after') : after = after' := by
  have origin (id : Nat) (listed : id ∈ ids) (entry : Entry S F) (here : before.entries[id]? = some entry) :
      after.entries[id]? = after'.entries[id]? ∧
        after.memory (storage.address entry.slot) = after'.memory (storage.address entry.slot) := by
    obtain ⟨changed, steps, entries, memory⟩ := first.changed id listed entry here
    obtain ⟨changed', steps', entries', memory'⟩ := second.changed id listed entry here
    obtain rfl := Option.some.inj (steps.symm.trans steps')
    exact ⟨entries.trans entries'.symm, memory.trans memory'.symm⟩
  have length := congrArg List.length (first.slots.trans second.slots.symm)
  have length' := congrArg List.length first.slots
  simp only [List.length_map] at length length'
  have entries : after.entries = after'.entries := by
    refine List.ext_getElem? fun id => ?_
    by_cases listed : id ∈ ids
    · by_cases inside : id < before.entries.length
      · exact (origin id listed _ (List.getElem?_eq_getElem inside)).1
      · rw [List.getElem?_eq_none (by omega), List.getElem?_eq_none (by omega)]
    · exact (first.others id listed).trans (second.others id listed).symm
  have memory : after.memory = after'.memory := by
    funext address
    by_cases away : ∀ id ∈ ids, ∀ entry, before.entries[id]? = some entry →
        storage.address entry.slot ≠ address
    · exact (first.elsewhere address away).trans (second.elsewhere address away).symm
    · push Not at away
      obtain ⟨id, listed, entry, here, rfl⟩ := away
      exact (origin id listed entry here).2
  cases after
  cases after'
  cases entries
  cases memory
  rfl

variable [DecidableEq A] {ramps : Ramps S F}

/-- Two blocks and one with the frames of both. -/
theorem Ramps.Sound.advance_add (sound : ramps.Sound floats storage) (frames more : Nat)
    {memory memory' : A → F} {middle : Ramps S F}
    (begins : ramps.advance floats storage frames memory = some (middle, memory')) :
    ∃ last active memory'', middle.advance floats storage more memory' = some (last, memory'') ∧
      ramps.advance floats storage (frames + more) memory
        = some ({ last with active := active }, memory'') ∧ active.Perm last.active := by
  obtain ⟨middle', memory₁, run, sound', count, -, touched⟩ := sound.advance frames memory
  obtain ⟨rfl, rfl⟩ := Prod.mk.inj (Option.some.inj (begins.symm.trans run))
  obtain ⟨last, memory'', run', sound'', count', start', touched'⟩ := sound'.advance more memory'
  obtain ⟨whole, memory₃, joined, soundly, counted, started, changes⟩ := sound.advance (frames + more) memory
  rw [count] at touched'
  have listed (id : Nat) (mem : id ∈ middle.active) : id ∈ ramps.active := by
    obtain ⟨entry, here, active⟩ := (sound'.listed id).1 mem
    by_contra unlisted
    exact unlisted ((sound.listed id).2 ⟨entry, (touched.others id unlisted).symm.trans here, active⟩)
  have both : Touched storage (Entry.advance floats storage ramps.samples (frames + more)) ramps.active
      ⟨ramps.entries, memory⟩ ⟨last.entries, memory''⟩ := by
    refine ⟨touched'.slots.trans touched.slots, fun id mem entry here => ?_, fun id unlisted => ?_,
      fun address away => ?_⟩
    · obtain ⟨changed, steps, here', stored⟩ := touched.changed id mem entry here
      have slot : changed.1.slot = entry.slot := by
        obtain ⟨left, -, rfl⟩ := Option.map_eq_some_iff.1 steps
        rfl
      rw [Entry.advance_add steps]
      cases active : changed.1.active with
      | true =>
        obtain ⟨changed', steps', here'', stored'⟩ :=
          touched'.changed id ((sound'.listed id).2 ⟨_, here', active⟩) _ here'
        rw [slot] at stored'
        refine ⟨changed', steps', here'', stored'.trans ?_⟩
        obtain ⟨left, -, rfl⟩ := Option.map_eq_some_iff.1 steps'
        rfl
      | false =>
        -- The second block leaves an entry that has ended.
        have ended : id ∉ middle.active := fun mem => by
          obtain ⟨entry', there, still⟩ := (sound'.listed id).1 mem
          obtain rfl := Option.some.inj (here'.symm.trans there)
          rw [active] at still
          cases still
        refine ⟨changed, rfl, (touched'.others id ended).trans here', (touched'.elsewhere _ ?_).trans stored⟩
        intro other mem' entry' there clash
        exact ended (sound'.apart.unique there here' (clash.trans (congrArg _ slot.symm)) ▸ mem')
    · exact (touched'.others id fun mem => unlisted (listed id mem)).trans (touched.others id unlisted)
    · refine (touched'.elsewhere address fun id mem entry' there => ?_).trans (touched.elsewhere address away)
      obtain ⟨entry, here, advanced, -⟩ := touched.origin there
      obtain ⟨changed, steps, rfl⟩ := advanced (listed id mem)
      obtain ⟨left, -, rfl⟩ := Option.map_eq_some_iff.1 steps
      exact away id (listed id mem) entry here
  obtain ⟨entries, rfl⟩ := Cells.mk.inj (changes.unique both)
  refine ⟨last, whole.active, _, run', ?_, (List.perm_ext_iff_of_nodup soundly.once sound''.once).2 fun id => ?_⟩
  · have lengths := counted.trans (count'.trans count).symm
    have flags := started.trans start'.symm
    rw [joined]
    cases whole
    cases last
    cases entries
    cases lengths
    cases flags
    rfl
  · rw [soundly.listed, sound''.listed, entries]

/-- The blocks of the Rust host.  Those without frames do nothing. -/
theorem RunSession.Sound.blocks {session : RunSession floats} (sound : session.Sound) (blocks : List Nat) :
    ∃ last active, Steps.run RunSession.perform session (blocks.map HostCall.beginBlock) = some last ∧
      session.beginBlock blocks.sum = some { last with ramps := { last.ramps with active := active } } ∧
      active.Perm last.ramps.active := by
  induction blocks generalizing session with
  | nil => exact ⟨session, _, rfl, rfl, .refl _⟩
  | cons frames blocks ih =>
    obtain ⟨next, begins, sound'⟩ := sound.beginBlock frames
    obtain ⟨last, active, run, whole, perm⟩ := ih sound'
    have ran : Steps.run RunSession.perform session ((frames :: blocks).map HostCall.beginBlock) = some last := by
      rw [List.map_cons, Steps.run, RunSession.perform, begins, Option.bind_some, run]
    rw [List.sum_cons]
    by_cases none : frames = 0
    · rw [RunSession.beginBlock, if_pos none] at begins
      obtain rfl := Option.some.inj begins
      subst none
      rw [Nat.zero_add]
      exact ⟨last, active, ran, whole, perm⟩
    by_cases done : blocks.sum = 0
    · rw [done, RunSession.beginBlock, if_pos rfl] at whole
      rw [done, Nat.add_zero, begins, whole]
      exact ⟨last, active, ran, rfl, perm⟩
    rw [RunSession.beginBlock, if_neg none] at begins
    obtain ⟨⟨middle, memory'⟩, begun, rfl⟩ := Option.map_eq_some_iff.1 begins
    obtain ⟨ramps, active', memory'', rest, joined, perm'⟩ := sound.ramps.advance_add frames blocks.sum begun
    rw [RunSession.beginBlock, if_neg done, rest] at whole
    cases last
    cases Option.some.inj whole
    refine ⟨_, active', ran, ?_, perm'.trans perm⟩
    rw [RunSession.beginBlock, if_neg (by omega), joined]
    rfl

/-- The blocks of the worklet. -/
theorem WebSession.Sound.blocks {plain : Prop} {session : WebSession F} (sound : session.Sound floats plain)
    (frames : Nat) (blocks : List Nat) :
    ∃ last active, Steps.run (WebSession.perform floats) session
        ((frames :: blocks).map WebCall.beginBlock) = some last ∧
      session.beginBlock floats (frames :: blocks).sum
        = some { last with ramps := { last.ramps with active := active } } ∧
      active.Perm last.ramps.active := by
  induction blocks generalizing session frames with
  | nil =>
    obtain ⟨next, begins, -⟩ := sound.beginBlock frames
    exact ⟨next, _, by rw [List.map_cons, Steps.run, WebSession.perform, begins]; rfl, begins, .refl _⟩
  | cons more blocks ih =>
    obtain ⟨next, begins, sound'⟩ := sound.beginBlock frames
    obtain ⟨last, active, run, whole, perm⟩ := ih sound' more
    have ran : Steps.run (WebSession.perform floats) session
        ((frames :: more :: blocks).map WebCall.beginBlock) = some last := by
      rw [List.map_cons, Steps.run, WebSession.perform, begins, Option.bind_some, run]
    obtain ⟨⟨middle, memory'⟩, begun, rfl⟩ := Option.map_eq_some_iff.1 begins
    obtain ⟨ramps, active', memory'', rest, joined, perm'⟩ :=
      sound.ramps.advance_add frames (more :: blocks).sum begun
    rw [WebSession.beginBlock, rest] at whole
    cases last
    cases Option.some.inj whole
    refine ⟨_, active', ran, ?_, perm'.trans perm⟩
    rw [List.sum_cons, WebSession.beginBlock, joined]
    rfl

/-- **Splitting changes nothing.** After any run of either host, blocks one after another lead to the
session of one block with the frames of all of them: the entries and the stored values are the same,
and the active entries are listed in another order perhaps. -/
theorem blocks_split (floats : Floats F) :
    (∀ (params : List (ParamDesc floats)) (samples : Nat) (blank : Nat × Nat → F) (calls : List (HostCall F))
        (blocks : List Nat), ∃ session last active,
      Steps.run RunSession.perform (RunSession.build params samples blank) calls = some session ∧
      Steps.run RunSession.perform session (blocks.map .beginBlock) = some last ∧
      session.beginBlock blocks.sum = some { last with ramps := { last.ramps with active := active } } ∧
      active.Perm last.ramps.active)
    ∧ ∀ (table : ParamTable F) (samples : Nat) (values : Nat → Nat → F) (blank : Nat → F)
        (calls : List (WebCall F)) (frames : Nat) (blocks : List Nat), ∃ session last active,
      Steps.run (WebSession.perform floats) (WebSession.build floats table samples values blank) calls
          = some session ∧
      Steps.run (WebSession.perform floats) session ((frames :: blocks).map .beginBlock) = some last ∧
      session.beginBlock floats (frames :: blocks).sum
        = some { last with ramps := { last.ramps with active := active } } ∧
      active.Perm last.ramps.active := by
  refine ⟨fun params samples blank calls blocks => ?_,
    fun table samples values blank calls frames blocks => ?_⟩
  · obtain ⟨session, run, sound⟩ := RunSession.run_sound (RunSession.build_sound params samples blank) calls
    obtain ⟨last, active, split⟩ := sound.blocks blocks
    exact ⟨session, last, active, run, split⟩
  · obtain ⟨session, run, sound⟩ := WebSession.run_sound
      (WebSession.build_sound floats False table samples values blank) calls False.elim
    obtain ⟨last, active, split⟩ := sound.blocks frames blocks
    exact ⟨session, last, active, run, split⟩

end Onda.Smoothing
