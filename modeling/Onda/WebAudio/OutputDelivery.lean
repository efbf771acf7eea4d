import Onda.Lib.Window
import Onda.WebAudio.OutputRing

/-!
# The execution-output ring delivers or accounts for everything

A slot shows an entry when each of its cells holds what the entry has there.  The words and bytes
of an entry lie in different cells, so that a store never spoils an earlier one.
-/

namespace Onda.WebAudio

/-! ### Layout -/

variable {slot : Nat}

/-! ### Slots -/

/-- A store writes what the entry has in its cell. -/
def Entry.Determines (entry : Entry) : Store → Prop
  | .word field value => value = entry.word field
  | .byte channel index value => (entry.payload channel)[index]? = some value

theorem mem_copyBytes {channel : Channel} {bytes : List Byte} {store : Store} :
    store ∈ copyBytes channel bytes ↔
      ∃ index value, bytes[index]? = some value ∧ store = .byte channel index value := by
  unfold copyBytes
  rw [List.mem_mapIdx]
  constructor
  · rintro ⟨index, inside, rfl⟩
    exact ⟨index, bytes[index], List.getElem?_eq_getElem inside, rfl⟩
  · rintro ⟨index, value, here, rfl⟩
    obtain ⟨inside, rfl⟩ := List.getElem?_eq_some_iff.mp here
    exact ⟨index, inside, rfl⟩

theorem mem_writeOrder (field : Field) : field ∈ writeOrder := by
  rcases field with _ | _ | (_ | _) | (_ | _) | (_ | _) | (_ | _) | (_ | _) <;> decide

theorem mem_readOrder (field : Field) : field ∈ readOrder := by
  rcases field with _ | _ | (_ | _) | (_ | _) | (_ | _) | (_ | _) | (_ | _) <;> decide

theorem Entry.mem_stores (entry : Entry) (store : Store) :
    store ∈ entry.stores ↔ entry.Determines store := by
  unfold Entry.stores
  rw [List.mem_append, List.mem_append, mem_copyBytes, mem_copyBytes, List.mem_map]
  constructor
  · rintro ((⟨field, _, rfl⟩ | ⟨index, value, here, rfl⟩) | ⟨index, value, here, rfl⟩)
    · rfl
    · exact here
    · exact here
  · intro determined
    cases store with
    | word field value =>
      refine .inl (.inl ⟨field, mem_writeOrder field, ?_⟩)
      rw [show value = entry.word field from determined]
    | byte channel index value =>
      cases channel with
      | delegate => exact .inl (.inr ⟨index, value, determined, rfl⟩)
      | print => exact .inr ⟨index, value, determined, rfl⟩

/-- A store shows in its slot, and spoils nothing else that the entry determines. -/
theorem Ring.write_shows {entry : Entry} {ring : Ring} {store store' : Store}
    (determined : entry.Determines store) (determined' : entry.Determines store')
    (shows : ring.Shows slot store ∨ store = store') :
    (ring.write slot store').Shows slot store := by
  rcases shows with shows | rfl
  · cases store with
    | word field value =>
      cases store' with
      | word field' value' =>
        dsimp only [Ring.write, Ring.Shows]
        rw [Function.update_self]
        by_cases same : field = field'
        · subst same
          rw [Function.update_self]
          exact Eq.trans determined' (Eq.symm determined)
        · rw [Function.update_of_ne same]
          exact shows
      | byte channel index value' => exact shows
    | byte channel index value =>
      cases store' with
      | word field' value' => exact shows
      | byte channel' index' value' =>
        dsimp only [Ring.write, Ring.Shows]
        rw [Function.update_self]
        by_cases same : channel = channel'
        · subst same
          rw [Function.update_self]
          by_cases here : index = index'
          · subst here
            rw [Function.update_self]
            exact Option.some.inj (Eq.trans (Eq.symm determined') determined)
          · rw [Function.update_of_ne here]
            exact shows
        · rw [Function.update_of_ne same]
          exact shows
  · cases store with
    | word field value =>
      dsimp only [Ring.write, Ring.Shows]
      rw [Function.update_self, Function.update_self]
    | byte channel index value =>
      dsimp only [Ring.write, Ring.Shows]
      rw [Function.update_self, Function.update_self, Function.update_self]

theorem Ring.write_other {ring : Ring} {other : Nat} (apart : slot ≠ other) {store store' : Store}
    (shows : ring.Shows slot store) :
    (ring.write other store').Shows slot store := by
  cases store with
  | word field value =>
    cases store' with
    | word field' value' =>
      dsimp only [Ring.write, Ring.Shows]
      rw [Function.update_of_ne apart]
      exact shows
    | byte channel index value' => exact shows
  | byte channel index value =>
    cases store' with
    | word field' value' => exact shows
    | byte channel' index' value' =>
      dsimp only [Ring.write, Ring.Shows]
      rw [Function.update_of_ne apart]
      exact shows

/-! ### What holds of every state -/

/-- The word for the number of bytes is their number. -/
def Entry.Formed (entry : Entry) : Prop :=
  ∀ channel, (entry.word (.used channel)).val = (entry.payload channel).length

namespace System

variable {layout : Layout} {sys next : System}

/-- The publication that a call is about. -/
def publication (sys : System) : Option Publication :=
  match sys.producer with
  | .prepared publication | .loaded publication _ | .writing publication _ _ _ => some publication
  | .idle => none

structure Sound (layout : Layout) (sys : System) : Prop where
  write : sys.ring.writeIndex = sys.written.length % 2 ^ 32
  read : sys.ring.readIndex = sys.drained.length % 2 ^ 32
  drained : sys.drained <+: sys.written
  bounded : sys.written.length ≤ sys.drained.length + layout.slotCount
  slots : ∀ (position : Nat) (entry : Entry), sys.drained.length ≤ position →
    sys.written[position]? = some entry → ∀ store, entry.Determines store →
      sys.ring.Shows (position % layout.slotCount) store
  formed : ∀ entry ∈ sys.written, entry.Formed
  since : ∀ channel, sys.since channel ≤ sys.written.length
  accounts : ∀ channel, sys.Accounts channel
  published : ∀ publication ∈ sys.publication, publication.entry.Formed ∧ ∀ channel,
    publication.entry.word (.transportDrops channel) = (sys.collection channel).pendingDrops ∧
      publication.entry.word (.overflow channel) =
        saturatedAdd (sys.collection channel).pendingOverflow (publication.overflow channel)
  loaded : ∀ publication read, sys.producer = .loaded publication read →
    ∃ seen, seen ≤ sys.drained.length ∧ read = seen % 2 ^ 32 ∧
      sys.written.length ≤ seen + layout.slotCount
  writing : ∀ publication write done left, sys.producer = .writing publication write done left →
    write = sys.written.length % 2 ^ 32 ∧
      sys.written.length < sys.drained.length + layout.slotCount ∧
      publication.entry.stores = done ++ left ∧
      ∀ store ∈ done, sys.ring.Shows (sys.written.length % layout.slotCount) store
  draining : ∀ read, sys.consumer = .loaded read → read = sys.drained.length % 2 ^ 32
  header : ∀ read left word, sys.consumer = .header read left word →
    read = sys.drained.length % 2 ^ 32 ∧ ∃ entry, sys.written[sys.drained.length]? = some entry ∧
      ∀ field, field ∉ left → word field = entry.word field
  payload : ∀ read word delegate print, sys.consumer = .payload read word delegate print →
    read = sys.drained.length % 2 ^ 32 ∧ ∃ entry, sys.written[sys.drained.length]? = some entry ∧
      word = entry.word ∧ delegate <+: entry.payload .delegate ∧ print <+: entry.payload .print

theorem slotCount_lt (layout : Layout) : layout.slotCount < 2 ^ 32 := by
  obtain ⟨k, lt, count⟩ := layout.power
  rw [count]
  exact Nat.pow_lt_pow_right (by omega) lt

/-- The slot of a position. -/
theorem slot_eq (layout : Layout) (position : Nat) :
    position % 2 ^ 32 % layout.slotCount = position % layout.slotCount := by
  obtain ⟨k, lt, count⟩ := layout.power
  rw [count]
  exact Nat.mod_mod_of_dvd _ (Nat.pow_dvd_pow 2 (by omega))

/-! ### Accounts -/

theorem saturates_zero : Saturates 0 0 := rfl

theorem Saturates.add {word : Word} {count : Nat} (saturates : Saturates word count) (more : Word) :
    Saturates (saturatedAdd word more) (count + more.val) := by
  unfold Saturates at saturates ⊢
  dsimp only [saturatedAdd]
  have lt := more.isLt
  omega

variable {channel : Channel} {word : Field → Word} {bytes delegate print : List Byte}
  {done : List Store} {read : Nat} {publication : Publication}

/-- Neither the ring nor what was drained is in the accounts. -/
theorem Accounts.frame (accounts : sys.Accounts channel) (ring : Ring) (producer : Producer)
    (consumer : Consumer) (drained : List Entry) :
    System.Accounts { sys with ring, producer, consumer, drained } channel where
  records := accounts.records
  overflows := accounts.overflows

/-- What an operation produced is kept for a later entry. -/
theorem Accounts.keep {channel : Channel} (accounts : sys.Accounts channel)
    (publication : Publication)
    : (sys.keep publication).Accounts channel where
  records := by
    obtain ⟨drops, pending, reported, waits, total⟩ := accounts.records
    refine ⟨drops, _, reported, waits.add _, ?_⟩
    dsimp only [System.keep, System.count]
    omega
  overflows := by
    obtain ⟨counts, pending, reported, waits, total⟩ := accounts.overflows
    refine ⟨counts, _, reported, waits.add _, ?_⟩
    dsimp only [System.keep, System.count]
    omega

/-- What an operation produced is in an entry, with what was kept before. -/
theorem Accounts.commit (accounts : sys.Accounts channel)
    (since : sys.since channel ≤ sys.written.length)
    (drops_eq : publication.entry.word (.transportDrops channel) =
      (sys.collection channel).pendingDrops)
    (overflow_eq : publication.entry.word (.overflow channel) =
      saturatedAdd (sys.collection channel).pendingOverflow (publication.overflow channel))
    (write : Nat) : (sys.commit publication write).Accounts channel := by
  have shape : (sys.commit publication write).written.drop ((sys.commit publication write).since channel) =
      sys.written.drop (sys.since channel) ++ [publication.entry] :=
    List.drop_append_of_le_length since
  refine ⟨?_, ?_⟩
  · obtain ⟨drops, pending, reported, waits, total⟩ := accounts.records
    rw [← drops_eq] at waits
    refine ⟨drops ++ [pending], 0, ?_, saturates_zero, ?_⟩
    · rw [shape]
      exact List.rel_append reported (.cons waits .nil)
    · rw [shape, List.map_append, List.sum_append, List.sum_append]
      dsimp only [System.commit, System.count]
      rw [List.map_singleton, List.sum_singleton, List.sum_singleton]
      omega
  · obtain ⟨counts, pending, reported, waits, total⟩ := accounts.overflows
    have reports := waits.add (publication.overflow channel)
    rw [← overflow_eq] at reports
    refine ⟨counts ++ [pending + (publication.overflow channel).val], 0, ?_, saturates_zero, ?_⟩
    · rw [shape]
      exact List.rel_append reported (.cons reports .nil)
    · rw [List.sum_append]
      dsimp only [System.commit, System.count]
      rw [List.sum_singleton]
      omega

/-! ### Steps of the producer -/

/-- A call on the ring that has ended leaves the ring to the consumer. -/
theorem Sound.ended (sound : Sound layout sys) {next : System} (ring : next.ring = sys.ring)
    (consumer : next.consumer = sys.consumer) (written : next.written = sys.written)
    (drained : next.drained = sys.drained) (since : next.since = sys.since)
    (idle : next.producer = .idle) (accounts : ∀ channel, next.Accounts channel) :
    Sound layout next where
  write := by rw [ring, written]; exact sound.write
  read := by rw [ring, drained]; exact sound.read
  drained := by rw [written, drained]; exact sound.drained
  bounded := by rw [written, drained]; exact sound.bounded
  slots := by rw [ring, written, drained]; exact sound.slots
  formed := by rw [written]; exact sound.formed
  since := by rw [written, since]; exact sound.since
  accounts := accounts
  published := fun publication mem => by
    unfold System.publication at mem
    rw [idle] at mem
    cases mem
  loaded := fun _ _ phase => by rw [idle] at phase; cases phase
  writing := fun _ _ _ _ phase => by rw [idle] at phase; cases phase
  draining := by rw [consumer, drained]; exact sound.draining
  header := by rw [consumer, written, drained]; exact sound.header
  payload := by rw [consumer, written, drained]; exact sound.payload

theorem entry_formed (sys : System) (output : Output layout) : (sys.entry output).Formed :=
  fun _ => rfl

theorem Sound.publish (sound : Sound layout sys) (output : Output layout) :
    Sound layout (sys.publish output) := by
  unfold System.publish
  split
  · exact sound
  · split
    · exact sound
    · exact
        { sound with
          accounts := fun channel => (sound.accounts channel).frame _ _ _ _
          published := fun publication mem => by
            obtain rfl := Option.some.inj mem
            exact ⟨entry_formed sys output, fun channel => ⟨rfl, rfl⟩⟩
          loaded := fun _ _ phase => by cases phase
          writing := fun _ _ _ _ phase => by cases phase }

/-- The entry of a publication is in its slot. -/
theorem Sound.commit (sound : Sound layout sys) {write : Nat}
    (phase : sys.producer = .writing publication write done []) :
    Sound layout (sys.commit publication write) := by
  obtain ⟨value, room, stores, shown⟩ := sound.writing publication write done [] phase
  rw [List.append_nil] at stores
  obtain ⟨formed, reports⟩ := sound.published publication (by
    unfold System.publication
    rw [phase]
    rfl)
  have before : ∀ (position : Nat) (entry : Entry), sys.written[position]? = some entry →
      (sys.written ++ [publication.entry])[position]? = some entry := by
    intro position entry here
    obtain ⟨inside, -⟩ := List.getElem?_eq_some_iff.mp here
    rw [List.getElem?_append_left inside, here]
  refine
    { write := ?_
      read := sound.read
      drained := sound.drained.trans (List.prefix_append _ _)
      bounded := ?_
      slots := ?_
      formed := ?_
      since := fun channel => Nat.le_trans (sound.since channel) (by simp [System.commit])
      accounts := fun channel => (sound.accounts channel).commit (sound.since channel)
        (reports channel).1 (reports channel).2 write
      published := fun _ mem => by cases mem
      loaded := fun _ _ phase => by cases phase
      writing := fun _ _ _ _ phase => by cases phase
      draining := sound.draining
      header := ?_
      payload := ?_ }
  · dsimp only [System.commit, System.count]
    rw [value, Nat.mod_add_mod, List.length_append, List.length_singleton]
  · dsimp only [System.commit, System.count]
    rw [List.length_append, List.length_singleton]
    exact room
  · intro position entry above here store determined
    dsimp only [System.commit, System.count] at above here ⊢
    rw [List.getElem?_append] at here
    split at here
    · exact sound.slots position entry above here store determined
    · rename_i beyond
      obtain ⟨inside, same⟩ := List.getElem?_eq_some_iff.mp here
      rw [List.length_singleton] at inside
      obtain rfl : position = sys.written.length := by omega
      rw [List.getElem_singleton] at same
      refine shown store ?_
      rw [← stores, Entry.mem_stores, same]
      exact determined
  · intro entry mem
    rcases List.mem_append.mp mem with mem | mem
    · exact sound.formed entry mem
    · rw [List.mem_singleton.mp mem]
      exact formed
  · intro read left word phase'
    obtain ⟨read_eq, entry, here, words⟩ := sound.header read left word phase'
    exact ⟨read_eq, entry, before _ entry here, words⟩
  · intro read word delegate print phase'
    obtain ⟨read_eq, entry, here, same⟩ := sound.payload read word delegate print phase'
    exact ⟨read_eq, entry, before _ entry here, same⟩

/-- A store goes to a slot that is not unread. -/
theorem Sound.store (sound : Sound layout sys) {write : Nat} {left : List Store} {store : Store}
    (phase : sys.producer = .writing publication write done (store :: left)) :
    Sound layout { sys with
      ring := sys.ring.write (write % layout.slotCount) store
      producer := .writing publication write (done ++ [store]) left } := by
  obtain ⟨value, room, stores, shown⟩ := sound.writing publication write done _ phase
  have determined : ∀ store' ∈ done ++ store :: left, publication.entry.Determines store' := by
    intro store' mem
    rw [← stores, Entry.mem_stores] at mem
    exact mem
  have slot : write % layout.slotCount = sys.written.length % layout.slotCount := by
    rw [value, slot_eq]
  have indices : (sys.ring.write (write % layout.slotCount) store).writeIndex =
      sys.ring.writeIndex ∧ (sys.ring.write (write % layout.slotCount) store).readIndex =
        sys.ring.readIndex := by
    cases store with
    | word field value => exact ⟨rfl, rfl⟩
    | byte channel index value => exact ⟨rfl, rfl⟩
  refine
    { sound with
      write := indices.1.trans sound.write
      read := indices.2.trans sound.read
      accounts := fun channel => (sound.accounts channel).frame _ _ _ _
      slots := ?_
      published := fun publication' mem => sound.published publication' (by
        obtain rfl := Option.some.inj mem
        unfold System.publication
        rw [phase]
        rfl)
      loaded := fun _ _ phase => by cases phase
      writing := ?_ }
  · intro position entry above here store' determined'
    obtain ⟨inside, -⟩ := List.getElem?_eq_some_iff.mp here
    refine Ring.write_other ?_ (sound.slots position entry above here store' determined')
    rw [slot]
    exact Window.cell_ne inside (Nat.lt_of_lt_of_le room (Nat.add_le_add_right above _))
  · intro publication' write' done' left' phase'
    cases phase'
    refine ⟨value, room, by rw [stores, List.append_assoc, List.singleton_append],
      fun store' mem => ?_⟩
    dsimp only
    rw [slot]
    refine Ring.write_shows (determined store' ?_) (determined store (by simp)) ?_
    · rcases List.mem_append.mp mem with old | new
      · exact List.mem_append_left _ old
      · rw [List.mem_singleton.mp new]
        simp
    · rcases List.mem_append.mp mem with old | new
      · exact .inl (shown store' old)
      · exact .inr (List.mem_singleton.mp new)

theorem Sound.producerStep (sound : Sound layout sys)
    (stepped : sys.producerStep layout = some next) : Sound layout next := by
  unfold System.producerStep at stepped
  split at stepped
  · cases stepped
  · rename_i publication phase
    obtain rfl := Option.some.inj stepped
    exact
      { sound with
        accounts := fun channel => (sound.accounts channel).frame _ _ _ _
        published := fun publication' mem => sound.published publication' (by
          obtain rfl := Option.some.inj mem
          unfold System.publication
          rw [phase]
          rfl)
        loaded := fun _ _ phase => by
          cases phase
          exact ⟨sys.drained.length, Nat.le_refl _, sound.read, sound.bounded⟩
        writing := fun _ _ _ _ phase => by cases phase }
  · rename_i publication read phase
    obtain ⟨seen, le, value, near⟩ := sound.loaded publication read phase
    split at stepped
    · obtain rfl := Option.some.inj stepped
      exact sound.ended rfl rfl rfl rfl rfl rfl fun channel =>
        (sound.accounts channel).keep publication
    · rename_i space
      obtain rfl := Option.some.inj stepped
      have ordered := sound.drained.length_le
      have count := slotCount_lt layout
      rw [sound.write, value,
        Window.word_distance (by omega) (by omega : sys.written.length - seen < 2 ^ 32)] at space
      exact
        { sound with
          accounts := fun channel => (sound.accounts channel).frame _ _ _ _
          published := fun publication' mem => sound.published publication' (by
            obtain rfl := Option.some.inj mem
            unfold System.publication
            rw [phase]
            rfl)
          loaded := fun _ _ phase => by cases phase
          writing := fun _ _ _ _ phase => by
            cases phase
            refine ⟨sound.write, ?_, rfl, fun _ mem => by cases mem⟩
            dsimp only
            omega }
  · rename_i publication write done store left phase
    obtain rfl := Option.some.inj stepped
    exact sound.store phase
  · rename_i publication write done phase
    obtain rfl := Option.some.inj stepped
    exact sound.commit phase

/-! ### Steps of the consumer -/

/-- The cells of the entry that is read. -/
theorem Sound.cell (sound : Sound layout sys) {entry : Entry}
    (here : sys.written[sys.drained.length]? = some entry)
    (value : read = sys.drained.length % 2 ^ 32) {store : Store}
    (determined : entry.Determines store) :
    sys.ring.Shows (read % layout.slotCount) store := by
  rw [value, slot_eq]
  exact sound.slots _ entry (Nat.le_refl _) here store determined

theorem prefix_next {all : List Byte} (shown : bytes <+: all) {value : Byte}
    (next : all[bytes.length]? = some value) : bytes ++ [value] <+: all := by
  obtain ⟨rest, rfl⟩ := shown
  rw [List.getElem?_append_right (Nat.le_refl _), Nat.sub_self] at next
  rcases rest with _ | ⟨head, rest⟩
  · cases next
  · obtain rfl := Option.some.inj next
    exact ⟨rest, by simp⟩

/-- The entry is read, and its slot is free. -/
theorem Sound.deliver (sound : Sound layout sys)
    (phase : sys.consumer = .payload read word delegate print)
    (all : (word (.used .delegate)).val ≤ delegate.length)
    (all' : (word (.used .print)).val ≤ print.length) {payload : Channel → List Byte}
    (delegates : payload .delegate = delegate) (prints : payload .print = print) :
    Sound layout { sys with
      ring := { sys.ring with readIndex := (read + 1) % 2 ^ 32 }
      consumer := .idle
      drained := sys.drained ++ [⟨word, payload⟩] } := by
  obtain ⟨value, entry, here, rfl, shown, shown'⟩ := sound.payload read word delegate print phase
  have formed := sound.formed entry (List.mem_of_getElem? here)
  have payloads : payload = entry.payload := by
    funext channel
    cases channel with
    | delegate =>
      rw [delegates]
      exact shown.eq_of_length_le (by rw [← formed .delegate]; exact all)
    | print =>
      rw [prints]
      exact shown'.eq_of_length_le (by rw [← formed .print]; exact all')
  subst payloads
  have longer : sys.drained ++ [entry] <+: sys.written := by
    obtain ⟨rest, split⟩ := sound.drained
    rw [← split, List.getElem?_append_right (Nat.le_refl _), Nat.sub_self] at here
    rcases rest with _ | ⟨head, rest⟩
    · cases here
    · obtain rfl := Option.some.inj here
      exact ⟨rest, by rw [← split]; simp⟩
  refine
    { sound with
      accounts := fun channel => (sound.accounts channel).frame _ _ _ _
      read := ?_
      drained := longer
      bounded := ?_
      slots := fun position other above => sound.slots position other ?_
      loaded := ?_
      writing := ?_
      draining := fun _ phase => by cases phase
      header := fun _ _ _ phase => by cases phase
      payload := fun _ _ _ _ phase => by cases phase }
  · dsimp only
    rw [value, Nat.mod_add_mod, List.length_append, List.length_singleton]
  · have bounded := sound.bounded
    dsimp only
    rw [List.length_append]
    omega
  · dsimp only at above
    rw [List.length_append] at above
    omega
  · intro publication read' phase'
    obtain ⟨seen, le, value', near⟩ := sound.loaded publication read' phase'
    refine ⟨seen, ?_, value', near⟩
    dsimp only
    rw [List.length_append]
    omega
  · intro publication write done left phase'
    obtain ⟨value', room, rest⟩ := sound.writing publication write done left phase'
    refine ⟨value', ?_, rest⟩
    dsimp only
    rw [List.length_append]
    omega

/-- The consumer reads the header of an entry that it has not drained. -/
theorem Sound.openEntry (sound : Sound layout sys) (phase : sys.consumer = .loaded read)
    (unread : read ≠ sys.ring.writeIndex) (word : Field → Word) :
    Sound layout { sys with consumer := .header read readOrder word } := by
  have value := sound.draining read phase
  have inside : sys.drained.length < sys.written.length := by
    refine Nat.lt_of_le_of_ne sound.drained.length_le fun same => unread ?_
    rw [value, sound.write, same]
  exact
    { sound with
      accounts := fun channel => (sound.accounts channel).frame _ _ _ _
      draining := fun _ phase => by cases phase
      header := fun _ _ _ phase => by
        cases phase
        -- every field is still to be read
        exact ⟨value, _, List.getElem?_eq_getElem inside,
          fun field away => absurd (mem_readOrder field) away⟩
      payload := fun _ _ _ _ phase => by cases phase }

/-- One word of the header is read. -/
theorem Sound.readWord (sound : Sound layout sys) {field : Field} {left : List Field}
    (phase : sys.consumer = .header read (field :: left) word) :
    Sound layout { sys with
      consumer := .header read left
        (Function.update word field (sys.ring.words (read % layout.slotCount) field)) } := by
  obtain ⟨value, entry, here, words⟩ := sound.header read _ word phase
  have determined : entry.Determines (.word field (entry.word field)) := rfl
  have shown : sys.ring.words (read % layout.slotCount) field = entry.word field :=
    sound.cell here value determined
  exact
    { sound with
      accounts := fun channel => (sound.accounts channel).frame _ _ _ _
      draining := fun _ phase => by cases phase
      header := fun _ _ _ phase => by
        cases phase
        refine ⟨value, entry, here, fun other away => ?_⟩
        by_cases same : other = field
        · subst same
          rw [Function.update_self, shown]
        · rw [Function.update_of_ne same]
          refine words other fun mem => ?_
          rcases List.mem_cons.mp mem with now | later
          · exact same now
          · exact away later
      payload := fun _ _ _ _ phase => by cases phase }

/-- The header is read. -/
theorem Sound.openPayload (sound : Sound layout sys) (phase : sys.consumer = .header read [] word) :
    Sound layout { sys with consumer := .payload read word [] [] } := by
  obtain ⟨value, entry, here, words⟩ := sound.header read _ word phase
  exact
    { sound with
      accounts := fun channel => (sound.accounts channel).frame _ _ _ _
      draining := fun _ phase => by cases phase
      header := fun _ _ _ phase => by cases phase
      payload := fun _ _ _ _ phase => by
        cases phase
        exact ⟨value, entry, here, funext fun field => words field (by simp),
          List.nil_prefix, List.nil_prefix⟩ }

/-- The next byte of a payload is the one in its slot. -/
theorem Sound.nextByte (sound : Sound layout sys) {entry : Entry}
    (here : sys.written[sys.drained.length]? = some entry)
    (value : read = sys.drained.length % 2 ^ 32) (shown : bytes <+: entry.payload channel)
    (more : bytes.length < (entry.word (.used channel)).val) :
    bytes ++ [sys.ring.bytes (read % layout.slotCount) channel bytes.length] <+:
      entry.payload channel := by
  have formed := sound.formed entry (List.mem_of_getElem? here)
  have inside : bytes.length < (entry.payload channel).length := by
    rw [← formed channel]
    exact more
  have determined : entry.Determines (.byte channel bytes.length _) :=
    List.getElem?_eq_getElem inside
  have byte := sound.cell here value determined
  refine prefix_next shown ?_
  rw [List.getElem?_eq_getElem inside]
  exact congrArg some byte.symm

/-- One byte of the delegates is read. -/
theorem Sound.readDelegate (sound : Sound layout sys)
    (phase : sys.consumer = .payload read word delegate print)
    (more : delegate.length < (word (.used .delegate)).val) :
    Sound layout { sys with
      consumer := .payload read word
        (delegate ++ [sys.ring.bytes (read % layout.slotCount) .delegate delegate.length])
        print } := by
  obtain ⟨value, entry, here, rfl, shown, shown'⟩ :=
    sound.payload read word delegate print phase
  exact
    { sound with
      accounts := fun channel => (sound.accounts channel).frame _ _ _ _
      draining := fun _ phase => by cases phase
      header := fun _ _ _ phase => by cases phase
      payload := fun _ _ _ _ phase => by
        cases phase
        exact ⟨value, entry, here, rfl, sound.nextByte here value shown more, shown'⟩ }

/-- One byte of the prints is read. -/
theorem Sound.readPrint (sound : Sound layout sys)
    (phase : sys.consumer = .payload read word delegate print)
    (more : print.length < (word (.used .print)).val) :
    Sound layout { sys with
      consumer := .payload read word delegate
        (print ++ [sys.ring.bytes (read % layout.slotCount) .print print.length]) } := by
  obtain ⟨value, entry, here, rfl, shown, shown'⟩ :=
    sound.payload read word delegate print phase
  exact
    { sound with
      accounts := fun channel => (sound.accounts channel).frame _ _ _ _
      draining := fun _ phase => by cases phase
      header := fun _ _ _ phase => by cases phase
      payload := fun _ _ _ _ phase => by
        cases phase
        exact ⟨value, entry, here, rfl, shown, sound.nextByte here value shown' more⟩ }

theorem Sound.consumerStep (sound : Sound layout sys)
    (stepped : sys.consumerStep layout = some next) : Sound layout next := by
  unfold System.consumerStep at stepped
  split at stepped
  · cases stepped
  · rename_i read phase
    split at stepped
    · obtain rfl := Option.some.inj stepped
      exact
        { sound with
          accounts := fun channel => (sound.accounts channel).frame _ _ _ _
          draining := fun _ phase => by cases phase
          header := fun _ _ _ phase => by cases phase
          payload := fun _ _ _ _ phase => by cases phase }
    · rename_i unread
      obtain rfl := Option.some.inj stepped
      exact sound.openEntry phase unread _
  · rename_i read field left word phase
    obtain rfl := Option.some.inj stepped
    exact sound.readWord phase
  · rename_i read word phase
    obtain rfl := Option.some.inj stepped
    exact sound.openPayload phase
  · rename_i read word delegate print phase
    split at stepped
    · rename_i more
      obtain rfl := Option.some.inj stepped
      exact sound.readDelegate phase more
    · rename_i all
      split at stepped
      · rename_i more
        obtain rfl := Option.some.inj stepped
        exact sound.readPrint phase more
      · rename_i all'
        obtain rfl := Option.some.inj stepped
        exact sound.deliver phase (Nat.le_of_not_lt all) (Nat.le_of_not_lt all') rfl rfl

/-! ### Runs -/

theorem Sound.subscribe (sound : Sound layout sys) (idle : sys.producer = .idle)
    (channel : Channel) (enabled : Bool) (subscriptionId : Word) :
    Sound layout { sys with
      collection := Function.update sys.collection channel ⟨enabled, subscriptionId, 0, 0⟩
      produced := Function.update sys.produced channel 0
      overflowed := Function.update sys.overflowed channel 0
      since := Function.update sys.since channel sys.written.length } := by
  refine
    { sound with
      since := fun other => ?_
      accounts := fun other => ?_
      published := fun publication mem => ?_ }
  · by_cases same : other = channel
    · subst same
      simp
    · dsimp only
      rw [Function.update_of_ne same]
      exact sound.since other
  · by_cases same : other = channel
    · subst same
      refine ⟨⟨[], 0, ?_, ?_, ?_⟩, ⟨[], 0, ?_, ?_, ?_⟩⟩ <;> simp [saturates_zero]
    · obtain ⟨⟨drops, pending, reported, waits, total⟩,
        ⟨counts, pending', reported', waits', total'⟩⟩ := sound.accounts other
      refine ⟨⟨drops, pending, ?_, ?_, ?_⟩, ⟨counts, pending', ?_, ?_, ?_⟩⟩
      · simpa only [Function.update_of_ne same] using reported
      · simpa only [Function.update_of_ne same] using waits
      · simpa only [Function.update_of_ne same] using total
      · simpa only [Function.update_of_ne same] using reported'
      · simpa only [Function.update_of_ne same] using waits'
      · simpa only [Function.update_of_ne same] using total'
  · unfold System.publication at mem
    rw [idle] at mem
    cases mem

theorem Sound.step (sound : Sound layout sys) {action : Action layout}
    (stepped : sys.step layout action = some next) : Sound layout next := by
  cases action with
  | subscribe channel enabled subscriptionId =>
    rw [System.step] at stepped
    split at stepped
    · rename_i idle
      obtain rfl := Option.some.inj stepped
      exact sound.subscribe idle channel enabled subscriptionId
    all_goals cases stepped
  | publish output =>
    rw [System.step] at stepped
    split at stepped
    · obtain rfl := Option.some.inj stepped
      exact sound.publish output
    all_goals cases stepped
  | producer => exact sound.producerStep stepped
  | drain =>
    rw [System.step] at stepped
    split at stepped
    · obtain rfl := Option.some.inj stepped
      exact
        { sound with
          accounts := fun channel => (sound.accounts channel).frame _ _ _ _
          draining := fun _ phase => by
            cases phase
            exact sound.read
          header := fun _ _ _ phase => by cases phase
          payload := fun _ _ _ _ phase => by cases phase }
    all_goals cases stepped
  | consumer => exact sound.consumerStep stepped

theorem Initial.sound (initial : sys.Initial) : Sound layout sys := by
  obtain ⟨read, write, producer, consumer, written, drained, zero⟩ := initial
  refine
    { write := by rw [write, written]; rfl
      read := by rw [read, drained]; rfl
      drained := by rw [written, drained]
      bounded := by rw [written]; exact Nat.zero_le _
      slots := fun position entry _ here => by rw [written] at here; cases here
      formed := fun entry mem => by rw [written] at mem; cases mem
      since := fun channel => by rw [(zero channel).2.2.2.2]; exact Nat.zero_le _
      accounts := fun channel => ?_
      published := fun publication mem => by
        unfold System.publication at mem
        rw [producer] at mem
        cases mem
      loaded := fun _ _ phase => by rw [producer] at phase; cases phase
      writing := fun _ _ _ _ phase => by rw [producer] at phase; cases phase
      draining := fun _ phase => by rw [consumer] at phase; cases phase
      header := fun _ _ _ phase => by rw [consumer] at phase; cases phase
      payload := fun _ _ _ _ phase => by rw [consumer] at phase; cases phase }
  obtain ⟨drops, overflow, produced, overflowed, since⟩ := zero channel
  refine ⟨⟨[], 0, ?_, ?_, ?_⟩, ⟨[], 0, ?_, ?_, ?_⟩⟩ <;>
    simp [written, drops, overflow, produced, overflowed, saturates_zero]

theorem Sound.delivers (sound : Sound layout sys) : sys.Delivers layout where
  drained := sound.drained
  bounded := sound.bounded
  writes := by
    intro slot mem position above below
    unfold nextWrite at mem
    split at mem
    · rename_i publication write done store left phase
      obtain rfl := Option.some.inj mem
      obtain ⟨value, room, -⟩ := sound.writing publication write done _ phase
      rw [value, slot_eq]
      exact (Window.cell_ne below (Nat.lt_of_lt_of_le room (Nat.add_le_add_right above _))).symm
    all_goals cases mem
  accounts := sound.accounts

end System

end Onda.WebAudio
