import Onda.Rendering.Schedule

/-!
# What the calls of a block leave

Each call adds its records to the areas of the session, behind the records of the calls before
it, with the numbers that follow theirs.
-/

namespace Onda.Rendering

open Effects
open Onda.Project (Platform)
open Onda.Runtime
open RunSession (ScheduledEvent)

variable {W S V X : Type}

namespace Collecting

/-- A generated call gets a batch for the channel. -/
def present (state : Collecting W S V X) (channel : Channel) : Bool :=
  state.collectionEnabled channel && !(state.areas channel).storage.isEmpty

/-- What calls have published into a batch. -/
def publications (state : Collecting W S V X) (calls : List (Issued X)) : List Publication :=
  collected state.present (calls.flatMap Issued.published)

/-- The output of some calls.  A failed call takes the delegates with it. -/
structure Holds (order : NativeU32) (calls : List (Issued X)) (result : Except Stop Unit)
    (state : Collecting W S V X) : Prop where
  prints : (state.areas .print).Keeps order (offered .print (state.publications calls) 0)
  delegates : (state.areas .delegate).Keeps order
    (match result with
      | .ok () => offered .delegate (state.publications calls) 0
      | .error _ => [])

end Collecting

theorem collected_append (present : Channel → Bool) (earlier later : List Publication) :
    collected present (earlier ++ later) = collected present earlier ++ collected present later :=
  List.filter_append earlier later

variable {channel : Channel} {present : Channel → Bool} {output : ExecutionOutput}
  {order : NativeU32}

/-- A channel without a batch is offered nothing. -/
theorem offered_absent (absent : present channel = false) (publications : List Publication)
    (start : Nat) :
    offered channel (collected present publications) start = [] := by
  induction publications generalizing start with
  | nil => rfl
  | cons publication publications ih =>
    unfold collected at ih ⊢
    cases here : present publication.channel with
    | false =>
      rw [List.filter_cons_of_neg (by simp [here])]
      exact ih start
    | true =>
      have other : publication.channel ≠ channel := by
        rintro rfl
        rw [absent] at here
        cases here
      rw [List.filter_cons_of_pos (by simpa using here), offered_cons, if_neg other]
      exact ih (start + 1)

/-- `output_sequence_count` counts the publications of a call. -/
theorem ExecutionOutput.Numbers.count {sizes : Channel → Nat} {publications : List Publication}
    (numbers : output.Numbers order present sizes publications) :
    Collecting.outputSequenceCount (output.batches .delegate) (output.batches .print)
      = min (collected present publications).length u32Max := by
  -- The counts of a batch add up to what it was offered.
  have parts : ∀ channel, ∃ kept lost,
      ((output.batches channel).map Batch.recordCount).getD 0 = kept
        ∧ ((output.batches channel).map Batch.overflowCount).getD 0 = min lost u32Max
        ∧ kept + lost = (offered channel (collected present publications) 0).length := by
    intro channel
    cases here : present channel with
    | false =>
      rw [numbers.absent channel here, offered_absent here]
      exact ⟨0, 0, rfl, rfl, rfl⟩
    | true =>
      obtain ⟨batch, found, -, keeps⟩ := numbers.batch channel here
      obtain ⟨kept, sublist, -, counted, lost⟩ := keeps.kept
      rw [found]
      exact ⟨_, _, counted, lost, Nat.add_sub_cancel' sublist.length_le⟩
  obtain ⟨delegates, delegatesLost, delegateCount, delegateOverflow, delegateTotal⟩ :=
    parts .delegate
  obtain ⟨prints, printsLost, printCount, printOverflow, printTotal⟩ := parts .print
  have total := length_offered (collected present publications) 0
  unfold Collecting.outputSequenceCount
  rw [delegateCount, delegateOverflow, printCount, printOverflow]
  unfold saturatingAdd
  generalize u32Max = limit
  omega

/-- The next call starts with empty batches. -/
theorem Collecting.executionOutput_numbers (order : NativeU32) (state : Collecting W S V X) :
    state.executionOutput.Numbers order state.present
      (fun channel => (state.areas channel).storage.length - (state.areas channel).used) [] := by
  refine ⟨rfl, fun channel absent => ?_, fun channel wanted => ?_⟩
  · unfold present at absent
    refine if_pos ?_
    rw [Bool.or_eq_true]
    rcases Bool.and_eq_false_iff.1 absent with disabled | empty
    · exact .inl (by rw [disabled]; rfl)
    · exact .inr (by simpa using empty)
  · unfold present at wanted
    refine ⟨Batch.fromStorage _, if_neg (by simpa using wanted), List.length_drop,
      Batch.keeps_fromStorage order _⟩

/-- **One call for one channel.** -/
theorem Collecting.finish_keeps {state : Collecting W S V X} {earlier published : List Publication}
    (keeps : (state.areas channel).Keeps order (offered channel (collected state.present earlier) 0))
    (numbers : output.Numbers order state.present
      (fun channel => (state.areas channel).storage.length - (state.areas channel).used) published) :
    let finished := (state.areas channel).finish order
      (min (collected state.present earlier).length u32Max) (output.batches channel)
    finished.Keeps order (offered channel (collected state.present (earlier ++ published)) 0)
      ∧ finished.storage.length = (state.areas channel).storage.length := by
  rw [collected_append, offered_append, Nat.zero_add]
  cases here : state.present channel with
  | false =>
    rw [numbers.absent channel here, offered_absent here, offered_absent here]
    rw [offered_absent here] at keeps
    rw [Area.finish_none keeps _ keeps.counts_le.1 keeps.counts_le.2]
    exact ⟨keeps, rfl⟩
  | true =>
    obtain ⟨batch, found, size, fresh⟩ := numbers.batch channel here
    rw [found]
    exact keeps.finish _ size fresh

namespace Collecting

variable (order : NativeU32) (publishes : Active W → Active W → List Publication)
  (platform : Platform) (code : GeneratedCode W) (program : JitProgram)
  (host : HostValues W S V X)

variable {state state' : Collecting W S V X}

/-- Whether a channel is present depends on the size of its storage only. -/
theorem present_congr (enabled : state'.delegateCollectionEnabled = state.delegateCollectionEnabled)
    (sizes : ∀ channel, (state'.areas channel).storage.length
      = (state.areas channel).storage.length) :
    state'.present = state.present := by
  funext channel
  have empty : (state'.areas channel).storage.isEmpty = (state.areas channel).storage.isEmpty := by
    rw [Bool.eq_iff_iff, List.isEmpty_iff_length_eq_zero, List.isEmpty_iff_length_eq_zero,
      sizes channel]
  have enabled : state'.collectionEnabled channel = state.collectionEnabled channel := by
    cases channel
    · exact enabled
    · rfl
  unfold present
  rw [empty, enabled]

theorem publications_congr (same : state'.present = state.present) (calls : List (Issued X)) :
    state'.publications calls = state.publications calls := by
  rw [publications, same]
  rfl

theorem publications_append (state : Collecting W S V X) (calls : List (Issued X))
    (call : Issued X) :
    state.publications (calls ++ [call])
      = state.publications calls ++ collected state.present call.published := by
  rw [publications, List.flatMap_append, List.flatMap_singleton, collected_append]
  rfl

/-- What one call of a block does. -/
structure Step (issue : Issue X) (calls : List (Issued X)) (state : Collecting W S V X)
    (after : Except Stop Nat × Collecting W S V X) : Prop where
  present : after.2.present = state.present
  made : ∃ published,
    match after.1 with
    | .ok count => after.2.issued = state.issued ++ [⟨issue, published, none⟩]
      ∧ after.2.Holds order (calls ++ [⟨issue, published, none⟩]) (.ok ())
      ∧ saturatingAdd (min (state.publications calls).length u32Max) count
        = min (state.publications (calls ++ [⟨issue, published, none⟩])).length u32Max
    | .error stop => after.2.issued = state.issued ++ [⟨issue, published, some stop⟩]
      ∧ after.2.Holds order (calls ++ [⟨issue, published, some stop⟩]) (.error stop)

variable {order publishes}

/-- **One call.** -/
theorem inBatch_step {calls : List (Issued X)} (holds : state.Holds order calls (.ok ()))
    (issue : Issue X) (entry : SessionCall W S V Unit) :
    Step order issue calls state
      (inBatch order publishes issue entry (min (state.publications calls).length u32Max) state) := by
  unfold inBatch
  rcases entry state.session with ⟨result, session⟩
  dsimp only
  generalize publishes state.session.active session.active = published
  have numbers := (state.executionOutput_numbers order).publishAll published
  rw [List.nil_append] at numbers
  generalize state.executionOutput.publishAll order published = output at numbers
  -- Both areas keep what they are offered, and their size.
  have prints := Collecting.finish_keeps holds.prints numbers
  have delegates := Collecting.finish_keeps holds.delegates numbers
  rw [collected_append] at prints delegates
  cases result with
  | ok value =>
    cases value
    dsimp only
    generalize made : Collecting.mk session _ _ _ = after
    have same : after.present = state.present := by
      subst made
      refine present_congr rfl fun channel => ?_
      cases channel
      · exact delegates.2
      · exact prints.2
    refine ⟨same, published, by subst made; rfl, ⟨?_, ?_⟩, ?_⟩
    · rw [publications_congr same, publications_append]
      subst made
      exact prints.1
    · dsimp only
      rw [publications_congr same, publications_append]
      subst made
      exact delegates.1
    · rw [numbers.count, publications_append, List.length_append, saturatingAdd_min, Nat.add_comm]
  | error stop =>
    dsimp only
    generalize made : Collecting.mk session _ _ _ = after
    have same : after.present = state.present := by
      subst made
      refine present_congr rfl fun channel => ?_
      cases channel
      · exact delegates.2
      · exact prints.2
    refine ⟨same, published, by subst made; rfl, ⟨?_, ?_⟩⟩
    · rw [publications_congr same, publications_append]
      subst made
      exact prints.1
    · subst made
      exact Area.keeps_beginBatch order _

variable (order publishes)

/-- A call of the schedule. -/
def make (issue : Issue X) (sequenceBase : Nat) : RenderCall W S V X Nat :=
  match issue with
  | .segment startFrame frames flags =>
    processSegmentInBatch order publishes platform code startFrame frames flags sequenceBase
  | .event name values =>
    triggerEventInBatch order publishes code program host name values sequenceBase

/-- Calls in order, each in the sequence domain behind the ones before. -/
def makeAll : List (Issue X) → Nat → RenderCall W S V X Unit
  | [], _ => pure ()
  | issue :: issues, sequenceBase => do
    let count ← make order publishes platform code program host issue sequenceBase
    makeAll issues (saturatingAdd sequenceBase count)

end Collecting

/-- How far the calls were made: all of them, or up to the first that failed. -/
inductive Ended : List (Issue X) → List (Issued X) → Except Stop Unit → Prop where
  | done : Ended [] [] (.ok ())
  | made {issue : Issue X} {issues : List (Issue X)} {published : List Publication}
      {calls : List (Issued X)} {result : Except Stop Unit} :
      Ended issues calls result → Ended (issue :: issues) (⟨issue, published, none⟩ :: calls) result
  | failed (issue : Issue X) (issues : List (Issue X)) (published : List Publication) (stop : Stop) :
      Ended (issue :: issues) [⟨issue, published, some stop⟩] (.error stop)

namespace Ended

variable {issues : List (Issue X)} {calls : List (Issued X)}

end Ended

namespace Collecting

variable (order : NativeU32) (publishes : Active W → Active W → List Publication)
  (platform : Platform) (code : GeneratedCode W) (program : JitProgram)
  (host : HostValues W S V X)

/-- The event has a plan, and its values are encoded by it. -/
def Encodes (event : String × List X) : Prop :=
  ∃ encoded, RunSession.encodeRunEvent program host event.1 event.2 = .ok encoded

variable {order publishes platform code program host}

variable {state : Collecting W S V X}

theorem make_step {calls : List (Issued X)} {state : Collecting W S V X}
    (holds : state.Holds order calls (.ok ())) {issue : Issue X}
    (encodes : ∀ event ∈ Issue.events [issue], Encodes program host event) :
    Step order issue calls state
      (make order publishes platform code program host issue
        (min (state.publications calls).length u32Max) state) := by
  cases issue with
  | segment startFrame frames flags =>
    unfold make processSegmentInBatch
    exact inBatch_step holds _ _
  | event name values =>
    obtain ⟨encoded, encodes⟩ := encodes (name, values) List.mem_cons_self
    unfold make triggerEventInBatch
    dsimp only at encodes ⊢
    rw [encodes]
    exact inBatch_step holds _ _

/-- What the calls of a block do. -/
structure Run (order : NativeU32) (issues : List (Issue X)) (earlier : List (Issued X))
    (state : Collecting W S V X) (after : Except Stop Unit × Collecting W S V X) : Prop where
  present : after.2.present = state.present
  made : ∃ calls, after.2.issued = state.issued ++ calls ∧ Ended issues calls after.1
    ∧ after.2.Holds order (earlier ++ calls) after.1

/-- **A block's calls.** -/
theorem makeAll_run {issues : List (Issue X)} {earlier : List (Issued X)}
    {state : Collecting W S V X} (holds : state.Holds order earlier (.ok ()))
    (encodes : ∀ event ∈ Issue.events issues, Encodes program host event) :
    Run order issues earlier state
      (makeAll order publishes platform code program host issues
        (min (state.publications earlier).length u32Max) state) := by
  induction issues generalizing earlier state with
  | nil =>
    exact ⟨rfl, [], (List.append_nil _).symm, .done, (List.append_nil earlier).symm ▸ holds⟩
  | cons issue issues ih =>
    have split : Issue.events (issue :: issues) = Issue.events [issue] ++ Issue.events issues := by
      cases issue <;> rfl
    rw [split] at encodes
    have step := @make_step _ _ _ _ order publishes platform code program host _ _ holds issue
      fun event mem => encodes event (List.mem_append_left _ mem)
    unfold makeAll
    rcases call : make order publishes platform code program host issue
      (min (state.publications earlier).length u32Max) state with ⟨result, state'⟩
    rw [call] at step
    obtain ⟨present, published, made⟩ := step
    cases result with
    | ok count =>
      obtain ⟨logged, holds, count⟩ := made
      rw [Call.bind_ok call, count]
      rw [← publications_congr present]
      obtain ⟨later, calls, issued, ended, holds⟩ :=
        ih holds fun event mem => encodes event (List.mem_append_right _ mem)
      refine ⟨later.trans present, ⟨issue, published, none⟩ :: calls, ?_, .made ended, ?_⟩
      · rw [issued, logged, List.append_assoc, List.singleton_append]
      · rwa [List.append_assoc, List.singleton_append] at holds
    | error stop =>
      obtain ⟨logged, holds⟩ := made
      rw [Call.bind_error call]
      exact ⟨present, [⟨issue, published, some stop⟩], logged, .failed issue issues published stop,
        holds⟩

end Collecting

end Onda.Rendering
