import Onda.Playback.BufferWorker

/-!
# Loads respect command order

`Sound` says that a pending load whose revision is current belongs to the last command on its
name.  A refused bind advances the revision of its name as well, and so supersedes the loads of
that name that were accepted before it.
-/

namespace Onda.Playback

variable {C N B : Type}

/-! ### The log -/

theorem latest_last (log : List (Event C N)) (reply : C) (name : N) :
    Latest (log ++ [.bind reply name]) reply name :=
  ⟨log, [], rfl, fun _ mem => by cases mem⟩

variable {log : List (Event C N)}

theorem Latest.append {more : List (Event C N)} {reply : C} {name : N}
    (latest : Latest log reply name) (other : ∀ event ∈ more, ¬event.Commands name) :
    Latest (log ++ more) reply name := by
  obtain ⟨before, after, rfl, quiet⟩ := latest
  refine ⟨before, after ++ more, by simp, fun event mem => ?_⟩
  rcases List.mem_append.mp mem with mem | mem
  · exact quiet event mem
  · exact other event mem

/-- Every buffer that was installed was asked for by the last command on its name. -/
def InOrder (log : List (Event C N)) : Prop :=
  ∀ before reply name, before ++ [.installed reply name] <+: log → Latest before reply name

theorem InOrder.snoc (ordered : InOrder log) {event : Event C N}
    (installs : ∀ reply name, event = .installed reply name → Latest log reply name) :
    InOrder (log ++ [event]) := by
  intro before reply name here
  rcases List.prefix_concat_iff.mp here with all | earlier
  · obtain ⟨rfl, same⟩ := List.append_inj' all rfl
    exact installs reply name (List.singleton_inj.mp same).symm
  · exact ordered before reply name earlier

namespace BufferWorker

variable [DecidableEq N] {worker next : BufferWorker C N B}

/-- What holds of every state. -/
structure Sound (worker : BufferWorker C N B) : Prop where
  current : ∀ request ∈ worker.pending, request.revision ≤ worker.revisions request.name ∧
    (worker.revisions request.name = request.revision →
      Latest worker.log request.reply request.name)
  ordered : InOrder worker.log
  replies : (worker.log.filterMap Event.submitted).Perm
    (worker.log.filterMap Event.answered ++ worker.pending.map (·.reply))

omit [DecidableEq N] in
theorem initial_sound (installed : N → Option B) : (initial (C := C) installed).Sound where
  current := fun _ mem => by cases mem
  ordered := fun before reply name here => by
    have empty := List.prefix_nil.mp here
    simp at empty
  replies := List.Perm.refl _

theorem invalidate_eq {name : N} (bumped : worker.invalidate name = some next) :
    next = { worker with
      revisions := Function.update worker.revisions name (worker.revisions name + 1) } := by
  unfold invalidate at bumped
  split at bumped
  · exact (Option.some.inj bumped).symm
  · cases bumped

variable {action : Action C N B} {actions : List (Action C N B)} {more : List (Event C N)}
  {rest : List (LoadedBuffer C N B)} {request : LoadRequest C N} {loaded : LoadedBuffer C N B}

/-- A command on a name makes the loads of that name stale, and no others. -/
theorem Sound.bump (sound : worker.Sound) (name : N) (mem : request ∈ worker.pending)
    (others : ∀ other, other ≠ name → ∀ event ∈ more, ¬event.Commands other) :
    request.revision ≤
        Function.update worker.revisions name (worker.revisions name + 1) request.name ∧
      (Function.update worker.revisions name (worker.revisions name + 1) request.name =
          request.revision → Latest (worker.log ++ more) request.reply request.name) := by
  obtain ⟨le, latest⟩ := sound.current request mem
  by_cases same : request.name = name
  · subst same
    rw [Function.update_self]
    refine ⟨by omega, fun stale => ?_⟩
    omega
  · rw [Function.update_of_ne same]
    exact ⟨le, fun fresh => (latest fresh).append (others request.name same)⟩

omit [DecidableEq N] in
/-- The reply to a bind, and what happens to its buffer before. -/
theorem Sound.answer (sound : worker.Sound) (polled : worker.completed = loaded :: rest)
    (installed : N → Option B) (quiet : ∀ name, ∀ event ∈ more, ¬event.Commands name)
    (ordered : InOrder (worker.log ++ more)) (submitted : more.filterMap Event.submitted = [])
    (answered : more.filterMap Event.answered = [loaded.reply]) :
    Sound { worker with completed := rest, installed := installed, log := worker.log ++ more } := by
  have pending : worker.pending = loaded.toLoadRequest ::
      { worker with
        completed := rest, installed := installed, log := worker.log ++ more }.pending := by
    unfold BufferWorker.pending
    rw [polled]
    rfl
  refine ⟨fun request mem => ?_, ordered, ?_⟩
  · obtain ⟨le, latest⟩ := sound.current request (by
      rw [pending]
      exact List.mem_cons_of_mem _ mem)
    exact ⟨le, fun fresh => (latest fresh).append (quiet request.name)⟩
  · have replies := sound.replies
    rw [pending, List.map_cons] at replies
    dsimp only
    rw [List.filterMap_append, submitted, List.append_nil, List.filterMap_append, answered,
      List.append_assoc, List.singleton_append]
    exact replies

theorem Sound.complete (sound : worker.Sound) (polled : worker.completed = loaded :: rest)
    (replaced published : Bool) :
    ({ worker with completed := rest }.complete loaded replaced published).Sound := by
  have reply_ordered : ∀ {log : List (Event C N)}, InOrder log → ∀ result,
      InOrder (log ++ [.replied loaded.reply loaded.name result]) :=
    fun ordered result => ordered.snoc fun _ _ same => by cases same
  have only_reply : ∀ result installed, Sound { worker with
      completed := rest, installed := installed,
      log := worker.log ++ [.replied loaded.reply loaded.name result] } := fun result installed =>
    sound.answer polled installed
      (fun name event mem => by
        obtain rfl := List.mem_singleton.mp mem
        exact id)
      (reply_ordered sound.ordered result) rfl rfl
  unfold BufferWorker.complete
  split
  · rename_i fresh
    split
    · exact only_reply .error worker.installed
    · rename_i prepared _
      split
      · -- the buffer is installed: its bind is the last command on its name
        have latest : Latest worker.log loaded.reply loaded.name := by
          refine (sound.current loaded.toLoadRequest ?_).2 (of_decide_eq_true fresh)
          unfold BufferWorker.pending
          rw [polled]
          exact List.mem_cons_self
        refine sound.answer polled _ (fun name event mem => ?_) ?_ rfl rfl
        · rcases List.mem_pair.mp mem with rfl | rfl <;> exact id
        · rw [← List.singleton_append, ← List.append_assoc]
          refine reply_ordered (sound.ordered.snoc fun reply name same => ?_) _
          cases same
          exact latest
      · exact only_reply .error worker.installed
  · exact only_reply .superseded worker.installed

omit [DecidableEq N] in
/-- The loader moves a load, and changes nothing else. -/
theorem Sound.move (sound : worker.Sound) (same : next.pending = worker.pending)
    (revisions : next.revisions = worker.revisions) (log : next.log = worker.log) :
    next.Sound := by
  refine ⟨?_, ?_, ?_⟩
  · rw [same, revisions, log]
    exact sound.current
  · rw [log]
    exact sound.ordered
  · rw [same, log]
    exact sound.replies

theorem Sound.submit (sound : worker.Sound) (reply : C) (name : N) :
    Sound (submit { worker with
      revisions := Function.update worker.revisions name (worker.revisions name + 1) }
        reply name) := by
  have bind_ordered : InOrder (worker.log ++ [.bind reply name]) :=
    sound.ordered.snoc fun _ _ same => by cases same
  have others : ∀ other, other ≠ name → ∀ event ∈ [Event.bind reply name],
      ¬event.Commands other := by
    intro other apart event mem
    rw [List.mem_singleton.mp mem]
    exact fun same => apart same.symm
  unfold BufferWorker.submit
  split
  · have pending : BufferWorker.pending { worker with
        revisions := Function.update worker.revisions name (worker.revisions name + 1)
        requests := worker.requests ++
          [⟨name, Function.update worker.revisions name (worker.revisions name + 1) name, reply⟩]
        log := worker.log ++ [.bind reply name] } = worker.pending ++
          [⟨name, Function.update worker.revisions name (worker.revisions name + 1) name, reply⟩] := by
      unfold BufferWorker.pending
      exact (List.append_assoc _ _ _).symm
    refine ⟨fun request mem => ?_, bind_ordered, ?_⟩
    · rw [pending] at mem
      rcases List.mem_append.mp mem with mem | mem
      · exact sound.bump name mem others
      · rw [List.mem_singleton.mp mem]
        exact ⟨Nat.le_refl _, fun _ => latest_last worker.log reply name⟩
    · rw [pending, List.map_append]
      dsimp only
      rw [List.filterMap_append, List.filterMap_append, ← List.append_assoc]
      refine List.Perm.append ?_ (List.Perm.refl _)
      rw [show [Event.bind reply name].filterMap Event.answered = [] from rfl, List.append_nil]
      exact sound.replies
  · refine ⟨fun request mem => ?_, ?_, ?_⟩
    · refine sound.bump name mem fun other apart event mem => ?_
      rcases List.mem_pair.mp mem with rfl | rfl
      · exact fun same => apart same.symm
      · exact id
    · rw [← List.singleton_append, ← List.append_assoc]
      exact bind_ordered.snoc fun _ _ same => by cases same
    · dsimp only
      rw [List.filterMap_append, List.filterMap_append,
        show [Event.bind reply name, .replied reply name .error].filterMap Event.submitted =
          [reply] from rfl,
        show [Event.bind reply name, .replied reply name .error].filterMap Event.answered =
          [reply] from rfl]
      -- the refused bind is answered at once
      refine (sound.replies.append_right [reply]).trans ?_
      rw [List.append_assoc, List.append_assoc]
      exact List.perm_append_comm.append_left _

/-- Every step keeps the worker sound. -/
theorem Sound.step (sound : worker.Sound) (stepped : worker.step action = some next)
    : next.Sound := by
  cases action with
  | bind reply name =>
    obtain ⟨revised, bumped, rfl⟩ := Option.map_eq_some_iff.mp stepped
    rw [invalidate_eq bumped]
    exact sound.submit reply name
  | clear name replaced =>
    obtain ⟨revised, bumped, rfl⟩ := Option.map_eq_some_iff.mp stepped
    rw [invalidate_eq bumped]
    refine ⟨fun request mem => ?_, sound.ordered.snoc (fun _ _ same => by cases same), ?_⟩
    · refine sound.bump name mem fun other apart event mem => ?_
      rw [List.mem_singleton.mp mem]
      exact fun same => apart same.symm
    · dsimp only
      rw [List.filterMap_append, List.filterMap_append,
        show [(Event.clear name : Event C N)].filterMap Event.submitted = [] from rfl,
        show [(Event.clear name : Event C N)].filterMap Event.answered = [] from rfl,
        List.append_nil, List.append_nil]
      exact sound.replies
  | poll replaced published =>
    rw [BufferWorker.step] at stepped
    split at stepped
    · cases stepped
    · rename_i loaded rest polled
      obtain rfl := Option.some.inj stepped
      exact sound.complete polled replaced published
  | receive =>
    rw [BufferWorker.step] at stepped
    split at stepped
    · rename_i request rest waiting queued
      obtain rfl := Option.some.inj stepped
      refine sound.move ?_ rfl rfl
      unfold BufferWorker.pending
      rw [waiting, queued, List.append_assoc, List.append_assoc]
      rfl
    · cases stepped
  | load prepared =>
    rw [BufferWorker.step] at stepped
    split at stepped
    · rename_i request loading
      obtain rfl := Option.some.inj stepped
      refine sound.move ?_ rfl rfl
      unfold BufferWorker.pending
      rw [loading]
      rfl
    · cases stepped
    · cases stepped
  | send =>
    rw [BufferWorker.step] at stepped
    split at stepped
    · rename_i loaded sending
      split at stepped
      · obtain rfl := Option.some.inj stepped
        refine sound.move ?_ rfl rfl
        unfold BufferWorker.pending
        rw [sending]
        dsimp only [Loader.request]
        rw [List.map_append, List.append_nil]
        rfl
      · cases stepped
    · cases stepped
    · cases stepped

/-! ### Progress -/

/-- The steps that a load still needs. -/
def remaining (worker : BufferWorker C N B) : Nat :=
  worker.completed.length + (match worker.loader with
    | .waiting => 0
    | .loading _ => 3
    | .sending _ => 2) + 4 * worker.requests.length

theorem complete_remaining (loaded : LoadedBuffer C N B) (replaced published : Bool) :
    (worker.complete loaded replaced published).remaining = worker.remaining := by
  unfold BufferWorker.complete
  split
  · split
    · rfl
    · split <;> rfl
  · rfl

theorem work_remaining (work : action.IsWork) (stepped : worker.step action = some next)
    : next.remaining + 1 = worker.remaining := by
  cases action with
  | bind reply name => cases work
  | clear name replaced => cases work
  | poll replaced published =>
    rw [BufferWorker.step] at stepped
    split at stepped
    · cases stepped
    · rename_i loaded rest polled
      obtain rfl := Option.some.inj stepped
      rw [complete_remaining]
      unfold remaining
      rw [polled, List.length_cons]
      dsimp only
      omega
  | receive =>
    rw [BufferWorker.step] at stepped
    split at stepped
    · rename_i request rest waiting queued
      obtain rfl := Option.some.inj stepped
      unfold remaining
      rw [waiting, queued, List.length_cons]
      dsimp only
      omega
    · cases stepped
  | load prepared =>
    rw [BufferWorker.step] at stepped
    split at stepped
    · rename_i request loading
      obtain rfl := Option.some.inj stepped
      unfold remaining
      rw [loading]
      dsimp only
      omega
    · cases stepped
    · cases stepped
  | send =>
    rw [BufferWorker.step] at stepped
    split at stepped
    · rename_i loaded sending
      split at stepped
      · obtain rfl := Option.some.inj stepped
        unfold remaining
        rw [sending, List.length_append, List.length_singleton]
        dsimp only
        omega
      · cases stepped
    · cases stepped
    · cases stepped

/-- While a load is not answered, the loader or the render thread can work on it. -/
theorem work_possible (waits : worker.pending ≠ []) :
    ∃ action : Action C N B, action.IsWork ∧ (worker.step action).isSome := by
  rcases polled : worker.completed with _ | ⟨loaded, rest⟩
  · cases loader : worker.loader with
    | waiting =>
      rcases queued : worker.requests with _ | ⟨request, rest⟩
      · unfold BufferWorker.pending at waits
        rw [polled, loader, queued] at waits
        exact absurd rfl waits
      · refine ⟨.receive, trivial, ?_⟩
        rw [BufferWorker.step, loader, queued]
        rfl
    | loading request =>
      refine ⟨.load none, trivial, ?_⟩
      rw [BufferWorker.step, loader]
      rfl
    | sending loaded =>
      refine ⟨.send, trivial, ?_⟩
      rw [BufferWorker.step, loader, polled]
      rfl
  · refine ⟨.poll false false, trivial, ?_⟩
    rw [BufferWorker.step, polled]
    rfl

theorem work_run (work : ∀ action ∈ actions, action.IsWork)
    (ran : Steps.run step worker actions = some next) :
    next.remaining + actions.length = worker.remaining := by
  induction actions generalizing worker with
  | nil =>
    obtain rfl := Option.some.inj ran
    rfl
  | cons action actions ih =>
    obtain ⟨middle, stepped, rest⟩ := Steps.run_cons.mp ran
    have one := work_remaining (work action List.mem_cons_self) stepped
    have more := ih (fun later mem => work later (List.mem_cons_of_mem _ mem)) rest
    rw [List.length_cons]
    omega

/-! ### Refused binds -/

/-- The replies to the binds of a name. -/
def repliesTo (log : List (Event C N)) (name : N) : List (C × Reply) :=
  log.filterMap fun event =>
    match event with
    | .replied reply other result => if other = name then some (reply, result) else none
    | .bind _ _ | .clear _ | .installed _ _ => none

/-- Forgets the revision of the loads of a name. -/
def forget (name : N) (request : LoadRequest C N) : LoadRequest C N :=
  if request.name = name then { request with revision := 0 } else request

def forgetLoaded (name : N) (loaded : LoadedBuffer C N B) : LoadedBuffer C N B :=
  ⟨forget name loaded.toLoadRequest, loaded.prepared⟩

def forgetLoader (name : N) : Loader C N B → Loader C N B
  | .waiting => .waiting
  | .loading request => .loading (forget name request)
  | .sending loaded => .sending (forgetLoaded name loaded)

/-- Two workers that differ in one name only. -/
structure SameElsewhere (name : N) (worker worker' : BufferWorker C N B) : Prop where
  requests : worker'.requests.map (forget name) = worker.requests.map (forget name)
  loader : forgetLoader name worker'.loader = forgetLoader name worker.loader
  completed : worker'.completed.map (forgetLoaded name) = worker.completed.map (forgetLoaded name)
  older : worker.revisions name ≤ worker'.revisions name
  revisions : ∀ other, other ≠ name → worker'.revisions other = worker.revisions other
  installed : ∀ other, other ≠ name → worker'.installed other = worker.installed other
  replies : ∀ other, other ≠ name →
    repliesTo worker'.log other = repliesTo worker.log other

theorem repliesTo_append (first second : List (Event C N)) (name : N) :
    repliesTo (first ++ second) name = repliesTo first name ++ repliesTo second name :=
  List.filterMap_append

theorem forget_eq {name : N} {request' : LoadRequest C N}
    (same : forget name request' = forget name request) :
    request'.name = request.name ∧ request'.reply = request.reply ∧
      (request.name ≠ name → request' = request) := by
  unfold forget at same
  split at same
  · rename_i here'
    split at same
    · rename_i here
      injection same with names _ replies
      exact ⟨names, replies, fun other => absurd here other⟩
    · rename_i away
      rw [← same] at away
      exact absurd here' away
  · rename_i away'
    split at same
    · rename_i here
      rw [same] at away'
      exact absurd here away'
    · rw [same]
      exact ⟨rfl, rfl, fun _ => rfl⟩

variable {worker' next' : BufferWorker C N B} {name : N}

/-- The same events, and the same buffers under other names. -/
theorem SameElsewhere.both (same : SameElsewhere name worker worker')
    {installed installed' : N → Option B} {more' : List (Event C N)}
    (installs : ∀ other, other ≠ name → installed' other = installed other)
    (answers : ∀ other, other ≠ name →
      repliesTo more' other = repliesTo more other) :
    SameElsewhere name { worker with installed := installed, log := worker.log ++ more }
      { worker' with installed := installed', log := worker'.log ++ more' } :=
  { same with
    installed := installs
    replies := fun other apart => by
      dsimp only
      rw [repliesTo_append, repliesTo_append, same.replies other apart, answers other apart] }

/-- The buffers and the replies of a completed load. -/
theorem complete_eq (worker : BufferWorker C N B) (loaded : LoadedBuffer C N B)
    (replaced published : Bool) :
    ∃ installed more, worker.complete loaded replaced published =
        { worker with installed := installed, log := worker.log ++ more } ∧
      (∀ other, other ≠ loaded.name → installed other = worker.installed other) ∧
      ∀ other, other ≠ loaded.name → repliesTo more other = [] := by
  have quiet : ∀ other, other ≠ loaded.name → ∀ result, repliesTo
      [(Event.replied loaded.reply loaded.name result : Event C N)] other = [] :=
    fun other apart result => by simp [repliesTo, apart.symm]
  unfold BufferWorker.complete
  split
  · split
    · exact ⟨worker.installed, _, rfl, fun _ _ => rfl, fun other apart => quiet other apart _⟩
    · split
      · refine ⟨_, _, rfl, fun other apart => Function.update_of_ne apart _ _,
          fun other apart => ?_⟩
        exact quiet other apart _
      · exact ⟨worker.installed, _, rfl, fun _ _ => rfl, fun other apart => quiet other apart _⟩
  · exact ⟨worker.installed, _, rfl, fun _ _ => rfl, fun other apart => quiet other apart _⟩

/-- A completed load of the name. -/
theorem SameElsewhere.complete_own (same : SameElsewhere name worker worker')
    {loaded' : LoadedBuffer C N B} (own : loaded.name = name) (own' : loaded'.name = name)
    (replaced published : Bool) :
    SameElsewhere name (worker.complete loaded replaced published)
      (worker'.complete loaded' replaced published) := by
  obtain ⟨installed, more, eq, installs, answers⟩ :=
    complete_eq worker loaded replaced published
  obtain ⟨installed', more', eq', installs', answers'⟩ :=
    complete_eq worker' loaded' replaced published
  rw [own] at installs answers
  rw [own'] at installs' answers'
  rw [eq, eq']
  refine same.both (fun other apart => ?_) fun other apart => ?_
  · rw [installs other apart, installs' other apart, same.installed other apart]
  · rw [answers other apart, answers' other apart]

/-- A completed load of another name. -/
theorem SameElsewhere.complete_other (same : SameElsewhere name worker worker')
    (apart : loaded.name ≠ name) (replaced published : Bool) :
    SameElsewhere name (worker.complete loaded replaced published)
      (worker'.complete loaded replaced published) := by
  have current : worker'.isCurrent loaded = worker.isCurrent loaded := by
    unfold isCurrent
    rw [same.revisions loaded.name apart]
  unfold BufferWorker.complete
  rw [current]
  cases worker.isCurrent loaded with
  | false => exact same.both same.installed fun _ _ => rfl
  | true =>
    cases prepared : loaded.prepared with
    | none => exact same.both same.installed fun _ _ => rfl
    | some buffer =>
      cases replaced with
      | false => exact same.both same.installed fun _ _ => rfl
      | true =>
        refine same.both (fun other away => ?_) fun _ _ => rfl
        by_cases here : other = loaded.name
        · subst here
          rw [Function.update_self, Function.update_self]
        · rw [Function.update_of_ne here, Function.update_of_ne here, same.installed other away]

/-- A command advances the revision of its name in both. -/
theorem SameElsewhere.bump (same : SameElsewhere name worker worker') (other : N) :
    SameElsewhere name
      { worker with
        revisions := Function.update worker.revisions other (worker.revisions other + 1) }
      { worker' with
        revisions := Function.update worker'.revisions other (worker'.revisions other + 1) } := by
  have older := same.older
  refine { same with older := ?_, revisions := fun another apart => ?_ }
  · by_cases own : name = other
    · subst own
      dsimp only
      rw [Function.update_self, Function.update_self]
      omega
    · dsimp only
      rw [Function.update_of_ne own, Function.update_of_ne own]
      exact older
  · by_cases own : another = other
    · subst own
      dsimp only
      rw [Function.update_self, Function.update_self, same.revisions another apart]
    · dsimp only
      rw [Function.update_of_ne own, Function.update_of_ne own, same.revisions another apart]

theorem SameElsewhere.submit (same : SameElsewhere name worker worker') (reply : C) (other : N) :
    SameElsewhere name
      (submit { worker with
        revisions := Function.update worker.revisions other (worker.revisions other + 1) }
          reply other)
      (submit { worker' with
        revisions := Function.update worker'.revisions other (worker'.revisions other + 1) }
          reply other) := by
  have lengths : worker'.requests.length = worker.requests.length := by
    rw [← List.length_map (forget name), same.requests, List.length_map]
  have bumped := same.bump other
  unfold BufferWorker.submit
  dsimp only
  rw [lengths]
  split
  · refine { bumped with
      requests := ?_
      replies := (bumped.both bumped.installed fun _ _ => rfl).replies }
    dsimp only
    rw [List.map_append, List.map_append, same.requests]
    congr 1
    rw [List.map_singleton, List.map_singleton, List.singleton_inj, Function.update_self,
      Function.update_self]
    unfold forget
    by_cases own : other = name
    · rw [if_pos own, if_pos own]
    · rw [if_neg own, if_neg own, same.revisions other own]
  · exact bumped.both bumped.installed fun _ _ => rfl

theorem SameElsewhere.invalidate (same : SameElsewhere name worker worker') {other : N}
    (possible : worker'.revisions other + 1 < 2 ^ 64) : worker.revisions other + 1 < 2 ^ 64 := by
  by_cases own : other = name
  · subst own
    have older := same.older
    omega
  · rw [← same.revisions other own]
    exact possible

/-- A step of one worker is a step of the other. -/
theorem SameElsewhere.step (same : SameElsewhere name worker worker')
    (stepped : worker'.step action = some next') :
    ∃ next, worker.step action = some next ∧ SameElsewhere name next next' := by
  cases action with
  | bind reply other =>
    obtain ⟨revised, bumped, rfl⟩ := Option.map_eq_some_iff.mp stepped
    rw [invalidate_eq bumped]
    unfold BufferWorker.invalidate at bumped
    split at bumped
    · rename_i possible
      rw [BufferWorker.step, BufferWorker.invalidate, if_pos (same.invalidate possible)]
      exact ⟨_, rfl, same.submit reply other⟩
    · cases bumped
  | clear other replaced =>
    obtain ⟨revised, bumped, rfl⟩ := Option.map_eq_some_iff.mp stepped
    rw [invalidate_eq bumped]
    unfold BufferWorker.invalidate at bumped
    split at bumped
    · rename_i possible
      rw [BufferWorker.step, BufferWorker.invalidate, if_pos (same.invalidate possible)]
      refine ⟨_, rfl, (same.bump other).both (fun another apart => ?_) fun _ _ => rfl⟩
      cases replaced with
      | false => exact same.installed another apart
      | true =>
        by_cases own : another = other
        · subst own
          simp
        · simp [own, same.installed another apart]
    · cases bumped
  | poll replaced published =>
    rw [BufferWorker.step] at stepped ⊢
    split at stepped
    · cases stepped
    · rename_i loaded' rest' polled'
      obtain rfl := Option.some.inj stepped
      have completed := same.completed
      rw [polled', List.map_cons] at completed
      obtain ⟨loaded, rest, polled, first, others⟩ := List.map_eq_cons_iff.mp completed.symm
      rw [polled]
      refine ⟨_, rfl, ?_⟩
      have popped : SameElsewhere name { worker with completed := rest }
          { worker' with completed := rest' } := { same with completed := others.symm }
      injection first with request prepared
      obtain ⟨names, replies, apart⟩ := forget_eq request
      by_cases own : loaded.name = name
      · exact popped.complete_own own (names ▸ own) replaced published
      · have equal : loaded = loaded' := by
          cases loaded
          cases loaded'
          exact congr (congrArg LoadedBuffer.mk (apart (names ▸ own))) prepared
        rw [← equal]
        exact popped.complete_other own replaced published
  | receive =>
    have loader := same.loader
    have requests := same.requests
    rw [BufferWorker.step] at stepped ⊢
    split at stepped
    · rename_i request' rest' waiting' queued'
      obtain rfl := Option.some.inj stepped
      rw [waiting'] at loader
      rw [queued', List.map_cons] at requests
      obtain ⟨request, rest, queued, first, others⟩ := List.map_eq_cons_iff.mp requests.symm
      cases waiting : worker.loader with
      | waiting =>
        rw [queued]
        refine ⟨_, rfl, { same with requests := others.symm, loader := ?_ }⟩
        exact congrArg Loader.loading first.symm
      | loading request => rw [waiting] at loader; cases loader
      | sending loaded => rw [waiting] at loader; cases loader
    · cases stepped
  | load prepared =>
    have loader := same.loader
    rw [BufferWorker.step] at stepped ⊢
    split at stepped
    · rename_i request' loading'
      obtain rfl := Option.some.inj stepped
      rw [loading'] at loader
      cases loading : worker.loader with
      | waiting => rw [loading] at loader; cases loader
      | loading request =>
        rw [loading] at loader
        injection loader with requests
        refine ⟨_, rfl, { same with loader := ?_ }⟩
        exact congrArg (fun request => Loader.sending ⟨request, prepared⟩) requests
      | sending loaded => rw [loading] at loader; cases loader
    · cases stepped
    · cases stepped
  | send =>
    have loader := same.loader
    have lengths : worker'.completed.length = worker.completed.length := by
      rw [← List.length_map (forgetLoaded name), same.completed, List.length_map]
    rw [BufferWorker.step] at stepped ⊢
    split at stepped
    · rename_i loaded' sending'
      rw [sending'] at loader
      cases sending : worker.loader with
      | waiting => rw [sending] at loader; cases loader
      | loading request => rw [sending] at loader; cases loader
      | sending loaded =>
        rw [sending] at loader
        injection loader with loads
        split at stepped
        · rename_i room
          obtain rfl := Option.some.inj stepped
          rw [lengths] at room
          refine ⟨_, if_pos room, { same with loader := rfl, completed := ?_ }⟩
          dsimp only
          rw [List.map_append, List.map_append, same.completed, List.map_singleton,
            List.map_singleton, loads]
        · cases stepped
    · cases stepped
    · cases stepped

theorem SameElsewhere.run (same : SameElsewhere name worker worker')
    (ran : Steps.run BufferWorker.step worker' actions = some next') :
    ∃ next, Steps.run BufferWorker.step worker actions = some next ∧
      SameElsewhere name next next' := by
  induction actions generalizing worker worker' with
  | nil =>
    obtain rfl := Option.some.inj ran
    exact ⟨worker, rfl, same⟩
  | cons action actions ih =>
    obtain ⟨middle', stepped', rest'⟩ := Steps.run_cons.mp ran
    obtain ⟨middle, stepped, same⟩ := same.step stepped'
    obtain ⟨next, rest, same⟩ := ih same rest'
    exact ⟨next, Steps.run_cons.mpr ⟨middle, stepped, rest⟩, same⟩

/-- A bind that finds the queue full. -/
theorem refused_same (full : loadQueueCapacity ≤ worker.requests.length) {reply : C}
    (refused : worker.step (.bind reply name) = some next) :
    SameElsewhere name worker next ∧ next.installed = worker.installed ∧
      next.log = worker.log ++ [.bind reply name, .replied reply name .error] := by
  obtain ⟨revised, bumped, rfl⟩ := Option.map_eq_some_iff.mp refused
  rw [invalidate_eq bumped]
  unfold BufferWorker.submit
  rw [if_neg (Nat.not_lt.mpr full)]
  refine ⟨⟨rfl, rfl, rfl, ?_, fun other apart => ?_, fun _ _ => rfl, fun other apart => ?_⟩, rfl, rfl⟩
  · dsimp only
    rw [Function.update_self]
    exact Nat.le_succ _
  · exact Function.update_of_ne apart _ _
  · dsimp only
    rw [repliesTo_append]
    simp [repliesTo, apart.symm]

/-! ### Runs -/

/-- What command order means for the binds of a run. -/
structure Orderly (worker : BufferWorker C N B) : Prop where
  /-- A buffer is installed for the last command on its name. -/
  installs : ∀ before reply name after,
    worker.log = before ++ .installed reply name :: after → Latest before reply name
  /-- Every bind is answered once, or waits. -/
  replies : (worker.log.filterMap Event.submitted).Perm
    (worker.log.filterMap Event.answered ++ worker.pending.map (·.reply))
  /-- While a bind waits, the loader or the render thread has a step, and work comes to an end. -/
  works : worker.pending ≠ [] →
    ∃ action : Action C N B, action.IsWork ∧ (worker.step action).isSome
  ends : ∀ actions next, (∀ action ∈ actions, Action.IsWork action) →
    Steps.run step worker actions = some next →
      next.remaining + actions.length = worker.remaining
  /-- A refused bind does not touch the buffers, nor what becomes of other names. -/
  refused : ∀ reply name next, loadQueueCapacity ≤ worker.requests.length →
    worker.step (.bind reply name) = some next → next.installed = worker.installed ∧
      ∀ actions last', Steps.run step next actions = some last' →
        ∃ last, Steps.run step worker actions = some last ∧ ∀ other, other ≠ name →
          last'.installed other = last.installed other ∧
            repliesTo last'.log other = repliesTo last.log other

/-- A bind of name 0, and as many of name 1 as the queue has room for. -/
def fullQueue : List (Action Nat Nat Nat) :=
  .bind 0 0 :: List.replicate 15 (.bind 1 1)

/-- The first load that waits. -/
def firstLoad : List (Action Nat Nat Nat) := [.receive, .load (some 5), .send, .poll true true]

end BufferWorker

end Onda.Playback
