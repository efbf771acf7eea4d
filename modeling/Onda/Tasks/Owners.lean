import Onda.Tasks.Realization

/-!
# Processors and programs with tasks

The parts of lowered owners meet the conditions of `Realizes`.  A processor needs that its
neutral outputs are all its outputs.
-/

namespace Onda.Tasks

variable {V W : Type} {tasks : TaskDefs V W} {budget : Nat}

/-! ### Code that lowering does not change -/

mutual

theorem Stmt.rewriteTaskControls_plain (unavailable : List (Stmt V W)) (result : TaskResumeResult) :
    ∀ stmt : Stmt V W, stmt.awaits = false → stmt.rewriteTaskControls unavailable result = [stmt]
  | .branch guard thenBranch elseBranch, plain => by
    simp only [Stmt.awaits, Bool.or_eq_false_iff] at plain
    rw [Stmt.rewriteTaskControls, rewriteTaskControls_plain unavailable result thenBranch plain.1,
      rewriteTaskControls_plain unavailable result elseBranch plain.2]
  | .loop head body, plain => by
    rw [Stmt.rewriteTaskControls, rewriteTaskControls_plain unavailable result body plain]
  | .assign _ _, _ | .effect _, _ | .reset _, _ | .brk, _ | .cont, _ | .ret, _ | .resume _, _
  | .setAvailable _, _ | .abort, _ => by rw [Stmt.rewriteTaskControls]

theorem rewriteTaskControls_plain (unavailable : List (Stmt V W)) (result : TaskResumeResult) :
    ∀ stmts : List (Stmt V W), awaits stmts = false →
      rewriteTaskControls unavailable result stmts = stmts
  | [], _ => rfl
  | stmt :: stmts, plain => by
    simp only [awaits, Bool.or_eq_false_iff] at plain
    rw [rewriteTaskControls, Stmt.rewriteTaskControls_plain unavailable result stmt plain.1,
      rewriteTaskControls_plain unavailable result stmts plain.2]
    rfl

end

mutual

theorem Stmt.replaceTaskAbort_source (marker : Stmt V W) :
    ∀ stmt : Stmt V W, stmt.isSource = true → Stmt.replaceTaskAbort marker stmt = stmt
  | .branch guard thenBranch elseBranch, source => by
    simp only [Stmt.isSource, Bool.and_eq_true] at source
    rw [Stmt.replaceTaskAbort, replaceTaskAbort_source marker thenBranch source.1.2,
      replaceTaskAbort_source marker elseBranch source.2]
  | .loop head body, source => by
    rw [Stmt.replaceTaskAbort, replaceTaskAbort_source marker body source]
  | .assign _ _, _ | .effect _, _ | .await _, _ | .reset _, _ | .brk, _ | .cont, _ | .ret, _ => by
    rw [Stmt.replaceTaskAbort]

theorem replaceTaskAbort_source (marker : Stmt V W) :
    ∀ stmts : List (Stmt V W), isSource stmts = true → replaceTaskAbort marker stmts = stmts
  | [], _ => rfl
  | stmt :: stmts, source => by
    simp only [isSource, Bool.and_eq_true] at source
    rw [replaceTaskAbort, Stmt.replaceTaskAbort_source marker stmt source.1,
      replaceTaskAbort_source marker stmts source.2]

end

theorem isSource_append (first second : List (Stmt V W)) :
    isSource (first ++ second) = (isSource first && isSource second) := by
  induction first with
  | nil => rfl
  | cons stmt stmts ih => simp [isSource, ih, Bool.and_assoc]

theorem awaits_append (first second : List (Stmt V W)) :
    awaits (first ++ second) = (awaits first || awaits second) := by
  induction first with
  | nil => rfl
  | cons stmt stmts ih => simp [awaits, ih, Bool.or_assoc]

theorem rewriteTaskControls_append (unavailable : List (Stmt V W)) (result : TaskResumeResult)
    (first second : List (Stmt V W)) :
    rewriteTaskControls unavailable result (first ++ second) =
      rewriteTaskControls unavailable result first ++
        rewriteTaskControls unavailable result second := by
  induction first with
  | nil => rfl
  | cons stmt stmts ih => simp [rewriteTaskControls, ih]

variable {stop : Flow} {guard : Guard V W} {code elseBranch rest thenBranch : List (Stmt V W)}
  {machine machine' : Machine V W} {neutral : Store V W → Store V W}

/-- Plain code follows itself. -/
theorem execAll_follows_plain {stmts : List (Stmt V W)} (source : isSource stmts = true)
    (plain : awaits stmts = false) :
    CodeFollows stop neutral (execAll tasks budget stmts) (execAll tasks budget stmts) := by
  have leaves : LeavesUnavailable tasks budget .ret id
      (materializeTaskAbort [.setAvailable false, .abort]) := fun _ => rfl
  have follows := execAll_follows_returned leaves stmts source
  rw [rewriteTaskControls_plain _ _ stmts plain, materializeTaskAbort,
    replaceTaskAbort_source _ stmts source] at follows
  exact CodeFollows.finishing (execAll_finishes stmts plain) follows

/-- Code that finishes runs alike. -/
theorem run_related {source lowered : List (Stmt V W)} (plain : awaits source = false)
    (follows : CodeFollows stop neutral (execAll tasks budget source)
      (execAll tasks budget lowered)) (together : Together machine machine') :
    Option.Rel Together (LoweredOwner.run tasks budget source machine)
      (LoweredOwner.run tasks budget lowered machine') := by
  obtain ⟨flows, up, same⟩ := (follows machine machine' together).finished
    (execAll_finishes source plain machine)
  unfold LoweredOwner.run
  rw [flows]
  split
  · exact .none
  · exact .some ⟨same, up⟩

theorem run_same {flow : Flow} (finishes : flow ≠ .spent)
    (ran : execAll tasks budget code machine = (machine', flow)) :
    LoweredOwner.run tasks budget code machine = some machine' := by
  unfold LoweredOwner.run
  rw [ran]
  exact if_neg finishes

/-- The pre code of a block: it enters with the availability field set. -/
theorem pre_related {written : List (Stmt V W)} {lowered : Machine V W → Machine V W × Flow}
    (stops : stop ≠ .spent)
    (follows : CodeFollows stop neutral (execAll tasks budget written) lowered)
    (enters : ∀ machine, execAll tasks budget code machine = lowered { machine with available := true })
    (same : SameStore machine machine') :
    ((execAll tasks budget written machine).2 = .spent →
      LoweredOwner.run tasks budget code machine' = none) ∧
    ((execAll tasks budget written machine).2 = .unfinished →
      Option.Rel Idle (some ((execAll tasks budget written machine).1.input neutral))
        (LoweredOwner.run tasks budget code machine')) ∧
    ((execAll tasks budget written machine).2 ≠ .spent →
      (execAll tasks budget written machine).2 ≠ .unfinished →
        Option.Rel Together (some (execAll tasks budget written machine).1)
          (LoweredOwner.run tasks budget code machine')) := by
  have here := follows machine { machine' with available := true } ⟨same, rfl⟩
  rw [← enters machine'] at here
  unfold LoweredOwner.run
  refine ⟨fun spent => ?_, fun stopped => ?_, fun unspent finished => ?_⟩
  · obtain ⟨flows, -, -⟩ := here.finished (by simp [spent])
    rw [if_pos (flows.trans spent)]
  · obtain ⟨flows, cleared, neutralized⟩ := here.unfinished stopped
    rw [if_neg (by rw [flows]; exact stops)]
    exact .some ⟨neutralized, cleared⟩
  · obtain ⟨flows, up, stored⟩ := here.finished finished
    rw [if_neg (by rw [flows]; exact unspent)]
    exact .some ⟨stored, up⟩

/-! ### Neutral outputs -/

theorem isSource_collectNeutralOutputs [Zero V] (names : List String)
    (declarations : List (String × PortType)) :
    isSource (collectNeutralOutputs names declarations : List (Stmt V W)) = true := by
  induction names with
  | nil => rfl
  | cons name names ih =>
    rw [collectNeutralOutputs, List.flatMap_cons, isSource_append, Bool.and_eq_true]
    refine ⟨?_, ih⟩
    unfold neutralOutputStmts
    split
    · rfl
    · rfl
    · split <;> rfl

theorem propagate_collectNeutralOutputs [Zero V] (names : List String)
    (declarations : List (String × PortType)) :
    propagateTaskAbortThroughLoops (collectNeutralOutputs names declarations : List (Stmt V W)) =
      collectNeutralOutputs names declarations := by
  induction names with
  | nil => rfl
  | cons name names ih =>
    rw [collectNeutralOutputs, List.flatMap_cons, propagateTaskAbortThroughLoops_append]
    refine congrArg₂ (· ++ ·) ?_ ih
    unfold neutralOutputStmts
    split
    · rfl
    · rfl
    · split <;> rfl

theorem Store.neutralize_congr [Zero V] {names names' : List String}
    (declarations : List (String × PortType)) (same : ∀ name, name ∈ names ↔ name ∈ names') :
    (Store.neutralize names declarations : Store V W → Store V W) =
      Store.neutralize names' declarations := by
  funext store
  unfold Store.neutralize
  congr 1
  funext name cell
  simp only [same name]

theorem Store.neutralize_neutralize [Zero V] (names names' : List String)
    (declarations : List (String × PortType)) (store : Store V W) :
    Store.neutralize names declarations (Store.neutralize names' declarations store) =
      Store.neutralize (names' ++ names) declarations store := by
  unfold Store.neutralize
  congr 1
  funext name cell
  by_cases inside : cell < declaredCells declarations name
  · by_cases here : name ∈ names
    · simp [inside, here]
    · simp [inside, here]
  · simp [inside]

/-! ### Processors -/

/-- The code of a sample whose block is available. -/
theorem exec_available (code : List (Stmt V W)) (thenBranch : List (Stmt V W))
    (up : machine.available = true) :
    execAll tasks budget (.branch .notAvailable thenBranch [] :: code) machine =
      execAll tasks budget code machine := by
  have passes : (Guard.eval tasks .notAvailable machine).1 = false := by simp [Guard.eval, up]
  refine execAll_cons_next ?_
  rw [exec_branch_else passes]
  rfl

/-- The code of a sample whose block is not available; its branch returns. -/
theorem exec_unavailable (code : List (Stmt V W)) (down : machine.available = false)
    (ran : execAll tasks budget thenBranch machine = (machine', .ret)) :
    execAll tasks budget (.branch .notAvailable thenBranch [] :: code) machine =
      (machine', .ret) := by
  have fires : (Guard.eval tasks .notAvailable machine).1 = true := by simp [Guard.eval, down]
  refine execAll_cons_leave (by simp) ?_
  rw [exec_branch_then fires]
  exact ran

namespace Processor

variable [Zero V] (proc : Processor V W)

/-- The outputs of a quiet frame; the other names are locals of the code. -/
def quietNames : List String := proc.outputs ++ proc.neutralNames

/-- A processor as written. -/
def written : Activation V W where
  pre := proc.blockPre.body ++ [.effect proc.preHooks]
  sample := if proc.outsTiming = .sample then proc.sample.body else []
  post := if proc.outsTiming = .sample then .effect proc.postHooks :: proc.blockPost.body else []
  stopped :=
    if proc.outsTiming = .block then Store.neutralize proc.quietNames proc.outs else id
  quiet := if proc.outsTiming = .sample then Store.neutralize proc.quietNames proc.outs else id
  release := id

/-- Each output is one that lowering neutralizes: it is declared, or a plain assignment of the
block-pre or sample code names it. -/
def Covered : Prop := ∀ name ∈ proc.outputs, name ∈ proc.neutralNames

instance : Decidable proc.Covered := inferInstanceAs (Decidable (∀ name ∈ _, _))

variable {proc}

theorem Covered.neutralize (covered : proc.Covered) :
    (Store.neutralize proc.quietNames proc.outs : Store V W → Store V W) =
      Store.neutralize proc.neutralNames proc.outs := by
  refine Store.neutralize_congr proc.outs fun name => ?_
  rw [quietNames, List.mem_append]
  exact ⟨fun here => here.elim (covered name) id, .inr⟩

theorem Covered.leaves (covered : proc.Covered) :
    LeavesUnavailable tasks budget .ret proc.written.stopped
      (materializeTaskAbort proc.unavailable) := by
  intro machine
  rw [unavailable, materializeTaskAbort, replaceTaskAbort_append]
  by_cases timing : proc.outsTiming = .block
  · rw [if_pos timing, written, if_pos timing, covered.neutralize, neutralOutputs,
      replaceTaskAbort_source _ _ (isSource_collectNeutralOutputs _ _),
      execAll_append_next (execAll_collectNeutralOutputs _ _ machine)]
    rfl
  · rw [if_neg timing, written, if_neg timing]
    rfl

theorem lower_pre (proc : Processor V W) :
    proc.lower.pre = .setAvailable true ::
      materializeTaskAbort (rewriteTaskControls proc.unavailable .returned proc.written.pre) := by
  rw [lower, written, rewriteTaskControls_append]
  rfl

theorem lower_sample (proc : Processor V W) (timing : proc.outsTiming = .sample) :
    proc.lower.sample =
      .branch .notAvailable (proc.neutralOutputs ++ [.ret]) [] :: proc.sample.body := by
  simp only [lower, timing, if_true, unavailableSample, materializeTaskAbort, neutralOutputs,
    rewriteTaskControls_plain _ _ _ proc.sample.plain, replaceTaskAbort, Stmt.replaceTaskAbort,
    replaceTaskAbort_append, replaceTaskAbort_source _ _ proc.sample.source,
    replaceTaskAbort_source _ _ (isSource_collectNeutralOutputs _ _)]

theorem lower_post (proc : Processor V W) (timing : proc.outsTiming = .sample) :
    proc.lower.post = .branch .notAvailable [.ret] [] :: proc.written.post := by
  simp only [lower, written, timing, if_true, materializeTaskAbort,
    rewriteTaskControls_plain _ _ _ proc.blockPost.plain, replaceTaskAbort, Stmt.replaceTaskAbort,
    replaceTaskAbort_source _ _ proc.blockPost.source]

/-- A processor with control outputs has no sample or post code. -/
theorem lower_control (proc : Processor V W) (timing : proc.outsTiming ≠ .sample) :
    proc.lower.sample = [] ∧ proc.lower.post = [] :=
  ⟨if_neg timing, if_neg timing⟩

theorem written_control (proc : Processor V W) (timing : proc.outsTiming ≠ .sample) :
    proc.written.sample = [] ∧ proc.written.post = [] ∧ proc.written.quiet = id :=
  ⟨if_neg timing, if_neg timing, if_neg timing⟩

theorem written_sample (proc : Processor V W) (timing : proc.outsTiming = .sample) :
    proc.written.sample = proc.sample.body ∧
      proc.written.quiet = Store.neutralize proc.quietNames proc.outs :=
  ⟨if_pos timing, if_pos timing⟩

theorem written_post_plain (proc : Processor V W) :
    isSource proc.written.post = true ∧ awaits proc.written.post = false := by
  rw [written]
  split
  · exact ⟨by simp [isSource, Stmt.isSource, proc.blockPost.source],
      by simp [awaits, Stmt.awaits, proc.blockPost.plain]⟩
  · exact ⟨rfl, rfl⟩

theorem written_pre_source (proc : Processor V W) : isSource proc.written.pre = true := by
  rw [written, isSource_append, proc.blockPre.source]
  rfl

variable {machine machine' : Machine V W}

theorem sample_related (proc : Processor V W) (together : Together machine machine') :
    Option.Rel Together (LoweredOwner.run tasks budget proc.written.sample machine)
      (LoweredOwner.run tasks budget proc.lower.sample machine') := by
  have follows : CodeFollows .ret id (execAll tasks budget proc.sample.body)
      (execAll tasks budget proc.sample.body) :=
    execAll_follows_plain proc.sample.source proc.sample.plain
  by_cases timing : proc.outsTiming = .sample
  · have passes : LoweredOwner.run tasks budget proc.lower.sample machine' =
        LoweredOwner.run tasks budget proc.sample.body machine' := by
      unfold LoweredOwner.run
      rw [proc.lower_sample timing, exec_available _ _ together.available]
    rw [passes, (proc.written_sample timing).1]
    exact run_related proc.sample.plain follows together
  · rw [(proc.written_control timing).1, (proc.lower_control timing).1]
    exact .some together

theorem post_related (proc : Processor V W) (together : Together machine machine') :
    Option.Rel SameStore (LoweredOwner.run tasks budget proc.written.post machine)
      (LoweredOwner.run tasks budget proc.lower.post machine') := by
  have plain := proc.written_post_plain
  have follows : CodeFollows .ret id (execAll tasks budget proc.written.post)
      (execAll tasks budget proc.written.post) := execAll_follows_plain plain.1 plain.2
  by_cases timing : proc.outsTiming = .sample
  · have passes : LoweredOwner.run tasks budget proc.lower.post machine' =
        LoweredOwner.run tasks budget proc.written.post machine' := by
      unfold LoweredOwner.run
      rw [proc.lower_post timing, exec_available _ _ together.available]
    have ran := run_related plain.2 follows together
    rw [passes]
    exact rel_weaken (fun _ _ related => related.store) ran
  · rw [(proc.written_control timing).2.1, (proc.lower_control timing).2]
    exact .some together.store

/-- A quiet frame. -/
theorem Covered.quiet_related (covered : proc.Covered) (idle : Idle machine machine') :
    Option.Rel Idle (some (machine.input proc.written.quiet))
      (LoweredOwner.run tasks budget proc.lower.sample machine') := by
  by_cases timing : proc.outsTiming = .sample
  · have neutral : execAll tasks budget (proc.neutralOutputs ++ [.ret]) machine' =
        (machine'.input (Store.neutralize proc.neutralNames proc.outs), .ret) := by
      rw [neutralOutputs, execAll_append_next (execAll_collectNeutralOutputs _ _ machine')]
      rfl
    have ran := exec_unavailable proc.sample.body idle.available neutral
    rw [← proc.lower_sample timing] at ran
    rw [run_same (by simp) ran, (proc.written_sample timing).2, covered.neutralize]
    exact .some (idle.input _)
  · rw [(proc.written_control timing).2.2, (proc.lower_control timing).1]
    exact .some idle

theorem release_related (proc : Processor V W) (idle : Idle machine machine') :
    Option.Rel SameStore (some (machine.input proc.written.release))
      (LoweredOwner.run tasks budget proc.lower.post machine') := by
  by_cases timing : proc.outsTiming = .sample
  · have returns : execAll tasks budget [.ret] machine' = (machine', .ret) := rfl
    have ran := exec_unavailable proc.written.post idle.available returns
    rw [← proc.lower_post timing] at ran
    rw [run_same (by simp) ran]
    exact .some idle.store
  · rw [(proc.lower_control timing).2]
    exact .some idle.store

/-- A processor whose outputs are covered. -/
theorem Covered.realizes (covered : proc.Covered) :
    Realizes tasks budget proc.lower proc.written := by
  have leaves : LeavesUnavailable tasks budget .ret proc.written.stopped
      (materializeTaskAbort proc.unavailable) := covered.leaves
  have pre_follows := execAll_follows_returned leaves proc.written.pre proc.written_pre_source
  have enters : ∀ machine, execAll tasks budget proc.lower.pre machine =
      execAll tasks budget (materializeTaskAbort
        (rewriteTaskControls proc.unavailable .returned proc.written.pre))
        { machine with available := true } := by
    intro machine
    rw [lower_pre]
    exact execAll_cons_next rfl
  exact {
    spent := fun _ _ same => (pre_related (by simp) pre_follows enters same).1
    unfinished := fun _ _ same => (pre_related (by simp) pre_follows enters same).2.1
    finished := fun _ _ same => (pre_related (by simp) pre_follows enters same).2.2
    sample := fun _ _ together => proc.sample_related together
    post := fun _ _ together => proc.post_related together
    quiet := fun _ _ idle => covered.quiet_related idle
    release := fun _ _ idle => proc.release_related idle }

end Processor

/-! ### Programs -/

/-- A branch that is taken, and what follows it. -/
theorem exec_taken (taken : guard.eval tasks machine = (true, machine)) :
    execAll tasks budget (.branch guard thenBranch elseBranch :: rest) machine =
      execAll tasks budget (thenBranch ++ rest) machine := by
  have here : (Stmt.branch guard thenBranch elseBranch).exec tasks budget machine =
      execAll tasks budget thenBranch machine := by
    rw [exec_branch_then (congrArg Prod.fst taken), taken]
  rcases ran : execAll tasks budget thenBranch machine with ⟨after, flow⟩
  rw [ran] at here
  by_cases hands : flow = .next
  · subst hands
    rw [execAll_cons_next here, execAll_append_next ran]
  · rw [execAll_cons_leave hands here, execAll_append_leave hands ran]

theorem exec_not_taken (passed : guard.eval tasks machine = (false, machine)) :
    execAll tasks budget (.branch guard thenBranch elseBranch :: rest) machine =
      execAll tasks budget (elseBranch ++ rest) machine := by
  have here : (Stmt.branch guard thenBranch elseBranch).exec tasks budget machine =
      execAll tasks budget elseBranch machine := by
    rw [exec_branch_else (congrArg Prod.fst passed), passed]
  rcases ran : execAll tasks budget elseBranch machine with ⟨after, flow⟩
  rw [ran] at here
  by_cases hands : flow = .next
  · subst hands
    rw [execAll_cons_next here, execAll_append_next ran]
  · rw [execAll_cons_leave hands here, execAll_append_leave hands ran]

theorem eval_available {available : Bool} (field : machine.available = available) :
    Guard.eval tasks .available machine = (available, machine) := by
  rw [Guard.eval, field]

namespace Program

variable [Zero V] (program : Program V W)

/-- A program as written: each frame starts with outputs at zero. -/
def written : Activation V W where
  pre := .effect program.preHooks :: program.blockPre.body
  sample := .effect program.beginAudioOutputFrame :: program.sample.body
  post := program.blockPost.body ++ [.effect program.postHooks]
  stopped := Store.neutralize program.neutralControlNames program.kouts
  quiet := Store.neutralize (program.audioOutputs ++ program.neutralAudioNames) program.outs
  release := program.postHooks

theorem propagate_unavailable :
    propagateTaskAbortThroughLoops program.unavailable =
      program.neutralControlOutputs ++ [.setAvailable false, .abort] := by
  rw [unavailable, propagateTaskAbortThroughLoops_append, neutralControlOutputs,
    propagate_collectNeutralOutputs]
  rfl

theorem abortable :
    Abortable tasks budget (Store.neutralize program.neutralControlNames program.kouts)
      program.unavailable where
  marked := by
    rw [propagate_unavailable, containsTaskAbort_append]
    exact Bool.or_eq_true_iff.mpr (.inr rfl)
  leaves := by
    intro machine
    rw [propagate_unavailable, lowerTaskAbort, replaceTaskAbort_append, neutralControlOutputs,
      replaceTaskAbort_source _ _ (isSource_collectNeutralOutputs _ _),
      execAll_append_next (execAll_collectNeutralOutputs _ _ machine)]
    rfl

theorem lower_sample :
    program.lower.sample = [.effect program.beginAudioOutputFrame,
      .branch .available program.sample.body program.neutralAudioOutputs] := by
  simp only [lower, lowerTaskAbort, neutralAudioOutputs, replaceTaskAbort, Stmt.replaceTaskAbort,
    rewriteTaskControls_plain _ _ _ program.sample.plain,
    replaceTaskAbort_source _ _ program.sample.source,
    replaceTaskAbort_source _ _ (isSource_collectNeutralOutputs _ _)]

theorem lower_post :
    program.lower.post =
      [.branch .available program.blockPost.body [], .effect program.postHooks] := by
  simp only [lower, lowerTaskAbort, replaceTaskAbort, Stmt.replaceTaskAbort,
    rewriteTaskControls_plain _ _ _ program.blockPost.plain,
    replaceTaskAbort_source _ _ program.blockPost.source]

theorem exec_beginAudioOutputFrame (code : List (Stmt V W)) (machine : Machine V W) :
    execAll tasks budget (.effect program.beginAudioOutputFrame :: code) machine =
      execAll tasks budget code (machine.input program.beginAudioOutputFrame) :=
  execAll_cons_next rfl

variable {machine machine' : Machine V W}

theorem sample_related (together : Together machine machine') :
    Option.Rel Together (LoweredOwner.run tasks budget program.written.sample machine)
      (LoweredOwner.run tasks budget program.lower.sample machine') := by
  have plain : awaits program.written.sample = false := program.sample.plain
  have follows : CodeFollows .ret id (execAll tasks budget program.written.sample)
      (execAll tasks budget program.written.sample) :=
    execAll_follows_plain program.sample.source plain
  have passes : LoweredOwner.run tasks budget program.lower.sample machine' =
      LoweredOwner.run tasks budget program.written.sample machine' := by
    unfold LoweredOwner.run
    rw [lower_sample, exec_beginAudioOutputFrame,
      exec_taken (eval_available (together.input _).available), List.append_nil, written,
      exec_beginAudioOutputFrame]
  rw [passes]
  exact run_related plain follows together

theorem post_related (together : Together machine machine') :
    Option.Rel SameStore (LoweredOwner.run tasks budget program.written.post machine)
      (LoweredOwner.run tasks budget program.lower.post machine') := by
  have source : isSource program.written.post = true := by
    rw [written, isSource_append, program.blockPost.source]
    rfl
  have plain : awaits program.written.post = false := by
    rw [written, awaits_append, program.blockPost.plain]
    rfl
  have follows : CodeFollows .ret id (execAll tasks budget program.written.post)
      (execAll tasks budget program.written.post) := execAll_follows_plain source plain
  have passes : LoweredOwner.run tasks budget program.lower.post machine' =
      LoweredOwner.run tasks budget program.written.post machine' := by
    unfold LoweredOwner.run
    rw [lower_post, exec_taken (eval_available together.available), written]
  rw [passes]
  exact rel_weaken (fun _ _ related => related.store) (run_related plain follows together)

/-- A quiet frame. -/
theorem quiet_related (idle : Idle machine machine') :
    Option.Rel Idle (some (machine.input program.written.quiet))
      (LoweredOwner.run tasks budget program.lower.sample machine') := by
  have ran : execAll tasks budget program.lower.sample machine' =
      (machine'.input program.written.quiet, .next) := by
    rw [lower_sample, exec_beginAudioOutputFrame,
      exec_not_taken (eval_available (idle.input _).available), List.append_nil,
      neutralAudioOutputs, execAll_collectNeutralOutputs]
    have cleared : Store.neutralize program.neutralAudioNames program.outs
        (program.beginAudioOutputFrame machine'.store) = program.written.quiet machine'.store :=
      Store.neutralize_neutralize _ _ _ _
    exact congrArg (fun store => ({ machine' with store }, Flow.next)) cleared
  rw [run_same (by simp) ran]
  exact .some (idle.input _)

theorem release_related (idle : Idle machine machine') :
    Option.Rel SameStore (some (machine.input program.written.release))
      (LoweredOwner.run tasks budget program.lower.post machine') := by
  have ran : execAll tasks budget program.lower.post machine' =
      (machine'.input program.postHooks, .next) := by
    rw [lower_post, exec_not_taken (eval_available idle.available)]
    rfl
  rw [run_same (by simp) ran]
  exact .some (idle.input _).store

/-- Every program. -/
theorem realizes : Realizes tasks budget program.lower program.written := by
  have abortable : Abortable tasks budget
      (Store.neutralize program.neutralControlNames program.kouts) program.unavailable :=
    program.abortable
  have pre_follows := execAll_follows_runtimeField abortable program.written.pre
    program.blockPre.source
  have enters : ∀ machine, execAll tasks budget program.lower.pre machine =
      execAll tasks budget (lowerTaskAbort (propagateTaskAbortThroughLoops
        (rewriteTaskControls program.unavailable .runtimeField program.written.pre)))
        { machine with available := true } := by
    intro machine
    have lowered : program.lower.pre = .effect program.preHooks :: .setAvailable true ::
        lowerTaskAbort (propagateTaskAbortThroughLoops
          (rewriteTaskControls program.unavailable .runtimeField program.blockPre.body)) := rfl
    have source : lowerTaskAbort (propagateTaskAbortThroughLoops
        (rewriteTaskControls program.unavailable .runtimeField program.written.pre)) =
        .effect program.preHooks :: lowerTaskAbort (propagateTaskAbortThroughLoops
          (rewriteTaskControls program.unavailable .runtimeField program.blockPre.body)) := rfl
    rw [lowered, source, execAll_cons_next rfl, execAll_cons_next rfl, execAll_cons_next rfl]
  exact {
    spent := fun _ _ same => (pre_related (by simp) pre_follows enters same).1
    unfinished := fun _ _ same => (pre_related (by simp) pre_follows enters same).2.1
    finished := fun _ _ same => (pre_related (by simp) pre_follows enters same).2.2
    sample := fun _ _ together => program.sample_related together
    post := fun _ _ together => program.post_related together
    quiet := fun _ _ idle => program.quiet_related idle
    release := fun _ _ idle => program.release_related idle }

end Program

end Onda.Tasks
