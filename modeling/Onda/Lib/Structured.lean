import Mathlib.Data.List.Basic

/-!
# Structured programs with loops, breaks and continues

A statement is an atomic operation, a two-way branch, an unconditional loop or
one of the three jumps.  Nothing is known about the operations, the branch
conditions or the returned operands: they are type parameters, and a `Sem`
says what they do to a state.

### Design decisions

* **Execution is a function.**  `Stm.exec` and `execBlock` are structural on the
  syntax, so every run of a concrete program computes.  The only source of
  divergence is a loop, and `iterate` bounds each loop by a budget; a run that
  exhausts it stops with `Sem.spent`.  A statement about *every budget* is a
  statement about every finite prefix of the possibly infinite run.

* **The state survives a stop.**  An outcome never swallows the state, so a
  trace kept inside the state is still there after a failure.

* **A repetition is visible.**  Before a loop repeats, `Sem.again` may record in
  the state that it does, given the state in which the loop was entered.
-/

namespace Structured

/-- Statements over operations `S`, branch conditions `C` and returned
operands `R`. -/
inductive Stm (S C R : Type) where
  | op (operation : S)
  | ite (condition : C) (thenBlock elseBlock : List (Stm S C R))
  | loop (body : List (Stm S C R))
  | brk
  | cont
  | ret (result : R)

/-- How a statement hands control on: to its successor, out of the enclosing
loop, to the next pass, to the caller, or nowhere. -/
inductive Outcome (V E : Type) where
  | fall
  | brk
  | cont
  | ret (value : V)
  | stop (reason : E)
deriving DecidableEq, Repr

/-- The meaning of the parameters of `Stm` over states `σ`: operations may stop
with a reason, conditions and returned operands are evaluated in the state, and `again entry now` is the state
in which a loop entered in `entry` repeats. -/
structure Sem (σ S C R V E : Type) where
  op : S → σ → σ × Option E
  cond : C → σ → σ × Except E Bool
  ret : R → σ → σ × Except E V
  again : σ → σ → σ
  spent : E

section Execution

variable {σ S C R V E : Type}

/-- At most `budget` passes of a loop body; `again` is applied between them. -/
def iterate (spent : E) (again : σ → σ) (body : σ → σ × Outcome V E) :
    Nat → σ → σ × Outcome V E
  | 0, state => (state, .stop spent)
  | budget + 1, state =>
    match body state with
    | (next, .fall) => iterate spent again body budget (again next)
    | (next, .cont) => iterate spent again body budget (again next)
    | (next, .brk) => (next, .fall)
    | (next, .ret value) => (next, .ret value)
    | (next, .stop reason) => (next, .stop reason)

mutual

/-- One statement; `budget` bounds the passes of each loop. -/
def Stm.exec (sem : Sem σ S C R V E) (budget : Nat) :
    Stm S C R → σ → σ × Outcome V E
  | .op operation, state =>
    match sem.op operation state with
    | (next, none) => (next, .fall)
    | (next, some reason) => (next, .stop reason)
  | .ite condition thenBlock elseBlock, state =>
    match sem.cond condition state with
    | (next, .ok true) => execBlock sem budget thenBlock next
    | (next, .ok false) => execBlock sem budget elseBlock next
    | (next, .error reason) => (next, .stop reason)
  | .loop body, state =>
    iterate sem.spent (sem.again state) (execBlock sem budget body) budget state
  | .brk, state => (state, .brk)
  | .cont, state => (state, .cont)
  | .ret result, state =>
    match sem.ret result state with
    | (next, .ok value) => (next, .ret value)
    | (next, .error reason) => (next, .stop reason)

/-- Statements in order, until one of them does not fall through. -/
def execBlock (sem : Sem σ S C R V E) (budget : Nat) :
    List (Stm S C R) → σ → σ × Outcome V E
  | [], state => (state, .fall)
  | statement :: rest, state =>
    match Stm.exec sem budget statement state with
    | (next, .fall) => execBlock sem budget rest next
    | (next, .brk) => (next, .brk)
    | (next, .cont) => (next, .cont)
    | (next, .ret value) => (next, .ret value)
    | (next, .stop reason) => (next, .stop reason)

end

@[simp] theorem execBlock_nil (sem : Sem σ S C R V E) (budget : Nat) (state : σ) :
    execBlock sem budget [] state = (state, .fall) := rfl

@[simp] theorem exec_brk (sem : Sem σ S C R V E) (budget : Nat) (state : σ) :
    Stm.exec sem budget .brk state = (state, .brk) := rfl

@[simp] theorem exec_cont (sem : Sem σ S C R V E) (budget : Nat) (state : σ) :
    Stm.exec sem budget .cont state = (state, .cont) := rfl

end Execution

/-! ## Conditions on how a statement ends -/

/-- What holds of the state for each way to hand control on. -/
structure Post (σ V E : Type) where
  fall : σ → Prop
  brk : σ → Prop
  cont : σ → Prop
  ret : V → σ → Prop
  stop : E → σ → Prop

namespace Post

variable {σ S C R V E : Type}

def Holds (post : Post σ V E) : σ × Outcome V E → Prop
  | (state, .fall) => post.fall state
  | (state, .brk) => post.brk state
  | (state, .cont) => post.cont state
  | (state, .ret value) => post.ret value state
  | (state, .stop reason) => post.stop reason state

/-- `post` with other conditions on falling through. -/
def onFall (post : Post σ V E) (fall : σ → Prop) : Post σ V E := { post with fall := fall }

structure Implies (post weaker : Post σ V E) : Prop where
  fall : ∀ state, post.fall state → weaker.fall state
  brk : ∀ state, post.brk state → weaker.brk state
  cont : ∀ state, post.cont state → weaker.cont state
  ret : ∀ value state, post.ret value state → weaker.ret value state
  stop : ∀ reason state, post.stop reason state → weaker.stop reason state

theorem Holds.weaken {post weaker : Post σ V E} {run : σ × Outcome V E}
    (holds : post.Holds run) (implies : post.Implies weaker) : weaker.Holds run := by
  obtain ⟨state, outcome⟩ := run
  cases outcome with
  | fall => exact implies.fall state holds
  | brk => exact implies.brk state holds
  | cont => exact implies.cont state holds
  | ret value => exact implies.ret value state holds
  | stop reason => exact implies.stop reason state holds

end Post

/-- Every run of a statement from a state with `pre` ends as `post` says. -/
def Stm.Ends {σ S C R V E : Type} (sem : Sem σ S C R V E) (budget : Nat) (pre : σ → Prop)
    (statement : Stm S C R) (post : Post σ V E) : Prop :=
  ∀ state, pre state → post.Holds (Stm.exec sem budget statement state)

/-- Every run of a block from a state with `pre` ends as `post` says. -/
def BlockEnds {σ S C R V E : Type} (sem : Sem σ S C R V E) (budget : Nat) (pre : σ → Prop)
    (block : List (Stm S C R)) (post : Post σ V E) : Prop :=
  ∀ state, pre state → post.Holds (execBlock sem budget block state)

section Rules

variable {σ S C R V E : Type} {sem : Sem σ S C R V E} {budget : Nat}
  {pre : σ → Prop} {post : Post σ V E}

theorem Stm.Ends.weaken {statement : Stm S C R} {weaker : Post σ V E}
    (ends : Stm.Ends sem budget pre statement post) (implies : post.Implies weaker) :
    Stm.Ends sem budget pre statement weaker :=
  fun state holds => (ends state holds).weaken implies

theorem BlockEnds.weaken {block : List (Stm S C R)} {weaker : Post σ V E}
    (ends : BlockEnds sem budget pre block post) (implies : post.Implies weaker) :
    BlockEnds sem budget pre block weaker :=
  fun state holds => (ends state holds).weaken implies

/-- An operation falls through or stops. -/
theorem ends_op {operation : S}
    (falls : ∀ state next, pre state → sem.op operation state = (next, none) →
      post.fall next)
    (stops : ∀ state next reason, pre state →
      sem.op operation state = (next, some reason) → post.stop reason next) :
    Stm.Ends sem budget pre (.op operation) post := by
  intro state holds
  unfold Stm.exec
  rcases run : sem.op operation state with ⟨next, _ | reason⟩
  · exact falls state next holds run
  · exact stops state next reason holds run

/-- A branch runs in the state its condition was evaluated in. -/
theorem ends_ite {condition : C} {thenBlock elseBlock : List (Stm S C R)}
    (taken : Bool → σ → Prop)
    (chosen : ∀ state next value, pre state →
      sem.cond condition state = (next, .ok value) → taken value next)
    (stops : ∀ state next reason, pre state →
      sem.cond condition state = (next, .error reason) → post.stop reason next)
    (thenEnds : BlockEnds sem budget (taken true) thenBlock post)
    (elseEnds : BlockEnds sem budget (taken false) elseBlock post) :
    Stm.Ends sem budget pre (.ite condition thenBlock elseBlock) post := by
  intro state holds
  unfold Stm.exec
  rcases run : sem.cond condition state with ⟨next, reason | value⟩
  · exact stops state next reason holds run
  · cases value with
    | true => exact thenEnds next (chosen state next true holds run)
    | false => exact elseEnds next (chosen state next false holds run)

theorem ends_brk (breaks : ∀ state, pre state → post.brk state) :
    Stm.Ends sem budget pre .brk post := breaks

theorem ends_cont (continues : ∀ state, pre state → post.cont state) :
    Stm.Ends sem budget pre .cont post := continues

theorem ends_ret {result : R}
    (returns : ∀ state next value, pre state → sem.ret result state = (next, .ok value) →
      post.ret value next)
    (stops : ∀ state next reason, pre state →
      sem.ret result state = (next, .error reason) → post.stop reason next) :
    Stm.Ends sem budget pre (.ret result) post := by
  intro state holds
  unfold Stm.exec
  rcases run : sem.ret result state with ⟨next, reason | value⟩
  · exact stops state next reason holds run
  · exact returns state next value holds run

theorem ends_nil (falls : ∀ state, pre state → post.fall state) :
    BlockEnds sem budget pre [] post := falls

/-- A block runs its head; where the head falls through, the rest follows. -/
theorem ends_cons {statement : Stm S C R} {rest : List (Stm S C R)} (middle : σ → Prop)
    (head : Stm.Ends sem budget pre statement (post.onFall middle))
    (tail : BlockEnds sem budget middle rest post) :
    BlockEnds sem budget pre (statement :: rest) post := by
  intro state holds
  have first := head state holds
  unfold execBlock
  rcases run : Stm.exec sem budget statement state with ⟨next, outcome⟩
  rw [run] at first
  cases outcome with
  | fall => exact tail next first
  | brk | cont | ret | stop => exact first

/-- What a pass of a loop body has to establish: the invariant again in the
state in which the loop repeats, and the loop's own condition where it is
left. -/
def Post.pass (post : Post σ V E) (again : σ → σ) (invariant : σ → Prop) :
    Post σ V E where
  fall next := invariant (again next)
  cont next := invariant (again next)
  brk := post.fall
  ret := post.ret
  stop := post.stop

theorem iterate_holds {spent : E} {again : σ → σ} {body : σ → σ × Outcome V E}
    {invariant : σ → Prop}
    (pass : ∀ state, invariant state → (post.pass again invariant).Holds (body state))
    (out : ∀ state, invariant state → post.stop spent state)
    (budget : Nat) (state : σ) (holds : invariant state) :
    post.Holds (iterate spent again body budget state) := by
  induction budget generalizing state with
  | zero => exact out state holds
  | succ budget ih =>
    have ended := pass state holds
    unfold iterate
    rcases run : body state with ⟨next, outcome⟩
    rw [run] at ended
    cases outcome with
    | fall | cont => exact ih (again next) ended
    | brk | ret | stop => exact ended

/-- **Loop rule.**  The invariant may depend on the state in which the loop was
entered. -/
theorem ends_loop {body : List (Stm S C R)} (invariant : σ → σ → Prop)
    (enter : ∀ entry, pre entry → invariant entry entry)
    (pass : ∀ entry, pre entry →
      BlockEnds sem budget (invariant entry) body
        (post.pass (sem.again entry) (invariant entry)))
    (out : ∀ entry state, pre entry → invariant entry state →
      post.stop sem.spent state) :
    Stm.Ends sem budget pre (.loop body) post := by
  intro entry holds
  unfold Stm.exec
  exact iterate_holds (pass entry holds) (fun state => out entry state holds) budget
    entry (enter entry holds)

end Rules

/-! ## Invariants of whole runs -/

/-- The parts of a statement that `Sem` gives a meaning to. -/
inductive Atom (S C R : Type) where
  | op (operation : S)
  | cond (condition : C)
  | ret (result : R)

section Atoms

variable {σ S C R V E : Type}

mutual

def Stm.atoms : Stm S C R → List (Atom S C R)
  | .op operation => [.op operation]
  | .ite condition thenBlock elseBlock =>
    .cond condition :: (blockAtoms thenBlock ++ blockAtoms elseBlock)
  | .loop body => blockAtoms body
  | .brk | .cont => []
  | .ret result => [.ret result]

def blockAtoms : List (Stm S C R) → List (Atom S C R)
  | [] => []
  | statement :: rest => Stm.atoms statement ++ blockAtoms rest

end

/-- Every way to execute an atom keeps `I`. -/
structure Sem.Keeps (sem : Sem σ S C R V E) (I : σ → Prop) (atoms : List (Atom S C R)) :
    Prop where
  op : ∀ operation, .op operation ∈ atoms → ∀ state, I state → I (sem.op operation state).1
  cond : ∀ condition, .cond condition ∈ atoms → ∀ state, I state →
    I (sem.cond condition state).1
  ret : ∀ result, .ret result ∈ atoms → ∀ state, I state → I (sem.ret result state).1
  again : ∀ entry state, I entry → I state → I (sem.again entry state)

/-- `I` holds however a run ends. -/
def Post.always (I : σ → Prop) : Post σ V E where
  fall := I
  brk := I
  cont := I
  ret _ := I
  stop _ := I

theorem Post.always_holds {I : σ → Prop} {run : σ × Outcome V E} :
    (Post.always I).Holds run ↔ I run.1 := by
  obtain ⟨state, outcome⟩ := run
  cases outcome <;> exact Iff.rfl

variable {sem : Sem σ S C R V E} {budget : Nat} {I : σ → Prop}

theorem Sem.Keeps.mono {atoms fewer : List (Atom S C R)} (keeps : sem.Keeps I atoms)
    (sub : ∀ atom ∈ fewer, atom ∈ atoms) : sem.Keeps I fewer :=
  ⟨fun operation mem => keeps.op operation (sub _ mem),
    fun condition mem => keeps.cond condition (sub _ mem),
    fun result mem => keeps.ret result (sub _ mem), keeps.again⟩

mutual

theorem Stm.keeps_always : ∀ (statement : Stm S C R),
    sem.Keeps I statement.atoms → Stm.Ends sem budget I statement (Post.always I)
  | .op operation, keeps => by
    have kept := keeps.op operation (by simp [Stm.atoms])
    refine ends_op (fun state next holds run => ?_) fun state next reason holds run => ?_
    · have after := kept state holds
      rwa [run] at after
    · have after := kept state holds
      rwa [run] at after
  | .ite condition thenBlock elseBlock, keeps => by
    have kept := keeps.cond condition (by simp [Stm.atoms])
    refine ends_ite (fun _ => I) (fun state next value holds run => ?_)
      (fun state next reason holds run => ?_) ?_ ?_
    · have after := kept state holds
      rwa [run] at after
    · have after := kept state holds
      rwa [run] at after
    · exact block_keeps_always thenBlock
        (keeps.mono fun atom mem => by simp [Stm.atoms, mem])
    · exact block_keeps_always elseBlock
        (keeps.mono fun atom mem => by simp [Stm.atoms, mem])
  | .loop body, keeps => by
    refine ends_loop (fun _ => I) (fun entry holds => holds) (fun entry atEntry => ?_)
      fun entry state _ holds => holds
    exact (block_keeps_always body (keeps.mono fun atom mem => by simp [Stm.atoms, mem])).weaken
      { fall := fun state holds => keeps.again entry state atEntry holds
        cont := fun state holds => keeps.again entry state atEntry holds
        brk := fun _ => id
        ret := fun _ _ => id
        stop := fun _ _ => id }
  | .brk, _ => ends_brk fun _ => id
  | .cont, _ => ends_cont fun _ => id
  | .ret result, keeps => by
    have kept := keeps.ret result (by simp [Stm.atoms])
    refine ends_ret (fun state next value holds run => ?_)
      fun state next reason holds run => ?_
    · have after := kept state holds
      rwa [run] at after
    · have after := kept state holds
      rwa [run] at after

theorem block_keeps_always : ∀ (block : List (Stm S C R)),
    sem.Keeps I (blockAtoms block) → BlockEnds sem budget I block (Post.always I)
  | [], _ => ends_nil fun _ => id
  | statement :: rest, keeps =>
    ends_cons I
      (Stm.keeps_always statement (keeps.mono fun atom mem => by simp [blockAtoms, mem]))
      (block_keeps_always rest (keeps.mono fun atom mem => by simp [blockAtoms, mem]))

end

/-- **Run lemma.**  What every atom of a block keeps, a run of the block keeps. -/
theorem execBlock_keeps {block : List (Stm S C R)}
    (keeps : sem.Keeps I (blockAtoms block)) {state : σ} (holds : I state) :
    I (execBlock sem budget block state).1 :=
  Post.always_holds.mp (block_keeps_always block keeps state holds)

end Atoms

end Structured
