import Mathlib
import Onda.Lib.Steps

/-!
# Loading of buffers during playback

The render thread submits loads to a loader thread and polls for their results; both queues are
bounded.  Only the loader waits: a full request queue refuses a load.  A revision for each name
tells whether a result is still current when it arrives.
-/

namespace Onda.Playback

/-- `LOAD_QUEUE_CAPACITY`. -/
def loadQueueCapacity : Nat := 16

/-- The bound of the queue of completed loads. -/
def completedCapacity : Nat := 1

/-- The answers to a bind: `BufferLoadStatus`, or an error. -/
inductive Reply where
  | applied
  | superseded
  | error
deriving DecidableEq

/-- `LoadRequest`.  `C` are the commands that wait for a reply, `N` the names of buffers. -/
structure LoadRequest (C N : Type) where
  name : N
  revision : Nat
  reply : C

/-- `LoadedBuffer`; a load that failed has no buffer. -/
structure LoadedBuffer (C N B : Type) extends LoadRequest C N where
  prepared : Option B

/-- The loader thread. -/
inductive Loader (C N B : Type) where
  | waiting
  | loading (request : LoadRequest C N)
  | sending (loaded : LoadedBuffer C N B)

/-- What happened, in the order of the render thread. -/
inductive Event (C N : Type) where
  | bind (reply : C) (name : N)
  | clear (name : N)
  | installed (reply : C) (name : N)
  | replied (reply : C) (name : N) (result : Reply)

/-- `BufferWorker`, its thread, and the buffers of the run. -/
structure BufferWorker (C N B : Type) where
  revisions : N → Nat
  requests : List (LoadRequest C N)
  loader : Loader C N B
  completed : List (LoadedBuffer C N B)
  installed : N → Option B
  log : List (Event C N)

/-- The commands carry what the run answers: whether it replaced the buffer, and whether its output
could be published afterwards. -/
inductive Action (C N B : Type) where
  | bind (reply : C) (name : N)
  | clear (name : N) (replaced : Bool)
  | poll (replaced published : Bool)
  /-- The loader receives a request. -/
  | receive
  /-- A load ends. -/
  | load (prepared : Option B)
  /-- The loader sends a result. -/
  | send

namespace BufferWorker

variable {C N B : Type} [DecidableEq N]

def initial (installed : N → Option B) : BufferWorker C N B where
  revisions _ := 0
  requests := []
  loader := .waiting
  completed := []
  installed := installed
  log := []

/-- `invalidate`; revisions that are exhausted panic. -/
def invalidate (worker : BufferWorker C N B) (name : N) : Option (BufferWorker C N B) :=
  if worker.revisions name + 1 < 2 ^ 64 then
    some
      { worker with
        revisions := Function.update worker.revisions name (worker.revisions name + 1) }
  else none

/-- `load`, when its name is invalidated. -/
def submit (worker : BufferWorker C N B) (reply : C) (name : N) : BufferWorker C N B :=
  if worker.requests.length < loadQueueCapacity then
    { worker with
      requests := worker.requests ++ [⟨name, worker.revisions name, reply⟩]
      log := worker.log ++ [.bind reply name] }
  else
    { worker with log := worker.log ++ [.bind reply name, .replied reply name .error] }

/-- `is_current`. -/
def isCurrent (worker : BufferWorker C N B) (loaded : LoadedBuffer C N B) : Bool :=
  worker.revisions loaded.name = loaded.revision

/-- A completed load. -/
def complete (worker : BufferWorker C N B) (loaded : LoadedBuffer C N B)
    (replaced published : Bool) : BufferWorker C N B :=
  if worker.isCurrent loaded then
    match loaded.prepared with
    | none =>
      { worker with log := worker.log ++ [.replied loaded.reply loaded.name .error] }
    | some prepared =>
      if replaced then
        { worker with
          installed := Function.update worker.installed loaded.name (some prepared)
          log := worker.log ++ [.installed loaded.reply loaded.name,
            .replied loaded.reply loaded.name (if published then .applied else .error)] }
      else
        { worker with log := worker.log ++ [.replied loaded.reply loaded.name .error] }
  else
    { worker with log := worker.log ++ [.replied loaded.reply loaded.name .superseded] }

def step (worker : BufferWorker C N B) : Action C N B → Option (BufferWorker C N B)
  | .bind reply name => (worker.invalidate name).map fun revised => revised.submit reply name
  | .clear name replaced =>
    (worker.invalidate name).map fun revised =>
      { revised with
        installed :=
          if replaced then Function.update worker.installed name none else worker.installed
        log := worker.log ++ [.clear name] }
  | .poll replaced published =>
    match worker.completed with
    | [] => none
    | loaded :: rest => some ({ worker with completed := rest }.complete loaded replaced published)
  | .receive =>
    match worker.loader, worker.requests with
    | .waiting, request :: rest => some { worker with loader := .loading request, requests := rest }
    | _, _ => none
  | .load prepared =>
    match worker.loader with
    | .loading request => some { worker with loader := .sending ⟨request, prepared⟩ }
    | .waiting | .sending _ => none
  | .send =>
    match worker.loader with
    | .sending loaded =>
      if worker.completed.length < completedCapacity then
        some { worker with loader := .waiting, completed := worker.completed ++ [loaded] }
      else none
    | .waiting | .loading _ => none

/-! ### What a run should do -/

end BufferWorker

variable {C N B : Type}

def Loader.request : Loader C N B → List (LoadRequest C N)
  | waiting => []
  | loading request => [request]
  | sending loaded => [loaded.toLoadRequest]

/-- The accepted loads that are not answered, the oldest first. -/
def BufferWorker.pending (worker : BufferWorker C N B) : List (LoadRequest C N) :=
  worker.completed.map (·.toLoadRequest) ++ worker.loader.request ++ worker.requests

/-- The command of a bind. -/
def Event.submitted : Event C N → Option C
  | bind reply _ => some reply
  | clear _ | installed _ _ | replied _ _ _ => none

/-- The command that gets a reply. -/
def Event.answered : Event C N → Option C
  | replied reply _ _ => some reply
  | bind _ _ | clear _ | installed _ _ => none

/-- A bind or clear of a name. -/
def Event.Commands (name : N) : Event C N → Prop
  | bind _ other | clear other => other = name
  | installed _ _ | replied _ _ _ => False

/-- The bind is the last command on its name. -/
def Latest (log : List (Event C N)) (reply : C) (name : N) : Prop :=
  ∃ before after, log = before ++ .bind reply name :: after ∧
    ∀ event ∈ after, ¬event.Commands name

/-- Steps of the loader, and polls that find a result. -/
def Action.IsWork : Action C N B → Prop
  | poll _ _ | receive | load _ | send => True
  | bind _ _ | clear _ _ => False

end Onda.Playback
