import Odbcpp.Database.BackendResult
import Odbcpp.Foundation.Threads

/-!
# The asynchronous TLS transport

`AsyncTlsTransport` at the grain of its critical sections: what a thread or the worker does while it
holds `queue_mutex_` or an operation's mutex is one step. A call of the wrapped transport returns
with any outcome. A callback may call the transport again, on its own thread. Destruction is
`Core::shutdown`; afterwards only the handles of operations are used.
-/

namespace Odbcpp.Transport

open Foundation Database

/-! ## Operations -/

inductive TaskKind where
  | connectTls | connectPlain | upgrade | send | recv
deriving DecidableEq

/-- The kinds of which one may be pending at a time. -/
def TaskKind.connecting : TaskKind → Bool
  | .connectTls | .connectPlain => true
  | _ => false

/-- What a callback receives. -/
inductive IoOutcome where
  | connected
  | transferred (n : Nat) (eof : Bool)
  | error (code : DbErrorCode) (message : String)
deriving DecidableEq

def cancelledResult : IoOutcome := .error .networkError "async TLS operation cancelled"

def expiredResult : IoOutcome := .error .timeout "async TLS operation deadline expired in queue"

/-- What a submission reports that the queue did not take. -/
def TaskKind.refusedResult : TaskKind → IoOutcome
  | .connectTls => .error .networkError "async TLS queue is full or a connect is already pending"
  | _ => .error .networkError "async TLS queue is full"

/-- The flags of an operation. -/
structure OperationState where
  cancellationRequested : Bool := false
  cancelled : Bool := false
  complete : Bool := false
deriving DecidableEq

/-- The section of `OperationState::cancel`, and whether the hook is to be run. -/
def OperationState.cancel (state : OperationState) : OperationState × Bool :=
  if state.complete || state.cancellationRequested then (state, false)
  else ({ state with cancellationRequested := true, cancelled := true }, true)

/-- The section of `OperationState::finish_with`: the first to finish learns whether
cancellation was requested. -/
def OperationState.finishWith (state : OperationState) : OperationState × Option Bool :=
  if state.complete then (state, none)
  else ({ state with complete := true }, some state.cancellationRequested)

/-- A task; its state is known by a number. `room` is the size of the target buffer of a
receive. -/
structure Task where
  state : Nat
  kind : TaskKind
  deadline : Nat
  room : Nat := 0
deriving DecidableEq

/-! ## The queue -/

/-- What `queue_mutex_` protects, and how often `idle_` has been notified. -/
structure TaskQueue where
  tasks : List Task := []
  active : Option Task := none
  stopping : Bool := false
  idleSignals : Nat := 0
deriving DecidableEq

/-- The clock readings of a submission, in the order in which it takes them. -/
structure Readings where
  arrival : Nat
  reclaiming : Nat
  admission : Nat
deriving DecidableEq

namespace TaskQueue

variable (queue : TaskQueue)

def idle : Bool := queue.active.isNone && queue.tasks.isEmpty

def size : Nat := queue.tasks.length + queue.active.toList.length

def hasPendingConnect : Bool :=
  queue.active.any (·.kind.connecting) || queue.tasks.any (·.kind.connecting)

def signalIdle : TaskQueue :=
  { queue with idleSignals := queue.idleSignals + 1 }

def signalWhenIdle : TaskQueue :=
  if queue.idle then queue.signalIdle else queue

def blocks (depth : Nat) (queue : TaskQueue) (task : Task) : Bool :=
  depth ≤ queue.size || task.kind.connecting && queue.hasPendingConnect

def expired (now : Nat) : List Task :=
  queue.tasks.filter (·.deadline ≤ now)

def reclaim (now : Nat) : TaskQueue :=
  signalWhenIdle { queue with tasks := queue.tasks.filter fun task => !(task.deadline ≤ now) }

def push (task : Task) : TaskQueue :=
  { queue with tasks := queue.tasks ++ [task] }

/-- What becomes of a submitted task. -/
inductive Admission where
  | accepted | expired | refused
deriving DecidableEq

/-- The section of `submit`: the queue it leaves, the expired tasks it took from the
queue, and what it does with the new one. -/
def submit (depth : Nat) (queue : TaskQueue) (task : Task) (readings : Readings) :
    TaskQueue × List Task × Admission :=
  if queue.stopping then (queue, [], .refused)
  else if task.deadline ≤ readings.arrival then (queue, [], .expired)
  else
    let full := queue.blocks depth task
    let kept := if full then queue.reclaim readings.reclaiming else queue
    let removed := if full then queue.expired readings.reclaiming else []
    if task.deadline ≤ readings.admission then (kept, removed, .expired)
    else if kept.blocks depth task then (kept, removed, .refused)
    else (kept.push task, removed, .accepted)

def isActive (state : Nat) : Bool := queue.active.any (·.state = state)

/-- The section of `request_cancel`: a task that waits in the queue is taken out of it. -/
def requestCancel (state : Nat) : TaskQueue × Option Task :=
  if queue.isActive state then (queue, none)
  else
    match queue.tasks.find? (·.state = state) with
    | none => (queue, none)
    | some task =>
      (signalWhenIdle { queue with tasks := queue.tasks.eraseP (·.state = state) }, some task)

def finishActive (task : Task) : TaskQueue :=
  let left : TaskQueue :=
    if queue.isActive task.state then { queue with active := none } else queue
  if left.tasks.isEmpty then left.signalIdle else left

/-- The states that `close_transport` and `shutdown` cancel. -/
def states : List Nat := (queue.active.toList ++ queue.tasks).map (·.state)

end TaskQueue

/-! ## Threads -/

/-- Where the worker stands. -/
inductive WorkerPoint where
  | waiting
  /-- Blocked on `queue_ready_`. -/
  | sleeping
  | taken (task : Task)
  /-- In `execute_*_task`, with `tls_mutex_` held. -/
  | executing (task : Task)
  | executed (task : Task) (outcome : IoOutcome) (storage : Bytes)
  /-- A connect or a send that has looked at the cancellation flag. -/
  | tested (task : Task) (outcome : IoOutcome)
  /-- And has left the active slot. -/
  | left (task : Task) (outcome : IoOutcome)
  /-- A receive after its `finish_with`, with what its callback is to get. -/
  | settled (task : Task) (due : Option IoOutcome)
  | reporting (state : Nat) (outcome : IoOutcome)
  | inCallback
  | exited
deriving DecidableEq

/-- On which ground a thread completes a task. -/
inductive Manner where
  | cancelled | expired | refused
deriving DecidableEq

/-- What the callback is told, given that cancellation was requested or not. -/
def Manner.outcome (manner : Manner) (kind : TaskKind) (requested : Bool) : IoOutcome :=
  match manner with
  | .cancelled => cancelledResult
  | .expired => if requested then cancelledResult else expiredResult
  | .refused => kind.refusedResult

/-- A call in progress on some thread. `owed` are the states that were pending when a
close began. -/
inductive Frame where
  | submit (task : Task)
  /-- Complete tasks; after that, a submission returns the handle of its operation. -/
  | complete (todo : List (Task × Manner)) (handle : Option Nat)
  | calling (state : Nat) (outcome : IoOutcome)
  | inCallback
  | cancel (state : Nat)
  | requestCancel (state : Nat)
  | cancelReturns (state : Nat)
  | close (owed : List Nat)
  | cancelEach (states : List Nat)
  | awaitIdle (owed : List Nat)
  /-- Blocked on `idle_` since it had been notified so often. -/
  | asleep (owed : List Nat) (signals : Nat)
  | resetTls (owed : List Nat)
  | destroy
  /-- The end of a shutdown: wake the worker and wait for it to exit. -/
  | awaitExit
  | join
  /-- Notify `queue_ready_`. -/
  | wakeWorker
deriving DecidableEq

/-- What can be observed of a run. -/
inductive Event where
  | submitted (task : Task)
  | accepted (state : Nat)
  | finished (state : Nat)
  | written (task : Task) (bytes : Bytes)
  | called (state : Nat) (outcome : IoOutcome)
  | handed (state : Nat)
  | cancelReturned (state : Nat)
  | closed (onWorker : Bool) (owed : List Nat)
  | destroyed
deriving DecidableEq

/-- What the threads share; the worker's own position is read by those who join it or
wait for `tls_mutex_`. The history is newest first. -/
structure Shared where
  queue : TaskQueue := {}
  states : Nat → OperationState := fun _ => {}
  nextState : Nat := 0
  worker : WorkerPoint := .waiting
  clock : Nat := 0
  history : List Event := []

namespace Shared

variable (shared : Shared)

@[simp] def record (event : Event) : Shared :=
  { shared with history := event :: shared.history }

def wake : Shared :=
  { shared with worker := if shared.worker = .sleeping then .waiting else shared.worker }

/-- Finish an operation, unless it has been: whether cancellation was requested. -/
def finish (state : Nat) : Shared × Option Bool :=
  match (shared.states state).finishWith with
  | (_, none) => (shared, none)
  | (finished, some requested) =>
    (({ shared with states := Function.update shared.states state finished }).record
      (.finished state), some requested)

/-- `submit`, up to the completions it leaves to its caller. -/
def submit (depth : Nat) (shared : Shared) (task : Task) (readings : Readings) :
    Shared × List Frame :=
  let (queue, removed, admission) := shared.queue.submit depth task readings
  let after := { shared with queue, clock := readings.admission }
  let todo := removed.map (·, Manner.expired)
  match admission with
  | .accepted =>
    (after.record (.accepted task.state), [.wakeWorker, .complete todo (some task.state)])
  | .expired => (after, [.complete (todo ++ [(task, .expired)]) (some task.state)])
  | .refused => (after, [.complete (todo ++ [(task, .refused)]) (some task.state)])

/-- `complete_cancelled_task`, `complete_expired_task` and the refusal of a submission. -/
def complete (task : Task) (manner : Manner) : Shared × List Frame :=
  match shared.finish task.state with
  | (after, none) => (after, [])
  | (after, some requested) =>
    (after, [.calling task.state (manner.outcome task.kind requested)])

def cancel (state : Nat) : Shared × List Frame :=
  match (shared.states state).cancel with
  | (_, false) => (shared, [.cancelReturns state])
  | (requested, true) =>
    ({ shared with states := Function.update shared.states state requested },
      [.requestCancel state, .cancelReturns state])

def requestCancel (state : Nat) : Shared × List Frame :=
  match shared.queue.requestCancel state with
  | (queue, none) => ({ shared with queue }, [.wakeWorker])
  | (queue, some task) =>
    ({ shared with queue }, [.complete [(task, .cancelled)] none, .wakeWorker])

/-- `tls_mutex_` is held by the worker. -/
def tlsLocked : Bool :=
  match shared.worker with
  | .executing _ => true
  | _ => false

/-- One step of the innermost frame of a thread; none while it is blocked. -/
def advance (depth : Nat) (onWorker : Bool) (readings : Readings) (shared : Shared) :
    Frame → Option (Shared × List Frame)
  | .submit task =>
    if shared.clock ≤ readings.arrival ∧ readings.arrival ≤ readings.reclaiming ∧
        readings.reclaiming ≤ readings.admission then
      some (shared.submit depth task readings)
    else none
  | .complete [] none => some (shared, [])
  | .complete [] (some state) => some (shared.record (.handed state), [])
  | .complete ((task, manner) :: todo) handle =>
    let (after, calls) := shared.complete task manner
    some (after, calls ++ [.complete todo handle])
  | .calling state outcome => some (shared.record (.called state outcome), [.inCallback])
  | .inCallback => some (shared, [])
  | .cancel state => some (shared.cancel state)
  | .requestCancel state => some (shared.requestCancel state)
  | .cancelReturns state => some (shared.record (.cancelReturned state), [])
  | .close owed =>
    some (shared, [.cancelEach shared.queue.states,
      if onWorker then .resetTls owed else .awaitIdle owed])
  | .cancelEach [] => some (shared, [])
  | .cancelEach (state :: states) => some (shared, [.cancel state, .cancelEach states])
  | .awaitIdle owed =>
    some (shared, [if shared.queue.idle then .resetTls owed
      else .asleep owed shared.queue.idleSignals])
  | .asleep owed signals =>
    if signals < shared.queue.idleSignals then some (shared, [.awaitIdle owed]) else none
  | .resetTls owed =>
    if shared.tlsLocked then none else some (shared.record (.closed onWorker owed), [])
  | .destroy =>
    if shared.queue.stopping then some (shared, [])
    else some ({ shared with queue := { shared.queue with stopping := true } },
      [.cancelEach shared.queue.states, .awaitExit])
  | .awaitExit => some (shared.wake, if onWorker then [] else [.join])
  | .join => if shared.worker = .exited then some (shared, []) else none
  | .wakeWorker => some (shared.wake, [])

/-- The end of a receive: its `finish_with` decides between cancellation and the copy to
the target. -/
def settle (task : Task) (outcome : IoOutcome) (storage : Bytes) : Shared :=
  match shared.finish task.state with
  | (after, none) => { after with worker := .settled task none }
  | (after, some true) => { after with worker := .settled task (some cancelledResult) }
  | (after, some false) =>
    let after := { after with worker := .settled task (some outcome) }
    match outcome with
    | .transferred n _ =>
      if n ≠ 0 ∧ n ≤ task.room then after.record (.written task (storage.take n)) else after
    | _ => after

/-- One step of the worker; none while it sleeps. The outcome and the storage are what the
wrapped transport returns. -/
def work (outcome : IoOutcome) (storage : Bytes) (shared : Shared) : Option Shared :=
  match shared.worker with
  | .waiting =>
    match shared.queue.tasks with
    | [] => some { shared with worker := if shared.queue.stopping then .exited else .sleeping }
    | task :: tasks =>
      some { shared with
        queue := { shared.queue with tasks, active := some task }, worker := .taken task }
  | .sleeping | .exited => none
  | .taken task =>
    some { shared with
      worker := if (shared.states task.state).cancellationRequested then
          .executed task cancelledResult []
        else .executing task }
  | .executing task =>
    if storage.length = task.room then
      some { shared with worker := .executed task outcome storage }
    else none
  | .executed task outcome storage =>
    if task.kind = .recv then some (shared.settle task outcome storage)
    else some { shared with
      worker := .tested task (if (shared.states task.state).cancellationRequested then
        cancelledResult else outcome) }
  | .tested task outcome =>
    some { shared with queue := shared.queue.finishActive task, worker := .left task outcome }
  | .left task outcome =>
    match shared.finish task.state with
    | (after, none) => some { after with worker := .waiting }
    | (after, some _) => some { after with worker := .reporting task.state outcome }
  | .settled task due =>
    some { shared with
      queue := shared.queue.finishActive task
      worker := match due with
        | none => .waiting
        | some outcome => .reporting task.state outcome }
  | .reporting state outcome =>
    some { (shared.record (.called state outcome)) with worker := .inCallback }
  | .inCallback => some { shared with worker := .waiting }

end Shared

/-! ## Runs -/

/-- The first thread is the worker's: its frames are the calls that a callback on the
worker makes. -/
structure World where
  shared : Shared := {}
  threads : List (List Frame)

/-- The calls that an application makes. A handle can be cancelled once it was returned. -/
inductive Call where
  | submit (kind : TaskKind) (deadline room : Nat)
  | cancel (state : Nat)
  | close
  | destroy
deriving DecidableEq

/-- Accepted operations that are not complete. -/
def Shared.pending (shared : Shared) : List Nat :=
  (shared.history.filterMap fun
    | .accepted state => some state
    | _ => none).filter fun state => !(shared.states state).complete

def Shared.begin (shared : Shared) (call : Call) : Option (Shared × Frame) :=
  match call with
  | .cancel state =>
    if .handed state ∈ shared.history then some (shared, .cancel state) else none
  | .submit kind deadline room =>
    if .destroyed ∈ shared.history then none
    else
      let task : Task := ⟨shared.nextState, kind, deadline, room⟩
      some (({ shared with nextState := shared.nextState + 1 }).record (.submitted task),
        .submit task)
  | .close =>
    if .destroyed ∈ shared.history then none else some (shared, .close shared.pending)
  | .destroy =>
    if .destroyed ∈ shared.history then none else some (shared.record .destroyed, .destroy)

namespace World

/-- A thread may call when it is in no call or in a callback; the worker only in a
callback. -/
def mayCall (world : World) (thread : Nat) (callers : List Frame) : Bool :=
  match callers with
  | [] => thread ≠ 0 || world.shared.worker = .inCallback
  | frame :: _ => frame = .inCallback

/-- The choices of the scheduler and of the environment. -/
inductive Move where
  | start (thread : Nat) (call : Call)
  | run (thread : Nat) (readings : Readings)
  | work (outcome : IoOutcome) (storage : Bytes)
deriving DecidableEq

/-- The steps that go on with calls already made. -/
def Move.progress : Move → Bool
  | .start _ _ => false
  | _ => true

/-- A step of a thread or of the worker. While a callback on the worker is in a call, the
worker waits for it. -/
def move (depth : Nat) (move : Move) (world : World) : Option World :=
  match move with
  | .start thread call =>
    match world.threads[thread]? with
    | none => none
    | some callers =>
      if world.mayCall thread callers then
        (world.shared.begin call).map fun (shared, frame) =>
          { shared, threads := world.threads.set thread (frame :: callers) }
      else none
  | .run thread readings =>
    match world.threads[thread]? with
    | some (frame :: callers) =>
      (world.shared.advance depth (thread = 0) readings frame).map fun (shared, next) =>
        { shared, threads := world.threads.set thread (next ++ callers) }
    | _ => none
  | .work outcome storage =>
    if world.threads[0]? = some [] then
      (world.shared.work outcome storage).map fun shared => { world with shared }
    else none

/-- A transport that has just been started, with any number of threads that may use it. -/
def Initial (world : World) : Prop := ∃ count, world = { threads := List.replicate (count + 1) [] }

def Step (depth : Nat) (world after : World) : Prop := ∃ chosen, move depth chosen world = some after

end World

end Odbcpp.Transport
