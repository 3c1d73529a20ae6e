import Odbcpp.Transport.AsyncTls

/-!
# Turns of the asynchronous TLS transport

What a step can do, the order that the queue and the worker keep, and why nobody waits
for ever: a thread that sleeps on a condition variable is woken by the step that makes
its condition true, and the steps that go on with calls already made come to an end.
-/

namespace Odbcpp.Transport

open Foundation List TaskQueue

/-! ## Sections of the queue -/

/-- Tasks were taken out of a queue, and whoever waits for it to be idle is told. -/
structure Trimmed (queue kept : TaskQueue) (removed : List Task) : Prop where
  active : kept.active = queue.active
  stopping : kept.stopping = queue.stopping
  partitioned : ∀ task ∈ queue.tasks, task ∈ kept.tasks ∨ task ∈ removed
  subset : ∀ task ∈ kept.tasks, task ∈ queue.tasks
  smaller : kept.tasks.length + removed.length ≤ queue.tasks.length
  signals : queue.idleSignals ≤ kept.idleSignals
  woken : kept.idle = true → queue.idle = true ∨ queue.idleSignals < kept.idleSignals

theorem Trimmed.empty {queue kept removed}
    (trimmed : Trimmed queue kept removed) (empty : queue.tasks = []) : kept.tasks = [] := by
  have smaller := trimmed.smaller
  simp only [empty, length_nil, Nat.le_zero, Nat.add_eq_zero_iff,
    length_eq_zero_iff] at smaller
  exact smaller.1

namespace TaskQueue

variable {queue : TaskQueue} {task : Task}

@[simp] theorem signalWhenIdle_tasks : queue.signalWhenIdle.tasks = queue.tasks := by
  unfold signalWhenIdle
  split <;> rfl

@[simp] theorem signalWhenIdle_active : queue.signalWhenIdle.active = queue.active := by
  unfold signalWhenIdle
  split <;> rfl

@[simp] theorem signalWhenIdle_stopping : queue.signalWhenIdle.stopping = queue.stopping := by
  unfold signalWhenIdle
  split <;> rfl

@[simp] theorem signalWhenIdle_idle : queue.signalWhenIdle.idle = queue.idle := by
  simp [idle]

theorem signalWhenIdle_signals :
    queue.signalWhenIdle.idleSignals = queue.idleSignals + if queue.idle then 1 else 0 := by
  unfold signalWhenIdle
  split <;> simp_all [signalIdle]

theorem idle_iff : queue.idle = true ↔ queue.active = none ∧ queue.tasks = [] := by
  simp [idle]

theorem trimmed_signalWhenIdle {tasks removed}
    (partitioned : ∀ task ∈ queue.tasks, task ∈ tasks ∨ task ∈ removed)
    (subset : ∀ task ∈ tasks, task ∈ queue.tasks)
    (smaller : tasks.length + removed.length ≤ queue.tasks.length) :
    Trimmed queue (signalWhenIdle { queue with tasks }) removed where
  active := by simp
  stopping := by simp
  partitioned := by simpa using partitioned
  subset := by simpa using subset
  smaller := by simpa using smaller
  signals := by simp [signalWhenIdle_signals]
  woken := by
    intro isIdle
    rw [signalWhenIdle_idle] at isIdle
    simp [signalWhenIdle_signals, isIdle]

theorem trimmed_refl (queue : TaskQueue) : Trimmed queue queue [] where
  active := rfl
  stopping := rfl
  partitioned := fun _ present => .inl present
  subset := fun _ present => present
  smaller := by simp
  signals := le_refl _
  woken := .inl

theorem trimmed_reclaim (queue : TaskQueue) (now : Nat) :
    Trimmed queue (queue.reclaim now) (queue.expired now) := by
  refine trimmed_signalWhenIdle (fun task present => ?_)
    (fun task present => mem_of_mem_filter present) ?_
  · by_cases late : task.deadline ≤ now
    · exact .inr (mem_filter.mpr ⟨present, by simpa using late⟩)
    · exact .inl (mem_filter.mpr ⟨present, by simpa using late⟩)
  have whole := length_eq_length_filter_add (fun task : Task => decide (task.deadline ≤ now))
    (l := queue.tasks)
  simp only [expired]
  omega

theorem submit_cases (depth : Nat) (queue : TaskQueue) (task : Task) (readings : Readings) :
    ∃ kept removed, Trimmed queue kept removed ∧
      (queue.submit depth task readings = (kept.push task, removed, .accepted) ∧
          queue.stopping = false ∧ kept.size < depth ∨
        queue.submit depth task readings = (kept, removed, .expired) ∨
        queue.submit depth task readings = (kept, removed, .refused)) := by
  unfold submit
  split
  · exact ⟨queue, [], trimmed_refl queue, .inr (.inr rfl)⟩
  rename_i running
  split
  · exact ⟨queue, [], trimmed_refl queue, .inr (.inl rfl)⟩
  extract_lets full kept removed
  have trimmed : Trimmed queue kept removed := by
    simp only [kept, removed]
    split
    · exact trimmed_reclaim queue _
    · exact trimmed_refl queue
  clear_value kept removed
  refine ⟨kept, removed, trimmed, ?_⟩
  split
  · exact .inr (.inl rfl)
  split
  · exact .inr (.inr rfl)
  rename_i room
  refine .inl ⟨rfl, by simpa using running, ?_⟩
  simp only [blocks, Bool.or_eq_true, decide_eq_true_eq, not_or] at room
  exact Nat.lt_of_not_le room.1

/-- What the removal of the first match leaves. -/
theorem mem_eraseP_or_found {sought : Task → Bool} {tasks : List Task} {task : Task}
    (present : task ∈ tasks) : task ∈ tasks.eraseP sought ∨ tasks.find? sought = some task := by
  induction tasks with
  | nil => cases present
  | cons first rest ih =>
    by_cases isSought : sought first = true
    · simp only [eraseP_cons_of_pos isSought, List.find?_cons_of_pos isSought]
      rcases mem_cons.mp present with rfl | isLater
      · exact .inr rfl
      · exact .inl isLater
    simp only [eraseP_cons_of_neg isSought, List.find?_cons_of_neg isSought]
    rcases mem_cons.mp present with rfl | isLater
    · exact .inl mem_cons_self
    · exact (ih isLater).imp_left (mem_cons_of_mem _)

theorem requestCancel_cases (queue : TaskQueue) (state : Nat) :
    queue.requestCancel state = (queue, none) ∨
      ∃ kept task, Trimmed queue kept [task] ∧ task.state = state ∧ task ∈ queue.tasks ∧
        queue.requestCancel state = (kept, some task) := by
  unfold requestCancel
  split
  · exact .inl rfl
  split
  · exact .inl rfl
  rename_i task found
  have present := mem_of_find?_eq_some found
  have isState : task.state = state := by simpa using List.find?_some found
  refine .inr ⟨_, task, trimmed_signalWhenIdle (fun other isQueued => ?_)
    (fun _ => mem_of_mem_eraseP) ?_, isState, present, rfl⟩
  · have foundOr := @mem_eraseP_or_found (·.state = state) _ _ isQueued
    rw [found] at foundOr
    simpa [eq_comm] using foundOr
  rw [length_eraseP_of_mem present (by simpa using isState)]
  have := length_pos_of_mem present
  simp
  omega

@[simp] theorem finishActive_tasks : (queue.finishActive task).tasks = queue.tasks := by
  unfold finishActive
  dsimp only
  split <;> split <;> rfl

theorem finishActive_of_active (isActive : queue.active = some task) :
    queue.finishActive task = signalWhenIdle { queue with active := none } := by
  simp [finishActive, TaskQueue.isActive, isActive, signalWhenIdle, idle]

end TaskQueue

/-! ## What a frame can do -/

namespace Shared

variable {onWorker : Bool} {depth : Nat} {shared : Shared}

/-- An operation is complete. -/
@[simp] def finished (shared : Shared) (state : Nat) : Shared :=
  ({ shared with
    states := Function.update shared.states state
      { shared.states state with complete := true } }).record (.finished state)

@[simp] def requested (shared : Shared) (state : Nat) : Shared :=
  { shared with
    states := Function.update shared.states state
      { shared.states state with cancellationRequested := true, cancelled := true } }

theorem finish_of_complete {state : Nat} (complete : (shared.states state).complete = true) :
    shared.finish state = (shared, none) := by
  simp [finish, OperationState.finishWith, complete]

theorem finish_of_incomplete {state : Nat} (incomplete : (shared.states state).complete = false) :
    shared.finish state =
      (shared.finished state, some (shared.states state).cancellationRequested) := by
  simp [finish, OperationState.finishWith, incomplete, finished]

/-- What a step of a call can do, and the frames that take its place. -/
inductive Advances (depth : Nat) (onWorker : Bool) (shared : Shared) :
    Frame → Shared → List Frame → Prop where
  | accept {task kept removed} (clock : Nat)
      (trimmed : Trimmed shared.queue kept removed) (running : shared.queue.stopping = false)
      (room : kept.size < depth) :
      Advances depth onWorker shared (.submit task)
        (({ shared with queue := kept.push task, clock }).record (.accepted task.state))
        [.wakeWorker, .complete (removed.map (·, Manner.expired)) (some task.state)]
  | decline {task kept removed manner} (clock : Nat)
      (trimmed : Trimmed shared.queue kept removed) (declined : manner ≠ .cancelled) :
      Advances depth onWorker shared (.submit task) { shared with queue := kept, clock }
        [.complete (removed.map (·, Manner.expired) ++ [(task, manner)]) (some task.state)]
  | done : Advances depth onWorker shared (.complete [] none) shared []
  | hand {state} :
      Advances depth onWorker shared (.complete [] (some state)) (shared.record (.handed state)) []
  | overtaken {task manner todo handle}
      (complete : (shared.states task.state).complete = true) :
      Advances depth onWorker shared (.complete ((task, manner) :: todo) handle) shared
        [.complete todo handle]
  | finish {task manner todo handle}
      (incomplete : (shared.states task.state).complete = false) :
      Advances depth onWorker shared (.complete ((task, manner) :: todo) handle)
        (shared.finished task.state)
        [.calling task.state
          (manner.outcome task.kind (shared.states task.state).cancellationRequested),
          .complete todo handle]
  | call {state outcome} :
      Advances depth onWorker shared (.calling state outcome)
        (shared.record (.called state outcome)) [.inCallback]
  | callback : Advances depth onWorker shared .inCallback shared []
  | cancelAgain {state}
      (late : (shared.states state).complete = true ∨
        (shared.states state).cancellationRequested = true) :
      Advances depth onWorker shared (.cancel state) shared [.cancelReturns state]
  | cancel {state} (incomplete : (shared.states state).complete = false)
      (unrequested : (shared.states state).cancellationRequested = false) :
      Advances depth onWorker shared (.cancel state) (shared.requested state)
        [.requestCancel state, .cancelReturns state]
  | cancelElsewhere {state} :
      Advances depth onWorker shared (.requestCancel state) shared [.wakeWorker]
  | cancelQueued {kept task} (trimmed : Trimmed shared.queue kept [task])
      (queued : task ∈ shared.queue.tasks) :
      Advances depth onWorker shared (.requestCancel task.state) { shared with queue := kept }
        [.complete [(task, .cancelled)] none, .wakeWorker]
  | cancelReturn {state} :
      Advances depth onWorker shared (.cancelReturns state)
        (shared.record (.cancelReturned state)) []
  | close {owed} :
      Advances depth onWorker shared (.close owed) shared
        [.cancelEach shared.queue.states, if onWorker then .resetTls owed else .awaitIdle owed]
  | cancelledEach : Advances depth onWorker shared (.cancelEach []) shared []
  | cancelNext {state states} :
      Advances depth onWorker shared (.cancelEach (state :: states)) shared
        [.cancel state, .cancelEach states]
  | idle {owed} (isIdle : shared.queue.idle = true) :
      Advances depth onWorker shared (.awaitIdle owed) shared [.resetTls owed]
  | sleep {owed} (busy : shared.queue.idle = false) :
      Advances depth onWorker shared (.awaitIdle owed) shared
        [.asleep owed shared.queue.idleSignals]
  | woken {owed signals} (signalled : signals < shared.queue.idleSignals) :
      Advances depth onWorker shared (.asleep owed signals) shared [.awaitIdle owed]
  | reset {owed} (unlocked : shared.tlsLocked = false) :
      Advances depth onWorker shared (.resetTls owed) (shared.record (.closed onWorker owed)) []
  | destroyAgain (stopping : shared.queue.stopping = true) :
      Advances depth onWorker shared .destroy shared []
  | destroy (running : shared.queue.stopping = false) :
      Advances depth onWorker shared .destroy
        { shared with queue := { shared.queue with stopping := true } }
        [.cancelEach shared.queue.states, .awaitExit]
  | awaitExit :
      Advances depth onWorker shared .awaitExit shared.wake (if onWorker then [] else [.join])
  | joined (exited : shared.worker = .exited) : Advances depth onWorker shared .join shared []
  | wake : Advances depth onWorker shared .wakeWorker shared.wake []

theorem advances {readings after frame next}
    (advanced : shared.advance depth onWorker readings frame = some (after, next)) :
    Advances depth onWorker shared frame after next := by
  unfold advance at advanced
  split at advanced
  · rename_i task
    split at advanced
    · obtain ⟨kept, removed, trimmed, ⟨ends, running, room⟩ | ends | ends⟩ :=
        submit_cases depth shared.queue task readings
      all_goals simp only [Shared.submit, ends] at advanced; cases advanced
      · exact .accept _ trimmed running room
      · exact .decline _ trimmed (by simp)
      · exact .decline _ trimmed (by simp)
    · cases advanced
  · cases advanced
    exact .done
  · cases advanced
    exact .hand
  · rename_i task manner todo handle
    cases isComplete : (shared.states task.state).complete with
    | true =>
      simp only [Shared.complete, finish_of_complete isComplete] at advanced
      cases advanced
      exact .overtaken isComplete
    | false =>
      simp only [Shared.complete, finish_of_incomplete isComplete] at advanced
      cases advanced
      exact .finish isComplete
  · cases advanced
    exact .call
  · cases advanced
    exact .callback
  · rename_i state
    by_cases late : (shared.states state).complete || (shared.states state).cancellationRequested
    · simp only [Shared.cancel, OperationState.cancel, late, if_true] at advanced
      cases advanced
      exact .cancelAgain (by simpa using late)
    simp only [Shared.cancel, OperationState.cancel, late] at advanced
    cases advanced
    simp only [Bool.or_eq_true, not_or, Bool.not_eq_true] at late
    exact .cancel late.1 late.2
  · rename_i state
    obtain ends | ⟨kept, task, trimmed, rfl, queued, ends⟩ :=
      requestCancel_cases shared.queue state
    all_goals simp only [Shared.requestCancel, ends] at advanced; cases advanced
    · exact .cancelElsewhere
    · exact .cancelQueued trimmed queued
  · cases advanced
    exact .cancelReturn
  · cases advanced
    exact .close
  · cases advanced
    exact .cancelledEach
  · cases advanced
    exact .cancelNext
  · cases isIdle : shared.queue.idle <;> simp only [isIdle] at advanced <;> cases advanced
    · exact .sleep isIdle
    · exact .idle isIdle
  · split at advanced
    · rename_i signalled
      cases advanced
      exact .woken signalled
    · cases advanced
  · split at advanced
    · cases advanced
    rename_i unlocked
    cases advanced
    exact .reset (by simpa using unlocked)
  · split at advanced
    · rename_i stopping
      cases advanced
      exact .destroyAgain stopping
    rename_i running
    cases advanced
    exact .destroy (by simpa using running)
  · cases advanced
    exact .awaitExit
  · split at advanced
    · rename_i exited
      cases advanced
      exact .joined exited
    · cases advanced
  · cases advanced
    exact .wake

/-! ## What the worker can do -/

@[simp] def goes (shared : Shared) (worker : WorkerPoint) : Shared := { shared with worker }

@[simp] def released (shared : Shared) (task : Task) : Shared :=
  { shared with queue := shared.queue.finishActive task }

/-- What a step of the worker can do. -/
inductive Works (shared : Shared) : Shared → Prop where
  | take {task tasks} (waiting : shared.worker = .waiting)
      (queued : shared.queue.tasks = task :: tasks) :
      Works shared (({ shared with
        queue := { shared.queue with tasks, active := some task } }).goes (.taken task))
  | sleep (waiting : shared.worker = .waiting) (empty : shared.queue.tasks = [])
      (running : shared.queue.stopping = false) : Works shared (shared.goes .sleeping)
  | exit (waiting : shared.worker = .waiting) (empty : shared.queue.tasks = [])
      (stopping : shared.queue.stopping = true) : Works shared (shared.goes .exited)
  | skip {task} (taken : shared.worker = .taken task)
      (requested : (shared.states task.state).cancellationRequested = true) :
      Works shared (shared.goes (.executed task cancelledResult []))
  | execute {task} (taken : shared.worker = .taken task)
      (unrequested : (shared.states task.state).cancellationRequested = false) :
      Works shared (shared.goes (.executing task))
  | executed {task} (outcome : IoOutcome) {storage}
      (executing : shared.worker = .executing task) (sized : storage.length = task.room) :
      Works shared (shared.goes (.executed task outcome storage))
  | test {task outcome storage}
      (executed : shared.worker = .executed task outcome storage) (other : task.kind ≠ .recv) :
      Works shared (shared.goes (.tested task
        (if (shared.states task.state).cancellationRequested then cancelledResult else outcome)))
  | receiveOvertaken {task outcome storage}
      (executed : shared.worker = .executed task outcome storage)
      (complete : (shared.states task.state).complete = true) :
      Works shared (shared.goes (.settled task none))
  | receiveCancelled {task outcome storage}
      (executed : shared.worker = .executed task outcome storage)
      (incomplete : (shared.states task.state).complete = false)
      (requested : (shared.states task.state).cancellationRequested = true) :
      Works shared ((shared.finished task.state).goes (.settled task (some cancelledResult)))
  | receive {task outcome storage}
      (executed : shared.worker = .executed task outcome storage)
      (incomplete : (shared.states task.state).complete = false)
      (unrequested : (shared.states task.state).cancellationRequested = false) :
      Works shared ((shared.finished task.state).goes (.settled task (some outcome)))
  | receiveData {task n eof storage}
      (executed : shared.worker = .executed task (.transferred n eof) storage)
      (isReceive : task.kind = .recv)
      (incomplete : (shared.states task.state).complete = false)
      (unrequested : (shared.states task.state).cancellationRequested = false)
      (some : n ≠ 0) (fits : n ≤ task.room) :
      Works shared (((shared.finished task.state).goes
        (.settled task (Option.some (.transferred n eof)))).record
          (.written task (storage.take n)))
  | release {task outcome} (tested : shared.worker = .tested task outcome) :
      Works shared ((shared.released task).goes (.left task outcome))
  | overtaken {task outcome} (left : shared.worker = .left task outcome)
      (complete : (shared.states task.state).complete = true) : Works shared (shared.goes .waiting)
  | finish {task outcome} (left : shared.worker = .left task outcome)
      (incomplete : (shared.states task.state).complete = false) :
      Works shared ((shared.finished task.state).goes (.reporting task.state outcome))
  | releaseSilent {task} (settled : shared.worker = .settled task none) :
      Works shared ((shared.released task).goes .waiting)
  | releaseSettled {task outcome}
      (settled : shared.worker = .settled task (some outcome)) :
      Works shared ((shared.released task).goes (.reporting task.state outcome))
  | report {state outcome}
      (reporting : shared.worker = .reporting state outcome) :
      Works shared ((shared.record (.called state outcome)).goes .inCallback)
  | callback (inCallback : shared.worker = .inCallback) : Works shared (shared.goes .waiting)

theorem works {outcome storage after}
    (worked : shared.work outcome storage = some after) : Works shared after := by
  unfold work at worked
  split at worked
  · rename_i waiting
    split at worked
    · rename_i empty
      cases stopping : shared.queue.stopping <;> simp only [stopping] at worked <;> cases worked
      · exact .sleep waiting empty stopping
      · exact .exit waiting empty stopping
    rename_i task tasks queued
    cases worked
    exact .take waiting queued
  · cases worked
  · cases worked
  · rename_i task taken
    cases requested : (shared.states task.state).cancellationRequested <;>
      simp only [requested] at worked <;> cases worked
    · exact .execute taken requested
    · exact .skip taken requested
  · rename_i task executing
    split at worked
    · rename_i sized
      cases worked
      exact .executed outcome executing sized
    · cases worked
  · rename_i task outcome storage executed
    split at worked
    · rename_i isReceive
      cases isComplete : (shared.states task.state).complete with
      | true =>
        simp only [settle, finish_of_complete isComplete] at worked
        cases worked
        exact .receiveOvertaken executed isComplete
      | false =>
        cases requested : (shared.states task.state).cancellationRequested with
        | true =>
          simp only [settle, finish_of_incomplete isComplete, requested] at worked
          cases worked
          exact .receiveCancelled executed isComplete requested
        | false =>
          simp only [settle, finish_of_incomplete isComplete, requested] at worked
          split at worked
          · split at worked
            · rename_i fits
              cases worked
              exact .receiveData executed isReceive isComplete requested fits.1 fits.2
            · cases worked
              exact .receive executed isComplete requested
          · cases worked
            exact .receive executed isComplete requested
    · rename_i other
      cases worked
      exact .test executed other
  · rename_i task outcome tested
    cases worked
    exact .release tested
  · rename_i task outcome left
    cases isComplete : (shared.states task.state).complete with
    | true =>
      simp only [finish_of_complete isComplete] at worked
      cases worked
      exact .overtaken left isComplete
    | false =>
      simp only [finish_of_incomplete isComplete] at worked
      cases worked
      exact .finish left isComplete
  · rename_i task due settled
    cases due <;> cases worked
    · exact .releaseSilent settled
    · exact .releaseSettled settled
  · rename_i state outcome reporting
    cases worked
    exact .report reporting
  · rename_i inCallback
    cases worked
    exact .callback inCallback

/-! ## What a call begins with -/

/-- What a call begins with. -/
inductive Begins (shared : Shared) : Shared → Frame → Prop where
  | submit {task} (fresh : task.state = shared.nextState) :
      Begins shared
        (({ shared with nextState := shared.nextState + 1 }).record (.submitted task))
        (.submit task)
  | cancel {state} (handed : .handed state ∈ shared.history) :
      Begins shared shared (.cancel state)
  | close : Begins shared shared (.close shared.pending)
  | destroy : Begins shared (shared.record .destroyed) .destroy

theorem begins {after call frame}
    (begun : shared.begin call = some (after, frame)) : Begins shared after frame := by
  cases call <;> simp only [Shared.begin] at begun <;> split at begun <;> cases begun
  · exact .submit rfl
  · exact .cancel (by assumption)
  · exact .close
  · exact .destroy

/-- Beginning a call changes neither the queue nor the operations nor the worker. -/
theorem Begins.frame {after frame} (begins : Begins shared after frame) :
    after.queue = shared.queue ∧ after.states = shared.states ∧
      after.worker = shared.worker := by
  cases begins <;> exact ⟨rfl, rfl, rfl⟩

variable (shared : Shared)

@[simp] theorem wake_queue : shared.wake.queue = shared.queue := rfl

@[simp] theorem wake_states : shared.wake.states = shared.states := rfl

@[simp] theorem wake_history : shared.wake.history = shared.history := rfl

theorem wake_worker : shared.wake.worker = shared.worker ∧ shared.worker ≠ .sleeping ∨
      shared.worker = .sleeping ∧ shared.wake.worker = .waiting := by
  by_cases sleeping : shared.worker = .sleeping <;> simp [wake, sleeping]

theorem wake_awake : shared.wake.worker ≠ .sleeping := by
  rcases shared.wake_worker with ⟨same, awake⟩ | ⟨-, waiting⟩
  · rwa [same]
  · simp [waiting]

theorem Advances.worker {after frame next}
    (advances : Advances depth onWorker shared frame after next) :
    after.worker = shared.worker ∧ (frame = .wakeWorker → shared.worker ≠ .sleeping) ∨
      shared.worker = .sleeping ∧ after.worker = .waiting := by
  cases advances with
  | wake | awaitExit =>
    rcases shared.wake_worker with ⟨same, awake⟩ | woken
    · exact .inl ⟨same, fun _ => awake⟩
    · exact .inr woken
  | _ => exact .inl ⟨rfl, by simp⟩

end Shared

/-! ## Steps -/

/-- The three kinds of step. -/
inductive World.Turn (depth : Nat) (world : World) : World → Prop where
  | start {thread callers shared frame}
      (found : world.threads[thread]? = some callers)
      (free : world.mayCall thread callers = true) (begins : world.shared.Begins shared frame) :
      Turn depth world ⟨shared, world.threads.set thread (frame :: callers)⟩
  | run {thread frame callers next shared}
      (found : world.threads[thread]? = some (frame :: callers))
      (advances : world.shared.Advances depth (thread = 0) frame shared next) :
      Turn depth world ⟨shared, world.threads.set thread (next ++ callers)⟩
  | work {shared} (alone : world.threads[0]? = some [])
      (works : world.shared.Works shared) : Turn depth world ⟨shared, world.threads⟩

namespace World

variable {depth thread : Nat} {world after : World}

theorem move_start {call : Call} (moved : move depth (.start thread call) world = some after) :
    ∃ callers shared frame, world.threads[thread]? = some callers ∧
      world.mayCall thread callers = true ∧ world.shared.Begins shared frame ∧
      after = ⟨shared, world.threads.set thread (frame :: callers)⟩ := by
  simp only [move] at moved
  split at moved
  · cases moved
  rename_i callers found
  split at moved
  · rename_i free
    obtain ⟨⟨shared, frame⟩, begun, rfl⟩ := Option.map_eq_some_iff.mp moved
    exact ⟨callers, shared, frame, found, free, Shared.begins begun, rfl⟩
  · cases moved

theorem move_run {readings}
    (moved : move depth (.run thread readings) world = some after) :
    ∃ frame callers shared next, world.threads[thread]? = some (frame :: callers) ∧
      world.shared.Advances depth (thread = 0) frame shared next ∧
      after = ⟨shared, world.threads.set thread (next ++ callers)⟩ := by
  simp only [move] at moved
  split at moved
  · rename_i frame callers found
    obtain ⟨⟨shared, next⟩, advanced, rfl⟩ := Option.map_eq_some_iff.mp moved
    exact ⟨frame, callers, shared, next, found, Shared.advances advanced, rfl⟩
  · cases moved

theorem move_work {outcome storage}
    (moved : move depth (.work outcome storage) world = some after) :
    world.threads[0]? = some [] ∧ ∃ shared, world.shared.Works shared ∧
      (∀ {task reported bytes}, world.shared.worker = .executing task →
        shared.worker = .executed task reported bytes → reported = outcome) ∧
      after = ⟨shared, world.threads⟩ := by
  simp only [move] at moved
  split at moved
  · rename_i alone
    obtain ⟨shared, worked, rfl⟩ := Option.map_eq_some_iff.mp moved
    refine ⟨alone, shared, Shared.works worked, fun {task reported bytes} executing executed => ?_,
      rfl⟩
    simp only [Shared.work, executing] at worked
    split at worked
    · cases worked
      exact (WorkerPoint.executed.inj executed).2.1.symm
    · cases worked
  · cases moved

theorem Step.turn (taken : Step depth world after) : Turn depth world after := by
  obtain ⟨chosen, moved⟩ := taken
  cases chosen with
  | start thread call =>
    obtain ⟨callers, shared, frame, found, free, begins, rfl⟩ := move_start moved
    exact .start found free begins
  | run thread readings =>
    obtain ⟨frame, callers, shared, next, found, advances, rfl⟩ := move_run moved
    exact .run found advances
  | work outcome storage =>
    obtain ⟨alone, shared, works, -, rfl⟩ := move_work moved
    exact .work alone works

end World

/-! ## The order of the queue -/

def WorkerPoint.slot : WorkerPoint → Option Task
  | .taken task | .executing task | .executed task _ _ | .tested task _ | .settled task _ =>
    some task
  | _ => none

/-- The active slot is the worker's, and nothing is left behind when it exits. -/
structure Orderly (depth : Nat) (shared : Shared) : Prop where
  bound : shared.queue.size ≤ depth
  active : shared.queue.active = shared.worker.slot
  exited : shared.worker = .exited → shared.queue.stopping = true ∧ shared.queue.tasks = []

namespace Orderly

variable {depth : Nat} {onWorker : Bool} {shared after : Shared} {frame : Frame}
  {next : List Frame}

theorem trim {kept removed} (orderly : Orderly depth shared)
    (trimmed : Trimmed shared.queue kept removed) (clock : Nat) :
    Orderly depth { shared with queue := kept, clock } where
  bound := by
    have bound := orderly.bound
    have smaller := trimmed.smaller
    simp only [TaskQueue.size, trimmed.active] at bound ⊢
    omega
  active := trimmed.active.trans orderly.active
  exited := by
    intro exited
    obtain ⟨stopping, empty⟩ := orderly.exited exited
    exact ⟨trimmed.stopping.trans stopping, trimmed.empty empty⟩

theorem advance (orderly : Orderly depth shared)
    (advances : shared.Advances depth onWorker frame after next) : Orderly depth after := by
  cases advances with
  | @accept task kept removed clock trimmed running room =>
    have trimmedOrder := orderly.trim trimmed clock
    refine ⟨?_, trimmedOrder.active, fun exited => ?_⟩
    · simp [TaskQueue.size, TaskQueue.push] at room ⊢
      omega
    · have := (orderly.exited exited).1
      simp [running] at this
  | decline clock trimmed declined => exact orderly.trim trimmed clock
  | cancelQueued trimmed queued => exact orderly.trim trimmed shared.clock
  | destroy running =>
    exact ⟨orderly.bound, orderly.active, fun exited => ⟨rfl, (orderly.exited exited).2⟩⟩
  | wake | awaitExit =>
    rcases shared.wake_worker with ⟨same, -⟩ | ⟨sleeping, woken⟩
    · exact ⟨orderly.bound, by simpa [same] using orderly.active,
        by simpa [same] using orderly.exited⟩
    · exact ⟨orderly.bound, by simpa [woken, sleeping, WorkerPoint.slot] using orderly.active,
        by simp [woken]⟩
  | _ => exact ⟨orderly.bound, orderly.active, orderly.exited⟩

theorem release {task worker} (orderly : Orderly depth shared)
    (occupied : shared.worker.slot = some task) (leaves : worker.slot = none)
    (stays : worker ≠ .exited) : Orderly depth ((shared.released task).goes worker) := by
  have released := finishActive_of_active (orderly.active.trans occupied)
  refine ⟨?_, ?_, fun exited => absurd exited stays⟩
  · have bound := orderly.bound
    simp [released, TaskQueue.size] at bound ⊢
    omega
  · simp [released, leaves]

theorem work (orderly : Orderly depth shared) (works : shared.Works after) :
    Orderly depth after := by
  obtain ⟨bound, active, exited⟩ := orderly
  cases works with
  | take waiting queued =>
    simp only [TaskQueue.size, queued, active, waiting, WorkerPoint.slot] at bound
    refine ⟨?_, rfl, by simp⟩
    simpa [TaskQueue.size] using bound
  | exit waiting empty stopping =>
    exact ⟨bound, by simpa [waiting, WorkerPoint.slot] using active, fun _ => ⟨stopping, empty⟩⟩
  | release tested =>
    exact release ⟨bound, active, exited⟩ (by simp [tested, WorkerPoint.slot]) rfl (by simp)
  | releaseSilent settled | releaseSettled settled =>
    exact release ⟨bound, active, exited⟩ (by simp [settled, WorkerPoint.slot]) rfl (by simp)
  | sleep point | skip point | execute point | executed _ point | test point
  | receiveOvertaken point | receiveCancelled point | receive point | receiveData point
  | overtaken point | finish point | report point | callback point =>
    exact ⟨bound, by simpa [point, WorkerPoint.slot] using active, by simp⟩

end Orderly

/-! ## Nobody is forgotten -/

def Frame.blocking : Frame → Bool
  | .awaitIdle _ | .asleep _ _ | .join => true
  | _ => false

/-- What a frame that waits is waiting for: to be told that the queue is idle, or the end
of a worker that is awake. -/
def Shared.Awaited (shared : Shared) : Frame → Prop
  | .asleep _ signals => signals ≤ shared.queue.idleSignals ∧
      (signals < shared.queue.idleSignals ∨ shared.queue.idle = false)
  | .awaitExit => shared.queue.stopping = true
  | .join => shared.queue.stopping = true ∧ shared.worker ≠ .sleeping
  | _ => True

/-- Who waits, waits for something that is still to come. -/
structure Attended (world : World) : Prop where
  worker : 0 < world.threads.length
  nested : ∀ {frame callers}, world.threads[0]? = some (frame :: callers) →
    world.shared.worker = .inCallback
  quick : ∀ {callers}, world.threads[0]? = some callers →
    ∀ frame ∈ callers, frame.blocking = false
  awaited : ∀ frame ∈ world.threads.flatten, world.shared.Awaited frame
  sleeping : world.shared.worker = .sleeping → world.shared.queue.tasks = [] ∨
    ∃ (thread : Nat) (callers : _), world.threads[thread]? = some (.wakeWorker :: callers)

namespace Shared

variable {depth : Nat} {onWorker : Bool} {shared after : Shared} {frame other : Frame}
  {next : List Frame} {kept : TaskQueue} {removed : List Task}

/-- What is awaited is still to come when a queue changes that tells those who wait. -/
theorem Awaited.mono (awaited : shared.Awaited frame)
    (stopping : shared.queue.stopping = true → after.queue.stopping = true)
    (awake : shared.queue.stopping = true → after.worker = .sleeping → shared.worker = .sleeping)
    (signals : shared.queue.idleSignals ≤ after.queue.idleSignals)
    (woken : after.queue.idle = true →
      shared.queue.idle = true ∨ shared.queue.idleSignals < after.queue.idleSignals) :
    after.Awaited frame := by
  cases frame with
  | asleep owed count =>
    obtain ⟨within, pending⟩ := awaited
    refine ⟨within.trans signals, ?_⟩
    cases isIdle : after.queue.idle with
    | false => exact .inr rfl
    | true =>
      rcases woken isIdle with wasIdle | told
      · rcases pending with told | busy
        · exact .inl (told.trans_le signals)
        · simp [wasIdle] at busy
      · exact .inl (within.trans_lt told)
  | awaitExit => exact stopping awaited
  | join => exact ⟨stopping awaited.1, fun sleeping => awaited.2 (awake awaited.1 sleeping)⟩
  | _ => trivial

theorem Awaited.trim (awaited : shared.Awaited frame) (trimmed : Trimmed shared.queue kept removed)
    (clock : Nat) : ({ shared with queue := kept, clock } : Shared).Awaited frame :=
  awaited.mono (fun stopping => trimmed.stopping.trans stopping) (fun _ => id)
    trimmed.signals trimmed.woken

theorem Advances.awaited (advances : shared.Advances depth onWorker frame after next)
    (awaited : shared.Awaited other) : after.Awaited other := by
  cases advances with
  | @accept task kept removed clock trimmed running room =>
    have kept := awaited.trim trimmed clock
    exact kept.mono id (fun _ => id) (le_refl _)
      (by simp [TaskQueue.idle, TaskQueue.push])
  | decline clock trimmed declined => exact awaited.trim trimmed clock
  | cancelQueued trimmed queued => exact awaited.trim trimmed shared.clock
  | destroy running =>
    exact awaited.mono (fun _ => rfl) (fun _ => id) (le_refl _) .inl
  | wake | awaitExit =>
    exact awaited.mono id (fun _ sleeping => absurd sleeping shared.wake_awake) (le_refl _) .inl
  | _ => exact awaited.mono id (fun _ => id) (le_refl _) .inl

/-- What a frame leaves behind waits for something that is still to come. -/
theorem Advances.next_awaited (advances : shared.Advances depth onWorker frame after next)
    (awaited : shared.Awaited frame) (present : other ∈ next) : after.Awaited other := by
  cases advances with
  | sleep busy =>
    obtain rfl := mem_singleton.mp present
    exact ⟨le_refl _, .inr busy⟩
  | awaitExit =>
    cases onWorker <;> simp at present
    subst present
    exact ⟨awaited, shared.wake_awake⟩
  | destroy running =>
    simp at present
    rcases present with rfl | rfl
    · trivial
    · exact rfl
  | close => cases onWorker <;> simp at present <;> rcases present with rfl | rfl <;> trivial
  | _ => simp at present <;> rcases present with rfl | rfl <;> trivial

theorem Advances.quick (advances : shared.Advances depth true frame after next)
    (quick : frame.blocking = false) (present : other ∈ next) : other.blocking = false := by
  cases advances with
  | idle | sleep | woken => cases quick
  | _ => simp at present <;> rcases present with rfl | rfl <;> rfl

/-- A task that is added to the queue of a sleeping worker comes with a frame that wakes
it. -/
theorem Advances.sleeping (advances : shared.Advances depth onWorker frame after next)
    (empty : shared.queue.tasks = []) :
    after.queue.tasks = [] ∨ ∃ rest, next = .wakeWorker :: rest := by
  cases advances with
  | accept => exact .inr ⟨_, rfl⟩
  | decline clock trimmed declined | cancelQueued trimmed queued => exact .inl (trimmed.empty empty)
  | _ => exact .inl empty

end Shared

namespace Attended

variable {depth : Nat} {world after : World}

theorem initial (begins : World.Initial world) : Attended world := by
  obtain ⟨count, rfl⟩ := begins
  refine ⟨?_, ?_, ?_, ?_, ?_⟩ <;> simp [replicate_succ]

variable {thread : Nat} {frame : Frame} {callers next : List Frame} {shared : Shared}

theorem start (attended : Attended world) (found : world.threads[thread]? = some callers)
    (free : world.mayCall thread callers = true) (begins : world.shared.Begins shared frame) :
    Attended ⟨shared, world.threads.set thread (frame :: callers)⟩ := by
  obtain ⟨queue, -, worker⟩ := begins.frame
  have plain : frame.blocking = false ∧ shared.Awaited frame := by
    cases begins <;> exact ⟨rfl, trivial⟩
  refine ⟨by simpa using attended.worker, fun {first rest} top => ?_,
    fun {stack} top other present => ?_, fun other present => ?_, fun sleeping => ?_⟩
  · rw [worker]
    rcases stack_of_set found top with ⟨rfl, -⟩ | top
    · cases callers with
      | nil => simpa [World.mayCall] using free
      | cons caller rest => exact attended.nested found
    · exact attended.nested top
  · rcases stack_of_set found top with ⟨rfl, rfl⟩ | top
    · rcases mem_cons.mp present with rfl | isCaller
      · exact plain.1
      · exact attended.quick found other isCaller
    · exact attended.quick top other present
  · rcases (frames_start found).mp present with rfl | isOld
    · exact plain.2
    · exact (attended.awaited other isOld).mono (by simp [queue]) (by simp [worker])
        (by simp [queue]) (by simp [queue])
  rw [queue]
  refine (attended.sleeping (worker ▸ sleeping)).imp_right fun ⟨other, rest, waking⟩ => ?_
  -- The thread that is to wake the worker is not free for a call.
  have elsewhere : thread ≠ other := by
    rintro rfl
    rw [found] at waking
    cases waking
    simp [World.mayCall] at free
  exact ⟨other, rest, by rw [List.getElem?_set_ne elsewhere]; exact waking⟩

theorem run (attended : Attended world) (found : world.threads[thread]? = some (frame :: callers))
    (advances : world.shared.Advances depth (thread = 0) frame shared next) :
    Attended ⟨shared, world.threads.set thread (next ++ callers)⟩ := by
  have within := (List.getElem?_eq_some_iff.mp found).1
  have awake : world.shared.worker = .inCallback → shared.worker = .inCallback := by
    intro inCallback
    rcases advances.worker with ⟨same, -⟩ | ⟨sleeping, -⟩
    · rw [same, inCallback]
    · simp [inCallback] at sleeping
  refine ⟨by simpa using attended.worker, fun {first rest} top => awake ?_,
    fun {stack} top other present => ?_, fun other present => ?_, fun sleeping => ?_⟩
  · rcases stack_of_set found top with ⟨rfl, -⟩ | top
    · exact attended.nested found
    · exact attended.nested top
  · rcases stack_of_set found top with ⟨rfl, rfl⟩ | top
    · rcases mem_append.mp present with isNew | isCaller
      · exact advances.quick (attended.quick found frame mem_cons_self) isNew
      · exact attended.quick found other (mem_cons_of_mem _ isCaller)
    · exact attended.quick top other present
  · rcases frames_advance found present with isNew | isOld
    · exact advances.next_awaited
        (attended.awaited frame (innermost_mem found)) isNew
    · exact advances.awaited (attended.awaited other isOld)
  rcases advances.worker with ⟨same, wakes⟩ | ⟨-, waiting⟩
  · rcases attended.sleeping (same ▸ sleeping) with empty | ⟨other, rest, waking⟩
    · refine (advances.sleeping empty).imp_right fun ⟨rest, isNext⟩ => ?_
      exact ⟨thread, rest ++ callers, by simp [List.getElem?_set_self within, isNext]⟩
    have elsewhere : thread ≠ other := by
      rintro rfl
      rw [found] at waking
      cases waking
      exact wakes rfl (same ▸ sleeping)
    exact .inr ⟨other, rest, by rw [List.getElem?_set_ne elsewhere]; exact waking⟩
  · simp [waiting] at sleeping

theorem work {shared : Shared} (attended : Attended world) (orderly : Orderly depth world.shared)
    (alone : world.threads[0]? = some []) (works : world.shared.Works shared) :
    Attended ⟨shared, world.threads⟩ := by
  refine ⟨attended.worker, fun top => by simp [alone] at top, attended.quick,
    fun frame present => ?_, fun sleeping => ?_⟩
  · have awaited := attended.awaited frame present
    have released {task : Task} {worker : WorkerPoint}
        (occupied : world.shared.worker.slot = some task) (awake : worker ≠ .sleeping) :
        ((world.shared.released task).goes worker).Awaited frame := by
      have queue := finishActive_of_active (orderly.active.trans occupied)
      refine awaited.mono (by simp [queue]) (by simp [awake])
        (by simp [queue, signalWhenIdle_signals]) fun isIdle => ?_
      simp only [Shared.released, Shared.goes, queue, signalWhenIdle_idle] at isIdle ⊢
      simp [signalWhenIdle_signals, isIdle]
    cases works with
    | take waiting queued => exact awaited.mono id (by simp) (le_refl _) (by simp [TaskQueue.idle])
    | sleep waiting empty running => exact awaited.mono id (by simp [running]) (le_refl _) .inl
    | release tested => exact released (by simp [tested, WorkerPoint.slot]) (by simp)
    | releaseSilent settled | releaseSettled settled =>
      exact released (by simp [settled, WorkerPoint.slot]) (by simp)
    | _ => exact awaited.mono id (by simp) (le_refl _) .inl
  · cases works with
    | sleep waiting empty running => exact .inl empty
    | _ => simp at sleeping

theorem turn (attended : Attended world) (orderly : Orderly depth world.shared)
    (turn : World.Turn depth world after) : Attended after := by
  cases turn with
  | start found free begins => exact attended.start found free begins
  | run found advances => exact attended.run found advances
  | work alone works => exact attended.work orderly alone works

end Attended

theorem Orderly.initial {depth world} (begins : World.Initial world) :
    Orderly depth world.shared := by
  obtain ⟨count, rfl⟩ := begins
  exact ⟨by simp [TaskQueue.size], rfl, by simp⟩

theorem Orderly.turn {depth world after} (orderly : Orderly depth world.shared)
    (turn : World.Turn depth world after) : Orderly depth after.shared := by
  cases turn with
  | start found free begins =>
    obtain ⟨queue, -, worker⟩ := begins.frame
    exact ⟨queue ▸ orderly.bound, by rw [queue, worker]; exact orderly.active,
      by rw [queue, worker]; exact orderly.exited⟩
  | run found advances => exact orderly.advance advances
  | work alone works => exact orderly.work works

end Odbcpp.Transport
