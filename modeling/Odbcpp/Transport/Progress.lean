import Odbcpp.Transport.Turns

/-!
# Progress of the asynchronous TLS transport

Every step that goes on with calls already made takes away from a finite effort, or
brings a thread that waits closer to its sleep. When no such step is left, every call has
returned and the worker has nothing to do.
-/

namespace Odbcpp.Transport

open Foundation Shared

/-- How many steps a frame may still take, queued tasks apart. -/
def Frame.effort (depth : Nat) : Frame → Nat
  | .submit _ => 13
  | .complete todo _ => 4 * todo.length + 1
  | .calling _ _ => 2
  | .inCallback | .cancelReturns _ | .resetTls _ | .join | .wakeWorker => 1
  | .cancel _ => 4
  | .requestCancel _ | .awaitIdle _ | .asleep _ _ | .awaitExit => 2
  | .cancelEach states => 5 * states.length + 1
  | .close _ | .destroy => 5 * depth + 4

def WorkerPoint.effort : WorkerPoint → Nat
  | .exited => 0
  | .waiting | .sleeping => 1
  | .inCallback => 2
  | .reporting _ _ => 3
  | .left _ _ | .settled _ _ => 4
  | .tested _ _ => 5
  | .executed _ _ _ => 6
  | .executing _ => 7
  | .taken _ => 8

/-- How far a thread that waits is from its sleep. -/
def Frame.unrest (signals : Nat) : Frame → Nat
  | .awaitIdle _ => 2
  | .asleep _ since => if since < signals then 3 else 1
  | _ => 0

namespace World

def effort (depth : Nat) (world : World) : Nat :=
  10 * world.shared.queue.tasks.length + world.shared.worker.effort +
    tally (Frame.effort depth) world.threads

def unrest (world : World) : Nat :=
  tally (Frame.unrest world.shared.queue.idleSignals) world.threads +
    if world.shared.worker = .waiting then 1 else 0

/-- A step that goes on with calls already made. -/
def Progress (depth : Nat) (world after : World) : Prop :=
  ∃ chosen, Move.progress chosen = true ∧ move depth chosen world = some after

theorem Progress.step {depth world after} (taken : Progress depth world after) :
    Step depth world after := by
  obtain ⟨chosen, -, moved⟩ := taken
  exact ⟨chosen, moved⟩

end World

variable {depth : Nat} {world after : World} {onWorker : Bool}

theorem Shared.Advances.effort {shared after frame next} (orderly : Orderly depth shared)
    (advances : shared.Advances depth onWorker frame after next) :
    10 * after.queue.tasks.length + after.worker.effort + (next.map (Frame.effort depth)).sum <
        10 * shared.queue.tasks.length + shared.worker.effort + frame.effort depth ∨
      after = shared ∧ (next.map (Frame.effort depth)).sum = frame.effort depth ∧
        (next.map (Frame.unrest shared.queue.idleSignals)).sum <
          frame.unrest shared.queue.idleSignals := by
  have listed : shared.queue.states.length ≤ depth := by
    have bound := orderly.bound
    simp [TaskQueue.size, TaskQueue.states] at bound ⊢
    omega
  have woken : shared.wake.worker.effort = shared.worker.effort := by
    rcases shared.wake_worker with ⟨same, -⟩ | ⟨sleeping, waiting⟩
    · rw [same]
    · rw [waiting, sleeping]
      rfl
  cases advances with
  | accept clock trimmed running room =>
    have smaller := trimmed.smaller
    left
    simp [Frame.effort, TaskQueue.push]
    omega
  | decline clock trimmed declined =>
    have smaller := trimmed.smaller
    left
    simp [Frame.effort]
    omega
  | cancelQueued trimmed queued =>
    have smaller := trimmed.smaller
    left
    simp [Frame.effort] at smaller ⊢
    omega
  | sleep busy => right; simp [Frame.effort, Frame.unrest]
  | woken signalled => right; simp [Frame.effort, Frame.unrest, signalled]
  | close => left; cases onWorker <;> simp [Frame.effort] <;> omega
  | awaitExit => left; cases onWorker <;> simp [Frame.effort, woken]
  | wake => left; simp [Frame.effort, woken]
  | _ => left; simp [Frame.effort] <;> omega

theorem Shared.Works.effort {shared after : Shared} (works : shared.Works after) :
    10 * after.queue.tasks.length + after.worker.effort <
        10 * shared.queue.tasks.length + shared.worker.effort ∨
      after = shared.goes .sleeping ∧ shared.worker = .waiting := by
  cases works with
  | sleep waiting empty running => exact .inr ⟨rfl, waiting⟩
  | take waiting queued => left; simp [WorkerPoint.effort, waiting, queued]; omega
  | exit point | skip point | execute point | executed _ point | test point
  | receiveOvertaken point | receiveCancelled point | receive point | receiveData point
  | release point | overtaken point | finish point | releaseSilent point | releaseSettled point
  | report point | callback point =>
    left
    simp [WorkerPoint.effort, point]

def World.rank (depth : Nat) (world : World) : Nat × Nat := (world.effort depth, world.unrest)

theorem World.Progress.decreases (orderly : Orderly depth world.shared)
    (taken : Progress depth world after) :
    Prod.Lex (· < ·) (· < ·) (after.rank depth) (world.rank depth) := by
  obtain ⟨chosen, goesOn, moved⟩ := taken
  cases chosen with
  | start thread call => cases goesOn
  | run thread readings =>
    obtain ⟨frame, callers, shared, next, found, advances, rfl⟩ := move_run moved
    have efforts := tally_advance (Frame.effort depth) found next
    rcases advances.effort orderly with less | ⟨same, even, calmer⟩
    · refine .left _ _ ?_
      simp only [effort]
      omega
    subst same
    have rests := tally_advance (Frame.unrest world.shared.queue.idleSignals) found next
    refine Prod.lex_iff.mpr (.inr ⟨?_, ?_⟩)
    · simp only [rank, effort]
      omega
    · simp only [rank, unrest]
      omega
  | work outcome storage =>
    obtain ⟨alone, shared, works, -, rfl⟩ := move_work moved
    rcases works.effort with less | ⟨rfl, waiting⟩
    · refine .left _ _ ?_
      simp only [effort]
      omega
    refine Prod.lex_iff.mpr (.inr ⟨?_, ?_⟩)
    · simp [rank, effort, waiting, WorkerPoint.effort]
    · simp [rank, unrest, waiting]

/-! ## When nothing is left to do -/

theorem Shared.advance_enabled {shared : Shared} {frame : Frame}
    (free : frame.blocking = false) (unlocked : shared.tlsLocked = false) :
    ∃ readings ends, shared.advance depth onWorker readings frame = some ends := by
  refine ⟨⟨shared.clock, shared.clock, shared.clock⟩, ?_⟩
  cases frame with
  | complete todo handle => cases todo <;> cases handle <;> simp [advance]
  | cancelEach states => cases states <;> simp [advance]
  | destroy => cases stopping : shared.queue.stopping <;> simp [advance, stopping]
  | awaitIdle | asleep | join => cases free
  | _ => simp [advance, unlocked]

theorem Shared.work_enabled {shared : Shared} (awake : shared.worker ≠ .sleeping)
    (running : shared.worker ≠ .exited) :
    ∃ outcome storage ends, shared.work outcome storage = some ends := by
  cases point : shared.worker with
  | sleeping => exact absurd point awake
  | exited => exact absurd point running
  | waiting =>
    cases queued : shared.queue.tasks <;> exact ⟨.connected, [], by simp [work, point, queued]⟩
  | executing task => exact ⟨.connected, List.replicate task.room 0, by simp [work, point]⟩
  | executed task outcome storage =>
    refine ⟨.connected, [], ?_⟩
    by_cases isReceive : task.kind = .recv <;> simp [work, point, isReceive]
  | left task outcome =>
    refine ⟨.connected, [], ?_⟩
    cases isComplete : (shared.states task.state).complete
    · simp [work, point, finish_of_incomplete isComplete]
    · simp [work, point, finish_of_complete isComplete]
  | _ => exact ⟨.connected, [], by simp [work, point]⟩

namespace World

/-- No call can go on by itself. -/
def Quiet (depth : Nat) (world : World) : Prop := ∀ after, ¬ Progress depth world after

theorem Quiet.blocked {thread frame callers}
    (quiet : Quiet depth world) (found : world.threads[thread]? = some (frame :: callers))
    (readings : Readings) : world.shared.advance depth (thread = 0) readings frame = none := by
  by_contra enabled
  obtain ⟨⟨shared, next⟩, advanced⟩ := Option.ne_none_iff_exists'.mp enabled
  exact quiet ⟨shared, world.threads.set thread (next ++ callers)⟩
    ⟨.run thread readings, rfl, by simp [move, found, advanced]⟩

theorem Quiet.worker (quiet : Quiet depth world) (attended : Attended world) :
    world.shared.worker = .sleeping ∨ world.shared.worker = .exited := by
  have alone : world.threads[0]? = some [] := by
    obtain ⟨stack, found⟩ : ∃ stack, world.threads[0]? = some stack :=
      ⟨_, List.getElem?_eq_getElem attended.worker⟩
    cases stack with
    | nil => exact found
    | cons frame callers =>
      have inCallback := attended.nested found
      obtain ⟨readings, ends, advanced⟩ := @advance_enabled depth (0 = 0) world.shared frame
        (attended.quick found frame List.mem_cons_self) (by simp [tlsLocked, inCallback])
      cases (quiet.blocked found readings).symm.trans advanced
  by_contra busy
  rw [not_or] at busy
  obtain ⟨outcome, storage, ends, worked⟩ := work_enabled busy.1 busy.2
  exact quiet ⟨ends, world.threads⟩
    ⟨.work outcome storage, rfl, by simp [move, alone, worked]⟩

theorem Quiet.returned (quiet : Quiet depth world) (orderly : Orderly depth world.shared)
    (attended : Attended world) : world.shared.queue.idle = true ∧ world.threads.flatten = [] := by
  have resting := quiet.worker attended
  have unlocked : world.shared.tlsLocked = false := by
    rcases resting with point | point <;> simp [tlsLocked, point]
  have isIdle : world.shared.queue.idle = true := by
    rw [TaskQueue.idle_iff]
    rcases resting with sleeping | exited
    · refine ⟨by simpa [sleeping, WorkerPoint.slot] using orderly.active, ?_⟩
      rcases attended.sleeping sleeping with empty | ⟨thread, callers, waking⟩
      · exact empty
      · have blocked := quiet.blocked waking ⟨0, 0, 0⟩
        simp [advance] at blocked
    · exact ⟨by simpa [exited, WorkerPoint.slot] using orderly.active, (orderly.exited exited).2⟩
  refine ⟨isIdle, List.flatten_eq_nil_iff.mpr fun stack present => ?_⟩
  obtain ⟨thread, found⟩ := List.mem_iff_getElem?.mp present
  rcases stack with _ | ⟨frame, callers⟩
  · rfl
  exfalso
  have awaited := attended.awaited frame (innermost_mem found)
  cases blocks : frame.blocking with
  | false =>
    obtain ⟨readings, ends, advanced⟩ :=
      @advance_enabled depth (thread = 0) world.shared frame blocks unlocked
    cases (quiet.blocked found readings).symm.trans advanced
  | true =>
    have blocked := quiet.blocked found ⟨0, 0, 0⟩
    cases frame with
    | awaitIdle owed => simp [advance] at blocked
    | asleep owed signals =>
      obtain ⟨-, told | busy⟩ := awaited
      · simp [advance] at blocked
        omega
      · simp [isIdle] at busy
    | join =>
      rcases resting with sleeping | exited
      · exact awaited.2 sleeping
      · simp [advance, exited] at blocked
    | _ => cases blocks

end World

/-! ## Along runs -/

theorem World.orderly_reached (reached : Reachable Initial (Step depth) world) :
    Orderly depth world.shared :=
  reached.invariant (fun _ => Orderly.initial) fun _ orderly taken => orderly.turn taken.turn

theorem World.attended_reached (reached : Reachable Initial (Step depth) world) : Attended world :=
  reached.invariant (fun _ => Attended.initial)
    fun before attended taken => attended.turn (orderly_reached before) taken.turn

/-- Without further calls, a run comes to an end. -/
theorem World.ends_reached (reached : Reachable Initial (Step depth) world) :
    Acc (fun after before => Progress depth before after) world :=
  reached.ends (WellFounded.prod_lex wellFounded_lt wellFounded_lt) (rank depth)
    Progress.step fun before taken => taken.decreases (orderly_reached before)

end Odbcpp.Transport
