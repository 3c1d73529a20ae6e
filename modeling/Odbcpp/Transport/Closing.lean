import Odbcpp.Transport.Completion

/-!
# Closing the asynchronous TLS transport

A close that is called from outside the worker waits for the queue to be idle. By then
no operation that was pending at its start is queued or executing; but the thread that
took it out of the queue, or out of the active slot, may not have finished it yet.
-/

namespace Odbcpp.Transport

open Foundation Transport.Frame List

variable {depth : Nat} {world after : World}

/-! ## Things that happen to an operation once -/

/-- An operation has one event of a kind, behind it or still ahead. -/
structure Singly (weight : Nat → Frame → Nat) (event : Nat → Event) (world : World) : Prop where
  once : ∀ state, tally (weight state) world.threads + world.shared.history.count (event state) ≤ 1
  fresh : ∀ state, world.shared.nextState ≤ state →
    tally (weight state) world.threads + world.shared.history.count (event state) = 0

/-- Only a submission, once and for a new operation, brings the event about. -/
structure FromSubmission (weight : Nat → Frame → Nat) (event : Nat → Event) : Prop where
  start : ∀ {shared after frame}, Shared.Begins shared after frame → ∀ state,
    after.history.count (event state) = shared.history.count (event state) ∧
      (weight state frame = 0 ∨ weight state frame = 1 ∧ state = shared.nextState ∧
        after.nextState = shared.nextState + 1)
  advance : ∀ {depth onWorker shared after frame next},
    Shared.Advances depth onWorker shared frame after next → ∀ state,
    (next.map (weight state)).sum + after.history.count (event state) ≤
      weight state frame + shared.history.count (event state)
  work : ∀ {shared after}, Shared.Works shared after → ∀ state,
    after.history.count (event state) = shared.history.count (event state)

namespace Singly

variable {weight : Nat → Frame → Nat} {event : Nat → Event}

theorem initial (begins : World.Initial world) : Singly weight event world := by
  obtain ⟨count, rfl⟩ := begins
  exact ⟨by simp, by simp⟩

theorem turn (source : FromSubmission weight event) (singly : Singly weight event world)
    (turn : World.Turn depth world after) : Singly weight event after := by
  cases turn with
  | @start thread callers shared frame found free begins =>
    have later : world.shared.nextState ≤ shared.nextState := by cases begins <;> simp
    refine ⟨fun state => ?_, fun state isFresh => ?_⟩ <;> rw [tally_start _ found] <;>
      obtain ⟨counted, weighs⟩ := source.start begins state <;> rw [counted]
    · rcases weighs with none | ⟨one, isNext, -⟩
      · simpa [none] using singly.once state
      · have none := singly.fresh state isNext.ge
        omega
    have isFresh : shared.nextState ≤ state := isFresh
    have none := singly.fresh state (later.trans isFresh)
    rcases weighs with nothing | ⟨-, isNext, next⟩ <;> omega
  | @run thread frame callers next shared found advances =>
    have less (state : Nat) : tally (weight state) (world.threads.set thread (next ++ callers)) +
        shared.history.count (event state) ≤ tally (weight state) world.threads +
          world.shared.history.count (event state) := by
      have moved := tally_advance (weight state) found next
      have changed := source.advance advances state
      omega
    refine ⟨fun state => (less state).trans (singly.once state), fun state isFresh => ?_⟩
    have same : shared.nextState = world.shared.nextState := by cases advances <;> rfl
    have none := singly.fresh state (same ▸ isFresh)
    exact Nat.le_zero.mp (none ▸ less state)
  | @work shared alone works =>
    have same : shared.nextState = world.shared.nextState := by cases works <;> rfl
    refine ⟨fun state => ?_, fun state isFresh => ?_⟩ <;> rw [source.work works]
    · exact singly.once state
    · exact singly.fresh state (same ▸ isFresh)

theorem reached (source : FromSubmission weight event)
    (reached : Reachable World.Initial (World.Step depth) world) : Singly weight event world :=
  reached.invariant (fun _ => initial) fun _ singly taken => singly.turn source taken.turn

/-- What a frame is to bring about has not happened yet. -/
theorem absent (singly : Singly weight event world) {frame state}
    (present : frame ∈ world.threads.flatten) (weighs : 0 < weight state frame) :
    event state ∉ world.shared.history := by
  intro happened
  have once := singly.once state
  have atLeast := tally_pos (weight state) present
  have counted := count_pos_iff.mpr happened
  omega

end Singly

def Frame.offers (state : Nat) : Frame → Nat
  | .submit task => if task.state = state then 1 else 0
  | .complete todo _ => todo.countP fun entry => entry.1.state = state && entry.2 = .refused
  | _ => 0

theorem offers_fromSubmission : FromSubmission Frame.offers .accepted where
  start := fun begins state => by
    cases begins with
    | @submit task isFresh =>
      refine ⟨by simp, ?_⟩
      by_cases same : task.state = state
      · exact .inr ⟨by simp [offers, same], same ▸ isFresh, rfl⟩
      · exact .inl (by simp [offers, same])
    | _ => exact ⟨by simp, .inl rfl⟩
  advance := fun {depth onWorker shared after frame next} advances state => by
    cases advances with
    | @accept task =>
      by_cases same : task.state = state <;>
        simp [offers, countP_map, Function.comp_def, same]
    | @decline task _ _ manner =>
      by_cases same : task.state = state <;> cases manner <;>
        simp [offers, countP_map, Function.comp_def, same]
    | overtaken | finish => simp [offers, countP_cons]
    | close | awaitExit => cases onWorker <;> simp [offers]
    | _ => simp [offers]
  work := fun works state => by cases works <;> simp

theorem World.offered_reached (reached : Reachable Initial (Step depth) world) :
    Singly Frame.offers .accepted world :=
  Singly.reached offers_fromSubmission reached

/-! ## What a close leaves behind -/

/-- The operations that were pending when a close began. -/
def Frame.owed : Frame → List Nat
  | .close owed | .awaitIdle owed | .asleep owed _ | .resetTls owed => owed
  | _ => []

namespace Shared

variable {onWorker : Bool} {shared after : Shared} {frame other : Frame} {next : List Frame}
  {state : Nat}

theorem mem_pending : state ∈ shared.pending ↔
      .accepted state ∈ shared.history ∧ (shared.states state).complete = false := by
  simp only [pending, mem_filter, mem_filterMap, Bool.not_eq_true']
  constructor
  · rintro ⟨⟨event, present, isAccepted⟩, incomplete⟩
    cases event <;> simp at isAccepted
    exact ⟨isAccepted ▸ present, incomplete⟩
  · rintro ⟨present, incomplete⟩
    exact ⟨⟨_, present, rfl⟩, incomplete⟩

/-- A close goes on with the operations it began with. -/
theorem Advances.nextOwed (advances : shared.Advances depth onWorker frame after next)
    (present : other ∈ next) (owed : state ∈ other.owed) : state ∈ frame.owed := by
  cases advances with
  | close =>
    cases onWorker <;> simp at present <;> rcases present with rfl | rfl <;>
      first | exact owed | cases owed
  | awaitExit => cases onWorker <;> simp at present; subst present; cases owed
  | _ => simp at present <;> rcases present with rfl | rfl <;> exact owed

theorem Advances.states (advances : shared.Advances depth onWorker frame after next)
    (present : state ∈ after.queue.states) : state ∈ shared.queue.states ∨
      ∃ task, frame = .submit task ∧ task.state = state ∧ .accepted state ∈ after.history := by
  have trims {kept : TaskQueue} {removed : List Task} (trimmed : Trimmed shared.queue kept removed)
      (isKept : state ∈ kept.states) : state ∈ shared.queue.states := by
    simp only [TaskQueue.states, mem_map, mem_append, trimmed.active] at isKept ⊢
    obtain ⟨task, isActive | isQueued, isState⟩ := isKept
    · exact ⟨task, .inl isActive, isState⟩
    · exact ⟨task, .inr (trimmed.subset task isQueued), isState⟩
  cases advances with
  | @accept task kept removed clock trimmed running room =>
    have either : state ∈ kept.states ∨ task.state = state := by
      simp only [TaskQueue.states, TaskQueue.push, record, mem_map, mem_append,
        mem_singleton] at present ⊢
      obtain ⟨other, isActive | isQueued | rfl, isState⟩ := present
      · exact .inl ⟨other, .inl isActive, isState⟩
      · exact .inl ⟨other, .inr isQueued, isState⟩
      · exact .inr isState
    rcases either with isKept | isNew
    · exact .inl (trims trimmed isKept)
    · exact .inr ⟨task, rfl, isNew, by simp [isNew]⟩
  | decline clock trimmed declined | cancelQueued trimmed queued =>
    exact .inl (trims trimmed present)
  | _ => exact .inl present

theorem Advances.resets {owed}
    (advances : shared.Advances depth onWorker frame after next) (present : .resetTls owed ∈ next) :
    onWorker = true ∨ frame = .awaitIdle owed ∧ shared.queue.idle = true ∧ after = shared := by
  cases advances with
  | close => cases onWorker <;> simp at present ⊢
  | idle isIdle =>
    simp at present
    exact .inr ⟨by rw [present], isIdle, rfl⟩
  | awaitExit => cases onWorker <;> simp at present
  | _ => simp at present

theorem Works.states (orderly : Orderly depth shared) (works : shared.Works after)
    (present : state ∈ after.queue.states) : state ∈ shared.queue.states := by
  have released {task : Task} (occupied : shared.worker.slot = some task)
      (isLeft : state ∈ (shared.queue.finishActive task).states) :
      state ∈ shared.queue.states := by
    rw [TaskQueue.finishActive_of_active (orderly.active.trans occupied)] at isLeft
    simp only [TaskQueue.states, TaskQueue.signalWhenIdle_active, TaskQueue.signalWhenIdle_tasks,
      Option.toList_none, nil_append, map_append, mem_append] at isLeft ⊢
    exact .inr isLeft
  cases works with
  | take waiting queued => simp [TaskQueue.states, queued] at present ⊢; tauto
  | release point | releaseSilent point | releaseSettled point =>
    exact released (by simp only [point, WorkerPoint.slot]) present
  | _ => exact present

end Shared

/-- Outside of the worker, a close that found the queue idle owes nothing that is queued or
executing. -/
structure Vacated (world : World) : Prop where
  accepted : ∀ frame ∈ world.threads.flatten, ∀ state ∈ frame.owed,
    .accepted state ∈ world.shared.history
  vacated : ∀ {thread callers owed}, thread ≠ 0 → world.threads[thread]? = some callers →
    .resetTls owed ∈ callers → ∀ state ∈ owed, state ∉ world.shared.queue.states

variable {thread : Nat} {frame : Frame} {callers next : List Frame} {shared : Shared}

namespace Vacated

theorem initial (begins : World.Initial world) : Vacated world := by
  obtain ⟨count, rfl⟩ := begins
  refine ⟨by simp, fun {thread callers owed} _ found present => ?_⟩
  obtain rfl : callers = [] := by
    simpa using eq_of_mem_replicate (mem_of_getElem? found)
  cases present

theorem start (vacated : Vacated world) (found : world.threads[thread]? = some callers)
    (begins : world.shared.Begins shared frame) :
    Vacated ⟨shared, world.threads.set thread (frame :: callers)⟩ := by
  refine ⟨fun other present state owed => ?_, fun {index stack owed} outside top present => ?_⟩
  · rcases (frames_start found).mp present with rfl | isOld
    · cases begins with
      | close => exact (Shared.mem_pending.mp owed).1
      | _ => cases owed
    · have accepted := vacated.accepted other isOld state owed
      cases begins <;> simp [accepted]
  rw [begins.frame.1]
  rcases stack_of_set found top with ⟨rfl, rfl⟩ | top
  · refine vacated.vacated outside found ?_
    rcases mem_cons.mp present with isNew | isOld
    · cases begins <;> cases isNew
    · exact isOld
  · exact vacated.vacated outside top present

theorem run (vacated : Vacated world) (offered : Singly Frame.offers .accepted world)
    (found : world.threads[thread]? = some (frame :: callers))
    (advances : world.shared.Advances depth (thread = 0) frame shared next) :
    Vacated ⟨shared, world.threads.set thread (next ++ callers)⟩ := by
  have own := innermost_mem found
  have kept {stack : List Frame} {index : Nat} {owed : List Nat} (outside : index ≠ 0)
      (top : world.threads[index]? = some stack) (present : .resetTls owed ∈ stack) (state : Nat)
      (isOwed : state ∈ owed) : state ∉ shared.queue.states := by
    intro queued
    rcases advances.states queued with isOld | ⟨task, rfl, rfl, -⟩
    · exact vacated.vacated outside top present state isOwed isOld
    · exact offered.absent own (by simp [offers])
        (vacated.accepted _ (mem_flatten_of_getElem? top present) _ isOwed)
  refine ⟨fun other present state owed => ?_, fun {index stack owed} outside top present => ?_⟩
  · have accepted : .accepted state ∈ world.shared.history := by
      rcases frames_advance found present with isNew | isOld
      · exact vacated.accepted frame own state (advances.nextOwed isNew owed)
      · exact vacated.accepted other isOld state owed
    obtain ⟨events, history, -⟩ := advances.recorded
    simp [history, accepted]
  rcases stack_of_set found top with ⟨rfl, rfl⟩ | top
  · rcases mem_append.mp present with isNew | isOld
    · rcases advances.resets isNew with onWorker | ⟨-, isIdle, rfl⟩
      · simp [outside] at onWorker
      · obtain ⟨inactive, empty⟩ := TaskQueue.idle_iff.mp isIdle
        simp [TaskQueue.states, inactive, empty]
    · exact kept outside found (mem_cons_of_mem _ isOld)
  · exact kept outside top present

theorem reached (reached : Reachable World.Initial (World.Step depth) world) : Vacated world := by
  refine reached.invariant (fun _ => Vacated.initial) fun {world after} before vacated taken => ?_
  cases taken.turn with
  | start found free begins => exact vacated.start found begins
  | run found advances => exact vacated.run (World.offered_reached before) found advances
  | work alone works =>
    refine ⟨fun frame present state owed => ?_, fun outside top present state owed queued => ?_⟩
    · have accepted := vacated.accepted frame present state owed
      cases works <;> simp [accepted]
    · exact vacated.vacated outside top present state owed
        (works.states (World.orderly_reached before) queued)

end Vacated

/-! ## Hand-overs -/

namespace World

/-- The worker has left the active slot and is about to finish the operation. -/
def leaves (world : World) (state : Nat) : Bool :=
  match world.shared.worker with
  | .left task _ => task.state = state
  | _ => false

/-- Somebody has taken the operation out of the queue or of the active slot and has yet to
finish it. -/
def handsOver (world : World) (state : Nat) : Bool :=
  !(world.shared.states state).complete && (world.leaves state ||
    world.threads.flatten.any fun
      | .complete todo _ => todo.any (·.1.state = state)
      | _ => false)

/-- A close finds the queue idle during the hand-over of an operation that it waits for. -/
def hurried (world : World) : Move → Bool
  | .run thread _ =>
    match world.threads[thread]? with
    | some (.awaitIdle owed :: _) => world.shared.queue.idle && owed.any world.handsOver
    | _ => false
  | _ => false

/-- The steps by which no close overtakes a hand-over. -/
def unhurried (depth : Nat) (chosen : Move) (world : World) : Option World :=
  if world.hurried chosen then none else world.move depth chosen

def UnhurriedStep (depth : Nat) (world after : World) : Prop :=
  ∃ chosen, unhurried depth chosen world = some after

theorem UnhurriedStep.move (taken : UnhurriedStep depth world after) :
    ∃ chosen, world.hurried chosen = false ∧ world.move depth chosen = some after := by
  obtain ⟨chosen, moved⟩ := taken
  unfold unhurried at moved
  split at moved
  · cases moved
  · rename_i calm
    exact ⟨chosen, by simpa using calm, moved⟩

theorem UnhurriedStep.step (taken : UnhurriedStep depth world after) : Step depth world after := by
  obtain ⟨chosen, -, moved⟩ := taken.move
  exact ⟨chosen, moved⟩

/-- An operation that was accepted and is neither queued nor executing is complete or being
handed over. -/
theorem complete_of_idle (reached : Reachable Initial (Step depth) world)
    (isIdle : world.shared.queue.idle = true) {state : Nat}
    (accepted : .accepted state ∈ world.shared.history) (settled : world.handsOver state = false) :
    (world.shared.states state).complete = true := by
  obtain ⟨inactive, empty⟩ := TaskQueue.idle_iff.mp isIdle
  rcases (keeps_reached reached state).accepted accepted with complete | ⟨task, queued, -⟩ |
    ⟨task, holding, isState⟩ | ⟨frame, present, completes⟩
  · exact complete
  · simp [empty] at queued
  · -- Without the active slot, the worker can only have left it.
    have slot := (orderly_reached reached).active
    rw [inactive] at slot
    cases point : world.shared.worker with
    | left other outcome =>
      obtain rfl : other = task := by simpa [point, WorkerPoint.holding] using holding
      simpa [handsOver, leaves, point, isState] using settled
    | _ => simp [point, WorkerPoint.holding, WorkerPoint.slot] at holding slot
  cases frame with
  | complete todo handle =>
    obtain ⟨entry, isTodo, isState⟩ := completes
    by_contra incomplete
    have isHanding : world.handsOver state = true := by
      simp only [handsOver, Bool.and_eq_true, Bool.or_eq_true, any_eq_true]
      exact ⟨by simpa using incomplete, .inr ⟨_, present,
        any_eq_true.mpr ⟨entry, isTodo, by simpa using isState⟩⟩⟩
    simp [settled] at isHanding
  | _ => cases completes

/-- A close outside of the worker returns after the operations that it waits for. -/
structure ClosesLast (world : World) : Prop where
  complete : ∀ {thread callers owed}, thread ≠ 0 → world.threads[thread]? = some callers →
    .resetTls owed ∈ callers → ∀ state ∈ owed, (world.shared.states state).complete = true
  closed : ∀ {owed later earlier},
    world.shared.history = later ++ .closed false owed :: earlier →
    ∀ state ∈ owed, .finished state ∈ earlier

namespace ClosesLast

theorem initial (begins : Initial world) : ClosesLast world := by
  obtain ⟨count, rfl⟩ := begins
  refine ⟨fun {thread callers owed} _ found present => ?_, by simp⟩
  obtain rfl : callers = [] := by
    simpa using eq_of_mem_replicate (mem_of_getElem? found)
  cases present

theorem start (last : ClosesLast world) (found : world.threads[thread]? = some callers)
    (begins : world.shared.Begins shared frame) :
    ClosesLast ⟨shared, world.threads.set thread (frame :: callers)⟩ := by
  refine ⟨fun {index stack owed} outside top present => ?_,
    fun {owed later earlier} isSplit => ?_⟩
  · rw [begins.frame.2.1]
    rcases stack_of_set found top with ⟨rfl, rfl⟩ | top
    · refine last.complete outside found ?_
      rcases mem_cons.mp present with isNew | isOld
      · cases begins <;> cases isNew
      · exact isOld
    · exact last.complete outside top present
  cases begins with
  | cancel | close => exact last.closed isSplit
  | submit | destroy =>
    obtain ⟨since, -, isOld⟩ := @split_of_notMem _ _ [_] _ _ _ (by simp) isSplit
    exact last.closed isOld

theorem run
    {readings} (last : ClosesLast world) (before : Reachable Initial (Step depth) world)
    (calm : world.hurried (.run thread readings) = false)
    (found : world.threads[thread]? = some (frame :: callers))
    (advances : world.shared.Advances depth (thread = 0) frame shared next) :
    ClosesLast ⟨shared, world.threads.set thread (next ++ callers)⟩ := by
  have own := innermost_mem found
  refine ⟨fun {index stack owed} outside top present state isOwed => ?_,
    fun {owed later earlier} isSplit => ?_⟩
  · rcases stack_of_set found top with ⟨rfl, rfl⟩ | top
    · rcases mem_append.mp present with isNew | isOld
      · rcases advances.resets isNew with onWorker | ⟨rfl, isIdle, rfl⟩
        · simp [outside] at onWorker
        have settled : world.handsOver state = false := by
          simp only [hurried, found, isIdle, Bool.true_and, any_eq_false] at calm
          simpa using calm state isOwed
        exact complete_of_idle before isIdle
          ((Vacated.reached before).accepted _ own state isOwed) settled
      · exact advances.complete
          (last.complete outside found (mem_cons_of_mem _ isOld) state isOwed)
    · exact advances.complete (last.complete outside top present state isOwed)
  · cases advances with
    | @reset ended unlocked =>
      have isSplit : [.closed (thread = 0) ended] ++ world.shared.history =
          later ++ .closed false owed :: earlier := isSplit
      rcases split_append isSplit with ⟨since, -, isOld⟩ | ⟨between, isAdded⟩
      · exact last.closed isOld
      obtain ⟨rfl, isEvent⟩ := append_eq_singleton_iff.mp isAdded.symm |>.resolve_right
        (by simp)
      obtain ⟨isEvent, -⟩ := List.cons.inj isEvent
      obtain ⟨outside, rfl⟩ := Event.closed.inj isEvent
      obtain ⟨-, rfl⟩ := List.cons.inj isSplit
      intro state isOwed
      refine ((Once.reached before).finished state).mpr ?_
      exact last.complete (by simpa using outside.symm) found mem_cons_self state isOwed
    | accept | hand | finish | call | cancelReturn =>
      obtain ⟨since, -, isOld⟩ := @split_of_notMem _ _ [_] _ _ _ (by simp) isSplit
      exact last.closed isOld
    | _ => exact last.closed isSplit

theorem work {shared : Shared} (last : ClosesLast world) (works : world.shared.Works shared) :
    ClosesLast ⟨shared, world.threads⟩ := by
  refine ⟨fun outside top present state isOwed =>
    works.complete (last.complete outside top present state isOwed),
    fun {owed later earlier} isSplit => ?_⟩
  cases works with
  | receiveCancelled | receive | finish | report =>
    obtain ⟨since, -, isOld⟩ := @split_of_notMem _ _ [_] _ _ _ (by simp) isSplit
    exact last.closed isOld
  | receiveData =>
    obtain ⟨since, -, isOld⟩ := @split_of_notMem _ _ [_, _] _ _ _ (by simp) isSplit
    exact last.closed isOld
  | _ => exact last.closed isSplit

theorem reached (reached : Reachable Initial (UnhurriedStep depth) world) : ClosesLast world := by
  refine reached.invariant (fun _ => ClosesLast.initial) fun {world after} before last taken => ?_
  obtain ⟨chosen, calm, moved⟩ := taken.move
  cases chosen with
  | start thread call =>
    obtain ⟨callers, shared, frame, found, -, begins, rfl⟩ := move_start moved
    exact last.start found begins
  | run thread readings =>
    obtain ⟨frame, callers, shared, next, found, advances, rfl⟩ := move_run moved
    exact last.run (before.mono UnhurriedStep.step) calm found advances
  | work outcome storage =>
    obtain ⟨-, shared, works, -, rfl⟩ := move_work moved
    exact last.work works

end ClosesLast

/-! ## The transport as a whole -/

/-- What holds in every state of every run. -/
structure Completes (depth : Nat) (world : World) : Prop where
  /-- No callback is called twice. -/
  once : ∀ state, calls state world.shared.history ≤ 1
  /-- Without further calls the run ends. -/
  ends : Acc (fun after before => Progress depth before after) world
  /-- When it has ended, every call has returned and every callback was called. -/
  called : Quiet depth world → world.threads.flatten = [] ∧
    ∀ task, .submitted task ∈ world.shared.history → calls task.state world.shared.history = 1
  bound : world.shared.queue.size ≤ depth
  single : ∀ task, world.shared.worker = .executing task → world.shared.queue.active = some task
  /-- A target is written by a receive that is never cancelled, before its callback, which is told
  the number of bytes. -/
  written : ∀ {task bytes later earlier},
    world.shared.history = later ++ .written task bytes :: earlier →
    task.kind = .recv ∧ (world.shared.states task.state).complete = true ∧
      (world.shared.states task.state).cancelled = false ∧
      (∀ outcome, .called task.state outcome ∈ world.shared.history →
        .called task.state outcome ∈ later ∧ ∃ eof, outcome = .transferred bytes.length eof) ∧
      .cancelReturned task.state ∉ earlier
  /-- When a close outside of the worker is about to return, nothing that was pending at its
  start is queued or executing. -/
  vacated : ∀ {thread owed callers}, thread ≠ 0 →
    world.threads[thread]? = some (.resetTls owed :: callers) →
    ∀ state ∈ owed, state ∉ world.shared.queue.states

theorem Completes.ofReached (reached : Reachable Initial (Step depth) world) :
    Completes depth world where
  once := (Once.reached reached).called_le
  ends := ends_reached reached
  called := fun quiet =>
    ⟨(quiet.returned (orderly_reached reached) (attended_reached reached)).2,
      fun _ submitted => quiet.called reached submitted⟩
  bound := (orderly_reached reached).bound
  single := fun task executing => by
    rw [(orderly_reached reached).active, executing]
    rfl
  written := by
    intro task bytes later earlier isSplit
    have written := Written.reached reached
    have isWritten : .written task bytes ∈ world.shared.history := by simp [isSplit]
    obtain ⟨isReceive, complete, unrequested⟩ := written.uncancelled isWritten
    obtain ⟨uncalled, unreturned⟩ := written.order isSplit
    refine ⟨isReceive, complete, (written.flags _).trans unrequested, fun outcome called => ?_,
      unreturned⟩
    have told := written.told isWritten (.inl called)
    rw [isSplit] at called
    exact ⟨by simpa [uncalled outcome] using called, told⟩
  vacated := fun outside found =>
    (Vacated.reached reached).vacated outside found mem_cons_self

/-- In every run, operations complete once, within the bounds of the queue, and only an uncancelled
receive writes its target; and if no close finds the queue idle during a hand-over, a close from
outside the worker returns only when every operation pending at its start is complete. -/
theorem operations_complete_once (depth : Nat) :
    (∀ world, Reachable Initial (Step depth) world → Completes depth world) ∧
      ∀ world, Reachable Initial (UnhurriedStep depth) world →
        ∀ owed later earlier, world.shared.history = later ++ .closed false owed :: earlier →
          ∀ state ∈ owed, .finished state ∈ earlier :=
  ⟨fun _ reached => .ofReached reached,
    fun _ reached _ _ _ isSplit => (ClosesLast.reached reached).closed isSplit⟩

/-- A connect is executing when a close cancels it. -/
def closingMoves : List Move :=
  let run : Move := .run 1 ⟨0, 0, 0⟩
  let work : Move := .work .connected []
  [.start 1 (.submit .connectTls 9 0), run, run, run, work, work, .start 1 .close, run, run, run,
    run, run, run, run]

/-- The close waits until the worker has finished the connect. -/
def patientMoves : List Move :=
  let run : Move := .run 1 ⟨0, 0, 0⟩
  let work : Move := .work .connected []
  closingMoves ++ [work, work, work, work, run, run]

theorem operations_complete_once_patient :
    ∃ world, Reachable Initial (UnhurriedStep 4) world ∧ ∃ earlier,
      world.shared.history = .closed false [0] :: earlier ∧ .finished 0 ∈ earlier := by
  have performed : (performs (unhurried 4) patientMoves ⟨{}, [[], []]⟩).map (·.shared.history) =
      some [.closed false [0], .finished 0, .cancelReturned 0, .handed 0, .accepted 0,
        .submitted ⟨0, .connectTls, 9, 0⟩] := by decide
  obtain ⟨world, reaches, history⟩ := Option.map_eq_some_iff.mp performed
  have reached : Reachable Initial (UnhurriedStep 4) world :=
    Reachable.performs (.start ⟨1, rfl⟩) reaches
  exact ⟨world, reached, _, history,
    (operations_complete_once 4).2 world reached [0] [] _ history 0 (by simp)⟩

/-- The worker leaves the active slot, and the close returns before it finishes the connect. -/
def hastyMoves : List Move :=
  let run : Move := .run 1 ⟨0, 0, 0⟩
  let work : Move := .work .connected []
  closingMoves ++ [work, work, work, run, run]

theorem close_overtakes_completion : ∃ world, Reachable Initial (Step 4) world ∧ ∃ earlier,
      world.shared.history = .closed false [0] :: earlier ∧ .finished 0 ∉ world.shared.history ∧
        (world.shared.states 0).complete = false ∧ calls 0 world.shared.history = 0 := by
  have performed : (performs (move 4) hastyMoves ⟨{}, [[], []]⟩).map
      (fun world => (world.shared.history, world.shared.states 0)) =
      some ([.closed false [0], .cancelReturned 0, .handed 0, .accepted 0,
        .submitted ⟨0, .connectTls, 9, 0⟩], ⟨true, true, false⟩) := by decide
  obtain ⟨world, reaches, ends⟩ := Option.map_eq_some_iff.mp performed
  obtain ⟨history, state⟩ := Prod.mk.inj ends
  refine ⟨world, Reachable.performs (.start ⟨1, rfl⟩) reaches, _, history, ?_, ?_, ?_⟩
  · simp [history]
  · rw [state]
  · rw [history]
    decide

end World

end Odbcpp.Transport
