import Odbcpp.Transport.Progress

/-!
# Completion of asynchronous TLS operations

An operation is finished once, by the thread that then owes its callback a call; until
then it is in the queue, with the worker, or with a thread that is about to complete it.
-/

namespace Odbcpp.Transport

open Foundation List
open List (cons mem_append mem_cons)

variable {depth : Nat} {world after : World}

/-! ## Callbacks -/

variable (state : Nat)

def Event.calls : Event → Bool
  | .called other _ => other = state
  | _ => false

def calls (history : List Event) : Nat := history.countP (Event.calls state)

/-- The frame owes the operation a call of its callback. -/
def Frame.due : Frame → Nat
  | .calling other _ => if other = state then 1 else 0
  | _ => 0

def WorkerPoint.due : WorkerPoint → Nat
  | .settled task (some _) => if task.state = state then 1 else 0
  | .reporting other _ => if other = state then 1 else 0
  | _ => 0

/-- A complete operation was called back, or the call is owed to it. -/
structure Once (world : World) : Prop where
  owed : ∀ state, calls state world.shared.history + world.shared.worker.due state +
    tally (Frame.due state) world.threads = (world.shared.states state).complete.toNat
  finished : ∀ state, .finished state ∈ world.shared.history ↔
    (world.shared.states state).complete = true

/-- A frame calls back what it owes, and comes to owe what it finishes. -/
theorem Shared.Advances.owed {onWorker : Bool} {shared after : Shared} {frame : Frame}
    {next : List Frame} (advances : shared.Advances depth onWorker frame after next) (state : Nat) :
    after.worker.due state = shared.worker.due state ∧
    calls state after.history + (next.map (Frame.due state)).sum +
        (shared.states state).complete.toNat =
      calls state shared.history + frame.due state + (after.states state).complete.toNat := by
  have woken : shared.wake.worker.due state = shared.worker.due state := by
    rcases shared.wake_worker with ⟨same, -⟩ | ⟨sleeping, waiting⟩
    · rw [same]
    · rw [waiting, sleeping]
      rfl
  cases advances with
  | @finish task manner todo handle incomplete =>
    by_cases same : task.state = state
    · subst same
      simp [Frame.due, calls, Event.calls, incomplete]
    · simp [Frame.due, calls, Event.calls, same, Ne.symm same]
  | @call other outcome =>
    by_cases same : other = state <;> simp [Frame.due, calls, Event.calls, same]
  | @cancel other incomplete unrequested =>
    by_cases same : other = state
    · subst same
      simp [Frame.due, calls]
    · simp [Frame.due, calls, Ne.symm same]
  | close => cases onWorker <;> simp [Frame.due]
  | awaitExit => cases onWorker <;> simp [Frame.due, woken]
  | wake => simp [Frame.due, woken]
  | _ => simp [Frame.due, calls, Event.calls]

theorem Shared.Works.owed {shared after : Shared} (works : shared.Works after) (state : Nat) :
    calls state after.history + after.worker.due state + (shared.states state).complete.toNat =
      calls state shared.history + shared.worker.due state +
        (after.states state).complete.toNat := by
  cases works with
  | @receiveCancelled task _ _ point incomplete | @receive task _ _ point incomplete
  | @receiveData task _ _ _ point _ incomplete | @finish task _ point incomplete =>
    by_cases same : task.state = state
    · subst same
      simp [WorkerPoint.due, calls, Event.calls, incomplete, point]
    · simp [WorkerPoint.due, calls, Event.calls, same, Ne.symm same, point]
  | @report other outcome point =>
    by_cases same : other = state <;> simp [WorkerPoint.due, calls, Event.calls, same, point]
  | take point | sleep point | exit point | skip point | execute point | executed _ point
  | test point | receiveOvertaken point | release point | overtaken point | releaseSilent point
  | releaseSettled point | callback point =>
    simp [WorkerPoint.due, calls, point]

def Shared.Recorded (shared : Shared) : Prop :=
  ∀ state, .finished state ∈ shared.history ↔ (shared.states state).complete = true

theorem Shared.Recorded.finish {shared : Shared} (recorded : shared.Recorded) (state : Nat) :
    (shared.finished state).Recorded := by
  intro other
  by_cases same : other = state
  · subst same
    simp
  · simpa [same] using recorded other

theorem Shared.Recorded.advance {onWorker : Bool} {shared after : Shared} {frame : Frame}
    {next : List Frame} (recorded : shared.Recorded)
    (advances : shared.Advances depth onWorker frame after next) : after.Recorded := by
  cases advances with
  | finish incomplete => exact recorded.finish _
  | @cancel state incomplete unrequested =>
    intro other
    by_cases same : other = state
    · subst same
      simpa using recorded other
    · simpa [same] using recorded other
  | _ => simpa [Shared.Recorded] using recorded

theorem Shared.Recorded.work {shared after : Shared} (recorded : shared.Recorded)
    (works : shared.Works after) : after.Recorded := by
  cases works with
  | @receiveCancelled task | @receive task | @finish task => exact recorded.finish task.state
  | @receiveData task =>
    have finished := recorded.finish task.state
    simpa [Shared.Recorded] using finished
  | _ => simpa [Shared.Recorded] using recorded

namespace Once

theorem initial (begins : World.Initial world) : Once world := by
  obtain ⟨count, rfl⟩ := begins
  exact ⟨fun state => by simp [calls, WorkerPoint.due], fun state => by simp⟩

theorem turn (once : Once world) (turn : World.Turn depth world after) : Once after := by
  cases turn with
  | start found free begins =>
    refine ⟨fun state => ?_, fun state => ?_⟩
    · have owed := once.owed state
      rw [tally_start _ found]
      cases begins <;> simpa [calls, Event.calls, Frame.due] using owed
    · have finished := once.finished state
      cases begins <;> simpa using finished
  | @run thread frame callers next shared found advances =>
    refine ⟨fun state => ?_, Shared.Recorded.advance once.finished advances⟩
    have before := once.owed state
    obtain ⟨worker, changed⟩ := advances.owed state
    have moved := tally_advance (Frame.due state) found next
    simp only [worker]
    omega
  | work alone works =>
    refine ⟨fun state => ?_, Shared.Recorded.work once.finished works⟩
    have before := once.owed state
    have changed := works.owed state
    simp only
    omega

theorem reached (reached : Reachable World.Initial (World.Step depth) world) : Once world :=
  reached.invariant (fun _ => Once.initial) fun _ once taken => once.turn taken.turn

theorem called_le (once : Once world) (state : Nat) : calls state world.shared.history ≤ 1 := by
  have owed := once.owed state
  have atMost := Bool.toNat_le (world.shared.states state).complete
  omega

/-- Nothing was called before it was finished. -/
theorem uncalled (once : Once world) {state : Nat}
    (incomplete : (world.shared.states state).complete = false) (outcome : IoOutcome) :
    .called state outcome ∉ world.shared.history ∧ world.shared.worker.due state = 0 ∧
      .calling state outcome ∉ world.threads.flatten := by
  have owed := once.owed state
  simp only [incomplete, Bool.toNat_false, Nat.add_eq_zero_iff] at owed
  obtain ⟨⟨uncalled, unreported⟩, undue⟩ := owed
  refine ⟨fun present => ?_, unreported, fun present => ?_⟩
  · have := countP_eq_zero.mp uncalled _ present
    simp [Event.calls] at this
  · have := tally_pos (Frame.due state) present
    simp [Frame.due, undue] at this

end Once

/-! ## Nothing is lost -/

def Frame.Offers : Frame → Prop
  | .submit task => task.state = state
  | _ => False

def Frame.Completes : Frame → Prop
  | .complete todo _ => ∃ entry ∈ todo, entry.1.state = state
  | _ => False

def WorkerPoint.holding : WorkerPoint → Option Task
  | .taken task | .executing task | .executed task _ _ | .tested task _ | .left task _ => some task
  | _ => none

/-- An accepted operation is complete or has somebody to complete it. -/
structure Shared.Keeps (shared : Shared) (frames : List Frame) (state : Nat) : Prop where
  submitted : ∀ {task}, .submitted task ∈ shared.history → task.state = state →
    .accepted state ∈ shared.history ∨ (shared.states state).complete = true ∨
      ∃ frame ∈ frames, frame.Offers state ∨ frame.Completes state
  accepted : .accepted state ∈ shared.history →
    (shared.states state).complete = true ∨ (∃ task ∈ shared.queue.tasks, task.state = state) ∨
      (∃ task, shared.worker.holding = some task ∧ task.state = state) ∨
      ∃ frame ∈ frames, frame.Completes state

namespace Shared

variable {onWorker : Bool} {shared after : Shared} {frame : Frame} {next : List Frame}
  {state : Nat}

theorem finished_complete {other : Nat} (complete : (shared.states state).complete = true) :
    ((shared.finished other).states state).complete = true := by
  by_cases same : state = other
  · subst same
    simp
  · simpa [same] using complete

theorem Advances.complete (advances : shared.Advances depth onWorker frame after next)
    (complete : (shared.states state).complete = true) : (after.states state).complete = true := by
  cases advances with
  | finish incomplete => exact finished_complete complete
  | @cancel other incomplete unrequested =>
    by_cases same : state = other
    · subst same
      simp [complete] at incomplete
    · simpa [same] using complete
  | _ => exact complete

theorem Works.complete (works : shared.Works after)
    (complete : (shared.states state).complete = true) : (after.states state).complete = true := by
  cases works with
  | receiveCancelled | receive | receiveData | finish => exact finished_complete complete
  | _ => exact complete

section

variable (advances : shared.Advances depth onWorker frame after next)
include advances

theorem Advances.completes (completes : frame.Completes state) :
    (after.states state).complete = true ∨ ∃ other ∈ next, other.Completes state := by
  cases advances with
  | @overtaken task manner todo handle complete =>
    obtain ⟨entry, present, isState⟩ := completes
    rcases mem_cons.mp present with rfl | later
    · exact .inl (isState ▸ complete)
    · exact .inr ⟨_, mem_singleton_self _, entry, later, isState⟩
  | @finish task manner todo handle incomplete =>
    obtain ⟨entry, present, isState⟩ := completes
    rcases mem_cons.mp present with rfl | later
    · exact .inl (by simp [isState.symm])
    · exact .inr ⟨.complete todo handle, by simp, entry, later, isState⟩
  | done | hand =>
    obtain ⟨entry, present, -⟩ := completes
    cases present
  | _ => cases completes

theorem Advances.offers (offers : frame.Offers state) :
    .accepted state ∈ after.history ∨ ∃ other ∈ next, other.Completes state := by
  cases advances with
  | accept clock trimmed running room =>
    obtain rfl := offers
    exact .inl (by simp)
  | @decline task kept removed manner clock trimmed declined =>
    exact .inr ⟨_, mem_singleton_self _, (task, manner), by simp, offers⟩
  | _ => cases offers

theorem Advances.queued (queued : ∃ task ∈ shared.queue.tasks, task.state = state) :
    (∃ task ∈ after.queue.tasks, task.state = state) ∨ ∃ other ∈ next, other.Completes state := by
  obtain ⟨task, present, isState⟩ := queued
  cases advances with
  | @accept new kept removed clock trimmed running room =>
    rcases trimmed.partitioned task present with isKept | isRemoved
    · exact .inl ⟨task, by simp [TaskQueue.push, isKept], isState⟩
    · exact .inr ⟨.complete (removed.map (·, Manner.expired)) (some new.state), by simp,
        (task, .expired), by simpa using isRemoved, isState⟩
  | @decline new kept removed manner clock trimmed declined =>
    rcases trimmed.partitioned task present with isKept | isRemoved
    · exact .inl ⟨task, isKept, isState⟩
    · exact .inr ⟨_, mem_singleton_self _, (task, .expired), by simp [isRemoved], isState⟩
  | @cancelQueued kept removed trimmed queued =>
    rcases trimmed.partitioned task present with isKept | isRemoved
    · exact .inl ⟨task, isKept, isState⟩
    obtain rfl := mem_singleton.mp isRemoved
    exact .inr ⟨.complete [(task, .cancelled)] none, by simp, (task, .cancelled), by simp,
      isState⟩
  | _ => exact .inl ⟨task, present, isState⟩

theorem Advances.accepted (accepted : .accepted state ∈ after.history) :
    .accepted state ∈ shared.history ∨
      frame.Offers state ∧ ∃ task ∈ after.queue.tasks, task.state = state := by
  cases advances with
  | @accept task kept removed clock trimmed running room =>
    rcases mem_cons.mp accepted with isNew | isOld
    · obtain rfl := Event.accepted.inj isNew
      exact .inr ⟨rfl, task, by simp [TaskQueue.push], rfl⟩
    · exact .inl isOld
  | _ => exact .inl (by simpa using accepted)

theorem Advances.submitted {task : Task} :
    .submitted task ∈ after.history ↔ .submitted task ∈ shared.history := by
  cases advances <;> simp

end

/-- A frame's step loses nothing. -/
theorem Keeps.advance {callers : List Frame} {threads : List (List Frame)} {thread : Nat}
    (keeps : shared.Keeps threads.flatten state)
    (found : threads[thread]? = some (frame :: callers))
    (advances : shared.Advances depth onWorker frame after next) :
    after.Keeps (threads.set thread (next ++ callers)).flatten state := by
  have remains {Holds : Frame → Prop} (held : ∃ other ∈ threads.flatten, Holds other) :
      Holds frame ∨ ∃ other ∈ (threads.set thread (next ++ callers)).flatten, Holds other := by
    obtain ⟨other, present, holds⟩ := held
    by_cases same : other = frame
    · exact .inl (same ▸ holds)
    · exact .inr ⟨other, frames_remain found (.inr ⟨same, present⟩), holds⟩
  have passed {Holds : Frame → Prop} (left : ∃ other ∈ next, Holds other) :
      ∃ other ∈ (threads.set thread (next ++ callers)).flatten, Holds other := by
    obtain ⟨other, present, holds⟩ := left
    exact ⟨other, frames_remain found (.inl present), holds⟩
  have completed (held : ∃ other ∈ threads.flatten, other.Completes state) :
      (after.states state).complete = true ∨
        ∃ other ∈ (threads.set thread (next ++ callers)).flatten, other.Completes state :=
    (remains held).elim (fun own => (advances.completes own).imp_right passed) .inr
  refine ⟨fun submitted isState => ?_, fun accepted => ?_⟩
  · rcases keeps.submitted (advances.submitted.mp submitted) isState with old | complete | held
    · refine .inl ?_
      cases advances <;> simp [old]
    · exact .inr (.inl (advances.complete complete))
    rcases remains held with own | ⟨other, present, holds⟩
    · rcases own with offers | completes
      · rcases advances.offers offers with accepted | left
        · exact .inl accepted
        · exact .inr (.inr (passed (left.imp fun _ both => ⟨both.1, .inr both.2⟩)))
      · refine .inr ((advances.completes completes).imp_right fun left => ?_)
        exact passed (left.imp fun _ both => ⟨both.1, .inr both.2⟩)
    · exact .inr (.inr ⟨other, present, holds⟩)
  · rcases advances.accepted accepted with old | ⟨-, queued⟩
    · rcases keeps.accepted old with complete | queued | ⟨task, holding, isState⟩ | held
      · exact .inl (advances.complete complete)
      · rcases advances.queued queued with stays | left
        · exact .inr (.inl stays)
        · exact .inr (.inr (.inr (passed left)))
      · rcases advances.worker with ⟨same, -⟩ | ⟨sleeping, -⟩
        · exact .inr (.inr (.inl ⟨task, same ▸ holding, isState⟩))
        · simp [sleeping, WorkerPoint.holding] at holding
      · exact (completed held).imp_right fun left => .inr (.inr left)
    · exact .inr (.inl queued)

/-- A step of the worker loses nothing. -/
theorem Keeps.work {frames} (keeps : shared.Keeps frames state)
    (works : shared.Works after) : after.Keeps frames state := by
  refine ⟨fun {task} submitted isState => ?_, fun accepted => ?_⟩
  · have submittedBefore : .submitted task ∈ shared.history := by
      cases works <;> simpa using submitted
    rcases keeps.submitted submittedBefore isState with old | complete | held
    · refine .inl ?_
      cases works <;> simp [old]
    · exact .inr (.inl (works.complete complete))
    · exact .inr (.inr held)
  have acceptedBefore : .accepted state ∈ shared.history := by
    cases works <;> simpa using accepted
  rcases keeps.accepted acceptedBefore with complete | ⟨task, queued, isState⟩ |
    ⟨task, holding, isState⟩ | held
  · exact .inl (works.complete complete)
  · cases works with
    | @take first rest waiting isQueue =>
      rw [isQueue] at queued
      rcases mem_cons.mp queued with rfl | later
      · exact .inr (.inr (.inl ⟨task, rfl, isState⟩))
      · exact .inr (.inl ⟨task, later, isState⟩)
    | _ => exact .inr (.inl ⟨task, by simpa using queued, isState⟩)
  · cases works with
    | skip point | execute point | executed _ point | test point | release point =>
      obtain rfl : _ = task := by simpa [point, WorkerPoint.holding] using holding
      exact .inr (.inr (.inl ⟨_, rfl, isState⟩))
    | receiveCancelled point | receive point | receiveData point | finish point =>
      obtain rfl : _ = task := by simpa [point, WorkerPoint.holding] using holding
      exact .inl (by simp [isState.symm])
    | receiveOvertaken point complete | overtaken point complete =>
      obtain rfl : _ = task := by simpa [point, WorkerPoint.holding] using holding
      exact .inl (isState ▸ complete)
    | take point | sleep point | exit point | releaseSilent point | releaseSettled point
    | report point | callback point =>
      simp [point, WorkerPoint.holding] at holding
  · exact .inr (.inr (.inr held))

/-- A call that begins loses nothing; a submission holds the operation it is about. -/
theorem Keeps.start {callers : List Frame} {threads : List (List Frame)}
    {thread : Nat} (keeps : shared.Keeps threads.flatten state)
    (found : threads[thread]? = some callers) (begins : shared.Begins after frame) :
    after.Keeps (threads.set thread (frame :: callers)).flatten state := by
  obtain ⟨queue, states, worker⟩ := begins.frame
  have remains {Holds : Frame → Prop} (held : ∃ other ∈ threads.flatten, Holds other) :
      ∃ other ∈ (threads.set thread (frame :: callers)).flatten, Holds other :=
    held.imp fun _ both => ⟨(frames_start found).mpr (.inr both.1), both.2⟩
  have sameAccepted : .accepted state ∈ after.history ↔ .accepted state ∈ shared.history := by
    cases begins <;> simp
  refine ⟨fun {task} submitted isState => ?_, fun accepted => ?_⟩
  · rw [sameAccepted, states]
    have known : .submitted task ∈ shared.history ∨ frame = .submit task := by
      cases begins with
      | submit fresh =>
        rcases mem_cons.mp submitted with isThis | isOld
        · exact .inr (congrArg Frame.submit (Event.submitted.inj isThis).symm)
        · exact .inl isOld
      | _ => exact .inl (by simpa using submitted)
    rcases known with old | rfl
    · exact (keeps.submitted old isState).imp_right (Or.imp_right remains)
    · exact .inr (.inr ⟨_, (frames_start found).mpr (.inl rfl), .inl isState⟩)
  · rw [queue, states, worker]
    exact (keeps.accepted (sameAccepted.mp accepted)).imp_right
      (Or.imp_right (Or.imp_right remains))

end Shared

theorem World.keeps_reached (reached : Reachable Initial (Step depth) world) (state : Nat) :
    world.shared.Keeps world.threads.flatten state := by
  refine @Reachable.invariant _ _ _ (fun world => world.shared.Keeps world.threads.flatten state)
    (fun world begins => ?_) (fun {world after} before keeps taken => ?_) _ reached
  · obtain ⟨count, rfl⟩ := begins
    exact ⟨by simp, by simp⟩
  cases taken.turn with
  | start found free begins => exact keeps.start found begins
  | run found advances => exact keeps.advance found advances
  | work alone works => exact keeps.work works

/-- When no call can go on, every submitted operation was called back, once. -/
theorem World.Quiet.called (quiet : Quiet depth world)
    (reached : Reachable Initial (Step depth) world) {task : Task}
    (submitted : .submitted task ∈ world.shared.history) :
    calls task.state world.shared.history = 1 := by
  obtain ⟨isIdle, returned⟩ := quiet.returned (orderly_reached reached) (attended_reached reached)
  have resting := quiet.worker (attended_reached reached)
  have keeps := keeps_reached reached task.state
  have complete : (world.shared.states task.state).complete = true := by
    have ofAccepted (accepted : .accepted task.state ∈ world.shared.history) :
        (world.shared.states task.state).complete = true := by
      rcases keeps.accepted accepted with complete | ⟨_, queued, -⟩ | ⟨_, holding, -⟩ |
        ⟨_, present, -⟩
      · exact complete
      · simp [(TaskQueue.idle_iff.mp isIdle).2] at queued
      · rcases resting with point | point <;> simp [point, WorkerPoint.holding] at holding
      · simp [returned] at present
    rcases keeps.submitted submitted rfl with accepted | complete | ⟨_, present, -⟩
    · exact ofAccepted accepted
    · exact complete
    · simp [returned] at present
  have owed := (Once.reached reached).owed task.state
  have undue : world.shared.worker.due task.state = 0 := by
    rcases resting with point | point <;> simp [point, WorkerPoint.due]
  simpa [complete, undue, tally, returned] using owed

/-! ## Target buffers -/

def WorkerPoint.Reports (outcome : IoOutcome) : WorkerPoint → Prop
  | .settled task (some due) => task.state = state ∧ due = outcome
  | .reporting other due => other = state ∧ due = outcome
  | _ => False

/-- Some thread has told the callback, or is about to. -/
def World.Tells (world : World) (state : Nat) (outcome : IoOutcome) : Prop :=
  .called state outcome ∈ world.shared.history ∨ world.shared.worker.Reports state outcome ∨
    .calling state outcome ∈ world.threads.flatten

namespace Shared

variable {onWorker : Bool} {shared after : Shared} {frame : Frame} {next : List Frame}
  {state : Nat}

def Marked (shared : Shared) (state : Nat) : Prop :=
  (shared.states state).complete = true ∨ (shared.states state).cancellationRequested = true

def Clean (shared : Shared) (state : Nat) : Prop :=
  (shared.states state).complete = true ∧ (shared.states state).cancellationRequested = false

theorem Advances.flags (advances : shared.Advances depth onWorker frame after next)
    (same : (shared.states state).cancelled = (shared.states state).cancellationRequested) :
    (after.states state).cancelled = (after.states state).cancellationRequested := by
  cases advances with
  | @cancel other | @finish task =>
    simp only [finished, requested, record, Function.update_apply]
    split <;> simp_all
  | _ => exact same

theorem Works.flags (works : shared.Works after)
    (same : (shared.states state).cancelled = (shared.states state).cancellationRequested) :
    (after.states state).cancelled = (after.states state).cancellationRequested := by
  cases works with
  | receiveCancelled | receive | receiveData | finish =>
    simp only [finished, goes, record, Function.update_apply]
    split <;> simp_all
  | _ => exact same

theorem Advances.marked (advances : shared.Advances depth onWorker frame after next)
    (marked : shared.Marked state) : after.Marked state := by
  cases advances with
  | @cancel other | @finish task =>
    unfold Marked
    simp only [finished, requested, record, Function.update_apply]
    split
    · simp
    · exact marked
  | _ => exact marked

theorem Works.marked (works : shared.Works after) (marked : shared.Marked state) :
    after.Marked state := by
  cases works with
  | receiveCancelled | receive | receiveData | finish =>
    unfold Marked
    simp only [finished, goes, record, Function.update_apply]
    split
    · simp
    · exact marked
  | _ => exact marked

theorem Advances.clean (advances : shared.Advances depth onWorker frame after next)
    (clean : shared.Clean state) : after.Clean state := by
  refine ⟨advances.complete clean.1, ?_⟩
  cases advances with
  | @finish task manner todo handle incomplete =>
    simp only [finished, record, Function.update_apply]
    split
    · rename_i same
      simpa [same] using clean.2
    · exact clean.2
  | @cancel other incomplete unrequested =>
    have different : state ≠ other := by
      rintro rfl
      simp [clean.1] at incomplete
    simpa [different] using clean.2
  | _ => exact clean.2

theorem Works.clean (works : shared.Works after) (clean : shared.Clean state) :
    after.Clean state := by
  refine ⟨works.complete clean.1, ?_⟩
  cases works with
  | receiveCancelled | receive | receiveData | finish =>
    simp only [finished, goes, record, Function.update_apply]
    split
    · rename_i same
      simpa [same] using clean.2
    · exact clean.2
  | _ => exact clean.2

theorem Advances.recorded (advances : shared.Advances depth onWorker frame after next) :
    ∃ events, after.history = events ++ shared.history ∧
      (∀ task bytes, .written task bytes ∉ events) ∧
      (∀ other outcome, .called other outcome ∈ events → frame = .calling other outcome) ∧
      ∀ other, .cancelReturned other ∈ events → frame = .cancelReturns other := by
  cases advances with
  | accept | hand | finish | call | cancelReturn | reset => exact ⟨[_], rfl, by simp⟩
  | _ => exact ⟨[], rfl, by simp⟩

/-- The worker records a write, or only calls that it was to make; what it is to report it
has just finished. -/
theorem Works.recorded (works : shared.Works after) :
    (∃ task n eof storage, shared.worker = .executed task (.transferred n eof) storage ∧
        task.kind = .recv ∧ (shared.states task.state).complete = false ∧
        (shared.states task.state).cancellationRequested = false ∧ n ≤ task.room ∧
        after = ((shared.finished task.state).goes
          (.settled task (some (.transferred n eof)))).record (.written task (storage.take n))) ∨
      ∃ events, after.history = events ++ shared.history ∧
        (∀ task bytes, .written task bytes ∉ events) ∧ (∀ other, .cancelReturned other ∉ events) ∧
        ∀ other outcome, .called other outcome ∈ events ∨ after.worker.Reports other outcome →
          shared.worker.Reports other outcome ∨ (shared.states other).complete = false := by
  cases works with
  | receiveData executed isReceive incomplete unrequested some fits =>
    exact .inl ⟨_, _, _, _, executed, isReceive, incomplete, unrequested, fits, rfl⟩
  | receiveCancelled point incomplete | receive point incomplete | finish point incomplete =>
    refine .inr ⟨[_], rfl, by simp, by simp, fun other outcome new => .inr ?_⟩
    obtain ⟨rfl, -⟩ : _ = other ∧ _ = outcome := by simpa [WorkerPoint.Reports] using new
    exact incomplete
  | report point =>
    refine .inr ⟨[_], rfl, by simp, by simp, fun other outcome new => .inl ?_⟩
    simpa [WorkerPoint.Reports, point, eq_comm] using new
  | releaseSettled point =>
    refine .inr ⟨[], rfl, by simp, by simp, fun other outcome new => .inl ?_⟩
    simpa [WorkerPoint.Reports, point] using new
  | _ => exact .inr ⟨[], rfl, by simp, by simp, by simp [WorkerPoint.Reports]⟩

theorem Works.storage (works : shared.Works after) {task n eof storage}
    (executed : after.worker = .executed task (.transferred n eof) storage) :
    storage.length = task.room := by
  cases works with
  | executed outcome executing sized =>
    obtain ⟨rfl, -, rfl⟩ := WorkerPoint.executed.inj executed
    exact sized
  | skip => simp [cancelledResult] at executed
  | _ => simp at executed

end Shared

/-- A write was made by an uncancelled receive, before its callback and before any cancel
of it had returned. -/
structure Written (world : World) : Prop where
  flags : ∀ state, (world.shared.states state).cancelled =
    (world.shared.states state).cancellationRequested
  storage : ∀ {task n eof storage},
    world.shared.worker = .executed task (.transferred n eof) storage → storage.length = task.room
  returns : ∀ state, .cancelReturns state ∈ world.threads.flatten ∨
    .cancelReturned state ∈ world.shared.history → world.shared.Marked state
  uncancelled : ∀ {task bytes}, .written task bytes ∈ world.shared.history →
    task.kind = .recv ∧ world.shared.Clean task.state
  told : ∀ {task bytes outcome}, .written task bytes ∈ world.shared.history →
    world.Tells task.state outcome → ∃ eof, outcome = .transferred bytes.length eof
  order : ∀ {task bytes later earlier},
    world.shared.history = later ++ .written task bytes :: earlier →
    (∀ outcome, .called task.state outcome ∉ earlier) ∧ .cancelReturned task.state ∉ earlier

namespace Written

theorem initial (begins : World.Initial world) : Written world := by
  obtain ⟨count, rfl⟩ := begins
  refine ⟨by simp, by simp, by simp, by simp, by simp, by simp⟩

variable {thread : Nat} {frame : Frame} {callers next : List Frame} {shared : Shared}

theorem start (written : Written world) (found : world.threads[thread]? = some callers)
    (begins : world.shared.Begins shared frame) :
    Written ⟨shared, world.threads.set thread (frame :: callers)⟩ := by
  obtain ⟨-, states, worker⟩ := begins.frame
  obtain ⟨events, history, quiet⟩ : ∃ events, shared.history = events ++ world.shared.history ∧
      ∀ event ∈ events, event = .destroyed ∨ ∃ task, event = .submitted task := by
    cases begins with
    | submit | destroy => exact ⟨[_], rfl, by simp⟩
    | cancel | close => exact ⟨[], rfl, by simp⟩
  have plain : (∀ state, frame ≠ .cancelReturns state) ∧
      ∀ state outcome, frame ≠ .calling state outcome := by
    cases begins <;> simp
  have old {event : Event} (present : event ∈ shared.history)
      (alive : event ≠ .destroyed) (other : ∀ task, event ≠ .submitted task) :
      event ∈ world.shared.history := by
    rw [history] at present
    refine (mem_append.mp present).resolve_left fun isNew => ?_
    rcases quiet event isNew with rfl | ⟨task, rfl⟩
    · exact alive rfl
    · exact other task rfl
  refine ⟨by simpa [states] using written.flags,
    fun executed => written.storage (worker ▸ executed), fun state marks => ?_,
    fun {task bytes} isWritten => ?_, fun isWritten tells => ?_, fun isSplit => ?_⟩
  · simp only [Shared.Marked, states]
    refine written.returns state ?_
    rcases marks with present | recorded
    · exact .inl (((frames_start found).mp present).resolve_left fun isFrame =>
        plain.1 state isFrame.symm)
    · exact .inr (old recorded (by simp) (by simp))
  · simp only [Shared.Clean, states]
    exact written.uncancelled (old isWritten (by simp) (by simp))
  · refine written.told (old isWritten (by simp) (by simp)) ?_
    rcases tells with called | reports | calling
    · exact .inl (old called (by simp) (by simp))
    · exact .inr (.inl (worker ▸ reports))
    · exact .inr (.inr (((frames_start found).mp calling).resolve_left fun isFrame =>
        plain.2 _ _ isFrame.symm))
  · rw [history] at isSplit
    obtain ⟨since, -, isOld⟩ := split_of_notMem (fun isNew => by
      rcases quiet _ isNew with ended | ⟨task, submitted⟩
      · cases ended
      · cases submitted) isSplit
    exact written.order isOld

theorem run (written : Written world) (found : world.threads[thread]? = some (frame :: callers))
    (advances : world.shared.Advances depth (thread = 0) frame shared next) :
    Written ⟨shared, world.threads.set thread (next ++ callers)⟩ := by
  obtain ⟨events, history, unwritten, calls, cancels⟩ := advances.recorded
  have own := innermost_mem found
  have isOld {task : Task} {bytes : Bytes} (isWritten : .written task bytes ∈ shared.history) :
      .written task bytes ∈ world.shared.history := by
    rw [history] at isWritten
    exact (mem_append.mp isWritten).resolve_left (unwritten task bytes)
  refine ⟨fun state => advances.flags (written.flags state), fun executed => ?_,
    fun state marks => ?_, fun {task bytes} isWritten => ?_, fun isWritten tells => ?_,
    fun isSplit => ?_⟩
  · rcases advances.worker with ⟨same, -⟩ | ⟨-, waiting⟩
    · exact written.storage (same ▸ executed)
    · simp [waiting] at executed
  · rcases marks with present | recorded
    · rcases frames_advance found present with isNew | isOld
      · -- A cancel is about to return because it came too late or has set the flag.
        cases advances with
        | cancelAgain late =>
          simp at isNew
          exact isNew ▸ late
        | cancel incomplete unrequested =>
          simp at isNew
          exact .inr (by simp [isNew])
        | awaitExit => cases isWorker : decide (thread = 0) <;> simp [isWorker] at isNew
        | close => simp at isNew; split at isNew <;> cases isNew
        | _ => simp at isNew
      · exact advances.marked (written.returns state (.inl isOld))
    · rw [history] at recorded
      rcases mem_append.mp recorded with isNew | isOld
      · exact advances.marked (written.returns state (.inl (cancels state isNew ▸ own)))
      · exact advances.marked (written.returns state (.inr isOld))
  · obtain ⟨isReceive, clean⟩ := written.uncancelled (isOld isWritten)
    exact ⟨isReceive, advances.clean clean⟩
  · refine written.told (isOld isWritten) ?_
    rcases tells with called | reports | calling
    · rw [history] at called
      rcases mem_append.mp called with isNew | before
      · exact .inr (.inr (calls _ _ isNew ▸ own))
      · exact .inl before
    · rcases advances.worker with ⟨same, -⟩ | ⟨-, waiting⟩
      · exact .inr (.inl (same ▸ reports))
      · simp [waiting, WorkerPoint.Reports] at reports
    rcases frames_advance found calling with isNew | before
    · -- Only an operation that was not complete is finished here.
      obtain ⟨-, complete, -⟩ := written.uncancelled (isOld isWritten)
      cases advances with
      | finish incomplete =>
        simp at isNew
        rw [isNew.1] at complete
        simp [complete] at incomplete
      | awaitExit => cases isWorker : decide (thread = 0) <;> simp [isWorker] at isNew
      | close => simp at isNew; split at isNew <;> cases isNew
      | _ => simp at isNew
    · exact .inr (.inr before)
  · rw [history] at isSplit
    obtain ⟨since, -, isOld⟩ := split_of_notMem (unwritten _ _) isSplit
    exact written.order isOld

theorem receive {task n eof storage}
    (written : Written world) (once : Once world)
    (executed : world.shared.worker = .executed task (.transferred n eof) storage)
    (isReceive : task.kind = .recv) (incomplete : (world.shared.states task.state).complete = false)
    (unrequested : (world.shared.states task.state).cancellationRequested = false)
    (fits : n ≤ task.room) (works : world.shared.Works (((world.shared.finished task.state).goes
      (.settled task (some (.transferred n eof)))).record (.written task (storage.take n)))) :
    Written ⟨((world.shared.finished task.state).goes
      (.settled task (some (.transferred n eof)))).record (.written task (storage.take n)),
      world.threads⟩ := by
  have length : (storage.take n).length = n := by
    simpa [written.storage executed] using fits
  refine ⟨fun state => works.flags (written.flags state), works.storage, fun state marks => ?_,
    fun {other bytes} isWritten => ?_, fun {other bytes outcome} isWritten tells => ?_,
    fun {other bytes later earlier} isSplit => ?_⟩
  · exact works.marked (written.returns state (by simpa using marks))
  · rcases mem_cons.mp isWritten with isNew | isOld
    · obtain ⟨rfl, -⟩ := Event.written.inj isNew
      exact ⟨isReceive, by simp [Shared.Clean, unrequested]⟩
    · obtain ⟨otherReceives, clean⟩ := written.uncancelled (by simpa using isOld)
      exact ⟨otherReceives, works.clean clean⟩
  · rcases mem_cons.mp isWritten with isNew | isOld
    · obtain ⟨rfl, rfl⟩ := Event.written.inj isNew
      obtain ⟨uncalled, -, uncalling⟩ := once.uncalled incomplete outcome
      rcases tells with called | reports | calling
      · simp [uncalled] at called
      · exact ⟨eof, by rw [length]; exact reports.2.symm⟩
      · exact absurd calling uncalling
    have isWrittenBefore : .written other bytes ∈ world.shared.history := by simpa using isOld
    have different : task.state ≠ other.state := by
      intro same
      obtain ⟨-, complete, -⟩ := written.uncancelled isWrittenBefore
      simp [← same, incomplete] at complete
    refine written.told isWrittenBefore ?_
    rcases tells with called | reports | calling
    · exact .inl (by simpa using called)
    · exact absurd reports.1 different
    · exact .inr (.inr calling)
  · have isSplit : [.written task (storage.take n), .finished task.state] ++ world.shared.history =
        later ++ .written other bytes :: earlier := by simpa using isSplit
    rcases split_append isSplit with ⟨since, -, isOld⟩ | ⟨between, isAdded⟩
    · exact written.order isOld
    cases later with
    | nil =>
      obtain ⟨isFirst, rest⟩ := cons.inj isAdded
      obtain ⟨rfl, -⟩ := Event.written.inj isFirst
      obtain ⟨-, rfl⟩ := cons.inj isSplit
      refine ⟨fun outcome => ?_, fun returned => ?_⟩
      · simpa using (once.uncalled incomplete outcome).1
      · have marked := written.returns task.state (.inr (by simpa using returned))
        simp [Shared.Marked, incomplete, unrequested] at marked
    | cons first later =>
      obtain ⟨-, rest⟩ := cons.inj isAdded
      have := congrArg (Event.written other bytes ∈ ·) rest
      simp at this

theorem work {shared : Shared} (written : Written world) (once : Once world)
    (works : world.shared.Works shared) : Written ⟨shared, world.threads⟩ := by
  rcases works.recorded with ⟨task, n, eof, storage, executed, isReceive, incomplete, unrequested,
    fits, rfl⟩ | ⟨events, history, unwritten, uncancelled, told⟩
  · exact written.receive once executed isReceive incomplete unrequested fits works
  have isOld {task : Task} {bytes : Bytes} (isWritten : .written task bytes ∈ shared.history) :
      .written task bytes ∈ world.shared.history := by
    rw [history] at isWritten
    exact (mem_append.mp isWritten).resolve_left (unwritten task bytes)
  refine ⟨fun state => works.flags (written.flags state), works.storage, fun state marks => ?_,
    fun {task bytes} isWritten => ?_, fun {task bytes outcome} isWritten tells => ?_,
    fun isSplit => ?_⟩
  · refine works.marked (written.returns state (marks.imp_right fun recorded => ?_))
    rw [history] at recorded
    exact (mem_append.mp recorded).resolve_left (uncancelled state)
  · obtain ⟨isReceive, clean⟩ := written.uncancelled (isOld isWritten)
    exact ⟨isReceive, works.clean clean⟩
  · obtain ⟨-, complete, -⟩ := written.uncancelled (isOld isWritten)
    have before (new : .called task.state outcome ∈ events ∨
        shared.worker.Reports task.state outcome) : world.Tells task.state outcome :=
      .inr (.inl ((told _ _ new).resolve_right (by simp [complete])))
    refine written.told (isOld isWritten) ?_
    rcases tells with called | reports | calling
    · rw [history] at called
      exact (mem_append.mp called).elim (fun isNew => before (.inl isNew)) .inl
    · exact before (.inr reports)
    · exact .inr (.inr calling)
  · rw [history] at isSplit
    obtain ⟨since, -, isOld⟩ := split_of_notMem (unwritten _ _) isSplit
    exact written.order isOld

theorem reached (reached : Reachable World.Initial (World.Step depth) world) : Written world := by
  refine reached.invariant (fun _ => Written.initial) fun {world after} before written taken => ?_
  cases taken.turn with
  | start found free begins => exact written.start found begins
  | run found advances => exact written.run found advances
  | work alone works => exact written.work (Once.reached before) works

end Written

end Odbcpp.Transport
