import Odbcpp.Transport.Closing

/-!
# The status of cancelled operations

A receive learns in one section whether it was cancelled and that it is complete. A
connect or a send looks at the cancellation flag, leaves the active slot and finishes in
three sections, so that a cancel in between marks an operation as cancelled whose callback
is told otherwise.
-/

namespace Odbcpp.Transport

open Foundation List

variable {depth : Nat} {world after : World} {todo : List (Task × Manner)} {handle : Option Nat}

/-! ## Which operations can be cancelled -/

/-- The frame is to return the handle of the operation. -/
def Frame.promises (state : Nat) : Frame → Nat
  | .submit task => if task.state = state then 1 else 0
  | .complete _ handle => if handle = some state then 1 else 0
  | _ => 0

/-- A handle is returned once. -/
theorem promises_fromSubmission : FromSubmission Frame.promises .handed where
  start := fun begins state => by
    cases begins with
    | @submit task isFresh =>
      refine ⟨by simp, ?_⟩
      by_cases same : task.state = state
      · exact .inr ⟨by simp [Frame.promises, same], same ▸ isFresh, rfl⟩
      · exact .inl (by simp [Frame.promises, same])
    | _ => exact ⟨by simp, .inl rfl⟩
  advance := fun {depth onWorker shared after frame next} advances state => by
    cases advances with
    | @hand other => by_cases same : other = state <;> simp [Frame.promises, same]
    | close | awaitExit => cases onWorker <;> simp [Frame.promises]
    | _ => simp [Frame.promises]
  work := fun works state => by cases works <;> simp

def Frame.Cancels (state : Nat) : Frame → Prop
  | .cancel other => other = state
  | .cancelEach states => state ∈ states
  | _ => False

/-- The handle was returned, or the operation was accepted. -/
def Shared.Exposed (shared : Shared) (state : Nat) : Prop :=
  .handed state ∈ shared.history ∨ .accepted state ∈ shared.history

/-- Only an operation that was accepted or whose handle was returned is ever cancelled; one
that is refused is neither. -/
structure Exposes (world : World) : Prop where
  queued : ∀ state ∈ world.shared.queue.states, .accepted state ∈ world.shared.history
  cancels : ∀ frame ∈ world.threads.flatten, ∀ {state}, frame.Cancels state →
    world.shared.Exposed state
  requested : ∀ state, (world.shared.states state).cancellationRequested = true →
    world.shared.Exposed state
  refused : ∀ {todo handle}, .complete todo handle ∈ world.threads.flatten →
    ∀ {task}, (task, Manner.refused) ∈ todo → handle = some task.state

namespace Shared

variable {onWorker : Bool} {shared after : Shared} {frame other : Frame} {next : List Frame}
  {state : Nat}

theorem Advances.grows (advances : shared.Advances depth onWorker frame after next) :
    ∃ events, after.history = events ++ shared.history := by
  obtain ⟨events, history, -⟩ := advances.recorded
  exact ⟨events, history⟩

theorem Exposed.advance (exposed : shared.Exposed state)
    (advances : shared.Advances depth onWorker frame after next) : after.Exposed state := by
  obtain ⟨events, history⟩ := advances.grows
  simp only [Exposed, history, mem_append]
  exact exposed.imp .inr .inr

theorem Advances.cancels (advances : shared.Advances depth onWorker frame after next)
    (present : other ∈ next) (cancels : other.Cancels state) :
    frame.Cancels state ∨ state ∈ shared.queue.states := by
  cases advances with
  | cancelNext =>
    simp at present
    rcases present with rfl | rfl
    · exact .inl (by simp [Frame.Cancels, show _ = state from cancels])
    · exact .inl (mem_cons_of_mem _ cancels)
  | close =>
    cases onWorker <;> simp at present <;> rcases present with rfl | rfl <;>
      first | exact .inr cancels | cases cancels
  | destroy running =>
    simp at present
    rcases present with rfl | rfl
    · exact .inr cancels
    · cases cancels
  | awaitExit => cases onWorker <;> simp at present; subst present; cases cancels
  | _ => simp at present <;> rcases present with rfl | rfl <;> cases cancels

theorem Advances.requests (advances : shared.Advances depth onWorker frame after next)
    (requested : (after.states state).cancellationRequested = true) :
    (shared.states state).cancellationRequested = true ∨
      frame = .cancel state ∧ (shared.states state).complete = false := by
  cases advances with
  | @cancel other incomplete unrequested =>
    by_cases same : other = state
    · subst same
      exact .inr ⟨rfl, incomplete⟩
    · exact .inl (by simpa [Ne.symm same] using requested)
  | @finish task =>
    by_cases same : state = task.state
    · subst same
      exact .inl (by simpa using requested)
    · exact .inl (by simpa [same] using requested)
  | _ => exact .inl requested

theorem Works.requests (works : shared.Works after) :
    (after.states state).cancellationRequested = (shared.states state).cancellationRequested := by
  cases works with
  | receiveCancelled | receive | receiveData | finish =>
    simp only [finished, goes, record, Function.update_apply]
    split
    · rename_i same
      rw [same]
    · rfl
  | _ => rfl

/-- A call completes what it was completing before, what it cancels or what it declines. -/
theorem Advances.completing (advances : shared.Advances depth onWorker frame after next)
    {todo handle} (present : .complete todo handle ∈ next)
    {entry} (isTodo : entry ∈ todo) :
    (∃ before, frame = .complete before handle ∧ entry ∈ before) ∨
      entry.2 = .cancelled ∧ frame = .requestCancel entry.1.state ∨
      entry.2 ≠ .cancelled ∧ (entry.2 = .refused → handle = some entry.1.state) := by
  cases advances with
  | accept =>
    simp at present
    obtain ⟨rfl, rfl⟩ := present
    obtain ⟨expired, -, rfl⟩ := mem_map.mp isTodo
    exact .inr (.inr ⟨nofun, nofun⟩)
  | decline clock trimmed declined =>
    simp at present
    obtain ⟨rfl, rfl⟩ := present
    rcases mem_append.mp isTodo with isExpired | isOwn
    · obtain ⟨expired, -, rfl⟩ := mem_map.mp isExpired
      exact .inr (.inr ⟨nofun, nofun⟩)
    · obtain rfl := mem_singleton.mp isOwn
      exact .inr (.inr ⟨declined, fun _ => rfl⟩)
  | overtaken | finish =>
    simp at present
    obtain ⟨rfl, rfl⟩ := present
    exact .inl ⟨_, rfl, mem_cons_of_mem _ isTodo⟩
  | cancelQueued =>
    simp at present
    obtain ⟨rfl, rfl⟩ := present
    obtain rfl := mem_singleton.mp isTodo
    exact .inr (.inl ⟨rfl, rfl⟩)
  | close | awaitExit => cases onWorker <;> simp at present
  | _ => simp at present

end Shared

variable {thread : Nat} {frame : Frame} {callers next : List Frame} {shared : Shared}

namespace Exposes

theorem initial (begins : World.Initial world) : Exposes world := by
  obtain ⟨count, rfl⟩ := begins
  exact ⟨by simp [TaskQueue.states], by simp, by simp, by simp⟩

theorem start (exposes : Exposes world) (found : world.threads[thread]? = some callers)
    (begins : world.shared.Begins shared frame) :
    Exposes ⟨shared, world.threads.set thread (frame :: callers)⟩ := by
  obtain ⟨queue, states, -⟩ := begins.frame
  have grows {event : Event} (old : event ∈ world.shared.history) : event ∈ shared.history := by
    cases begins <;> simp [old]
  have exposed {state : Nat} (old : world.shared.Exposed state) : shared.Exposed state :=
    old.imp grows grows
  refine ⟨fun state isQueued => ?_, fun other present {state} cancels => ?_,
    fun state requested => ?_, fun {todo handle} present {task} refused => ?_⟩
  · exact grows (exposes.queued state (queue ▸ isQueued))
  · rcases (frames_start found).mp present with rfl | isOld
    · cases begins with
      | cancel handed =>
        obtain rfl := cancels
        exact .inl handed
      | _ => cases cancels
    · exact exposed (exposes.cancels other isOld cancels)
  · exact exposed (exposes.requested state (states ▸ requested))
  · refine exposes.refused (((frames_start found).mp present).resolve_left fun isFrame => ?_) refused
    cases begins <;> cases isFrame

theorem run (exposes : Exposes world) (found : world.threads[thread]? = some (frame :: callers))
    (advances : world.shared.Advances depth (thread = 0) frame shared next) :
    Exposes ⟨shared, world.threads.set thread (next ++ callers)⟩ := by
  have own := innermost_mem found
  obtain ⟨events, history⟩ := advances.grows
  refine ⟨fun state isQueued => ?_, fun other present {state} cancels => ?_,
    fun state requested => ?_, fun {todo handle} present {task} refused => ?_⟩
  · rcases advances.states isQueued with isOld | ⟨-, -, -, accepted⟩
    · simp [history, exposes.queued state isOld]
    · exact accepted
  · rcases frames_advance found present with isNew | isOld
    · rcases advances.cancels isNew cancels with isOwn | isQueued
      · exact (exposes.cancels frame own isOwn).advance advances
      · exact Shared.Exposed.advance (.inr (exposes.queued state isQueued)) advances
    · exact (exposes.cancels other isOld cancels).advance advances
  · rcases advances.requests requested with isOld | ⟨rfl, -⟩
    · exact (exposes.requested state isOld).advance advances
    · exact (exposes.cancels _ own rfl).advance advances
  · rcases frames_advance found present with isNew | isOld
    · rcases advances.completing isNew refused with ⟨before, rfl, isTodo⟩ | ⟨⟨⟩, -⟩ | ⟨-, isHandle⟩
      · exact exposes.refused own isTodo
      · exact isHandle rfl
    · exact exposes.refused isOld refused

theorem reached (reached : Reachable World.Initial (World.Step depth) world) : Exposes world := by
  refine reached.invariant (fun _ => Exposes.initial) fun {world after} before exposes taken => ?_
  cases taken.turn with
  | start found free begins => exact exposes.start found begins
  | run found advances => exact exposes.run found advances
  | @work shared alone works =>
    have grows {event : Event} (old : event ∈ world.shared.history) : event ∈ shared.history := by
      cases works <;> simp [old]
    refine ⟨fun state isQueued => ?_, fun frame present {state} cancels => ?_,
      fun state requested => ?_, exposes.refused⟩
    · exact grows (exposes.queued state
        (works.states (World.orderly_reached before) isQueued))
    · exact (exposes.cancels frame present cancels).imp grows grows
    · exact (exposes.requested state (works.requests ▸ requested)).imp grows grows

end Exposes

theorem World.refused_unrequested (reached : Reachable Initial (Step depth) world)
    (present : .complete todo handle ∈ world.threads.flatten) {task : Task}
    (refused : (task, Manner.refused) ∈ todo) :
    (world.shared.states task.state).cancellationRequested = false := by
  have exposes := Exposes.reached reached
  obtain rfl := exposes.refused present refused
  by_contra requested
  rcases exposes.requested task.state (by simpa using requested) with handed | accepted
  · exact (Singly.reached promises_fromSubmission reached).absent present
      (by simp [Frame.promises]) handed
  · refine (World.offered_reached reached).absent present ?_ accepted
    exact countP_pos_iff.mpr ⟨_, refused, by simp⟩

/-! ## What callbacks are told -/

/-- The flag and what the callback is told agree. -/
def Shared.Agrees (shared : Shared) (state : Nat) (outcome : IoOutcome) : Prop :=
  (shared.states state).cancellationRequested = true ↔ outcome = cancelledResult

/-- Between the test of the flag and the end of the operation, the two still agree. -/
def Shared.Consistent (shared : Shared) : WorkerPoint → Prop
  | .executed task outcome _ =>
    outcome = cancelledResult → (shared.states task.state).cancellationRequested = true
  | .tested task outcome | .left task outcome => shared.Agrees task.state outcome
  | _ => True

/-- What callers are told agrees with the cancellation flags. -/
structure Truthful (world : World) : Prop where
  told : ∀ {state outcome}, world.Tells state outcome →
    (world.shared.states state).complete = true ∧ world.shared.Agrees state outcome
  worker : world.shared.Consistent world.shared.worker
  cancelled : ∀ {todo handle}, .complete todo handle ∈ world.threads.flatten →
    ∀ {task}, (task, Manner.cancelled) ∈ todo →
      (world.shared.states task.state).cancellationRequested = true
  hooks : ∀ {state}, .requestCancel state ∈ world.threads.flatten →
    (world.shared.states state).cancellationRequested = true

namespace World

/-- The worker has tested the flag of the operation and has yet to finish it. -/
def tested (world : World) (state : Nat) : Bool :=
  match world.shared.worker with
  | .tested task _ | .left task _ => task.state = state
  | _ => false

/-- A cancel that sets the flag comes between its test and the end of the operation. -/
def slips (world : World) : Move → Bool
  | .run thread _ =>
    match world.threads[thread]? with
    | some (.cancel state :: _) =>
      world.tested state && !(world.shared.states state).cancellationRequested
    | _ => false
  | _ => false

/-- The wrapped transport reports the very error that stands for a cancellation. -/
def Move.echoes : Move → Bool
  | .work outcome _ => outcome = cancelledResult
  | _ => false

/-- The steps by which no cancel slips in, over a transport whose errors are its own. -/
def punctual (depth : Nat) (chosen : Move) (world : World) : Option World :=
  if world.slips chosen || chosen.echoes then none else world.move depth chosen

def PunctualStep (depth : Nat) (world after : World) : Prop :=
  ∃ chosen, punctual depth chosen world = some after

theorem PunctualStep.move (taken : PunctualStep depth world after) :
    ∃ chosen, world.slips chosen = false ∧ Move.echoes chosen = false ∧
      world.move depth chosen = some after := by
  obtain ⟨chosen, moved⟩ := taken
  unfold punctual at moved
  split at moved
  · cases moved
  rename_i calm
  simp only [Bool.or_eq_true, not_or, Bool.not_eq_true] at calm
  exact ⟨chosen, calm.1, calm.2, moved⟩

theorem PunctualStep.step (taken : PunctualStep depth world after) : Step depth world after := by
  obtain ⟨chosen, -, -, moved⟩ := taken.move
  exact ⟨chosen, moved⟩

end World

namespace Shared

variable {onWorker : Bool} {shared after : Shared} {frame : Frame} {next : List Frame}
  {state : Nat} {outcome : IoOutcome}

variable (advances : shared.Advances depth onWorker frame after next)
include advances

theorem Advances.stillRequested (requested : (shared.states state).cancellationRequested = true) :
    (after.states state).cancellationRequested = true := by
  cases advances with
  | @cancel other | @finish task =>
    simp only [finished, Shared.requested, record, Function.update_apply]
    split <;> simp_all
  | _ => exact requested

/-- A frame sets the flag only of an operation that is not complete. -/
theorem Advances.agrees (agrees : shared.Agrees state outcome)
    (untouched : frame = .cancel state → (shared.states state).complete = true ∨
      (shared.states state).cancellationRequested = true) : after.Agrees state outcome := by
  refine Iff.trans ⟨fun requested => ?_, advances.stillRequested⟩ agrees
  rcases advances.requests requested with isOld | ⟨isCancel, incomplete⟩
  · exact isOld
  rcases untouched isCancel with complete | already
  · simp [complete] at incomplete
  · exact already

theorem Advances.tells {other : Nat} (present : .calling other outcome ∈ next)
    (cancelled : ∀ {todo handle}, frame = .complete todo handle → ∀ {task},
      (task, Manner.cancelled) ∈ todo → (shared.states task.state).cancellationRequested = true)
    (refused : ∀ {todo handle}, frame = .complete todo handle → ∀ {task},
      (task, Manner.refused) ∈ todo → (shared.states task.state).cancellationRequested = false) :
    (after.states other).complete = true ∧ after.Agrees other outcome := by
  cases advances with
  | @finish task manner todo handle incomplete =>
    simp at present
    obtain ⟨rfl, rfl⟩ := present
    refine ⟨by simp, ?_⟩
    simp only [Agrees, finished, record, Function.update_self]
    cases manner with
    | cancelled => simp [Manner.outcome, cancelled rfl mem_cons_self]
    | expired =>
      cases (shared.states task.state).cancellationRequested <;>
        simp [Manner.outcome, expiredResult, cancelledResult]
    | refused =>
      rw [refused rfl mem_cons_self]
      cases task.kind <;> simp [Manner.outcome, TaskKind.refusedResult, cancelledResult]
  | close | awaitExit => cases onWorker <;> simp at present
  | _ => simp at present

theorem Advances.hooks (present : .requestCancel state ∈ next) :
    (after.states state).cancellationRequested = true := by
  cases advances with
  | cancel =>
    simp at present
    simp [present]
  | close | awaitExit => cases onWorker <;> simp at present
  | _ => simp at present

end Shared

namespace Truthful

theorem initial (begins : World.Initial world) : Truthful world := by
  obtain ⟨count, rfl⟩ := begins
  exact ⟨by simp [World.Tells, WorkerPoint.Reports], trivial, by simp, by simp⟩

theorem start (truthful : Truthful world) (found : world.threads[thread]? = some callers)
    (begins : world.shared.Begins shared frame) :
    Truthful ⟨shared, world.threads.set thread (frame :: callers)⟩ := by
  obtain ⟨-, states, worker⟩ := begins.frame
  have isOld {other : Frame} (present : other ∈ (world.threads.set thread (frame :: callers)).flatten)
      (different : other ≠ frame) : other ∈ world.threads.flatten :=
    ((frames_start found).mp present).resolve_left different
  refine ⟨fun {state outcome} tells => ?_, ?_, fun {todo handle} present {task} isCancelled => ?_,
    fun {state} present => ?_⟩
  · simp only [Shared.Agrees, states]
    refine truthful.told ?_
    rcases tells with called | reports | calling
    · exact .inl (by cases begins <;> simpa using called)
    · exact .inr (.inl (worker ▸ reports))
    · exact .inr (.inr (isOld calling (by cases begins <;> simp)))
  · have before := truthful.worker
    simp only [Shared.Consistent, Shared.Agrees, states, worker] at before ⊢
    exact before
  · simp only [states]
    exact truthful.cancelled (isOld present (by cases begins <;> simp)) isCancelled
  · simp only [states]
    exact truthful.hooks (isOld present (by cases begins <;> simp))

theorem run {readings} (truthful : Truthful world)
    (before : Reachable World.Initial (World.Step depth) world)
    (calm : world.slips (.run thread readings) = false)
    (found : world.threads[thread]? = some (frame :: callers))
    (advances : world.shared.Advances depth (thread = 0) frame shared next) :
    Truthful ⟨shared, world.threads.set thread (next ++ callers)⟩ := by
  have own := innermost_mem found
  have stays {state : Nat} {outcome : IoOutcome} (tells : world.Tells state outcome) :
      (shared.states state).complete = true ∧ shared.Agrees state outcome := by
    obtain ⟨complete, agrees⟩ := truthful.told tells
    exact ⟨advances.complete complete, advances.agrees agrees fun _ => .inl complete⟩
  refine ⟨fun {state outcome} tells => ?_, ?_, fun {todo handle} present {task} isCancelled => ?_,
    fun {state} present => ?_⟩
  · rcases tells with called | reports | calling
    · obtain ⟨events, history, -, calls, -⟩ := advances.recorded
      rw [history] at called
      rcases mem_append.mp called with isNew | isOld
      · exact stays (.inr (.inr (calls _ _ isNew ▸ own)))
      · exact stays (.inl isOld)
    · rcases advances.worker with ⟨same, -⟩ | ⟨-, waiting⟩
      · exact stays (.inr (.inl (same ▸ reports)))
      · simp [waiting, WorkerPoint.Reports] at reports
    rcases frames_advance found calling with isNew | isOld
    · exact advances.tells isNew
        (fun {_ _} isFrame {_} isTodo => truthful.cancelled (isFrame ▸ own) isTodo)
        (fun {_ _} isFrame {_} isTodo =>
          World.refused_unrequested before (isFrame ▸ own) isTodo)
    · exact stays (.inr (.inr isOld))
  · rcases advances.worker with ⟨same, -⟩ | ⟨-, waiting⟩
    · have consistent := truthful.worker
      -- A cancel of the operation whose flag was tested finds the flag set.
      have already {state : Nat} (isTested : world.tested state = true)
          (isCancel : frame = .cancel state) :
          (world.shared.states state).cancellationRequested = true := by
        subst isCancel
        simpa [World.slips, found, isTested] using calm
      simp only [same]
      cases point : world.shared.worker with
      | executed task outcome storage =>
        rw [point] at consistent
        exact fun isCancelled => advances.stillRequested (consistent isCancelled)
      | tested task outcome | left task outcome =>
        rw [point] at consistent
        exact advances.agrees consistent fun isCancel =>
          .inr (already (by simp [World.tested, point]) isCancel)
      | _ => trivial
    · simp only [waiting, Shared.Consistent]
  · rcases frames_advance found present with isNew | isOld
    · rcases advances.completing isNew isCancelled with
        ⟨earlier, rfl, isTodo⟩ | ⟨-, rfl⟩ | ⟨kept, -⟩
      · exact advances.stillRequested (truthful.cancelled own isTodo)
      · exact advances.stillRequested (truthful.hooks own)
      · exact absurd rfl kept
    · exact advances.stillRequested (truthful.cancelled isOld isCancelled)
  · rcases frames_advance found present with isNew | isOld
    · exact advances.hooks isNew
    · exact advances.stillRequested (truthful.hooks isOld)

theorem reports {shared : Shared} (truthful : Truthful world)
    (works : world.shared.Works shared) {state outcome}
    (reports : shared.worker.Reports state outcome) : world.shared.worker.Reports state outcome ∨
      (shared.states state).complete = true ∧ shared.Agrees state outcome := by
  have consistent := truthful.worker
  cases works with
  | receiveCancelled executed incomplete requested =>
    obtain ⟨rfl, rfl⟩ := reports
    exact .inr ⟨by simp, by simp [Shared.Agrees, requested]⟩
  | receive executed incomplete unrequested =>
    obtain ⟨rfl, rfl⟩ := reports
    rw [executed] at consistent
    refine .inr ⟨by simp, ?_⟩
    simp only [Shared.Agrees, Shared.goes, Shared.finished, Shared.record,
      Function.update_self, unrequested, Bool.false_eq_true, false_iff]
    intro isCancelled
    simp [consistent isCancelled] at unrequested
  | receiveData executed isReceive incomplete unrequested =>
    obtain ⟨rfl, rfl⟩ := reports
    exact .inr ⟨by simp, by simp [Shared.Agrees, unrequested, cancelledResult]⟩
  | finish left incomplete =>
    obtain ⟨rfl, rfl⟩ := reports
    rw [left] at consistent
    exact .inr ⟨by simp, by simpa [Shared.Agrees, Shared.Consistent] using consistent⟩
  | releaseSettled settled =>
    left
    rw [settled]
    exact reports
  | _ => cases reports

/-- The worker stays consistent, if the wrapped transport did not report a cancellation. -/
theorem consistent {shared : Shared} (truthful : Truthful world) (works : world.shared.Works shared)
    (own : ∀ {task outcome storage}, world.shared.worker = .executing task →
      shared.worker = .executed task outcome storage → outcome ≠ cancelledResult) :
    shared.Consistent shared.worker := by
  have consistent := truthful.worker
  cases works with
  | skip taken requested => exact fun _ => requested
  | executed outcome executing sized => exact fun isCancelled => absurd isCancelled (own executing rfl)
  | @test task outcome storage executed other =>
    rw [executed] at consistent
    show _ ↔ _
    cases requested : (world.shared.states task.state).cancellationRequested with
    | true => simp [requested]
    | false =>
      simp only [Shared.goes, requested]
      simpa using fun isCancelled => by simp [consistent isCancelled] at requested
  | release tested =>
    rw [tested] at consistent
    exact consistent
  | _ => trivial

theorem work {shared : Shared} (truthful : Truthful world) (works : world.shared.Works shared)
    (own : ∀ {task outcome storage}, world.shared.worker = .executing task →
      shared.worker = .executed task outcome storage → outcome ≠ cancelledResult) :
    Truthful ⟨shared, world.threads⟩ := by
  have stays {state : Nat} {outcome : IoOutcome} (tells : world.Tells state outcome) :
      (shared.states state).complete = true ∧ shared.Agrees state outcome := by
    obtain ⟨complete, agrees⟩ := truthful.told tells
    exact ⟨works.complete complete, by simpa only [Shared.Agrees, works.requests] using agrees⟩
  refine ⟨fun {state outcome} tells => ?_, truthful.consistent works own,
    fun {todo handle} present {task} isCancelled => ?_, fun {state} present => ?_⟩
  · rcases tells with called | reports | calling
    · have before : world.Tells state outcome := by
        cases works with
        | report reporting =>
          rcases mem_cons.mp called with isNew | isOld
          · obtain ⟨rfl, rfl⟩ := Event.called.inj isNew
            exact .inr (.inl (by simp [reporting, WorkerPoint.Reports]))
          · exact .inl isOld
        | _ => exact .inl (by simpa using called)
      exact stays before
    · exact (truthful.reports works reports).elim (fun isOld => stays (.inr (.inl isOld))) id
    · exact stays (.inr (.inr calling))
  · rw [works.requests]
    exact truthful.cancelled present isCancelled
  · rw [works.requests]
    exact truthful.hooks present

theorem reached (reached : Reachable World.Initial (World.PunctualStep depth) world) :
    Truthful world := by
  refine reached.invariant (fun _ => Truthful.initial) fun {world after} before truthful taken => ?_
  obtain ⟨chosen, calm, own, moved⟩ := taken.move
  cases chosen with
  | start thread call =>
    obtain ⟨callers, shared, frame, found, -, begins, rfl⟩ := World.move_start moved
    exact truthful.start found begins
  | run thread readings =>
    obtain ⟨frame, callers, shared, next, found, advances, rfl⟩ := World.move_run moved
    exact truthful.run (before.mono World.PunctualStep.step) calm found advances
  | work outcome storage =>
    obtain ⟨-, shared, works, executes, rfl⟩ := World.move_work moved
    refine truthful.work works fun {task reported _} executing executed => ?_
    obtain rfl : reported = outcome := executes executing executed
    simpa [World.Move.echoes] using own

end Truthful

namespace World

/-- In every run in which no cancel takes effect between the worker's test of the flag of a connect
or a send and the end of that operation, over a transport that does not itself report the
cancellation error: once a callback was called, it received that error if and only if the operation
is cancelled. -/
theorem cancelled_iff_told (depth : Nat) (world : World)
    (reached : Reachable Initial (PunctualStep depth) world) (state : Nat) (outcome : IoOutcome)
    (called : .called state outcome ∈ world.shared.history) :
    (world.shared.states state).cancelled = true ↔ outcome = cancelledResult := by
  obtain ⟨-, agrees⟩ := (Truthful.reached reached).told (.inl called)
  rw [(Written.reached (reached.mono PunctualStep.step)).flags state]
  exact agrees

/-- A send is executing. -/
def sendingMoves : List Move :=
  let run : Move := .run 1 ⟨0, 0, 0⟩
  let work : Move := .work (.transferred 3 false) []
  [.start 1 (.submit .send 9 0), run, run, run, work, work]

/-- It is cancelled before the wrapped transport returns. -/
def earlyCancelMoves : List Move :=
  let run : Move := .run 1 ⟨0, 0, 0⟩
  let work : Move := .work (.transferred 3 false) []
  sendingMoves ++ [.start 1 (.cancel 0), run, work, work, work, work, work]

theorem cancelled_iff_told_early : ∃ world, Reachable Initial (PunctualStep 4) world ∧
      .called 0 cancelledResult ∈ world.shared.history ∧
      (world.shared.states 0).cancelled = true := by
  have performed : (performs (punctual 4) earlyCancelMoves ⟨{}, [[], []]⟩).map
      (·.shared.history) =
      some [.called 0 cancelledResult, .finished 0, .handed 0, .accepted 0,
        .submitted ⟨0, .send, 9, 0⟩] := by decide
  obtain ⟨world, reaches, history⟩ := Option.map_eq_some_iff.mp performed
  have reached : Reachable Initial (PunctualStep 4) world :=
    Reachable.performs (.start ⟨1, rfl⟩) reaches
  have called : .called 0 cancelledResult ∈ world.shared.history := by simp [history]
  exact ⟨world, reached, called, (cancelled_iff_told 4 world reached 0 _ called).mpr rfl⟩

/-- It is cancelled after the worker has tested its flag. -/
def lateCancelMoves : List Move :=
  let run : Move := .run 1 ⟨0, 0, 0⟩
  let work : Move := .work (.transferred 3 false) []
  sendingMoves ++ [work, work, .start 1 (.cancel 0), run, work, work, work]

theorem cancelled_but_told_transferred : ∃ world, Reachable Initial (Step 4) world ∧
      .called 0 (.transferred 3 false) ∈ world.shared.history ∧
      (world.shared.states 0).cancelled = true ∧ .transferred 3 false ≠ cancelledResult := by
  have performed : (performs (move 4) lateCancelMoves ⟨{}, [[], []]⟩).map
      (fun world => (world.shared.history, world.shared.states 0)) =
      some ([.called 0 (.transferred 3 false), .finished 0, .handed 0, .accepted 0,
        .submitted ⟨0, .send, 9, 0⟩], ⟨true, true, true⟩) := by decide
  obtain ⟨world, reaches, ends⟩ := Option.map_eq_some_iff.mp performed
  obtain ⟨history, state⟩ := Prod.mk.inj ends
  refine ⟨world, Reachable.performs (.start ⟨1, rfl⟩) reaches, ?_, ?_, ?_⟩
  · simp [history]
  · rw [state]
  · decide

end World

end Odbcpp.Transport
