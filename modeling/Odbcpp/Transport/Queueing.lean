import Odbcpp.Transport.Passes

/-!
# The queue of the epoll transport

Requests stay in the queue, in the order in which they were accepted, until their operations
are complete.
-/

namespace Odbcpp.Transport.Epoll

open Foundation Epoll.Event List

variable {shared middle after : Shared} {maxInflight depth : Nat} {choice : Choice}

/-! ## What most steps leave alone -/

def Event.isLater : Event → Bool
  | .accepted .. => false
  | _ => true

/-- Neither an acceptance nor a byte moved by an operation. -/
def Event.isPlain : Event → Bool
  | .accepted .. | .sent .. | .taken .. | .delivered .. => false
  | _ => true

theorem Event.isLater_of_isPlain {event : Event} (plain : event.isPlain = true) :
    event.isLater = true := by
  cases event <;> first | rfl | cases plain

namespace Shared

/-- Operations are completed, and the stream goes on or is given up, with events of some kind. -/
structure Tends (allowed : Event → Bool) (shared after : Shared) : Prop where
  nextState : after.nextState = shared.nextState
  complete : ∀ {state}, shared.isComplete state = true → after.isComplete state = true
  events : ∃ events, after.history = events ++ shared.history ∧
    (∀ event ∈ events, allowed event = true) ∧
    ∀ {state}, after.isComplete state = true →
      shared.isComplete state = true ∨ .finished state ∈ events
  position : shared.socket.unread.length ≤ shared.socket.arrived →
    after.socket.unread.length ≤ after.socket.arrived ∧
      shared.socket.position ≤ after.socket.position

namespace Tends

variable {allowed : Event → Bool}

theorem trans (first : Tends allowed shared middle) (second : Tends allowed middle after) :
    Tends allowed shared after := by
  obtain ⟨old, isOld, oldKinds, oldFinished⟩ := first.events
  obtain ⟨new, isNew, newKinds, newFinished⟩ := second.events
  refine ⟨second.nextState.trans first.nextState, fun isComplete => second.complete
    (first.complete isComplete), ⟨new ++ old, by simp [isNew, isOld], ?_, ?_⟩, ?_⟩
  · exact forall_mem_append.mpr ⟨newKinds, oldKinds⟩
  · intro state isComplete
    rcases newFinished isComplete with isComplete | isNew
    · exact (oldFinished isComplete).imp_right (mem_append_right _)
    · exact .inr (mem_append_left _ isNew)
  intro bound
  obtain ⟨bound, earlier⟩ := first.position bound
  exact ⟨(second.position bound).1, earlier.trans (second.position bound).2⟩

theorem quiet (events : List Event) (nextState : after.nextState = shared.nextState)
    (states : after.states = shared.states) (socket : after.socket = shared.socket)
    (isHistory : after.history = events ++ shared.history)
    (kinds : ∀ event ∈ events, allowed event = true) : Tends allowed shared after := by
  have same (state : Nat) : after.isComplete state = shared.isComplete state := by
    rw [isComplete, states, isComplete]
  refine ⟨nextState, ?_, ⟨events, isHistory, kinds, ?_⟩, ?_⟩
  · intro state isComplete
    rwa [same]
  · intro state isComplete
    exact .inl (by rwa [same] at isComplete)
  · rw [socket]
    exact fun bound => ⟨bound, le_rfl⟩

theorem goes (tends : Tends allowed shared middle) (point : ReactorPoint) :
    Tends allowed shared (middle.goes point) :=
  ⟨tends.nextState, tends.complete, tends.events, tends.position⟩

theorem weaken {wider} (tends : Tends allowed shared after)
    (weaker : ∀ {event}, allowed event = true → wider event = true) : Tends wider shared after := by
  obtain ⟨events, isHistory, kinds, finished⟩ := tends.events
  exact ⟨tends.nextState, tends.complete,
    ⟨events, isHistory, fun event present => weaker (kinds event present), finished⟩,
    tends.position⟩

theorem mem {event : Event} (tends : Tends allowed shared after) (present : event ∈ shared.history) :
    event ∈ after.history := by
  obtain ⟨events, isHistory, -⟩ := tends.events
  exact isHistory ▸ mem_append_right _ present

theorem old {event : Event} (tends : Tends allowed shared after)
    (isOther : allowed event = false) (present : event ∈ after.history) : event ∈ shared.history := by
  obtain ⟨events, isHistory, kinds, -⟩ := tends.events
  rw [isHistory] at present
  refine (mem_append.mp present).resolve_left fun isNew => ?_
  simpa [isOther] using kinds event isNew

end Tends

theorem Reconnects.tends (reconnects : Reconnects shared after) :
    Tends Event.isPlain shared after := by
  obtain ⟨events, isHistory, kinds, leaves⟩ := reconnects.events
  refine ⟨reconnects.nextState, ?_, ⟨events, isHistory, ?_, ?_⟩, ?_⟩
  · simp [Shared.isComplete, reconnects.states]
  · intro event present
    rcases kinds event present with rfl | rfl <;> rfl
  · intro state isComplete
    exact .inl (by simpa [Shared.isComplete, reconnects.states] using isComplete)
  intro bound
  simp only [Socket.position, reconnects.arrived]
  rcases leaves.1 with unread | ⟨unread, -⟩ <;> rw [unread]
  · exact ⟨bound, le_rfl⟩
  · simp

theorem tends_finished (shared : Shared) (state : Nat) (finished : OperationState)
    (isFinished : finished.complete = true) : Tends Event.isPlain shared (({ shared with
      states := Function.update shared.states state finished }).record (.finished state)) := by
  refine ⟨rfl, fun {other} isComplete => ?_, ⟨[.finished state], rfl, by simp [isPlain],
    fun {other} isComplete => ?_⟩, fun bound => ⟨bound, le_rfl⟩⟩
  · by_cases same : other = state
    · simp [Shared.isComplete, same, isFinished]
    · simpa [Shared.isComplete, Function.update_of_ne same] using isComplete
  by_cases same : other = state
  · simp [same]
  · exact .inl (by simpa [Shared.isComplete, Function.update_of_ne same] using isComplete)

theorem Completed.tends {request : Request} (completed : Completed shared request after) :
    Tends Event.isPlain shared after := by
  cases completed with
  | now => exact tends_finished shared _ _ rfl
  | before => exact .quiet [] rfl rfl rfl rfl (by simp)

theorem Completed.requests {request : Request} (completed : Completed shared request after) :
    after.requests = shared.requests := by
  cases completed <;> rfl

theorem Completed.isComplete {request : Request} (completed : Completed shared request after) :
    after.isComplete request.state = true := by
  cases completed with
  | now => simp [Shared.isComplete]
  | before isComplete => exact isComplete

/-- A call moves no bytes, and only the end of a submission accepts a request. -/
theorem Advances.tends {frame next}
    (advances : Advances shared frame after next)
    (same : after.nextState = shared.nextState) : Tends Event.isPlain shared after := by
  cases advances with
  | submit _ reaped =>
    have locked : Tends isPlain shared { shared with locked := true } :=
      .quiet [] rfl rfl rfl rfl (by simp)
    exact locked.trans reaped.tends
  | close _ closed => exact closed.tends.trans (.quiet [] rfl rfl rfl rfl (by simp))
  | closeNext completed => exact completed.tends
  | cancel _ isComplete => exact tends_finished shared _ _ isComplete
  | enqueue => simp at same
  | reap | cancelLate | closed | called | shutdown | join =>
    exact .quiet [] rfl rfl rfl rfl (by simp)
  | refuse | full | handOver | call => exact .quiet [_] rfl rfl rfl rfl (by simp [isPlain])

theorem Reacts.tends (reacts : Reacts maxInflight choice shared after) :
    Tends Event.isPlain shared after ∨ Transfers choice shared after := by
  cases reacts with
  | begin _ _ reaped =>
    have began : Tends isPlain shared (({ shared with locked := true }).record .passBegan) :=
      .quiet [_] rfl rfl rfl rfl (by simp [isPlain])
    exact .inl ((began.trans reaped.tends).goes _)
  | stop _ _ closed => exact .inl (closed.tends.trans (.quiet [] rfl rfl rfl rfl (by simp)))
  | reaped | leave | stopped => exact .inl (.quiet [] rfl rfl rfl rfl (by simp))
  | turn _ reconnects =>
    exact .inl (reconnects.tends.goes _)
  | conclude _ completed reconnects =>
    exact .inl ((completed.tends.trans reconnects.tends).goes _)
  | block | call => exact .inl (.quiet [_] rfl rfl rfl rfl (by simp [isPlain]))
  | finish => exact .inl ((tends_finished shared _ _ rfl).goes _)
  | transfer transfers => exact .inr transfers

theorem Transfers.tends (transfers : Transfers choice shared after) :
    Tends Event.isLater shared after := by
  cases transfers with
  | send => exact .quiet [_] rfl rfl rfl rfl (by simp [isLater])
  | @receive request _ _ _ n =>
    refine ⟨rfl, id, ⟨[_], rfl, by simp [isLater], .inl⟩, fun bound => ?_⟩
    simp [goes, record, Socket.position]
    omega
  | @deliver request outcome position received rest considered done completions =>
    have finished := (tends_finished shared request.state
      { shared.states request.state with complete := true } rfl).weaken isLater_of_isPlain
    exact finished.trans (.quiet [_] rfl rfl rfl rfl (by simp [isLater]))

theorem Reacts.later (reacts : Reacts maxInflight choice shared after) :
    Tends Event.isLater shared after :=
  reacts.tends.elim (·.weaken isLater_of_isPlain) (·.tends)

end Shared

/-! ## The queue -/

namespace Shared

/-- A part of the queue that has all incomplete requests. -/
structure Covers (shared : Shared) (requests : List Request) : Prop where
  sublist : requests.Sublist shared.requests
  incomplete : ∀ request ∈ shared.requests,
    shared.isComplete request.state = true ∨ request ∈ requests

namespace Covers

variable {kept rest : List Request} {request : Request}

theorem all (shared : Shared) : Covers shared shared.requests :=
  ⟨.refl _, fun _ => .inr⟩

theorem tends {allowed : Event → Bool} (covers : Covers shared rest)
    (tends : Tends allowed shared after) (same : after.requests = shared.requests) :
    Covers after rest :=
  ⟨same ▸ covers.sublist, fun request present =>
    (covers.incomplete request (same ▸ present)).imp_left tends.complete⟩

theorem drop (covers : Covers shared (kept ++ request :: rest))
    (isComplete : shared.isComplete request.state = true) : Covers shared (kept ++ rest) := by
  refine ⟨.trans ?_ covers.sublist, fun other present => ?_⟩
  · exact (sublist_cons_self request rest).append_left kept
  rcases covers.incomplete other present with done | inside
  · exact .inl done
  rcases mem_append.mp inside with inside | inside
  · exact .inr (mem_append_left _ inside)
  rcases mem_cons.mp inside with rfl | inside
  · exact .inl isComplete
  · exact .inr (mem_append_right _ inside)

theorem reap (covers : Covers shared (kept ++ request :: rest)) : Covers shared
      ((if shared.isComplete request.state then kept else kept ++ [request]) ++ rest) := by
  split
  · rename_i isComplete
    exact covers.drop isComplete
  · simpa using covers

end Covers

/-- The queue has the incomplete requests in the order of their acceptance. -/
structure Queued (shared : Shared) : Prop where
  finished : ∀ {state}, shared.isComplete state = true → .finished state ∈ shared.history
  sorted : shared.requests.Pairwise (·.state < ·.state)
  fresh : ∀ {state kind}, .accepted state kind ∈ shared.history → state < shared.nextState
  accepted : ∀ request ∈ shared.requests, .accepted request.state request.kind ∈ shared.history
  kept : ∀ {state kind}, .accepted state kind ∈ shared.history →
    shared.isComplete state = true ∨
      ∃ request ∈ shared.requests, request.state = state ∧ request.kind = kind

namespace Queued

theorem tends (queued : Queued shared) (tends : Tends Event.isLater shared after)
    (covers : Covers shared after.requests) : Queued after := by
  have old {state : Nat} {kind : RequestKind} : .accepted state kind ∈ after.history →
      .accepted state kind ∈ shared.history := tends.old rfl
  constructor
  · intro state isComplete
    obtain ⟨events, isHistory, -, finished⟩ := tends.events
    rw [isHistory]
    rcases finished isComplete with isComplete | isNew
    · exact mem_append_right _ (queued.finished isComplete)
    · exact mem_append_left _ isNew
  · exact queued.sorted.sublist covers.sublist
  · intro state kind accepted
    rw [tends.nextState]
    exact queued.fresh (old accepted)
  · intro request present
    exact tends.mem (queued.accepted request (covers.sublist.subset present))
  intro state kind accepted
  rcases queued.kept (old accepted) with isComplete | ⟨request, present, rfl, rfl⟩
  · exact .inl (tends.complete isComplete)
  rcases covers.incomplete request present with isComplete | present
  · exact .inl (tends.complete isComplete)
  · exact .inr ⟨request, present, rfl, rfl⟩

theorem enqueue (queued : Queued shared) {kept} (covers : Covers shared kept)
    (request : Request) (isState : request.state = shared.nextState) : Queued (({ shared with
      requests := kept ++ [request]
      nextState := shared.nextState + 1
      locked := false }).record (.accepted request.state request.kind)) := by
  have lower : ∀ other ∈ kept, other.state < request.state := fun other present => by
    rw [isState]
    exact queued.fresh (queued.accepted other (covers.sublist.subset present))
  constructor
  · intro state isComplete
    exact mem_cons_of_mem _ (queued.finished isComplete)
  · simp only [record, pairwise_append]
    refine ⟨queued.sorted.sublist covers.sublist, by simp, ?_⟩
    simpa using lower
  · intro state kind accepted
    rcases mem_cons.mp accepted with isNew | accepted
    · cases isNew
      simp [isState]
    · exact Nat.lt_succ_of_lt (queued.fresh accepted)
  · intro other present
    rcases mem_append.mp present with present | present
    · exact mem_cons_of_mem _ (queued.accepted other (covers.sublist.subset present))
    · obtain rfl := mem_singleton.mp present
      exact mem_cons_self
  intro state kind accepted
  rcases mem_cons.mp accepted with isNew | accepted
  · cases isNew
    exact .inr ⟨request, by simp, rfl, rfl⟩
  rcases queued.kept accepted with isComplete | ⟨other, present, rfl, rfl⟩
  · exact .inl isComplete
  rcases covers.incomplete other present with isComplete | present
  · exact .inl isComplete
  · exact .inr ⟨other, by simp [present], rfl, rfl⟩

end Queued

end Shared

/-- The part of the queue that the reactor goes on with. -/
def ReactorPoint.scope : ReactorPoint → Option (List Request)
  | .reaping kept rest _ _ => some (kept ++ rest)
  | .stopping rest _ => some rest
  | _ => none

/-- The part of the queue that a call goes on with. -/
def Frame.scope : Frame → Option (List Request)
  | .reaping _ _ _ _ kept rest => some (kept ++ rest)
  | .closing rest _ => some rest
  | _ => none

theorem ReactorPoint.holds_of_scope {point : ReactorPoint} {requests : List Request}
    (isScope : point.scope = some requests) : point.holds = true := by
  cases point <;> first | rfl | cases isScope

theorem Frame.holds_of_scope {frame : Frame} {requests : List Request}
    (isScope : frame.scope = some requests) : frame.holds = 1 := by
  cases frame <;> first | rfl | cases isScope

namespace Shared

theorem Reacts.covers (reacts : Reacts maxInflight choice shared after)
    (scope : ∀ {requests}, shared.reactor.scope = some requests → Covers shared requests) :
    Covers shared after.requests ∧ (shared.reactor.holds = false →
      after.requests = shared.requests) ∧
      ∀ {requests}, after.reactor.scope = some requests → Covers after requests := by
  have later := reacts.later
  cases reacts with
  | begin waiting free reaped =>
    have same := reaped.requests
    refine ⟨same ▸ .all shared, fun _ => same, ?_⟩
    rintro _ ⟨⟩
    exact (Covers.all shared).tends later same
  | stop waiting free closed =>
    have same := closed.requests
    refine ⟨same ▸ .all shared, fun _ => same, ?_⟩
    rintro _ ⟨⟩
    exact (Covers.all shared).tends later same
  | reaped now reaping | leave reaping =>
    have covers := scope (by rw [reaping]; rfl)
    refine ⟨by simpa using covers, ?_, by rintro _ ⟨⟩⟩
    simp [reaping, ReactorPoint.holds]
  | stopped stopping =>
    have covers := scope (by rw [stopping]; rfl)
    refine ⟨covers, ?_, by rintro _ ⟨⟩⟩
    simp [stopping, ReactorPoint.holds]
  | turn turns reconnects =>
    have same := reconnects.requests
    refine ⟨same ▸ .all shared, fun _ => same, fun {requests} isScope => ?_⟩
    refine Covers.tends ?_ later same
    generalize shared.reactor = point at turns scope
    cases turns with
    | reap =>
      cases isScope
      exact (scope rfl).reap
    | endConnects | processed =>
      cases isScope
      exact .all shared
    | @notified exits => cases exits <;> cases isScope
    | _ => cases isScope
  | conclude concludes completed reconnects =>
    have same : _ = shared.requests := reconnects.requests.trans completed.requests
    refine ⟨same ▸ .all shared, fun _ => same, fun {requests} isScope => ?_⟩
    generalize shared.reactor = point at concludes scope
    cases concludes with
    | endConnects =>
      cases isScope
      exact (Covers.all shared).tends later same
    | stopping =>
      cases isScope
      have covers := (scope rfl).tends later same
      exact @Covers.drop _ [] _ _ covers (reconnects.tends.complete completed.isComplete)
    | _ => cases isScope
  | block | finish | call => exact ⟨.all shared, fun _ => rfl, by rintro _ ⟨⟩⟩
  | transfer transfers =>
    cases transfers <;> exact ⟨.all shared, fun _ => rfl, by rintro _ ⟨⟩⟩

/-- What a call leaves of the queue, and what it goes on with. -/
theorem Advances.covers {frame next}
    (advances : Advances shared frame after next) (same : after.nextState = shared.nextState)
    (scope : ∀ {requests}, frame.scope = some requests → Covers shared requests) :
    Covers shared after.requests ∧
      (after.requests = shared.requests ∨ after.locked = false) ∧
      ∀ {other requests}, other ∈ next → other.scope = some requests → Covers after requests := by
  have tends := advances.tends same
  cases advances with
  | submit free reaped =>
    have same := reaped.requests
    refine ⟨same ▸ .all shared, .inl same, fun present isScope => ?_⟩
    obtain rfl := mem_singleton.mp present
    cases isScope
    exact (Covers.all shared).tends tends same
  | reap =>
    refine ⟨.all shared, .inl rfl, fun present isScope => ?_⟩
    obtain rfl := mem_singleton.mp present
    cases isScope
    exact (scope rfl).reap
  | full => exact ⟨by simpa using scope rfl, .inr rfl, fun present => by cases present⟩
  | enqueue => simp at same
  | close free closed =>
    have same := closed.requests
    refine ⟨same ▸ .all shared, .inl same, fun present isScope => ?_⟩
    obtain rfl := mem_singleton.mp present
    cases isScope
    exact (Covers.all shared).tends tends same
  | closeNext completed =>
    have same := completed.requests
    refine ⟨same ▸ .all shared, .inl same, fun present isScope => ?_⟩
    obtain rfl := mem_singleton.mp present
    cases isScope
    exact @Covers.drop _ [] _ _ ((scope rfl).tends tends same) completed.isComplete
  | closed =>
    refine ⟨scope rfl, .inr rfl, fun present isScope => ?_⟩
    obtain rfl := mem_singleton.mp present
    cases isScope
  | refuse | handOver | cancelLate | called | join =>
    exact ⟨.all shared, .inl rfl, fun present => by cases present⟩
  | cancel | call | shutdown =>
    refine ⟨.all shared, .inl rfl, fun present isScope => ?_⟩
    obtain rfl := mem_singleton.mp present
    cases isScope

end Shared

namespace World

variable {world last : World}

theorem arrives_tends (world : World) (bytes : Bytes) :
    world.shared.Tends Event.isPlain (world.arrives bytes).shared := by
  refine ⟨rfl, id, ⟨[.arrived bytes], rfl, by simp [isPlain], .inl⟩, fun bound => ?_⟩
  simp [arrives, Shared.record, Socket.position]
  omega

/-- The queue is in order, and whoever walks over it has all of it ahead. -/
structure Lined (world : World) : Prop where
  queued : world.shared.Queued
  reactor : ∀ {requests}, world.shared.reactor.scope = some requests →
    world.shared.Covers requests
  frames : ∀ {frame requests}, frame ∈ world.threads.flatten → frame.scope = some requests →
    world.shared.Covers requests

namespace Lined

theorem react (lined : Lined world) (exclusive : world.Exclusive)
    (reacts : world.shared.Reacts maxInflight choice after) : Lined { world with shared := after } := by
  obtain ⟨covers, same, scope⟩ := reacts.covers lined.reactor
  refine ⟨lined.queued.tends reacts.later covers, scope, fun {frame requests} present isScope => ?_⟩
  have holds := Frame.holds_of_scope isScope
  have free := (exclusive.heldByFrame present holds).2
  exact (lined.frames present isScope).tends reacts.later (same free)

theorem ofFree (queued : world.shared.Queued) (exclusive : world.Exclusive)
    (free : world.shared.locked = false) : Lined world := by
  refine ⟨queued, fun isScope => ?_, fun present isScope => ?_⟩
  · simpa [free] using exclusive.held (ReactorPoint.holds_of_scope isScope)
  · simpa [free] using (exclusive.heldByFrame present (Frame.holds_of_scope isScope)).1

theorem run (lined : Lined world) {thread frame callers next}
    (found : world.threads[thread]? = some (frame :: callers))
    (advances : world.shared.Advances frame after next)
    (exclusive : Exclusive ⟨after, world.threads.set thread (next ++ callers)⟩) :
    Lined ⟨after, world.threads.set thread (next ++ callers)⟩ := by
  have present := innermost_mem found
  by_cases same : after.nextState = world.shared.nextState
  · have tends := advances.tends same
    obtain ⟨covers, unchanged, scope⟩ := advances.covers same (lined.frames present)
    have queued := lined.queued.tends (tends.weaken isLater_of_isPlain) covers
    rcases unchanged with unchanged | free
    · refine ⟨queued, fun {requests} isScope => ?_, fun {other requests} present isScope => ?_⟩
      · rw [advances.reactor] at isScope
        exact (lined.reactor isScope).tends tends unchanged
      rcases frames_advance found present with isNew | isOld
      · exact scope isNew isScope
      · exact (lined.frames isOld isScope).tends tends unchanged
    · exact .ofFree queued exclusive free
  · cases advances with
    | @enqueue kind deadline bytes room kept =>
      have covers := lined.frames present rfl
      rw [append_nil] at covers
      exact .ofFree (lined.queued.enqueue covers ⟨_, kind, deadline, bytes, room⟩ rfl) exclusive rfl
    | submit _ reaped => exact absurd reaped.nextState same
    | close _ closed => exact absurd closed.nextState same
    | closeNext completed => exact absurd completed.tends.nextState same
    | _ => exact absurd rfl same

theorem step (lined : Lined world) (exclusive : world.Exclusive)
    (taken : Step maxInflight depth world last) : Lined last := by
  have later := exclusive_step exclusive taken
  obtain ⟨chosen, moved⟩ := taken
  cases chosen with
  | start thread call =>
    obtain ⟨idle, frame, isFrame, rfl⟩ := move_start moved
    refine ⟨lined.queued, lined.reactor, fun {other requests} present isScope => ?_⟩
    rcases (frames_start idle).mp present with rfl | present
    · simpa [Call.outside isFrame] using Frame.holds_of_scope isScope
    · exact lined.frames present isScope
  | run thread =>
    obtain ⟨frame, callers, shared, next, found, advances, rfl⟩ := move_run moved
    exact lined.run found advances later
  | react choice =>
    obtain ⟨shared, reacted, rfl⟩ := move_react moved
    exact lined.react exclusive (Shared.reacts reacted)
  | arrive bytes =>
    obtain rfl := move_arrive moved
    have tends := world.arrives_tends bytes
    exact ⟨lined.queued.tends (tends.weaken isLater_of_isPlain) (.all world.shared),
      fun isScope => (lined.reactor isScope).tends tends rfl,
      fun present isScope => (lined.frames present isScope).tends tends rfl⟩

theorem reached (reached : Reachable Initial (Step maxInflight depth) world) : Lined world := by
  refine reached.invariant ?_ fun before lined taken =>
    lined.step (exclusive_reached before) taken
  rintro _ ⟨count, rfl⟩
  refine ⟨⟨?_, ?_, ?_, ?_, ?_⟩, ?_, ?_⟩ <;> simp [Shared.isComplete, ReactorPoint.scope]

end Lined

/-- In every run, no operation is lost or doubled: the queue has every accepted operation that is
not complete, once and in the order of acceptance. -/
theorem operations_kept (maxInflight depth : Nat) (world : World)
    (reached : Reachable Initial (Step maxInflight depth) world) :
    world.shared.requests.Pairwise (·.state < ·.state) ∧
      (∀ request ∈ world.shared.requests,
        .accepted request.state request.kind ∈ world.shared.history) ∧
      ∀ state kind, .accepted state kind ∈ world.shared.history →
        .finished state ∈ world.shared.history ∨
          ∃ request ∈ world.shared.requests, request.state = state ∧ request.kind = kind := by
  have queued := (Lined.reached reached).queued
  exact ⟨queued.sorted, queued.accepted, fun _ _ accepted =>
    (queued.kept accepted).imp_left queued.finished⟩

/-- Of two receives in the queue the first is cancelled, and the next pass reaps it. -/
def reapingMoves : List Move :=
  [.start 0 (.submit .recv 9 [] 1), .run 0, .run 0, .run 0,
    .start 1 (.submit .recv 9 [] 1), .run 1, .run 1, .run 1,
    .start 0 (.cancel 0), .run 0, .run 0] ++ List.replicate 4 (.react {})

theorem operations_kept_reaped : ∃ world, Reachable Initial (Step 2 4) world ∧
    .finished 0 ∈ world.shared.history ∧ .finished 1 ∉ world.shared.history ∧
    world.shared.requests.map (·.state) = [1] ∧
    ∃ request ∈ world.shared.requests, request.state = 1 ∧ request.kind = .recv := by
  have performed : (performs (move 2 4) reapingMoves ⟨{}, [[], []]⟩).map
      (fun world => (world.shared.history, world.shared.requests.map (·.state))) =
      some ([.passBegan, .called 0 cancelledResult, .finished 0,
        .accepted 1 .recv, .handed 0, .accepted 0 .recv], [1]) := by decide
  obtain ⟨world, reaches, same⟩ := Option.map_eq_some_iff.mp performed
  obtain ⟨history, requests⟩ := Prod.mk.inj same
  have reached : Reachable Initial (Step 2 4) world := .performs (.start ⟨2, rfl⟩) reaches
  refine ⟨world, reached, by simp [history], by simp [history], requests, ?_⟩
  simpa [history] using (operations_kept 2 4 world reached).2.2 1 .recv

end World

end Odbcpp.Transport.Epoll
