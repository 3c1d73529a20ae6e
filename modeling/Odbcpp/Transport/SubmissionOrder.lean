import Odbcpp.Transport.Queueing
import Odbcpp.Transport.Streams

/-!
# Submission order

A pass of `process_io_locked` tries the requests of the queue in their order, but goes on to
the next one when the socket would block. Unless the socket then moves bytes of a later
request of the same kind in that pass, the stream is used in the order of submission.
-/

namespace Odbcpp.Transport.Epoll

open Foundation Epoll.Shared ReactorPoint List
open List (cons mem_cons mem_cons_of_mem mem_cons_self)

variable {shared middle after : Shared} {maxInflight depth : Nat} {choice : Choice}

variable {history : List Event} {point : ReactorPoint} {kind : RequestKind} {request : Request}
  {event : Event}

/-! ## Runs -/

def blocked (kind : RequestKind) : List Event → Bool
  | [] | .passBegan :: _ => false
  | .wouldBlock other :: earlier => other = kind || blocked kind earlier
  | _ :: earlier => blocked kind earlier

theorem blocked_cons (within : event ≠ .passBegan)
    (isBlocked : blocked kind history = true) : blocked kind (event :: history) = true := by
  cases event <;> simp_all [blocked]

theorem blocked_append {events} (within : ∀ event ∈ events, event ≠ .passBegan)
    (isBlocked : blocked kind history = true) : blocked kind (events ++ history) = true := by
  induction events with
  | nil => exact isBlocked
  | cons event events ih =>
    exact blocked_cons (within event mem_cons_self)
      (ih fun other present => within other (mem_cons_of_mem _ present))

def Move.cancels : Move → Bool
  | .start _ (.cancel _) => true
  | _ => false

namespace World

variable {world last : World}

def uncancelled (maxInflight depth : Nat) (chosen : Move) (world : World) : Option World :=
  if chosen.cancels then none else world.move maxInflight depth chosen

def UncancelledStep (maxInflight depth : Nat) (world after : World) : Prop :=
  ∃ chosen, uncancelled maxInflight depth chosen world = some after

/-- The socket moves bytes of a request although it has reported, in the same pass, that a
request of that kind would block. -/
def overtakes (world : World) : Move → Bool
  | .react choice =>
    match world.shared.reactor, choice.socket with
    | .attempting request _ _ _, .transferred n =>
      0 < n && blocked request.kind world.shared.history
    | _, _ => false
  | _ => false

/-- The steps without a cancellation by which no request overtakes another. -/
def orderly (maxInflight depth : Nat) (chosen : Move) (world : World) : Option World :=
  if world.overtakes chosen then none else world.uncancelled maxInflight depth chosen

def OrderlyStep (maxInflight depth : Nat) (world after : World) : Prop :=
  ∃ chosen, orderly maxInflight depth chosen world = some after

theorem OrderlyStep.move (taken : OrderlyStep maxInflight depth world last) :
    ∃ chosen, chosen.cancels = false ∧ world.overtakes chosen = false ∧
      world.move maxInflight depth chosen = some last := by
  obtain ⟨chosen, moved⟩ := taken
  unfold orderly uncancelled at moved
  split at moved
  · cases moved
  rename_i behind
  split at moved
  · cases moved
  rename_i kept
  exact ⟨chosen, by simpa using kept, by simpa using behind, moved⟩

theorem OrderlyStep.step (taken : OrderlyStep maxInflight depth world last) :
    Step maxInflight depth world last := by
  obtain ⟨chosen, -, -, moved⟩ := taken.move
  exact ⟨chosen, moved⟩

theorem no_cancel_reached (reached : Reachable Initial (OrderlyStep maxInflight depth) world) :
    ∀ frame ∈ world.threads.flatten, ∀ state, frame ≠ .cancel state := by
  refine @Reachable.invariant _ _ _ (fun world => ∀ frame ∈ world.threads.flatten, ∀ state,
    frame ≠ .cancel state) ?_ ?_ _ reached
  · rintro _ ⟨count, rfl⟩
    simp
  intro world last _ absent taken frame present state
  obtain ⟨chosen, kept, -, moved⟩ := taken.move
  cases chosen with
  | start thread call =>
    obtain ⟨idle, started, isFrame, rfl⟩ := move_start moved
    rcases (frames_start idle).mp present with rfl | present
    · rintro rfl
      cases call <;> simp [Call.frame, Move.cancels] at isFrame kept
    · exact absent frame present state
  | run thread =>
    obtain ⟨first, callers, shared, next, found, advances, rfl⟩ := move_run moved
    rcases frames_advance found present with isNew | isOld
    · rintro rfl
      cases advances <;> simp at isNew
    · exact absent frame isOld state
  | react choice =>
    obtain ⟨shared, -, rfl⟩ := move_react moved
    exact absent frame present state
  | arrive bytes =>
    obtain rfl := move_arrive moved
    exact absent frame present state

end World

/-! ## Passes -/

/-- The requests that a pass has yet to complete or to go past. -/
def ReactorPoint.ahead : ReactorPoint → Option (List Request)
  | .processing rest _ _ => some rest
  | .attempting request rest _ _ | .finishing request _ _ _ rest _ _ => some (request :: rest)
  | _ => none

def ReactorPoint.current : ReactorPoint → Option Request
  | .attempting request _ _ _ | .finishing request _ _ _ _ _ _ => some request
  | _ => none

theorem ReactorPoint.holds_of_ahead {requests}
    (isAhead : point.ahead = some requests) : point.holds = true := by
  cases point <;> first | rfl | cases isAhead

theorem ReactorPoint.holds_of_current
    (isCurrent : point.current = some request) : point.holds = true := by
  cases point <;> first | rfl | cases isCurrent

/-- Why the pass went past a request. -/
def Shared.Passed (shared : Shared) (request : Request) : Prop :=
  shared.isComplete request.state = true ∨ request.kind = .connect ∨
    blocked request.kind shared.history = true

/-- The pass went past the earlier requests for a reason, and is at an incomplete one. -/
structure Passing (shared : Shared) : Prop where
  ahead : ∀ {requests}, shared.reactor.ahead = some requests →
    ∃ earlier, shared.requests = earlier ++ requests ∧ ∀ request ∈ earlier, shared.Passed request
  current : ∀ {request}, shared.reactor.current = some request →
    shared.isComplete request.state = false ∧ request.kind ≠ .connect

namespace Passing

theorem past {rest}
    (ahead : ∃ earlier, shared.requests = earlier ++ request :: rest ∧
      ∀ request ∈ earlier, shared.Passed request) (same : after.requests = shared.requests)
    (mono : ∀ {request}, shared.Passed request → after.Passed request)
    (passed : after.Passed request) :
    ∃ earlier, after.requests = earlier ++ rest ∧ ∀ request ∈ earlier, after.Passed request := by
  obtain ⟨earlier, isSplit, past⟩ := ahead
  exact ⟨earlier ++ [request], by simp [same, isSplit], forall_mem_append.mpr
    ⟨fun other present => mono (past other present), forall_mem_singleton.mpr passed⟩⟩

theorem stay {requests} (ahead : ∃ earlier, shared.requests = earlier ++ requests ∧
      ∀ request ∈ earlier, shared.Passed request) (same : after.requests = shared.requests)
    (mono : ∀ {request}, shared.Passed request → after.Passed request) :
    ∃ earlier, after.requests = earlier ++ requests ∧
      ∀ request ∈ earlier, after.Passed request := by
  obtain ⟨earlier, isSplit, past⟩ := ahead
  exact ⟨earlier, by rw [same, isSplit], fun other present => mono (past other present)⟩

theorem ofElsewhere (ahead : shared.reactor.ahead = none) (current : shared.reactor.current = none) :
    Passing shared :=
  ⟨fun isAhead => by simp [ahead] at isAhead, fun isCurrent => by simp [current] at isCurrent⟩

theorem start {point : ReactorPoint} (isAhead : point.ahead = some shared.requests)
    (current : point.current = none) : Passing (shared.goes point) :=
  ⟨fun {requests} ahead => ⟨[], by simpa [isAhead] using ahead, by simp⟩,
    fun isCurrent => by simp [current] at isCurrent⟩

theorem passed_mono (tends : shared.Tends Event.isLater after)
    (within : ∀ {kind}, blocked kind shared.history = true → blocked kind after.history = true)
    (passed : shared.Passed request) : after.Passed request := by
  rcases passed with isComplete | isConnect | isBlocked
  · exact .inl (tends.complete isComplete)
  · exact .inr (.inl isConnect)
  · exact .inr (.inr (within isBlocked))

theorem turn (passing : Passing shared) {point}
    (turns : shared.Turns maxInflight shared.reactor point)
    (reconnects : shared.Reconnects middle) : Passing (middle.goes point) := by
  have same := reconnects.requests
  have isComplete (state : Nat) : middle.isComplete state = shared.isComplete state := by
    simp [isComplete, reconnects.states]
  have mono {request : Request} : shared.Passed request → (middle.goes point).Passed request := by
    obtain ⟨events, isHistory, kinds, -⟩ := reconnects.events
    refine passed_mono ((reconnects.tends.goes point).weaken Event.isLater_of_isPlain) ?_
    intro kind isBlocked
    simp only [goes, isHistory]
    refine blocked_append (fun event present => ?_) isBlocked
    rcases kinds event present with rfl | rfl <;> simp
  obtain ⟨ahead, current⟩ := passing
  generalize shared.reactor = before at turns ahead current
  cases turns with
  | process => exact .start (by rw [same]; rfl) rfl
  | skip passed =>
    refine ⟨?_, fun isCurrent => by cases isCurrent⟩
    rintro _ ⟨⟩
    refine past (ahead rfl) same mono ?_
    rcases passed with done | isConnect
    · exact .inl ((isComplete _).trans done)
    · exact .inr (.inl isConnect)
  | consider within incomplete io =>
    constructor
    · rintro _ ⟨⟩
      exact stay (ahead rfl) same mono
    · rintro _ ⟨⟩
      exact ⟨(isComplete _).trans incomplete, io⟩
  | withoutIo =>
    constructor
    · rintro _ ⟨⟩
      exact stay (ahead rfl) same mono
    · rintro _ ⟨⟩
      exact ⟨(isComplete _).trans (current rfl).1, (current rfl).2⟩
  | overtaken done => exact absurd done (by simp [(current rfl).1])
  | @notified exits => cases exits <;> exact .ofElsewhere rfl rfl
  | _ => exact .ofElsewhere rfl rfl

theorem transfer (passing : Passing shared) (transfers : shared.Transfers choice after) :
    Passing after := by
  have tends := transfers.tends
  obtain ⟨ahead, current⟩ := passing
  cases transfers with
  | send isPoint answered _ _ | receive isPoint answered _ _ =>
    rw [isPoint] at ahead current
    constructor
    · rintro _ ⟨⟩
      exact stay (ahead rfl) rfl (passed_mono tends (blocked_cons (by simp)))
    · rintro _ ⟨⟩
      exact current rfl
  | deliver isPoint incomplete some =>
    rw [isPoint] at ahead
    refine ⟨?_, fun isCurrent => by cases isCurrent⟩
    rintro _ ⟨⟩
    refine past (ahead rfl) rfl (passed_mono tends fun isBlocked => ?_) (.inl ?_)
    · exact blocked_cons (by simp) (blocked_cons (by simp) isBlocked)
    · simp [isComplete]

theorem react (passing : Passing shared) (reacts : shared.Reacts maxInflight choice after) :
    Passing after := by
  have tends := reacts.later
  cases reacts with
  | turn turns reconnects => exact passing.turn turns reconnects
  | conclude concludes completed reconnects =>
    have same := reconnects.requests.trans completed.requests
    generalize shared.reactor = before at concludes
    cases concludes with
    | process => exact .start (by rw [same]; rfl) rfl
    | _ => exact .ofElsewhere rfl rfl
  | block isPoint =>
    have ahead := @passing.ahead
    rw [isPoint] at ahead
    refine ⟨?_, fun isCurrent => by cases isCurrent⟩
    rintro _ ⟨⟩
    refine past (ahead rfl) rfl (passed_mono tends (blocked_cons (by simp))) (.inr (.inr ?_))
    simp [blocked]
  | finish isPoint incomplete empty =>
    have ahead := @passing.ahead
    rw [isPoint] at ahead
    refine ⟨?_, fun isCurrent => by cases isCurrent⟩
    rintro _ ⟨⟩
    refine past (ahead rfl) rfl (passed_mono tends (blocked_cons (by simp))) (.inl ?_)
    simp [isComplete]
  | transfer transfers => exact passing.transfer transfers
  | _ => exact .ofElsewhere rfl rfl

/-- Without a cancel, the other threads leave the requests of a pass alone. -/
theorem run (passing : Passing shared) {frame next}
    (advances : shared.Advances frame after next)
    (held : shared.reactor.holds = true → shared.locked = true ∧ frame.holds = 0)
    (kept : ∀ state, frame ≠ .cancel state) : Passing after := by
  by_cases holds : shared.reactor.holds = true
  · obtain ⟨locked, outside⟩ := held holds
    have unchanged : after.requests = shared.requests ∧ after.states = shared.states ∧
        ∃ events, after.history = events ++ shared.history ∧
          ∀ event ∈ events, event ≠ .passBegan := by
      cases advances with
      | submit free | close free => simp [free] at locked
      | reap | full | enqueue | closeNext | closed => cases outside
      | cancel | cancelLate => exact absurd rfl (kept _)
      | refuse | handOver | call => exact ⟨rfl, rfl, [_], rfl, by simp⟩
      | called | shutdown | join => exact ⟨rfl, rfl, [], rfl, by simp⟩
    obtain ⟨same, states, events, isHistory, within⟩ := unchanged
    have isComplete (state : Nat) : after.isComplete state = shared.isComplete state := by
      simp [isComplete, states]
    refine ⟨fun {requests} isAhead => ?_, fun {request} isCurrent => ?_⟩
    · rw [advances.reactor] at isAhead
      refine stay (passing.ahead isAhead) same fun {request} passed => ?_
      simp only [Shared.Passed, isComplete, isHistory] at passed ⊢
      exact passed.imp_right (·.imp_right (blocked_append within))
    rw [advances.reactor] at isCurrent
    rw [isComplete]
    exact passing.current isCurrent
  · rw [← advances.reactor] at holds
    exact ⟨fun isAhead => absurd (holds_of_ahead isAhead) holds,
      fun isCurrent => absurd (holds_of_current isCurrent) holds⟩

theorem reached {world : World}
    (reached : Reachable World.Initial (World.OrderlyStep maxInflight depth) world) :
    Passing world.shared := by
  refine @Reachable.invariant _ _ _ (fun world => Passing world.shared) ?_ ?_ _ reached
  · rintro _ ⟨count, rfl⟩
    exact .ofElsewhere rfl rfl
  intro world last before passing taken
  have exclusive := World.exclusive_reached (before.mono World.OrderlyStep.step)
  have kept := World.no_cancel_reached before
  obtain ⟨chosen, -, -, moved⟩ := taken.move
  cases chosen with
  | start thread call =>
    obtain ⟨-, frame, -, rfl⟩ := World.move_start moved
    exact passing
  | run thread =>
    obtain ⟨frame, callers, shared, next, found, advances, rfl⟩ := World.move_run moved
    have present := innermost_mem found
    exact passing.run advances
      (fun holds => ⟨exclusive.held holds, exclusive.alone holds present⟩) (kept frame present)
  | react choice =>
    obtain ⟨shared, reacted, rfl⟩ := World.move_react moved
    exact passing.react (reacts reacted)
  | arrive bytes =>
    obtain rfl := World.move_arrive moved
    refine ⟨fun isAhead => ?_, passing.current⟩
    exact stay (passing.ahead isAhead) rfl
      (·.imp_right (·.imp_right (blocked_cons (by simp))))

theorem clear (passing : Passing shared) (queued : shared.Queued) {request rest considered done}
    (attempting : shared.reactor = .attempting request rest considered done)
    (unblocked : blocked request.kind shared.history = false) {state : Nat}
    (earlier : state < request.state) (accepted : .accepted state request.kind ∈ shared.history) :
    shared.isComplete state = true := by
  obtain ⟨before, isSplit, passed⟩ := passing.ahead (by rw [attempting]; rfl)
  obtain ⟨-, io⟩ := passing.current (by rw [attempting]; rfl)
  rcases queued.kept accepted with isComplete | ⟨other, present, rfl, sameKind⟩
  · exact isComplete
  have sorted := queued.sorted
  rw [isSplit] at present sorted
  rcases mem_append.mp present with inside | inside
  · rcases passed other inside with isComplete | isConnect | isBlocked
    · exact isComplete
    · exact absurd (sameKind ▸ isConnect) io
    · simp [sameKind, unblocked] at isBlocked
  have later := (pairwise_append.mp sorted).2.1
  rcases mem_cons.mp inside with rfl | inside
  · exact absurd earlier (lt_irrefl _)
  · exact absurd earlier ((pairwise_cons.mp later).1 other inside).not_gt

end Passing

/-! ## The stream -/

/-- The event with which the bytes came that are on their way. -/
def ReactorPoint.arrival : ReactorPoint → Option Event
  | .finishing request _ position received _ _ _ =>
    if received = [] then none else some (.taken request.state position received)
  | _ => none

def Event.isDry : Event → Bool
  | .accepted .. | .taken .. | .delivered .. => false
  | _ => true

theorem Event.isDry_of_isPlain (plain : event.isPlain = true) :
    event.isDry = true := by
  cases event <;> first | rfl | cases plain

/-- The receives have taken bytes in the order of their acceptance. -/
structure Received (shared : Shared) : Prop where
  bound : shared.socket.unread.length ≤ shared.socket.arrived
  behind : ∀ {state position bytes}, .taken state position bytes ∈ shared.history →
    position + bytes.length ≤ shared.socket.position
  accepted : ∀ {state position bytes}, .taken state position bytes ∈ shared.history →
    .accepted state .recv ∈ shared.history
  settled : ∀ {first later position bytes}, .taken later position bytes ∈ shared.history →
    first < later → .accepted first .recv ∈ shared.history → shared.isComplete first = true
  taken : ∀ {first later start position bytes others},
    .taken first start bytes ∈ shared.history → .taken later position others ∈ shared.history →
    first < later → start + bytes.length ≤ position
  delivered : ∀ {state position bytes}, .delivered state position bytes ∈ shared.history →
    .taken state position bytes ∈ shared.history
  carried : ∀ {event}, shared.reactor.arrival = some event → event ∈ shared.history

namespace Received

theorem tends (received : Received shared) (tends : shared.Tends Event.isDry after)
    (carried : ∀ {event}, after.reactor.arrival = some event → event ∈ after.history) :
    Received after := by
  obtain ⟨bound, forward⟩ := tends.position received.bound
  refine ⟨bound, ?_, ?_, ?_, ?_, ?_, carried⟩
  · intro state position bytes isTaken
    exact (received.behind (tends.old rfl isTaken)).trans forward
  · intro state position bytes isTaken
    exact tends.mem (received.accepted (tends.old rfl isTaken))
  · intro first later position bytes isTaken earlier accepted
    exact tends.complete
      (received.settled (tends.old rfl isTaken) earlier (tends.old rfl accepted))
  · intro first later start position bytes others isTaken isLater
    exact received.taken (tends.old rfl isTaken) (tends.old rfl isLater)
  · intro state position bytes isDelivered
    exact tends.mem (received.delivered (tends.old rfl isDelivered))

theorem accept (received : Received shared) (queued : shared.Queued) {requests kind} :
    Received (({ shared with
      requests
      nextState := shared.nextState + 1
      locked := false }).record (.accepted shared.nextState kind)) := by
  have old {state position : Nat} {bytes : Bytes}
      (isTaken : .taken state position bytes ∈ .accepted shared.nextState kind :: shared.history) :
      .taken state position bytes ∈ shared.history := by simpa using isTaken
  refine ⟨received.bound, ?_, ?_, ?_, ?_, ?_, ?_⟩
  · intro state position bytes isTaken
    exact received.behind (old isTaken)
  · intro state position bytes isTaken
    exact mem_cons_of_mem _ (received.accepted (old isTaken))
  · intro first later position bytes isTaken earlier isAccepted
    rcases mem_cons.mp isAccepted with isNew | isOld
    · cases isNew
      exact absurd earlier (queued.fresh (received.accepted (old isTaken))).not_gt
    · exact received.settled (old isTaken) earlier isOld
  · intro first later start position bytes others isTaken isLater
    exact received.taken (old isTaken) (old isLater)
  · intro state position bytes isDelivered
    exact mem_cons_of_mem _ (received.delivered (by simpa using isDelivered))
  · intro event isArrival
    exact mem_cons_of_mem _ (received.carried isArrival)

theorem take (received : Received shared) {request : Request} {point : ReactorPoint} {n : Nat}
    (accepted : .accepted request.state .recv ∈ shared.history)
    (incomplete : shared.isComplete request.state = false)
    (clear : ∀ {state}, state < request.state → .accepted state .recv ∈ shared.history →
      shared.isComplete state = true) (within : n ≤ shared.socket.unread.length)
    (isArrival : point.arrival = some
      (.taken request.state shared.socket.position (shared.socket.unread.take n))) :
    Received ((({ shared with
        socket := { shared.socket with unread := shared.socket.unread.drop n } }).record
      (.taken request.state shared.socket.position (shared.socket.unread.take n))).goes point) := by
  have bound := received.bound
  refine ⟨?_, ?_, ?_, ?_, ?_, ?_, ?_⟩
  · simp [goes, record]
    omega
  · intro state position bytes isTaken
    simp only [goes, record, Socket.position, length_drop]
    rcases mem_cons.mp isTaken with isNew | isOld
    · cases isNew
      simp [Socket.position]
      omega
    have behind := received.behind isOld
    simp only [Socket.position] at behind
    omega
  · intro state position bytes isTaken
    rcases mem_cons.mp isTaken with isNew | isOld
    · cases isNew
      exact mem_cons_of_mem _ accepted
    · exact mem_cons_of_mem _ (received.accepted isOld)
  · intro first later position bytes isTaken earlier isAccepted
    have isAccepted : .accepted first .recv ∈ shared.history := by simpa using isAccepted
    rcases mem_cons.mp isTaken with isNew | isOld
    · cases isNew
      exact clear earlier isAccepted
    · exact received.settled isOld earlier isAccepted
  · intro first later start position bytes others isTaken isLater earlier
    rcases mem_cons.mp isTaken with isNew | isTaken
    · -- A later receive would have found this one complete.
      cases isNew
      rcases mem_cons.mp isLater with isNew | isLater
      · cases isNew
        exact absurd earlier (lt_irrefl _)
      · simpa [incomplete] using received.settled isLater earlier accepted
    rcases mem_cons.mp isLater with isNew | isLater
    · cases isNew
      exact received.behind isTaken
    · exact received.taken isTaken isLater earlier
  · intro state position bytes isDelivered
    exact mem_cons_of_mem _ (received.delivered (by simpa using isDelivered))
  · intro event arrives
    simp only [goes, isArrival, Option.some.injEq] at arrives
    exact arrives ▸ mem_cons_self

theorem deliver (received : Received shared) {state position bytes}
    (isTaken : .taken state position bytes ∈ shared.history) :
    Received (shared.record (.delivered state position bytes)) := by
  refine ⟨received.bound, ?_, ?_, ?_, ?_, ?_, ?_⟩
  · simpa using @received.behind
  · simpa using @received.accepted
  · simpa [isComplete] using @received.settled
  · simpa using @received.taken
  · intro other start others isDelivered
    rcases mem_cons.mp isDelivered with isNew | isOld
    · cases isNew
      exact mem_cons_of_mem _ isTaken
    · exact mem_cons_of_mem _ (received.delivered isOld)
  · intro event isArrival
    exact mem_cons_of_mem _ (received.carried isArrival)

theorem transfer (received : Received shared) (queued : shared.Queued) (passing : Passing shared)
    (transfers : shared.Transfers choice after) (clear : ∀ {request rest considered done n},
      shared.reactor = .attempting request rest considered done →
      choice.socket = .transferred n → 0 < n → blocked request.kind shared.history = false) :
    Received after := by
  cases transfers with
  | send =>
    exact received.tends (.quiet [_] rfl rfl rfl rfl (by simp [Event.isDry]))
      fun isArrival => by simp [arrival] at isArrival
  | @receive request rest considered done n attempting answered isRecv some within =>
    obtain ⟨earlier, isSplit, -⟩ := passing.ahead (by rw [attempting]; rfl)
    have accepted := queued.accepted request (by simp [isSplit])
    have unblocked := clear attempting answered some
    rw [isRecv] at accepted
    refine received.take accepted (passing.current (by rw [attempting]; rfl)).1 ?_ within ?_
    · intro state lower isAccepted
      exact passing.clear queued attempting unblocked lower (by rwa [isRecv])
    have isSome : shared.socket.unread.take n ≠ [] := by
      intro empty
      have := congrArg List.length empty
      simp only [length_take, length_nil] at this
      omega
    simp [arrival, isSome]
  | @deliver request outcome position bytes rest considered done completions finishing _ some =>
    have isTaken := received.carried (by rw [finishing]; exact if_neg some)
    have finished := (tends_finished shared request.state
      { shared.states request.state with complete := true } rfl).goes
        (.processing rest considered completions)
    refine (received.tends (finished.weaken Event.isDry_of_isPlain) ?_).deliver ?_
    · exact fun isArrival => by cases isArrival
    · exact mem_cons_of_mem _ isTaken

end Received

/-- No byte of a send is written before the earlier sends are complete. -/
def SentInOrder (history : List Event) : Prop :=
  ∀ first later bytes after before, history = after ++ .sent later bytes :: before →
    bytes ≠ [] → first < later → .accepted first .send ∈ before → .finished first ∈ before

theorem SentInOrder.append {events history} (inOrder : SentInOrder history)
    (absent : ∀ state bytes, .sent state bytes ∉ events) : SentInOrder (events ++ history) := by
  intro first later bytes after before isSplit
  obtain ⟨since, -, isSplit⟩ := split_of_notMem (absent _ _) isSplit
  exact inOrder _ _ _ _ _ isSplit

theorem SentInOrder.send {history} (inOrder : SentInOrder history) {state bytes}
    (clear : bytes ≠ [] → ∀ first < state, .accepted first .send ∈ history →
      .finished first ∈ history) : SentInOrder (.sent state bytes :: history) := by
  intro first later others after before isSplit some earlier accepted
  cases after with
  | nil =>
    obtain ⟨isEvent, rfl⟩ := cons.inj isSplit
    cases isEvent
    exact clear some first earlier accepted
  | cons event after => exact inOrder _ _ _ _ _ (cons.inj isSplit).2 some earlier accepted

theorem Shared.Transfers.sentInOrder (transfers : shared.Transfers choice after)
    (inOrder : SentInOrder shared.history) (queued : shared.Queued) (passing : Passing shared)
    (clear : ∀ {request rest considered done n},
      shared.reactor = .attempting request rest considered done →
      choice.socket = .transferred n → 0 < n → blocked request.kind shared.history = false) :
    SentInOrder after.history := by
  cases transfers with
  | @send request rest considered done n attempting answered isSend within =>
    refine inOrder.send fun some first earlier accepted => ?_
    have positive : 0 < n := by
      by_contra none
      simp [Nat.eq_zero_of_not_pos none] at some
    refine queued.finished (passing.clear queued attempting (clear attempting answered positive)
      earlier ?_)
    rwa [isSend]
  | receive => exact @SentInOrder.append [_] _ inOrder (by simp)
  | deliver => exact @SentInOrder.append [_, _] _ inOrder (by simp)

/-- The operations have used the stream in the order of their acceptance. -/
structure Ordered (shared : Shared) : Prop where
  received : Received shared
  sent : SentInOrder shared.history

namespace Ordered

theorem tends (ordered : Ordered shared) (tends : shared.Tends Event.isPlain after)
    (carried : ∀ {event}, after.reactor.arrival = some event → event ∈ after.history) :
    Ordered after := by
  refine ⟨ordered.received.tends (tends.weaken Event.isDry_of_isPlain) carried, ?_⟩
  obtain ⟨events, isHistory, plain, -⟩ := tends.events
  rw [isHistory]
  exact ordered.sent.append fun state bytes isNew => by cases plain _ isNew

theorem react (ordered : Ordered shared) (queued : shared.Queued) (passing : Passing shared)
    (reacts : shared.Reacts maxInflight choice after) (clear : ∀ {request rest considered done n},
      shared.reactor = .attempting request rest considered done →
      choice.socket = .transferred n → 0 < n → blocked request.kind shared.history = false) :
    Ordered after := by
  rcases reacts.tends with tends | transfers
  · refine ordered.tends tends fun {event} isArrival => ?_
    cases reacts with
    | turn turns reconnects =>
      generalize shared.reactor = before at turns
      cases turns with
      | withoutIo => simp [arrival] at isArrival
      | @notified exits => cases exits <;> cases isArrival
      | _ => cases isArrival
    | conclude concludes =>
      generalize shared.reactor = before at concludes
      cases concludes <;> cases isArrival
    | transfer transfers =>
      exact (ordered.received.transfer queued passing transfers clear).carried isArrival
    | _ => cases isArrival
  · exact ⟨ordered.received.transfer queued passing transfers clear,
      transfers.sentInOrder ordered.sent queued passing clear⟩

theorem run (ordered : Ordered shared) (queued : shared.Queued) {frame next}
    (advances : shared.Advances frame after next) : Ordered after := by
  by_cases same : after.nextState = shared.nextState
  · have tends := advances.tends same
    refine ordered.tends tends fun isArrival => ?_
    rw [advances.reactor] at isArrival
    exact tends.mem (ordered.received.carried isArrival)
  cases advances with
  | enqueue =>
    exact ⟨ordered.received.accept queued, @SentInOrder.append [_] _ ordered.sent (by simp)⟩
  | submit _ reaped => exact absurd reaped.nextState same
  | close _ closed => exact absurd closed.nextState same
  | closeNext completed => exact absurd completed.tends.nextState same
  | _ => exact absurd rfl same

theorem reached {world : World}
    (reached : Reachable World.Initial (World.OrderlyStep maxInflight depth) world) :
    Ordered world.shared := by
  refine @Reachable.invariant _ _ _ (fun world => Ordered world.shared) ?_ ?_ _ reached
  · rintro _ ⟨count, rfl⟩
    refine ⟨⟨?_, ?_, ?_, ?_, ?_, ?_, ?_⟩, ?_⟩ <;> simp [arrival, SentInOrder]
  intro world last before ordered taken
  have queued := (World.Lined.reached (before.mono World.OrderlyStep.step)).queued
  obtain ⟨chosen, -, behind, moved⟩ := taken.move
  cases chosen with
  | start thread call =>
    obtain ⟨-, frame, -, rfl⟩ := World.move_start moved
    exact ordered
  | run thread =>
    obtain ⟨frame, callers, shared, next, found, advances, rfl⟩ := World.move_run moved
    exact ordered.run queued advances
  | react choice =>
    obtain ⟨shared, reacted, rfl⟩ := World.move_react moved
    refine ordered.react queued (Passing.reached before) (reacts reacted) ?_
    intro request rest considered done n attempting answered some
    simpa [World.overtakes, attempting, answered, some] using behind
  | arrive bytes =>
    obtain rfl := World.move_arrive moved
    exact ordered.tends (world.arrives_tends bytes) fun isArrival =>
      mem_cons_of_mem _ (ordered.received.carried isArrival)

end Ordered

namespace World

/-- In every run without a cancellation in which a socket that would block takes or gives no bytes
of the same kind later in that pass: a byte of a send is written after the earlier sends have
completed, and the bytes that a receive gets arrived after those of the earlier receives. -/
theorem stream_used_in_order (maxInflight depth : Nat) (world : World)
    (reached : Reachable Initial (OrderlyStep maxInflight depth) world) (first later : Nat)
    (earlier : first < later) :
    (∀ bytes after before, world.shared.history = after ++ .sent later bytes :: before →
      bytes ≠ [] → .accepted first .send ∈ before → .finished first ∈ before) ∧
    ∀ start bytes position others, .delivered first start bytes ∈ world.shared.history →
      .delivered later position others ∈ world.shared.history →
      start + bytes.length ≤ position := by
  obtain ⟨received, sent⟩ := Ordered.reached reached
  constructor
  · intro bytes after before isSplit some accepted
    exact sent _ _ _ _ _ isSplit some earlier accepted
  · intro start bytes position others isFirst isLater
    exact received.taken (received.delivered isFirst) (received.delivered isLater) earlier

/-- Two sends of one byte each are in the queue. -/
def sendMoves : List Move :=
  connectMoves ++ [.start 0 (.submit .send 9 [5] 0), .run 0, .run 0, .run 0,
    .start 0 (.submit .send 9 [6] 0), .run 0, .run 0, .run 0, .run 0]

def bothSentMoves : List Move :=
  sendMoves ++ List.replicate 13 (.react { socket := .transferred 1 })

theorem stream_used_in_order_sends : ∃ world, Reachable Initial (OrderlyStep 2 4) world ∧ ∃ before,
      world.shared.history = .sent 2 [6] :: before ∧ .accepted 1 .send ∈ before ∧
        .finished 1 ∈ before := by
  have performed : (performs (orderly 2 4) bothSentMoves ⟨{}, [[], []]⟩).map (·.shared.history) =
      some [.sent 2 [6], .finished 1, .sent 1 [5], .passBegan, .handed 2, .accepted 2 .send,
        .handed 1, .accepted 1 .send, .called 0 .connected, .finished 0, .opened, .passBegan,
        .handed 0, .accepted 0 .connect] := by decide
  obtain ⟨world, reaches, history⟩ := Option.map_eq_some_iff.mp performed
  have reached : Reachable Initial (OrderlyStep 2 4) world :=
    Reachable.performs (.start ⟨2, rfl⟩) reaches
  exact ⟨world, reached, _, history, by simp,
    (stream_used_in_order 2 4 world reached 1 2 (by decide)).1 [6] [] _ history (by simp)
      (by simp)⟩

def roomAgainMoves : List Move :=
  sendMoves ++ List.replicate 11 (.react {}) ++ [.react { socket := .transferred 1 }]

theorem later_send_overtakes : ∃ world, Reachable Initial (UncancelledStep 2 4) world ∧ ∃ before,
      world.shared.history = .sent 2 [6] :: before ∧ .accepted 1 .send ∈ before ∧
        .finished 1 ∉ before ∧ world.shared.isComplete 1 = false := by
  have performed : (performs (uncancelled 2 4) roomAgainMoves ⟨{}, [[], []]⟩).map
      (fun world => (world.shared.history, world.shared.isComplete 1)) =
      some ([.sent 2 [6], .wouldBlock .send, .passBegan, .handed 2, .accepted 2 .send, .handed 1,
        .accepted 1 .send, .called 0 .connected, .finished 0, .opened, .passBegan, .handed 0,
        .accepted 0 .connect], false) := by decide
  obtain ⟨world, reaches, ends⟩ := Option.map_eq_some_iff.mp performed
  obtain ⟨history, incomplete⟩ := Prod.mk.inj ends
  exact ⟨world, Reachable.performs (.start ⟨2, rfl⟩) reaches, _, history, by simp, by simp,
    incomplete⟩

end World

end Odbcpp.Transport.Epoll
