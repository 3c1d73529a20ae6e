import Odbcpp.Transport.Passes

/-!
# The received stream

A byte that arrives on the socket waits there, is on its way from `recv` to the target of
a receive, or was delivered. The bytes on their way are lost if the receive is complete
before the reactor finishes it: `finish_with` does not look at a cancelled receive.
-/

namespace Odbcpp.Transport.Epoll

open Foundation List

variable {shared middle after : Shared} {maxInflight depth : Nat} {choice : Choice}

/-! ## What a history says about the stream -/

/-- The places a byte goes through. -/
inductive Stage where
  | arrived | taken | delivered
deriving DecidableEq

def Event.bytes : Stage → Event → Bytes
  | .arrived, .arrived bytes => bytes
  | .taken, .taken _ _ bytes => bytes
  | .delivered, .delivered _ _ bytes => bytes
  | _, _ => []

/-- The bytes that have come to a place, oldest first. -/
def stream (stage : Stage) (history : List Event) : Bytes :=
  history.reverse.flatMap (Event.bytes stage)

@[simp] theorem stream_nil (stage : Stage) : stream stage [] = [] := rfl

@[simp] theorem stream_cons (stage : Stage) (event : Event) (earlier : List Event) :
    stream stage (event :: earlier) = stream stage earlier ++ event.bytes stage := by
  simp [stream]

/-- What has happened on the connection opened last. -/
def sinceOpened (history : List Event) : List Event := history.takeWhile (· ≠ .opened)

@[simp] theorem sinceOpened_cons {event : Event} (unopened : event ≠ .opened)
    (earlier : List Event) : sinceOpened (event :: earlier) = event :: sinceOpened earlier :=
  takeWhile_cons_of_pos (by simpa using unopened)

theorem sinceOpened_append {events} (unopened : .opened ∉ events)
    (earlier : List Event) : sinceOpened (events ++ earlier) = events ++ sinceOpened earlier := by
  refine takeWhile_append_of_pos fun event present => ?_
  simpa using ne_of_mem_of_not_mem present unopened

theorem mem_of_mem_sinceOpened {events} (isOpened : .opened ∈ events)
    {event earlier} (present : event ∈ sinceOpened (events ++ earlier)) :
    event ∈ events := by
  induction events with
  | nil => cases isOpened
  | cons newest events ih =>
    rw [sinceOpened, cons_append, takeWhile_cons] at present
    split at present
    · rename_i differs
      rcases mem_cons.mp present with rfl | older
      · exact mem_cons_self
      · have later := (mem_cons.mp isOpened).resolve_left fun same => by simp [← same] at differs
        exact mem_cons_of_mem _ (ih later older)
    · cases present

theorem stream_silent {stage events}
    (silent : ∀ event ∈ events, event.bytes stage = []) (earlier : List Event) :
    stream stage (events ++ earlier) = stream stage earlier := by
  simpa [stream] using silent

/-- No byte moves; those on the socket are gone if it is closed or another one opened. -/
def Shared.Silent (shared after : Shared) : Prop :=
  ∃ events, after.history = events ++ shared.history ∧
    (∀ event ∈ events, ∀ stage, event.bytes stage = []) ∧ shared.Leaves after events

namespace Shared

theorem Silent.trans (first : Silent shared middle) (second : Silent middle after)
    (reactor : middle.reactor = shared.reactor) : Silent shared after := by
  obtain ⟨old, isOld, oldBytes, oldLeaves⟩ := first
  obtain ⟨new, isNew, newBytes, newLeaves⟩ := second
  exact ⟨new ++ old, by simp [isNew, isOld], forall_mem_append.mpr ⟨newBytes, oldBytes⟩,
    oldLeaves.trans newLeaves reactor⟩

/-- At most one event, and the socket is left alone. -/
theorem Silent.quiet (isSocket : after.socket.unread = shared.socket.unread)
    (isHistory : after.history = shared.history) : Silent shared after :=
  ⟨[], by simp [isHistory], by simp, .quiet isSocket (by simp)⟩

theorem Silent.event {event : Event} (isSocket : after.socket.unread = shared.socket.unread)
    (isHistory : after.history = event :: shared.history)
    (noBytes : ∀ stage, event.bytes stage = []) (unopened : .opened ≠ event) :
    Silent shared after :=
  ⟨[event], by simp [isHistory], by simpa using noBytes, .quiet isSocket (by simpa using unopened)⟩

theorem Reconnects.silent (reconnects : Reconnects shared after) : Silent shared after := by
  obtain ⟨events, isHistory, kinds, leaves⟩ := reconnects.events
  refine ⟨events, isHistory, fun event present stage => ?_, leaves⟩
  rcases kinds event present with rfl | rfl <;> cases stage <;> rfl

theorem Completed.reactor {request : Request} (completed : Completed shared request after) :
    after.reactor = shared.reactor := by
  cases completed <;> rfl

theorem Completed.silent {request : Request} (completed : Completed shared request after) :
    Silent shared after := by
  cases completed with
  | now => exact .event rfl rfl (by rintro ⟨⟩ <;> rfl) nofun
  | before => exact .quiet rfl rfl

theorem Advances.silent {frame next}
    (advances : Advances shared frame after next) : Silent shared after := by
  cases advances with
  | submit _ reaped => exact reaped.silent
  | close _ closed => exact closed.silent
  | closeNext completed => exact completed.silent
  | refuse | full | enqueue | handOver | cancel | call =>
    exact .event rfl rfl (by rintro ⟨⟩ <;> rfl) nofun
  | _ => exact .quiet rfl rfl

end Shared

/-- The bytes on their way from `recv` to the target of a receive. -/
def ReactorPoint.inFlight : ReactorPoint → Bytes
  | .finishing _ _ _ received _ _ _ => received
  | _ => []

/-- The operation whose bytes are on their way. -/
def ReactorPoint.carries : ReactorPoint → Option Nat
  | .finishing request _ _ received _ _ _ => if received = [] then none else some request.state
  | _ => none

/-! ## Careful runs -/

/-- A cancel takes effect on a receive whose bytes are on their way, or `recv` returns bytes for a
receive cancelled since. -/
def World.discards (world : World) : Move → Bool
  | .run thread =>
    match world.threads[thread]? with
    | some (.cancel state :: _) => world.shared.reactor.carries = some state
    | _ => false
  | .react choice =>
    match world.shared.reactor, choice.socket with
    | .attempting request _ _ _, .transferred _ =>
      request.kind = .recv && world.shared.isComplete request.state
    | _, _ => false
  | _ => false

/-- The steps by which no bytes are taken for a cancelled receive. -/
def World.careful (maxInflight depth : Nat) (chosen : Move) (world : World) : Option World :=
  if world.discards chosen then none else world.move maxInflight depth chosen

def World.CarefulStep (maxInflight depth : Nat) (world after : World) : Prop :=
  ∃ chosen, careful maxInflight depth chosen world = some after

theorem World.CarefulStep.move {world last : World}
    (taken : CarefulStep maxInflight depth world last) : ∃ chosen, world.discards chosen = false ∧
      world.move maxInflight depth chosen = some last := by
  obtain ⟨chosen, moved⟩ := taken
  unfold careful at moved
  split at moved
  · cases moved
  · rename_i keeps
    exact ⟨chosen, by simpa using keeps, moved⟩

theorem World.CarefulStep.step {world last : World}
    (taken : CarefulStep maxInflight depth world last) : Step maxInflight depth world last := by
  obtain ⟨chosen, -, moved⟩ := taken.move
  exact ⟨chosen, moved⟩

/-! ## The ledger -/

/-- Where the bytes of the connection are. -/
structure Ledger (shared : Shared) : Prop where
  socket : .shut ∉ sinceOpened shared.history →
    stream .taken (sinceOpened shared.history) ++ shared.socket.unread =
      stream .arrived (sinceOpened shared.history)
  carried : stream .delivered (sinceOpened shared.history) ++ shared.reactor.inFlight =
    stream .taken (sinceOpened shared.history)
  pending : ∀ {state}, shared.reactor.carries = some state → shared.isComplete state = false

namespace Ledger

theorem ofSilent (ledger : Ledger shared) (silent : shared.Silent after)
    (inFlight : after.reactor.inFlight = shared.reactor.inFlight)
    (pending : ∀ {state}, after.reactor.carries = some state → after.isComplete state = false) :
    Ledger after := by
  obtain ⟨events, isHistory, noBytes, leaves⟩ := silent
  by_cases isOpened : .opened ∈ events
  · -- On a connection opened in this step nothing has happened yet.
    obtain ⟨unread, done, connecting⟩ := leaves.2 isOpened
    have nothing (stage : Stage) : stream stage (sinceOpened after.history) = [] := by
      rw [← append_nil (sinceOpened _), isHistory]
      exact stream_silent (fun event present =>
        noBytes event (mem_of_mem_sinceOpened isOpened present) stage) []
    refine ⟨fun _ => ?_, ?_, pending⟩
    · rw [nothing, nothing, unread, append_nil]
    · rw [nothing, nothing, inFlight, connecting]
      rfl
  · have same (stage : Stage) : stream stage (sinceOpened after.history) =
        stream stage (sinceOpened shared.history) := by
      rw [isHistory, sinceOpened_append isOpened]
      exact stream_silent (fun event present => noBytes event present stage) _
    refine ⟨fun isOpen => ?_, ?_, pending⟩
    · rw [isHistory, sinceOpened_append isOpened, mem_append, not_or] at isOpen
      rw [same, same]
      rcases leaves.1 with unread | ⟨-, isShut | isOpenedToo⟩
      · rw [unread]
        exact ledger.socket isOpen.2
      · exact absurd isShut isOpen.1
      · exact absurd isOpenedToo isOpened
    · rw [same, same, inFlight]
      exact ledger.carried

theorem ofEmpty (ledger : Ledger shared) (silent : shared.Silent after)
    (before : shared.reactor.inFlight = []) (last : after.reactor.inFlight = []) :
    Ledger after := by
  refine ledger.ofSilent silent (by rw [before, last]) fun {state} carries => ?_
  cases point : after.reactor <;> simp_all [ReactorPoint.inFlight, ReactorPoint.carries]

/-- Bytes on their way always come to their receive. -/
theorem turn (ledger : Ledger shared) {point}
    (turns : shared.Turns maxInflight shared.reactor point)
    (reconnects : shared.Reconnects middle) : Ledger (middle.goes point) := by
  refine ledger.ofEmpty reconnects.silent ?_ ?_
  · generalize isPoint : shared.reactor = before at turns
    cases turns with
    | overtaken isComplete =>
      by_contra some
      have incomplete := ledger.pending (by rw [isPoint]; exact if_neg some)
      simp [isComplete] at incomplete
    | _ => rfl
  generalize shared.reactor = before at turns
  cases turns with
  | @notified exits => cases exits <;> rfl
  | _ => rfl

section

variable (ledger : Ledger shared) (keeps : ∀ {request rest considered done n},
  shared.reactor = .attempting request rest considered done → request.kind = .recv →
  choice.socket = .transferred n → shared.isComplete request.state = false)

include ledger keeps

/-- Bytes are taken for a receive that is incomplete, and delivered to it. -/
theorem transfer (transfers : shared.Transfers choice after) : Ledger after := by
  have carried := ledger.carried
  cases transfers with
  | send isPoint =>
    refine ledger.ofEmpty (.event rfl rfl ?_ nofun) (by rw [isPoint]; rfl) rfl
    rintro ⟨⟩ <;> rfl
  | receive isPoint answered isRecv some within =>
    rw [isPoint] at carried
    refine ⟨fun isOpen => ?_, ?_, fun {state} carries => ?_⟩
    · simpa [Event.bytes] using ledger.socket (by simpa using isOpen)
    · simpa [Event.bytes, ReactorPoint.inFlight] using carried
    have incomplete := keeps isPoint isRecv answered
    simp only [Shared.goes, ReactorPoint.carries] at carries
    split at carries
    · cases carries
    · cases carries
      exact incomplete
  | deliver isPoint incomplete some =>
    rw [isPoint] at carried
    refine ⟨fun isOpen => ?_, ?_, fun carries => by cases carries⟩
    · simpa [Event.bytes] using ledger.socket (by simpa using isOpen)
    · simpa [Event.bytes, ReactorPoint.inFlight] using carried

theorem react (reacts : shared.Reacts maxInflight choice after) : Ledger after := by
  cases reacts with
  | begin waiting free reaped =>
    have began : shared.Silent (({ shared with locked := true }).record .passBegan) :=
      .event rfl rfl (by rintro ⟨⟩ <;> rfl) nofun
    exact ledger.ofEmpty (began.trans reaped.silent rfl) (by rw [waiting]; rfl) rfl
  | stop waiting free closed => exact ledger.ofEmpty closed.silent (by rw [waiting]; rfl) rfl
  | reaped now isPoint | leave isPoint | stopped isPoint =>
    exact ledger.ofEmpty (.quiet rfl rfl) (by rw [isPoint]; rfl) rfl
  | turn turns reconnects => exact ledger.turn turns reconnects
  | conclude concludes completed reconnects =>
    refine ledger.ofEmpty (completed.silent.trans reconnects.silent completed.reactor) ?_ ?_ <;>
    · generalize shared.reactor = before at concludes
      cases concludes <;> rfl
  | block isPoint | call isPoint =>
    refine ledger.ofEmpty (.event rfl rfl ?_ nofun) (by rw [isPoint]; rfl) rfl
    rintro ⟨⟩ <;> rfl
  | finish isPoint incomplete empty =>
    refine ledger.ofEmpty (.event rfl rfl ?_ nofun) (by rw [isPoint]; exact empty) rfl
    rintro ⟨⟩ <;> rfl
  | transfer transfers => exact ledger.transfer keeps transfers

end

/-- A call does not complete the receive whose bytes are on their way: what completes requests under
`mutex_` waits for the reactor. -/
theorem run (ledger : Ledger shared) {frame next}
    (advances : shared.Advances frame after next)
    (alone : shared.reactor.holds = true → frame.holds = 0)
    (keeps : ∀ {state}, frame = .cancel state → shared.reactor.carries ≠ some state) :
    Ledger after := by
  refine ledger.ofSilent advances.silent (by rw [advances.reactor]) fun {state} carries => ?_
  rw [advances.reactor] at carries
  have incomplete := ledger.pending carries
  have holds : shared.reactor.holds = true := by
    cases point : shared.reactor <;> simp [point, ReactorPoint.carries] at carries
    rfl
  cases advances with
  | @cancel other cancelled _ _ =>
    have differs : state ≠ other := by
      rintro rfl
      exact keeps rfl carries
    simpa [Shared.isComplete, Function.update_of_ne differs] using incomplete
  | closeNext => cases alone holds
  | submit _ reaped =>
    simpa [Shared.isComplete, reaped.states] using incomplete
  | close _ closed => simpa [Shared.isComplete, closed.states] using incomplete
  | _ => exact incomplete

theorem reached {world : World}
    (reached : Reachable World.Initial (World.CarefulStep maxInflight depth) world) :
    Ledger world.shared := by
  refine @Reachable.invariant _ _ _ (fun world => Ledger world.shared) ?_ ?_ _ reached
  · rintro _ ⟨count, rfl⟩
    exact ⟨fun _ => rfl, rfl, fun carries => by cases carries⟩
  intro world last before ledger taken
  have exclusive := World.exclusive_reached (before.mono World.CarefulStep.step)
  obtain ⟨chosen, keeps, moved⟩ := taken.move
  cases chosen with
  | start thread call =>
    obtain ⟨-, frame, -, rfl⟩ := World.move_start moved
    exact ledger
  | run thread =>
    obtain ⟨frame, callers, shared, next, found, advances, rfl⟩ := World.move_run moved
    refine ledger.run advances (fun holds => ?_) ?_
    · exact exclusive.alone holds (innermost_mem found)
    · rintro state rfl
      simpa [World.discards, found] using keeps
  | react choice =>
    obtain ⟨shared, reacted, rfl⟩ := World.move_react moved
    refine ledger.react (fun attempting isRecv answered => ?_) (Shared.reacts reacted)
    simpa [World.discards, attempting, answered, isRecv] using keeps
  | arrive bytes =>
    obtain rfl := World.move_arrive moved
    refine ⟨fun isOpen => ?_, ?_, ledger.pending⟩
    · have socket := ledger.socket (by simpa [World.arrives] using isOpen)
      simp [World.arrives, Event.bytes, ← socket]
    · simpa [World.arrives, Event.bytes] using ledger.carried

end Ledger

namespace World

/-- In every run in which no cancel takes effect on a receive between the reactor's test of it and
its completion, the bytes delivered since a connection was opened are a part from the beginning of
the bytes that arrived on it, as long as it stays open. -/
theorem delivered_prefix_of_arrived (maxInflight depth : Nat) (world : World)
    (reached : Reachable Initial (CarefulStep maxInflight depth) world)
    (isOpen : .shut ∉ sinceOpened world.shared.history) :
    stream .delivered (sinceOpened world.shared.history) <+:
      stream .arrived (sinceOpened world.shared.history) := by
  have ledger := Ledger.reached reached
  rw [← ledger.socket isOpen, ← ledger.carried, List.append_assoc]
  exact List.prefix_append _ _

/-- Thread 0 submits a connect, and the next pass of the reactor completes it. -/
def connectMoves : List Move :=
  [.start 0 (.submit .connect 9 [] 0), .run 0, .run 0, .run 0] ++
    List.replicate 13 (.react { connect := .connected })

/-- Two receives of one byte each are in the queue when two bytes arrive. -/
def receiveMoves : List Move :=
  connectMoves ++ [.start 0 (.submit .recv 9 [] 1), .run 0, .run 0, .run 0,
    .start 0 (.submit .recv 9 [] 1), .run 0, .run 0, .run 0, .run 0, .arrive [7, 8]]

/-- A connection is given up with a byte unread for a second one, and the first receive on that is
cancelled before the pass that takes the bytes. -/
def earlyCancelMoves : List Move :=
  connectMoves ++ [.arrive [6]] ++ receiveMoves ++ [.start 0 (.cancel 2), .run 0] ++
    List.replicate 10 (.react { socket := .transferred 1 })

theorem delivered_prefix_of_arrived_early :
    ∃ world, Reachable Initial (CarefulStep 2 4) world ∧ .shut ∈ world.shared.history ∧
      .shut ∉ sinceOpened world.shared.history ∧
      stream .delivered (sinceOpened world.shared.history) = [7] ∧
      stream .delivered (sinceOpened world.shared.history) <+:
        stream .arrived (sinceOpened world.shared.history) := by
  have performed : (performs (careful 2 4) earlyCancelMoves ⟨{}, [[], []]⟩).map
      (·.shared.history) =
      some [.delivered 3 1 [7], .finished 3, .taken 3 1 [7], .passBegan, .finished 2,
        .arrived [7, 8], .handed 3, .accepted 3 .recv, .handed 2, .accepted 2 .recv,
        .called 1 .connected, .finished 1, .opened, .shut, .passBegan, .handed 1,
        .accepted 1 .connect, .arrived [6], .called 0 .connected, .finished 0, .opened,
        .passBegan, .handed 0, .accepted 0 .connect] := by decide
  obtain ⟨world, reaches, history⟩ := Option.map_eq_some_iff.mp performed
  have reached : Reachable Initial (CarefulStep 2 4) world :=
    Reachable.performs (.start ⟨2, rfl⟩) reaches
  have isOpen : .shut ∉ sinceOpened world.shared.history := by rw [history]; decide
  exact ⟨world, reached, by simp [history], isOpen, by rw [history]; decide,
    delivered_prefix_of_arrived 2 4 world reached isOpen⟩

/-- The first receive is cancelled when `recv` has returned its byte. -/
def lateCancelMoves : List Move :=
  receiveMoves ++ List.replicate 10 (.react { socket := .transferred 1 }) ++
    [.start 0 (.cancel 1), .run 0] ++ List.replicate 4 (.react { socket := .transferred 1 })

theorem cancel_discards_bytes :
    ∃ world, Reachable Initial (Step 2 4) world ∧ .shut ∉ world.shared.history ∧
      stream .arrived (sinceOpened world.shared.history) = [7, 8] ∧
      stream .delivered (sinceOpened world.shared.history) = [8] ∧
      ¬stream .delivered (sinceOpened world.shared.history) <+:
        stream .arrived (sinceOpened world.shared.history) := by
  have performed : (performs (move 2 4) lateCancelMoves ⟨{}, [[], []]⟩).map (·.shared.history) =
      some [.delivered 2 1 [8], .finished 2, .taken 2 1 [8], .finished 1, .taken 1 0 [7],
        .passBegan, .arrived [7, 8], .handed 2, .accepted 2 .recv, .handed 1, .accepted 1 .recv,
        .called 0 .connected, .finished 0, .opened, .passBegan, .handed 0,
        .accepted 0 .connect] := by decide
  obtain ⟨world, reaches, history⟩ := Option.map_eq_some_iff.mp performed
  refine ⟨world, Reachable.performs (.start ⟨2, rfl⟩) reaches, ?_⟩
  rw [history]
  decide

end World

end Odbcpp.Transport.Epoll
