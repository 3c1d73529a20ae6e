import Odbcpp.Transport.Epoll

/-!
# Passes of the epoll reactor

What the steps of the reactor and of the calls can do, and who holds `mutex_`: whoever
goes through the requests of the queue does so alone, but for the cancels.
-/

namespace Odbcpp.Transport.Epoll

open Foundation ReactorPoint

variable {shared middle after : Shared} {maxInflight depth : Nat} {choice : Choice}

/-! ## What the reactor can do -/

namespace Shared

/-- What becomes of the bytes on the socket: they are lost when it is closed or another one opened,
as happens only while connecting. -/
def Leaves (shared after : Shared) (events : List Event) : Prop :=
  (after.socket.unread = shared.socket.unread ∨
    after.socket.unread = [] ∧ (.shut ∈ events ∨ .opened ∈ events)) ∧
  (.opened ∈ events → after.socket.unread = [] ∧ ∃ done, shared.reactor = .connecting done)

theorem Leaves.quiet {events : List Event} (same : after.socket.unread = shared.socket.unread)
    (unopened : .opened ∉ events) : Leaves shared after events :=
  ⟨.inl same, fun isOpened => absurd isOpened unopened⟩

theorem Leaves.trans {old new} (first : Leaves shared middle old)
    (second : Leaves middle after new) (reactor : middle.reactor = shared.reactor) :
    Leaves shared after (new ++ old) := by
  obtain ⟨oldUnread, oldOpened⟩ := first
  obtain ⟨newUnread, newOpened⟩ := second
  constructor
  · rcases newUnread with same | ⟨empty, reason⟩
    · rw [same]
      exact oldUnread.imp_right fun ⟨empty, reason⟩ =>
        ⟨empty, reason.imp (List.mem_append_right _) (List.mem_append_right _)⟩
    · exact .inr ⟨empty, reason.imp (List.mem_append_left _) (List.mem_append_left _)⟩
  intro isOpened
  rcases List.mem_append.mp isOpened with isNew | isOld
  · rw [← reactor]
    exact newOpened isNew
  obtain ⟨empty, connecting⟩ := oldOpened isOld
  refine ⟨?_, connecting⟩
  rcases newUnread with same | ⟨stillEmpty, -⟩
  · rw [same, empty]
  · exact stillEmpty

/-- Only the connection changes. -/
structure Reconnects (shared after : Shared) : Prop where
  requests : after.requests = shared.requests
  stopping : after.stopping = shared.stopping
  locked : after.locked = shared.locked
  states : after.states = shared.states
  nextState : after.nextState = shared.nextState
  reactor : after.reactor = shared.reactor
  arrived : after.socket.arrived = shared.socket.arrived
  events : ∃ events, after.history = events ++ shared.history ∧
    (∀ event ∈ events, event = .shut ∨ event = .opened) ∧ Leaves shared after events

namespace Reconnects

theorem refl (shared : Shared) : Reconnects shared shared :=
  ⟨rfl, rfl, rfl, rfl, rfl, rfl, rfl, [], rfl, by simp, .quiet rfl (by simp)⟩

theorem trans (first : Reconnects shared middle) (second : Reconnects middle after) :
    Reconnects shared after := by
  obtain ⟨old, isOld, oldKinds, oldLeaves⟩ := first.events
  obtain ⟨new, isNew, newKinds, newLeaves⟩ := second.events
  refine ⟨second.requests.trans first.requests, second.stopping.trans first.stopping,
    second.locked.trans first.locked, second.states.trans first.states,
    second.nextState.trans first.nextState, second.reactor.trans first.reactor,
    second.arrived.trans first.arrived, new ++ old, by simp [isNew, isOld],
    List.forall_mem_append.mpr ⟨newKinds, oldKinds⟩, oldLeaves.trans newLeaves first.reactor⟩

variable (shared : Shared)

theorem quiet (isOpen connected : Bool) (activeConnect : Option Request) :
    Reconnects shared { shared with
      socket := { shared.socket with isOpen, connected }, activeConnect } :=
  ⟨rfl, rfl, rfl, rfl, rfl, rfl, rfl, [], rfl, by simp, .quiet rfl (by simp)⟩

theorem closeSocket : Reconnects shared shared.closeSocket := by
  unfold Shared.closeSocket
  split
  · exact ⟨rfl, rfl, rfl, rfl, rfl, rfl, rfl, [.shut], rfl, by simp, .inr ⟨rfl, .inl (by simp)⟩,
      by simp⟩
  · exact refl shared

theorem openSocket {done : List Completion} (connecting : shared.reactor = .connecting done) :
    Reconnects shared shared.openSocket :=
  (closeSocket shared).trans ⟨rfl, rfl, rfl, rfl, rfl, rfl, rfl, [.opened], rfl, by simp,
    .inr ⟨rfl, .inr (by simp)⟩, fun _ => ⟨rfl, done, (closeSocket shared).reactor.trans connecting⟩⟩

theorem disconnect : Reconnects shared shared.disconnect :=
  (closeSocket shared).trans (quiet _ _ _ _)

theorem reapConnect : Reconnects shared shared.reapConnect := by
  unfold Shared.reapConnect
  split
  · split
    · exact disconnect shared
    · exact refl shared
  · exact refl shared

end Reconnects

/-- An operation is complete. -/
@[simp] def finished (shared : Shared) (state : Nat) : Shared :=
  ({ shared with
    states := Function.update shared.states state
      { shared.states state with complete := true } }).record (.finished state)

/-- A request is finished now, or was before. -/
inductive Completed (shared : Shared) (request : Request) : Shared → Prop where
  | now (incomplete : shared.isComplete request.state = false) :
      Completed shared request (shared.finished request.state)
  | before (isComplete : shared.isComplete request.state = true) :
      Completed shared request shared

theorem completed (shared : Shared) (request : Request) (outcome : IoOutcome)
    (done : List Completion) :
    Completed shared request (shared.complete request outcome done).1 := by
  cases isComplete : shared.isComplete request.state with
  | false => simpa [complete, finish, isComplete] using Completed.now isComplete
  | true => simpa [complete, finish, isComplete] using Completed.before isComplete

/-- The steps of a pass that only move its position. -/
inductive Turns (maxInflight : Nat) (shared : Shared) : ReactorPoint → ReactorPoint → Prop where
  | reap {kept rest request last done} :
      Turns maxInflight shared (.reaping kept (request :: rest) last done)
        (.reaping (if shared.isComplete request.state then kept else kept ++ [request])
          rest last done)
  | expireSkip {now request rest done} :
      Turns maxInflight shared (.expiring now (request :: rest) done) (.expiring now rest done)
  | expireFind {now request rest done} :
      Turns maxInflight shared (.expiring now (request :: rest) done)
        (.expired request now rest done)
  | expiredAll {now done} : Turns maxInflight shared (.expiring now [] done) (.connecting done)
  | connects {done} : Turns maxInflight shared (.connecting done) (.connecting done)
  | connected {request outcome done} :
      Turns maxInflight shared (.connecting done) (.connected request outcome done)
  | process {done} :
      Turns maxInflight shared (.connecting done) (.processing shared.requests 0 done)
  | endConnects {done} :
      Turns maxInflight shared (.connecting done) (.reaping [] shared.requests true done)
  | processed {rest considered done} :
      Turns maxInflight shared (.processing rest considered done)
        (.reaping [] shared.requests true done)
  | skip {request rest considered done}
      (passed : shared.isComplete request.state = true ∨ request.kind = .connect) :
      Turns maxInflight shared (.processing (request :: rest) considered done)
        (.processing rest considered done)
  | consider {request rest considered done} (within : considered < maxInflight)
      (incomplete : shared.isComplete request.state = false) (io : request.kind ≠ .connect) :
      Turns maxInflight shared (.processing (request :: rest) considered done)
        (.attempting request rest (considered + 1) done)
  | withoutIo {request rest considered done outcome} :
      Turns maxInflight shared (.attempting request rest considered done)
        (.finishing request outcome 0 [] rest considered done)
  | overtaken {request outcome position received rest considered done}
      (isComplete : shared.isComplete request.state = true) :
      Turns maxInflight shared
        (.finishing request outcome position received rest considered done)
        (.processing rest considered done)
  | notified {exits} :
      Turns maxInflight shared (.notifying [] exits) (if exits then .exited else .waiting)

/-- The points at which the reactor completes a request other than by I/O, and where it
goes then. -/
inductive Concludes (shared : Shared) (request : Request) :
    ReactorPoint → ReactorPoint → Prop where
  | expired {now rest done completions} :
      Concludes shared request (.expired request now rest done) (.expiring now rest completions)
  | process {outcome done completions} :
      Concludes shared request (.connected request outcome done)
        (.processing shared.requests 0 completions)
  | endConnects {outcome done completions} :
      Concludes shared request (.connected request outcome done)
        (.reaping [] shared.requests true completions)
  | stopping {rest done completions} :
      Concludes shared request (.stopping (request :: rest) done) (.stopping rest completions)

/-- The steps of the reactor that move bytes. -/
inductive Transfers (choice : Choice) (shared : Shared) : Shared → Prop where
  | send {request rest considered done n}
      (attempting : shared.reactor = .attempting request rest considered done)
      (answered : choice.socket = .transferred n)
      (isSend : request.kind = .send) (within : n ≤ request.bytes.length) :
      Transfers choice shared
        ((shared.record (.sent request.state (request.bytes.take n))).goes
          (.finishing request (.transferred n false) 0 [] rest considered done))
  | receive {request rest considered done n}
      (attempting : shared.reactor = .attempting request rest considered done)
      (answered : choice.socket = .transferred n)
      (isRecv : request.kind = .recv) (some : 0 < n) (within : n ≤ shared.socket.unread.length) :
      Transfers choice shared
        ((({ shared with
            socket := { shared.socket with unread := shared.socket.unread.drop n } }).record
          (.taken request.state shared.socket.position (shared.socket.unread.take n))).goes
            (.finishing request (.transferred n false) shared.socket.position
              (shared.socket.unread.take n) rest considered done))
  | deliver {request outcome position received rest considered done completions}
      (finishing : shared.reactor =
        .finishing request outcome position received rest considered done)
      (incomplete : shared.isComplete request.state = false) (some : received ≠ []) :
      Transfers choice shared
        (((shared.finished request.state).goes (.processing rest considered completions)).record
          (.delivered request.state position received))

/-- What a step of the reactor can do. -/
inductive Reacts (maxInflight : Nat) (choice : Choice) (shared : Shared) : Shared → Prop where
  | begin {middle : Shared} (waiting : shared.reactor = .waiting) (free : shared.locked = false)
      (reaped : Reconnects (({ shared with locked := true }).record .passBegan) middle) :
      Reacts maxInflight choice shared (middle.goes (.reaping [] shared.requests false []))
  | stop {middle : Shared} (waiting : shared.reactor = .waiting) (free : shared.locked = false)
      (closed : Reconnects shared middle) :
      Reacts maxInflight choice shared
        (({ middle with locked := true }).goes (.stopping shared.requests []))
  | reaped {kept : List Request} {done : List Completion} (now : Nat)
      (reaping : shared.reactor = .reaping kept [] false done) :
      Reacts maxInflight choice shared
        (({ shared with requests := kept, clock := now }).goes (.expiring now kept done))
  | leave {kept : List Request} {done : List Completion}
      (reaping : shared.reactor = .reaping kept [] true done) :
      Reacts maxInflight choice shared
        (({ shared with requests := kept, locked := false }).goes (.notifying done false))
  | turn {middle : Shared} {point : ReactorPoint}
      (turns : Turns maxInflight shared shared.reactor point)
      (reconnects : Reconnects shared middle) :
      Reacts maxInflight choice shared (middle.goes point)
  | conclude {request : Request} {middle last : Shared} {point : ReactorPoint}
      (concludes : Concludes shared request shared.reactor point)
      (completed : Completed shared request middle) (reconnects : Reconnects middle last) :
      Reacts maxInflight choice shared (last.goes point)
  | block {request : Request} {rest : List Request} {considered : Nat} {done : List Completion}
      (attempting : shared.reactor = .attempting request rest considered done) :
      Reacts maxInflight choice shared
        ((shared.record (.wouldBlock request.kind)).goes (.processing rest considered done))
  | transfer {after : Shared} (transfers : Transfers choice shared after) :
      Reacts maxInflight choice shared after
  | finish {request : Request} {outcome : IoOutcome} {position : Nat} {received : Bytes}
      {rest : List Request} {considered : Nat} {done completions : List Completion}
      (finishing : shared.reactor =
        .finishing request outcome position received rest considered done)
      (incomplete : shared.isComplete request.state = false) (empty : received = []) :
      Reacts maxInflight choice shared
        ((shared.finished request.state).goes (.processing rest considered completions))
  | stopped {done : List Completion} (stopping : shared.reactor = .stopping [] done) :
      Reacts maxInflight choice shared
        (({ shared with requests := [], activeConnect := none, locked := false }).goes
          (.notifying done true))
  | call {state : Nat} {outcome : IoOutcome} {done : List Completion} {exits : Bool}
      (notifying : shared.reactor = .notifying ((state, outcome) :: done) exits) :
      Reacts maxInflight choice shared
        ((shared.record (.called state outcome)).goes (.notifying done exits))

theorem Turns.reacts {point next : ReactorPoint} (turns : Turns maxInflight shared point next)
    (isPoint : shared.reactor = point) : Reacts maxInflight choice shared (shared.goes next) :=
  .turn (isPoint ▸ turns) (.refl shared)

theorem afterConnects_cases (shared : Shared) (ready : Bool) (done : List Completion) :
    shared.afterConnects ready done = shared.goes (.processing shared.requests 0 done) ∨
      shared.afterConnects ready done =
        shared.reapConnect.goes (.reaping [] shared.requests true done) := by
  unfold afterConnects
  split
  · exact .inl rfl
  · exact .inr rfl

theorem reacts_connectDone {done} (ready : Bool)
    (connecting : shared.reactor = .connecting done) :
    Reacts maxInflight choice shared (shared.afterConnects ready done) := by
  rcases shared.afterConnects_cases ready done with isAfter | isAfter <;> rw [isAfter]
  · exact Turns.reacts .process connecting
  · exact .turn (connecting ▸ .endConnects) (.reapConnect shared)

variable {request : Request} {outcome : IoOutcome} {rest : List Request} {considered : Nat}

theorem reacts_attemptConnect {done answer} (connecting : shared.reactor = .connecting done)
    (answered : answer ≠ .nothing) :
    Reacts maxInflight choice shared (shared.attemptConnect request done answer) := by
  cases answer with
  | nothing => exact absurd rfl answered
  | connected =>
    refine .turn (connecting ▸ .connected) (.trans ?_ (.quiet _ _ _ _))
    split
    · exact .refl shared
    · exact .openSocket shared connecting
  | inProgress =>
    exact .turn (by rw [connecting]; exact .connects)
      ((Reconnects.openSocket shared connecting).trans (.quiet _ _ _ _))
  | failed outcome => exact .turn (connecting ▸ .connected) (.disconnect shared)

theorem reacts_conclude {point : ReactorPoint}
    {done : List Completion} (concludes : Concludes shared request shared.reactor point) :
    Reacts maxInflight choice shared ((shared.complete request outcome done).1.goes point) :=
  .conclude concludes (shared.completed request outcome done) (.refl _)

theorem reacts_connected {done}
    (ready : Bool) (connected : shared.reactor = .connected request outcome done) :
    Reacts maxInflight choice shared ((shared.complete request outcome done).1.afterConnects ready
      (shared.complete request outcome done).2) := by
  have completed := shared.completed request outcome done
  generalize shared.complete request outcome done = result at completed
  obtain ⟨middle, completions⟩ := result
  have requests : middle.requests = shared.requests := by cases completed <;> rfl
  rcases middle.afterConnects_cases ready completions with isAfter | isAfter <;>
    simp only [isAfter, requests]
  · exact .conclude (connected ▸ .process) completed (.refl middle)
  · exact .conclude (connected ▸ .endConnects) completed (.reapConnect middle)

theorem reacts_attempt {done}
    (attempting : shared.reactor = .attempting request rest considered done)
    (attempted : shared.attempt request rest considered done choice.socket = some after) :
    Reacts maxInflight choice shared after := by
  simp only [attempt] at attempted
  split at attempted
  · cases attempted
    exact Turns.reacts .withoutIo attempting
  split at attempted
  · cases attempted
    exact Turns.reacts .withoutIo attempting
  split at attempted
  · cases attempted
    exact .block attempting
  · cases attempted
    exact Turns.reacts .withoutIo attempting
  · rename_i answered isSend
    split at attempted
    · rename_i within
      cases attempted
      exact .transfer (.send attempting answered isSend within)
    · cases attempted
  · rename_i answered isRecv
    split at attempted
    · rename_i within
      cases attempted
      exact .transfer (.receive attempting answered isRecv within.1 within.2.2)
    · cases attempted
  · cases attempted
    exact Turns.reacts .withoutIo attempting
  · cases attempted

theorem reacts_finishIo {position received done}
    (finishing : shared.reactor =
      .finishing request outcome position received rest considered done) :
    Reacts maxInflight choice shared
      (shared.finishIo request outcome position received rest considered done) := by
  cases isComplete : shared.isComplete request.state with
  | false =>
    by_cases empty : received = []
    · simpa [finishIo, complete, Shared.finish, isComplete, empty] using
        Reacts.finish finishing isComplete empty
    · simpa [finishIo, complete, Shared.finish, isComplete, empty] using
        Reacts.transfer (.deliver finishing isComplete empty)
  | true =>
    simpa [finishIo, complete, Shared.finish, isComplete] using
      Turns.reacts (.overtaken isComplete) finishing

theorem reacts (reacted : shared.react maxInflight choice = some after) :
    Reacts maxInflight choice shared after := by
  unfold react at reacted
  split at reacted
  · rename_i waiting
    split at reacted
    · cases reacted
    rename_i free
    split at reacted <;> cases reacted
    · exact .stop waiting (by simpa using free) (.closeSocket shared)
    · exact .begin waiting (by simpa using free) (.reapConnect _)
  · rename_i kept last done reaping
    cases last <;> simp only [Bool.false_eq_true, if_false, if_true] at reacted
    · split at reacted
      · cases reacted
        exact .reaped choice.now reaping
      · cases reacted
    · cases reacted
      exact .leave reaping
  · rename_i reaping
    cases reacted
    exact Turns.reacts .reap reaping
  · rename_i expiring
    cases reacted
    exact Turns.reacts .expiredAll expiring
  · rename_i request rest done expiring
    split at reacted
    · cases reacted
      exact Turns.reacts .expireSkip expiring
    split at reacted <;> cases reacted
    · exact .turn (expiring ▸ .expireFind) (.disconnect shared)
    · exact Turns.reacts .expireFind expiring
  · rename_i expired
    cases reacted
    exact reacts_conclude (expired ▸ .expired)
  · rename_i done connecting
    split at reacted
    · cases reacted
      exact reacts_connectDone choice.ready connecting
    · split at reacted
      · cases reacted
        exact reacts_connectDone choice.ready connecting
      · cases reacted
    rename_i answered
    cases reacted
    exact reacts_attemptConnect connecting answered
  · rename_i connected
    cases reacted
    exact reacts_connected choice.ready connected
  · rename_i processing
    cases reacted
    exact .turn (processing ▸ .processed) (.reapConnect shared)
  · rename_i request rest considered done processing
    split at reacted
    · cases reacted
      exact .turn (processing ▸ .processed) (.reapConnect shared)
    rename_i within
    split at reacted
    · rename_i passed
      cases reacted
      exact Turns.reacts (.skip (by simpa using passed)) processing
    rename_i unfinished
    cases reacted
    simp only [Bool.or_eq_true, decide_eq_true_eq, not_or, Bool.not_eq_true] at unfinished
    exact Turns.reacts (.consider (by omega) unfinished.1 unfinished.2) processing
  · rename_i attempting
    exact reacts_attempt attempting reacted
  · rename_i finishing
    cases reacted
    exact reacts_finishIo finishing
  · rename_i stopping
    cases reacted
    exact .stopped stopping
  · rename_i stopping
    cases reacted
    exact reacts_conclude (stopping ▸ .stopping)
  · rename_i notifying
    cases reacted
    exact Turns.reacts .notified notifying
  · rename_i notifying
    cases reacted
    exact .call notifying
  · cases reacted

/-! ## What a call can do -/

/-- What a step of a call can do, and the frames that take its place. -/
inductive Advances (shared : Shared) : Frame → Shared → List Frame → Prop where
  | refuse {kind deadline bytes room} :
      Advances shared (.submit kind deadline bytes room) (shared.record (.refused kind)) []
  | submit {kind deadline bytes room} {middle : Shared} (free : shared.locked = false)
      (reaped : Reconnects { shared with locked := true } middle) :
      Advances shared (.submit kind deadline bytes room) middle
        [.reaping kind deadline bytes room [] shared.requests]
  | reap {kind deadline bytes room kept request rest} :
      Advances shared (.reaping kind deadline bytes room kept (request :: rest)) shared
        [.reaping kind deadline bytes room
          (if shared.isComplete request.state then kept else kept ++ [request]) rest]
  | full {kind deadline bytes room kept} :
      Advances shared (.reaping kind deadline bytes room kept [])
        (({ shared with requests := kept, locked := false }).record (.refused kind)) []
  | enqueue {kind deadline bytes room kept} :
      Advances shared (.reaping kind deadline bytes room kept [])
        (({ shared with
          requests := kept ++ [Request.mk shared.nextState kind deadline bytes room]
          nextState := shared.nextState + 1
          locked := false }).record (.accepted shared.nextState kind))
        [.handOver shared.nextState]
  | handOver {state} : Advances shared (.handOver state) (shared.record (.handed state)) []
  | cancelLate {state} : Advances shared (.cancel state) shared []
  | cancel {state} {cancelled : OperationState} (incomplete : shared.isComplete state = false)
      (isComplete : cancelled.complete = true) :
      Advances shared (.cancel state)
        (({ shared with states := Function.update shared.states state cancelled }).record
          (.finished state)) [.notify [(state, cancelledResult)]]
  | close {middle : Shared} (free : shared.locked = false) (closed : Reconnects shared middle) :
      Advances shared .close { middle with locked := true } [.closing shared.requests []]
  | closeNext {request rest done completions} {middle : Shared}
      (completed : Completed shared request middle) :
      Advances shared (.closing (request :: rest) done) middle [.closing rest completions]
  | closed {done} :
      Advances shared (.closing [] done) { shared with requests := [], locked := false }
        [.notify done]
  | call {state outcome done} :
      Advances shared (.notify ((state, outcome) :: done)) (shared.record (.called state outcome))
        [.notify done]
  | called : Advances shared (.notify []) shared []
  | shutdown : Advances shared .shutdown { shared with stopping := true } [.join]
  | join : Advances shared .join shared []

theorem advances {frame next}
    (advanced : shared.advance depth frame = some (after, next)) :
    Advances shared frame after next := by
  cases frame with
  | submit kind deadline bytes room =>
    simp only [advance] at advanced
    split at advanced
    · cases advanced
    rename_i free
    split at advanced <;> cases advanced
    · exact .refuse
    · exact .submit (by simpa using free) (.reapConnect _)
  | reaping kind deadline bytes room kept rest =>
    cases rest with
    | nil =>
      simp only [advance, Shared.enqueue] at advanced
      split at advanced <;> cases advanced
      · exact .full
      · exact .enqueue
    | cons request rest =>
      cases advanced
      exact .reap
  | handOver state =>
    cases advanced
    exact .handOver
  | cancel state =>
    simp only [advance] at advanced
    split at advanced <;> cases advanced
    · exact .cancelLate
    · rename_i incomplete
      exact .cancel (by simpa using incomplete) rfl
  | close =>
    simp only [advance] at advanced
    split at advanced <;> cases advanced
    rename_i free
    exact .close (by simpa using free) (.disconnect shared)
  | closing rest done =>
    cases rest with
    | nil =>
      cases advanced
      exact .closed
    | cons request rest =>
      cases advanced
      exact .closeNext (shared.completed _ _ _)
  | notify done =>
    cases done with
    | nil =>
      cases advanced
      exact .called
    | cons completion done =>
      cases advanced
      exact .call
  | shutdown =>
    simp only [advance] at advanced
    split at advanced <;> cases advanced
    exact .shutdown
  | join =>
    simp only [advance] at advanced
    split at advanced <;> cases advanced
    exact .join

end Shared

/-! ## Steps -/

namespace World

variable {world last : World}

theorem move_start {thread call}
    (moved : world.move maxInflight depth (.start thread call) = some last) :
    world.threads[thread]? = some [] ∧ ∃ frame, call.frame world.shared = some frame ∧
      last = { world with threads := world.threads.set thread [frame] } := by
  simp only [move] at moved
  split at moved
  · rename_i idle
    obtain ⟨frame, isFrame, rfl⟩ := Option.map_eq_some_iff.mp moved
    exact ⟨idle, frame, isFrame, rfl⟩
  · cases moved

theorem move_run {thread : Nat} (moved : world.move maxInflight depth (.run thread) = some last) :
    ∃ frame callers shared next, world.threads[thread]? = some (frame :: callers) ∧
      world.shared.Advances frame shared next ∧
      last = { shared, threads := world.threads.set thread (next ++ callers) } := by
  simp only [move] at moved
  split at moved
  · rename_i frame callers found
    obtain ⟨⟨shared, next⟩, advanced, rfl⟩ := Option.map_eq_some_iff.mp moved
    exact ⟨frame, callers, shared, next, found, Shared.advances advanced, rfl⟩
  · cases moved

theorem move_react {choice : Choice}
    (moved : world.move maxInflight depth (.react choice) = some last) :
    ∃ shared, world.shared.react maxInflight choice = some shared ∧
      last = { world with shared } := by
  obtain ⟨shared, reacted, rfl⟩ := Option.map_eq_some_iff.mp moved
  exact ⟨shared, reacted, rfl⟩

def arrives (world : World) (bytes : Bytes) : World :=
  { world with
    shared := ({ world.shared with
      socket := { world.shared.socket with
        unread := world.shared.socket.unread ++ bytes
        arrived := world.shared.socket.arrived + bytes.length } }).record (.arrived bytes) }

theorem move_arrive {bytes : Bytes}
    (moved : world.move maxInflight depth (.arrive bytes) = some last) :
    last = world.arrives bytes := by
  simp only [move] at moved
  split at moved <;> cases moved
  rfl

end World

/-! ## The lock -/

/-- The reactor is within a section of `mutex_`. -/
def ReactorPoint.holds : ReactorPoint → Bool
  | .waiting | .notifying .. | .exited => false
  | _ => true

/-- A frame within a section of `mutex_`. -/
def Frame.holds : Frame → Nat
  | .reaping .. | .closing .. => 1
  | _ => 0

theorem Call.outside {call : Call} {frame : Frame} (isFrame : call.frame shared = some frame) :
    frame.holds = 0 := by
  cases call with
  | cancel state =>
    simp only [Call.frame] at isFrame
    split at isFrame <;> cases isFrame
    rfl
  | _ =>
    cases isFrame
    rfl

theorem Shared.Turns.holds {point next}
    (turns : Turns maxInflight shared point next) : next.holds = point.holds := by
  cases turns with
  | @notified exits => cases exits <;> rfl
  | _ => rfl

theorem Shared.Concludes.holds {request point next}
    (concludes : Concludes shared request point next) : next.holds = point.holds := by
  cases concludes <;> rfl

theorem Shared.Completed.locked {request : Request} (completed : Completed shared request after) :
    after.locked = shared.locked := by
  cases completed <;> rfl

theorem Shared.Transfers.holds (transfers : Transfers choice shared after) :
    after.reactor.holds = shared.reactor.holds := by
  cases transfers with
  | send isPoint | receive isPoint | deliver isPoint =>
    rw [isPoint]
    rfl

theorem Shared.Transfers.locked (transfers : Transfers choice shared after) :
    after.locked = shared.locked := by
  cases transfers <;> rfl

theorem Shared.Reacts.holds (reacts : Reacts maxInflight choice shared after)
    (held : shared.reactor.holds = true → shared.locked = true) :
    after.reactor.holds.toNat + shared.locked.toNat =
      shared.reactor.holds.toNat + after.locked.toNat := by
  cases reacts with
  | begin waiting free reaped => simp [waiting, free, reaped.locked, holds]
  | stop waiting free closed => simp [waiting, free, holds]
  | leave reaping | stopped reaping => simp_all [holds]
  | turn turns reconnects => simp [turns.holds, reconnects.locked]
  | conclude concludes completed reconnects =>
    simp [concludes.holds, reconnects.locked, completed.locked]
  | transfer transfers => rw [transfers.holds, transfers.locked, Nat.add_comm]
  | reaped _ isPoint | block isPoint | finish isPoint | call isPoint =>
    simp [isPoint, holds]

/-- So do the calls. -/
theorem Shared.Advances.holds {frame next}
    (advances : Advances shared frame after next) (held : frame.holds = 1 → shared.locked = true) :
    (next.map Frame.holds).sum + shared.locked.toNat = frame.holds + after.locked.toNat := by
  cases advances with
  | submit free reaped => simp [free, reaped.locked, Frame.holds]
  | close free closed => simp [free, Frame.holds]
  | full | enqueue | closed => simp [Frame.holds, held rfl]
  | closeNext completed => simp [Frame.holds, completed.locked]
  | _ => simp [Frame.holds]

theorem Shared.Advances.reactor {frame next}
    (advances : Advances shared frame after next) : after.reactor = shared.reactor := by
  cases advances with
  | submit _ reaped => exact reaped.reactor
  | close _ closed => exact closed.reactor
  | closeNext completed => cases completed <;> rfl
  | _ => rfl

namespace World

variable {world : World} {frame : Frame}

/-- Exactly one section of `mutex_` is entered when it is locked, and none when it is not. -/
def Exclusive (world : World) : Prop :=
  world.shared.reactor.holds.toNat + tally Frame.holds world.threads = world.shared.locked.toNat

theorem Exclusive.held (exclusive : world.Exclusive)
    (holds : world.shared.reactor.holds = true) : world.shared.locked = true := by
  simp only [Exclusive, holds, Bool.toNat_true] at exclusive
  cases isLocked : world.shared.locked with
  | true => rfl
  | false => simp [isLocked] at exclusive

/-- While the reactor is in a pass, no call is in a section of `mutex_`. -/
theorem Exclusive.alone (exclusive : world.Exclusive) (holds : world.shared.reactor.holds = true)
    (present : frame ∈ world.threads.flatten) : frame.holds = 0 := by
  have counted := tally_pos Frame.holds present
  simp [Exclusive, holds, exclusive.held holds] at exclusive
  omega

/-- While a call is in a section of `mutex_`, the reactor is not in a pass, and no other
call is in one. -/
theorem Exclusive.heldByFrame (exclusive : world.Exclusive)
    (present : frame ∈ world.threads.flatten) (holds : frame.holds = 1) :
    world.shared.locked = true ∧ world.shared.reactor.holds = false := by
  have counted := tally_pos Frame.holds present
  simp only [Exclusive] at exclusive
  cases isLocked : world.shared.locked <;> cases point : world.shared.reactor.holds <;>
    simp_all

theorem exclusive_step {last : World} (exclusive : world.Exclusive)
    (taken : Step maxInflight depth world last) : last.Exclusive := by
  obtain ⟨chosen, moved⟩ := taken
  cases chosen with
  | start thread call =>
    obtain ⟨idle, frame, isFrame, rfl⟩ := move_start moved
    have counted := tally_start Frame.holds idle frame
    simp only [Exclusive, counted, Call.outside isFrame, Nat.add_zero] at exclusive ⊢
    exact exclusive
  | run thread =>
    obtain ⟨frame, callers, shared, next, found, advances, rfl⟩ := move_run moved
    have present := innermost_mem found
    have counted := tally_advance Frame.holds found next
    have changed := advances.holds fun holds => (exclusive.heldByFrame present holds).1
    simp only [Exclusive, advances.reactor] at exclusive ⊢
    omega
  | react choice =>
    obtain ⟨shared, reacted, rfl⟩ := move_react moved
    have changed := (Shared.reacts reacted).holds exclusive.held
    simp only [Exclusive] at exclusive ⊢
    omega
  | arrive bytes =>
    obtain rfl := move_arrive moved
    exact exclusive

theorem exclusive_reached (reached : Reachable Initial (Step maxInflight depth) world) :
    world.Exclusive := by
  refine reached.invariant ?_ fun _ exclusive taken => exclusive_step exclusive taken
  rintro _ ⟨count, rfl⟩
  simp [Exclusive, holds]

end World

end Odbcpp.Transport.Epoll
