import Odbcpp.Transport.AsyncTls

/-!
# The epoll transport

`EpollTransport` at the grain of its system calls and of the sections of an operation's mutex. The
reactor holds `mutex_` during a pass, and so do a submission and a close; a cancel can come between
any two steps of a pass. The kernel is the environment: a send or a receive takes some bytes, would
block, or fails. Calls that a callback makes are calls of some other thread here.
-/

namespace Odbcpp.Transport.Epoll

open Foundation Database

/-! ## Operations and requests -/

inductive RequestKind where
  | connect | send | recv
deriving DecidableEq

/-- The flags of an operation. -/
structure OperationState where
  complete : Bool := false
  cancelled : Bool := false
deriving DecidableEq

/-- A request of the queue. A refused one never shares its state with another thread. `room` is the
size of the target buffer. -/
structure Request where
  state : Nat
  kind : RequestKind
  deadline : Nat
  bytes : Bytes := []
  room : Nat := 0
deriving DecidableEq

/-- There is nothing to send, or no room to receive. -/
def Request.empty (request : Request) : Bool :=
  match request.kind with
  | .send => request.bytes.isEmpty
  | .recv => request.room = 0
  | .connect => false

def cancelledResult : IoOutcome := .error .networkError "async operation cancelled"
def closedResult : IoOutcome := .error .networkError "transport closed"
def stoppedResult : IoOutcome := .error .networkError "transport shutting down"
def expiredResult : IoOutcome := .error .timeout "async operation deadline expired"
def notConnectedResult : IoOutcome := .error .notConnected "transport is not connected"

/-- A callback to be run after `mutex_` was released. -/
abbrev Completion := Nat × IoOutcome

/-! ## Shared state -/

/-- The connection: the bytes that wait to be received, and how many have ever arrived. -/
structure Socket where
  isOpen : Bool := false
  connected : Bool := false
  unread : Bytes := []
  arrived : Nat := 0
deriving DecidableEq

/-- The place in the order of arrival of the next byte to be received. -/
def Socket.position (socket : Socket) : Nat := socket.arrived - socket.unread.length

/-- Where the reactor stands in `run`, with the completions collected so far. -/
inductive ReactorPoint where
  | waiting
  /-- In `reap_cancelled_locked`, at the beginning or the end of a pass. -/
  | reaping (kept rest : List Request) (last : Bool) (done : List Completion)
  | expiring (now : Nat) (rest : List Request) (done : List Completion)
  | expired (request : Request) (now : Nat) (rest : List Request) (done : List Completion)
  | connecting (done : List Completion)
  | connected (request : Request) (outcome : IoOutcome) (done : List Completion)
  /-- In `process_io_locked`, before it looks at a request. -/
  | processing (rest : List Request) (considered : Nat) (done : List Completion)
  /-- It has found the request incomplete. -/
  | attempting (request : Request) (rest : List Request) (considered : Nat)
      (done : List Completion)
  /-- It is about to finish the request, with the bytes it received and their place. -/
  | finishing (request : Request) (outcome : IoOutcome) (position : Nat) (received : Bytes)
      (rest : List Request) (considered : Nat) (done : List Completion)
  | stopping (rest : List Request) (done : List Completion)
  /-- It has released `mutex_`. -/
  | notifying (done : List Completion) (exits : Bool)
  | exited
deriving DecidableEq

/-- A call in progress. -/
inductive Frame where
  | submit (kind : RequestKind) (deadline : Nat) (bytes : Bytes) (room : Nat)
  /-- In `submit`, with `mutex_` held. -/
  | reaping (kind : RequestKind) (deadline : Nat) (bytes : Bytes) (room : Nat)
      (kept rest : List Request)
  | handOver (state : Nat)
  | cancel (state : Nat)
  | close
  /-- In `close_transport`, with `mutex_` held. -/
  | closing (rest : List Request) (done : List Completion)
  | notify (done : List Completion)
  | shutdown
  | join
deriving DecidableEq

/-- What is recorded of a run. -/
inductive Event where
  | arrived (bytes : Bytes)
  | opened
  | shut
  | accepted (state : Nat) (kind : RequestKind)
  | refused (kind : RequestKind)
  | handed (state : Nat)
  | passBegan
  | wouldBlock (kind : RequestKind)
  /-- The kernel took bytes of a send. -/
  | sent (state : Nat) (bytes : Bytes)
  /-- The kernel gave bytes to a receive. -/
  | taken (state : Nat) (position : Nat) (bytes : Bytes)
  | finished (state : Nat)
  /-- A receive finished with the bytes in its target. -/
  | delivered (state : Nat) (position : Nat) (bytes : Bytes)
  | called (state : Nat) (outcome : IoOutcome)
deriving DecidableEq

/-- What the threads share; the history is newest first. -/
structure Shared where
  requests : List Request := []
  activeConnect : Option Request := none
  socket : Socket := {}
  stopping : Bool := false
  locked : Bool := false
  states : Nat → OperationState := fun _ => {}
  nextState : Nat := 0
  reactor : ReactorPoint := .waiting
  clock : Nat := 0
  history : List Event := []

/-- How a call on the socket ends. -/
inductive SocketAnswer where
  | transferred (n : Nat)
  | endOfStream
  | wouldBlock
  | failed (text : String)
deriving DecidableEq

/-- How a connection attempt goes on: nothing has happened, it succeeds, another endpoint
is tried, or none is left. -/
inductive ConnectAnswer where
  | nothing
  | connected
  | inProgress
  | failed (outcome : IoOutcome)
deriving DecidableEq

/-- What the environment decides for a step. -/
structure Choice where
  now : Nat := 0
  socket : SocketAnswer := .wouldBlock
  connect : ConnectAnswer := .nothing
  /-- `epoll_wait` reported something to process. -/
  ready : Bool := true
deriving DecidableEq

namespace Shared

variable (shared : Shared)

@[simp] def record (event : Event) : Shared :=
  { shared with history := event :: shared.history }

@[simp] def goes (reactor : ReactorPoint) : Shared := { shared with reactor }

def isComplete (state : Nat) : Bool := (shared.states state).complete

/-- The section of `OperationState::finish_with`: whether this thread finished it. -/
def finish (state : Nat) : Shared × Bool :=
  if shared.isComplete state then (shared, false)
  else
    (({ shared with
      states := Function.update shared.states state
        { shared.states state with complete := true } }).record (.finished state), true)

/-- `close_socket_locked`; bytes that were not received are gone. -/
def closeSocket : Shared :=
  if shared.socket.isOpen then
    ({ shared with
      socket := { shared.socket with isOpen := false, unread := [] } }).record .shut
  else shared

/-- The old socket is closed, and nothing has arrived on the new one. -/
def openSocket : Shared :=
  let closed := shared.closeSocket
  ({ closed with socket := { closed.socket with unread := [] } }).record .opened

/-- The connection is given up. -/
def disconnect : Shared :=
  let closed := shared.closeSocket
  { closed with socket := { closed.socket with connected := false }, activeConnect := none }

/-- The first part of `reap_cancelled_locked`. -/
def reapConnect : Shared :=
  match shared.activeConnect with
  | some request => if shared.isComplete request.state then shared.disconnect else shared
  | none => shared

def complete (request : Request) (outcome : IoOutcome) (done : List Completion) :
    Shared × List Completion :=
  match shared.finish request.state with
  | (after, true) => (after, done ++ [(request.state, outcome)])
  | (after, false) => (after, done)

/-- Go on with a connection attempt. -/
def attemptConnect (request : Request) (done : List Completion) : ConnectAnswer → Shared
  | .nothing => shared
  | .connected =>
    -- Success is noticed on the socket that is in progress, or on a new one.
    let open' := if shared.activeConnect.isSome ∧ shared.socket.isOpen then shared
      else shared.openSocket
    ({ open' with
      socket := { open'.socket with isOpen := true, connected := true }
      activeConnect := none }).goes (.connected request .connected done)
  | .inProgress =>
    let opened := shared.openSocket
    ({ opened with
      socket := { opened.socket with isOpen := true, connected := false }
      activeConnect := some request }).goes (.connecting done)
  | .failed outcome => shared.disconnect.goes (.connected request outcome done)

/-- The connect that `start_connect_locked` finds, or the one in progress. -/
def pendingConnect : Option Request :=
  shared.activeConnect.orElse fun _ =>
    shared.requests.find? fun request =>
      request.kind = .connect && !shared.isComplete request.state

def afterConnects (ready : Bool) (done : List Completion) : Shared :=
  if shared.activeConnect.isNone && ready then shared.goes (.processing shared.requests 0 done)
  else shared.reapConnect.goes (.reaping [] shared.requests true done)

def attempt (request : Request) (rest : List Request) (considered : Nat)
    (done : List Completion) (answer : SocketAnswer) : Option Shared :=
  let finishing (after : Shared) (outcome : IoOutcome) (position : Nat) (received : Bytes) :=
    some (after.goes (.finishing request outcome position received rest considered done))
  if !shared.socket.isOpen || !shared.socket.connected then
    finishing shared notConnectedResult 0 []
  else if request.empty then finishing shared (.transferred 0 false) 0 []
  else
    match answer, request.kind with
    | .wouldBlock, kind =>
      some ((shared.record (.wouldBlock kind)).goes (.processing rest considered done))
    | .failed text, _ => finishing shared (.error .networkError text) 0 []
    | .transferred n, .send =>
      if n ≤ request.bytes.length then
        finishing (shared.record (.sent request.state (request.bytes.take n)))
          (.transferred n false) 0 []
      else none
    | .transferred n, .recv =>
      if 0 < n ∧ n ≤ request.room ∧ n ≤ shared.socket.unread.length then
        let received := shared.socket.unread.take n
        let position := shared.socket.position
        finishing (({ shared with
            socket := { shared.socket with unread := shared.socket.unread.drop n } }).record
          (.taken request.state position received)) (.transferred n false) position received
      else none
    | .endOfStream, .recv => finishing shared (.transferred 0 true) 0 []
    | _, _ => none

def finishIo (request : Request) (outcome : IoOutcome) (position : Nat)
    (received : Bytes) (rest : List Request) (considered : Nat) (done : List Completion) :
    Shared :=
  let (after, completions) := shared.complete request outcome done
  let finished := after.goes (.processing rest considered completions)
  if !shared.isComplete request.state && received ≠ [] then
    finished.record (.delivered request.state position received)
  else finished

/-- One step of the reactor; none while it is blocked. -/
def react (maxInflight : Nat) (choice : Choice) (shared : Shared) : Option Shared :=
  match shared.reactor with
  | .waiting =>
    if shared.locked then none
    else if shared.stopping then
      some (({ shared.closeSocket with locked := true }).goes (.stopping shared.requests []))
    else
      let begun := ({ shared with locked := true }).record .passBegan
      some (begun.reapConnect.goes (.reaping [] shared.requests false []))
  | .reaping kept [] last done =>
    let reaped := { shared with requests := kept }
    if last then some (({ reaped with locked := false }).goes (.notifying done false))
    else if shared.clock ≤ choice.now then
      some (({ reaped with clock := choice.now }).goes (.expiring choice.now kept done))
    else none
  | .reaping kept (request :: rest) last done =>
    let kept := if shared.isComplete request.state then kept else kept ++ [request]
    some (shared.goes (.reaping kept rest last done))
  | .expiring _ [] done => some (shared.goes (.connecting done))
  | .expiring now (request :: rest) done =>
    if shared.isComplete request.state || now < request.deadline then
      some (shared.goes (.expiring now rest done))
    else
      let after := if shared.activeConnect = some request then shared.disconnect else shared
      some (after.goes (.expired request now rest done))
  | .expired request now rest done =>
    let (after, completions) := shared.complete request expiredResult done
    some (after.goes (.expiring now rest completions))
  | .connecting done =>
    match shared.pendingConnect, choice.connect with
    | none, _ => some (shared.afterConnects choice.ready done)
    | some request, .nothing =>
      -- A connect that has just been found is always tried.
      if shared.activeConnect = some request then
        some (shared.afterConnects choice.ready done)
      else none
    | some request, answer => some (shared.attemptConnect request done answer)
  | .connected request outcome done =>
    let (after, completions) := shared.complete request outcome done
    some (after.afterConnects choice.ready completions)
  | .processing [] _ done =>
    some (shared.reapConnect.goes (.reaping [] shared.requests true done))
  | .processing (request :: rest) considered done =>
    if maxInflight ≤ considered then
      some (shared.reapConnect.goes (.reaping [] shared.requests true done))
    else if shared.isComplete request.state || request.kind = .connect then
      some (shared.goes (.processing rest considered done))
    else some (shared.goes (.attempting request rest (considered + 1) done))
  | .attempting request rest considered done =>
    shared.attempt request rest considered done choice.socket
  | .finishing request outcome position received rest considered done =>
    some (shared.finishIo request outcome position received rest considered done)
  | .stopping [] done =>
    some (({ shared with requests := [], activeConnect := none, locked := false }).goes
      (.notifying done true))
  | .stopping (request :: rest) done =>
    let (after, completions) := shared.complete request stoppedResult done
    some (after.goes (.stopping rest completions))
  | .notifying [] exits => some (shared.goes (if exits then .exited else .waiting))
  | .notifying ((state, outcome) :: done) exits =>
    some ((shared.record (.called state outcome)).goes (.notifying done exits))
  | .exited => none

/-- The end of a submission, when the queue was reaped. -/
def enqueue (depth : Nat) (shared : Shared) (kind : RequestKind) (deadline : Nat) (bytes : Bytes)
    (room : Nat) : Shared × List Frame :=
  if depth ≤ shared.requests.length ||
      kind = .connect && shared.requests.any fun request =>
        request.kind = .connect && !shared.isComplete request.state then
    (({ shared with locked := false }).record (.refused kind), [])
  else
    let state := shared.nextState
    let request : Request := { state, kind, deadline, bytes, room }
    (({ shared with
      requests := shared.requests ++ [request]
      nextState := state + 1
      locked := false }).record (.accepted state kind), [.handOver state])

/-- One step of a call; none while it is blocked. -/
def advance (depth : Nat) (shared : Shared) : Frame → Option (Shared × List Frame)
  | .submit kind deadline bytes room =>
    if shared.locked then none
    else if shared.stopping then some (shared.record (.refused kind), [])
    else some (({ shared with locked := true }).reapConnect,
      [.reaping kind deadline bytes room [] shared.requests])
  | .reaping kind deadline bytes room kept [] =>
    some (({ shared with requests := kept }).enqueue depth kind deadline bytes room)
  | .reaping kind deadline bytes room kept (request :: rest) =>
    let kept := if shared.isComplete request.state then kept else kept ++ [request]
    some (shared, [.reaping kind deadline bytes room kept rest])
  | .handOver state => some (shared.record (.handed state), [])
  | .cancel state =>
    if shared.isComplete state then some (shared, [])
    else
      let cancelled : OperationState := { complete := true, cancelled := true }
      some (({ shared with
        states := Function.update shared.states state cancelled }).record (.finished state),
          [.notify [(state, cancelledResult)]])
  | .close =>
    if shared.locked then none
    else some ({ shared.disconnect with locked := true }, [.closing shared.requests []])
  | .closing [] done =>
    some ({ shared with requests := [], locked := false }, [.notify done])
  | .closing (request :: rest) done =>
    let (after, completions) := shared.complete request closedResult done
    some (after, [.closing rest completions])
  | .notify [] => some (shared, [])
  | .notify ((state, outcome) :: done) =>
    some (shared.record (.called state outcome), [.notify done])
  | .shutdown => if shared.locked then none else some ({ shared with stopping := true }, [.join])
  | .join => if shared.reactor = .exited then some (shared, []) else none

end Shared

/-! ## Runs -/

/-- Each thread is in at most one call. -/
structure World where
  shared : Shared := {}
  threads : List (List Frame)

/-- The calls of an application; a handle can be cancelled once it was returned. -/
inductive Call where
  | submit (kind : RequestKind) (deadline : Nat) (bytes : Bytes) (room : Nat)
  | cancel (state : Nat)
  | close
  | shutdown
deriving DecidableEq

def Call.frame (shared : Shared) : Call → Option Frame
  | .submit kind deadline bytes room => some (.submit kind deadline bytes room)
  | .cancel state => if .handed state ∈ shared.history then some (.cancel state) else none
  | .close => some .close
  | .shutdown => some .shutdown

/-- The choices of the scheduler and of the environment. -/
inductive Move where
  | start (thread : Nat) (call : Call)
  | run (thread : Nat)
  | react (choice : Choice)
  | arrive (bytes : Bytes)
deriving DecidableEq

namespace World

variable (maxInflight depth : Nat)

def move (move : Move) (world : World) : Option World :=
  match move with
  | .start thread call =>
    if world.threads[thread]? = some [] then
      (call.frame world.shared).map fun frame =>
        { world with threads := world.threads.set thread [frame] }
    else none
  | .run thread =>
    match world.threads[thread]? with
    | some (frame :: callers) =>
      (world.shared.advance depth frame).map fun (shared, next) =>
        { shared, threads := world.threads.set thread (next ++ callers) }
    | _ => none
  | .react choice =>
    (world.shared.react maxInflight choice).map fun shared => { world with shared }
  | .arrive bytes =>
    let socket := world.shared.socket
    if socket.isOpen then
      some { world with
        shared := ({ world.shared with
          socket := { socket with
            unread := socket.unread ++ bytes
            arrived := socket.arrived + bytes.length } }).record (.arrived bytes) }
    else none

/-- A transport that has just been started, with any number of threads that may use it. -/
def Initial (world : World) : Prop := ∃ count, world = { threads := List.replicate count [] }

def Step (world after : World) : Prop := ∃ chosen, move maxInflight depth chosen world = some after

end World

end Odbcpp.Transport.Epoll
