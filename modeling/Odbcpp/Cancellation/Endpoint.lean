import Odbcpp.Foundation.Bytes
import Odbcpp.Foundation.Reachability

/-!
# The cancellation endpoint

`PgCancellation` is shared by the thread that owns the session and by any number of threads that ask
to cancel. Its critical sections are definitions here, split where a section waits; what the
secondary connection does, and when a wait times out, is left open. The owner's calls come in the
order the connection issues them.
-/

namespace Odbcpp.Cancellation

open Foundation

inductive WirePhase where
  | beforeWire | writing | running | finished | resolver
deriving DecidableEq

structure CancellationOutcome where
  claimed : Bool
  confirmed : Bool
  retire : Bool
deriving DecidableEq

/-- The fields that the mutex protects, and the generation, which never changes. -/
structure PgCancellation where
  generation : Nat
  phase : WirePhase := .beforeWire
  sealed : Bool := false
  claimed : Bool := false
  secondaryDone : Bool := false
  secondaryOk : Bool := false
  localAfterReady : Bool := false
  errorSeen : Bool := false
  errorBeforeClaim : Bool := false
  cancelledError : Bool := false
  escaped : Bool := false
  uncertain : Bool := false
  confirmed : Bool := false
  retire : Bool := false
deriving DecidableEq

namespace PgCancellation

variable (endpoint : PgCancellation)

def outcome : CancellationOutcome :=
  ⟨endpoint.claimed, endpoint.confirmed, endpoint.retire⟩

/-! ## Calls of the owner -/

def enterResolver : PgCancellation × Bool :=
  if endpoint.sealed || endpoint.claimed || endpoint.errorBeforeClaim ||
      endpoint.phase ≠ .finished then (endpoint, false)
  else ({ endpoint with phase := .resolver }, true)

def leaveResolver : PgCancellation :=
  if !endpoint.sealed && endpoint.phase = .resolver then { endpoint with phase := .finished }
  else endpoint

/-- A claim made between two phases is confirmed without a packet. -/
def confirmLocal : PgCancellation :=
  if endpoint.claimed && endpoint.localAfterReady && !endpoint.errorBeforeClaim then
    { endpoint with confirmed := true }
  else endpoint

def nextPhase : PgCancellation × Bool :=
  if endpoint.sealed || endpoint.claimed || endpoint.errorBeforeClaim then
    (endpoint.confirmLocal, false)
  else ({ endpoint.confirmLocal with phase := .beforeWire }, true)

def beforeWire : PgCancellation × Bool :=
  if endpoint.sealed || endpoint.claimed then (endpoint, false)
  else ({ endpoint with phase := .writing }, true)

def sent : PgCancellation := { endpoint with phase := .running }

/-- Only the first error decides whether it came before the claim; the last one
decides whether the query was cancelled. -/
def errorObserved (nativeState : Bytes) : PgCancellation :=
  let errorBeforeClaim :=
    if !endpoint.errorSeen then !endpoint.claimed else endpoint.errorBeforeClaim
  { endpoint with
    errorBeforeClaim
    errorSeen := true
    cancelledError := endpoint.claimed && !errorBeforeClaim && nativeState = ascii "57014" }

/-- What `drained` and `seal` wait for. -/
def awaitsSecondary : Bool :=
  endpoint.claimed && !endpoint.secondaryDone

/-- `drained` up to its wait. -/
def beginDrained : PgCancellation :=
  { endpoint with phase := .finished }

/-- `drained` from its wait on, which timed out if a secondary exchange is not over. `timely` says
whether the cutoff is ahead. -/
def concludeDrained (legalReady timely : Bool) : PgCancellation :=
  let uncertain := endpoint.uncertain || endpoint.awaitsSecondary
  let confirmed := endpoint.claimed && legalReady && endpoint.cancelledError &&
    endpoint.secondaryOk && timely
  { endpoint with
    uncertain
    confirmed
    retire := endpoint.claimed && (uncertain || (endpoint.escaped && !confirmed)) }

/-- `seal` up to its wait. -/
def beginSeal : PgCancellation :=
  { endpoint with sealed := true, phase := .finished }

/-- `seal` from its wait on. -/
def concludeSeal : PgCancellation :=
  if endpoint.awaitsSecondary then { endpoint with uncertain := true, retire := true } else endpoint

/-! ## Sections of a request -/

/-- How a section of `request` ends: the request returns, waits for the phase to leave
Writing, or starts the secondary exchange. -/
inductive Admission where
  | returned (result : Bool)
  | waits
  | exchanges
deriving DecidableEq

/-- The first section of `request`; `frozen` says whether the cutoff could be set. -/
def request (frozen : Bool) : PgCancellation × Admission :=
  if endpoint.generation = 0 then (endpoint, .returned false)
  else if endpoint.sealed then (endpoint, .returned true)
  else if endpoint.phase = .resolver then (endpoint, .returned false)
  else if endpoint.errorBeforeClaim then (endpoint, .returned false)
  else if endpoint.claimed then
    (endpoint, .returned (endpoint.secondaryDone && endpoint.secondaryOk))
  else if !frozen then (endpoint, .returned false)
  else
    match endpoint.phase with
    | .finished =>
      ({ endpoint with
        claimed := true
        localAfterReady := true
        secondaryDone := true
        secondaryOk := true }, .returned true)
    | .beforeWire =>
      ({ endpoint with
        claimed := true
        secondaryDone := true
        secondaryOk := true
        confirmed := true }, .returned true)
    | .writing => ({ endpoint with claimed := true }, .waits)
    | .running => ({ endpoint with claimed := true }, .exchanges)
    | .resolver => ({ endpoint with claimed := true, secondaryDone := true }, .returned false)

/-- The section after the wait, once the phase is no longer Writing. -/
def wake : PgCancellation × Admission :=
  if endpoint.phase ≠ .running then ({ endpoint with secondaryDone := true }, .returned false)
  else (endpoint, .exchanges)

/-- The section after a wait that timed out, and the handler of exceptions. -/
def abandon : PgCancellation :=
  { endpoint with secondaryDone := true, uncertain := true, retire := true }

/-- The section of `exchange` before the packet is sent. -/
def escape : PgCancellation := { endpoint with escaped := true }

/-- The last section of `request`. -/
def concludeExchange (ok : Bool) : PgCancellation :=
  { endpoint with
    secondaryDone := true
    secondaryOk := ok
    uncertain := !ok
    retire := endpoint.retire || !ok }

end PgCancellation

/-! ## Runs -/

/-- What the properties are about. An ErrorResponse is latched before it is decoded and observed
with its SQLSTATE after. -/
inductive Event where
  | claimed
  | exchangeStarted
  | cancelBytes
  | exchanged (ok : Bool)
  | sent
  | latched
  | observed (nativeState : Bytes)
  | drained (outcome : CancellationOutcome)
  | sealed (outcome : CancellationOutcome)
deriving DecidableEq

/-- Where a thread is in `request`. The packet has sixteen bytes. -/
inductive Stage where
  | idle
  | waiting
  | exchanging
  | sending (remaining : Nat)
deriving DecidableEq

/-- Where a request is after a section. -/
@[simp] def PgCancellation.Admission.stage : PgCancellation.Admission → Stage
  | .returned _ => .idle
  | .waits => .waiting
  | .exchanges => .exchanging

/-- The events of a section of `request`, newest first. -/
def requestEvents (endpoint : PgCancellation) (ends : PgCancellation × PgCancellation.Admission) :
    List Event :=
  (if ends.2 = .exchanges then [.exchangeStarted] else []) ++
    if ends.1.claimed && !endpoint.claimed then [.claimed] else []

/-- The steps of a thread that requests a cancellation. -/
inductive RequestStep :
    PgCancellation → Stage → List Event → PgCancellation → Stage → Prop where
  | enter {endpoint} (frozen : Bool) :
      RequestStep endpoint .idle (requestEvents endpoint (endpoint.request frozen))
        (endpoint.request frozen).1 (endpoint.request frozen).2.stage
  | wake {endpoint} (awake : endpoint.phase ≠ .writing) :
      RequestStep endpoint .waiting (requestEvents endpoint endpoint.wake) endpoint.wake.1
        endpoint.wake.2.stage
  | expire {endpoint} (writing : endpoint.phase = .writing) :
      RequestStep endpoint .waiting [] endpoint.abandon .idle
  -- The peer cannot be reached or does not agree to TLS.
  | refuse {endpoint} :
      RequestStep endpoint .exchanging [.exchanged false] (endpoint.concludeExchange false) .idle
  | escape {endpoint} : RequestStep endpoint .exchanging [] endpoint.escape (.sending 16)
  -- A failed attempt may have sent bytes, too.
  | send {endpoint remaining} (taken : Nat) (within : taken ≤ remaining) :
      RequestStep endpoint (.sending remaining) [.cancelBytes] endpoint
        (.sending (remaining - taken))
  | conclude {endpoint remaining} (ok : Bool) (complete : ok = true → remaining = 0) :
      RequestStep endpoint (.sending remaining) [.exchanged ok] (endpoint.concludeExchange ok) .idle
  | abort {endpoint stage} (exchanging : stage ≠ .idle ∧ stage ≠ .waiting) :
      RequestStep endpoint stage [.exchanged false] endpoint.abandon .idle

/-- Where the owner is. A request announced by `before_wire` is sent, a description goes out
unannounced. An error response is latched, then reported; the connection fails on a second one.
After a failure it can only seal. -/
inductive Position where
  | armed
  | writing
  | reading (sent : Bool)
  | latched (sent : Bool)
  | reported (sent : Bool)
  | draining (sent : Bool)
  | finished
  | resolving
  | failing
  | sealing
  | closed
deriving DecidableEq

/-- The owner is within a call that waits. -/
def Position.waits : Position → Bool
  | .draining _ | .sealing => true
  | _ => false

/-- No phase is on the wire: a resolver may be tried and a phase continued. A closed
endpoint refuses both. -/
def Position.rests : Position → Bool
  | .armed | .finished | .closed => true
  | _ => false

/-- The connection retires itself when told so. -/
def afterDrained (endpoint : PgCancellation) : Position :=
  if endpoint.retire then .failing else .finished

/-- The steps of the thread that runs the query. -/
inductive OwnerStep :
    PgCancellation → Position → List Event → PgCancellation → Position → Prop where
  | beforeWire {endpoint} :
      OwnerStep endpoint .armed [] endpoint.beforeWire.1
        (if endpoint.beforeWire.2 then .writing else .armed)
  | sent {endpoint} : OwnerStep endpoint .writing [.sent] endpoint.sent (.reading true)
  | describe {endpoint} : OwnerStep endpoint .armed [] endpoint (.reading false)
  | latch {endpoint sent} :
      OwnerStep endpoint (.reading sent) [.latched] (endpoint.errorObserved []) (.latched sent)
  | report {endpoint sent} (nativeState : Bytes) (terminal : Bool) :
      OwnerStep endpoint (.latched sent) [.observed nativeState]
        (endpoint.errorObserved nativeState) (if terminal then .failing else .reported sent)
  | latchAgain {endpoint sent} :
      OwnerStep endpoint (.reported sent) [.latched] (endpoint.errorObserved []) .failing
  | reportAgain {endpoint} (nativeState : Bytes) :
      OwnerStep endpoint .failing [.observed nativeState] (endpoint.errorObserved nativeState)
        .failing
  -- `drained`, with or without a wait.
  | drain {endpoint position sent} (read : position = .reading sent ∨ position = .reported sent)
      (waits : endpoint.awaitsSecondary = true) :
      OwnerStep endpoint position [] endpoint.beginDrained (.draining sent)
  | drainAtOnce {endpoint position sent}
      (read : position = .reading sent ∨ position = .reported sent)
      (free : endpoint.awaitsSecondary = false) (legalReady timely : Bool) :
      OwnerStep endpoint position
        [.drained (endpoint.beginDrained.concludeDrained legalReady timely).outcome]
        (endpoint.beginDrained.concludeDrained legalReady timely)
        (afterDrained (endpoint.beginDrained.concludeDrained legalReady timely))
  | concludeDrain {endpoint sent} (legalReady timely : Bool) :
      OwnerStep endpoint (.draining sent)
        [.drained (endpoint.concludeDrained legalReady timely).outcome]
        (endpoint.concludeDrained legalReady timely)
        (afterDrained (endpoint.concludeDrained legalReady timely))
  | enterResolver {endpoint position} (rests : position.rests = true) :
      OwnerStep endpoint position [] endpoint.enterResolver.1
        (if endpoint.enterResolver.2 then .resolving else position)
  -- A resolver that failed has sealed the endpoint by then.
  | leaveResolver {endpoint position} (resolving : position = .resolving ∨ position = .closed) :
      OwnerStep endpoint position [] endpoint.leaveResolver
        (if position = .closed then .closed else .finished)
  | nextPhase {endpoint position} (rests : position.rests = true) :
      OwnerStep endpoint position [] endpoint.nextPhase.1
        (if position = .closed then .closed else .armed)
  -- `seal`, with or without a wait: at the end of the operation, or when it has failed.
  | startSeal {endpoint position} (free : position.waits = false)
      (waits : endpoint.awaitsSecondary = true) :
      OwnerStep endpoint position [] endpoint.beginSeal .sealing
  | sealAtOnce {endpoint position} (free : position.waits = false)
      (done : endpoint.awaitsSecondary = false) :
      OwnerStep endpoint position [.sealed endpoint.beginSeal.outcome] endpoint.beginSeal .closed
  | concludeSeal {endpoint} :
      OwnerStep endpoint .sealing [.sealed endpoint.concludeSeal.outcome] endpoint.concludeSeal
        .closed

/-- The endpoint, its owner, the threads that may ask to cancel, and the history,
newest event first. -/
structure World where
  endpoint : PgCancellation
  owner : Position := .armed
  requests : Nat → Stage := fun _ => .idle
  history : List Event := []

namespace World

/-- A fresh endpoint, just installed. -/
def Initial (world : World) : Prop :=
  ∃ generation, world = { endpoint := { generation } }

/-- The steps of both, in any order. -/
inductive Step : World → World → Prop where
  | own {world events endpoint owner}
      (acts : OwnerStep world.endpoint world.owner events endpoint owner) :
      Step world { world with endpoint, owner, history := events ++ world.history }
  | ask {world thread events endpoint stage}
      (acts : RequestStep world.endpoint (world.requests thread) events endpoint stage) :
      Step world
        { world with
          endpoint
          requests := Function.update world.requests thread stage
          history := events ++ world.history }

end World

end Odbcpp.Cancellation
