import Odbcpp.Connection.QueryResult
import Odbcpp.Foundation.Program
import Odbcpp.Postgres.Requests

/-!
# A connection and its surroundings

The mutable part of `GenericDatabaseConnection` and everything around it that answers back. The
surroundings are an arbitrary automaton over a hidden state, so a statement about every environment
covers every splitting of reads and writes, every byte stream and every point of failure. Two ghost
fields log the bytes on the wire.
-/

namespace Odbcpp.Connection

open Foundation Database Postgres

/-! ## Settings -/

structure ResponseLimits where
  maxWireBytes : Nat := 64 * 1024 * 1024
  maxMessages : Nat := 100000
deriving DecidableEq

structure ResultLimits where
  maxRows : Nat := 1000000
  maxCells : Nat := 4000000
  maxColumnsPerDescription : Nat := 4096
  maxResults : Nat := 1024
  maxMetadataEntries : Nat := 65536
  maxColumnNameBytes : Nat := 1024
  maxMetadataNameBytes : Nat := 1024 * 1024
  maxDiagnosticBytes : Nat := 16 * 1024
deriving DecidableEq

structure InputLimits where
  maxSqlBytes : Nat := 1024 * 1024
  maxParameters : Nat := 65535
  maxParameterBytes : Nat := 16 * 1024 * 1024
  maxParameterTotalBytes : Nat := 64 * 1024 * 1024
  maxConnectionFieldBytes : Nat := 64 * 1024
  maxRequestWireBytes : Nat := 128 * 1024 * 1024
  maxStartupWireBytes : Nat := 1024 * 1024
  maxAuthWireBytes : Nat := 1024 * 1024
deriving DecidableEq

/-- The limits and the profile of a connection. -/
structure Settings where
  profile : PgCatalogProfile := .postgreSQL
  responseLimits : ResponseLimits := {}
  resultLimits : ResultLimits := {}
  inputLimits : InputLimits := {}
  startupResponseLimits : ResponseLimits := ⟨1024 * 1024, 10000⟩
  characterMetadata : CharacterMetadataPolicy := {}
deriving DecidableEq

/-- The settings a connection accepts; it refuses to connect with others. -/
def validResourceLimits (settings : Settings) : Bool :=
  5 ≤ settings.responseLimits.maxWireBytes && 0 < settings.responseLimits.maxMessages &&
    5 ≤ settings.startupResponseLimits.maxWireBytes &&
    0 < settings.startupResponseLimits.maxMessages && 0 < settings.resultLimits.maxResults &&
    settings.inputLimits.maxSqlBytes ≤ 64 * 1024 * 1024 &&
    settings.inputLimits.maxParameters ≤ 65535 &&
    settings.inputLimits.maxParameterBytes ≤ 64 * 1024 * 1024 &&
    settings.inputLimits.maxParameterTotalBytes ≤ 256 * 1024 * 1024 &&
    settings.inputLimits.maxConnectionFieldBytes ≤ 1024 * 1024 &&
    settings.inputLimits.maxRequestWireBytes ≤ 1024 * 1024 * 1024 &&
    settings.inputLimits.maxStartupWireBytes ≤ 1024 * 1024 * 1024 &&
    settings.inputLimits.maxAuthWireBytes ≤ 1024 * 1024 * 1024

/-! ## Surroundings -/

/-- A failed transport call, as `rs::util::Result` reports it. -/
structure Failure where
  code : ErrorCode
  message : Bytes
deriving DecidableEq

def Failure.make (code : DbErrorCode) (message : String) : Failure := ⟨.db code, ascii message⟩

/-- What a transport call may throw. -/
inductive TransportFault where
  | badAlloc
  | exception (what : String)
deriving DecidableEq

def TransportFault.thrown : TransportFault → Thrown
  | .badAlloc => .badAlloc
  | .exception what => .runtimeError what

/-- The answer to `send`. Bytes may have left before a failure. -/
inductive SendReply where
  | wrote (count : Nat)
  | failed (failure : Failure) (leaked : Nat)
  | threw (fault : TransportFault) (leaked : Nat)
deriving DecidableEq

/-- The answer to `recv`. Bytes may be lost in a failure. -/
inductive RecvReply where
  | received (bytes : Bytes) (eof : Bool)
  | failed (failure : Failure) (lost : Bytes)
  | threw (fault : TransportFault) (lost : Bytes)
deriving DecidableEq

structure CancellationOutcome where
  confirmed : Bool := false
  retire : Bool := false
deriving DecidableEq

/-- Everything outside the connection object, over its hidden state. -/
structure Environment (σ : Type) where
  send : Bytes → σ → SendReply × σ
  /-- Called with a buffer and the offset from which on it is to be filled. -/
  recv : Bytes → Nat → σ → RecvReply × σ
  close : σ → σ
  now : σ → Nat × σ
  /-- Whether the next group of allocations fails. -/
  allocationFails : σ → Bool × σ
  floating : σ → FloatingContext × σ
  beforeWire : σ → Bool × σ
  wireSent : σ → σ
  errorObserved : Bytes → σ → σ
  drained : σ → CancellationOutcome × σ
  sealed : σ → CancellationOutcome × σ
  enterResolver : σ → Bool × σ
  leaveResolver : σ → σ

/-! ## The connection -/

structure ParsedColumnProvenance where
  tableOid : Nat
  columnAttributeNumber : Int
deriving DecidableEq

/-- The part of a session that synchronisation is about: the two flags, and the
bytes written and consumed so far. -/
structure Link where
  connected : Bool := false
  sessionState : SessionState := .disconnected
  sent : Bytes := []
  received : Bytes := []
deriving DecidableEq

/-- The connection object with its surroundings. -/
structure Session (σ : Type) extends Link where
  cancellationOperation : Bool := false
  cancellationPhaseActive : Bool := false
  transportClosedAfterFailure : Bool := false
  serverParams : List (Bytes × Bytes) := []
  nextResultId : Nat := 1
  resultProvenance : List (Nat × List ParsedColumnProvenance) := []
  environment : σ

/-- Code of the connection object. -/
abbrev Io (σ : Type) := Program Thrown (Session σ)

variable {σ : Type} (env : Environment σ)

def ask {α : Type} (question : σ → α × σ) : Io σ α := do
  let session ← get
  let (answer, environment) := question session.environment
  modify fun session => { session with environment }
  return answer

def tell (change : σ → σ) : Io σ Unit :=
  modify fun session => { session with environment := change session.environment }

/-- A group of allocations, any of which may fail. -/
def allocate : Io σ Unit := do
  if ← ask env.allocationFails then throw .badAlloc

def now : Io σ Nat := ask env.now

/-- The cancellation endpoint is consulted only during an active phase. -/
def cancellationActive : Io σ Bool := do
  let session ← get
  return session.cancellationPhaseActive && session.cancellationOperation

def markTransportFailed : Io σ Unit := do
  let session ← get
  Program.onlyIf session.cancellationOperation do
    let _ ← ask env.sealed
  modify fun session => { session with connected := false, sessionState := .disconnected }
  Program.onlyIf session.connected do
    tell env.close
    modify fun session => { session with transportClosedAfterFailure := true }

def finishCancellationOperation : Io σ Unit := do
  let session ← get
  Program.onlyIf session.cancellationOperation do
    let outcome ← ask env.sealed
    modify fun session =>
      { session with cancellationOperation := false, cancellationPhaseActive := false }
    Program.onlyIf outcome.retire (markTransportFailed env)

def disconnect : Io σ Unit := do
  finishCancellationOperation env
  let session ← get
  Program.onlyIf (!session.transportClosedAfterFailure) do
    tell env.close
    modify fun session => { session with transportClosedAfterFailure := true }
  modify fun session =>
    { session with
      connected := false
      sessionState := .disconnected
      serverParams := []
      resultProvenance := [] }

/-- Remember where the columns of a result come from; the oldest entry goes when
4096 are held. -/
def recordResultProvenance (resultId : Nat) (provenance : List ParsedColumnProvenance) : Io σ Unit :=
  modify fun session =>
    let held :=
      if 4096 ≤ session.resultProvenance.length then session.resultProvenance.drop 1
      else session.resultProvenance
    { session with resultProvenance := held ++ [(resultId, provenance)] }

def Session.disposition (session : Session σ) : SessionDisposition :=
  if !session.connected then .retire
  else if session.sessionState = .idle then .reusable
  else .resetRequired

/-- Errors after which the position in the byte stream is not known. -/
def BackendErrorClass.ambiguous : BackendErrorClass → Bool
  | .timeout | .transport | .protocol | .tls | .unknown | .resourceLimit => true
  | _ => false

variable (operation : BackendOperation)

def annotateError (session : Session σ) (error : BackendError) : BackendError :=
  { error with
    operation := operation
    sessionState := session.sessionState
    disposition := session.disposition }

def annotateItem (session : Session σ) (item : QueryItem) : QueryItem :=
  { item with error := item.error.map (annotateError operation session) }

def finishOperation (result : BackendResult QueryResult) (operation : BackendOperation) :
    Io σ (BackendResult QueryResult) := do
  match result with
  | .error failure =>
    -- Type resolution has already described the session it left.
    if failure.operation = .resolveTypes then return result
    Program.onlyIf (BackendErrorClass.ambiguous failure.errorClass) (markTransportFailed env)
    return .error (annotateError operation (← get) failure)
  | .value value _ =>
    let session ← get
    let annotated : QueryResult :=
      { toQueryItem := annotateItem operation session value.toQueryItem
        additionalResults := value.additionalResults.map (annotateItem operation session) }
    return .value annotated ⟨session.sessionState, session.disposition⟩

def rejectRequestLimit : Io σ (BackendResult QueryResult) := do
  let session ← get
  return .error (annotateError operation session
    (BackendError.make .resourceLimit "Database request input limit exceeded"))

end Odbcpp.Connection
