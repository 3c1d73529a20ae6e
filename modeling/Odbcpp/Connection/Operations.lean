import Odbcpp.Connection.Response

/-!
# Operations of a connection

The four operations that talk to the server, the type resolution they may nest,
and the handlers that decide whether the connection survives an exception.
-/

namespace Odbcpp.Connection

open Foundation Database Postgres Util

section

variable {σ : Type} (env : Environment σ) (settings : Settings) (backend : Backend)

/-- Build a request. The encoder's wire limit is thrown; every other encoder exception is reported
without I/O. -/
def buildRequest (encoded : Except Thrown Bytes) : Io σ (Except BackendError Bytes) :=
  tryCatch
    (do
      allocate env
      let request ← Program.ofExcept encoded
      return .ok request)
    fun thrown =>
      match thrown with
      | .requestWireLimitExceeded => throw .requestWireLimitExceeded
      | .badAlloc => return .error (BackendError.make .allocationFailure "")
      | thrown => return .error (BackendError.make .invalidParameter thrown.what)

/-- Whether an active cancellation phase lets the request go out. Descriptions do
not take part in cancellation dispatch. -/
def dispatchAllowed (kind : ResponseKind) : Io σ Bool := do
  let active ← cancellationActive
  if active ∧ kind ≠ .description then ask env.beforeWire else return true

/-- Tell the endpoint that the request is on the wire. -/
def noteSent (kind : ResponseKind) : Io σ Unit := do
  let active ← cancellationActive
  Program.onlyIf (active && kind ≠ .description) (tell env.wireSent)

def exchange (resolve : List Nat → Io σ (BackendResult ResolvedTypeMap)) (deadline : Nat)
    (kind : ResponseKind) (expected : Bytes) (encoded : Except Thrown Bytes) :
    Io σ (BackendResult QueryResult) := do
  let session ← get
  if !session.connected then return .fail .notConnected "Not connected"
  else
    match ← buildRequest env encoded with
    | .error failure => return .error failure
    | .ok request =>
      if !(← dispatchAllowed env kind) then
        return .fail .queryFailed "Statement cancelled before dispatch"
      else
        match ← writeAllResult env request deadline true with
        | .error failure => return .error failure.backendError
        | .ok () =>
          noteSent env kind
          readQueryResult env settings backend resolve deadline kind expected

/-- The outer handlers of every operation. -/
def guardOperation (operation : BackendOperation) (body : Io σ (BackendResult QueryResult)) :
    Io σ (BackendResult QueryResult) :=
  tryCatch (do finishOperation env (← body) operation) fun thrown =>
    match thrown with
    | .requestWireLimitExceeded => rejectRequestLimit operation
    | .badAlloc => do
      markTransportFailed env
      finishOperation env (.fail .allocationFailure "") operation
    | thrown => throw thrown

def describedTypes (ids : List Nat) : Io σ (BackendResult ResolvedTypeMap) :=
  return .value (ids.map fun id => (id, backend.describeType id (-1) (-1)))

/-- A simple query with an expected completion, empty when any will do. It has no
parameters, so its response never resolves types. -/
def simpleQuery (sql expected : Bytes) (deadline : Nat) (operation : BackendOperation) :
    Io σ (BackendResult QueryResult) := do
  let session ← get
  if session.connected ∧ settings.inputLimits.maxSqlBytes < sql.length then
    rejectRequestLimit operation
  else
    guardOperation env operation <|
      exchange env settings backend (describedTypes backend) deadline .simpleExecution expected
        (createSimpleQuery sql settings.inputLimits.maxRequestWireBytes)

def executeQuery (sql : Bytes) (deadline : Nat) : Io σ (BackendResult QueryResult) :=
  simpleQuery env settings backend sql [] deadline .executeDirect

def executeCleanupQuery (sql expected : Bytes) (deadline : Nat) : Io σ (BackendResult QueryResult) :=
  simpleQuery env settings backend sql expected deadline .resetSession

/-! ## Type discovery -/

variable (profile : PgCatalogProfile)

/-- Parameter descriptions keep the parser's fallback for spatial types. -/
def describeParameter (id : Nat) (modifier : Int) : NativeTypeInfo :=
  if profile = .redshift ∧ (id = 3000 ∨ id = 3001 ∨ id = 3999) then
    backend.parserDescribeType id (-1) modifier
  else backend.describeType id (-1) modifier

/-- The types described without a query, first occurrence first, and the ids that
need one. -/
def describeKnown (ids : List Nat) : ResolvedTypeMap × List Nat :=
  ids.foldl (fun (resolved, unresolved) id =>
    if (resolved.lookup id).isSome then (resolved, unresolved)
    else
      let type := describeParameter backend profile id (-1)
      (resolved ++ [(id, type)],
        if id ≠ 0 ∧ !type.known then unresolved ++ [id] else unresolved)) ([], [])

/-- The catalog query that follows domain types down to their base types. -/
def typeQuery (unresolved : List Nat) : Bytes :=
  ascii ("WITH RECURSIVE type_chain(original_oid, type_oid, base_oid, type_modifier) AS (" ++
    "SELECT oid, oid, typbasetype, typtypmod FROM pg_catalog.pg_type WHERE oid IN (") ++
  List.intercalate (ascii ",") (unresolved.map decimal) ++
  ascii (") UNION ALL SELECT chain.original_oid, base.oid, base.typbasetype, " ++
    "CASE WHEN chain.type_modifier >= 0 THEN chain.type_modifier ELSE base.typtypmod END " ++
    "FROM type_chain AS chain JOIN pg_catalog.pg_type AS base ON base.oid = chain.base_oid) " ++
    "SELECT original_oid::text, type_oid::text, type_modifier::text FROM type_chain " ++
    "WHERE base_oid = 0")

/-- One row of the type query: an id that was asked for, its base type and its
modifier. -/
def typeRow (unresolved : List Nat) : ResultRow → Option (Nat × Nat × Int)
  | [some original, some base, some modifier] => do
    let original ← parseUnsigned 32 original
    let base ← parseUnsigned 32 base
    let modifier ← parseSigned32 modifier
    guard (base ≠ 0 ∧ original ∈ unresolved)
    return (original, base, modifier)
  | _ => none

def enterTypeRows (profile : PgCatalogProfile) (unresolved : List Nat) :
    List Nat → ResolvedTypeMap → List ResultRow → Option ResolvedTypeMap
  | _, resolved, [] => some resolved
  | seen, resolved, row :: rows => do
    let (original, base, modifier) ← typeRow unresolved row
    guard (original ∉ seen)
    let type := describeParameter backend profile base modifier
    enterTypeRows profile unresolved (original :: seen)
      (resolved.map fun entry => if entry.1 = original then (original, type) else entry) rows

/-- Run the type query inside a resolver phase. -/
def discoverTypes (resolved : ResolvedTypeMap) (unresolved : List Nat)
    (deadline : Nat) : Io σ (BackendResult ResolvedTypeMap) := do
  let unresolved := unresolved.insertionSort (· ≤ ·)
  match ← executeQuery env settings backend (typeQuery unresolved) deadline with
  | .error failure => return .error { failure with operation := .resolveTypes }
  | .value types _ =>
    match enterTypeRows backend profile unresolved [] resolved types.rows with
    | some resolved => return .value resolved
    | none =>
      let session ← get
      return .error
        { invalidMetadata "Data source returned invalid parameter type metadata" with
          operation := .resolveTypes
          sessionState := session.sessionState
          disposition := dispositionOf session.sessionState }

/-- Suspend cancellation claims, which an endpoint with a claim refuses. -/
def enterResolver (suspended : Bool) : Io σ Bool :=
  if suspended then ask env.enterResolver else return true

/-- Leave the resolver phase however the discovery ends. -/
def withinResolver {α : Type} (suspended : Bool) (body : Io σ α) : Io σ α := do
  let result ← tryCatch body fun thrown => do
    Program.onlyIf suspended (tell env.leaveResolver)
    throw thrown
  Program.onlyIf suspended (tell env.leaveResolver)
  return result

/-- `PgDatabaseConnection::resolve_types`. -/
def discoveredTypes (deadline : Nat) (ids : List Nat) : Io σ (BackendResult ResolvedTypeMap) := do
  let (resolved, unresolved) := describeKnown backend profile ids
  if unresolved = [] then return .value resolved
  else
    let session ← get
    if !(← enterResolver env session.cancellationOperation) then return .value resolved
    else
      withinResolver env session.cancellationOperation
        (do
          allocate env
          discoverTypes env settings backend profile resolved unresolved deadline)

def resolveTypes (deadline : Nat) (ids : List Nat) : Io σ (BackendResult ResolvedTypeMap) :=
  match backend.typeResolution with
  | .described => describedTypes backend ids
  | .discovered profile => discoveredTypes env settings backend profile deadline ids

/-! ## Prepared operations -/

/-- Whether the parameter values stay within their limits, given the bytes of
those before. -/
def parametersFit (limits : InputLimits) : Nat → List QueryParameter → Bool
  | _, [] => true
  | bytes, parameter :: rest =>
    let size := (parameter.value.map List.length).getD 0
    if limits.maxParameterBytes < size ∨ limits.maxParameterTotalBytes - bytes < size then false
    else parametersFit limits (bytes + size) rest

def executePrepared (sql : Bytes) (parameters : List QueryParameter) (deadline : Nat) :
    Io σ (BackendResult QueryResult) := do
  let session ← get
  let limits := settings.inputLimits
  if session.connected ∧ (limits.maxSqlBytes < sql.length ∨
      limits.maxParameters < parameters.length ∨ !parametersFit limits 0 parameters) then
    rejectRequestLimit .executePrepared
  else
    guardOperation env .executePrepared do
      let floating ← ask env.floating
      exchange env settings backend (resolveTypes env settings backend deadline) deadline
        .preparedExecution []
        (createPreparedQuery settings.profile floating sql parameters limits.maxRequestWireBytes)

def describeStatement (sql : Bytes) (types : List QueryParameterType) (deadline : Nat) :
    Io σ (BackendResult QueryResult) := do
  let session ← get
  let limits := settings.inputLimits
  if session.connected ∧ (limits.maxSqlBytes < sql.length ∨ limits.maxParameters < types.length) then
    rejectRequestLimit .describe
  else
    guardOperation env .describe <|
      exchange env settings backend (resolveTypes env settings backend deadline) deadline
        .description []
        (createStatementDescription settings.profile sql types limits.maxRequestWireBytes)

end

/-- The operations of a connection. -/
inductive Operation where
  | executeQuery (sql : Bytes)
  | executeCleanupQuery (sql expected : Bytes)
  | executePrepared (sql : Bytes) (parameters : List QueryParameter)
  | describeStatement (sql : Bytes) (types : List QueryParameterType)
deriving DecidableEq

namespace Operation

def run {σ : Type} (env : Environment σ) (settings : Settings) (backend : Backend)
    (deadline : Nat) : Operation → Io σ (BackendResult QueryResult)
  | .executeQuery sql => Connection.executeQuery env settings backend sql deadline
  | .executeCleanupQuery sql expected =>
    Connection.executeCleanupQuery env settings backend sql expected deadline
  | .executePrepared sql parameters =>
    Connection.executePrepared env settings backend sql parameters deadline
  | .describeStatement sql types =>
    Connection.describeStatement env settings backend sql types deadline

def resolvesTypes : Operation → Bool
  | .executeQuery _ | .executeCleanupQuery _ _ => false
  | .executePrepared _ _ | .describeStatement _ _ => true

def Encodes (settings : Settings) (request : Bytes) : Operation → Prop
  | .executeQuery sql | .executeCleanupQuery sql _ =>
    createSimpleQuery sql settings.inputLimits.maxRequestWireBytes = .ok request
  | .executePrepared sql parameters =>
    ∃ floating, createPreparedQuery settings.profile floating sql parameters
      settings.inputLimits.maxRequestWireBytes = .ok request
  | .describeStatement sql types =>
    createStatementDescription settings.profile sql types
      settings.inputLimits.maxRequestWireBytes = .ok request

end Operation

end Odbcpp.Connection
