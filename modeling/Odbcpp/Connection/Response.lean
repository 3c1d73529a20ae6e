import Odbcpp.Connection.Wire
import Odbcpp.Foundation.Checked

/-!
# Reading a response

`read_query_result`: frames are read and checked one by one until ReadyForQuery, then the retained
messages are extracted, validated and normalized. The loop recurses on the number of messages the
limit still admits, and the remaining budgets are wrapping differences. Parameter types are resolved
by `resolve`, which may itself run a query.
-/

namespace Odbcpp.Connection

open Foundation Database Postgres

/-- What is being answered. A declined description is read for its `declined_parameter_count`
alone, and nothing follows it. -/
inductive ResponseKind where
  | simpleExecution | preparedExecution | description
  | declinedDescription (parameters : Nat)
deriving DecidableEq

namespace ResponseKind

/-- `description_response`. -/
def isDescription : ResponseKind → Bool
  | .description | .declinedDescription _ => true
  | .simpleExecution | .preparedExecution => false

def declined : ResponseKind → Option Nat
  | .declinedDescription parameters => some parameters
  | _ => none

/-- Whether the deadline is looked at before every call of the transport. -/
def enforcesDeadline (kind : ResponseKind) : Bool := !kind.isDescription || kind = .description

end ResponseKind

/-- Which message of a description comes next. -/
inductive DescriptionPhase where
  | parse | parameters | result | complete | error
deriving DecidableEq

/-- The locals of the reading loop. -/
structure Progress where
  messages : List Message := []
  queryError : Option Bytes := none
  queryErrorSqlstate : Bytes := []
  sawCompletion : Bool := false
  sawExpectedCompletion : Bool := false
  descriptionPhase : DescriptionPhase := .parse
  descriptionShape : Option DescribedResultShape := none
  wireBytes : Nat := 0
  rows : Nat := 0
  cells : Nat := 0
  results : Nat := 0
  metadataEntries : Nat := 0
  metadataNameBytes : Nat := 0
deriving DecidableEq

/-- How the treatment of one frame ends: with the result of the operation, with
the next frame, or with a drained response. -/
inductive FrameOutcome where
  | finished (result : BackendResult QueryResult)
  | next (progress : Progress)
  | drained (progress : Progress)
deriving DecidableEq

/-! ## Checks on one frame -/

/-- After an error only notices, statuses, notifications, further errors and the
final ReadyForQuery may arrive. -/
def checkAfterError (progress : Progress) (message : Message) : Except Thrown Unit :=
  if progress.queryError.isSome ∧ message.tag ≠ .noticeResponse ∧ message.tag ≠ .parameterStatus ∧
      message.tag ≠ .notificationResponse ∧ message.tag ≠ .readyForQuery ∧
      message.tag ≠ .errorResponse then
    .error (.runtimeError "PostgreSQL result frame arrived after ErrorResponse")
  else .ok ()

def checkDescriptionFrame (progress : Progress) : Tag → Except Thrown Progress
  | .parseComplete =>
    if progress.descriptionPhase ≠ .parse then
      .error (.runtimeError "PostgreSQL ParseComplete out of sequence")
    else .ok { progress with descriptionPhase := .parameters }
  | .parameterDescription =>
    if progress.descriptionPhase ≠ .parameters then
      .error (.runtimeError "PostgreSQL ParameterDescription out of sequence")
    else .ok { progress with descriptionPhase := .result }
  | .rowDescription =>
    if progress.descriptionPhase ≠ .result then
      .error (.runtimeError "PostgreSQL statement description out of sequence")
    else .ok { progress with descriptionShape := some .resultSet, descriptionPhase := .complete }
  | .noData =>
    if progress.descriptionPhase ≠ .result then
      .error (.runtimeError "PostgreSQL statement description out of sequence")
    else .ok { progress with descriptionShape := some .noResultSet, descriptionPhase := .complete }
  | .errorResponse => .ok { progress with descriptionPhase := .error }
  | .noticeResponse | .parameterStatus | .notificationResponse | .readyForQuery => .ok progress
  | _ => .error (.runtimeError "Unexpected PostgreSQL statement description frame")

def checkExecutionFrame (kind : ResponseKind) (progress : Progress) : Tag → Except Thrown Progress
  | .parseComplete | .bindComplete | .parameterDescription | .noData =>
    if kind = .simpleExecution then
      .error (.runtimeError "PostgreSQL extended-query frame arrived during simple query")
    else .ok progress
  | .rowDescription | .dataRow | .commandComplete | .emptyQueryResponse | .errorResponse
  | .noticeResponse | .parameterStatus | .notificationResponse | .readyForQuery => .ok progress
  | _ => .error (.runtimeError "Unexpected PostgreSQL query response frame")

def checkFrame (kind : ResponseKind) (progress : Progress) (tag : Tag) : Except Thrown Progress :=
  if kind.isDescription then checkDescriptionFrame progress tag
  else checkExecutionFrame kind progress tag

/-- A cleanup query must be answered by exactly one completion with the expected
tag and without results. -/
def checkExpectedCompletion (expected : Bytes) (progress : Progress) (message : Message) :
    Except Thrown Progress :=
  if expected = [] then .ok progress
  else if message.tag = .commandComplete then
    if progress.sawExpectedCompletion ∨ message.payload ≠ expected ++ [0] then
      .error (.runtimeError "Unexpected PostgreSQL reset completion")
    else .ok { progress with sawExpectedCompletion := true }
  else if message.tag = .rowDescription ∨ message.tag = .dataRow ∨
      message.tag = .emptyQueryResponse ∨
      (message.tag = .readyForQuery ∧ progress.queryError.isNone ∧
        !progress.sawExpectedCompletion) then
    .error (.runtimeError "Unexpected PostgreSQL reset response")
  else .ok progress

/-- The column count at the head of a description or a row. -/
def resultCount (payload : Bytes) : Except Thrown Nat :=
  if payload.length < 2 then .error (.runtimeError "Incomplete PostgreSQL result count")
  else .ok (ofBigEndian (payload.take 2))

/-- Count the bytes of the first column name and step over its column; `none` when
a limit is exceeded. -/
def countColumnName (limits : ResultLimits) (total : Nat) (payload : Bytes) :
    Except Thrown (Option (Nat × Bytes)) :=
  match payload.span (· != 0) with
  | (_, []) => .error (.runtimeError "Unterminated PostgreSQL column name")
  | (name, _ :: rest) =>
    if limits.maxColumnNameBytes < name.length ∨
        wrappingSub 64 limits.maxMetadataNameBytes total < name.length then .ok none
    else if rest.length < 18 then
      .error (.runtimeError "Incomplete PostgreSQL column metadata")
    else .ok (some (total + name.length, rest.drop 18))

def countColumnNames (limits : ResultLimits) : Nat → Nat → Bytes → Except Thrown (Option Nat)
  | 0, total, rest =>
    if rest ≠ [] then .error (.runtimeError "Trailing PostgreSQL column metadata")
    else .ok (some total)
  | columns + 1, total, payload => do
    match ← countColumnName limits total payload with
    | none => return none
    | some (total, rest) => countColumnNames limits columns total rest

/-- Count a frame against the result limits; `none` when one is exceeded. -/
def countFrame (limits : ResultLimits) (progress : Progress) (message : Message) :
    Except Thrown (Option Progress) :=
  match message.tag with
  | .parameterDescription => do
    let columns ← resultCount message.payload
    if limits.maxColumnsPerDescription < columns ∨
        wrappingSub 64 limits.maxMetadataEntries progress.metadataEntries < columns then return none
    return some { progress with metadataEntries := progress.metadataEntries + columns }
  | .rowDescription => do
    let columns ← resultCount message.payload
    if limits.maxColumnsPerDescription < columns ∨
        wrappingSub 64 limits.maxMetadataEntries progress.metadataEntries < columns then return none
    match ← countColumnNames limits columns progress.metadataNameBytes (message.payload.drop 2) with
    | none => return none
    | some metadataNameBytes =>
      return some { progress with
                    metadataEntries := progress.metadataEntries + columns
                    metadataNameBytes }
  | .dataRow => do
    let columns ← resultCount message.payload
    if progress.rows = limits.maxRows ∨
        wrappingSub 64 limits.maxCells progress.cells < columns then return none
    return some { progress with rows := progress.rows + 1, cells := progress.cells + columns }
  | .commandComplete | .errorResponse | .emptyQueryResponse =>
    if progress.results = limits.maxResults then .ok none
    else .ok (some { progress with results := progress.results + 1 })
  | _ => .ok (some progress)

def parameterStatus (payload : Bytes) : Option (Bytes × Bytes) :=
  match payload.span (· != 0) with
  | ([], _) | (_, []) => none
  | (key, _ :: rest) =>
    match rest.span (· != 0) with
    | (value, [_]) => some (key, value)
    | _ => none

def readyState (message : Message) : SessionState :=
  if message.payload.length ≠ 1 then .unknown
  else if message.payload = [code 'I'] then .idle
  else if message.payload = [code 'T'] then .transaction
  else .failedTransaction

/-! ## The loop -/

variable {σ : Type} (env : Environment σ) (settings : Settings)

def recordParameterStatus (message : Message) : Io σ (Except Failure Unit) :=
  match parameterStatus message.payload with
  | none => return .error (.make .protocolError "Malformed PostgreSQL ParameterStatus message")
  | some (key, value) => do
    modify fun session =>
      { session with
        serverParams := (key, value) :: session.serverParams.filter (·.1 ≠ key) }
    return .ok ()

def recordStatus (message : Message) : Io σ (Except Failure Unit) :=
  if message.tag = .parameterStatus then recordParameterStatus message else pure (.ok ())

def Failure.backendError (failure : Failure) : BackendError :=
  { code := failure.code, message := failure.message }

/-- End the operation after retiring the connection. -/
def retireResult (result : BackendResult QueryResult) : Io σ FrameOutcome := do
  markTransportFailed env
  return .finished result

/-- The handlers of both `try` blocks: retire, then report the exception. -/
def retireOnThrow {α : Type} (report : BackendResult QueryResult → α) (body : Io σ α) : Io σ α :=
  tryCatch body fun thrown => do
    markTransportFailed env
    match thrown with
    | .badAlloc => return report (.fail .allocationFailure "")
    | thrown => return report (.fail .protocolError thrown.what)

/-- Note an ErrorResponse. A terminal one ends the physical session at once. -/
def observeError (progress : Progress) (message : Message) : Io σ FrameOutcome :=
  if !isErrorResponse message then return .next progress
  else do
    let terminal ← Program.ofExcept (isTerminalErrorResponse message)
    if progress.queryError.isSome ∧ !terminal then
      throw (.runtimeError "PostgreSQL result frame arrived after ErrorResponse")
    else
      let text ← Program.ofExcept (extractErrorMessage message)
      let sqlstate ← Program.ofExcept (extractErrorSqlstate message)
      let active ← cancellationActive
      Program.onlyIf active (tell (env.errorObserved sqlstate))
      if terminal then
        retireResult env (.error
          { code := .db .networkError
            message := ascii "Query error: " ++ text
            nativeState := some sqlstate
            sessionState := .disconnected
            disposition := .retire })
      else
        return .next { progress with queryError := some text, queryErrorSqlstate := sqlstate }

def retainFrame (kind : ResponseKind) (progress : Progress) (message : Message) :
    Io σ FrameOutcome := do
  let sawCompletion := progress.sawCompletion || message.tag = .commandComplete ||
    message.tag = .errorResponse || message.tag = .emptyQueryResponse
  let ready ← Program.ofExcept (isReadyForQuery message)
  allocate env
  let progress := { progress with sawCompletion, messages := progress.messages ++ [message] }
  if !ready then return .next progress
  else
    modify fun session => { session with sessionState := readyState message }
    if !kind.isDescription ∧ !progress.sawCompletion then
      retireResult env (.fail .protocolError "PostgreSQL query ended without a completion response")
    else if kind.isDescription ∧ progress.descriptionPhase ≠ .complete ∧
        progress.descriptionPhase ≠ .error then
      retireResult env (.fail .protocolError "PostgreSQL statement description was incomplete")
    else return .drained progress

/-- The body of the loop after a frame has been read. -/
def acceptFrame (kind : ResponseKind) (expected : Bytes) (progress : Progress) (frame : Bytes) :
    Io σ FrameOutcome := do
  let active ← cancellationActive
  Program.onlyIf (active && frame.head? = some (code 'E')) (tell (env.errorObserved []))
  allocate env
  let message ← Program.ofExcept (parseMessage frame)
  Program.ofExcept (checkAfterError progress message)
  if message.tag = .copyInResponse ∨ message.tag = .copyOutResponse ∨
      message.tag = .copyBothResponse then
    disconnect env
    return .finished (.fail .unsupportedFeature "PostgreSQL COPY streaming is not supported")
  else if message.tag = .authentication ∨ message.tag = .backendKeyData then
    retireResult env (.fail .protocolError "PostgreSQL startup frame arrived during query")
  else
    let progress ← Program.ofExcept (checkFrame kind progress message.tag)
    let progress ← Program.ofExcept (checkExpectedCompletion expected progress message)
    match ← Program.ofExcept (countFrame settings.resultLimits progress message) with
    | none =>
      retireResult env (.fail .resourceLimit "Database decoded result count limit exceeded")
    | some progress =>
      match ← recordStatus message with
      | .error failure => retireResult env (.error failure.backendError)
      | .ok () =>
        match ← observeError env progress message with
        | .next progress => retainFrame env kind progress message
        | outcome => return outcome

/-- Read frames until the response is drained or the operation is over, at most
`remaining` of them. -/
def readFrames (deadline : Nat) (kind : ResponseKind) (expected : Bytes) :
    Nat → Progress → Io σ (BackendResult QueryResult ⊕ Progress)
  | 0, _ => do
    markTransportFailed env
    return .inl (.fail .resourceLimit "Database response message limit exceeded")
  | remaining + 1, progress => do
    match ← readMessageResult env settings deadline
        (wrappingSub 64 settings.responseLimits.maxWireBytes progress.wireBytes)
        kind.enforcesDeadline with
    | .error failure => return .inl (.error failure.backendError)
    | .ok frame =>
      let progress := { progress with wireBytes := progress.wireBytes + frame.length }
      match ← retireOnThrow env .finished (acceptFrame env settings kind expected progress frame) with
      | .finished result => return .inl result
      | .next progress => readFrames deadline kind expected remaining progress
      | .drained progress => return .inr progress

def drainCancellation : Io σ Unit := do
  let active ← cancellationActive
  Program.onlyIf active do
    let outcome ← ask env.drained
    modify fun session => { session with cancellationPhaseActive := false }
    Program.onlyIf outcome.retire (markTransportFailed env)

/-! ## Publishing a drained response -/

def invalidMetadata (message : String) : BackendError :=
  { BackendError.make .queryFailed message with errorClass := .invalidMetadata }

variable (backend : Backend) (resolve : List Nat → Io σ (BackendResult ResolvedTypeMap))

variable (kind : ResponseKind)

/-- The parameter types of an item, in order; every type must have been
resolved. -/
def normalizeParameterTypes (parsed : ParsedResult) :
    Io σ (Except BackendError (List NativeTypeInfo)) :=
  if kind = .simpleExecution ∨ parsed.parameterTypeIds = [] then return .ok []
  else do
    match ← resolve parsed.parameterTypeIds with
    | .error failure => return .error { failure with operation := .resolveTypes }
    | .value types _ =>
      match parsed.parameterTypeIds.mapM fun id => types.lookup id with
      | some normalized => return .ok normalized
      | none =>
        let session ← get
        return .error (annotateError .resolveTypes session
          (invalidMetadata "Data source returned incomplete parameter type metadata"))

def normalizeItem (parsed : ParsedResult) : Io σ (Except BackendError QueryItem) := do
  let session ← get
  let resultId := session.nextResultId
  modify fun session => { session with nextResultId := session.nextResultId + 1 }
  allocate env
  recordResultProvenance resultId
    (parsed.columns.map fun column => ⟨column.tableOid, column.columnAttributeNumber⟩)
  let item : QueryItem :=
    { resultId
      rows := parsed.rows
      error := parsed.error
      affectedRows := parsed.affectedRows
      statementKind := parsed.statementKind
      executionResultShape := if kind = .description then none else parsed.executionResultShape
      columns := parsed.columns.map (normalizeColumn backend settings.characterMetadata) }
  match ← normalizeParameterTypes resolve kind parsed with
  | .error failure => return .error failure
  | .ok normalizedParameterTypes =>
    return .ok (normalizeCells backend parsed { item with normalizedParameterTypes })

def normalizeItems (kind : ResponseKind) : List ParsedResult →
    Io σ (Except BackendError (List QueryItem))
  | [] => return .ok []
  | parsed :: rest => do
    match ← normalizeItem env settings backend resolve kind parsed with
    | .error failure => return .error failure
    | .ok item =>
      match ← normalizeItems kind rest with
      | .error failure => return .error failure
      | .ok items => return .ok (item :: items)

def withDescribedShape (progress : Progress) (normalized : QueryResult) : QueryResult :=
  if kind = .description ∧ progress.queryError.isNone then
    { normalized with describedResultShape := progress.descriptionShape }
  else normalized

/-- The publication of a normalized result: its structure is checked, and it must
still be within its deadline. A declined description never gets here. -/
def publishNormalized (deadline : Nat) (kind : ResponseKind) (progress : Progress)
    (normalized : QueryResult) : Io σ (BackendResult QueryResult) := do
  let normalized := withDescribedShape kind progress normalized
  if !validExecutionStructure normalized ∨
      (kind = .description ∧ !validDescriptionStructure normalized) then
    return .error (invalidMetadata "Data source returned invalid execution sequence")
  else if deadline ≤ (← now env) then
    markTransportFailed env
    return .fail .timeout "Database query deadline expired"
  else return .value normalized

def portalAuthorityMissing (result : ParsedQueryResult) : Bool :=
  result.results.any fun item => item.error.isNone && !item.preparedExecutionAuthority

/-- The end of a declined description: its parameters are counted, and nothing is published. -/
def declineDescription (deadline parameters : Nat) (result : ParsedQueryResult) :
    Io σ (BackendResult QueryResult) := do
  if result.parameterTypeIds.length ≠ parameters ∨ result.rows ≠ [] ∨
      result.additionalResults ≠ [] then
    markTransportFailed env
    return .fail .protocolError "Invalid staged parameter description"
  else if deadline ≤ (← now env) then
    markTransportFailed env
    return .fail .timeout "Prepared admission deadline elapsed"
  else return .fail .unsupportedFeature "Prepared binary admission is not qualified"

/-- Extract, validate and normalize a drained response. -/
def publishResponse (deadline : Nat) (kind : ResponseKind) (progress : Progress) :
    Io σ (BackendResult QueryResult) := do
  allocate env
  let result ← Program.ofExcept (extractQueryResult settings.profile progress.messages)
  if hasBinaryColumns result then
    return .fail .unsupportedFeature "PostgreSQL binary result format is not supported"
  else if progress.queryError.isSome ∧ (result.error.isSome ∨ result.additionalResults = []) then
    return .error
      { code := .db .queryFailed
        message := ascii "Query error: " ++ progress.queryError.getD []
        nativeState := some progress.queryErrorSqlstate }
  else if kind = .preparedExecution ∧ portalAuthorityMissing result then
    markTransportFailed env
    return .fail .protocolError "Prepared execution lacks bound portal authority"
  else if !(result.results.all validResultStructure) then
    return .error (invalidMetadata "Data source returned invalid result metadata")
  else match kind.declined with
    | some parameters => declineDescription env deadline parameters result
    | none =>
      match ← normalizeItem env settings backend resolve kind result.toParsedResult with
      | .error failure => return .error failure
      | .ok primary =>
        match ← normalizeItems env settings backend resolve kind result.additionalResults with
        | .error failure => return .error failure
        | .ok additionalResults =>
          publishNormalized env deadline kind progress
            { toQueryItem := primary, additionalResults }

def readQueryResult (deadline : Nat) (kind : ResponseKind) (expected : Bytes) :
    Io σ (BackendResult QueryResult) := do
  match ← readFrames env settings deadline kind expected settings.responseLimits.maxMessages {} with
  | .inl result => return result
  | .inr progress =>
    drainCancellation env
    retireOnThrow env id (publishResponse env settings backend resolve deadline kind progress)

end Odbcpp.Connection
