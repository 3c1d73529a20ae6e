import Odbcpp.Odbc.Transactions

/-!
# Command arrays and their results

`publish_command_batch` and `more_results` of `odbc/odbc_handles.cpp`, with the end of
`execute_parameter_array` that runs a command array. The outcomes of a batch are staged in slot
order; the first count is published at once and the rest wait for SQLMoreResults. Rows, descriptors
and bookmarks of a current result are left out. A dynamic function is the statement kind it stands
for.
-/

namespace Odbcpp.Odbc

open Foundation Database Connection Postgres Util

/-! ## Statement state -/

inductive ParamStatus where
  | success | error | unused
deriving DecidableEq

structure DiagnosticHeader where
  cursorRowCount : Nat := 0
  rowCount : Nat := 0
  dynamicFunction : Option StatementKind := none
deriving DecidableEq

structure DiagnosticRecord extends PostedDiagnostic where
  rowNumber : Option Nat := none
deriving DecidableEq

structure DeferredParameterDiagnostic where
  sqlstate : Bytes
  ordinal : Nat
deriving DecidableEq

/-- A result that `SQLMoreResults` will give. -/
structure PendingResult where
  value : QueryResult
  parameterDiagnostic : Option DeferredParameterDiagnostic := none
  parameterArrayHeader : Option DiagnosticHeader := none
deriving DecidableEq

/-- The fields of a statement that its results are delivered through. The two
application buffers are absent where none is bound. -/
structure StatementResults where
  needsData : Bool := false
  resultSequence : Bool := false
  maxRows : Nat := 0
  statuses : Option (List ParamStatus) := none
  processed : Option Nat := none
  executed : Bool := false
  affectedRows : Nat := 0
  pendingResults : List PendingResult := []
  header : DiagnosticHeader := {}
  diagnostics : List DiagnosticRecord := []
deriving DecidableEq

namespace StatementResults

variable (statement : StatementResults)

def outputStatus (slot : Nat) (value : ParamStatus) : StatementResults :=
  { statement with statuses := statement.statuses.map (·.set slot value) }

def outputProcessed (examined : Nat) : StatementResults :=
  { statement with processed := statement.processed.map fun _ => examined }

def clearCurrentResult : StatementResults :=
  { statement with affectedRows := 0, executed := false }

def clearPendingResults : StatementResults :=
  { statement with pendingResults := [] }

def clearDiagnostics : StatementResults :=
  { statement with diagnostics := [], header := {} }

/-- Replace all records by one whose text is valid UTF-8. -/
def setError (sqlstate message : Bytes) : StatementResults :=
  { statement with
    diagnostics := [{ state := sqlstate, message := replaceInvalidUtf8 message }] }

/-- Add a record for a row, as long as records can still be numbered. -/
def addAttributedDiagnostic (sqlstate message : Bytes) (row : Nat) : StatementResults :=
  if 32767 ≤ statement.diagnostics.length then statement
  else
    { statement with
      diagnostics := statement.diagnostics ++
        [{ state := sqlstate, message := replaceInvalidUtf8 message, rowNumber := some row }] }

def applyParameterArrayCount (header : DiagnosticHeader) : StatementResults :=
  { statement with header, affectedRows := header.rowCount, executed := true }

end StatementResults

abbrev Stating := Program Thrown StatementResults

/-- Publish an ordinary result; its further results wait behind those already pending. -/
def applyQueryResult (platform : Platform) (result : QueryResult) : Stating Unit := do
  if !validExecutionStructure result then
    throw (.invalidArgument "Data source returned invalid execution sequence")
  else
    modify fun statement =>
      let visible := if 0 < statement.maxRows then min result.rows.length statement.maxRows
        else result.rows.length
      { statement with
        pendingResults := statement.pendingResults ++
          result.additionalResults.map fun item => { value := { toQueryItem := item } }
        executed := true
        affectedRows := min result.affectedRows platform.sqllenMax
        header :=
          { cursorRowCount := min visible platform.sqllenMax
            rowCount := min result.affectedRows platform.sqllenMax
            dynamicFunction := result.statementKind.or statement.header.dynamicFunction } }

/-! ## Staging a batch -/

/-- The locals of the loop over the outcomes. -/
structure Staging where
  results : List PendingResult := []
  failed : Bool := false
  successful : Nat := 0
  allZeroSearched : Bool := true
deriving DecidableEq

/-- Whether a command searched for rows and found none. -/
def zeroSearched (result : QueryResult) : Bool :=
  result.affectedRows = 0 &&
    (result.statementKind = some .updateWhere || result.statementKind = some .deleteWhere)

def countHeader (current : DiagnosticHeader) (result : QueryResult) : DiagnosticHeader :=
  { cursorRowCount := 0
    rowCount := result.affectedRows
    dynamicFunction := result.statementKind.or current.dynamicFunction }

section

variable (platform : Platform) (normalize : BackendError → Option Bytes)

def stageSuccess (staging : Staging) : Option QueryResult → Stating Staging
  | none => throw (.invalidArgument "Invalid command array completion")
  | some result => do
    if platform.sqllenMax < result.affectedRows then
      throw (.invalidArgument "Invalid command array completion")
    else
      let statement ← get
      return { staging with
        successful := staging.successful + 1
        allZeroSearched := staging.allZeroSearched && zeroSearched result
        results := staging.results ++
          [{ value := result, parameterArrayHeader := some (countHeader statement.header result) }] }

def stageFailure (slot : Nat) (staging : Staging) : Option BackendError → Stating Staging
  | none => throw (.invalidArgument "Missing command array error")
  | some error => do
    let sqlstate := queryFailureSqlstate normalize error "HY000"
    modify (·.addAttributedDiagnostic sqlstate error.message (slot + 1))
    return { staging with
      failed := true
      results := staging.results ++
        [{ value := { error := some error }
           parameterDiagnostic := some ⟨sqlstate, slot + 1⟩ }] }

/-- One iteration of the loop. A status is stored before its outcome is checked. -/
def stageOutcome (slot : Nat) (staging : Staging) (outcome : PreparedCommandOutcome) :
    Stating Staging :=
  match outcome.state with
  | .succeeded => do
    modify (·.outputStatus slot .success)
    stageSuccess platform staging outcome.result
  | .failed => do
    modify (·.outputStatus slot .error)
    stageFailure normalize slot staging outcome.error
  | .skipped | .notAttempted => return staging

/-- The loop over the outcomes, from `slot` on. -/
def stageOutcomes : Nat → Staging → List PreparedCommandOutcome → Stating Staging
  | _, staging, [] => return staging
  | slot, staging, outcome :: rest => do
    stageOutcomes (slot + 1) (← stageOutcome platform normalize slot staging outcome) rest

end

/-- Publish the first count and leave the rest pending. Counts are staged whenever a
command succeeded, so there is a first result. -/
def publishStaged (deferred : Bool) (staging : Staging) : Stating SqlReturn :=
  match staging.results with
  | { parameterArrayHeader := some header, .. } :: rest => do
    modify fun statement =>
      { statement with pendingResults := rest }.applyParameterArrayCount header
    return if staging.failed then .successWithInfo
      else if deferred && staging.allZeroSearched then .noData
      else .success
  | _ => throw (.invalidArgument "Missing command array count header")

/-- What the call reports after the loop. -/
def finishBatch (deferred terminal : Bool) (staging : Staging) : Stating SqlReturn := do
  modify fun statement => statement.clearCurrentResult.clearPendingResults
  if terminal then
    Program.onlyIf (!staging.failed)
      (modify (·.setError (ascii "HY000") (ascii "Command array session was retired")))
    return .error
  else if staging.successful = 0 then return if staging.failed then .error else .success
  else publishStaged deferred staging

/-! ## Calls -/

/-- A statement and the connection it belongs to. -/
structure Executing (σ : Type) where
  driver : Driver σ
  statement : StatementResults

variable {σ α : Type}

def onDriver (program : Driving σ α) : Program Thrown (Executing σ) α :=
  Program.onPart Executing.driver (fun driver state => { state with driver }) program

def onStatement (program : Stating α) : Program Thrown (Executing σ) α :=
  Program.onPart Executing.statement (fun statement state => { state with statement }) program

def reportFailure (normalize : BackendError → Option Bytes) (failure : BackendError) :
    Stating SqlReturn := do
  modify (·.setError (queryFailureSqlstate normalize failure "HY000") failure.message)
  return .error

/-- The handlers of an array: any exception closes the connection. -/
def closingArray (allocationText : String) (body : Program Thrown (Executing σ) SqlReturn) :
    Program Thrown (Executing σ) SqlReturn :=
  tryCatch body fun thrown => do
    onDriver (updateHandle ConnectionHandle.closeConnection)
    let text := if thrown = .badAlloc then allocationText else "Invalid command array outcome"
    let sqlstate := if thrown = .badAlloc then "HY001" else "HY000"
    onStatement (modify fun statement =>
      statement.clearCurrentResult.clearPendingResults.setError (ascii sqlstate) (ascii text))
    return .error

variable (lease : BackendLease σ) (platform : Platform)

/-- Mark every slot unused and begin the transaction, then go on. -/
def openArray (size deadline : Nat) (body : Program Thrown (Executing σ) SqlReturn) :
    Program Thrown (Executing σ) SqlReturn := do
  onStatement (modify fun statement =>
    { statement with statuses := statement.statuses.map fun _ => List.replicate size .unused
      }.outputProcessed 0)
  match ← onDriver (beginTransactionIfNeeded lease deadline) with
  | .error failure => onStatement (reportFailure lease.normalizeErrorSqlstate failure)
  | .value _ _ => body

variable (deferred : Bool)

/-- What is made of the answer to a batch, after the connection was settled with it. -/
def publishBatch : BackendResult PreparedCommandBatchResult → Stating SqlReturn
  | .error failure => do
    modify fun statement => statement.clearCurrentResult.clearPendingResults
    reportFailure lease.normalizeErrorSqlstate failure
  | .value batch snapshot => do
    modify (·.outputProcessed batch.examined)
    let staging ← stageOutcomes platform lease.normalizeErrorSqlstate 0 {} batch.outcomes
    finishBatch deferred (SessionSnapshot.terminal snapshot) staging

/-- Run a batch, settle the connection with its answer and publish it. -/
def exchangeBatch (sql : Bytes) (sets : List (List QueryParameter))
    (deadline : Nat) : Program Thrown (Executing σ) SqlReturn := do
  let result ← onDriver (settled (lease.executeCommandBatch sql sets deadline))
  onStatement (publishBatch lease platform deferred result)

/-- `publish_command_batch`. Deferred input opens the array here; other arrays were
opened by `execute_parameter_array`. -/
def publishCommandBatch (sql : Bytes) (sets : List (List QueryParameter))
    (deadline : Nat) : Program Thrown (Executing σ) SqlReturn :=
  let publish := exchangeBatch lease platform deferred sql sets deadline
  closingArray "Unable to publish command array"
    (if deferred then openArray lease sets.length deadline publish else publish)

/-- A described command array: the last part of `execute_parameter_array`, or the end
of deferred input. -/
def runCommandArray (sql : Bytes) (sets : List (List QueryParameter))
    (deadline : Nat) : Program Thrown (Executing σ) SqlReturn :=
  let publish := publishCommandBatch lease platform deferred sql sets deadline
  if deferred then publish
  else closingArray "Unable to materialize command array"
    (openArray lease sets.length deadline publish)

/-- Deliver a pending result. An array error keeps the state and the ordinal it was
staged with. -/
def deliverPending (next : PendingResult) : Stating SqlReturn :=
  match next.value.error, next.parameterArrayHeader with
  | some error, _ => do
    modify (·.clearPendingResults)
    match next.parameterDiagnostic with
    | some diagnostic =>
      modify (·.addAttributedDiagnostic diagnostic.sqlstate error.message diagnostic.ordinal)
    | none =>
      modify (·.setError (queryFailureSqlstate lease.normalizeErrorSqlstate error "42000")
        error.message)
    return .error
  | none, some header => do
    modify (·.applyParameterArrayCount header)
    return .success
  | none, none => do
    applyQueryResult platform next.value
    return .success

/-- The handler of a failed delivery: nothing of an array stays visible. -/
def guardDelivery (next : PendingResult) (body : Program Thrown (Executing σ) SqlReturn) :
    Program Thrown (Executing σ) SqlReturn :=
  tryCatch body fun thrown => do
    Program.onlyIf (next.parameterArrayHeader.isSome || next.parameterDiagnostic.isSome) do
      onStatement (modify fun statement => statement.clearPendingResults.clearCurrentResult)
      onDriver (updateHandle ConnectionHandle.closeConnection)
    throw thrown

/-- `advance` is the next result of a parameter result sequence, where one is pending. -/
def moreResults (advance : Program Thrown (Executing σ) SqlReturn) :
    Program Thrown (Executing σ) SqlReturn := do
  let state ← get
  if state.statement.needsData then
    onStatement (modify fun statement => statement.clearDiagnostics.setError (ascii "HY010")
      (ascii "Statement needs parameter data"))
    return .error
  else if state.statement.resultSequence then advance
  else
    onStatement (modify (·.clearCurrentResult))
    match state.statement.pendingResults with
    | [] => return .noData
    | next :: rest => do
      onStatement (modify fun statement => { statement with pendingResults := rest })
      guardDelivery next (onStatement (deliverPending lease platform next))

/-- What the application sees of a call: its return code, the row count there is and
the records. -/
structure CallReport where
  ret : SqlReturn
  rowCount : Option Nat := none
  diagnostics : List DiagnosticRecord := []
deriving DecidableEq

def StatementResults.report (statement : StatementResults) (ret : SqlReturn) : CallReport :=
  { ret
    rowCount := if statement.executed then some statement.affectedRows else none
    diagnostics := statement.diagnostics }

/-- Make a call through the C interface, which clears the records first and turns
exceptions into errors. -/
def invoke (body : Program Thrown (Executing σ) SqlReturn) (start : Executing σ) :
    CallReport × Executing σ :=
  match body.outcome { start with statement := start.statement.clearDiagnostics } with
  | (.ok ret, final) => (final.statement.report ret, final)
  | (.error thrown, final) =>
    let sqlstate := if thrown = .badAlloc then "HY001" else "HY000"
    let text := if thrown = .badAlloc then "Memory allocation failed"
      else "Unexpected internal driver exception"
    let statement := final.statement.setError (ascii sqlstate) (ascii text)
    (statement.report .error, { final with statement })

def moreReports (advance : Program Thrown (Executing σ) SqlReturn) :
    Nat → Executing σ → List CallReport
  | 0, _ => []
  | calls + 1, start =>
    let (report, next) := invoke (moreResults lease platform advance) start
    report :: moreReports advance calls next

end Odbcpp.Odbc
