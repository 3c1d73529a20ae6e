import Odbcpp.Connection.Operations
import Odbcpp.Odbc.Diagnostics

/-!
# Transactions of an ODBC connection

The bookkeeping of `ODBCConnection` in `odbc/odbc_handles.cpp`: `begin_transaction_if_needed`,
`reconcile_transaction_state`, `end_transaction` and the autocommit attribute, with the parts of
statement execution that touch the connection. The borrowed session is a `BackendLease`, any
programs over a state of its own. Of the statement's own checks only the cancellation verdicts
appear.
-/

namespace Odbcpp.Odbc

open Foundation Database Connection Postgres

/-! ## The borrowed session -/

inductive Provider where
  | postgres | mysql
deriving DecidableEq

inductive TransactionAction where
  | begin | commit | rollback
deriving DecidableEq

/-- Whether a parameter set was attempted, and how it ended. -/
inductive CommandState where
  | notAttempted | skipped | succeeded | failed
deriving DecidableEq

/-- What became of one parameter set. -/
structure PreparedCommandOutcome where
  state : CommandState := .notAttempted
  result : Option QueryResult := none
  error : Option BackendError := none
deriving DecidableEq

/-- The outcomes of all sets, in order. -/
structure PreparedCommandBatchResult where
  outcomes : List PreparedCommandOutcome := []
  examined : Nat := 0
deriving DecidableEq

/-- What an ODBC connection asks of the session it borrowed. -/
structure BackendLease (σ : Type) where
  provider : Provider
  normalizeErrorSqlstate : BackendError → Option Bytes
  sessionState : σ → SessionState
  executeQuery : Bytes → Nat → Program Thrown σ (BackendResult QueryResult)
  executePrepared : Bytes → List QueryParameter → Nat →
    Program Thrown σ (BackendResult QueryResult)
  /-- Describe a statement for an array of parameters. -/
  prepareCommandBatch : Bytes → Nat → Program Thrown σ (BackendResult QueryResult)
  executeCommandBatch : Bytes → List (List QueryParameter) → Nat →
    Program Thrown σ (BackendResult PreparedCommandBatchResult)
  /-- Turn a description into a sequence of results, without an exchange. -/
  startResultSequence : Program Thrown σ (BackendResult Unit)
  /-- The next result of a pending parameter result sequence. -/
  advanceResultSequence : Program Thrown σ (BackendResult QueryResult)
  disconnect : Program Thrown σ Unit

namespace TransactionAction

def operation : TransactionAction → BackendOperation
  | .begin => .beginTransaction
  | .commit => .commitTransaction
  | .rollback => .rollbackTransaction

/-- The command of `PgDatabaseConnection::transaction`. -/
def postgresCommand : TransactionAction → Bytes
  | .begin => ascii "BEGIN"
  | .commit => ascii "COMMIT"
  | .rollback => ascii "ROLLBACK"

def postgresExpected : TransactionAction → SessionSnapshot
  | .begin => ⟨.transaction, .resetRequired⟩
  | .commit | .rollback => ⟨.idle, .reusable⟩

def mysqlCommand : TransactionAction → Bytes
  | .begin => ascii "START TRANSACTION"
  | .commit => ascii "COMMIT AND NO CHAIN NO RELEASE"
  | .rollback => ascii "ROLLBACK AND NO CHAIN NO RELEASE"

def mysqlExpected : TransactionAction → SessionState
  | .begin => .transaction
  | .commit | .rollback => .idle

end TransactionAction

namespace BackendLease

variable {σ : Type} (lease : BackendLease σ) (action : TransactionAction)

/-- Retire a session whose transaction command ended in an unexpected way. -/
def rejectCompletion (message : String) : Program Thrown σ (BackendResult Unit) := do
  lease.disconnect
  return .error
    { BackendError.make .protocolError message with
      operation := action.operation
      sessionState := .disconnected
      disposition := .retire }

variable (deadline : Nat)

/-- `PgDatabaseConnection::transaction`. -/
def postgresTransaction : Program Thrown σ (BackendResult Unit) := do
  match ← lease.executeQuery action.postgresCommand deadline with
  | .error failure => return .error { failure with operation := action.operation }
  | .value _ snapshot =>
    if snapshot ≠ action.postgresExpected then
      lease.rejectCompletion action "Unexpected transaction completion state"
    else return .value () snapshot

/-- `MySqlSession::transaction_command` for a transaction action. -/
def mysqlCommand : Program Thrown σ (BackendResult Unit) := do
  match ← lease.executeQuery action.mysqlCommand deadline with
  | .error failure => return .error { failure with operation := action.operation }
  | .value result snapshot =>
    if result.columns ≠ [] ∨ result.rows ≠ [] ∨ result.affectedRows ≠ 0 ∨
        result.cellErrors ≠ [] ∨ snapshot.state ≠ action.mysqlExpected then
      lease.rejectCompletion action "MySQL session operation failed"
    else return .value () snapshot

/-- `MySqlSession::transaction`. A second START TRANSACTION would commit the active
one, so it is refused locally. -/
def mysqlTransaction : Program Thrown σ (BackendResult Unit) := do
  let state := lease.sessionState (← get)
  if state ≠ .disconnected ∧ action = .begin ∧ state ≠ .idle then
    return .error (localBackendError .invalidInput "MySQL transaction is already active"
      action.operation state)
  else lease.mysqlCommand action deadline

def transaction : Program Thrown σ (BackendResult Unit) :=
  match lease.provider with
  | .postgres => lease.postgresTransaction action deadline
  | .mysql => lease.mysqlTransaction action deadline

end BackendLease

/-! ## The connection handle -/

/-- The session can no longer be used. -/
def SessionSnapshot.terminal (snapshot : SessionSnapshot) : Bool :=
  snapshot.disposition = .retire || snapshot.state = .unknown || snapshot.state = .disconnected

def SessionState.holdsTransaction (state : SessionState) : Bool :=
  state = .transaction || state = .failedTransaction

/-- The fields of `ODBCConnection` that transactions are about. -/
structure ConnectionHandle where
  connected : Bool := true
  autocommit : Bool := true
  transactionActive : Bool := false
deriving DecidableEq

namespace ConnectionHandle

variable (handle : ConnectionHandle)

def closeConnection : ConnectionHandle :=
  { handle with connected := false, transactionActive := false }

/-- Autocommit leaves transactions outside ODBC's model. -/
def reconcileTransactionState (snapshot : SessionSnapshot) : ConnectionHandle :=
  if handle.autocommit then handle
  else if SessionState.holdsTransaction snapshot.state then
    { handle with transactionActive := true }
  else if snapshot.state = .idle then { handle with transactionActive := false }
  else handle

def settle (snapshot : SessionSnapshot) : ConnectionHandle :=
  if SessionSnapshot.terminal snapshot then handle.closeConnection
  else handle.reconcileTransactionState snapshot

/-- What a failed transaction command leaves: the session is closed, or the flag
follows its state. -/
def settleFailure (close : Bool) (snapshot : SessionSnapshot) : ConnectionHandle :=
  if close || SessionSnapshot.terminal snapshot then handle.closeConnection
  else { handle with transactionActive := SessionState.holdsTransaction snapshot.state }

end ConnectionHandle

/-- A connection handle and the session behind it. -/
structure Driver (σ : Type) where
  handle : ConnectionHandle
  backend : σ
  /-- Ghost: the statements and transaction commands handed to the backend. -/
  commands : Nat := 0

/-- Code of the connection handle. -/
abbrev Driving (σ : Type) := Program Thrown (Driver σ)

variable {σ α : Type}

def onBackend (program : Program Thrown σ α) : Driving σ α :=
  Program.onPart Driver.backend (fun backend driver => { driver with backend }) program

/-- Hand a statement or a transaction command to the backend. -/
def command (program : Program Thrown σ α) : Driving σ α := do
  modify fun driver => { driver with commands := driver.commands + 1 }
  onBackend program

def updateHandle (change : ConnectionHandle → ConnectionHandle) : Driving σ Unit :=
  modify fun driver => { driver with handle := change driver.handle }

variable (lease : BackendLease σ)

/-! ## Transactions -/

/-- The failure of a BEGIN that did not enter a transaction. -/
def unexpectedBegin : BackendError :=
  { BackendError.make .protocolError "Unexpected BEGIN completion state" with
    operation := .beginTransaction
    sessionState := .disconnected
    disposition := .retire }

/-- What the connection makes of the answer to BEGIN. -/
def settleBegin (result : BackendResult Unit) : Driving σ (BackendResult Unit) := do
  match result with
  | .error failure =>
    updateHandle (·.settleFailure false result.sessionSnapshot)
    return .error failure
  | .value _ snapshot =>
    if snapshot ≠ ⟨.transaction, .resetRequired⟩ then
      updateHandle ConnectionHandle.closeConnection
      return .error unexpectedBegin
    else
      updateHandle fun handle => { handle with transactionActive := true }
      return result

def beginTransactionIfNeeded (deadline : Nat) : Driving σ (BackendResult Unit) := do
  let driver ← get
  if driver.handle.autocommit || driver.handle.transactionActive then return .value ()
  else settleBegin (← command (lease.transaction .begin deadline))

inductive CompletionType where
  | commit | rollback
  | other (code : Int)
deriving DecidableEq

/-- What other statements of the connection are waiting for. -/
structure Pending where
  resultSequence : Bool := false
  input : Bool := false
deriving DecidableEq

def CompletionType.action : CompletionType → Option TransactionAction
  | .commit => some .commit
  | .rollback => some .rollback
  | .other _ => none

/-- What `end_transaction` decides before it reaches the backend. -/
def endTransactionAction (handle : ConnectionHandle) (pending : Pending)
    (completion : CompletionType) : Except CallReply TransactionAction :=
  if pending.resultSequence then .error (.fail "HY010" "Parameter result sequence is pending")
  else if pending.input then .error (.fail "HY010" "Statement needs parameter data")
  else
    match completion.action with
    | none => .error (.fail "HY012" "Completion type must be SQL_COMMIT or SQL_ROLLBACK")
    | some action =>
      if !handle.connected then .error (.fail "08003" "Connection is not open")
      else if handle.autocommit || !handle.transactionActive then .error .success
      else .ok action

/-- What the connection makes of the answer to COMMIT or ROLLBACK. -/
def settleEnd (result : BackendResult Unit) : Driving σ CallReply := do
  match result with
  | .error failure =>
    updateHandle (·.settleFailure (isTimeoutError failure.code) result.sessionSnapshot)
    return .queryFailure lease.normalizeErrorSqlstate failure "HY000"
  | .value _ _ =>
    updateHandle fun handle => { handle with transactionActive := false }
    return .success

def endTransaction (pending : Pending) (completion : CompletionType) (deadline : Nat) :
    Driving σ CallReply := do
  let driver ← get
  match endTransactionAction driver.handle pending completion with
  | .error reply => return reply
  | .ok action => settleEnd lease (← command (lease.transaction action deadline))

inductive AutocommitValue where
  | on | off
  | other (code : Nat)
deriving DecidableEq

def AutocommitValue.requested : AutocommitValue → Option Bool
  | .on => some true
  | .off => some false
  | .other _ => none

/-- Switching autocommit on ends the driver's transaction first. -/
def commitBeforeAutocommit (on : Bool) (pending : Pending) (deadline : Nat) :
    Driving σ CallReply := do
  let driver ← get
  if on && driver.handle.connected && driver.handle.transactionActive then
    endTransaction lease pending .commit deadline
  else return .success

def switchAutocommit (on : Bool) (pending : Pending) (deadline : Nat) : Driving σ CallReply := do
  let reply ← commitBeforeAutocommit lease on pending deadline
  if reply.ret ≠ .success then return reply
  else
    updateHandle fun handle => { handle with autocommit := on }
    return .success

/-- `set_attribute` for `SQL_ATTR_AUTOCOMMIT`; both backends support transactions. -/
def setAutocommit (pending : Pending) (value : AutocommitValue) (deadline : Nat) :
    Driving σ CallReply := do
  let driver ← get
  if pending.input then return .fail "HY010" "Statement needs parameter data"
  else if pending.resultSequence then
    return .fail "HY010" "Parameter result sequence is pending"
  else
    match value.requested with
    | none =>
      return .fail "HY024" "Autocommit must be SQL_AUTOCOMMIT_ON or SQL_AUTOCOMMIT_OFF"
    | some on =>
      if driver.handle.autocommit = on then return .success
      else switchAutocommit lease on pending deadline

/-! ## Statements -/

/-- What the cancellation endpoint says at each point. -/
structure CancellationVerdicts where
  beforeTransaction : Bool := true
  nextPhase : Bool := true
  confirmed : Bool := false
deriving DecidableEq

variable (verdicts : CancellationVerdicts)

def reportFailedBegin (failure : BackendError) : Driving σ CallReply := do
  if verdicts.confirmed ∧ failure.errorClass = .server then
    return .fail "HY008" "Statement cancelled"
  else
    Program.onlyIf (isTimeoutError failure.code) (updateHandle ConnectionHandle.closeConnection)
    return .queryFailure lease.normalizeErrorSqlstate failure "HY000"

/-- A statement's own exchange, after its transaction has begun. -/
def runStatement
    (exchange : Program Thrown σ (BackendResult QueryResult)) : Driving σ CallReply := do
  let result ← command exchange
  updateHandle (·.reconcileTransactionState result.sessionSnapshot)
  match result with
  | .error failure =>
    if verdicts.confirmed ∧ failure.errorClass = .server then
      return .fail "HY008" "Statement cancelled"
    else
      Program.onlyIf (isTimeoutError failure.code)
        (updateHandle ConnectionHandle.closeConnection)
      return .queryFailure lease.normalizeErrorSqlstate failure "42000"
  | .value _ _ =>
    if verdicts.confirmed then return .fail "HY008" "Statement cancelled"
    else return .success

/-- The dispatch `execute_direct` and `dispatch_owning_parameters` share. -/
def dispatch (verdicts : CancellationVerdicts) (deadline : Nat)
    (exchange : Program Thrown σ (BackendResult QueryResult)) : Driving σ CallReply := do
  if !verdicts.beforeTransaction then
    return .fail "HY008" "Statement cancelled before dispatch"
  else
    match ← beginTransactionIfNeeded lease deadline with
    | .error failure => reportFailedBegin lease verdicts failure
    | .value _ _ =>
      if !verdicts.nextPhase then
        return .fail (if verdicts.confirmed then "HY008" else "HY000")
          "Statement cancellation did not permit dispatch"
      else runStatement lease verdicts exchange

/-- The exception handler of a dispatched statement. Without pending input the
prepared path lets a failed allocation through. -/
def handleDispatch (rethrowsBadAlloc : Bool) (body : Driving σ CallReply) :
    Driving σ CallReply :=
  tryCatch body fun thrown =>
    if thrown = .badAlloc ∧ rethrowsBadAlloc then throw thrown
    else return .fail "HY000" thrown.what

variable (sql : Bytes)

def executeDirect (deadline : Nat) : Driving σ CallReply := do
  let driver ← get
  if !driver.handle.connected then return .fail "08001" "Connection not established"
  else handleDispatch false (dispatch lease verdicts deadline (lease.executeQuery sql deadline))

def executePrepared (parameters : List QueryParameter) (deadline : Nat) : Driving σ CallReply := do
  let driver ← get
  if !driver.handle.connected then return .fail "08001" "Connection not established"
  else
    handleDispatch true
      (dispatch lease verdicts deadline (lease.executePrepared sql parameters deadline))

/-- An exchange of an array or a result sequence, settled before its result is
published. -/
def settled (exchange : Program Thrown σ (BackendResult α)) : Driving σ (BackendResult α) := do
  let result ← command exchange
  updateHandle (·.settle result.sessionSnapshot)
  return result

/-- A step that prepares an array; only its failure is settled. -/
def stage (preparation : Program Thrown σ (BackendResult α)) :
    Driving σ (Except CallReply Unit) := do
  match ← onBackend preparation with
  | .error failure =>
    updateHandle (·.settle ⟨failure.sessionState, failure.disposition⟩)
    return .error (.queryFailure lease.normalizeErrorSqlstate failure "HY000")
  | .value _ _ => return .ok ()

/-- The handlers of an array: any exception closes the connection. -/
def closing (allocationText : String) (body : Driving σ (Option CallReply)) :
    Driving σ (Option CallReply) :=
  tryCatch body fun thrown => do
    updateHandle ConnectionHandle.closeConnection
    match thrown with
    | .badAlloc => return some (.fail "HY001" allocationText)
    | _ => return some (.fail "HY000" "Invalid command array outcome")

/-- Begin the transaction of an array and run its exchange. There is no reply where
publication decides it. -/
def runArray (deadline : Nat) (exchange : Driving σ (Option CallReply)) :
    Driving σ (Option CallReply) := do
  match ← beginTransactionIfNeeded lease deadline with
  | .error failure => return some (.queryFailure lease.normalizeErrorSqlstate failure "HY000")
  | .value _ _ => exchange

/-- The connection's part of `publish_command_batch`. -/
def runBatch (sets : List (List QueryParameter)) (deadline : Nat) : Driving σ (Option CallReply) :=
  closing "Unable to publish command array" do
    let _ ← settled (lease.executeCommandBatch sql sets deadline)
    return none

def advanceParameterResult : Driving σ (Option CallReply) := do
  let driver ← get
  if !driver.handle.connected then
    return some (.fail "08001" "Parameter result session is no longer available")
  else
    tryCatch (do let _ ← settled lease.advanceResultSequence; return none) fun thrown => do
      updateHandle ConnectionHandle.closeConnection
      throw thrown

/-- The connection's part of `execute_parameter_array` for commands: description,
transaction, batch. -/
def executeParameterArray (sets : List (List QueryParameter)) (deadline : Nat) :
    Driving σ (Option CallReply) := do
  let driver ← get
  if !driver.handle.connected then return some (.fail "08001" "Connection not established")
  else
    closing "Unable to materialize command array" do
      match ← stage lease (lease.prepareCommandBatch sql deadline) with
      | .error reply => return some reply
      | .ok () => runArray lease deadline (runBatch lease sql sets deadline)

/-- The same for queries, whose results arrive one at a time. -/
def startParameterResults (deadline : Nat) : Driving σ (Option CallReply) := do
  let driver ← get
  if !driver.handle.connected then return some (.fail "08001" "Connection not established")
  else
    closing "Unable to materialize command array" do
      match ← stage lease (lease.prepareCommandBatch sql deadline) with
      | .error reply => return some reply
      | .ok () =>
        match ← stage lease lease.startResultSequence with
        | .error reply => return some reply
        | .ok () => runArray lease deadline (advanceParameterResult lease)

/-! ## Histories -/

/-- The calls that a history consists of. -/
inductive ConnectionCall where
  | setAutocommit (pending : Pending) (value : AutocommitValue) (deadline : Nat)
  | executeDirect (verdicts : CancellationVerdicts) (sql : Bytes) (deadline : Nat)
  | executePrepared (verdicts : CancellationVerdicts) (sql : Bytes)
      (parameters : List QueryParameter) (deadline : Nat)
  | executeParameterArray (sql : Bytes) (sets : List (List QueryParameter)) (deadline : Nat)
  | startParameterResults (sql : Bytes) (deadline : Nat)
  | moreResults
  | endTran (pending : Pending) (completion : CompletionType) (deadline : Nat)

def ConnectionCall.perform : ConnectionCall → Driving σ (Option CallReply)
  | .setAutocommit pending value deadline =>
    return some (← Odbc.setAutocommit lease pending value deadline)
  | .executeDirect verdicts sql deadline =>
    return some (← Odbc.executeDirect lease verdicts sql deadline)
  | .executePrepared verdicts sql parameters deadline =>
    return some (← Odbc.executePrepared lease verdicts sql parameters deadline)
  | .executeParameterArray sql sets deadline =>
    Odbc.executeParameterArray lease sql sets deadline
  | .startParameterResults sql deadline => Odbc.startParameterResults lease sql deadline
  | .moreResults => advanceParameterResult lease
  | .endTran pending completion deadline =>
    return some (← endTransaction lease pending completion deadline)

/-- A call with the states before and after it. -/
structure ConnectionEvent (σ : Type) where
  call : ConnectionCall
  before : Driver σ
  reply : Option CallReply
  after : Driver σ

/-- Make a call through the C interface, which turns exceptions into errors. -/
def ConnectionCall.invoke (call : ConnectionCall) (driver : Driver σ) : ConnectionEvent σ :=
  let outcome := (call.perform lease).outcome driver
  { call
    before := driver
    reply := match outcome.1 with
      | .ok reply => reply
      | .error thrown => some (.unexpected thrown)
    after := outcome.2 }

@[simp] theorem ConnectionCall.invoke_before (call : ConnectionCall) (driver : Driver σ) :
    (call.invoke lease driver).before = driver := rfl

def connectionEvents : Driver σ → List ConnectionCall → List (ConnectionEvent σ)
  | _, [] => []
  | driver, call :: calls =>
    call.invoke lease driver :: connectionEvents (call.invoke lease driver).after calls

end Odbcpp.Odbc
