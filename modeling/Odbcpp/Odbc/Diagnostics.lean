import Odbcpp.Database.BackendResult
import Odbcpp.Odbc.GetData

/-!
# Diagnostics of backend failures

`request_sqlstate`, `mapped_backend_sqlstate` and `query_failure_sqlstate` of
`odbc/odbc_handles.cpp`: the SQLSTATE an application sees for a failed backend
operation. The provider's own normalization of server errors, for the statement at
hand, is a parameter.
-/

namespace Odbcpp.Odbc

open Foundation Database

/-- A diagnostic record whose texts may come from the backend. -/
structure PostedDiagnostic where
  state : Bytes
  message : Bytes
deriving DecidableEq

/-- A record of the driver's own. -/
def PostedDiagnostic.make (state message : String) : PostedDiagnostic :=
  ⟨ascii state, ascii message⟩

/-- A return code and the record posted with it. -/
structure CallReply where
  ret : SqlReturn
  diagnostic : Option PostedDiagnostic := none
deriving DecidableEq

namespace CallReply

def success : CallReply := ⟨.success, none⟩

def post (diagnostic : PostedDiagnostic) : CallReply := ⟨.error, some diagnostic⟩

/-- Fail with a SQLSTATE and a text of the driver's own. -/
def fail (state message : String) : CallReply := post (.make state message)

end CallReply

def isTimeoutError (code : ErrorCode) : Bool := code = .db .timeout

def isConnectionLoss (code : ErrorCode) : Bool :=
  code = .db .networkError || code = .db .tlsError || code = .db .protocolError ||
    code = .db .notConnected || code = .db .connectionFailed

def requestSqlstate (code : ErrorCode) (fallback : Bytes) : Bytes :=
  if isTimeoutError code then ascii "HYT00"
  else if code = .db .allocationFailure then ascii "HY001"
  else if code = .db .resourceLimit then ascii "HY000"
  else if code = .db .unsupportedFeature then ascii "HYC00"
  else if isConnectionLoss code then ascii "08S01"
  else fallback

/-- Five digits or capital letters. -/
def isSqlstate (state : Bytes) : Bool :=
  state.length = 5 && state.all fun letter =>
    (code '0' ≤ letter && letter ≤ code '9') || (code 'A' ≤ letter && letter ≤ code 'Z')

variable (normalizeErrorSqlstate : BackendError → Option Bytes) (error : BackendError)

/-- The provider's state for an error, unless it is not one. -/
def mappedBackendSqlstate (fallback : Bytes) : Bytes :=
  match normalizeErrorSqlstate error with
  | some state => if isSqlstate state then state else fallback
  | none => fallback

def queryFailureSqlstate (fallback : String) : Bytes :=
  if error.errorClass = .invalidMetadata then ascii "HY000"
  else if error.operation = .resolveTypes then requestSqlstate error.code (ascii "HY000")
  else if error.code ≠ .db .queryFailed then requestSqlstate error.code (ascii fallback)
  else mappedBackendSqlstate normalizeErrorSqlstate error
    (requestSqlstate error.code (ascii fallback))

/-- Report a failed backend operation. -/
def CallReply.queryFailure (fallback : String) : CallReply :=
  .post ⟨queryFailureSqlstate normalizeErrorSqlstate error fallback, error.message⟩

/-- What the C interface reports for an exception that reached it. -/
def CallReply.unexpected : Thrown → CallReply
  | .badAlloc => .fail "HY001" "Memory allocation failed"
  | _ => .fail "HY000" "Unexpected internal driver exception"

end Odbcpp.Odbc
