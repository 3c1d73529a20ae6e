import Odbcpp.Foundation.Bytes

/-!
# Backend results

The owning outcome records of `backend_result.h`: error codes and their
classes, the passive session snapshot, and results that are either a value or a
`BackendError`. The native code, the retry flag and the public reason label of
an error are left out: no modelled function reads them.
-/

namespace Odbcpp.Database

open Foundation

/-- Exceptions the modelled code raises, by the handler that tells them apart.
`RequestWireLimitExceeded` is a `std::length_error`; every case but `badAlloc`
carries a text in the source. -/
inductive Thrown where
  | badAlloc
  | requestWireLimitExceeded
  | lengthError (what : String)
  | invalidArgument (what : String)
  | runtimeError (what : String)
deriving DecidableEq

namespace Thrown

/-- The text `what()` reports. -/
def what : Thrown → String
  | badAlloc => "std::bad_alloc"
  | requestWireLimitExceeded => "Database encoded request limit exceeded"
  | lengthError text => text
  | invalidArgument text => text
  | runtimeError text => text

end Thrown

inductive DbErrorCode where
  | connectionFailed | authenticationFailed | queryFailed | timeout | networkError | tlsError
  | invalidParameter | notConnected | protocolError | unsupportedFeature | resourceLimit
  | allocationFailure
deriving DecidableEq

/-- An error code of the database category, the generic timed-out condition, or
a code of another category such as a socket error. -/
inductive ErrorCode where
  | db (code : DbErrorCode)
  | timedOut
  | foreign (value : Nat)
deriving DecidableEq

inductive BackendErrorClass where
  | unknown | connection | authentication | server | timeout | transport | tls | invalidInput
  | notConnected | protocol | unsupported | invalidMetadata | resourceLimit | allocationFailure
deriving DecidableEq

def classifyBackendError : ErrorCode → BackendErrorClass
  | .timedOut => .timeout
  | .foreign _ => .unknown
  | .db .connectionFailed => .connection
  | .db .authenticationFailed => .authentication
  | .db .queryFailed => .server
  | .db .timeout => .timeout
  | .db .networkError => .transport
  | .db .tlsError => .tls
  | .db .invalidParameter => .invalidInput
  | .db .notConnected => .notConnected
  | .db .protocolError => .protocol
  | .db .unsupportedFeature => .unsupported
  | .db .resourceLimit => .resourceLimit
  | .db .allocationFailure => .allocationFailure

inductive BackendOperation where
  | unknown | executeDirect | executePrepared | describe | transaction | beginTransaction
  | commitTransaction | rollbackTransaction | setTransactionIsolation | connect | authenticate
  | startup | resolveTypes | checkHealth | resetSession | inspectSession | buildCatalogQuery
  | executeCatalog
deriving DecidableEq

inductive SessionState where
  | disconnected | idle | transaction | failedTransaction | unknown
deriving DecidableEq

inductive SessionDisposition where
  | reusable | resetRequired | retire
deriving DecidableEq

/-- Passive outcome of an operation; the default grants no reuse. -/
structure SessionSnapshot where
  state : SessionState := .unknown
  disposition : SessionDisposition := .retire
deriving DecidableEq

/-- An owning operation failure. -/
structure BackendError where
  code : ErrorCode
  message : Bytes
  errorClass : BackendErrorClass := classifyBackendError code
  nativeState : Option Bytes := none
  operation : BackendOperation := .unknown
  sessionState : SessionState := .unknown
  disposition : SessionDisposition := .retire
deriving DecidableEq

/-- The constructor every failure in the source goes through. -/
def BackendError.make (code : DbErrorCode) (message : String) : BackendError :=
  { code := .db code, message := ascii message }

inductive BackendResult (α : Type) where
  | value (value : α) (session : SessionSnapshot := {})
  | error (failure : BackendError)
deriving DecidableEq

namespace BackendResult

variable {α : Type}

def hasError : BackendResult α → Bool
  | .value _ _ => false
  | .error _ => true

def sessionSnapshot : BackendResult α → SessionSnapshot
  | .value _ session => session
  | .error failure => ⟨failure.sessionState, failure.disposition⟩

def fail (code : DbErrorCode) (message : String) : BackendResult α :=
  .error (BackendError.make code message)

end BackendResult

inductive LocalFailure where
  | invalidInput | unsupported
deriving DecidableEq

/-- A disconnected session is retired, an idle one is reusable, any other needs a reset. -/
def dispositionOf : SessionState → SessionDisposition
  | .disconnected => .retire
  | .idle => .reusable
  | _ => .resetRequired

def localBackendError (kind : LocalFailure) (message : String) (operation : BackendOperation)
    (state : SessionState) : BackendError :=
  { BackendError.make (match kind with
      | .invalidInput => .invalidParameter
      | .unsupported => .unsupportedFeature) message with
    operation := operation
    sessionState := state
    disposition := dispositionOf state }

end Odbcpp.Database
