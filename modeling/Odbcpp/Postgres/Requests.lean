import Odbcpp.Postgres.Markers
import Odbcpp.Postgres.QueryResult
import Odbcpp.Util.Hex

/-!
# Request encoders

The three request encoders of `PgProtocolParser`. Budgets are counted before a byte is emitted, as
in the source. `FloatingContext` holds what the constructor of `NativeIeeeContext`, its conversions
and its restoration answer during one request.
-/

namespace Odbcpp.Postgres

open Foundation Database Util

inductive QueryParameterType where
  | unspecified | text | int16 | int32 | int64 | float32 | float64 | numeric | boolean | binary
  | date | time | timestamp
deriving DecidableEq

structure QueryParameter where
  value : Option Bytes
  type : QueryParameterType := .unspecified
  binaryInput : Bool := false
deriving DecidableEq

variable (profile : PgCatalogProfile)

def postgresTypeOid : QueryParameterType → Nat
  | .unspecified => 0
  | .boolean => 16
  | .binary => if profile = .redshift then 6551 else 17
  | .int64 => 20
  | .int16 => 21
  | .int32 => 23
  | .text => 25
  | .float32 => 700
  | .float64 => 701
  | .numeric => 1700
  | .date => 1082
  | .time => 1083
  | .timestamp => 1114

/-! ## Native IEEE parameters -/

inductive ConversionErrno where
  | none | range | other
deriving DecidableEq

/-- What one `strtof_l` or `strtod_l` call reports. -/
structure Conversion where
  consumed : Nat
  finite : Bool
  errno : ConversionErrno
  isZero : Bool
  bits : Nat
deriving DecidableEq

/-- One `NativeIeeeContext`: whether its locale was created, what conversions to a type of `width`
bytes report, and whether the environment is restored. -/
structure FloatingContext where
  ready : Bool
  convert : (width : Nat) → Bytes → Conversion
  restored : Bool

/-- The whole text as a plain finite decimal: `some` with whether its coefficient
has a nonzero digit. -/
def nativeIeeeDecimal (text : Bytes) : Option Bool :=
  let unsigned := if text.head? = some (code '-') then text.drop 1 else text
  let whole := unsigned.takeWhile isDigit
  let afterWhole := unsigned.dropWhile isDigit
  let point := afterWhole.head? = some (code '.')
  let fraction := if point then (afterWhole.drop 1).takeWhile isDigit else []
  let rest := if point then (afterWhole.drop 1).dropWhile isDigit else afterWhole
  let digits := whole ++ fraction
  if digits = [] then none
  else
    let complete :=
      if rest.head? = some (code 'e') ∨ rest.head? = some (code 'E') then
        let exponent := rest.drop 1
        let magnitude :=
          if exponent.head? = some (code '+') ∨ exponent.head? = some (code '-') then
            exponent.drop 1
          else exponent
        magnitude ≠ [] ∧ magnitude.all isDigit
      else rest = []
    if complete then some (digits.any (· != code '0')) else none

/-- The big-endian IEEE bytes of a text, when its conversion is complete, finite
and does not flush a nonzero coefficient to zero. -/
def encodeNativeIeee (width : Nat) (context : FloatingContext) (text : Bytes) : Option Bytes := do
  let nonzeroCoefficient ← nativeIeeeDecimal text
  guard context.ready
  let conversion := context.convert width text
  guard (conversion.consumed = text.length ∧ conversion.finite ∧
    (conversion.errno = .none ∨ conversion.errno = .range) ∧
    (!conversion.isZero ∨ !nonzeroCoefficient))
  return bigEndian width conversion.bits

variable (context : Option FloatingContext) (parameter : QueryParameter)

def nativeIeeeParameter : Option Bytes := do
  let context ← context
  let value ← parameter.value
  guard (context.ready ∧ profile = .redshift ∧ !parameter.binaryInput ∧ value ≠ [] ∧
    value.length ≤ 2 ^ 31 - 1)
  match parameter.type with
  | .float32 => encodeNativeIeee 4 context value
  | .float64 => encodeNativeIeee 8 context value
  | _ => none

/-! ## Encoders -/

variable (sql : Bytes)

/-- Refuse a text that a NUL-terminated field would cut short. -/
def rejectSqlNul : Except Thrown Unit :=
  if 0 ∈ sql then .error (.invalidArgument "SQL text contains an embedded NUL byte") else .ok ()

/-- A message from its tag to its patched length: `begin_message`, the appended
body and `finish_message`. -/
def frame (tag : Char) (body : Bytes) : Except Thrown Bytes :=
  if 2 ^ 32 - 1 < body.length + 4 then .error (.lengthError "PostgreSQL message is too large")
  else .ok (code tag :: bigEndian 4 (body.length + 4) ++ body)

/-- Claim `bytes` of a request budget, given the bytes claimed before. -/
def addBudget (maxWireBytes wireBytes bytes : Nat) : Except Thrown Nat :=
  if maxWireBytes - wireBytes < bytes then .error .requestWireLimitExceeded
  else .ok (wireBytes + bytes)

def createSimpleQuery (maxWireBytes : Nat) : Except Thrown Bytes := do
  if maxWireBytes < 6 ∨ min (maxWireBytes - 6) (2 ^ 32 - 1 - 5) < sql.length then
    throw .requestWireLimitExceeded
  rejectSqlNul sql
  return code 'Q' :: bigEndian 4 (4 + sql.length + 1) ++ sql ++ [0]

/-- Raw native bytes are sent for Redshift VARBYTE. -/
def rawBinary : Bool :=
  profile = .redshift && parameter.type = .binary

/-- Whether a value goes out as hexadecimal text. -/
def hexBinary : Bool :=
  !rawBinary profile parameter && (parameter.type = .binary || parameter.binaryInput)

/-- The largest value a parameter may have: its encoding must fit an `Int32`
length. -/
def parameterMaximum : Nat :=
  if hexBinary profile parameter then (2 ^ 31 - 1 - 2) / 2 else 2 ^ 31 - 1

/-- First pass over a parameter: claim the size of its value. -/
def addParameter (maxWireBytes wireBytes : Nat) (parameter : QueryParameter) : Except Thrown Nat :=
  match parameter.value with
  | none => .ok wireBytes
  | some value =>
    match nativeIeeeParameter profile context parameter with
    | some native => addBudget maxWireBytes wireBytes native.length
    | none => do
      if parameterMaximum profile parameter < value.length then
        throw (.lengthError "PostgreSQL parameter value is too large")
      addBudget maxWireBytes wireBytes
        (if hexBinary profile parameter then 2 + 2 * value.length else value.length)

variable (parameters : List QueryParameter)

/-- Whether the Bind message carries a format code for each parameter. -/
def explicitFormats : Bool :=
  parameters.any fun parameter =>
    rawBinary profile parameter || (nativeIeeeParameter profile context parameter).isSome

def formatCode : Nat :=
  if rawBinary profile parameter || (nativeIeeeParameter profile context parameter).isSome then 1
  else 0

/-- Third pass: the length-prefixed value of a parameter. -/
def appendParameter : Except Thrown Bytes :=
  match parameter.value with
  | none => .ok (bigEndian 4 (2 ^ 32 - 1))
  | some value =>
    match nativeIeeeParameter profile context parameter with
    | some image => .ok (bigEndian 4 image.length ++ image)
    | none => do
      if parameterMaximum profile parameter < value.length then
        throw (.lengthError "PostgreSQL parameter value is too large")
      let encoded :=
        if hexBinary profile parameter then ascii "\\x" ++ encodeHex value else value
      return bigEndian 4 encoded.length ++ encoded

def parseBody (types : List QueryParameterType) : Bytes :=
  [0] ++ (sql ++ [0]) ++ bigEndian 2 types.length ++
    types.flatMap fun type => bigEndian 4 (postgresTypeOid profile type)

/-- Bind of the unnamed portal; all result columns use text. -/
def bindBody (values : List Bytes) : Bytes :=
  let explicit := explicitFormats profile context parameters
  [0] ++ [0] ++ bigEndian 2 (if explicit then parameters.length else 0) ++
    (if explicit then
      parameters.flatMap fun parameter => bigEndian 2 (formatCode profile context parameter)
    else []) ++
    bigEndian 2 parameters.length ++ values.flatten ++ bigEndian 2 0

/-- The messages of one prepared execution, once its budget is known to hold. -/
def preparedMessages : Except Thrown Bytes := do
  let parse ← frame 'P' (parseBody profile sql (parameters.map (·.type)))
  let describeStatement ← frame 'D' (code 'S' :: [0])
  let values ← parameters.mapM (appendParameter profile context)
  let bind ← frame 'B' (bindBody profile context parameters values)
  let describePortal ← frame 'D' (code 'P' :: [0])
  let execute ← frame 'E' ([0] ++ bigEndian 4 0)
  let sync ← frame 'S' []
  return parse ++ describeStatement ++ bind ++ describePortal ++ execute ++ sync

def preparedBudget (maxWireBytes : Nat) : Except Thrown Nat := do
  let wireBytes ← addBudget maxWireBytes 0 51
  let wireBytes ← addBudget maxWireBytes wireBytes sql.length
  let wireBytes ← addBudget maxWireBytes wireBytes (8 * parameters.length)
  let wireBytes ←
    if explicitFormats profile context parameters then
      addBudget maxWireBytes wireBytes (2 * parameters.length)
    else pure wireBytes
  parameters.foldlM (addParameter profile context maxWireBytes) wireBytes

/-- Whether a request needs a conversion context: a floating value in a Redshift
request. -/
def needsFloatingContext : Bool :=
  profile = .redshift && parameters.any fun parameter =>
    !parameter.binaryInput && parameter.value.isSome &&
      (parameter.type = .float32 || parameter.type = .float64)

/-- The context in which the floating values of a request are converted. -/
def floatingContext (floating : FloatingContext) (parameters : List QueryParameter) :
    Option FloatingContext :=
  if needsFloatingContext profile parameters then some floating else none

/-- `NativeIeeeContext::finish` on either exit: a failed restoration replaces the
outcome. -/
def finishFloating (outcome : Except Thrown Bytes) : Except Thrown Bytes :=
  if context.any (!·.restored) then
    .error (.runtimeError "Native IEEE conversion could not restore caller floating environment")
  else outcome

def createPreparedQuery (floating : FloatingContext) (sql : Bytes)
    (parameters : List QueryParameter) (maxWireBytes : Nat) : Except Thrown Bytes := do
  rejectSqlNul sql
  if 2 ^ 16 - 1 < parameters.length then
    throw (.lengthError "too many PostgreSQL query parameters")
  let rewritten := replaceParameterMarkers sql
  if rewritten.markerCount ≠ 0 ∧ rewritten.markerCount ≠ parameters.length then
    throw (.invalidArgument "parameter marker count does not match bound parameter count")
  let context := floatingContext profile floating parameters
  finishFloating context do
    let _ ← preparedBudget profile context rewritten.sql parameters maxWireBytes
    preparedMessages profile context rewritten.sql parameters

/-- The messages of one description, once its budget is known to hold. -/
def descriptionMessages (types : List QueryParameterType) : Except Thrown Bytes := do
  let parse ← frame 'P' (parseBody profile sql types)
  let describe ← frame 'D' (code 'S' :: [0])
  let sync ← frame 'S' []
  return parse ++ describe ++ sync

def createStatementDescription
    (types : List QueryParameterType) (maxWireBytes : Nat) : Except Thrown Bytes := do
  rejectSqlNul sql
  if 2 ^ 16 - 1 < types.length then
    throw (.lengthError "too many PostgreSQL query parameters")
  let rewritten := replaceParameterMarkers sql
  if rewritten.markerCount ≠ types.length then
    throw (.invalidArgument "parameter marker count does not match described parameter count")
  let overhead := 21 + 4 * types.length
  if maxWireBytes < overhead ∨ maxWireBytes - overhead < rewritten.sql.length then
    throw .requestWireLimitExceeded
  descriptionMessages profile rewritten.sql types

end Odbcpp.Postgres
