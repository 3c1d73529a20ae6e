import Odbcpp.Postgres.Messages
import Odbcpp.Util.Text

/-!
# Extracting results from a response

`PgProtocolParser::extract_query_result`: a fold over the frames of one drained response.
`Extraction` holds the five locals of the source, the result under construction and the completed
results; `Extraction.step` is one iteration. The source's parser nests no results, so there is one
flat list of them.
-/

namespace Odbcpp.Postgres

open Foundation Database Util

/-- Which server it is. -/
inductive PgCatalogProfile where
  | postgreSQL | redshift
deriving DecidableEq

inductive ExecutionResultShape where
  | noResultSet | resultSet
deriving DecidableEq

inductive StatementKind where
  | unknown | selectCursor | insert | updateWhere | deleteWhere | call | grant | revoke
  | alterDomain | alterTable | createAssertion | createCharacterSet | createCollation
  | createDomain | createIndex | createSchema | createTable | createTranslation | createView
  | dropAssertion | dropCharacterSet | dropCollation | dropDomain | dropIndex | dropSchema
  | dropTable | dropTranslation | dropView
deriving DecidableEq

/-- `none` is SQL NULL. -/
abbrev ResultCell := Option Bytes
abbrev ResultRow := List ResultCell

structure ParsedColumnMetadata where
  name : Bytes
  typeId : Nat := 0
  typeSize : Int := -1
  typeModifier : Int := -1
  formatCode : Nat := 0
  tableOid : Nat := 0
  columnAttributeNumber : Int := 0
deriving DecidableEq

/-- One result of a response, before its values are normalized. -/
structure ParsedResult where
  rows : List ResultRow := []
  columns : List ParsedColumnMetadata := []
  parameterTypeIds : List Nat := []
  error : Option BackendError := none
  affectedRows : Nat := 0
  statementKind : Option StatementKind := none
  executionResultShape : Option ExecutionResultShape := none
  preparedExecutionAuthority : Bool := false
deriving DecidableEq

structure ParsedQueryResult extends ParsedResult where
  additionalResults : List ParsedResult := []
deriving DecidableEq

def ParsedQueryResult.results (result : ParsedQueryResult) : List ParsedResult :=
  result.toParsedResult :: result.additionalResults

/-! ## Payload readers -/

/-- Two's complement reading of a `width`-bit field. -/
def signedOf (width value : Nat) : Int :=
  if value < 2 ^ (width - 1) then value else (value : Int) - 2 ^ width

def readU16 : Reader Thrown Nat :=
  Reader.unsigned (.runtimeError "truncated PostgreSQL message") 2

def readU32 : Reader Thrown Nat :=
  Reader.unsigned (.runtimeError "truncated PostgreSQL message") 4

def readCstring : Reader Thrown Bytes :=
  Reader.cstring (.runtimeError "unterminated PostgreSQL metadata string")

/-- One column value: length `-1` is NULL. -/
def readCell : Reader Thrown ResultCell := do
  let invalid := Thrown.runtimeError "invalid PostgreSQL DataRow column length"
  let length ← readU32
  if length = 0xffffffff then return none
  if 0x7fffffff < length then throw invalid
  return some (← Reader.take invalid length)

variable (payload : Bytes)

def parseDataRow : Except Thrown ResultRow :=
  Reader.runAll (do let columnCount ← readU16; Reader.many readCell columnCount)
    (.runtimeError "invalid PostgreSQL DataRow length") payload

def readColumn : Reader Thrown ParsedColumnMetadata := do
  let name ← readCstring
  let tableOid ← readU32
  let attributeNumber ← readU16
  let typeId ← readU32
  let typeSize ← readU16
  let typeModifier ← readU32
  let formatCode ← readU16
  if 1 < formatCode then throw (.runtimeError "invalid PostgreSQL result format code")
  return { name, tableOid, columnAttributeNumber := signedOf 16 attributeNumber, typeId,
           typeSize := signedOf 16 typeSize, typeModifier := signedOf 32 typeModifier, formatCode }

def parseRowDescription : Except Thrown (List ParsedColumnMetadata) :=
  Reader.runAll (do let count ← readU16; Reader.many readColumn count)
    (.runtimeError "invalid PostgreSQL RowDescription length") payload

def parseParameterDescription : Except Thrown (List Nat) :=
  Reader.runAll (do let count ← readU16; Reader.many readU32 count)
    (.runtimeError "invalid PostgreSQL ParameterDescription length") payload

def parseCommandComplete : Except Thrown Bytes :=
  readCstring.runAll (.runtimeError "invalid PostgreSQL CommandComplete length") payload

/-! ## Command tags -/

/-- The number after the last blank of a command tag, zero when it is not a
plain decimal of a 64-bit size. -/
def commandAffectedRows (commandTag : Bytes) : Nat :=
  let number := (commandTag.reverse.takeWhile (· != code ' ')).reverse
  (parseUnsigned 64 number).getD 0

/-- Command tag prefixes with the operation each one reports. -/
def commandMappings : List (String × StatementKind) :=
  [("SELECT", .selectCursor), ("INSERT", .insert), ("UPDATE", .updateWhere),
   ("DELETE", .deleteWhere), ("CALL", .call), ("GRANT", .grant), ("REVOKE", .revoke),
   ("ALTER DOMAIN", .alterDomain), ("ALTER TABLE", .alterTable),
   ("CREATE ASSERTION", .createAssertion), ("CREATE CHARACTER SET", .createCharacterSet),
   ("CREATE COLLATION", .createCollation), ("CREATE DOMAIN", .createDomain),
   ("CREATE INDEX", .createIndex), ("CREATE UNIQUE INDEX", .createIndex),
   ("CREATE SCHEMA", .createSchema), ("CREATE TABLE", .createTable),
   ("CREATE TEMP TABLE", .createTable), ("CREATE TEMPORARY TABLE", .createTable),
   ("CREATE UNLOGGED TABLE", .createTable), ("CREATE TRANSLATION", .createTranslation),
   ("CREATE VIEW", .createView), ("DROP ASSERTION", .dropAssertion),
   ("DROP CHARACTER SET", .dropCharacterSet), ("DROP COLLATION", .dropCollation),
   ("DROP DOMAIN", .dropDomain), ("DROP INDEX", .dropIndex), ("DROP SCHEMA", .dropSchema),
   ("DROP TABLE", .dropTable), ("DROP TRANSLATION", .dropTranslation),
   ("DROP VIEW", .dropView)]

/-- The operation a command tag reports: the first mapped prefix that ends the
tag or is followed by a blank. -/
def classifyCommandTag (commandTag : Bytes) : StatementKind :=
  let normalized :=
    (commandTag.dropWhile fun letter => letter = 32 || letter = 9 || letter = 13 || letter = 10).map
      toUpper
  let matching := fun (mapping : String × StatementKind) =>
    (ascii mapping.1).isPrefixOf normalized &&
      match normalized.drop (ascii mapping.1).length with
      | [] => true
      | next :: _ => isSpace next
  match commandMappings.find? matching with
  | some mapping => mapping.2
  | none => .unknown

/-! ## The extraction loop -/

/-- The state of `extract_query_result`. -/
structure Extraction where
  current : ParsedResult := {}
  completed : List ParsedResult := []
  hasRowDescription : Bool := false
  bindCompleteSinceDescription : Bool := false
  extendedExecution : Bool := false
  sawBindComplete : Bool := false
  phaseShape : Option ExecutionResultShape := none
deriving DecidableEq

namespace Extraction

/-- Move `result` to the completed results and start the next one; only
`extendedExecution` survives a completion. -/
def complete (state : Extraction) (result : ParsedResult) : Extraction :=
  { completed := state.completed ++ [result], extendedExecution := state.extendedExecution }

def commandResult (profile : PgCatalogProfile) (completedIdle : Bool) (state : Extraction)
    (commandTag : Bytes) : ParsedResult :=
  let authority := state.sawBindComplete && state.phaseShape.isSome
  let shape :=
    if !state.extendedExecution && state.phaseShape.isNone then some ExecutionResultShape.noResultSet
    else if state.extendedExecution && !authority then none
    else state.phaseShape
  let countsRows := profile = .redshift ∧ completedIdle ∧ commandTag = ascii "SELECT" ∧
    state.hasRowDescription ∧ shape = some .resultSet
  { state.current with
    statementKind := some (classifyCommandTag commandTag)
    affectedRows := if countsRows then state.current.rows.length else commandAffectedRows commandTag
    preparedExecutionAuthority := authority
    executionResultShape := shape }

def errorResult (fields : ErrorFields) : ParsedResult :=
  { error := some
      { code := .db .queryFailed
        message := ascii "Query error: " ++ (fields.lookup (code 'M')).getD []
        nativeState := some ((fields.lookup (code 'C')).getD []) } }

/-- One frame of the response. -/
def step (profile : PgCatalogProfile) (completedIdle : Bool) (state : Extraction)
    (message : Message) : Except Thrown Extraction :=
  match message.tag with
  | .parseComplete => do
    if state.sawBindComplete then
      throw (.runtimeError "PostgreSQL ParseComplete after bound portal description")
    if message.payload ≠ [] then throw (.runtimeError "invalid PostgreSQL ParseComplete")
    return { state with extendedExecution := true }
  | .rowDescription => do
    -- A statement description may be followed by the portal's own, never by a
    -- second one within the same result.
    if state.hasRowDescription ∧
        (!state.bindCompleteSinceDescription ∨ state.current.rows ≠ []) then
      throw (.runtimeError "duplicate PostgreSQL RowDescription within result")
    let columns ← parseRowDescription message.payload
    return { state with
             current := { state.current with columns }
             hasRowDescription := true
             phaseShape := some .resultSet
             bindCompleteSinceDescription := false }
  | .dataRow => do
    if !state.hasRowDescription then
      throw (.runtimeError "PostgreSQL DataRow arrived without RowDescription")
    let row ← parseDataRow message.payload
    if row.length ≠ state.current.columns.length then
      throw (.runtimeError "PostgreSQL DataRow column count differs from RowDescription")
    return { state with current := { state.current with rows := state.current.rows ++ [row] } }
  | .noData => do
    if message.payload ≠ [] ∨ state.current.rows ≠ [] ∨
        (state.phaseShape.isSome ∧ !state.bindCompleteSinceDescription) then
      throw (.runtimeError "invalid PostgreSQL NoData description")
    return { state with
             current := { state.current with columns := [] }
             hasRowDescription := false
             phaseShape := some .noResultSet
             bindCompleteSinceDescription := false }
  | .bindComplete => do
    if message.payload ≠ [] then throw (.runtimeError "invalid PostgreSQL BindComplete")
    return { state with
             extendedExecution := true
             sawBindComplete := true
             phaseShape := none
             bindCompleteSinceDescription := true }
  | .parameterDescription => do
    if state.sawBindComplete then
      throw (.runtimeError "PostgreSQL ParameterDescription after bound portal description")
    let parameterTypeIds ← parseParameterDescription message.payload
    return { state with
             extendedExecution := true
             current := { state.current with parameterTypeIds } }
  | .commandComplete => do
    let commandTag ← parseCommandComplete message.payload
    return state.complete (state.commandResult profile completedIdle commandTag)
  | .emptyQueryResponse => do
    if message.payload ≠ [] then throw (.runtimeError "invalid PostgreSQL EmptyQueryResponse")
    if !state.extendedExecution then return state
    if !state.sawBindComplete ∨ state.phaseShape ≠ some .noResultSet ∨ state.hasRowDescription ∨
        state.current.columns ≠ [] ∨ state.current.rows ≠ [] ∨ state.current.error.isSome then
      throw (.runtimeError "PostgreSQL empty execution lacks bound NoData authority")
    return state.complete { state.current with
                            preparedExecutionAuthority := true
                            executionResultShape := some .noResultSet }
  | .errorResponse => do
    let fields ← decodeErrorFields message.payload
    return state.complete (errorResult fields)
  | _ => return state

end Extraction

/-- Whether the response is a successful exchange that left the session idle; only then a bare
SELECT tag is counted. -/
def completedIdle (messages : List Message) : Bool :=
  (match messages.getLast? with
    | some last => last.tag = .readyForQuery && last.payload = [code 'I']
    | none => false) &&
  messages.all fun message => message.tag != .errorResponse

/-- The results of one drained response. -/
def extractQueryResult (profile : PgCatalogProfile) (messages : List Message) :
    Except Thrown ParsedQueryResult := do
  let state ← messages.foldlM (Extraction.step profile (completedIdle messages)) {}
  match state.completed with
  | [] => return { toParsedResult := state.current }
  | primary :: rest => return { toParsedResult := primary, additionalResults := rest }

end Odbcpp.Postgres
