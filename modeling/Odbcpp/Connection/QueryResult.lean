import Odbcpp.Postgres.QueryResult

/-!
# Normalized results

The backend-neutral results of `query_result.h`, their validation, and the normalization of native
types and cells. A result is one primary item and a flat list of further ones, since the source
nests no deeper. What a concrete backend supplies is collected in `Backend`.
-/

namespace Odbcpp.Connection

open Foundation Database Postgres Util

inductive ScalarType where
  | boolean | binary | char | varChar | bigInt | smallInt | integer | real | double | date | time
  | timestamp | numeric | decimal | longVarChar | longVarBinary
deriving DecidableEq

structure CharacterMetadataPolicy where
  varcharThreshold : Nat := 0
  longVarcharSize : Nat := 0
  booleanAsCharacter : Bool := false
deriving DecidableEq

structure NativeTypeInfo where
  type : ScalarType := .varChar
  columnSize : Nat := 0
  decimalDigits : Int := 0
  known : Bool := false
  declaredType : Option ScalarType := none
  declaredColumnSize : Option Nat := none
  typeName : Option Bytes := none
deriving DecidableEq

def applyCharacterMetadataPolicy (native : NativeTypeInfo) (policy : CharacterMetadataPolicy) :
    NativeTypeInfo :=
  if native.known ∧ native.type = .boolean ∧ policy.booleanAsCharacter then
    { native with
      declaredType := some .boolean
      declaredColumnSize := some native.columnSize
      type := .varChar
      columnSize := 1 }
  else if !native.known ∨ policy.varcharThreshold = 0 ∨
      native.columnSize ≤ policy.varcharThreshold ∨
      (native.type ≠ .char ∧ native.type ≠ .varChar) then native
  else
    { native with
      declaredType := some native.type
      declaredColumnSize := some native.columnSize
      type := .longVarChar
      columnSize := if policy.longVarcharSize ≠ 0 then policy.longVarcharSize
        else native.columnSize }

inductive DescribedResultShape where
  | noResultSet | resultSet
deriving DecidableEq

structure ResultColumnMetadata where
  name : Bytes
  normalizedType : NativeTypeInfo
deriving DecidableEq

structure CellEncodingError where
  row : Nat
  column : Nat
deriving DecidableEq

/-- One result, as it is published. -/
structure QueryItem where
  rows : List ResultRow := []
  columns : List ResultColumnMetadata := []
  error : Option BackendError := none
  affectedRows : Nat := 0
  statementKind : Option StatementKind := none
  normalizedParameterTypes : List NativeTypeInfo := []
  cellErrors : List CellEncodingError := []
  describedResultShape : Option DescribedResultShape := none
  executionResultShape : Option ExecutionResultShape := none
  resultId : Nat := 0
deriving DecidableEq

/-- The results of a query; the first is its own item. -/
structure QueryResult extends QueryItem where
  additionalResults : List QueryItem := []
deriving DecidableEq

/-! ## Validation -/

def validColumnName (name : Bytes) : Bool :=
  !name.contains 0 && (utf8CodePointCount name).isSome

def validResultStructure (result : ParsedResult) : Bool :=
  result.columns.all (fun column => validColumnName column.name) &&
    result.rows.all fun row => row.length = result.columns.length

def errorOnly (item : QueryItem) : Bool :=
  item.rows.isEmpty && item.columns.isEmpty && item.cellErrors.isEmpty &&
    item.normalizedParameterTypes.isEmpty && item.affectedRows = 0 && item.statementKind.isNone &&
    item.describedResultShape.isNone && item.executionResultShape.isNone

def validExecutionStructure (result : QueryResult) : Bool :=
  result.error.isNone &&
    result.additionalResults.all fun item => item.error.isNone || errorOnly item

def validDescriptionStructure (result : QueryResult) : Bool :=
  validExecutionStructure result && result.executionResultShape.isNone &&
    result.statementKind.isNone && result.affectedRows = 0 && result.additionalResults.isEmpty &&
    result.rows.isEmpty && result.cellErrors.isEmpty &&
    match result.describedResultShape with
    | none | some .resultSet => true
    | some .noResultSet => result.columns.isEmpty

def hasBinaryColumns (result : ParsedQueryResult) : Bool :=
  result.results.any fun item => item.columns.any fun column => column.formatCode = 1

/-! ## Normalization -/

abbrev ResolvedTypeMap := List (Nat × NativeTypeInfo)

/-- How parameter types are resolved: from the own descriptions, or by the PostgreSQL class, which
discovers unknown types. -/
inductive TypeResolution where
  | described
  | discovered (profile : PgCatalogProfile)
deriving DecidableEq

/-- The virtual functions that normalization calls: `describe_type` of the class and of its parser,
and `normalize_native_result_value`. -/
structure Backend where
  describeType : Nat → Int → Int → NativeTypeInfo
  parserDescribeType : Nat → Int → Int → NativeTypeInfo
  normalizeNativeResultValue : Nat → ScalarType → Bytes → Option Bytes
  typeResolution : TypeResolution

variable (backend : Backend)

def normalizeColumn (policy : CharacterMetadataPolicy)
    (column : ParsedColumnMetadata) : ResultColumnMetadata :=
  ⟨column.name, applyCharacterMetadataPolicy
    (backend.describeType column.typeId column.typeSize column.typeModifier) policy⟩

/-- The canonical bytes of a cell, absent when its native bytes are malformed. Text keeps its bytes;
the codec treats other families. -/
def normalizeValue (typeId : Nat) (metadata : NativeTypeInfo) (value : Bytes) : Option Bytes :=
  let type := metadata.declaredType.getD metadata.type
  match type with
  | .char | .varChar | .longVarChar => if (utf8CodePointCount value).isSome then some value else none
  | .binary | .longVarBinary | .boolean | .real | .double =>
    backend.normalizeNativeResultValue typeId type value
  | _ => some value

/-- Normalize the cells of one row from `column` on; a malformed cell becomes an
empty one and is listed. -/
def normalizeRow (backend : Backend) (row : Nat) :
    Nat → List (Nat × NativeTypeInfo) → ResultRow → ResultRow × List CellEncodingError
  | _, [], cells => (cells, [])
  | _, _, [] => ([], [])
  | column, (typeId, metadata) :: columns, cell :: cells =>
    let (rest, errors) := normalizeRow backend row (column + 1) columns cells
    match cell with
    | none => (none :: rest, errors)
    | some value =>
      match normalizeValue backend typeId metadata value with
      | some canonical => (some canonical :: rest, errors)
      | none => (some [] :: rest, ⟨row, column⟩ :: errors)

/-- `normalize_cells`: every row of an item, with its malformed cells. -/
def normalizeCells (parsed : ParsedResult) (item : QueryItem) : QueryItem :=
  let columns := (parsed.columns.map (·.typeId)).zip (item.columns.map (·.normalizedType))
  let normalized := item.rows.mapIdx fun row cells => normalizeRow backend row 0 columns cells
  { item with
    rows := normalized.map (·.1)
    cellErrors := item.cellErrors ++ normalized.flatMap (·.2) }

end Odbcpp.Connection
