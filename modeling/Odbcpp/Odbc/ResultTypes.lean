import Odbcpp.Foundation.Bytes

/-!
# SQL and C data types of results

`ResultTypes` of `odbc/result_types.cpp` and the type predicates at the head of
`odbc/odbc_handles.cpp`. The source passes `SQLSMALLINT` codes; each code the
driver names is a constructor here and every other code is `other`.
-/

namespace Odbcpp.Odbc

inductive SqlType where
  | char | varchar | longvarchar
  | wchar | wvarchar | wlongvarchar
  | binary | varbinary | longvarbinary
  | bit | tinyint | smallint | integer | bigint
  | decimal | numeric | real | float | double
  | typeDate | typeTime | typeTimestamp
  | date | time | timestamp
  | other (code : Int)
deriving DecidableEq

inductive IntervalKind where
  | year | month | day | hour | minute | second
  | yearToMonth | dayToHour | dayToMinute | dayToSecond
  | hourToMinute | hourToSecond | minuteToSecond
deriving DecidableEq

inductive CType where
  | default | ardType
  | char | wchar | binary | bit
  | tinyint | stinyint | utinyint
  | short | sshort | ushort
  | long | slong | ulong
  | sbigint | ubigint
  | float | double | numeric
  | date | time | timestamp
  | typeDate | typeTime | typeTimestamp
  | interval (kind : IntervalKind)
  | guid
  | other (code : Int)
deriving DecidableEq

namespace SqlType

/-- `is_character_sql_type`; the six types `get_data` calls ordinary text. -/
def isCharacter : SqlType → Bool
  | char | varchar | longvarchar | wchar | wvarchar | wlongvarchar => true
  | _ => false

def isBinary : SqlType → Bool
  | binary | varbinary | longvarbinary => true
  | _ => false

def isInteger : SqlType → Bool
  | tinyint | smallint | integer | bigint => true
  | _ => false

def isDecimal : SqlType → Bool
  | decimal | numeric => true
  | _ => false

def isApproximate : SqlType → Bool
  | real | float | double => true
  | _ => false

def isTemporal : SqlType → Bool
  | typeDate | typeTime | typeTimestamp | date | time | timestamp => true
  | _ => false

/-- The sources whose character form is returned at most once. -/
def isFixedCharacterSource (sqlType : SqlType) : Bool :=
  sqlType = .bit || sqlType.isInteger || sqlType.isDecimal || sqlType.isApproximate ||
    sqlType = .typeTime || sqlType = .typeTimestamp

end SqlType

namespace CType

/-- The signed spelling of the C types that have two. -/
def canonicalCType : CType → CType
  | long => slong
  | short => sshort
  | tinyint => stinyint
  | cType => cType

def isInteger : CType → Bool
  | stinyint | utinyint | ushort | ulong | ubigint | sshort | slong | sbigint => true
  | _ => false

def isFloating : CType → Bool
  | float | double => true
  | _ => false

def isDateOrTime : CType → Bool
  | date | typeDate | time | typeTime | timestamp | typeTimestamp => true
  | _ => false

def isSupportedCType (cType : CType) : Bool :=
  match cType.canonicalCType with
  | default | char | wchar | binary | bit | numeric => true
  | canonical => canonical.isInteger || canonical.isFloating || canonical.isDateOrTime

def isValidCType (cType : CType) : Bool :=
  cType.isSupportedCType || match cType with
    | interval _ | guid => true
    | _ => false

/-- The targets that read a boolean column through its decimal digit. -/
def bitUsesDecimalRepresentation (cType : CType) : Bool :=
  cType = .char || cType = .wchar || cType = .numeric || cType.isInteger || cType.isFloating

end CType

/-- The C type `SQL_C_DEFAULT` stands for. -/
def defaultCType : SqlType → CType
  | .tinyint => .stinyint
  | .smallint => .sshort
  | .integer => .slong
  | .bigint => .sbigint
  | .real => .float
  | .float | .double => .double
  | .bit => .bit
  | .typeDate => .date
  | .typeTime => .time
  | .typeTimestamp => .timestamp
  | .wchar | .wvarchar | .wlongvarchar => .wchar
  | .binary | .varbinary | .longvarbinary => .binary
  | _ => .char

/-- The host type whose bytes a binary read of a fixed-size column returns. -/
def fixedBinaryResultCType : SqlType → Option CType
  | .typeDate | .date => some .typeDate
  | .typeTime | .time => some .typeTime
  | .typeTimestamp | .timestamp => some .typeTimestamp
  | .tinyint => some .stinyint
  | .smallint => some .sshort
  | .integer => some .slong
  | .bigint => some .sbigint
  | .real => some .float
  | .float | .double => some .double
  | .numeric | .decimal => some .numeric
  | _ => none

/-- Whether a column of one type can be read as the other. -/
def isConversionSupported (sqlType : SqlType) (target : CType) : Bool :=
  let cType := target.canonicalCType
  let numericSource := sqlType = .bit || sqlType.isInteger || sqlType.isDecimal ||
    sqlType.isApproximate
  if sqlType.isBinary then cType = .char || cType = .wchar || cType = .binary
  else if sqlType.isTemporal && (cType = .bit || cType.isInteger || cType.isFloating) then false
  else if (sqlType = .typeDate || sqlType = .date) && (cType = .time || cType = .typeTime) then
    false
  else if (sqlType = .typeTime || sqlType = .time) && (cType = .date || cType = .typeDate) then
    false
  else match cType with
    | .char | .wchar | .bit => true
    | .numeric => sqlType.isCharacter || numericSource
    | .binary => sqlType.isTemporal || sqlType.isCharacter || numericSource
    | other => other.isInteger || other.isFloating || (other.isDateOrTime && !numericSource)

/-- Character and binary columns can be read as text of either width and as bytes. -/
theorem isConversionSupported_pieces {sqlType target}
    (source : sqlType.isCharacter ∨ sqlType.isBinary)
    (read : target = .char ∨ target = .wchar ∨ target = .binary) :
    isConversionSupported sqlType target = true := by
  rcases read with rfl | rfl | rfl <;> cases sqlType <;>
    first | rfl | simp [SqlType.isCharacter, SqlType.isBinary] at source

end Odbcpp.Odbc
