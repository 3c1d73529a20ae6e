import Odbcpp.Odbc.ResultTypes
import Odbcpp.Odbc.Unicode

/-!
# `SQLGetData`

`ODBCStatement::get_data` and `get_bookmark_data` of `odbc/odbc_handles.cpp`. A call writes only the
four fields of `GetDataState`; what else it reads is `Statement`, and what it writes to the
application is its `Reply`, in units of a given size, so that byte order plays no part. The
conversions to host numbers, dates and times are parameters. Running out of memory is not modelled.
-/

namespace Odbcpp.Odbc

open Foundation Util

structure Diagnostic where
  state : String
  message : String
deriving DecidableEq

inductive SqlReturn where
  | success
  | successWithInfo
  | noData
  | error
deriving DecidableEq

/-- What a call wrote to the result buffer, from its start. -/
structure Output where
  units : List Nat := []
  unitSize : Nat := 1
  /-- A zero unit was written after `units`. -/
  terminated : Bool := false
deriving DecidableEq

/-- The number of bytes written, terminator included. -/
def Output.size (output : Output) : Nat :=
  (output.units.length + if output.terminated then 1 else 0) * output.unitSize

/-- What a call of `SQLGetData` returns and stores. -/
structure Reply where
  ret : SqlReturn
  output : Output := {}
  /-- The value stored through the indicator pointer. -/
  indicator : Option Int := none
  diagnostic : Option Diagnostic := none
deriving DecidableEq

structure DescriptorRecord where
  conciseType : CType
  precision : Int := 0
  scale : Int := 0
  dataPtr : Bool := false
  indicatorPtr : Bool := false
  octetLengthPtr : Bool := false
deriving DecidableEq

def DescriptorRecord.isBound (record : DescriptorRecord) : Bool :=
  record.dataPtr || record.indicatorPtr || record.octetLengthPtr

structure ColumnInfo where
  sqlType : SqlType
  columnSize : Nat := 0
  decimalDigits : Int := 0
deriving DecidableEq

inductive BookmarkMode where
  | off
  | fixed
  | variableLength
deriving DecidableEq

structure Statement where
  needsData : Bool := false
  executed : Bool
  rowPositioned : Bool
  /-- The first row of the rowset, counted from one. -/
  currentRow : Nat
  resultRows : List (List (Option Bytes))
  /-- Row and column of the cells whose backend encoding was invalid; sorted in the
  source, which searches it by bisection. -/
  resultCellErrors : List (Nat × Nat) := []
  columnInfo : List ColumnInfo
  staticCursor : Bool := false
  fetchedRowsetSize : Nat := 1
  actualFetchedRows : Nat
  selectedRowSlot : Nat := 0
  appRowRecords : List DescriptorRecord := []
  appBookmarkRecord : Option DescriptorRecord := none
  bookmarkMode : BookmarkMode := .off
  bookmarkStatementId : Nat := 0
  activeBookmarkGeneration : Nat := 0
deriving DecidableEq

/-- How much of a column was returned; `complete` is the largest `size_t`. -/
inductive GetDataOffset where
  | delivered (units : Nat)
  | complete
deriving DecidableEq

/-- Progress through a text cell read as wide characters. -/
structure WideGetDataState where
  bytePosition : Nat := 0
  remainingUnits : Nat := 0
  valid : Bool := false
deriving DecidableEq

/-- How far the current column has been retrieved. -/
structure GetDataState where
  column : Nat := 0
  offset : GetDataOffset := .delivered 0
  targetType : CType := .other 0
  wide : WideGetDataState := {}
deriving DecidableEq

/-- The arguments of one call. Pointers are addresses, or absent when null. -/
structure GetDataCall where
  column : Nat
  target : CType
  buffer : Option Nat
  length : Int
  indicator : Option Nat
deriving DecidableEq

inductive ConversionIssue where
  | none
  | fractionalTruncation
  | numericValueOutOfRange
  | invalidCharacterValue
  | invalidDatetimeFormat
deriving DecidableEq

inductive ConversionReturn where
  | success
  | successWithInfo
  | error
deriving DecidableEq

def ConversionReturn.toSqlReturn : ConversionReturn → SqlReturn
  | success => .success
  | successWithInfo => .successWithInfo
  | error => .error

/-- How a conversion ends. -/
structure Conversion where
  ret : ConversionReturn
  output : Output := {}
  indicator : Option Int := none
  issue : ConversionIssue := .none
deriving DecidableEq

/-- The conversions to host types: `convert_fixed_result_to_binary`,
`convert_time_result_to_timestamp` and `TextDataConverter::convert_data`. -/
structure Converters where
  fixedResultToBinary : SqlType → Bytes → Nat → Nat → Int → Conversion
  timeResultToTimestamp : Bytes → Conversion
  convertData : Bytes → CType → Nat → Int → Int → Conversion

/-- `set_error` followed by `return SQL_ERROR`, with nothing else changed. -/
def refuse (progress : GetDataState) (diagnostic : Diagnostic) : Reply × GetDataState :=
  ({ ret := .error, diagnostic := some diagnostic }, progress)

/-! ### The requested row, column and type -/

variable (statement : Statement)

/-- The selected row of the rowset and its position in the result. -/
def Statement.locateRow (column : Nat) : Except Diagnostic (Nat × List (Option Bytes)) :=
  let start := statement.currentRow - 1
  if statement.needsData then .error ⟨"HY010", "Statement needs parameter data"⟩
  else if column = 0 && !statement.executed then
    .error ⟨"HY010", "Statement has not been executed"⟩
  else if !statement.executed || !statement.rowPositioned || statement.currentRow = 0 ||
      statement.resultRows.length < statement.currentRow then
    .error ⟨"24000", "No current row"⟩
  else if 1 < statement.fetchedRowsetSize && !statement.staticCursor then
    .error ⟨"HY109", "SQLGetData is not supported on a forward-only multirow rowset"⟩
  else if statement.resultRows.length - start ≤ statement.selectedRowSlot ||
      statement.actualFetchedRows ≤ statement.selectedRowSlot then
    .error ⟨"24000", "No selected owning row is available"⟩
  else
    let rowIndex := start + statement.selectedRowSlot
    .ok (rowIndex, statement.resultRows.getD rowIndex [])

/-- The SQL type of a column, `SQL_VARCHAR` when there is no metadata for it. -/
def Statement.columnType (column : Nat) : SqlType :=
  match statement.columnInfo[column - 1]? with
  | some info => info.sqlType
  | none => .varchar

def Statement.effectiveTarget (row : List (Option Bytes))
    (call : GetDataCall) : Except Diagnostic CType :=
  let record := statement.appRowRecords[call.column - 1]?
  let sqlType := statement.columnType call.column
  let resolved (cType : CType) : Except Diagnostic CType :=
    let canonical := (if cType = .default then defaultCType sqlType else cType).canonicalCType
    if canonical.isSupportedCType then .ok canonical
    else .error ⟨"HYC00", "SQLGetData target type is not supported"⟩
  if row.length < call.column then .error ⟨"07009", "Invalid column number"⟩
  else if statement.staticCursor && 1 < statement.fetchedRowsetSize &&
      record.any DescriptorRecord.isBound then
    .error ⟨"07009", "Block SQLGetData requires an unbound column"⟩
  else if call.target ≠ .ardType && !call.target.isValidCType then
    .error ⟨"HY003", "Invalid SQLGetData target type"⟩
  else if call.target = .ardType then
    match record.filter fun record => record.conciseType.isValidCType with
    | none => .error ⟨"HY003", "ARD does not define a valid target type for the column"⟩
    | some record => resolved record.conciseType
  else resolved call.target

/-! ### Checks on the cell -/

def bitResultAsText (value : Bytes) : Option Bytes :=
  if value = ascii "1" then some (ascii "1")
  else if value = ascii "0" then some (ascii "0")
  else none

def convertBitResultToBinary (value : Bytes) (length : Nat) : Conversion :=
  match bitResultAsText value with
  | none => { ret := .error, issue := .invalidCharacterValue }
  | some digit =>
    if length < 1 then { ret := .error, issue := .numericValueOutOfRange }
    else
      { ret := .success, output := { units := [if digit = ascii "1" then 1 else 0] },
        indicator := some 1 }

def nonfiniteTokens : List Bytes := [ascii "NaN", ascii "Infinity", ascii "-Infinity"]

def nonfiniteNumericResult (sqlType : SqlType) (target : CType) (value : Bytes) : Bool :=
  target = .numeric && sqlType.isApproximate && nonfiniteTokens.contains value

def trimSpaces (text : Bytes) : Bytes :=
  ((text.dropWhile isSpace).reverse.dropWhile isSpace).reverse

def invalidCharacterNumericResult (sqlType : SqlType) (target : CType) (value : Bytes) : Bool :=
  let token := trimSpaces value
  sqlType.isCharacter && (target.isInteger || target = .bit || target.isFloating) &&
    (nonfiniteTokens.contains token ||
      (target = .bit && [ascii "t", ascii "true", ascii "f", ascii "false"].contains token))

variable (platform : Platform)

/-- Whether the digits that carry the magnitude of a fixed-size value fit the
character buffer; other columns may be returned in parts. -/
def valuePreservingCharacterBufferFits (sqlType : SqlType) (target : CType)
    (value : Bytes) (length offset : Nat) : Bool :=
  let timeType := sqlType = .typeTime
  let timestampType := sqlType = .typeTimestamp
  let dateType := sqlType = .typeDate
  if !(sqlType.isInteger || sqlType.isDecimal || sqlType.isApproximate || dateType || timeType ||
      timestampType) || !(target = .char || target = .wchar) then true
  else
    let unitSize := if target = .wchar then platform.wcharSize else 1
    let decimalPoint :=
      if sqlType.isDecimal || sqlType.isApproximate || timeType || timestampType then
        value.findIdx? (· = code '.')
      else none
    let scientific := sqlType.isApproximate && value.any fun letter =>
      letter = code 'e' || letter = code 'E'
    let timeZone := (timeType || timestampType) &&
      (value.drop (if timeType then 8 else 19)).any fun letter =>
        letter = code '+' || letter = code '-'
    let requiredLength :=
      if scientific || dateType || timeZone then value.length
      else decimalPoint.getD value.length
    requiredLength ≤ offset || requiredLength - offset < length / unitSize

/-- The text of a cell that is not returned as stored: the digits of a binary cell
and the digit of a boolean. -/
def formattedText (sqlType : SqlType) (target : CType) (length : Nat)
    (value : Bytes) : Except Diagnostic (Option Bytes) :=
  if sqlType.isBinary && (target = .char || target = .wchar) then .ok (some (encodeHex value))
  else if sqlType = .bit && target.bitUsesDecimalRepresentation then
    match bitResultAsText value with
    | none => .error ⟨"22018", "Invalid normalized boolean result"⟩
    | some text =>
      let requiredBytes := if target = .wchar then 2 * platform.wcharSize else 2
      if (target = .char || target = .wchar) && length < requiredBytes then
        .error ⟨"22003", "Bit character result does not fit in the application buffer"⟩
      else .ok (some text)
  else .ok none

/-! ### Delivering a piece -/

/-- A request for a non-NULL cell whose buffer and length passed the checks, with the
number of units returned before. -/
structure Piece where
  column : Nat
  sqlType : SqlType
  target : CType
  length : Nat
  wantsIndicator : Bool
  offset : Nat
deriving DecidableEq

variable (piece : Piece)

/-- Sources that are returned once, whatever part of them fitted. -/
def Piece.fixedCharacterSource : Bool :=
  (piece.target = .char || piece.target = .wchar) && piece.sqlType.isFixedCharacterSource

variable (progress : GetDataState)

def GetDataState.saveOffset (piece : Piece) (value : GetDataOffset) : GetDataState :=
  { progress with
    column := piece.column
    offset := if piece.fixedCharacterSource then .complete else value
    targetType := piece.target }

def Piece.storeIndicator (value : Int) : Option Int :=
  if piece.wantsIndicator then some value else none

def truncatedMessage : String := "Result value was truncated to fit the application buffer"
def binaryTruncatedMessage : String :=
  "Binary result value was truncated to fit the application buffer"

/-- The end of a delivery: more to come, or the column is complete. -/
def Piece.finish (output : Output) (remaining : Nat)
    (more : Bool) (message : String) : Reply × GetDataState :=
  let indicator := piece.storeIndicator (remaining * output.unitSize)
  if more then
    ({ ret := .successWithInfo, output := output, indicator := indicator,
       diagnostic := some ⟨"01004", message⟩ },
      progress.saveOffset piece (.delivered (piece.offset + output.units.length)))
  else
    ({ ret := .success, output := output, indicator := indicator },
      progress.saveOffset piece .complete)

def offsetRefused : Diagnostic :=
  ⟨"HY010", "SQLGetData target type changed during chunked retrieval"⟩

/-- The number of units copied: what fits, and whole digit pairs for hexadecimal text. -/
def copyLength (binaryAsText : Bool) (capacity remaining : Nat) : Nat :=
  let fits := min capacity remaining
  if binaryAsText && fits < remaining then fits - fits % 2 else fits

/-- The `SQL_C_CHAR` branch. -/
def Piece.character (cell : Bytes) : Reply × GetDataState :=
  if cell.length < piece.offset then refuse progress offsetRefused
  else
    let remaining := cell.length - piece.offset
    let count := copyLength piece.sqlType.isBinary (piece.length - 1) remaining
    let output : Output :=
      { units := ((cell.drop piece.offset).take count).map UInt8.toNat
        terminated := 0 < piece.length }
    piece.finish progress output remaining
      (piece.offset + count < cell.length || piece.length = 0) truncatedMessage

/-- The place in a text cell to go on from. A first read validates the whole cell and
counts its units before anything is returned. -/
def Piece.scanWide (cell : Bytes) : Except Diagnostic WideGetDataState :=
  if !progress.wide.valid || progress.column ≠ piece.column ||
      progress.targetType ≠ piece.target then
    match platform.countWideUnits cell.length 0 cell with
    | .invalid => .error ⟨"22018", "Result value is not valid UTF-8"⟩
    | .tooLong => .error ⟨"22003", "Wide result length exceeds the application indicator range"⟩
    | .units count => .ok { bytePosition := 0, remainingUnits := count, valid := true }
  else .ok progress.wide

/-- The `SQL_C_WCHAR` branch for text columns, which keeps its place in the cell. -/
def Piece.wideText (cell : Bytes) : Reply × GetDataState :=
  match piece.scanWide platform progress cell with
  | .error diagnostic => refuse progress diagnostic
  | .ok wide =>
    let remaining := wide.remainingUnits
    let bufferUnits := piece.length / platform.wcharSize
    let (units, unread, decoded) :=
      platform.copyWideUnits cell.length (bufferUnits - 1) (cell.drop wide.bytePosition)
    if !decoded then
      ({ ret := .error, output := { units := units, unitSize := platform.wcharSize },
         indicator := piece.storeIndicator (remaining * platform.wcharSize),
         diagnostic := some ⟨"22018", "Result value is not valid UTF-8"⟩ },
        { progress with wide := wide })
    else
      let advanced : WideGetDataState :=
        { bytePosition := cell.length - unread.length
          remainingUnits := remaining - units.length
          valid := wide.valid }
      let output : Output :=
        { units := units, unitSize := platform.wcharSize, terminated := 0 < bufferUnits }
      piece.finish { progress with wide := advanced } output remaining
        (advanced.remainingUnits ≠ 0 || bufferUnits = 0) truncatedMessage

/-- The `SQL_C_WCHAR` branch for everything else. -/
def Piece.wideFormatted (cell : Bytes) : Reply × GetDataState :=
  match platform.utf8ToWide cell with
  | none => refuse progress ⟨"22018", "Result value is not valid UTF-8"⟩
  | some wide =>
    if wide.length < piece.offset then refuse progress offsetRefused
    else
      let remaining := wide.length - piece.offset
      let bufferUnits := piece.length / platform.wcharSize
      let whole := copyLength piece.sqlType.isBinary (bufferUnits - 1) remaining
      -- A copy that stops after a high surrogate gives it back.
      let last := wide.getD (piece.offset + whole - 1) 0
      let count :=
        if platform.wcharSize = 2 && whole < remaining && 0 < whole &&
            0xd800 ≤ last && last ≤ 0xdbff then whole - 1
        else whole
      let output : Output :=
        { units := (wide.drop piece.offset).take count, unitSize := platform.wcharSize
          terminated := 0 < bufferUnits }
      piece.finish progress output remaining
        (piece.offset + count < wide.length || bufferUnits = 0) truncatedMessage

/-- The `SQL_C_BINARY` branch for character and binary columns. -/
def Piece.bytes (value : Bytes) : Reply × GetDataState :=
  if value.length < piece.offset then refuse progress offsetRefused
  else
    let remaining := value.length - piece.offset
    let count := min piece.length remaining
    let output : Output := { units := ((value.drop piece.offset).take count).map UInt8.toNat }
    piece.finish progress output remaining (piece.offset + count < value.length)
      binaryTruncatedMessage

/-- `set_conversion_diagnostic`. -/
def conversionDiagnostic (ret : ConversionReturn) (issue : ConversionIssue) : Option Diagnostic :=
  match ret with
  | .successWithInfo =>
    if issue = .fractionalTruncation then
      some ⟨"01S07", "Fractional result digits were truncated"⟩
    else some ⟨"01004", truncatedMessage⟩
  | .error =>
    match issue with
    | .numericValueOutOfRange =>
      some ⟨"22003", "Result value is outside the requested numeric range"⟩
    | .invalidDatetimeFormat => some ⟨"22007", "Result value is not a valid date or time"⟩
    | .none | .fractionalTruncation | .invalidCharacterValue =>
      some ⟨"22018", "Result value could not be converted to the requested C type"⟩
  | .success => none

/-- A conversion that did not fail returns the whole column. -/
def Piece.converted (conversion : Conversion) : Reply × GetDataState :=
  ({ ret := conversion.ret.toSqlReturn, output := conversion.output
     indicator := if piece.wantsIndicator then conversion.indicator else none
     diagnostic := conversionDiagnostic conversion.ret conversion.issue },
    if conversion.ret = .error then progress else progress.saveOffset piece .complete)

/-- The precision and scale of a `SQL_C_NUMERIC` result. -/
def Statement.numericAttributes (call : GetDataCall) (target : CType) : Int × Int :=
  if target = .numeric && call.target = .ardType then
    match statement.appRowRecords[call.column - 1]? with
    | some record => (record.precision, record.scale)
    | none => (38, 0)
  else (38, 0)

/-- The choice of branch for a non-NULL cell. -/
def Statement.deliver (convert : Converters) (statement : Statement)
    (progress : GetDataState) (call : GetDataCall) (piece : Piece) (value : Bytes) :
    Reply × GetDataState :=
  match formattedText platform piece.sqlType piece.target piece.length value with
  | .error diagnostic => refuse progress diagnostic
  | .ok formatted =>
    let cell := formatted.getD value
    if invalidCharacterNumericResult piece.sqlType piece.target cell then
      refuse progress ⟨"22018", "Character result is not a numeric literal"⟩
    else if nonfiniteNumericResult piece.sqlType piece.target cell then
      refuse progress
        ⟨"22003", "Non-finite numeric result cannot be represented as SQL_C_NUMERIC"⟩
    else if !valuePreservingCharacterBufferFits platform piece.sqlType piece.target cell
        piece.length piece.offset then
      refuse progress ⟨"22003", "Result value does not fit in the character buffer"⟩
    else if piece.target = .char then piece.character progress cell
    else if piece.target = .wchar then
      if piece.sqlType.isCharacter && formatted.isNone then
        piece.wideText platform progress cell
      else piece.wideFormatted platform progress cell
    else if piece.target = .binary then
      if (fixedBinaryResultCType piece.sqlType).isSome then
        let info := statement.columnInfo[piece.column - 1]?
        piece.converted progress
          (convert.fixedResultToBinary piece.sqlType value piece.length
            (info.elim 0 ColumnInfo.columnSize) (info.elim 0 ColumnInfo.decimalDigits))
      else if piece.sqlType = .bit then
        piece.converted progress (convertBitResultToBinary value piece.length)
      else piece.bytes progress value
    else
      let (precision, scale) := statement.numericAttributes call piece.target
      piece.converted progress
        (if (piece.sqlType = .typeTime || piece.sqlType = .time) &&
            (piece.target = .typeTimestamp || piece.target = .timestamp) then
          convert.timeResultToTimestamp value
        else convert.convertData cell piece.target piece.length precision scale)

/-- Retrieval of a column once its type is known. -/
def Statement.retrieve (convert : Converters) (statement : Statement)
    (progress : GetDataState) (call : GetDataCall) (rowIndex : Nat) (cell : Option Bytes)
    (target : CType) : Reply × GetDataState :=
  let sqlType := statement.columnType call.column
  let offset := if progress.column = call.column then progress.offset else .delivered 0
  match offset with
  | .complete => ({ ret := .noData }, progress)
  | .delivered offset =>
    let piece : Piece :=
      { column := call.column, sqlType := sqlType, target := target
        length := call.length.toNat, wantsIndicator := call.indicator.isSome, offset := offset }
    if progress.column = call.column && offset ≠ 0 && progress.targetType ≠ target then
      refuse progress offsetRefused
    else if call.buffer.isNone then refuse progress ⟨"HY009", "Null result buffer"⟩
    else if call.length < 0 then refuse progress ⟨"HY090", "Invalid result buffer length"⟩
    else if !isConversionSupported sqlType target then
      refuse progress ⟨"07006", "Unsupported result data type conversion"⟩
    else match cell with
      | none =>
        if call.indicator.isNone then
          refuse progress ⟨"22002", "NULL column requires an indicator variable"⟩
        else
          ({ ret := .success, indicator := some (-1) }, progress.saveOffset piece .complete)
      | some value =>
        if statement.resultCellErrors.contains (rowIndex, call.column - 1) then
          refuse progress ⟨"22018", "Invalid backend result encoding"⟩
        else statement.deliver platform convert progress call piece value

/-! ### Bookmarks -/

/-- `is_supported_fixed_bookmark_c_type`; `SQL_C_BOOKMARK` is the unsigned integer of
the size of a bookmark. -/
def Platform.isSupportedFixedBookmarkCType : CType → Bool
  | .default | .ulong | .long | .slong => true
  | .ubigint | .sbigint => platform.bookmarkSize = 8
  | _ => false

def Platform.fixedBookmarkCTypeWidth (target : CType) (length : Nat) : Nat :=
  if target = .ubigint || target = .sbigint then 8
  else if target = .default then platform.bookmarkSize
  else if platform.bookmarkSize = 8 && 8 ≤ length then 8
  else 4

/-- Whether an output does not run over the end of the address space. A bookmark is a
`SQLULEN`, which has the size of the indicator. -/
def Platform.outputsFit (call : GetDataCall) (extent : Nat) : Bool :=
  call.buffer.all (fun address => extent ≤ platform.addressMax - address) &&
    call.indicator.all fun address => platform.bookmarkSize ≤ platform.addressMax - address

/-- `bookmark_for`: statement, result generation and row, eight bytes each. -/
def Statement.bookmarkFor (row : Nat) : Bytes :=
  bigEndian 8 statement.bookmarkStatementId ++ bigEndian 8 statement.activeBookmarkGeneration ++
    bigEndian 8 (row + 1)

def bookmarkBytes : Nat := 24

def Statement.checkBookmark (call : GetDataCall) (validType : Bool) : Except Diagnostic Unit :=
  if !validType then .error ⟨"HY003", "Invalid bookmark retrieval type"⟩
  else if statement.activeBookmarkGeneration = 0 then
    .error ⟨"HY000", "Owning bookmark result is unavailable"⟩
  else if statement.appBookmarkRecord.any DescriptorRecord.isBound then
    .error ⟨"07009", "Bookmark SQLGetData requires an unbound output record"⟩
  else if call.buffer.isNone then .error ⟨"HY009", "Null bookmark output"⟩
  else if call.length < 0 then .error ⟨"HY090", "Invalid bookmark output length"⟩
  else .ok ()

def bookmarkSpanRefused : Diagnostic :=
  ⟨"HY024", "Bookmark output address span is out of range"⟩

def Statement.getBookmarkData (platform : Platform) (statement : Statement)
    (progress : GetDataState) (call : GetDataCall) (rowIndex : Nat) : Reply × GetDataState :=
  let indicator (value : Nat) : Option Int := call.indicator.map fun _ => (value : Int)
  match statement.bookmarkMode with
  | .off => refuse progress ⟨"07009", "Bookmarks are disabled"⟩
  | .fixed =>
    match statement.checkBookmark call (platform.isSupportedFixedBookmarkCType call.target) with
    | .error diagnostic => refuse progress diagnostic
    | .ok () =>
      if progress.column = 0 && progress.offset = .complete then
        ({ ret := .noData }, progress)
      else
        let width := platform.fixedBookmarkCTypeWidth call.target call.length.toNat
        let tokenSize := if width = 8 && platform.bookmarkSize = 8 then 8 else 4
        if !platform.outputsFit call width then refuse progress bookmarkSpanRefused
        else
          ({ ret := .success
             output := { units := [(rowIndex + 1) % 256 ^ tokenSize], unitSize := tokenSize }
             indicator := indicator width },
            { column := 0, offset := .complete, targetType := call.target })
  | .variableLength =>
    match statement.checkBookmark call (call.target = .binary) with
    | .error diagnostic => refuse progress diagnostic
    | .ok () =>
      let offset :=
        if progress.column = 0 && progress.targetType = .binary then progress.offset
        else .delivered 0
      match offset with
      | .complete => ({ ret := .noData }, progress)
      | .delivered offset =>
        let count := min (bookmarkBytes - offset) call.length.toNat
        if bookmarkBytes ≤ offset then ({ ret := .noData }, progress)
        else if !platform.outputsFit call count then refuse progress bookmarkSpanRefused
        else
          let token := statement.bookmarkFor rowIndex
          let more := count < bookmarkBytes - offset
          ({ ret := if more then .successWithInfo else .success
             output := { units := ((token.drop offset).take count).map UInt8.toNat }
             indicator := indicator (bookmarkBytes - offset)
             diagnostic :=
              if more then some ⟨"01004", "Bookmark returned in parts"⟩ else none },
            { column := 0, offset := .delivered (offset + count), targetType := .binary })

def Statement.getData (convert : Converters) (statement : Statement)
    (progress : GetDataState) (call : GetDataCall) : Reply × GetDataState :=
  match statement.locateRow call.column with
  | .error diagnostic => refuse progress diagnostic
  | .ok (rowIndex, row) =>
    if call.column = 0 then statement.getBookmarkData platform progress call rowIndex
    else match statement.effectiveTarget row call with
      | .error diagnostic => refuse progress diagnostic
      | .ok target =>
        statement.retrieve platform convert progress call rowIndex
          (row.getD (call.column - 1) none) target

end Odbcpp.Odbc
