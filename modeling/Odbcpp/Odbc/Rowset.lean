import Odbcpp.Odbc.Cursor
import Odbcpp.Odbc.Conversion
import Odbcpp.Foundation.Except

/-!
# Fetching a rowset into bound buffers

`fetch_impl`, `fetch_bound_row` and `bulk_operations` of `odbc/odbc_handles.cpp`. The application's
memory appears as what a call reads from it and as the writes the call makes, each an address and
what was put there. The checks before the first write and the addresses of the writes are computed
separately, the latter with wrapping arithmetic, as in the source.
-/

namespace Odbcpp.Odbc

open Foundation Util

/-- The application's memory when a call begins. -/
structure Memory where
  /-- Some bytes from an address on. -/
  bytes : Nat → Nat → Bytes
  /-- The `SQLULEN` at an address, in the host's byte order. -/
  word : Nat → Nat

def Memory.zero : Memory := ⟨fun _ count => List.replicate count 0, fun _ => 0⟩

/-- A store into the memory of the application. -/
structure Write where
  address : Nat
  output : Output
deriving DecidableEq

/-- The consumed fields of a descriptor record; pointers are addresses or absent. -/
structure BoundResultField where
  conciseType : CType
  precision : Int := 0
  scale : Int := 0
  octetLength : Int := 0
  dataPtr : Option Nat := none
  indicatorPtr : Option Nat := none
  octetLengthPtr : Option Nat := none
deriving DecidableEq

def BoundResultField.isBound (field : BoundResultField) : Bool :=
  field.dataPtr.isSome || field.indicatorPtr.isSome || field.octetLengthPtr.isSome

def BoundResultField.targetType (field : BoundResultField) (sqlType : SqlType) : CType :=
  if field.conciseType = .default then defaultCType sqlType else field.conciseType

/-- The consumed fields of the row descriptor. -/
structure RowDescriptor where
  records : List BoundResultField := []
  bookmarkRecord : Option BoundResultField := none
  arraySize : Nat := 1
  /-- Zero binds by column, another value is the size of a row. -/
  bindType : Nat := 0
  bindOffsetPtr : Option Nat := none
deriving DecidableEq

/-- The columns and rows of a result. -/
structure ResultSet where
  columnInfo : List ColumnInfo
  resultRows : List (List (Option Bytes))
  /-- Row and column of the cells whose backend encoding was invalid. -/
  resultCellErrors : List (Nat × Nat) := []
deriving DecidableEq

def ResultSet.total (result : ResultSet) : Nat := result.resultRows.length

def ResultSet.columnType (result : ResultSet) (index : Nat) : SqlType :=
  match result.columnInfo[index]? with
  | some info => info.sqlType
  | none => .varchar

/-- What a fetch reads of the statement besides the result and the cursor. -/
structure FetchSettings where
  needsData : Bool := false
  executed : Bool := true
  parameterResultCursor : Bool := false
  staticCursor : Bool := true
  retrieveData : Bool := true
  bookmarkMode : BookmarkMode := .off
  bookmarkStatementId : Nat := 0
  activeBookmarkGeneration : Nat := 0
  fetchBookmarkPtr : Option Nat := none
  ard : RowDescriptor := {}
  rowsProcessedPtr : Option Nat := none
  arrayStatusPtr : Option Nat := none
  /-- The limits on the size of a result. -/
  maxRows : Nat := 1000000
  maxCells : Nat := 4000000
deriving DecidableEq

/-- The size of a row; without retrieval no field is bound. -/
def FetchSettings.rowStride (settings : FetchSettings) : Nat :=
  if settings.retrieveData then settings.ard.bindType else 0

structure RowDiagnostic where
  diagnostic : Diagnostic
  row : Nat := 0
  column : Nat := 0
deriving DecidableEq

inductive RowStatus where
  | success
  | successWithInfo
  | error
  | noRow
deriving DecidableEq

/-- The `SQL_ROW_` constants. -/
def RowStatus.code : RowStatus → Nat
  | success => 0
  | successWithInfo => 6
  | error => 5
  | noRow => 3

def RowStatus.ofReturn : ConversionReturn → RowStatus
  | .success => .success
  | .successWithInfo => .successWithInfo
  | .error => .error

/-- The layout of the bound fields, captured before anything is written. -/
structure RowLayout where
  size : Nat
  /-- The size of a row, zero when bound by column. -/
  rowStride : Nat
  bindingOffset : Nat
deriving DecidableEq

/-- The distance between the fields of two slots. -/
def RowLayout.stride (layout : RowLayout) (extent : Nat) : Nat :=
  if layout.rowStride = 0 then extent else layout.rowStride

namespace Machine

variable (machine : Machine)

/-- `sizeof(SQLLEN)`, which is also the size of a bookmark. -/
def lengthSize : Nat := machine.bookmarkSize

/-! ### Checks on addresses -/

def readBindingOffset (memory : Memory) (subject : String) : Option Nat → Except Diagnostic Nat
  | none => .ok 0
  | some address =>
    let encoded := memory.word address
    if machine.addressMax - address < machine.lengthSize then
      .error ⟨"HY024", subject ++ " offset address span is out of range"⟩
    else if machine.sqllenMax < encoded then
      .error ⟨"HYC00", "Binding offset outside the common nonnegative range is not supported"⟩
    else if machine.addressMax < encoded then
      .error ⟨"HY024", subject ++ " offset value is out of range"⟩
    else .ok encoded

/-- `span_fits`: an array of elements of one size. -/
def spanFits (address : Option Nat) (count stride : Nat) : Bool :=
  match address with
  | none => true
  | some base => count = 0 || stride = 0 || count ≤ (machine.addressMax - base) / stride

variable (layout : RowLayout)

/-- `row_span_fits`: one field in each row of an array. -/
def rowSpanFits (base extent : Nat) : Bool :=
  layout.size = 0 || (extent ≤ machine.addressMax - base &&
    layout.size - 1 ≤ (machine.addressMax - base - extent) / layout.rowStride)

/-- `field_span_fits`: a bound field, for every slot. -/
def fieldSpanFits (address : Option Nat) (extent : Nat) : Bool :=
  match address with
  | none => true
  | some base =>
    layout.bindingOffset ≤ machine.addressMax - base &&
      if layout.rowStride = 0 then
        machine.spanFits (some (base + layout.bindingOffset)) layout.size extent
      else machine.rowSpanFits layout (base + layout.bindingOffset) extent

def recordSpansFit (field : BoundResultField) (extent : Nat) : Bool :=
  machine.fieldSpanFits layout field.dataPtr extent &&
    machine.fieldSpanFits layout field.indicatorPtr machine.lengthSize &&
    machine.fieldSpanFits layout field.octetLengthPtr machine.lengthSize

/-! ### Addresses and stores -/

/-- The address of an element of an array, as `uintptr_t` arithmetic computes it. -/
def slotAddress (base offset slot stride : Nat) : Nat :=
  (base + offset + slot * stride % (machine.sizeMax + 1)) % (machine.addressMax + 1)

def fieldAddress (slot : Nat) (base : Option Nat) (extent : Nat) : Option Nat :=
  base.map fun base => machine.slotAddress base layout.bindingOffset slot (layout.stride extent)

def storeLength (address : Nat) (value : Int) : Write :=
  ⟨address, { units := [(value % (256 ^ machine.lengthSize : Nat)).toNat]
              unitSize := machine.lengthSize }⟩

def storeStatus (status : Option Nat) (slot : Nat) (value : RowStatus) : List Write :=
  match status with
  | none => []
  | some base =>
    [⟨machine.slotAddress base 0 slot 2, { units := [value.code], unitSize := 2 }⟩]

/-- The same status for the first slots. -/
def storeStatuses (status : Option Nat) (count : Nat) (value : RowStatus) : List Write :=
  (List.range count).flatMap fun slot => machine.storeStatus status slot value

def storeCount (fetched : Option Nat) (count : Nat) : List Write :=
  match fetched with
  | none => []
  | some address => [⟨address, { units := [count], unitSize := machine.lengthSize }⟩]

end Machine

/-! ### One row -/

/-- What fetching a row, or a part of it, writes and posts. -/
structure RowFetch where
  ret : ConversionReturn := .success
  writes : List Write := []
  diagnostics : List RowDiagnostic := []
deriving DecidableEq

/-- `fetch_result` over two parts of a row. -/
def ConversionReturn.combine : ConversionReturn → ConversionReturn → ConversionReturn
  | _, .error => .error
  | .successWithInfo, .success => .successWithInfo
  | _, later => later

/-- A part of a row, and the rest of it unless the part failed. -/
def RowFetch.andThen (first rest : RowFetch) : RowFetch :=
  if first.ret = .error then first
  else
    { ret := first.ret.combine rest.ret
      writes := first.writes ++ rest.writes
      diagnostics := first.diagnostics ++ rest.diagnostics }

/-- What is bound for the columns of a row. -/
structure RowBindings where
  fields : List BoundResultField
  ignored : Nat → Bool
  bookmark : Option BoundResultField
  status : Option Nat
  /-- Diagnostics name the row and the column. -/
  attributed : Bool

/-- The row being fetched and the slot it goes to. -/
structure RowPlace where
  rowIndex : Nat
  slot : Nat
deriving DecidableEq

def RowBindings.diagnose (bindings : RowBindings) (place : RowPlace) (column : Nat)
    (diagnostic : Diagnostic) : RowDiagnostic :=
  if bindings.attributed then ⟨diagnostic, place.slot + 1, column⟩ else ⟨diagnostic, 0, 0⟩

variable (platform : Platform)

def binaryTextLength (target : CType) (text : Bytes) (length : Int) : Int :=
  let unitSize := if target = .wchar then platform.wcharSize else 1
  let units := length.toNat / unitSize
  if 0 < length && 1 < units && units - 1 < text.length && (units - 1) % 2 ≠ 0 then
    ((units - 1) * unitSize : Nat)
  else length

variable (parsers : Parsers)

def Parsers.convertInto (binding : BoundResultField)
    (info : Option ColumnInfo) (sqlType : SqlType) (target : CType) (value text : Bytes) :
    Conversion :=
  if (sqlType = .typeTime || sqlType = .time) &&
      (target = .typeTimestamp || target = .timestamp) then
    parsers.convertTimeResultToTimestamp value
  else if sqlType = .bit && target = .binary then
    convertBitResultToBinary value binding.octetLength.toNat
  else if target = .binary && (fixedBinaryResultCType sqlType).isSome then
    parsers.convertFixedResultToBinary sqlType value true binding.octetLength
      (info.elim 0 ColumnInfo.columnSize) (info.elim 0 ColumnInfo.decimalDigits)
  else if sqlType.isCharacter && target = .binary then
    convertBytes value binding.octetLength.toNat
  else
    parsers.convertData platform text target
      (if sqlType.isBinary && (target = .char || target = .wchar) then
        binaryTextLength platform target text binding.octetLength
      else binding.octetLength)
      binding.precision binding.scale

def BoundResultField.convertData
    (binding : BoundResultField) (info : Option ColumnInfo) (sqlType : SqlType) (target : CType)
    (value : Bytes) : Except Diagnostic Conversion :=
  if invalidCharacterNumericResult sqlType target value then
    .ok { ret := .error, issue := .invalidCharacterValue }
  else if nonfiniteNumericResult sqlType target value then
    .ok { ret := .error, issue := .numericValueOutOfRange }
  else match formattedText platform sqlType target binding.octetLength.toNat value with
    | .error diagnostic => .error diagnostic
    | .ok formatted =>
      if !valuePreservingCharacterBufferFits platform sqlType target (formatted.getD value)
          binding.octetLength.toNat 0 then
        .error ⟨"22003", "Result value does not fit in the character buffer"⟩
      else
        .ok (parsers.convertInto platform binding info sqlType target value (formatted.getD value))

def BoundResultField.convert (binding : BoundResultField)
    (info : Option ColumnInfo) (sqlType : SqlType) (target : CType) (value : Bytes) :
    Except Diagnostic Conversion :=
  if binding.dataPtr.isSome then
    binding.convertData platform parsers info sqlType target value
  else
    .ok (parsers.indicatorOnlyResultLength platform sqlType target value binding.precision
      binding.scale (info.elim 0 ColumnInfo.columnSize) (info.elim 0 ColumnInfo.decimalDigits))

namespace Machine

variable (machine : Machine) (parsers : Parsers) (result : ResultSet) (layout : RowLayout)

def storeBookmark (slot : Nat) (binding : BoundResultField) (width : Nat) (token : Output) :
    List Write :=
  let length := machine.fieldAddress layout slot binding.octetLengthPtr machine.lengthSize
  let indicator := machine.fieldAddress layout slot binding.indicatorPtr machine.lengthSize
  ((machine.fieldAddress layout slot binding.dataPtr width).toList.map fun address =>
      ⟨address, token⟩) ++
    length.toList.map (fun address => machine.storeLength address width) ++
    if indicator = length then []
    else indicator.toList.map fun address =>
      machine.storeLength address (if length.isSome then 0 else width)

def storeRowBookmark (settings : FetchSettings) (place : RowPlace) (binding : BoundResultField) :
    List Write :=
  match settings.bookmarkMode with
  | .off => []
  | .fixed =>
    let width :=
      machine.fixedBookmarkCTypeWidth binding.conciseType binding.octetLength.toNat
    let tokenSize := if width = machine.bookmarkSize && machine.bookmarkSize = 8 then 8 else 4
    machine.storeBookmark layout place.slot binding width
      { units := [(place.rowIndex + 1) % 256 ^ tokenSize], unitSize := tokenSize }
  | .variableLength =>
    let token := bigEndian 8 settings.bookmarkStatementId ++
      bigEndian 8 settings.activeBookmarkGeneration ++ bigEndian 8 (place.rowIndex + 1)
    machine.storeBookmark layout place.slot binding bookmarkBytes
      { units := token.map UInt8.toNat }

def fetchBoundColumn (bindings : RowBindings) (place : RowPlace) (index : Nat)
    (binding : BoundResultField) (cell : Option Bytes) : RowFetch :=
  let fail (diagnostic : Diagnostic) : RowFetch :=
    { ret := .error, diagnostics := [bindings.diagnose place (index + 1) diagnostic] }
  let sqlType := result.columnType index
  let target := (binding.targetType sqlType).canonicalCType
  if !isConversionSupported sqlType target then
    fail ⟨"07006", "Unsupported result data type conversion"⟩
  else
    -- The source takes the extent without a test: the checks before the fetch made it.
    let data := machine.fieldAddress layout place.slot binding.dataPtr
      ((boundColumnStride target binding.octetLength).getD 0)
    let indicator := machine.fieldAddress layout place.slot binding.indicatorPtr machine.lengthSize
    let octetLength :=
      machine.fieldAddress layout place.slot binding.octetLengthPtr machine.lengthSize
    match cell with
    | none =>
      match indicator with
      | none => fail ⟨"22002", "NULL column requires an indicator variable"⟩
      | some address => { writes := [machine.storeLength address (-1)] }
    | some value =>
      if result.resultCellErrors.contains (place.rowIndex, index) then
        fail ⟨"22018", "Invalid backend result encoding"⟩
      else
        match binding.convert machine.toPlatform parsers result.columnInfo[index]? sqlType target
            value with
        | .error diagnostic => fail diagnostic
        | .ok conversion =>
          let outputLength := if octetLength.isSome then octetLength else indicator
          let stored : List Write :=
            (data.toList.map fun address => ⟨address, conversion.output⟩) ++
              conversion.indicator.toList.flatMap fun length =>
                outputLength.toList.map fun address => machine.storeLength address length
          let reported := (conversionDiagnostic conversion.ret conversion.issue).toList.map
            (bindings.diagnose place (index + 1))
          if conversion.ret = .error then
            { ret := .error, writes := stored, diagnostics := reported }
          else
            { ret := conversion.ret
              writes := stored ++
                if indicator = octetLength then []
                else indicator.toList.map fun address => machine.storeLength address 0
              diagnostics := reported }

def fetchBoundColumns (bindings : RowBindings) (place : RowPlace) :
    Nat → List (BoundResultField × Option Bytes) → RowFetch
  | _, [] => {}
  | index, (binding, cell) :: rest =>
    if bindings.ignored index || !binding.isBound then
      fetchBoundColumns bindings place (index + 1) rest
    else
      (machine.fetchBoundColumn parsers result layout bindings place index binding cell).andThen
        (fetchBoundColumns bindings place (index + 1) rest)

def fetchBoundRow (settings : FetchSettings) (bindings : RowBindings) (place : RowPlace) :
    RowFetch :=
  let bookmark : RowFetch :=
    { writes := bindings.bookmark.toList.flatMap
        (machine.storeRowBookmark layout settings place) }
  let columns := machine.fetchBoundColumns parsers result layout bindings place 0
    (bindings.fields.zip (result.resultRows.getD place.rowIndex []))
  let row := bookmark.andThen columns
  { row with
    writes := row.writes ++ machine.storeStatus bindings.status place.slot (.ofReturn row.ret) }

end Machine

/-! ### A rowset -/

/-- What a fetch returns, writes and posts. -/
structure FetchOutcome where
  ret : SqlReturn
  cursor : Cursor
  rows : List Nat := []
  writes : List Write := []
  diagnostics : List RowDiagnostic := []
deriving DecidableEq

/-- A call that returns before it writes or moves. -/
def FetchOutcome.refuse (cursor : Cursor) (diagnostic : Diagnostic) : FetchOutcome :=
  { ret := .error, cursor := cursor, diagnostics := [⟨diagnostic, 0, 0⟩] }

/-- A call that failed without a trace. -/
structure FetchOutcome.Refused (before : Cursor) (outcome : FetchOutcome) : Prop where
  ret : outcome.ret = .error
  writes : outcome.writes = []
  rows : outcome.rows = []
  cursor : ∃ failed, outcome.cursor = { before with fetchFailed := failed }

theorem FetchOutcome.refused_refuse (cursor : Cursor) (failed : Bool) (diagnostic : Diagnostic) :
    (FetchOutcome.refuse { cursor with fetchFailed := failed } diagnostic).Refused cursor :=
  ⟨rfl, rfl, rfl, failed, rfl⟩

def rowsetReturn (warning : Bool) (rows : List RowFetch) : SqlReturn :=
  let errors := rows.countP fun row => row.ret = .error
  if errors = rows.length then .error
  else if errors ≠ 0 || warning || rows.any fun row => row.ret = .successWithInfo then
    .successWithInfo
  else .success

inductive FetchOrientation where
  | next
  | first
  | last
  | prior
  | absolute
  | relative
  | bookmark
deriving DecidableEq

def ownerRefused : Diagnostic := ⟨"HY111", "Bookmark does not identify this owning result"⟩

/-- The row a variable-length bookmark of this result names. -/
def FetchSettings.tokenRow (settings : FetchSettings) (result : ResultSet) (token : Bytes) :
    Option Nat :=
  let ordinal := ofBigEndian ((token.drop 16).take 8)
  if settings.activeBookmarkGeneration = 0 ||
      ofBigEndian (token.take 8) ≠ settings.bookmarkStatementId ||
      ofBigEndian ((token.drop 8).take 8) ≠ settings.activeBookmarkGeneration ||
      ordinal = 0 || result.total < ordinal then none
  else some (ordinal - 1)

/-- The row named by the bookmark at an address, in the form the statement uses. -/
def FetchSettings.inputRow (settings : FetchSettings) (memory : Memory) (result : ResultSet)
    (address : Nat) : Option Nat :=
  if settings.bookmarkMode = .fixed then
    let ordinal := memory.word address
    if ordinal = 0 || result.total < ordinal then none else some (ordinal - 1)
  else settings.tokenRow result (memory.bytes address bookmarkBytes)

namespace Machine

variable (machine : Machine) (parsers : Parsers) (memory : Memory) (settings : FetchSettings)
  (result : ResultSet)

def bookmarkInputSize : Nat :=
  if settings.bookmarkMode = .fixed then machine.bookmarkSize else bookmarkBytes

/-- The row the bookmark input names. An input that names none also marks the fetch as
failed. -/
def bookmarkRow : Except (Diagnostic × Bool) Nat :=
  match settings.fetchBookmarkPtr with
  | none => .error (⟨"HY111", "Bookmark input is absent"⟩, true)
  | some address =>
    if machine.addressMax - address < machine.bookmarkInputSize settings then
      .error (⟨"HY024", "Bookmark input address span is out of range"⟩, false)
    else match settings.inputRow memory result address with
      | none => .error (ownerRefused, true)
      | some row => .ok row

def admitFetch (cursor : Cursor) (orientation : FetchOrientation) :
    Except (Diagnostic × Bool) Orientation :=
  if settings.needsData then .error (⟨"HY010", "Statement needs parameter data"⟩, false)
  else if !settings.executed then .error (⟨"HY010", "Statement has not been executed"⟩, false)
  else if result.columnInfo.isEmpty && !settings.parameterResultCursor then
    .error (⟨"24000", "Executed statement did not produce a result set"⟩, false)
  else if cursor.bulkUnpositioned &&
      (orientation = .next || orientation = .prior || orientation = .relative) then
    .error (⟨"HY010", "Bulk cursor requires explicit repositioning"⟩, false)
  else if settings.bookmarkMode ≠ .off && settings.activeBookmarkGeneration = 0 then
    .error (⟨"HY000", "Owning bookmark result is unavailable"⟩, false)
  else match orientation with
    | .next => .ok .next
    | .first => .ok .first
    | .last => .ok .last
    | .prior => .ok .prior
    | .absolute => .ok .absolute
    | .relative => .ok .relative
    | .bookmark => (machine.bookmarkRow memory settings result).map .bookmark

variable (layout : RowLayout)

def checkBookmarkRecord (record : BoundResultField) : Except Diagnostic Unit :=
  let spans (extent : Nat) : Except Diagnostic Unit :=
    if machine.recordSpansFit layout record extent then .ok () else .error bookmarkSpanRefused
  match settings.bookmarkMode with
  | .off => .error ⟨"07009", "Bookmarks are disabled"⟩
  | .fixed =>
    if !machine.isSupportedFixedBookmarkCType record.conciseType then
      .error ⟨"07006", "Invalid bookmark binding type"⟩
    else spans (machine.fixedBookmarkCTypeWidth record.conciseType record.octetLength.toNat)
  | .variableLength =>
    if record.conciseType ≠ .binary then .error ⟨"07006", "Invalid bookmark binding type"⟩
    else if record.dataPtr.isSome && record.octetLength ≠ bookmarkBytes then
      .error ⟨"HY090", "Bookmark binding requires the complete maximum length"⟩
    else spans bookmarkBytes

variable (sqlType : SqlType) (binding : BoundResultField)

def columnExtent : Option Nat :=
  if binding.dataPtr.isSome then
    boundColumnStride (binding.targetType sqlType) binding.octetLength
  else some 0

/-- Whether the addresses of a column pass. A prohibited conversion touches none. -/
def columnFits : Bool :=
  !binding.isBound ||
    !isConversionSupported sqlType (binding.targetType sqlType).canonicalCType ||
    (columnExtent sqlType binding).any (machine.recordSpansFit layout binding)

def checkBookmarkBinding : Except Diagnostic Unit :=
  match settings.ard.bookmarkRecord with
  | none => .ok ()
  | some record =>
    if settings.retrieveData && record.isBound then
      machine.checkBookmarkRecord settings layout record
    else .ok ()

def checkColumnBindings : Except Diagnostic Unit :=
  if settings.retrieveData && (settings.ard.records.zip result.columnInfo).any fun column =>
      !machine.columnFits layout column.2.sqlType column.1 then
    .error ⟨"HY024", "Rowset column address span is out of range"⟩
  else .ok ()

/-- Everything checked before a rowset is written. -/
def checkLayout : Except Diagnostic RowLayout := do
  let ard := settings.ard
  let bindingOffset ← machine.readBindingOffset memory "Binding"
    (if settings.retrieveData then ard.bindOffsetPtr else none)
  let layout : RowLayout :=
    { size := ard.arraySize, bindingOffset := bindingOffset
      rowStride := settings.rowStride }
  if machine.sizeMax < ard.arraySize || machine.sizeMax < layout.rowStride then
    .error ⟨"HY024", "Rowset application layout is out of range"⟩
  else if layout.size = 0 || !machine.spanFits settings.arrayStatusPtr layout.size 2 ||
      !machine.spanFits settings.rowsProcessedPtr 1 machine.lengthSize then
    .error ⟨"HY024", "Rowset application address span is out of range"⟩
  else do
    machine.checkBookmarkBinding settings layout
    machine.checkColumnBindings settings result layout
    .ok layout

def rowsetBindings : RowBindings :=
  { fields := settings.ard.records, ignored := fun _ => false
    bookmark := settings.ard.bookmarkRecord, status := settings.arrayStatusPtr
    attributed := 1 < settings.ard.arraySize }

def overlapWarning : RowDiagnostic :=
  ⟨⟨"01S06", "Requested rowset overlapped the beginning of the result set"⟩, 0, 0⟩

def fetchRows (overlap : Bool) (cursor : Cursor) (rows : List Nat) : FetchOutcome :=
  let cleared := machine.storeStatuses settings.arrayStatusPtr layout.size .noRow
  let counted := machine.storeCount settings.rowsProcessedPtr rows.length
  let warnings := if overlap then [overlapWarning] else []
  if rows.isEmpty then
    { ret := .noData, cursor := cursor, writes := cleared ++ counted }
  else if !settings.retrieveData then
    { ret := if overlap then .successWithInfo else .success
      cursor := cursor, rows := rows
      writes := cleared ++ counted ++
        machine.storeStatuses settings.arrayStatusPtr rows.length .success
      diagnostics := warnings }
  else
    let fetched := rows.zipIdx.map fun (rowIndex, slot) =>
      machine.fetchBoundRow parsers result layout settings (rowsetBindings settings)
        ⟨rowIndex, slot⟩
    { ret := rowsetReturn overlap fetched
      cursor := cursor, rows := rows
      writes := cleared ++ counted ++ fetched.flatMap RowFetch.writes
      diagnostics := fetched.flatMap RowFetch.diagnostics ++ warnings }

variable (cursor : Cursor)

/-- The fetch once every check has passed: the cursor moves and the rows are written. -/
def fetchRowset (orientation : Orientation) (offset : Int) : Option FetchOutcome := do
  let target ← machine.fetchTarget settings.staticCursor cursor result.total layout.size
    orientation offset
  let (moved, rows) ← machine.move settings.staticCursor cursor target result.total layout.size
  if settings.staticCursor && target.position = .onRowset &&
      machine.sqlulenMax < target.start + 1 then
    some (.refuse cursor ⟨"HY024", "Static cursor row number is out of range"⟩)
  else some (machine.fetchRows parsers settings result layout target.overlap moved rows)

def fetchImpl (orientation : FetchOrientation) (offset : Int) : Option FetchOutcome :=
  match machine.admitFetch memory settings result cursor orientation with
  | .error (diagnostic, failed) =>
    some (.refuse { cursor with fetchFailed := failed || cursor.fetchFailed } diagnostic)
  | .ok orientation =>
    match machine.checkLayout memory settings result with
    | .error diagnostic => some (.refuse cursor diagnostic)
    | .ok layout => machine.fetchRowset parsers settings result layout cursor orientation offset

def fetchScroll (orientation : FetchOrientation) (offset : Int) : Option FetchOutcome :=
  if orientation = .bookmark then
    if settings.bookmarkMode = .off then
      some (.refuse cursor
        ⟨"HYC00", "Bookmark fetch is not supported when bookmarks are disabled"⟩)
    else if !settings.staticCursor then
      some (.refuse cursor ⟨"HY106", "Bookmark fetch requires a bookmark static cursor"⟩)
    else machine.fetchImpl parsers memory settings result cursor orientation offset
  else if orientation ≠ .next && !settings.staticCursor then
    some (.refuse cursor ⟨"HYC00", "Scrollable fetch orientation is not supported"⟩)
  else machine.fetchImpl parsers memory settings result cursor orientation offset

/-! ### Bulk operations -/

def bulkField (base slot extent : Nat) : Option Nat :=
  let address := base + layout.bindingOffset
  let step := layout.stride extent
  if machine.addressMax - base < layout.bindingOffset then none
  else if step ≠ 0 && (machine.addressMax - address) / step < slot then none
  else if machine.addressMax - (address + slot * step) < extent then none
  else some (address + slot * step)

/-- Whether the field is absent or has an address. -/
def bulkFieldFits (base : Option Nat) (slot extent : Nat) : Bool :=
  base.all fun base => (machine.bulkField layout base slot extent).isSome

/-- The column is to be skipped: one of its lengths holds `SQL_COLUMN_IGNORE`, minus six. -/
def columnIgnored (slot : Nat) : Bool :=
  let isIgnored (base : Option Nat) : Bool :=
    (base.bind fun base => machine.bulkField layout base slot machine.lengthSize).any fun address =>
      memory.word address = machine.sqlulenMax + 1 - 6
  isIgnored binding.indicatorPtr || isIgnored binding.octetLengthPtr

def bulkBindings (fields : List BoundResultField) (slot : Nat) : RowBindings :=
  { fields := fields
    ignored := fun index =>
      fields[index]?.any fun binding => machine.columnIgnored memory layout binding slot
    bookmark := none, status := settings.arrayStatusPtr, attributed := true }

def bulkColumnFits (slot : Nat) : Bool :=
  machine.columnIgnored memory layout binding slot ||
    !isConversionSupported sqlType (binding.targetType sqlType).canonicalCType ||
    (columnExtent sqlType binding).any fun extent =>
      machine.bulkFieldFits layout binding.dataPtr slot extent &&
        machine.bulkFieldFits layout binding.indicatorPtr slot machine.lengthSize &&
        machine.bulkFieldFits layout binding.octetLengthPtr slot machine.lengthSize

def admitBulk (fetchByBookmark : Bool) : Except Diagnostic Nat :=
  if settings.needsData then .error ⟨"HY010", "Statement needs parameter data"⟩
  else if !fetchByBookmark then
    .error ⟨"HY092", "Invalid bulk operation for a read-only cursor"⟩
  else if !settings.executed then .error ⟨"HY010", "Statement has not been executed"⟩
  else if result.columnInfo.isEmpty then
    .error ⟨"24000", "Executed statement did not produce a result set"⟩
  else if !settings.staticCursor then
    .error ⟨"HYC00", "Bulk bookmark fetch requires a static cursor"⟩
  else
    match settings.ard.bookmarkRecord.bind fun record => record.dataPtr.map (record, ·) with
    | none => .error ⟨"HY092", "Bulk fetch requires a bound variable bookmark input"⟩
    | some (record, address) =>
      if settings.bookmarkMode ≠ .variableLength then
        .error ⟨"HY092", "Bulk fetch requires a bound variable bookmark input"⟩
      else if record.conciseType ≠ .binary then
        .error ⟨"07006", "Invalid bookmark input binding type"⟩
      else if record.octetLength ≠ bookmarkBytes then
        .error ⟨"HY090", "Bulk fetch requires complete bookmark inputs"⟩
      else .ok address

def bulkFields : List BoundResultField :=
  settings.ard.records.take (min settings.ard.records.length result.columnInfo.length)

/-- The request stays within the limits on results. -/
def bulkPlanFits (count columns : Nat) : Bool :=
  !(columns = machine.sizeMax || settings.maxRows < count || settings.maxCells < columns + 1 ||
    settings.maxCells / (columns + 1) < count || machine.sizeMax / bookmarkBytes < count ||
    machine.sizeMax / machine.boundResultFieldSize < columns ||
    (columns ≠ 0 && machine.sizeMax / columns < count))

/-- Everything checked before a bulk fetch writes. -/
def checkBulk (input : Nat) : Except Diagnostic RowLayout := do
  let ard := settings.ard
  let fields := bulkFields settings result
  if ard.arraySize = 0 || machine.sqllenMax < ard.arraySize || machine.sizeMax < ard.arraySize ||
      machine.sizeMax < ard.bindType then
    .error ⟨"HY024", "Bulk application layout is out of range"⟩
  else if !machine.bulkPlanFits settings ard.arraySize fields.length then
    .error ⟨"HY000", "Bulk bookmark input plan limit exceeded"⟩
  else
    let bindingOffset ← machine.readBindingOffset memory "Bulk" ard.bindOffsetPtr
    let layout : RowLayout :=
      { size := ard.arraySize, rowStride := ard.bindType, bindingOffset := bindingOffset }
    let last := ard.arraySize - 1
    if !machine.spanFits settings.arrayStatusPtr layout.size 2 ||
        !machine.spanFits settings.rowsProcessedPtr 1 machine.lengthSize ||
        (machine.bulkField layout input last bookmarkBytes).isNone then
      .error ⟨"HY024", "Bulk header or bookmark address span is out of range"⟩
    else if !fields.all fun binding =>
        machine.bulkFieldFits layout binding.indicatorPtr last machine.lengthSize &&
          machine.bulkFieldFits layout binding.octetLengthPtr last machine.lengthSize then
      .error ⟨"HY024", "Bulk ignore input span is out of range"⟩
    else if !(List.range layout.size).all fun slot =>
        (fields.zip result.columnInfo).all fun (binding, info) =>
          machine.bulkColumnFits memory layout info.sqlType binding slot then
      .error ⟨"HY024", "Bulk output address span is out of range"⟩
    else .ok layout

def fetchBulkRow (input slot : Nat) : RowFetch :=
  let token := memory.bytes
    ((machine.bulkField layout input slot bookmarkBytes).getD 0) bookmarkBytes
  match settings.tokenRow result token with
  | none =>
    { ret := .error, writes := machine.storeStatus settings.arrayStatusPtr slot .error
      diagnostics := [⟨ownerRefused, slot + 1, 0⟩] }
  | some rowIndex =>
    machine.fetchBoundRow parsers result layout settings
      (machine.bulkBindings memory settings layout (bulkFields settings result) slot)
      ⟨rowIndex, slot⟩

def bulkOperations (fetchByBookmark : Bool) : FetchOutcome :=
  match admitBulk settings result fetchByBookmark with
  | .error diagnostic => .refuse cursor diagnostic
  | .ok input =>
    match machine.checkBulk memory settings result input with
    | .error diagnostic => .refuse cursor diagnostic
    | .ok layout =>
      let fetched := (List.range layout.size).map
        (machine.fetchBulkRow parsers memory settings result layout input)
      { ret := rowsetReturn false fetched
        cursor := { cursor with
          bulkUnpositioned := true, rowPositioned := false, currentRow := 0
          actualFetchedRows := 0, selectedRowSlot := 0, getData := {}
          fetchFailed := fetched.all fun row => row.ret = .error }
        writes := machine.storeCount settings.rowsProcessedPtr layout.size ++
          machine.storeStatuses settings.arrayStatusPtr layout.size .error ++
          fetched.flatMap RowFetch.writes
        diagnostics := fetched.flatMap RowFetch.diagnostics }

end Machine

/-! ### What the checks establish -/

/-- The offset the application stored for its bound fields. -/
def RowDescriptor.bindingOffset (ard : RowDescriptor) (memory : Memory) : Nat :=
  ard.bindOffsetPtr.elim 0 memory.word

def RowDescriptor.layout (ard : RowDescriptor) (memory : Memory) : RowLayout :=
  { size := ard.arraySize, rowStride := ard.bindType, bindingOffset := ard.bindingOffset memory }

namespace Machine

variable {machine : Machine} {memory : Memory} {settings : FetchSettings} {result : ResultSet}
  {layout : RowLayout} {row : Nat}

theorem readBindingOffset_eq_ok {subject pointer offset}
    (read : machine.readBindingOffset memory subject pointer = .ok offset) :
    offset = pointer.elim 0 memory.word := by
  cases pointer with
  | none =>
    cases read
    rfl
  | some address =>
    simp only [readBindingOffset] at read
    split_ifs at read
    cases read
    rfl

/-- What the check of the bindings has established. -/
structure LayoutChecked (machine : Machine) (memory : Memory) (settings : FetchSettings)
    (result : ResultSet) (layout : RowLayout) : Prop where
  size : layout.size = settings.ard.arraySize
  sized : 0 < layout.size
  counted : layout.size ≤ machine.sizeMax
  status : machine.spanFits settings.arrayStatusPtr layout.size 2
  fetched : machine.spanFits settings.rowsProcessedPtr 1 machine.lengthSize
  described : settings.retrieveData → layout = settings.ard.layout memory
  bookmark : settings.retrieveData → ∀ record, settings.ard.bookmarkRecord = some record →
    record.isBound → machine.checkBookmarkRecord settings layout record = .ok ()
  columns : settings.retrieveData → ∀ binding info,
    (binding, info) ∈ settings.ard.records.zip result.columnInfo →
      machine.columnFits layout info.sqlType binding

theorem layoutChecked_of_ok (passed : machine.checkLayout memory settings result = .ok layout) :
    machine.LayoutChecked memory settings result layout := by
  unfold checkLayout at passed
  obtain ⟨bindingOffset, read, passed⟩ := bind_eq_ok.mp passed
  have offset := readBindingOffset_eq_ok read
  dsimp only at passed
  split at passed
  · cases passed
  rename_i layoutFits
  split at passed
  · cases passed
  rename_i spansFit
  obtain ⟨_, bookmark, passed⟩ := bind_eq_ok.mp passed
  obtain ⟨_, columns, passed⟩ := bind_eq_ok.mp passed
  cases passed
  simp only [Bool.or_eq_true, decide_eq_true_eq, Bool.not_eq_true', not_or, Bool.not_eq_false,
    not_lt] at layoutFits spansFit
  exact {
    size := rfl
    sized := Nat.pos_of_ne_zero spansFit.1.1
    counted := layoutFits.1
    status := spansFit.1.2
    fetched := spansFit.2
    described := fun retrieves => by
      rw [offset, FetchSettings.rowStride, if_pos retrieves, if_pos retrieves]
      rfl
    bookmark := fun retrieves record isRecord bound => by
      simpa [checkBookmarkBinding, isRecord, retrieves, bound] using bookmark
    columns := fun retrieves binding info bound => by
      unfold checkColumnBindings at columns
      split at columns
      · cases columns
      rename_i fit
      simp only [retrieves, Bool.true_and, List.any_eq_true, Bool.not_eq_true', not_exists,
        not_and, Bool.not_eq_false] at fit
      exact fit (binding, info) bound }

theorem tokenRow_lt {token : Bytes} (named : settings.tokenRow result token = some row) :
    row < result.total := by
  unfold FetchSettings.tokenRow at named
  dsimp only at named
  split at named
  · cases named
  rename_i valid
  cases named
  simp at valid
  omega

theorem inputRow_lt {address row : Nat}
    (named : settings.inputRow memory result address = some row) : row < result.total := by
  unfold FetchSettings.inputRow at named
  split at named
  · dsimp only at named
    split at named
    · cases named
    rename_i valid
    cases named
    simp at valid
    omega
  · exact tokenRow_lt named

theorem bookmarkRow_lt (named : machine.bookmarkRow memory settings result = .ok row) :
    row < result.total := by
  unfold bookmarkRow at named
  split at named
  · cases named
  split at named
  · cases named
  split at named
  · cases named
  rename_i found
  cases named
  exact inputRow_lt found

theorem admitFetch_named {orientation request}
    (admitted : machine.admitFetch memory settings result cursor orientation = .ok request)
    (isBookmark : request = .bookmark row) : row < result.total := by
  subst isBookmark
  unfold admitFetch at admitted
  repeat' split at admitted
  all_goals try cases admitted
  cases named : machine.bookmarkRow memory settings result with
  | error failure =>
    rw [named] at admitted
    cases admitted
  | ok found =>
    rw [named] at admitted
    cases admitted
    exact bookmarkRow_lt named

/-- What the check of a bulk fetch has established. -/
structure BulkChecked (machine : Machine) (memory : Memory) (settings : FetchSettings)
    (result : ResultSet) (layout : RowLayout) : Prop where
  described : layout = settings.ard.layout memory
  status : machine.spanFits settings.arrayStatusPtr layout.size 2
  fetched : machine.spanFits settings.rowsProcessedPtr 1 machine.lengthSize
  columns : ∀ slot < layout.size, ∀ binding info,
    (binding, info) ∈ (bulkFields settings result).zip result.columnInfo →
      machine.bulkColumnFits memory layout info.sqlType binding slot

theorem bulkChecked_of_ok {input : Nat}
    (passed : machine.checkBulk memory settings result input = .ok layout) :
    machine.BulkChecked memory settings result layout := by
  unfold checkBulk at passed
  dsimp only at passed
  split at passed
  · cases passed
  split at passed
  · cases passed
  obtain ⟨bindingOffset, read, passed⟩ := bind_eq_ok.mp passed
  have offset := readBindingOffset_eq_ok read
  split at passed
  · cases passed
  rename_i spansFit
  split at passed
  · cases passed
  split at passed
  · cases passed
  rename_i outputsFit
  cases passed
  simp only [Bool.or_eq_true, Bool.not_eq_true', not_or, Bool.not_eq_false] at spansFit
  exact {
    described := by rw [offset]; rfl
    status := spansFit.1.1
    fetched := spansFit.1.2
    columns := fun slot inside binding info bound => by
      simp only [Bool.not_eq_true', Bool.not_eq_false, List.all_eq_true, List.mem_range]
        at outputsFit
      exact outputsFit slot inside (binding, info) bound }

end Machine
end Odbcpp.Odbc
