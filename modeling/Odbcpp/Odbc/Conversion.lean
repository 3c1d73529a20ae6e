import Odbcpp.Odbc.GetData

/-!
# Conversion of a cell into a bound buffer

`TextDataConverter::convert_data` of `odbc/text_data_converter.cpp` and the conversions of
`odbc/odbc_handles.cpp` that a fetch uses. Reading a number, a date or a time out of a text is a
parameter, `Parsers`; how much of the buffer a conversion writes is decided here.
-/

namespace Odbcpp.Odbc

open Foundation Util

/-- The texts of fixed-size values: the stored image and whether digits were lost. -/
structure Parsers where
  /-- The value of a text as a C type; precision and scale matter to `SQL_C_NUMERIC`. -/
  parse : CType → Bytes → Int → Int → Except ConversionIssue (Nat × Bool)
  /-- A time of today with no fraction, as a timestamp. -/
  timeToTimestamp : Bytes → Except ConversionIssue (Nat × Bool)

def Parsers.refusing : Parsers := ⟨fun _ _ _ _ => .error .none, fun _ => .error .none⟩

/-- `sizeof` of the C representation of a fixed-size type. -/
def fixedCTypeSize : CType → Option Nat
  | .stinyint | .utinyint | .bit => some 1
  | .sshort | .ushort => some 2
  | .slong | .ulong | .float => some 4
  | .sbigint | .ubigint | .double => some 8
  | .numeric => some 19
  | .date | .typeDate | .time | .typeTime => some 6
  | .timestamp | .typeTimestamp => some 16
  | _ => none

/-- `bound_column_stride`: the extent of one slot of a bound column. -/
def boundColumnStride (type : CType) (length : Int) : Option Nat :=
  match type.canonicalCType with
  | .char | .wchar | .binary => if length < 0 then none else some length.toNat
  | fixed => fixedCTypeSize fixed

/-- Success, or information when part of the value was left out. -/
def ConversionReturn.ofTruncated (truncated : Bool) : ConversionReturn :=
  if truncated then .successWithInfo else .success

def convertString (value : Bytes) (length : Int) : Conversion :=
  if length < 0 then { ret := .error }
  else if length = 0 then { ret := .successWithInfo, indicator := some value.length }
  else
    let count := min (length.toNat - 1) value.length
    { ret := .ofTruncated (count < value.length)
      output := { units := (value.take count).map UInt8.toNat, terminated := true }
      indicator := some value.length }

def convertWideString (platform : Platform) (value : Bytes) (length : Int) : Conversion :=
  if length < 0 then { ret := .error }
  else match platform.utf8ToWide value with
    | none => { ret := .error, issue := .invalidCharacterValue }
    | some wide =>
      let bufferUnits := length.toNat / platform.wcharSize
      let whole := min (bufferUnits - 1) wide.length
      let last := wide.getD (whole - 1) 0
      let count :=
        if platform.wcharSize = 2 && whole < wide.length && 0 < whole &&
            0xd800 ≤ last && last ≤ 0xdbff then whole - 1
        else whole
      let required : Int := (wide.length * platform.wcharSize : Nat)
      if bufferUnits = 0 then { ret := .successWithInfo, indicator := some required }
      else
        { ret := .ofTruncated (count < wide.length)
          output :=
            { units := wide.take count, unitSize := platform.wcharSize, terminated := true }
          indicator := some required }

/-- The bytes of a cell as they are, as far as they fit. -/
def convertBytes (value : Bytes) (length : Nat) : Conversion :=
  let count := min length value.length
  { ret := .ofTruncated (count < value.length)
    output := { units := (value.take count).map UInt8.toNat }
    indicator := some value.length }

/-- The image of a parsed value in a field of its size. -/
def storeFixed (width : Nat) : Except ConversionIssue (Nat × Bool) → Conversion
  | .error issue => { ret := .error, issue := issue }
  | .ok (image, truncated) =>
    { ret := .ofTruncated truncated
      output := { units := [image], unitSize := width }
      indicator := some width
      issue := if truncated then .fractionalTruncation else .none }

namespace Parsers

variable (parsers : Parsers)

/-- `TextDataConverter::convert_data`. -/
def convertData (platform : Platform) (value : Bytes) (target : CType) (length precision scale : Int) :
    Conversion :=
  match target.canonicalCType with
  | .char => convertString value length
  | .wchar => convertWideString platform value length
  | .binary =>
    if length < 0 then { ret := .error, issue := .invalidCharacterValue }
    else convertBytes value length.toNat
  | fixed =>
    match fixedCTypeSize fixed with
    | none => { ret := .error }
    | some width => storeFixed width (parsers.parse fixed value precision scale)

def convertTimeResultToTimestamp (value : Bytes) : Conversion :=
  storeFixed 16 (parsers.timeToTimestamp value)

/-- `convert_fixed_result_to_binary`; without a buffer only the length is wanted. -/
def convertFixedResultToBinary (sqlType : SqlType) (value : Bytes) (buffer : Bool) (length : Int)
    (sourcePrecision : Nat) (sourceScale : Int) : Conversion :=
  match fixedBinaryResultCType sqlType with
  | none => { ret := .error }
  | some cType =>
    if cType = .numeric && (sourcePrecision < 1 || 38 < sourcePrecision || sourceScale < -128 ||
        (sourcePrecision : Int) < sourceScale) then
      { ret := .error, issue := .numericValueOutOfRange }
    else
      match fixedCTypeSize cType with
      | none => { ret := .error }
      | some width =>
        let precision : Int := if cType = .numeric then sourcePrecision else 38
        let scale := if cType = .numeric then sourceScale else 0
        let conversion := storeFixed width (parsers.parse cType value precision scale)
        if conversion.ret = .error then conversion
        else if buffer && length < width then
          { ret := .error, issue := .numericValueOutOfRange }
        else conversion

/-- `indicator_only_result_length`: the length a value would take, when only the length
is bound. -/
def indicatorOnlyResultLength (platform : Platform) (sqlType : SqlType) (target : CType)
    (value : Bytes) (precision scale : Int) (sourcePrecision : Nat) (sourceScale : Int) :
    Conversion :=
  let bytes (units unitSize : Nat) : Conversion :=
    if platform.sqllenMax / unitSize < units then
      { ret := .error, issue := .numericValueOutOfRange }
    else { ret := .success, indicator := some ((units * unitSize : Nat) : Int) }
  if invalidCharacterNumericResult sqlType target value then
    { ret := .error, issue := .invalidCharacterValue }
  else if nonfiniteNumericResult sqlType target value then
    { ret := .error, issue := .numericValueOutOfRange }
  else if sqlType = .bit && value ≠ ascii "0" && value ≠ ascii "1" then
    { ret := .error, issue := .invalidCharacterValue }
  else if target = .char || target = .wchar then
    let unitSize := if target = .wchar then platform.wcharSize else 1
    if sqlType.isBinary then bytes value.length (2 * unitSize)
    else if target = .char then bytes value.length 1
    else match platform.countWideUnits value.length 0 value with
      | .invalid => { ret := .error, issue := .invalidCharacterValue }
      | .tooLong => { ret := .error, issue := .numericValueOutOfRange }
      | .units units => bytes units unitSize
  else if target = .binary && (fixedBinaryResultCType sqlType).isSome then
    parsers.convertFixedResultToBinary sqlType value false 0 sourcePrecision sourceScale
  else if target = .binary then bytes (if sqlType = .bit then 1 else value.length) 1
  else if (boundColumnStride target 0).isNone then
    { ret := .error, issue := .invalidCharacterValue }
  else if (sqlType = .typeTime || sqlType = .time) &&
      (target = .typeTimestamp || target = .timestamp) then
    parsers.convertTimeResultToTimestamp value
  else parsers.convertData platform value target 35 precision scale

end Parsers

/-! ### How much a conversion writes -/

variable {platform : Platform} {parsers : Parsers} {length : Int} {value : Bytes}

theorem size_convertString_le (value : Bytes) :
    (convertString value length).output.size ≤ length.toNat := by
  unfold convertString
  split_ifs with negative empty
  · simp [Output.size]
  · simp [Output.size]
  · simp [Output.size]
    omega

theorem size_convertWideString_le (value : Bytes) :
    (convertWideString platform value length).output.size ≤ length.toNat := by
  have size := platform.wcharSize_pos
  unfold convertWideString
  split_ifs with negative
  · simp [Output.size]
  split
  · simp [Output.size]
  rename_i wide _
  dsimp only
  split_ifs with empty
  · simp [Output.size]
  all_goals
    have buffer : length.toNat / platform.wcharSize * platform.wcharSize ≤ length.toNat :=
      Nat.div_mul_le_self _ _
    refine le_trans (Nat.mul_le_mul_right _ ?_) buffer
    generalize length.toNat / platform.wcharSize = bufferUnits at empty ⊢
    simp
    omega

theorem size_convertBytes_le (value : Bytes) (length : Nat) :
    (convertBytes value length).output.size ≤ length := by
  simp only [convertBytes, Output.size, List.length_map, List.length_take, Bool.false_eq_true,
    if_false]
  omega

theorem size_storeFixed_le (width : Nat) (parsed : Except ConversionIssue (Nat × Bool)) :
    (storeFixed width parsed).output.size ≤ width := by
  cases parsed <;> simp [storeFixed, Output.size]

theorem output_storeFixed_of_failed {width parsed}
    (failed : (storeFixed width parsed).ret = .error) : (storeFixed width parsed).output = {} := by
  rcases parsed with issue | ⟨image, truncated⟩
  · rfl
  · cases truncated <;> cases failed

theorem Parsers.size_convertData_le {target : CType} {length precision scale : Int}
    {extent : Nat} (stride : boundColumnStride target length = some extent) :
    (parsers.convertData platform value target length precision scale).output.size ≤ extent := by
  unfold boundColumnStride at stride
  unfold convertData
  generalize target.canonicalCType = cType at stride ⊢
  split at stride
  · split_ifs at stride
    cases stride
    exact size_convertString_le value
  · split_ifs at stride
    cases stride
    exact size_convertWideString_le value
  · split_ifs at stride with negative
    cases stride
    simp only [if_neg negative]
    exact size_convertBytes_le value _
  split
  · rename_i unsupported
    cases unsupported.symm.trans stride
  rename_i width size
  cases size.symm.trans stride
  exact size_storeFixed_le _ _

theorem Parsers.size_convertFixedResultToBinary_le {sqlType : SqlType}
    {sourcePrecision : Nat} {sourceScale : Int} :
    (parsers.convertFixedResultToBinary sqlType value true length sourcePrecision
      sourceScale).output.size ≤ length.toNat := by
  unfold convertFixedResultToBinary
  split
  · simp [Output.size]
  rename_i cType _
  split
  · simp [Output.size]
  split
  · simp [Output.size]
  rename_i width _
  dsimp only
  generalize parsers.parse cType value _ _ = parsed
  split_ifs with failed tooSmall
  · rw [output_storeFixed_of_failed failed]
    simp [Output.size]
  · simp [Output.size]
  refine le_trans (size_storeFixed_le width parsed) ?_
  simp at tooSmall
  omega

theorem size_convertBitResultToBinary_le (value : Bytes) (length : Nat) :
    (convertBitResultToBinary value length).output.size ≤ length := by
  unfold convertBitResultToBinary
  split
  · simp [Output.size]
  split_ifs with small
  · simp [Output.size]
  all_goals
    simp [Output.size]
    omega

end Odbcpp.Odbc
