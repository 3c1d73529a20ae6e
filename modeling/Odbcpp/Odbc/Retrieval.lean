import Odbcpp.Odbc.Delivery

/-!
# Reading a cell in pieces

`Retrieval` is a non-NULL character or binary cell of the selected row with the units its target
makes of it; its `groups` are the parts a read never cuts. `Retrieval.Holds` relates the recorded
state of `get_data` to the groups delivered and left, and `getData_pending` shows that a call keeps
the relation.
-/

namespace Odbcpp.Odbc

open Foundation Util SqlType Piece List

/-- What a target makes of a character or binary cell: hexadecimal digits, wide characters or the
bytes themselves. -/
def deliverable (platform : Platform) (sqlType : SqlType) (target : CType) (value : Bytes) :
    Option (List Nat) :=
  if sqlType.isBinary && target ≠ .binary then some ((encodeHex value).map UInt8.toNat)
  else if target = .wchar then
    (utf8CodePoints value).map fun codePoints => codePoints.flatMap platform.wideUnits
  else some (value.map UInt8.toNat)

/-- A cell of the selected row that converts to a piecewise target. -/
structure Retrieval (platform : Platform) (statement : Statement) where
  column : Nat
  target : CType
  rowIndex : Nat
  row : List (Option Bytes)
  value : Bytes
  units : List Nat
  numbered : column ≠ 0
  located : statement.locateRow column = .ok (rowIndex, row)
  cell : row.getD (column - 1) none = some value
  encoded : statement.resultCellErrors.contains (rowIndex, column - 1) = false
  source : (statement.columnType column).isCharacter ∨ (statement.columnType column).isBinary
  piecewise : target = .char ∨ target = .wchar ∨ target = .binary
  converts : deliverable platform (statement.columnType column) target value = some units
  /-- The size of a wide text can be reported. -/
  reportable : target = .wchar → (statement.columnType column).isCharacter →
    units.length ≤ platform.maxWideUnits

theorem SqlType.isBinary_eq_false {sqlType : SqlType} (text : sqlType.isCharacter = true) :
    sqlType.isBinary = false := by
  cases sqlType <;> first | rfl | simp [isCharacter] at text

theorem SqlType.variable_source {sqlType : SqlType}
    (source : sqlType.isCharacter ∨ sqlType.isBinary) :
    sqlType.isFixedCharacterSource = false ∧ sqlType ≠ .bit ∧ sqlType ≠ .typeDate ∧
      fixedBinaryResultCType sqlType = none := by
  cases sqlType <;> first
    | exact ⟨rfl, by decide, by decide, rfl⟩
    | simp [isCharacter, isBinary] at source

namespace Retrieval

variable {platform : Platform} {statement : Statement} (retrieval : Retrieval platform statement)

def sqlType : SqlType := statement.columnType retrieval.column

/-- A call for the cell with this target, named directly or through a default. -/
def Asks (call : GetDataCall) : Prop :=
  call.column = retrieval.column ∧
    statement.effectiveTarget retrieval.row call = .ok retrieval.target

/-- The indivisible groups of units. -/
def groups : List (List Nat) :=
  if retrieval.sqlType.isBinary && retrieval.target ≠ .binary then hexGroups retrieval.value
  else if retrieval.target = .wchar then
    platform.wideGroups ((utf8CodePoints retrieval.value).getD [])
  else byteGroups retrieval.value

/-- Text of a binary column, wide text of a character column, or bytes as stored. -/
theorem groups_cases :
    (retrieval.sqlType.isBinary = true ∧ (retrieval.target = .char ∨ retrieval.target = .wchar) ∧
      retrieval.groups = hexGroups retrieval.value) ∨
    (retrieval.sqlType.isCharacter = true ∧ retrieval.target = .wchar ∧
      ∃ codePoints, utf8CodePoints retrieval.value = some codePoints ∧
        retrieval.groups = platform.wideGroups codePoints) ∨
    ((retrieval.target = .binary ∨
        retrieval.target = .char ∧ retrieval.sqlType.isBinary = false) ∧
      retrieval.groups = byteGroups retrieval.value) := by
  have converts := retrieval.converts
  rcases retrieval.source with text | binary
  · have notBinary := isBinary_eq_false text
    rcases retrieval.piecewise with target | target | target
    · exact .inr (.inr ⟨.inr ⟨target, notBinary⟩, by simp [groups, sqlType, notBinary, target]⟩)
    · simp only [deliverable, notBinary, target, Bool.false_and, Bool.false_eq_true, if_false,
        if_true, Option.map_eq_some_iff] at converts
      obtain ⟨codePoints, decoded, _⟩ := converts
      exact .inr (.inl ⟨text, target, codePoints, decoded,
        by simp [groups, sqlType, notBinary, target, decoded]⟩)
    · exact .inr (.inr ⟨.inl target, by simp [groups, target]⟩)
  · rcases retrieval.piecewise with target | target | target
    · exact .inl ⟨binary, .inl target, by simp [groups, sqlType, binary, target]⟩
    · exact .inl ⟨binary, .inr target, by simp [groups, sqlType, binary, target]⟩
    · exact .inr (.inr ⟨.inl target, by simp [groups, target]⟩)

theorem flatten_groups : retrieval.groups.flatten = retrieval.units := by
  have converts := retrieval.converts
  rw [← sqlType] at converts
  rcases retrieval.groups_cases with
    ⟨binary, target, groups⟩ | ⟨text, target, codePoints, decoded, groups⟩ | ⟨target, groups⟩
  · rw [groups, flatten_hexGroups]
    rcases target with target | target <;>
      simpa [deliverable, binary, target] using converts
  · rw [groups, Platform.wideGroups, ← flatMap_def]
    simpa [deliverable, isBinary_eq_false text, target, decoded] using converts
  rw [groups, flatten_byteGroups]
  rcases target with target | ⟨target, notBinary⟩
  · simpa [deliverable, target] using converts
  · simpa [deliverable, notBinary, target] using converts

/-! ### The recorded state -/

/-- The cell was read before and `left` is still to come. -/
structure Partway (progress : GetDataState) (delivered left : List (List Nat)) : Prop where
  column : progress.column = retrieval.column
  targetType : progress.targetType = retrieval.target
  offset : progress.offset = .delivered delivered.flatten.length
  wide : retrieval.target = .wchar → retrieval.sqlType.isCharacter = true →
    progress.wide.Holds platform retrieval.value left

/-- The groups `delivered` were returned and `left` were not; a cell that is not the
one last read starts at its beginning. -/
structure Holds (progress : GetDataState) (delivered left : List (List Nat)) : Prop where
  whole : retrieval.groups = delivered ++ left
  place : (progress.column ≠ retrieval.column ∧ delivered = []) ∨
    retrieval.Partway progress delivered left

/-- The whole cell was returned. -/
structure Finished (progress : GetDataState) : Prop where
  column : progress.column = retrieval.column
  offset : progress.offset = .complete

variable {retrieval} {convert : Converters} {progress : GetDataState} {call : GetDataCall}
  {delivered left : List (List Nat)}

theorem holds_elsewhere (elsewhere : progress.column ≠ retrieval.column) :
    retrieval.Holds progress [] retrieval.groups :=
  ⟨rfl, .inl ⟨elsewhere, rfl⟩⟩

variable (retrieval) in
/-- The request a call makes after `delivered`. -/
def piece (call : GetDataCall) (delivered : List (List Nat)) : Piece where
  column := retrieval.column
  sqlType := retrieval.sqlType
  target := retrieval.target
  length := call.length.toNat
  wantsIndicator := call.indicator.isSome
  offset := delivered.flatten.length

@[simp] theorem piece_target : (retrieval.piece call delivered).target = retrieval.target := rfl
@[simp] theorem piece_sqlType : (retrieval.piece call delivered).sqlType = retrieval.sqlType := rfl

theorem getData_eq_retrieve (asks : retrieval.Asks call) :
    statement.getData platform convert progress call =
      statement.retrieve platform convert progress call retrieval.rowIndex (some retrieval.value)
        retrieval.target := by
  obtain ⟨column, effective⟩ := asks
  simp only [Statement.getData, column, retrieval.located, retrieval.numbered, if_false, effective,
    retrieval.cell]

theorem getData_finished (finished : retrieval.Finished progress) (asks : retrieval.Asks call) :
    statement.getData platform convert progress call = ({ ret := .noData }, progress) := by
  simp [getData_eq_retrieve asks, Statement.retrieve, finished.column, asks.1, finished.offset]

variable (holds : retrieval.Holds progress delivered left)

include holds

theorem Holds.resumes :
    (if progress.column = retrieval.column then progress.offset else .delivered 0) =
        .delivered delivered.flatten.length ∧
      (progress.column = retrieval.column → progress.targetType = retrieval.target) := by
  rcases holds.place with ⟨elsewhere, rfl⟩ | partway
  · exact ⟨if_neg elsewhere, fun here => absurd here elsewhere⟩
  · exact ⟨by rw [if_pos partway.column, partway.offset], fun _ => partway.targetType⟩

theorem getData_unusable
    (asks : retrieval.Asks call) (unusable : call.buffer.isNone ∨ call.length < 0) :
    ∃ diagnostic, statement.getData platform convert progress call =
      refuse progress diagnostic := by
  obtain ⟨offset, sameType⟩ := holds.resumes
  rw [getData_eq_retrieve asks]
  simp only [Statement.retrieve, asks.1, offset]
  split
  · exact ⟨_, rfl⟩
  split
  · exact ⟨_, rfl⟩
  · rw [if_pos (unusable.resolve_left ‹_›)]
    exact ⟨_, rfl⟩

/-- Any other call reaches the branch for its target. -/
theorem getData_eq_deliver
    (asks : retrieval.Asks call) (present : call.buffer.isSome) (nonnegative : 0 ≤ call.length) :
    statement.getData platform convert progress call =
      statement.deliver platform convert progress call (retrieval.piece call delivered)
        retrieval.value := by
  obtain ⟨offset, sameType⟩ := holds.resumes
  have supported := isConversionSupported_pieces retrieval.source retrieval.piecewise
  have encoded := retrieval.encoded
  rw [getData_eq_retrieve asks]
  simp only [Statement.retrieve, asks.1, offset, encoded, supported]
  rw [if_neg (by simpa using fun here _ => sameType here),
    if_neg (by simp [Option.isSome_iff_ne_none.1 present]),
    if_neg (by omega)]
  rfl

omit holds

/-! ### The branch taken -/

/-- The checks for numbers, dates and booleans do not concern piecewise reads. -/
theorem checks_pass {sqlType target}
    (source : sqlType.isCharacter ∨ sqlType.isBinary)
    (piecewise : target = .char ∨ target = .wchar ∨ target = .binary) (value : Bytes)
    (length offset : Nat) : invalidCharacterNumericResult sqlType target value = false ∧
      nonfiniteNumericResult sqlType target value = false ∧
      valuePreservingCharacterBufferFits platform sqlType target value length offset = true := by
  refine ⟨?_, ?_, ?_⟩
  · rcases piecewise with rfl | rfl | rfl <;>
      simp [invalidCharacterNumericResult, CType.isInteger, CType.isFloating]
  · rcases piecewise with rfl | rfl | rfl <;> simp [nonfiniteNumericResult]
  obtain ⟨returnedInParts, _, notDate, _⟩ := variable_source source
  simp only [isFixedCharacterSource, Bool.or_eq_false_iff] at returnedInParts
  simp [valuePreservingCharacterBufferFits, returnedInParts, notDate]

/-- The text a piecewise read returns, when it is not the cell as stored. -/
theorem formattedText_eq {sqlType target}
    (source : sqlType.isCharacter ∨ sqlType.isBinary)
    (piecewise : target = .char ∨ target = .wchar ∨ target = .binary) (value : Bytes)
    (length : Nat) : formattedText platform sqlType target length value =
      .ok (if sqlType.isBinary && target ≠ .binary then some (encodeHex value) else none) := by
  have notBit := (variable_source source).2.1
  unfold formattedText
  rcases piecewise with rfl | rfl | rfl <;> cases sqlType.isBinary <;> simp [notBit]

theorem deliver_branch (piece : Piece) (source : piece.sqlType.isCharacter ∨ piece.sqlType.isBinary)
    (piecewise : piece.target = .char ∨ piece.target = .wchar ∨ piece.target = .binary)
    (value : Bytes) : statement.deliver platform convert progress call piece value =
      let text := if piece.sqlType.isBinary then encodeHex value else value
      if piece.target = .char then piece.character progress text
      else if piece.target = .binary then piece.bytes progress value
      else if piece.sqlType.isBinary then piece.wideFormatted platform progress text
      else piece.wideText platform progress text := by
  obtain ⟨_, notBit, _, unconverted⟩ := variable_source source
  have checks := fun text => @checks_pass platform _ _ source piecewise text piece.length piece.offset
  simp only [Statement.deliver, formattedText_eq source piecewise, (checks _).1, (checks _).2.1,
    (checks _).2.2, unconverted]
  rcases piecewise with target | target | target
  · cases piece.sqlType.isBinary <;> simp [target]
  · rcases source with text | binary
    · simp [target, text, isBinary_eq_false text]
    · simp [target, binary]
  · simp [target, notBit]

/-- Each branch makes the abstract delivery; only the place in a wide text changes
besides the offset. -/
theorem deliver_eq (holds : retrieval.Holds progress delivered left) : ∃ wide : WideGetDataState,
      statement.deliver platform convert progress call (retrieval.piece call delivered)
          retrieval.value =
        (retrieval.piece call delivered).deliverGroups platform { progress with wide := wide }
          left ∧
      (retrieval.target = .wchar → retrieval.sqlType.isCharacter = true →
        wide.Holds platform retrieval.value
          (takeWhole ((retrieval.piece call delivered).capacity platform) left).2) := by
  have whole := congrArg List.flatten holds.whole
  rw [flatten_append] at whole
  have among : ∀ group ∈ left, group ∈ retrieval.groups := fun group member =>
    holds.whole ▸ mem_append_right _ member
  rw [deliver_branch (retrieval.piece call delivered) retrieval.source retrieval.piecewise]
  simp only [piece_target, piece_sqlType]
  rcases retrieval.groups_cases with
    ⟨binary, target, groups⟩ | ⟨text, target, codePoints, decoded, groups⟩ | ⟨target, groups⟩
  · rw [groups, flatten_hexGroups] at whole
    have uniform : ∀ group ∈ left, group.length = if retrieval.sqlType.isBinary then 2 else 1 := by
      intro group member
      rw [if_pos binary]
      exact length_of_mem_hexGroups (groups ▸ among group member)
    refine ⟨progress.wide, ?_, fun _ text => ?_⟩
    · rcases target with target | target
      · simp only [target, binary, if_true]
        exact character_eq whole rfl target uniform
      · simp only [target, binary, if_true, reduceCtorEq, if_false]
        exact wideFormatted_eq whole rfl target (encodeHex_ascii _) uniform
    · rw [isBinary_eq_false text] at binary
      cases binary
  · simp only [target, isBinary_eq_false text, Bool.false_eq_true, reduceCtorEq, if_false]
    have scanned : ∃ wide, (retrieval.piece call delivered).scanWide platform progress
        retrieval.value = .ok wide ∧ wide.Holds platform retrieval.value left := by
      rcases holds.place with ⟨elsewhere, rfl⟩ | partway
      · have all : left = platform.wideGroups codePoints := by rw [← groups, holds.whole]; rfl
        have reportable := retrieval.reportable target text
        rw [← retrieval.flatten_groups, groups] at reportable
        rw [all]
        exact scanWide_first elsewhere decoded reportable
      · exact ⟨progress.wide, scanWide_again partway.column partway.targetType
          (partway.wide target text), partway.wide target text⟩
    obtain ⟨wide, scan, wideHolds⟩ := scanned
    obtain ⟨advanced, outcome, advancedHolds⟩ := wideText_eq target scan wideHolds
    exact ⟨advanced, outcome, fun _ _ => advancedHolds⟩
  · rw [groups, flatten_byteGroups] at whole
    have single : ∀ group ∈ left, group.length = 1 := fun group member =>
      length_of_mem_byteGroups (groups ▸ among group member)
    refine ⟨progress.wide, ?_, fun wide _ => ?_⟩
    · rcases target with target | ⟨target, notBinary⟩
      · simp only [target, if_true, reduceCtorEq, if_false]
        exact bytes_eq whole rfl target single
      · simp only [target, notBinary, if_true, Bool.false_eq_true, if_false]
        exact character_eq whole rfl target (by simpa [notBinary] using single)
    · rcases target with target | ⟨target, _⟩ <;> simp [target] at wide

/-- A call with a buffer makes the abstract delivery, and the recorded state then
stands for what is left. -/
theorem getData_pending (holds : retrieval.Holds progress delivered left)
    (asks : retrieval.Asks call) (present : call.buffer.isSome) (nonnegative : 0 ≤ call.length) :
    let piece := retrieval.piece call delivered
    let chosen := takeWhole (piece.capacity platform) left
    let outcome := statement.getData platform convert progress call
    outcome.1 = piece.expected platform left ∧
      (piece.fits platform left = true → retrieval.Finished outcome.2) ∧
      (piece.fits platform left = false →
        retrieval.Holds outcome.2 (delivered ++ chosen.1) chosen.2) := by
  intro piece chosen outcome
  obtain ⟨wide, made, wideHolds⟩ := @deliver_eq _ _ _ convert progress call _ _ holds
  have outcome_eq : outcome = piece.deliverGroups platform { progress with wide := wide } left :=
    (getData_eq_deliver holds asks present nonnegative).trans made
  have returnedInParts : piece.fixedCharacterSource = false := by
    simp [fixedCharacterSource, piece, sqlType, (variable_source retrieval.source).1]
  have next := piece.snd_deliverGroups platform { progress with wide := wide } left
  rw [← outcome_eq, GetDataState.saveOffset, returnedInParts] at next
  refine ⟨by rw [outcome_eq, fst_deliverGroups], fun enough => ?_, fun short => ?_⟩
  · rw [next, enough]
    exact ⟨rfl, rfl⟩
  rw [next, short]
  refine ⟨?_, .inr ⟨rfl, rfl, ?_, wideHolds⟩⟩
  · rw [append_assoc, takeWhole_append, holds.whole]
  · simp [piece, Retrieval.piece, expectedOutput, chosen]

end Retrieval
end Odbcpp.Odbc
