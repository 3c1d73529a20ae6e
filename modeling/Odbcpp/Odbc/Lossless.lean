import Odbcpp.Odbc.Cursor
import Odbcpp.Odbc.Retrieval

/-!
# Piecewise reads lose nothing

A run is any sequence of `SQLGetData` calls on one row. `piecesSince` collects the answers for one
column since another column was last read, and `Lossless` says what the next answer must be.
`Tracks` is the invariant of runs: the recorded state stands for exactly the units these answers
have not delivered.
-/

namespace Odbcpp.Odbc

open Foundation Util Statement List Piece

/-- The call returned data or a NULL. -/
def Reply.succeeded (reply : Reply) : Bool :=
  reply.ret = .success || reply.ret = .successWithInfo

theorem Reply.ret_ne_success {reply : Reply} (failed : reply.succeeded = false) :
    reply.ret ≠ .success := by
  intro success
  simp [Reply.succeeded, success] at failed

/-- What a call may do to the recorded state: nothing, or make its column the one
last read. -/
structure Accounted (progress : GetDataState) (column : Nat) (outcome : Reply × GetDataState) :
    Prop where
  unchanged : outcome.1.succeeded = false → outcome.2 = progress
  recorded : outcome.1.succeeded = true → outcome.2.column = column

section Accounting

variable {platform : Platform} {convert : Converters} {statement : Statement}
  {progress : GetDataState} {piece : Piece}

theorem accounted_of_succeeded {column : Nat} {reply : Reply} {next : GetDataState}
    (succeeded : reply.succeeded = true) (recorded : next.column = column) :
    Accounted progress column (reply, next) :=
  ⟨fun failed => absurd (succeeded.symm.trans failed) (by decide), fun _ => recorded⟩

theorem refuse_accounted (column : Nat) (diagnostic : Diagnostic) :
    Accounted progress column (refuse progress diagnostic) :=
  ⟨fun _ => rfl, fun done => by cases done⟩

theorem noData_accounted (column : Nat) : Accounted progress column ({ ret := .noData }, progress) :=
  ⟨fun _ => rfl, fun done => by cases done⟩

theorem Piece.finish_accounted (before : GetDataState) (output : Output) (remaining : Nat)
    (more : Bool) (message : String) :
    Accounted progress piece.column (piece.finish before output remaining more message) := by
  unfold finish
  cases more <;> exact accounted_of_succeeded rfl rfl

theorem Piece.converted_accounted (conversion : Conversion) :
    Accounted progress piece.column (piece.converted progress conversion) := by
  obtain ⟨ret, output, indicator, issue⟩ := conversion
  cases ret with
  | error => exact ⟨fun _ => rfl, fun done => by cases done⟩
  | success | successWithInfo => exact accounted_of_succeeded rfl rfl

/-- The place a scan returns is the one recorded, or the start of a well-formed cell. -/
theorem Piece.scanWide_cases {cell wide}
    (scanned : piece.scanWide platform progress cell = .ok wide) : wide = progress.wide ∨
      wide.bytePosition = 0 ∧ ∃ codePoints, utf8CodePoints cell = some codePoints := by
  unfold scanWide at scanned
  split at scanned
  · split at scanned
    · cases scanned
    · cases scanned
    rename_i count counted
    cases scanned
    exact .inr ⟨rfl, platform.decoded_of_countWideUnits counted⟩
  · cases scanned
    exact .inl rfl

theorem Piece.wideText_accounted (cell : Bytes) :
    Accounted progress piece.column (piece.wideText platform progress cell) := by
  unfold wideText
  split
  · exact refuse_accounted _ _
  rename_i wide scanned
  dsimp only
  split
  · rename_i undecoded
    -- The copy can only fail from a place recorded earlier, which it leaves in place.
    rcases scanWide_cases scanned with same | ⟨start, codePoints, decoded⟩
    · exact ⟨fun _ => by rw [same], fun done => by cases done⟩
    obtain ⟨unread, later, copied, _⟩ := @platform.copyWideUnits_of_decoded cell.length
      (piece.length / platform.wcharSize - 1) cell codePoints le_rfl decoded
    rw [start, drop_zero, copied] at undecoded
    cases undecoded
  · exact finish_accounted _ _ _ _ _

theorem Statement.deliver_accounted {column : Nat} (call : GetDataCall) (value : Bytes)
    (same : piece.column = column) :
    Accounted progress column (statement.deliver platform convert progress call piece value) := by
  subst same
  unfold deliver
  split
  · exact refuse_accounted _ _
  dsimp only
  split_ifs
  · exact refuse_accounted _ _
  · exact refuse_accounted _ _
  · exact refuse_accounted _ _
  · unfold Piece.character
    split
    · exact refuse_accounted _ _
    · exact finish_accounted _ _ _ _ _
  · exact wideText_accounted _
  · unfold Piece.wideFormatted
    split
    · exact refuse_accounted _ _
    split
    · exact refuse_accounted _ _
    · exact finish_accounted _ _ _ _ _
  · exact converted_accounted _
  · exact converted_accounted _
  · unfold Piece.bytes
    split
    · exact refuse_accounted _ _
    · exact finish_accounted _ _ _ _ _
  · exact converted_accounted _
  · exact converted_accounted _

theorem Statement.retrieve_accounted (call : GetDataCall) (rowIndex : Nat) (cell : Option Bytes)
    (target : CType) : Accounted progress call.column
      (statement.retrieve platform convert progress call rowIndex cell target) := by
  unfold retrieve
  dsimp only
  split
  · exact noData_accounted _
  cases cell with
  | none =>
    dsimp only
    split_ifs
    iterate 5 exact refuse_accounted _ _
    exact accounted_of_succeeded rfl rfl
  | some value =>
    dsimp only
    split_ifs
    iterate 5 exact refuse_accounted _ _
    exact deliver_accounted call value rfl

theorem Statement.getBookmarkData_accounted (call : GetDataCall) (rowIndex : Nat) :
    Accounted progress 0 (statement.getBookmarkData platform progress call rowIndex) := by
  unfold getBookmarkData
  dsimp only
  split
  · exact refuse_accounted _ _
  · split
    · exact refuse_accounted _ _
    split
    · exact noData_accounted _
    split
    · exact refuse_accounted _ _
    · exact accounted_of_succeeded rfl rfl
  split
  · exact refuse_accounted _ _
  split
  · exact noData_accounted _
  split
  · exact noData_accounted _
  split
  · exact refuse_accounted _ _
  refine accounted_of_succeeded ?_ rfl
  dsimp only [Reply.succeeded]
  split <;> rfl

/-- A call that fails or finds no data changes nothing; one that succeeds makes its
column the one last read. -/
theorem Statement.getData_accounted (progress : GetDataState) (call : GetDataCall) :
    Accounted progress call.column (statement.getData platform convert progress call) := by
  unfold getData
  split
  · exact refuse_accounted _ _
  split
  · rename_i bookmark
    rw [bookmark]
    exact getBookmarkData_accounted call _
  split
  · exact refuse_accounted _ _
  · exact retrieve_accounted call _ _ _

end Accounting

/-! ### Runs -/

/-- A call and its reply. -/
structure Exchange where
  call : GetDataCall
  reply : Reply
deriving DecidableEq

/-- The exchanges of a sequence of calls on one row. -/
def Statement.run (platform : Platform) (convert : Converters) (statement : Statement) :
    GetDataState → List GetDataCall → List Exchange
  | _, [] => []
  | progress, call :: calls =>
    let (reply, next) := statement.getData platform convert progress call
    ⟨call, reply⟩ :: statement.run platform convert next calls

/-- One exchange added to the answers for a column: another column starts them over, and failures do
not count. -/
def notePiece (column : Nat) (earlier : List Reply) (exchange : Exchange) : List Reply :=
  if exchange.call.column = column then
    if exchange.reply.ret = .error then earlier else earlier ++ [exchange.reply]
  else if exchange.reply.succeeded then [] else earlier

def piecesSince (column : Nat) (history : List Exchange) : List Reply :=
  history.foldl (notePiece column) []

/-- The units of these answers, terminators excluded. -/
def deliveredUnits (replies : List Reply) : List Nat :=
  replies.flatMap fun reply => reply.output.units

namespace Retrieval

variable {platform : Platform} {statement : Statement} (retrieval : Retrieval platform statement)

def unitSize : Nat := if retrieval.target = .wchar then platform.wcharSize else 1

/-- Character targets end with one more unit. -/
def terminatorUnits : Nat := if retrieval.target = .binary then 0 else 1

/-- What the answer to a call must be, after the answers `earlier`. -/
structure Lossless (earlier : List Reply) (exchange : Exchange) : Prop where
  /-- Only a missing buffer or a negative length is an error. -/
  accepted : exchange.call.buffer.isSome → 0 ≤ exchange.call.length →
    exchange.reply.ret ≠ .error
  /-- All units delivered so far are a prefix of the value. -/
  inOrder : deliveredUnits earlier ++ exchange.reply.output.units <+: retrieval.units
  /-- The prefix ends between two groups. -/
  whole : ∃ count, deliveredUnits earlier ++ exchange.reply.output.units =
    (retrieval.groups.take count).flatten
  /-- The indicator is the size of what was not delivered before. -/
  indicator : exchange.reply.succeeded → exchange.call.indicator.isSome →
    exchange.reply.indicator = some
      (((retrieval.units.length - (deliveredUnits earlier).length) * retrieval.unitSize : Nat) : Int)
  /-- Nothing is written beyond the buffer. -/
  bounded : exchange.reply.output.size ≤ exchange.call.length.toNat
  /-- Success means that all that was left is delivered, with room for its terminator. -/
  success_iff : exchange.reply.ret = .success ↔ exchange.reply.succeeded ∧
    deliveredUnits earlier ++ exchange.reply.output.units = retrieval.units ∧
    (exchange.reply.output.units.length + retrieval.terminatorUnits) * retrieval.unitSize ≤
      exchange.call.length.toNat
  /-- A buffer with room for all that is left gets it. -/
  generous : exchange.reply.succeeded →
    (retrieval.units.length - (deliveredUnits earlier).length + retrieval.terminatorUnits) *
      retrieval.unitSize ≤ exchange.call.length.toNat → exchange.reply.ret = .success
  terminated : exchange.reply.ret = .success → retrieval.target ≠ .binary →
    exchange.reply.output.terminated = true
  /-- There is no data exactly after a success. -/
  noData_iff : exchange.reply.ret = .noData ↔ ∃ reply ∈ earlier, reply.ret = .success

/-- The calls so far have delivered a part of the value, or all of it. -/
inductive Tracks (progress : GetDataState) (earlier : List Reply) : Prop where
  | pending (delivered left : List (List Nat)) (holds : retrieval.Holds progress delivered left)
      (units : deliveredUnits earlier = delivered.flatten)
      (unfinished : ∀ reply ∈ earlier, reply.ret ≠ .success)
  | finished (done : retrieval.Finished progress) (units : deliveredUnits earlier = retrieval.units)
      (closed : ∃ reply ∈ earlier, reply.ret = .success)

variable {retrieval} {convert : Converters} {progress : GetDataState} {earlier : List Reply}
  {call : GetDataCall} {delivered left : List (List Nat)}

theorem deliveredUnits_append (earlier : List Reply) (reply : Reply) :
    deliveredUnits (earlier ++ [reply]) = deliveredUnits earlier ++ reply.output.units := by
  simp [deliveredUnits]

/-- A state in which the cell is not the one last read tracks the empty list. -/
theorem tracks_elsewhere (elsewhere : progress.column ≠ retrieval.column) :
    retrieval.Tracks progress [] :=
  .pending [] retrieval.groups (holds_elsewhere elsewhere) rfl (by simp)

theorem lossless_expected (whole : retrieval.groups = delivered ++ left)
    (units : deliveredUnits earlier = delivered.flatten)
    (unfinished : ∀ reply ∈ earlier, reply.ret ≠ .success) :
    retrieval.Lossless earlier ⟨call, (retrieval.piece call delivered).expected platform left⟩ := by
  generalize pieceIs : retrieval.piece call delivered = piece
  generalize chosenIs : takeWhole (piece.capacity platform) left = chosen
  have unitSizeIs : piece.unitSize platform = retrieval.unitSize := by rw [← pieceIs]; rfl
  have terminatorIs : piece.terminatorUnits = retrieval.terminatorUnits := by rw [← pieceIs]; rfl
  have outputIs : (piece.expected platform left).output.units = chosen.1.flatten := by
    rw [← chosenIs]; rfl
  have split : left = chosen.1 ++ chosen.2 := by rw [← chosenIs, takeWhole_append]
  have valueIs : retrieval.units = delivered.flatten ++ left.flatten := by
    rw [← retrieval.flatten_groups, whole, flatten_append]
  have leftIs : retrieval.units.length - (deliveredUnits earlier).length = left.flatten.length := by
    rw [units, valueIs, length_append]
    omega
  have fitsIff : piece.fits platform left = true ↔
      (left.flatten.length + retrieval.terminatorUnits) * retrieval.unitSize ≤
        call.length.toNat := by
    rw [piece.fits_iff, terminatorIs, Piece.bufferUnits, unitSizeIs,
      Nat.le_div_iff_mul_le (unitSizeIs ▸ piece.unitSize_pos platform), ← pieceIs]
    rfl
  have returned : (piece.expected platform left).ret = .success ↔
      piece.fits platform left = true := by
    simp only [Piece.expected]
    split_ifs with enough <;> simp [enough]
  have allGiven : delivered.flatten ++ chosen.1.flatten = retrieval.units ↔
      chosen.1.flatten = left.flatten := by
    rw [valueIs, append_cancel_left_eq]
  refine ⟨fun _ _ => ?_, ⟨chosen.2.flatten, ?_⟩, ⟨(delivered ++ chosen.1).length, ?_⟩,
    fun _ wanted => ?_, ?_, ?_, fun _ room => ?_, fun success text => ?_, ?_⟩
  · simp only [Piece.expected]
    split_ifs <;> decide
  · rw [outputIs, units, valueIs, split, flatten_append, append_assoc]
  · rw [outputIs, units, whole, split, ← append_assoc, take_left, flatten_append]
  · have wants : piece.wantsIndicator = true := by rw [← pieceIs]; exact wanted
    simp [Piece.expected, Piece.storeIndicator, wants, leftIs, unitSizeIs]
  · have bound := piece.size_expectedOutput_le platform left
    rw [← pieceIs] at bound ⊢
    exact bound
  · rw [returned, outputIs, units, allGiven]
    constructor
    · intro enough
      have chosenAll := piece.takeWhole_of_piece_fits platform enough
      rw [chosenIs] at chosenAll
      have room := fitsIff.1 enough
      rw [chosenAll]
      refine ⟨?_, rfl, room⟩
      simp [Reply.succeeded, Piece.expected, enough]
    · rintro ⟨_, all, room⟩
      rw [all] at room
      exact fitsIff.2 room
  · rw [leftIs] at room
    exact returned.2 (fitsIff.2 room)
  · have enough := (piece.fits_iff platform).1 (returned.1 success)
    have text' : piece.target ≠ .binary := by rw [← pieceIs]; exact text
    simp only [Piece.terminatorUnits, text', if_false] at enough
    simp [Piece.expected, Piece.expectedOutput, text']
    omega
  · constructor
    · intro none
      simp only [Piece.expected] at none
      split_ifs at none
    · rintro ⟨reply, member, success⟩
      exact absurd success (unfinished reply member)

theorem lossless_nothing {count reply}
    (cut : deliveredUnits earlier = (retrieval.groups.take count).flatten)
    (failed : reply.succeeded = false) (silent : reply.output = {})
    (accepted : call.buffer.isSome → 0 ≤ call.length → reply.ret ≠ .error)
    (noData_iff : reply.ret = .noData ↔ ∃ reply ∈ earlier, reply.ret = .success) :
    retrieval.Lossless earlier ⟨call, reply⟩ where
  accepted := accepted
  inOrder := by
    refine ⟨(retrieval.groups.drop count).flatten, ?_⟩
    rw [silent, cut, append_nil, ← flatten_append, take_append_drop,
      retrieval.flatten_groups]
  whole := ⟨count, by rw [silent, cut, append_nil]⟩
  indicator succeeded := absurd succeeded (by simp [failed])
  bounded := by simp [silent, Output.size]
  success_iff :=
    ⟨fun success => absurd success (Reply.ret_ne_success failed),
      fun given => absurd given.1 (by simp [failed])⟩
  generous succeeded := absurd succeeded (by simp [failed])
  terminated success := absurd success (Reply.ret_ne_success failed)
  noData_iff := noData_iff

theorem Tracks.ask (tracks : retrieval.Tracks progress earlier) (asks : retrieval.Asks call) :
    let outcome := statement.getData platform convert progress call
    retrieval.Lossless earlier ⟨call, outcome.1⟩ ∧
      retrieval.Tracks outcome.2 (notePiece retrieval.column earlier ⟨call, outcome.1⟩) := by
  intro outcome
  rcases tracks with ⟨delivered, left, holds, units, unfinished⟩ | ⟨done, units, closed⟩
  · by_cases usable : call.buffer.isSome ∧ 0 ≤ call.length
    · obtain ⟨replied, complete, partway⟩ :=
        @getData_pending _ _ _ convert _ _ _ _ holds asks usable.1 usable.2
      rw [show outcome.1 = _ from replied]
      have lossless := @lossless_expected _ _ retrieval _ call _ _ holds.whole units unfinished
      refine ⟨lossless, ?_⟩
      have noted : notePiece retrieval.column earlier
          ⟨call, (retrieval.piece call delivered).expected platform left⟩ =
            earlier ++ [(retrieval.piece call delivered).expected platform left] := by
        simp [notePiece, asks.1, lossless.accepted usable.1 usable.2]
      rw [noted]
      cases enough : (retrieval.piece call delivered).fits platform left with
      | true =>
        have success : ((retrieval.piece call delivered).expected platform left).ret =
            .success := by simp [Piece.expected, enough]
        refine .finished (complete enough) ?_ ⟨_, by simp, success⟩
        rw [deliveredUnits_append]
        exact (lossless.success_iff.1 success).2.1
      | false =>
        refine .pending _ _ (partway enough) ?_ ?_
        · rw [deliveredUnits_append, units, flatten_append]
          rfl
        intro reply member
        rcases mem_append.1 member with old | new
        · exact unfinished reply old
        · rw [mem_singleton.1 new]
          simp [Piece.expected, enough]
    · have unusable : call.buffer.isNone ∨ call.length < 0 := by
        rw [not_and_or, not_le] at usable
        exact usable.imp_left fun absent => by simpa using absent
      obtain ⟨diagnostic, refused⟩ := @getData_unusable _ _ _ convert _ _ _ _ holds asks unusable
      rw [show outcome = _ from refused]
      refine ⟨@lossless_nothing _ _ _ _ _ delivered.length _ ?_ rfl rfl
        (fun present nonnegative => absurd ⟨present, nonnegative⟩ usable) ?_, ?_⟩
      · rw [units, holds.whole, take_left]
      · refine ⟨fun none => (by cases none), ?_⟩
        rintro ⟨reply, member, success⟩
        exact absurd success (unfinished reply member)
      · simpa [notePiece, asks.1, refuse] using
          Tracks.pending delivered left holds units unfinished
  · rw [show outcome = _ from getData_finished done asks]
    refine ⟨@lossless_nothing _ _ _ _ _ retrieval.groups.length _ ?_ rfl rfl (fun _ _ => by simp)
      ⟨fun _ => closed, fun _ => rfl⟩, ?_⟩
    · rw [units, take_length, retrieval.flatten_groups]
    refine .finished done ?_ ?_
    · simp [notePiece, asks.1, deliveredUnits_append, units]
    · obtain ⟨reply, member, success⟩ := closed
      exact ⟨reply, by simp [notePiece, asks.1, member], success⟩

theorem Tracks.other (tracks : retrieval.Tracks progress earlier)
    (apart : call.column ≠ retrieval.column ∨
      (statement.getData platform convert progress call).1.ret = .error) :
    let outcome := statement.getData platform convert progress call
    retrieval.Tracks outcome.2 (notePiece retrieval.column earlier ⟨call, outcome.1⟩) := by
  intro outcome
  have accounted : Accounted progress call.column outcome :=
    getData_accounted progress call
  cases done : outcome.1.succeeded with
  | true =>
    have elsewhere : call.column ≠ retrieval.column := apart.resolve_right fun failed => by
      simp [Reply.succeeded, outcome, failed] at done
    have moved : outcome.2.column ≠ retrieval.column := accounted.recorded done ▸ elsewhere
    simpa [notePiece, elsewhere, done] using tracks_elsewhere moved
  | false =>
    have noted : notePiece retrieval.column earlier ⟨call, outcome.1⟩ = earlier := by
      rcases apart with elsewhere | failed
      · simp [notePiece, elsewhere, done]
      · simp [notePiece, outcome, failed, done]
    rw [noted, accounted.unchanged done]
    exact tracks

theorem Tracks.run {calls} (tracks : retrieval.Tracks progress earlier)
    (requested : ∀ exchange ∈ statement.run platform convert progress calls,
      exchange.call.column = retrieval.column →
        retrieval.Asks exchange.call ∨ exchange.reply.ret = .error)
    {before after exchange}
    (split : statement.run platform convert progress calls = before ++ exchange :: after)
    (asks : retrieval.Asks exchange.call) :
    retrieval.Lossless (before.foldl (notePiece retrieval.column) earlier) exchange := by
  induction calls generalizing progress earlier before with
  | nil => simp [run] at split
  | cons call calls ih =>
    simp only [run] at split requested
    cases before with
    | nil =>
      obtain ⟨rfl, _⟩ := List.cons.inj split
      exact (tracks.ask asks).1
    | cons first before =>
      obtain ⟨rfl, later⟩ := List.cons.inj split
      rw [foldl_cons]
      refine ih ?_ (fun exchange member => requested exchange (mem_cons_of_mem _ member))
        later
      by_cases here : call.column = retrieval.column
      · rcases requested _ mem_cons_self here with asked | failed
        · exact (tracks.ask asked).2
        · exact tracks.other (.inr failed)
      · exact tracks.other (.inl here)

end Retrieval

/-- Reading a character or binary cell in pieces is lossless. On one row, from a state in which the
cell is not the one last read, take any calls in which those for its column ask for one target or
fail: every answer is the right one after those since another column was read, and a failed call
leaves the recorded state as it was. -/
theorem getData_lossless (platform : Platform) (convert : Converters) (statement : Statement)
    (retrieval : Retrieval platform statement) (start : GetDataState)
    (fresh : start.column ≠ retrieval.column) (calls : List GetDataCall)
    (requested : ∀ exchange ∈ statement.run platform convert start calls,
      exchange.call.column = retrieval.column →
        retrieval.Asks exchange.call ∨ exchange.reply.ret = .error) : (∀ before exchange after,
      statement.run platform convert start calls = before ++ exchange :: after →
        retrieval.Asks exchange.call →
          retrieval.Lossless (piecesSince retrieval.column before) exchange) ∧
      ∀ progress call, (statement.getData platform convert progress call).1.ret = .error →
        (statement.getData platform convert progress call).2 = progress := by
  refine ⟨fun before exchange after split asks => ?_, fun progress call failed => ?_⟩
  · exact (Retrieval.tracks_elsewhere fresh).run requested split asks
  · refine (getData_accounted progress call).unchanged ?_
    simp [Reply.succeeded, failed]

def utf16Platform : Platform := Machine.lp64.toPlatform

def noConverters : Converters where
  fixedResultToBinary _ _ _ _ _ := { ret := .error }
  timeResultToTimestamp _ := { ret := .error }
  convertData _ _ _ _ _ := { ret := .error }

/-- A row with the text `a😀` and one byte of binary data. -/
def textAndByte : Statement where
  executed := true
  rowPositioned := true
  currentRow := 1
  resultRows := [[some [0x61, 0xf0, 0x9f, 0x98, 0x80], some [0xab]]]
  columnInfo := [{ sqlType := .varchar }, { sqlType := .varbinary }]
  actualFetchedRows := 1

def wideRetrieval : Retrieval utf16Platform textAndByte where
  column := 1
  target := .wchar
  rowIndex := 0
  row := [some [0x61, 0xf0, 0x9f, 0x98, 0x80], some [0xab]]
  value := [0x61, 0xf0, 0x9f, 0x98, 0x80]
  units := [0x61, 0xd83d, 0xde00]
  numbered := by decide
  located := rfl
  cell := rfl
  encoded := rfl
  source := .inl rfl
  piecewise := .inr (.inl rfl)
  converts := by decide +kernel
  reportable _ _ := by decide

/-- A small buffer, no buffer, another target, a buffer the pair does not fit, one it
fits and one call more; then the other column, and the text again from its start. -/
def pieceCalls : List GetDataCall :=
  [⟨1, .wchar, some 4096, 4, some 64⟩, ⟨1, .wchar, none, 4, some 64⟩,
    ⟨1, .char, some 4096, 4, some 64⟩, ⟨1, .wchar, some 4096, 5, some 64⟩,
    ⟨1, .wchar, some 4096, 6, some 64⟩, ⟨1, .wchar, some 4096, 6, some 64⟩,
    ⟨2, .char, some 4096, 2, some 64⟩, ⟨1, .wchar, some 4096, 8, some 64⟩]

theorem getData_lossless_surrogatePair :
    (textAndByte.run utf16Platform noConverters {} pieceCalls).map
        (fun exchange => (exchange.reply.ret, exchange.reply.output.units,
          exchange.reply.indicator)) =
      [(.successWithInfo, [0x61], some 6), (.error, [], none), (.error, [], none),
        (.successWithInfo, [], some 4), (.success, [0xd83d, 0xde00], some 4), (.noData, [], none),
        (.successWithInfo, [], some 2), (.success, [0x61, 0xd83d, 0xde00], some 6)] ∧
    ∀ before exchange after,
      textAndByte.run utf16Platform noConverters {} pieceCalls = before ++ exchange :: after →
        wideRetrieval.Asks exchange.call →
          wideRetrieval.Lossless (piecesSince 1 before) exchange :=
  ⟨by decide +kernel,
    (getData_lossless utf16Platform noConverters textAndByte wideRetrieval {} (by decide)
      pieceCalls (by unfold Retrieval.Asks; decide +kernel)).1⟩

end Odbcpp.Odbc
