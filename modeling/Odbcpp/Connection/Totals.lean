import Odbcpp.Connection.Accounting
import Odbcpp.Postgres.Tracking

/-!
# The totals of a response

The reading loop counts rows, cells, results, described entries and the bytes of
column names before it keeps a frame. Each count is a sum over the accepted messages
and stays within its limit, and what is extracted from the messages and published is
never more than what was counted.
-/

namespace Odbcpp.Connection

open Foundation Database Postgres Progress Extraction List

variable {input payload rest : Bytes} {failure : Thrown} {message : Message}

/-! ## Counters -/

/-- What is counted against the limits of a result. -/
inductive Counter where
  | rows | cells | results | metadataEntries | metadataNameBytes
deriving DecidableEq

abbrev Tally := Counter → Nat

def contents (rows : List ResultRow) (names : List Bytes) (parameters : Nat) : Tally
  | .rows => rows.length
  | .cells => (rows.map List.length).sum
  | .results => 0
  | .metadataEntries => names.length + parameters
  | .metadataNameBytes => (names.map List.length).sum

def oneResult : Tally := Pi.single .results 1

def parsedContents (result : ParsedResult) : Tally :=
  contents result.rows (result.columns.map (·.name)) result.parameterTypeIds.length

def QueryItem.contents (item : QueryItem) : Tally :=
  Connection.contents item.rows (item.columns.map (·.name)) item.normalizedParameterTypes.length

def QueryResult.total (result : QueryResult) : Tally :=
  (result.items.map fun item => item.contents + oneResult).sum

/-- The counters of the reading loop. -/
def Progress.tally (progress : Progress) : Tally
  | .rows => progress.rows
  | .cells => progress.cells
  | .results => progress.results
  | .metadataEntries => progress.metadataEntries
  | .metadataNameBytes => progress.metadataNameBytes

/-- The greatest admitted totals. -/
def ResultLimits.tally (limits : ResultLimits) : Tally
  | .rows => limits.maxRows
  | .cells => limits.maxCells
  | .results => limits.maxResults
  | .metadataEntries => limits.maxMetadataEntries
  | .metadataNameBytes => limits.maxMetadataNameBytes

/-! ## What a message adds -/

/-- The count at the head of a description or a row. -/
def columnCount (payload : Bytes) : Nat := ofBigEndian (payload.take 2)

def columnNames : Nat → Bytes → List Bytes
  | 0, _ => []
  | columns + 1, payload =>
    payload.takeWhile (· != 0) ::
      columnNames columns ((payload.dropWhile (· != 0)).drop 19)

def messageTally (message : Message) : Tally :=
  match message.tag with
  | .dataRow => Pi.single .rows 1 + Pi.single .cells (columnCount message.payload)
  | .rowDescription =>
    contents [] (columnNames (columnCount message.payload) (message.payload.drop 2)) 0
  | .parameterDescription => contents [] [] (columnCount message.payload)
  | .commandComplete | .errorResponse | .emptyQueryResponse => oneResult
  | _ => 0

theorem length_columnNames (columns : Nat) (payload : Bytes) :
    (columnNames columns payload).length = columns := by
  induction columns generalizing payload with
  | zero => rfl
  | succ columns ih => simp [columnNames, ih]

theorem resultCount_eq {columns : Nat} (counted : resultCount payload = .ok columns) :
    columns = columnCount payload := by
  unfold resultCount at counted
  split at counted <;> cases counted
  rfl

section

variable {limits : ResultLimits} {total after columns : Nat}

theorem countColumnName_eq
    (counted : countColumnName limits total payload = .ok (some (after, rest))) :
    after = total + (payload.takeWhile (· != 0)).length ∧
      rest = (payload.dropWhile (· != 0)).drop 19 ∧
      (payload.takeWhile (· != 0)).length ≤ wrappingSub 64 limits.maxMetadataNameBytes total := by
  unfold countColumnName at counted
  rw [span_eq_takeWhile_dropWhile] at counted
  split at counted
  · cases counted
  rename_i name terminator tail cut
  obtain ⟨rfl, unread⟩ := Prod.mk.inj cut
  split at counted
  · cases counted
  rename_i fits
  split at counted
  · cases counted
  cases counted
  refine ⟨rfl, ?_, by omega⟩
  rw [unread, drop_succ_cons]

theorem countColumnName_le (within : total ≤ limits.maxMetadataNameBytes)
    (counted : countColumnName limits total payload = .ok (some (after, rest))) :
    after ≤ limits.maxMetadataNameBytes := by
  obtain ⟨same, -, fits⟩ := countColumnName_eq counted
  rw [wrappingSub_of_le within] at fits
  omega

theorem countColumnNames_eq
    (counted : countColumnNames limits columns total payload = .ok (some after)) :
    after = total + ((columnNames columns payload).map List.length).sum ∧
      (total ≤ limits.maxMetadataNameBytes → after ≤ limits.maxMetadataNameBytes) := by
  induction columns generalizing total payload with
  | zero =>
    unfold countColumnNames at counted
    split at counted <;> cases counted
    exact ⟨rfl, id⟩
  | succ columns ih =>
    obtain ⟨first, one, counted⟩ := bind_eq_ok.mp counted
    match first with
    | none => cases counted
    | some (middle, rest) =>
      obtain ⟨sum, bounded⟩ := ih counted
      obtain ⟨middleSum, unread, -⟩ := countColumnName_eq one
      refine ⟨?_, fun within => bounded (countColumnName_le within one)⟩
      rw [sum, middleSum, unread, columnNames, map_cons, sum_cons]
      omega

end

/-- The counters after a frame are those before it and what its message adds, and
stay within the limits. -/
theorem countFrame_tally {limits progress after}
    (counted : countFrame limits progress message = .ok (some after)) :
    after.tally = progress.tally + messageTally message ∧
      (progress.tally ≤ limits.tally → after.tally ≤ limits.tally) := by
  have completed (counted : (if progress.results = limits.maxResults then .ok none
      else .ok (some { progress with results := progress.results + 1 }) :
      Except Thrown (Option Progress)) = .ok (some after)) :
      after.tally = progress.tally + oneResult ∧
        (progress.tally ≤ limits.tally → after.tally ≤ limits.tally) := by
    split at counted <;> cases counted
    rename_i more
    refine ⟨funext fun counter => by cases counter <;> rfl, fun within counter => ?_⟩
    have bounded := within counter
    cases counter <;> simp only [Progress.tally, ResultLimits.tally] at bounded ⊢ <;> omega
  unfold countFrame at counted
  unfold messageTally
  split at counted
  case h_1 isParameters =>
    obtain ⟨columns, count, counted⟩ := bind_eq_ok.mp counted
    split at counted <;> cases counted
    rename_i fits
    rw [isParameters, ← resultCount_eq count]
    refine ⟨funext fun counter => by cases counter <;> simp [Progress.tally, contents],
      fun within counter => ?_⟩
    have bounded := within counter
    cases counter <;> simp only [Progress.tally, ResultLimits.tally] at bounded ⊢ <;> try exact bounded
    rw [wrappingSub_of_le bounded] at fits
    omega
  case h_2 isDescription =>
    obtain ⟨columns, count, counted⟩ := bind_eq_ok.mp counted
    split at counted
    · cases counted
    rename_i fits
    obtain ⟨names, walked, counted⟩ := bind_eq_ok.mp counted
    split at counted <;> cases counted
    obtain ⟨sum, below⟩ := countColumnNames_eq walked
    rw [isDescription, ← resultCount_eq count]
    refine ⟨funext fun counter => ?_, fun within counter => ?_⟩
    · cases counter <;> simp [Progress.tally, contents, length_columnNames, sum]
    have bounded := within counter
    cases counter <;> simp only [Progress.tally, ResultLimits.tally] at bounded ⊢ <;>
      try exact bounded
    · rw [wrappingSub_of_le bounded] at fits
      omega
    · exact below bounded
  case h_3 isRow =>
    obtain ⟨columns, count, counted⟩ := bind_eq_ok.mp counted
    split at counted <;> cases counted
    rename_i fits
    rw [isRow, ← resultCount_eq count]
    refine ⟨funext fun counter => by cases counter <;> simp [Progress.tally],
      fun within counter => ?_⟩
    have bounded := within counter
    cases counter <;> simp only [Progress.tally, ResultLimits.tally] at bounded ⊢ <;>
      try exact bounded
    · omega
    · rw [wrappingSub_of_le bounded] at fits
      omega
  case h_4 isCompletion => simpa only [isCompletion] using completed counted
  case h_5 isCompletion => simpa only [isCompletion] using completed counted
  case h_6 isCompletion => simpa only [isCompletion] using completed counted
  case h_7 =>
    cases counted
    refine ⟨?_, id⟩
    split <;> first | contradiction | simp

/-! ## What the loop has counted -/

section

variable {limits : ResultLimits} {kind : ResponseKind} {expected frame : Bytes}
  {progress after : Progress} {frames : List Bytes}

theorem checks_tally {checked completed}
    (checks : checkFrame kind progress message.tag = .ok checked)
    (completes : checkExpectedCompletion expected checked message = .ok completed) :
    completed.tally = progress.tally ∧ completed.wireBytes = progress.wireBytes := by
  rw [checkExpectedCompletion_keeps completes, checkFrame_keeps checks]
  exact ⟨funext fun counter => by cases counter <;> rfl, rfl⟩

theorem Progress.Retains.tally (retains : progress.Retains limits kind expected frame after) :
    ∃ message, after.messages = progress.messages ++ [message] ∧
      after.wireBytes = progress.wireBytes ∧
      after.tally = progress.tally + messageTally message ∧
      (progress.tally ≤ limits.tally → after.tally ≤ limits.tally) := by
  obtain ⟨message, checked, completed, counted, -, -, checks, completes, counts, same⟩ := retains
  obtain ⟨unchanged, sameWire⟩ := checks_tally checks completes
  obtain ⟨adds, bounded⟩ := countFrame_tally counts
  have kept : after.tally = counted.tally := by
    rw [same]
    exact funext fun counter => by cases counter <;> rfl
  rw [kept, ← unchanged]
  refine ⟨message, ?_, ?_, adds, bounded⟩
  · rw [same, countFrame_keeps counts, checkExpectedCompletion_keeps completes,
      checkFrame_keeps checks]
  · rw [same, countFrame_keeps counts]
    exact sameWire

/-- The counters are sums over the retained messages and within the limits; the bytes
are those of the accepted frames. -/
theorem Retained.tally (retained : Retained limits kind expected frames progress) :
    progress.tally = (progress.messages.map messageTally).sum ∧
      progress.tally ≤ limits.tally ∧ progress.wireBytes = frames.flatten.length := by
  induction retained with
  | nothing =>
    refine ⟨funext fun counter => by cases counter <;> rfl, fun counter => ?_, rfl⟩
    cases counter <;> exact Nat.zero_le _
  | frame earlier retains ih =>
    obtain ⟨sum, bounded, bytes⟩ := ih
    obtain ⟨message, appended, wire, adds, stays⟩ := retains.tally
    refine ⟨?_, stays bounded, ?_⟩
    · rw [adds, appended, map_append, sum_append, ← sum, map_singleton,
        sum_singleton]
      rfl
    · rw [wire]
      simp [bytes]

end

/-! ## Parsed messages -/

theorem length_of_many {ε α : Type} {item : Reader ε α} {count : Nat}
    {values : List α} (reads : (Reader.many item count).run input = .ok (values, rest)) :
    values.length = count := by
  induction count generalizing input values rest with
  | zero =>
    cases reads
    rfl
  | succ count ih =>
    obtain ⟨⟨value, middle⟩, -, reads⟩ := bind_eq_ok.mp reads
    obtain ⟨⟨others, last⟩, tail, reads⟩ := bind_eq_ok.mp reads
    cases reads
    simp [ih tail]

theorem many_of_runAll {α : Type} {item : Reader Thrown α} {values : List α}
    (parsed : Reader.runAll (do let count ← readU16; Reader.many item count) failure payload =
      .ok values) :
    (Reader.many item (columnCount payload)).run (payload.drop 2) = .ok (values, []) := by
  unfold Reader.runAll at parsed
  split at parsed
  · rename_i value reads
    cases parsed
    obtain ⟨⟨count, middle⟩, counted, reads⟩ := bind_eq_ok.mp reads
    obtain ⟨⟨bytes, unread⟩, taken, counted⟩ := bind_eq_ok.mp counted
    cases counted
    unfold Reader.take at taken
    split at taken <;> cases taken
    exact reads
  · cases parsed
  · cases parsed

theorem length_parseDataRow {row : ResultRow} (parsed : parseDataRow payload = .ok row) :
    row.length = columnCount payload :=
  length_of_many (many_of_runAll parsed)

theorem length_parseParameterDescription {types : List Nat}
    (parsed : parseParameterDescription payload = .ok types) : types.length = columnCount payload :=
  length_of_many (many_of_runAll parsed)

theorem take_run {count rest bytes}
    (taken : (Reader.take failure count).run input = .ok (bytes, rest)) :
    rest = input.drop count := by
  simp only [StateT.run, Reader.take] at taken
  split at taken <;> cases taken
  rfl

theorem unsigned_run {width value : Nat}
    (reads : (Reader.unsigned failure width).run input = .ok (value, rest)) :
    rest = input.drop width := by
  obtain ⟨⟨bytes, unread⟩, taken, reads⟩ := bind_eq_ok.mp reads
  cases reads
  exact take_run taken

theorem readColumn_run {column}
    (reads : readColumn.run input = .ok (column, rest)) :
    column.name = input.takeWhile (· != 0) ∧ rest = (input.dropWhile (· != 0)).drop 19 := by
  obtain ⟨⟨name, afterName⟩, named, reads⟩ := bind_eq_ok.mp reads
  obtain ⟨⟨table, afterTable⟩, isTable, reads⟩ := bind_eq_ok.mp reads
  obtain ⟨⟨number, afterNumber⟩, isNumber, reads⟩ := bind_eq_ok.mp reads
  obtain ⟨⟨type, afterType⟩, isType, reads⟩ := bind_eq_ok.mp reads
  obtain ⟨⟨size, afterSize⟩, isSize, reads⟩ := bind_eq_ok.mp reads
  obtain ⟨⟨modifier, afterModifier⟩, isModifier, reads⟩ := bind_eq_ok.mp reads
  obtain ⟨⟨format, afterFormat⟩, isFormat, reads⟩ := bind_eq_ok.mp reads
  have named : name = input.takeWhile (· != 0) ∧
      afterName = (input.dropWhile (· != 0)).drop 1 := by
    simp only [readCstring, Reader.cstring, span_eq_takeWhile_dropWhile] at named
    split at named <;> cases named
    rename_i cut
    obtain ⟨rfl, unread⟩ := Prod.mk.inj cut
    exact ⟨rfl, by rw [unread, drop_succ_cons, drop_zero]⟩
  have unread : afterFormat = (input.dropWhile (· != 0)).drop 19 := by
    rw [unsigned_run isFormat, unsigned_run isModifier, unsigned_run isSize, unsigned_run isType,
      unsigned_run isNumber, unsigned_run isTable, named.2]
    simp only [drop_drop]
  dsimp only at reads
  split at reads
  · cases reads
  · cases reads
    exact ⟨named.1, unread⟩

theorem names_parseRowDescription {columns : List ParsedColumnMetadata}
    (parsed : parseRowDescription payload = .ok columns) :
    columns.map (·.name) = columnNames (columnCount payload) (payload.drop 2) := by
  have general : ∀ (count : Nat) (input rest : Bytes) (columns : List ParsedColumnMetadata),
      (Reader.many readColumn count).run input = .ok (columns, rest) →
      columns.map (·.name) = columnNames count input := by
    intro count
    induction count with
    | zero =>
      intro input rest columns reads
      cases reads
      rfl
    | succ count ih =>
      intro input rest columns reads
      obtain ⟨⟨column, middle⟩, first, reads⟩ := bind_eq_ok.mp reads
      obtain ⟨⟨others, last⟩, tail, reads⟩ := bind_eq_ok.mp reads
      cases reads
      obtain ⟨isName, unread⟩ := readColumn_run first
      rw [map_cons, ih _ _ _ tail, columnNames, isName, unread]
  exact general _ _ _ _ (many_of_runAll parsed)

/-! ## Extracted and published results -/

def parsedTally (result : ParsedResult) : Tally := parsedContents result + oneResult

/-- What the extraction loop holds, completed or not, was counted with the messages it
has seen. -/
def Covered (seen : List Message) (state : Extraction) : Prop :=
  (state.completed.map parsedTally).sum + parsedContents state.current ≤
    (seen.map messageTally).sum

section

variable {profile : PgCatalogProfile} {idle : Bool} {seen : List Message} {state next : Extraction}

theorem Covered.pending (covered : Covered seen state) (same : next.completed = state.completed)
    (adds : parsedContents next.current ≤ parsedContents state.current + messageTally message) :
    Covered (seen ++ [message]) next := by
  unfold Covered at covered ⊢
  rw [same, map_append, sum_append, map_singleton, sum_singleton]
  calc _ ≤ (state.completed.map parsedTally).sum +
        (parsedContents state.current + messageTally message) := by gcongr
    _ = (state.completed.map parsedTally).sum + parsedContents state.current +
        messageTally message := (add_assoc _ _ _).symm
    _ ≤ _ := by gcongr

theorem Covered.complete {result} (covered : Covered seen state)
    (counted : messageTally message = oneResult)
    (adds : parsedContents result ≤ parsedContents state.current) :
    Covered (seen ++ [message]) (state.complete result) := by
  unfold Covered at covered ⊢
  have fresh : parsedContents (state.complete result).current = 0 :=
    funext fun counter => by cases counter <;> rfl
  rw [fresh, add_zero, map_append, sum_append, map_singleton, sum_singleton,
    counted]
  calc ((state.completed ++ [result]).map parsedTally).sum
      = (state.completed.map parsedTally).sum + parsedContents result + oneResult := by
        simp [parsedTally, add_assoc]
    _ ≤ (state.completed.map parsedTally).sum + parsedContents state.current + oneResult := by
        gcongr
    _ ≤ _ := by gcongr

theorem Covered.step (covered : Covered seen state)
    (stepped : state.step profile idle message = .ok next) : Covered (seen ++ [message]) next := by
  have ignored (same : next = state) : Covered (seen ++ [message]) next := by
    rw [same]
    exact covered.pending rfl le_self_add
  cases tag : message.tag with
  | parseComplete =>
    obtain ⟨-, rfl⟩ := step_parseComplete stepped tag
    exact covered.pending rfl le_self_add
  | bindComplete =>
    obtain rfl := step_bindComplete stepped tag
    exact covered.pending rfl le_self_add
  | rowDescription =>
    obtain ⟨-, columns, parsed, rfl⟩ := step_rowDescription stepped tag
    refine covered.pending rfl fun counter => ?_
    simp only [messageTally, tag, ← names_parseRowDescription parsed, Pi.add_apply]
    cases counter <;> simp [parsedContents, contents]
    omega
  | dataRow =>
    obtain ⟨-, row, parsed, -, rfl⟩ := step_dataRow stepped tag
    refine covered.pending rfl fun counter => ?_
    simp only [messageTally, tag, ← length_parseDataRow parsed, Pi.add_apply]
    cases counter <;> simp [parsedContents, contents]
  | noData =>
    obtain ⟨-, rfl⟩ := step_noData stepped tag
    refine covered.pending rfl fun counter => ?_
    cases counter <;> simp [parsedContents, contents, messageTally, tag]
  | parameterDescription =>
    obtain ⟨-, types, parsed, rfl⟩ := step_parameterDescription stepped tag
    refine covered.pending rfl fun counter => ?_
    simp only [messageTally, tag, ← length_parseParameterDescription parsed, Pi.add_apply]
    cases counter <;> simp [parsedContents, contents]
  | commandComplete =>
    obtain ⟨commandTag, rfl⟩ := step_commandComplete stepped tag
    exact covered.complete (by simp [messageTally, tag]) le_rfl
  | emptyQueryResponse =>
    rcases step_emptyQueryResponse stepped tag with ⟨-, same⟩ | ⟨-, -, -, -, rfl⟩
    · exact ignored same
    · exact covered.complete (by simp [messageTally, tag]) le_rfl
  | errorResponse =>
    obtain ⟨fields, rfl⟩ := step_errorResponse stepped tag
    refine covered.complete (by simp [messageTally, tag]) fun counter => ?_
    cases counter <;> simp [parsedContents, contents, errorResult]
  | _ =>
    refine ignored (step_ignored stepped ?_ ?_ ?_ ?_) <;>
      simp [tag, Tag.completes, Tag.marksExtended, Tag.describes]

end

theorem extractQueryResult_tally {profile messages parsed}
    (extracted : extractQueryResult profile messages = .ok parsed) :
    (parsed.results.map parsedTally).sum ≤ (messages.map messageTally).sum ⊔ oneResult := by
  obtain ⟨state, folds, extracted⟩ := bind_eq_ok.mp extracted
  have nothing : Covered [] ({} : Extraction) := fun counter => by cases counter <;> rfl
  have covered : Covered messages state :=
    foldlM_invariant Covered (fun covered stepped => covered.step stepped) nothing folds
  unfold Covered at covered
  cases completed : state.completed with
  | nil =>
    rw [completed] at extracted covered
    cases extracted
    intro counter
    have counted := covered counter
    cases counter <;> simp [ParsedQueryResult.results, parsedTally, oneResult, parsedContents,
      contents] at counted ⊢ <;> omega
  | cons primary rest =>
    rw [completed] at extracted covered
    cases extracted
    exact (le_self_add.trans covered).trans le_sup_left

theorem Mirrors.contents_le {parsed item}
    (mirrors : Mirrors parsed item) : item.contents + oneResult ≤ parsedTally parsed := by
  have rows : item.rows.length = parsed.rows.length := by
    simpa using congrArg List.length mirrors.cells
  intro counter
  have parameters := mirrors.parameters
  cases counter <;>
    simp [QueryItem.contents, parsedTally, parsedContents, contents, mirrors.cells, mirrors.names,
      rows, parameters, oneResult]

theorem Published.total_le {settings kind expected frames value}
    (published : Published settings kind expected frames value)
    (someResult : 0 < settings.resultLimits.maxResults) :
    value.total ≤ settings.resultLimits.tally := by
  obtain ⟨progress, retained, parsed, extracted, mirrors, -⟩ := published
  obtain ⟨sum, within, -⟩ := retained.tally
  have one : oneResult ≤ settings.resultLimits.tally := fun counter => by
    cases counter <;> simp [oneResult, ResultLimits.tally]
    exact someResult
  have kept : List.Forall₂ (· ≤ ·) (value.items.map fun item => item.contents + oneResult)
      (parsed.results.map parsedTally) := by
    rw [forall₂_map_left_iff, forall₂_map_right_iff]
    exact (mirrors.imp fun _ _ mirrors => mirrors.contents_le).flip
  calc value.total ≤ (parsed.results.map parsedTally).sum := kept.sum_le_sum
    _ ≤ (progress.messages.map messageTally).sum ⊔ oneResult := extractQueryResult_tally extracted
    _ ≤ settings.resultLimits.tally := sup_le (sum ▸ within) one

end Odbcpp.Connection
