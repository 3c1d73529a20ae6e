import Odbcpp.Odbc.Cursor
import Odbcpp.Odbc.ParameterArrays

/-!
# What a command array reports

The outcomes of a batch reach the application by three routes: the status array, the
call that ran the batch, and SQLMoreResults. Together they report every outcome once, in
slot order, if the batch stops at its first failure and every count fits a SQLLEN.
-/

namespace Odbcpp.Odbc

open Foundation Database Connection Postgres Util Program List

/-! ## Outcomes -/

def CommandState.status : CommandState → ParamStatus
  | .succeeded => .success
  | .failed => .error
  | .skipped | .notAttempted => .unused

namespace PreparedCommandOutcome

def counted (outcome : PreparedCommandOutcome) : Option QueryResult :=
  if outcome.state = .succeeded then outcome.result else none

def failure (outcome : PreparedCommandOutcome) : Option BackendError :=
  if outcome.state = .failed then outcome.error else none

/-- A success has a count that fits a SQLLEN, and a failure has an error. -/
structure Reportable (platform : Platform) (outcome : PreparedCommandOutcome) : Prop where
  succeeded : outcome.state = .succeeded → ∃ result, outcome.result = some result ∧
    result.error = none ∧ result.affectedRows ≤ platform.sqllenMax
  failed : outcome.state = .failed → ∃ error, outcome.error = some error

end PreparedCommandOutcome

variable (batch : PreparedCommandBatchResult)

def PreparedCommandBatchResult.StopsAtFailure : Prop :=
  batch.outcomes.Pairwise fun outcome later =>
    outcome.state = .failed → later.state ≠ .succeeded ∧ later.state ≠ .failed

def failureRecord (normalize : BackendError → Option Bytes) (slot : Nat) (error : BackendError) :
    DiagnosticRecord :=
  { state := queryFailureSqlstate normalize error "HY000"
    message := replaceInvalidUtf8 error.message
    rowNumber := some (slot + 1) }

def PreparedCommandBatchResult.counts : List Nat :=
  batch.outcomes.filterMap fun outcome => outcome.counted.map (·.affectedRows)

def PreparedCommandBatchResult.failures (normalize : BackendError → Option Bytes)
    (batch : PreparedCommandBatchResult) : List DiagnosticRecord :=
  batch.outcomes.zipIdx.filterMap fun outcome =>
    outcome.1.failure.map (failureRecord normalize outcome.2)

/-! ## Staging -/

section

variable {platform : Platform} {normalize : BackendError → Option Bytes}

variable {staging : Staging} {statement : StatementResults}

def stagedResult (normalize : BackendError → Option Bytes) (header : DiagnosticHeader)
    (outcome : PreparedCommandOutcome × Nat) : Option PendingResult :=
  match outcome.1.counted, outcome.1.failure with
  | some result, _ => some { value := result, parameterArrayHeader := some (countHeader header result) }
  | none, some error =>
    some { value := { error := some error }
           parameterDiagnostic :=
             some ⟨queryFailureSqlstate normalize error "HY000", outcome.2 + 1⟩ }
  | none, none => none

/-- The statuses the loop stores from `slot` on; only commands that ran store one. -/
def storeStatuses : Nat → List PreparedCommandOutcome → List ParamStatus → List ParamStatus
  | _, [], statuses => statuses
  | slot, outcome :: rest, statuses =>
    storeStatuses (slot + 1) rest
      (if outcome.state = .succeeded ∨ outcome.state = .failed then
        statuses.set slot outcome.state.status
      else statuses)

theorem storeStatuses_unused (outcomes : List PreparedCommandOutcome) (done : List ParamStatus) :
    storeStatuses done.length outcomes (done ++ List.replicate outcomes.length .unused) =
      done ++ outcomes.map (·.state.status) := by
  induction outcomes generalizing done with
  | nil => simp [storeStatuses]
  | cons outcome rest ih =>
    have stored : (if outcome.state = .succeeded ∨ outcome.state = .failed then
        (done ++ List.replicate (outcome :: rest).length ParamStatus.unused).set done.length
          outcome.state.status
        else done ++ List.replicate (outcome :: rest).length ParamStatus.unused) =
        (done ++ [outcome.state.status]) ++ List.replicate rest.length ParamStatus.unused := by
      cases state : outcome.state <;> simp [CommandState.status, replicate_succ]
    rw [storeStatuses, stored]
    have further := ih (done ++ [outcome.state.status])
    rw [length_append, length_singleton] at further
    rw [further]
    simp

/-- What the loop over the outcomes of a batch has staged. -/
structure Staged (normalize : BackendError → Option Bytes) (statement : StatementResults)
    (slot : Nat) (staging : Staging) (outcomes : List PreparedCommandOutcome) (after : Staging)
    (final : StatementResults) : Prop where
  results : after.results = staging.results ++
    (outcomes.zipIdx slot).filterMap (stagedResult normalize statement.header)
  failed : after.failed = (staging.failed || outcomes.any (·.failure.isSome))
  successful : after.successful = staging.successful + outcomes.countP (·.counted.isSome)
  zeroSearched : after.allZeroSearched = (staging.allZeroSearched &&
    outcomes.all fun outcome => outcome.counted.all zeroSearched)
  statement : final =
    { statement with
      statuses := statement.statuses.map (storeStatuses slot outcomes)
      diagnostics := statement.diagnostics ++ (outcomes.zipIdx slot).filterMap fun outcome =>
        outcome.1.failure.map (failureRecord normalize outcome.2) }

theorem stageOutcome_staged {outcome slot}
    (reportable : outcome.Reportable platform)
    (room : outcome.failure.isSome → statement.diagnostics.length < 32767) :
    ∃ after final, (stageOutcome platform normalize slot staging outcome).outcome statement =
      (.ok after, final) ∧ Staged normalize statement slot staging [outcome] after final := by
  have unreported (counted : outcome.counted = none) (failure : outcome.failure = none) :
      Staged normalize statement slot staging [outcome] staging
        { statement with statuses := statement.statuses.map (storeStatuses slot [outcome]) } := by
    constructor <;> simp [counted, failure, stagedResult]
  cases state : outcome.state with
  | succeeded =>
    obtain ⟨result, isResult, -, fits⟩ := reportable.succeeded state
    have counted : outcome.counted = some result := by
      simp [PreparedCommandOutcome.counted, state, isResult]
    have failure : outcome.failure = none := by simp [PreparedCommandOutcome.failure, state]
    refine ⟨{ staging with
        successful := staging.successful + 1
        allZeroSearched := staging.allZeroSearched && zeroSearched result
        results := staging.results ++ [{ value := result
                                         parameterArrayHeader :=
                                           some (countHeader statement.header result) }] },
      statement.outputStatus slot .success, ?_, ?_⟩
    · simp only [stageOutcome, state, isResult, stageSuccess, if_neg (not_lt.mpr fits)]
      rfl
    · constructor <;> simp [counted, failure, stagedResult, StatementResults.outputStatus,
        storeStatuses, state, CommandState.status]
  | failed =>
    obtain ⟨error, isError⟩ := reportable.failed state
    have counted : outcome.counted = none := by simp [PreparedCommandOutcome.counted, state]
    have failure : outcome.failure = some error := by
      simp [PreparedCommandOutcome.failure, state, isError]
    have unfilled : ¬ 32767 ≤ statement.diagnostics.length := by
      have := room (by simp [failure])
      omega
    refine ⟨{ staging with
        failed := true
        results := staging.results ++ [{ value := { error := some error }
                                         parameterDiagnostic :=
                                           some ⟨queryFailureSqlstate normalize error "HY000",
                                             slot + 1⟩ }] },
      (statement.outputStatus slot .error).addAttributedDiagnostic
        (queryFailureSqlstate normalize error "HY000") error.message (slot + 1), ?_, ?_⟩
    · simp only [stageOutcome, state, isError, stageFailure]
      rfl
    constructor <;> simp [counted, failure, stagedResult, StatementResults.outputStatus,
      storeStatuses, state, CommandState.status, StatementResults.addAttributedDiagnostic,
      failureRecord, unfilled]
  | skipped | notAttempted =>
    refine ⟨staging, statement, by simp only [stageOutcome, state]; rfl, ?_⟩
    simpa [storeStatuses, state] using unreported (by simp [PreparedCommandOutcome.counted, state])
      (by simp [PreparedCommandOutcome.failure, state])

theorem Staged.cons {outcome rest slot staging middle after statement between final}
    (first : Staged normalize statement slot staging [outcome] middle between)
    (others : Staged normalize between (slot + 1) middle rest after final) :
    Staged normalize statement slot staging (outcome :: rest) after final := by
  have sameHeader : between.header = statement.header := by rw [first.statement]
  constructor
  · rw [others.results, first.results, sameHeader, append_assoc, ← filterMap_append]
    rfl
  · rw [others.failed, first.failed]
    simp [Bool.or_assoc]
  · rw [others.successful, first.successful]
    simp only [countP_cons, countP_nil]
    omega
  · rw [others.zeroSearched, first.zeroSearched]
    simp [Bool.and_assoc]
  · rw [others.statement, first.statement]
    simp [← filterMap_append]
    rfl

/-- The whole loop, if every outcome can be reported and the records can be numbered. -/
theorem stageOutcomes_staged {outcomes slot}
    (reportable : ∀ outcome ∈ outcomes, outcome.Reportable platform)
    (room : statement.diagnostics.length + outcomes.countP (·.failure.isSome) ≤ 32767) :
    ∃ after final, (stageOutcomes platform normalize slot staging outcomes).outcome statement =
      (.ok after, final) ∧ Staged normalize statement slot staging outcomes after final := by
  induction outcomes generalizing slot staging statement with
  | nil => exact ⟨staging, statement, rfl, by constructor <;> simp [storeStatuses]⟩
  | cons outcome rest ih =>
    rw [countP_cons] at room
    have fits (isSome : outcome.failure.isSome) : statement.diagnostics.length < 32767 := by
      rw [if_pos isSome] at room
      omega
    obtain ⟨middle, between, stepped, first⟩ :
        ∃ middle between, (stageOutcome platform normalize slot staging outcome).outcome statement =
          (.ok middle, between) ∧ Staged normalize statement slot staging [outcome] middle between :=
      stageOutcome_staged (reportable outcome (by simp)) fits
    have fitsToo : between.diagnostics.length + rest.countP (·.failure.isSome) ≤ 32767 := by
      rw [first.statement]
      cases failure : outcome.failure <;> simp [failure] at room ⊢ <;> omega
    obtain ⟨after, final, folded, others⟩ :=
      ih (fun other member => reportable other (by simp [member])) fitsToo
    refine ⟨after, final, ?_, first.cons others⟩
    rw [stageOutcomes, outcome_bind, stepped]
    exact folded

end

/-! ## Draining -/

def countReport (count : Nat) : CallReport := { ret := .success, rowCount := some count }

def failureReport (record : DiagnosticRecord) : CallReport :=
  { ret := .error, diagnostics := [record] }

def nothingReport : CallReport := { ret := .noData }

/-- Pending results are row counts, and at last a failure. -/
inductive Queued : List PendingResult → List Nat → List DiagnosticRecord → Prop where
  | none : Queued [] [] []
  | count {pending rest header counts failures} (clean : pending.value.error = none)
      (headed : pending.parameterArrayHeader = some header) (queued : Queued rest counts failures) :
      Queued (pending :: rest) (header.rowCount :: counts) failures
  | failure {pending error diagnostic} (failed : pending.value.error = some error)
      (attributed : pending.parameterDiagnostic = some diagnostic) :
      Queued [pending] []
        [{ state := diagnostic.sqlstate
           message := replaceInvalidUtf8 error.message
           rowNumber := some diagnostic.ordinal }]

/-- The statement has these results to give, and nothing else to do. -/
structure Waiting (statement : StatementResults) (pending : List PendingResult) : Prop where
  hasInput : statement.needsData = false
  noSequence : statement.resultSequence = false
  pending : statement.pendingResults = pending

section

variable {σ : Type} {lease : BackendLease σ} {platform : Platform}
  {advance : Program Thrown (Executing σ) SqlReturn} {state : Executing σ}
  {pending rest : List PendingResult}

theorem moreResults_outcome (waiting : Waiting state.statement pending) :
    (moreResults lease platform advance).outcome state =
      match pending with
      | [] => (.ok .noData, { state with statement := state.statement.clearCurrentResult })
      | next :: rest =>
        (guardDelivery next (onStatement (deliverPending lease platform next))).outcome
          { state with
            statement := { state.statement.clearCurrentResult with pendingResults := rest } } := by
  unfold moreResults
  rw [outcome_bind, outcome_get]
  dsimp only
  rw [waiting.hasInput, waiting.noSequence, waiting.pending]
  cases pending <;> rfl

theorem Waiting.entered {statement : StatementResults}
    (waiting : Waiting statement pending) : Waiting statement.clearDiagnostics pending :=
  ⟨waiting.hasInput, waiting.noSequence, waiting.pending⟩

theorem moreResults_nothing (waiting : Waiting state.statement []) :
    ∃ next, invoke (moreResults lease platform advance) state = (nothingReport, next) ∧
      Waiting next.statement [] := by
  refine ⟨{ state with statement := state.statement.clearDiagnostics.clearCurrentResult }, ?_,
    waiting.hasInput, waiting.noSequence, waiting.pending⟩
  rw [invoke, moreResults_outcome waiting.entered]
  rfl

theorem moreResults_count {pending header} (waiting : Waiting state.statement (pending :: rest))
    (clean : pending.value.error = none) (headed : pending.parameterArrayHeader = some header) :
    ∃ next, invoke (moreResults lease platform advance) state = (countReport header.rowCount, next) ∧
      Waiting next.statement rest := by
  refine ⟨{ state with
      statement := { state.statement.clearDiagnostics.clearCurrentResult with
                     pendingResults := rest }.applyParameterArrayCount header }, ?_,
    waiting.hasInput, waiting.noSequence, rfl⟩
  rw [invoke, moreResults_outcome waiting.entered]
  simp only [guardDelivery, outcome_tryCatch, onStatement, outcome_onPart,
    deliverPending, clean, headed]
  rfl

theorem moreResults_failure {pending error diagnostic}
    (waiting : Waiting state.statement (pending :: rest)) (failed : pending.value.error = some error)
    (attributed : pending.parameterDiagnostic = some diagnostic) :
    ∃ next, invoke (moreResults lease platform advance) state = (failureReport
          { state := diagnostic.sqlstate
            message := replaceInvalidUtf8 error.message
            rowNumber := some diagnostic.ordinal }, next) ∧
      Waiting next.statement [] := by
  let cleared := state.statement.clearDiagnostics.clearCurrentResult.clearPendingResults
  refine ⟨{ state with
      statement := cleared.addAttributedDiagnostic diagnostic.sqlstate error.message
        diagnostic.ordinal }, ?_, waiting.hasInput, waiting.noSequence, rfl⟩
  rw [invoke, moreResults_outcome waiting.entered]
  simp only [guardDelivery, outcome_tryCatch, onStatement, outcome_onPart,
    deliverPending, failed, attributed]
  rfl

/-- The first `calls` of some reports that are followed by `nothingReport` for ever. -/
def firstReports (calls : Nat) (reports : List CallReport) : List CallReport :=
  (reports ++ List.replicate calls nothingReport).take calls

theorem firstReports_cons (calls : Nat) (report : CallReport) (reports : List CallReport) :
    firstReports (calls + 1) (report :: reports) = report :: firstReports calls reports := by
  have fewer : min (calls - reports.length) (calls + 1) = min (calls - reports.length) calls := by
    omega
  simp [firstReports, take_append, fewer]

theorem firstReports_nil (calls : Nat) :
    firstReports calls [] = List.replicate calls nothingReport := by
  simp [firstReports]

theorem moreReports_queued {counts failures} (calls : Nat)
    (waiting : Waiting state.statement pending)
    (queued : Queued pending counts failures) : moreReports lease platform advance calls state =
      firstReports calls (counts.map countReport ++ failures.map failureReport) := by
  induction calls generalizing state pending counts failures with
  | zero => rfl
  | succ calls ih =>
    cases queued with
    | none =>
      obtain ⟨next, reported, still⟩ := moreResults_nothing waiting
      rw [moreReports, reported]
      dsimp only
      rw [ih still .none]
      simp [firstReports_nil, replicate_succ]
    | count clean headed queued =>
      obtain ⟨next, reported, still⟩ := moreResults_count waiting clean headed
      rw [moreReports, reported]
      dsimp only
      rw [ih still queued, map_cons, cons_append, firstReports_cons]
    | failure failed attributed =>
      obtain ⟨next, reported, still⟩ := moreResults_failure waiting failed attributed
      rw [moreReports, reported]
      dsimp only
      rw [ih still .none]
      simp [firstReports_cons]

end

/-! ## The order of what is staged -/

section

variable {platform : Platform} {normalize : BackendError → Option Bytes}

/-- What the outcomes from `slot` on stage is what they count and then their failure, if
no command ran after it. -/
theorem queued_of_staged {outcomes : List PreparedCommandOutcome} {slot : Nat}
    {header : DiagnosticHeader} (reportable : ∀ outcome ∈ outcomes, outcome.Reportable platform)
    (stops : outcomes.Pairwise fun outcome later =>
      outcome.state = .failed → later.state ≠ .succeeded ∧ later.state ≠ .failed) :
    Queued ((outcomes.zipIdx slot).filterMap (stagedResult normalize header))
      (outcomes.filterMap fun outcome => outcome.counted.map (·.affectedRows))
      ((outcomes.zipIdx slot).filterMap fun outcome =>
        outcome.1.failure.map (failureRecord normalize outcome.2)) := by
  induction outcomes generalizing slot with
  | nil => exact .none
  | cons outcome rest ih =>
    obtain ⟨ends, stops⟩ := pairwise_cons.mp stops
    have queued := @ih (slot + 1) (fun other member => reportable other (by simp [member])) stops
    have ignored (counted : outcome.counted = none) (failure : outcome.failure = none) :
        Queued (((outcome :: rest).zipIdx slot).filterMap (stagedResult normalize header))
          ((outcome :: rest).filterMap fun outcome => outcome.counted.map (·.affectedRows))
          (((outcome :: rest).zipIdx slot).filterMap fun outcome =>
            outcome.1.failure.map (failureRecord normalize outcome.2)) := by
      simpa [stagedResult, counted, failure] using queued
    cases state : outcome.state with
    | succeeded =>
      obtain ⟨result, isResult, clean, -⟩ := (reportable outcome (by simp)).succeeded state
      have counted : outcome.counted = some result := by
        simp [PreparedCommandOutcome.counted, state, isResult]
      have failure : outcome.failure = none := by simp [PreparedCommandOutcome.failure, state]
      have first : Queued ({ value := result
                             parameterArrayHeader := some (countHeader header result) } :: _)
          ((countHeader header result).rowCount :: _) _ := .count clean rfl queued
      simpa [stagedResult, counted, failure, countHeader] using first
    | failed =>
      obtain ⟨error, isError⟩ := (reportable outcome (by simp)).failed state
      have counted : outcome.counted = none := by simp [PreparedCommandOutcome.counted, state]
      have failure : outcome.failure = some error := by
        simp [PreparedCommandOutcome.failure, state, isError]
      have untouched (other : PreparedCommandOutcome) (member : other ∈ rest) :
          other.counted = none ∧ other.failure = none := by
        have idle := ends other member state
        simp [PreparedCommandOutcome.counted, PreparedCommandOutcome.failure, idle]
      have stagesNone : (rest.zipIdx (slot + 1)).filterMap (stagedResult normalize header) = [] := by
        rw [filterMap_eq_nil_iff]
        rintro ⟨other, index⟩ member
        have nothing := untouched other (fst_mem_of_mem_zipIdx member)
        simp [stagedResult, nothing]
      have countsNone : (rest.filterMap fun outcome => outcome.counted.map (·.affectedRows)) = [] := by
        rw [filterMap_eq_nil_iff]
        intro other member
        simp [untouched other member]
      have failsNone : ((rest.zipIdx (slot + 1)).filterMap fun outcome =>
          outcome.1.failure.map (failureRecord normalize outcome.2)) = [] := by
        rw [filterMap_eq_nil_iff]
        rintro ⟨other, index⟩ member
        simp [untouched other (fst_mem_of_mem_zipIdx member)]
      have only : Queued [{ value := { error := some error }
                            parameterDiagnostic :=
                              some ⟨queryFailureSqlstate normalize error "HY000", slot + 1⟩ }]
          [] _ := .failure rfl rfl
      simpa [stagedResult, counted, failure, stagesNone, countsNone, failsNone, failureRecord]
        using only
    | skipped | notAttempted =>
      exact ignored (by simp [PreparedCommandOutcome.counted, state])
        (by simp [PreparedCommandOutcome.failure, state])

theorem PreparedCommandBatchResult.StopsAtFailure.queued {batch : PreparedCommandBatchResult}
    (stops : batch.StopsAtFailure)
    (reportable : ∀ outcome ∈ batch.outcomes, outcome.Reportable platform)
    (header : DiagnosticHeader) :
    Queued (batch.outcomes.zipIdx.filterMap (stagedResult normalize header)) batch.counts
      (batch.failures normalize) :=
  queued_of_staged reportable stops

theorem Queued.failures_le {pending counts failures} (queued : Queued pending counts failures) :
    failures.length ≤ 1 := by
  induction queued with
  | none => simp
  | count _ _ _ ih => exact ih
  | failure => simp

end

/-! ## The calls -/

section

variable {σ : Type} {lease : BackendLease σ} {platform : Platform}
  {body : Program Thrown (Executing σ) SqlReturn} {batch : PreparedCommandBatchResult}

namespace PreparedCommandBatchResult

variable (normalize : BackendError → Option Bytes)

def executeReport (deferred : Bool) (batch : PreparedCommandBatchResult) : CallReport :=
  { ret :=
      if batch.counts = [] then if batch.failures normalize = [] then .success else .error
      else if batch.failures normalize ≠ [] then .successWithInfo
      else if deferred && batch.outcomes.all fun outcome => outcome.counted.all zeroSearched then
        .noData
      else .success
    rowCount := batch.counts.head?
    diagnostics := batch.failures normalize }

def laterReports (batch : PreparedCommandBatchResult) : List CallReport :=
  if batch.counts = [] then []
  else batch.counts.tail.map countReport ++ (batch.failures normalize).map failureReport

end PreparedCommandBatchResult

/-- What the execution of a batch has reported, and has left for later. -/
structure Announced (normalize : BackendError → Option Bytes) (deferred terminal : Bool)
    (batch : PreparedCommandBatchResult) (statement : StatementResults) (ret : SqlReturn)
    (final : StatementResults) : Prop where
  processed : final.processed = statement.processed.map fun _ => batch.examined
  statuses : final.statuses = statement.statuses.map fun _ => batch.outcomes.map (·.state.status)
  reported : terminal = false → final.report ret = batch.executeReport normalize deferred
  retired : terminal = true → ret = .error ∧ final.executed = false
  waiting : ∃ pending counts failures, Waiting final pending ∧ Queued pending counts failures ∧
    counts.map countReport ++ failures.map failureReport =
      if terminal then [] else batch.laterReports normalize

theorem Staged.counts {normalize : BackendError → Option Bytes}
    {batch : PreparedCommandBatchResult} {statement final : StatementResults} {after : Staging}
    (loop : Staged normalize statement 0 {} batch.outcomes after final) :
    (after.successful = 0 ↔ batch.counts = []) ∧
      (after.failed = true ↔ batch.failures normalize ≠ []) := by
  constructor
  · rw [loop.successful]
    simp [PreparedCommandBatchResult.counts, countP_eq_zero, filterMap_eq_nil_iff]
  rw [loop.failed, Ne, PreparedCommandBatchResult.failures, filterMap_eq_nil_iff]
  constructor
  · intro failing nothing
    obtain ⟨outcome, member, isSome⟩ : ∃ outcome ∈ batch.outcomes, outcome.failure.isSome := by
      simpa using failing
    obtain ⟨slot, found⟩ := List.getElem?_of_mem member
    have none := nothing (outcome, slot) (by simpa [mk_mem_zipIdx_iff_getElem?] using found)
    simp_all
  intro something
  by_contra clean
  refine something fun outcome member => ?_
  have := fst_mem_of_mem_zipIdx member
  simp_all

/-- A statement as the publication of a batch finds it. -/
structure Opened (batch : PreparedCommandBatchResult) (statement : StatementResults) : Prop where
  hasInput : statement.needsData = false
  noSequence : statement.resultSequence = false
  unused : ∀ statuses ∈ statement.statuses, statuses = List.replicate batch.outcomes.length .unused
  unposted : statement.diagnostics = []

theorem Staged.leaves {normalize batch statement staged staging}
    (opened : Opened batch statement)
    (loop : Staged normalize (statement.outputProcessed batch.examined) 0 {} batch.outcomes
      staging staged) : staged.diagnostics = batch.failures normalize ∧
      staged.statuses = (statement.statuses.map fun _ => batch.outcomes.map (·.state.status)) ∧
      (staged.processed = statement.processed.map fun _ => batch.examined) ∧
      staged.needsData = false ∧ staged.resultSequence = false := by
  rw [loop.statement]
  refine ⟨?_, Option.map_congr fun statuses isBound => ?_, rfl, opened.hasInput,
    opened.noSequence⟩
  · simp [StatementResults.outputProcessed, opened.unposted, PreparedCommandBatchResult.failures]
  · rw [opened.unused statuses isBound]
    simpa using storeStatuses_unused batch.outcomes []

variable (reportable : ∀ outcome ∈ batch.outcomes, outcome.Reportable platform)
  (stops : batch.StopsAtFailure)

include reportable stops in
theorem finishBatch_announced {deferred terminal : Bool}
    {statement staged : StatementResults} {staging : Staging} (opened : Opened batch statement)
    (loop : Staged lease.normalizeErrorSqlstate (statement.outputProcessed batch.examined) 0 {}
      batch.outcomes staging staged) :
    ∃ ret final, (finishBatch deferred terminal staging).outcome staged = (.ok ret, final) ∧
      Announced lease.normalizeErrorSqlstate deferred terminal batch statement ret final := by
  obtain ⟨counted, failing⟩ := loop.counts
  have queued : Queued staging.results batch.counts (batch.failures lease.normalizeErrorSqlstate) := by
    rw [loop.results]
    simpa using stops.queued reportable (statement.outputProcessed batch.examined).header
  obtain ⟨diagnostics, statuses, processed, input, sequence⟩ := loop.leaves opened
  cases terminal with
  | true =>
    refine ⟨.error, if staging.failed then staged.clearCurrentResult.clearPendingResults
      else staged.clearCurrentResult.clearPendingResults.setError (ascii "HY000")
        (ascii "Command array session was retired"), ?_, ?_⟩
    · cases isFailed : staging.failed <;> simp only [finishBatch, isFailed] <;> rfl
    cases isFailed : staging.failed <;>
      exact ⟨processed, statuses, nofun, fun _ => ⟨rfl, rfl⟩,
        ⟨[], [], [], ⟨input, sequence, rfl⟩, .none, rfl⟩⟩
  | false =>
    have finished (ret : SqlReturn) (final : StatementResults) (pending : List PendingResult)
        (counts : List Nat) (failures : List DiagnosticRecord)
        (report : final.report ret = batch.executeReport lease.normalizeErrorSqlstate deferred)
        (kept : final.processed = staged.processed ∧ final.statuses = staged.statuses)
        (waiting : Waiting final pending) (left : Queued pending counts failures)
        (later : counts.map countReport ++ failures.map failureReport =
          batch.laterReports lease.normalizeErrorSqlstate) :
        Announced lease.normalizeErrorSqlstate deferred false batch statement ret final :=
      ⟨kept.1.trans processed, kept.2.trans statuses, fun _ => report, nofun,
        ⟨pending, counts, failures, waiting, left, later⟩⟩
    -- Without a count nothing is published, and the call reports the failures alone.
    have uncounted (none : batch.counts = []) : ∃ ret final,
        (finishBatch deferred false staging).outcome staged = (.ok ret, final) ∧
          Announced lease.normalizeErrorSqlstate deferred false batch statement ret final := by
      have : staging.successful = 0 := by simpa [none] using counted
      refine ⟨if staging.failed then .error else .success,
        staged.clearCurrentResult.clearPendingResults, ?_,
        finished _ _ [] [] [] ?_ ⟨rfl, rfl⟩ ⟨input, sequence, rfl⟩ .none ?_⟩
      · cases isFailed : staging.failed <;> simp only [finishBatch, *] <;> rfl
      · cases isFailed : staging.failed <;>
          simp_all [StatementResults.report, PreparedCommandBatchResult.executeReport,
            StatementResults.clearCurrentResult, StatementResults.clearPendingResults]
      · simp [PreparedCommandBatchResult.laterReports, none]
    generalize resultsAre : staging.results = results at queued
    generalize countsAre : batch.counts = counts at queued counted
    generalize failuresAre : batch.failures lease.normalizeErrorSqlstate = failures
      at queued failing diagnostics
    cases queued with
    | none | failure => exact uncounted countsAre
    | @count first rest header counts failures clean headed queued =>
      refine ⟨if staging.failed then .successWithInfo
          else if deferred && staging.allZeroSearched then .noData else .success,
        { staged.clearCurrentResult with pendingResults := rest }.applyParameterArrayCount header,
        ?_, finished _ _ rest counts failures ?_ ⟨rfl, rfl⟩ ⟨input, sequence, rfl⟩ queued ?_⟩
      · have : staging.successful ≠ 0 := by simpa using counted
        obtain ⟨value, diagnostic, _⟩ := first
        cases headed
        simp only [finishBatch, publishStaged, resultsAre, if_neg this]
        rfl
      · have searched : staging.allZeroSearched =
            batch.outcomes.all fun outcome => outcome.counted.all zeroSearched := by
          simpa using loop.zeroSearched
        have failedEq : (staging.failed = true) = (failures ≠ []) := propext failing
        simp [StatementResults.report, PreparedCommandBatchResult.executeReport, countsAre,
          failuresAre, StatementResults.clearCurrentResult,
          StatementResults.applyParameterArrayCount, diagnostics, searched, failedEq]
      · simp [PreparedCommandBatchResult.laterReports, countsAre, failuresAre]

theorem PreparedCommandBatchResult.failures_length (normalize : BackendError → Option Bytes)
    (batch : PreparedCommandBatchResult) :
    (batch.failures normalize).length = batch.outcomes.countP (·.failure.isSome) := by
  rw [failures, length_filterMap_eq_countP]
  conv_rhs => rw [← zipIdx_map_fst 0 batch.outcomes, countP_map]
  simp [Function.comp_def]

include reportable stops in
theorem publishBatch_announced {deferred snapshot statement} (opened : Opened batch statement) :
    ∃ ret final, (publishBatch lease platform deferred (.value batch snapshot)).outcome statement =
        (.ok ret, final) ∧
      Announced lease.normalizeErrorSqlstate deferred (SessionSnapshot.terminal snapshot) batch
        statement ret final := by
  have single : (batch.failures lease.normalizeErrorSqlstate).length ≤ 1 :=
    (stops.queued reportable {}).failures_le
  rw [PreparedCommandBatchResult.failures_length] at single
  obtain ⟨staging, staged, folded, loop⟩ : ∃ staging staged,
      (stageOutcomes platform lease.normalizeErrorSqlstate 0 {} batch.outcomes).outcome
          (statement.outputProcessed batch.examined) = (.ok staging, staged) ∧
        Staged lease.normalizeErrorSqlstate (statement.outputProcessed batch.examined) 0 {}
          batch.outcomes staging staged :=
    stageOutcomes_staged reportable (by
      have unposted : (statement.outputProcessed batch.examined).diagnostics = [] := opened.unposted
      rw [unposted, length_nil]
      omega)
  obtain ⟨ret, final, finished, announced⟩ :=
    @finishBatch_announced _ lease platform batch reportable stops deferred
      (SessionSnapshot.terminal snapshot) _ _ _ opened loop
  refine ⟨ret, final, ?_, announced⟩
  rw [publishBatch, outcome_bind, outcome_modify]
  dsimp only
  rw [outcome_bind, folded]
  exact finished

theorem settled_outcome {α : Type} {exchange : Program Thrown σ (BackendResult α)} {driver : Driver σ}
    {result : BackendResult α} {backend : σ}
    (answers : exchange.outcome driver.backend = (.ok result, backend)) :
    (settled exchange).outcome driver = (.ok result,
        { handle := driver.handle.settle result.sessionSnapshot
          backend
          commands := driver.commands + 1 }) := by
  unfold settled command onBackend
  simp only [outcome_bind, outcome_modify, outcome_onPart, answers]
  rfl

theorem closingArray_outcome {start final ret} (text : String)
    (returns : body.outcome start = (.ok ret, final)) :
    (closingArray text body).outcome start = (.ok ret, final) := by
  rw [closingArray, outcome_tryCatch, returns]

def StatementResults.opened (statement : StatementResults) (size : Nat) : StatementResults :=
  { statement with statuses := statement.statuses.map fun _ => List.replicate size .unused
    }.outputProcessed 0

theorem openArray_outcome {start size deadline snapshot driver}
    (begins : (beginTransactionIfNeeded lease deadline).outcome start.driver =
      (.ok (.value () snapshot), driver)) : (openArray lease size deadline body).outcome start =
      body.outcome { driver, statement := start.statement.opened size } := by
  unfold openArray onStatement onDriver
  simp only [outcome_bind, outcome_modify, outcome_onPart, begins]
  rfl

section

variable {deferred : Bool} {snapshot : SessionSnapshot} {sql : Bytes}
  {sets : List (List QueryParameter)} {deadline : Nat} {backend : σ}

include reportable stops in
theorem exchangeBatch_announced {start : Executing σ} (opened : Opened batch start.statement)
    (answers : (lease.executeCommandBatch sql sets deadline).outcome start.driver.backend =
      (.ok (.value batch snapshot), backend)) :
    ∃ ret final, (exchangeBatch lease platform deferred sql sets deadline).outcome start =
        (.ok ret, final) ∧
      Announced lease.normalizeErrorSqlstate deferred (SessionSnapshot.terminal snapshot) batch
        start.statement ret final.statement ∧
      final.driver.handle = start.driver.handle.settle snapshot := by
  obtain ⟨ret, statement, published, announced⟩ :=
    @publishBatch_announced _ lease _ _ reportable stops deferred snapshot _ opened
  refine ⟨ret,
    { driver :=
        { handle := start.driver.handle.settle snapshot
          backend
          commands := start.driver.commands + 1 }
      statement }, ?_, announced, rfl⟩
  unfold exchangeBatch onDriver onStatement
  simp only [outcome_bind, outcome_onPart, settled_outcome answers, published]
  rfl

include reportable stops in
theorem runCommandArray_announced {start begun driver}
    (opened : Opened batch (start.statement.opened sets.length))
    (begins : (beginTransactionIfNeeded lease deadline).outcome start.driver =
      (.ok (.value () begun), driver))
    (answers : (lease.executeCommandBatch sql sets deadline).outcome driver.backend =
      (.ok (.value batch snapshot), backend)) :
    ∃ ret final, (runCommandArray lease platform deferred sql sets deadline).outcome start =
        (.ok ret, final) ∧
      Announced lease.normalizeErrorSqlstate deferred (SessionSnapshot.terminal snapshot) batch
        (start.statement.opened sets.length) ret final.statement ∧
      final.driver.handle = driver.handle.settle snapshot := by
  obtain ⟨ret, final, exchanged, announced, handle⟩ :=
    @exchangeBatch_announced _ lease platform batch reportable stops deferred snapshot sql sets
      deadline backend { driver, statement := start.statement.opened sets.length } opened answers
  refine ⟨ret, final, ?_, announced, handle⟩
  cases deferred with
  | false =>
    refine closingArray_outcome _ ?_
    rw [openArray_outcome begins]
    exact closingArray_outcome _ exchanged
  | true =>
    refine closingArray_outcome _ ?_
    rw [if_pos rfl, openArray_outcome begins]
    exact exchanged

end

/-- A command array whose batch stops at its first failure reports the statuses and the processed
sets of the outcomes. On a session that goes on, the call and repeated SQLMoreResults calls report
the counts in slot order, the failure and then nothing; the call posts the record of the failure
too. On a retired session nothing is delivered and the connection is closed. -/
theorem commandArray_reported (lease : BackendLease σ) (platform : Platform)
    (advance : Program Thrown (Executing σ) SqlReturn) (deferred : Bool) (sql : Bytes)
    (sets : List (List QueryParameter)) (deadline : Nat) (start : Executing σ)
    (batch : PreparedCommandBatchResult) (begun snapshot : SessionSnapshot) (driver : Driver σ)
    (backend : σ) (hasInput : start.statement.needsData = false)
    (noSequence : start.statement.resultSequence = false)
    (begins : (beginTransactionIfNeeded lease deadline).outcome start.driver =
      (.ok (.value () begun), driver))
    (answers : (lease.executeCommandBatch sql sets deadline).outcome driver.backend =
      (.ok (.value batch snapshot), backend))
    (sized : batch.outcomes.length = sets.length) (stops : batch.StopsAtFailure)
    (reportable : ∀ outcome ∈ batch.outcomes, outcome.Reportable platform) :
    let executed := invoke (runCommandArray lease platform deferred sql sets deadline) start
    executed.2.statement.processed = start.statement.processed.map (fun _ => batch.examined) ∧
      executed.2.statement.statuses =
        start.statement.statuses.map (fun _ => batch.outcomes.map (·.state.status)) ∧
      (SessionSnapshot.terminal snapshot = false →
        executed.1 = batch.executeReport lease.normalizeErrorSqlstate deferred ∧
          ∀ calls, moreReports lease platform advance calls executed.2 =
            firstReports calls (batch.laterReports lease.normalizeErrorSqlstate)) ∧
      (SessionSnapshot.terminal snapshot = true →
        executed.1.ret = .error ∧ executed.1.rowCount = none ∧
          executed.2.driver.handle.connected = false ∧
          ∀ calls, moreReports lease platform advance calls executed.2 =
            List.replicate calls nothingReport) := by
  have opened : Opened batch (start.statement.clearDiagnostics.opened sets.length) := by
    refine ⟨hasInput, noSequence, fun statuses isBound => ?_, rfl⟩
    obtain ⟨_, -, rfl⟩ := Option.mem_map.mp isBound
    rw [sized]
  obtain ⟨ret, final, ran, announced, handle⟩ :=
    @runCommandArray_announced _ lease platform batch reportable stops deferred snapshot sql sets
      deadline backend { start with statement := start.statement.clearDiagnostics } begun driver
      opened begins answers
  obtain ⟨pending, counts, failures, waiting, queued, later⟩ := announced.waiting
  have drained (calls : Nat) : moreReports lease platform advance calls final = _ :=
    moreReports_queued calls waiting queued
  rw [later] at drained
  have invoked : invoke (runCommandArray lease platform deferred sql sets deadline) start =
      (final.statement.report ret, final) := by
    rw [invoke, ran]
  rw [invoked]
  refine ⟨?_, ?_, fun goesOn => ?_, fun retired => ?_⟩
  · rw [announced.processed]
    simp [StatementResults.opened, StatementResults.outputProcessed,
      StatementResults.clearDiagnostics, Function.comp_def]
  · rw [announced.statuses]
    simp [StatementResults.opened, StatementResults.outputProcessed,
      StatementResults.clearDiagnostics, Function.comp_def]
  · refine ⟨announced.reported goesOn, fun calls => ?_⟩
    simpa [goesOn] using drained calls
  obtain ⟨failed, unexecuted⟩ := announced.retired retired
  refine ⟨failed, by simp [StatementResults.report, unexecuted], ?_, fun calls => ?_⟩
  · rw [handle, ConnectionHandle.settle, if_pos retired]
    rfl
  · simpa [retired, firstReports_nil] using drained calls

end

namespace Sample

def batchLease (snapshot : SessionSnapshot) : BackendLease Unit where
  provider := .postgres
  normalizeErrorSqlstate _ := none
  sessionState _ := .idle
  executeQuery _ _ := pure (.fail .unsupportedFeature "")
  executePrepared _ _ _ := pure (.fail .unsupportedFeature "")
  prepareCommandBatch _ _ := pure (.value {} snapshot)
  executeCommandBatch _ _ _ := pure (.value batch snapshot)
  startResultSequence := pure (.fail .unsupportedFeature "")
  advanceResultSequence := pure (.fail .unsupportedFeature "")
  disconnect := pure ()

def counted (rows : Nat) : PreparedCommandOutcome :=
  { state := .succeeded, result := some { affectedRows := rows } }

def duplicateKey : BackendError := BackendError.make .queryFailed "duplicate key"

/-- Two commands succeed, one set is ignored and the next command fails. -/
def stoppedBatch : PreparedCommandBatchResult :=
  { outcomes := [counted 2, { state := .skipped }, counted 1,
      { state := .failed, error := some duplicateKey }, {}]
    examined := 4 }

/-- Two commands succeed, the first with a count that no SQLLEN holds. -/
def hugeBatch : PreparedCommandBatchResult :=
  { outcomes := [counted (2 ^ 63), counted 1], examined := 2 }

/-- A statement in autocommit mode with bound outputs for `size` sets. -/
def executing (size : Nat) : Executing Unit :=
  { driver := { handle := {}, backend := () }
    statement := { statuses := some (List.replicate size .success), processed := some 0 } }

def ranBatch : CallReport × Executing Unit :=
  invoke (runCommandArray (batchLease batch ⟨.idle, .reusable⟩) Machine.lp64.toPlatform false
    (ascii "UPDATE t SET x = ?") (batch.outcomes.map fun _ => []) 0)
    (executing batch.outcomes.length)

end Sample

open Sample in
theorem commandArray_reported_stopped : (ranBatch stoppedBatch).1 =
        { ret := .successWithInfo
          rowCount := some 2
          diagnostics := [failureRecord (fun _ => none) 3 duplicateKey] } ∧
      (ranBatch stoppedBatch).2.statement.statuses =
        some [.success, .unused, .success, .error, .unused] ∧
      moreReports (batchLease stoppedBatch ⟨.idle, .reusable⟩) Machine.lp64.toPlatform (pure .noData) 4
          (ranBatch stoppedBatch).2 =
        [countReport 1, failureReport (failureRecord (fun _ => none) 3 duplicateKey),
          nothingReport, nothingReport] := by
  obtain ⟨-, statuses, goesOn, -⟩ := commandArray_reported
    (batchLease stoppedBatch ⟨.idle, .reusable⟩) Machine.lp64.toPlatform (pure .noData) false
    (ascii "UPDATE t SET x = ?") (stoppedBatch.outcomes.map fun _ => []) 0
    (executing stoppedBatch.outcomes.length) stoppedBatch {} ⟨.idle, .reusable⟩
    (executing stoppedBatch.outcomes.length).driver () rfl rfl rfl rfl rfl (by
      unfold PreparedCommandBatchResult.StopsAtFailure
      decide) (by
      intro outcome member
      have : outcome = counted 2 ∨ outcome = { state := .skipped } ∨ outcome = counted 1 ∨
          outcome = { state := .failed, error := some duplicateKey } ∨ outcome = {} := by
        simpa [stoppedBatch] using member
      rcases this with rfl | rfl | rfl | rfl | rfl
      · exact ⟨fun _ => ⟨_, rfl, rfl, by decide⟩, nofun⟩
      · exact ⟨nofun, nofun⟩
      · exact ⟨fun _ => ⟨_, rfl, rfl, by decide⟩, nofun⟩
      · exact ⟨nofun, fun _ => ⟨_, rfl⟩⟩
      · exact ⟨nofun, nofun⟩)
  obtain ⟨report, later⟩ := goesOn rfl
  exact ⟨report, statuses, later 4⟩

open Sample in
/-- A count that no SQLLEN holds is not reported: the call fails and the connection is
closed. -/
theorem huge_count_unreported :
    hugeBatch.StopsAtFailure ∧ SessionSnapshot.terminal ⟨.idle, .reusable⟩ = false ∧
      (ranBatch hugeBatch).1.ret = .error ∧ (ranBatch hugeBatch).1.rowCount = none ∧
      (ranBatch hugeBatch).1.diagnostics =
        [{ state := ascii "HY000", message := ascii "Invalid command array outcome" }] ∧
      (ranBatch hugeBatch).2.statement.statuses = some [.success, .unused] ∧
      (ranBatch hugeBatch).2.driver.handle.connected = false ∧
      moreReports (batchLease hugeBatch ⟨.idle, .reusable⟩) Machine.lp64.toPlatform (pure .noData) 1
        (ranBatch hugeBatch).2 = [nothingReport] := by
  refine ⟨?_, rfl, ?_, ?_, ?_, ?_, ?_, ?_⟩
  · unfold PreparedCommandBatchResult.StopsAtFailure
    decide
  all_goals decide +kernel

end Odbcpp.Odbc
