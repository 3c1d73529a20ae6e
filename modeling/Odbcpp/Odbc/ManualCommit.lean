import Odbcpp.Odbc.Transactions

/-!
# Manual commit over a truthful backend

With a backend that reports the true state of the server session after every exchange, a transaction
goes unnoticed in one way only: it was open when autocommit was switched off, and nothing has been
handed to the backend since. Everywhere else a successful `SQLEndTran` leaves the session idle.
-/

namespace Odbcpp.Odbc

open Foundation Database Connection Postgres Program ConnectionHandle ConnectionCall

variable {σ : Type}

variable {start : Driver σ}

/-! ## Truthful backends -/

/-- The program returns, and its result carries the state the server session is left in. -/
def ReportsState {α : Type} (server : σ → SessionState)
    (program : Program Thrown σ (BackendResult α)) : Prop :=
  ∀ start, ∃ result final, program.outcome start = (.ok result, final) ∧
    result.sessionSnapshot.state = server final

/-- A backend that reports the true state of the server session after every exchange. -/
structure BackendLease.Truthful (lease : BackendLease σ) (server : σ → SessionState) : Prop where
  known : ∀ session, server session ≠ .unknown
  passive : ∀ session, lease.sessionState session = server session
  query : ∀ sql deadline, ReportsState server (lease.executeQuery sql deadline)
  prepared : ∀ sql parameters deadline,
    ReportsState server (lease.executePrepared sql parameters deadline)
  batch : ∀ sql sets deadline, ReportsState server (lease.executeCommandBatch sql sets deadline)
  advance : ReportsState server lease.advanceResultSequence
  describe : ∀ sql deadline, ReportsState server (lease.prepareCommandBatch sql deadline)
  sequence : ReportsState server lease.startResultSequence
  disconnects : ∀ start, ∃ final, lease.disconnect.outcome start = (.ok (), final) ∧
    server final = .disconnected

section

variable {lease : BackendLease σ} {server : σ → SessionState} (truthful : lease.Truthful server)
  {program : Program Thrown σ (BackendResult Unit)}

/-- A call that reports the state of the session after it, and succeeds only in the
state `expected`. -/
def Completes (server : σ → SessionState) (expected : SessionState)
    (program : Program Thrown σ (BackendResult Unit)) : Prop :=
  ∀ start, ∃ result final, program.outcome start = (.ok result, final) ∧
    result.sessionSnapshot.state = server final ∧ (result.hasError = false → server final = expected)

theorem Completes.reportsState {expected}
    (completes : Completes server expected program) : ReportsState server program := by
  intro start
  obtain ⟨result, final, ends, reported, -⟩ := completes start
  exact ⟨result, final, ends, reported⟩

variable (action : TransactionAction)

theorem postgresExpected_state : action.postgresExpected.state = action.mysqlExpected := by
  cases action <;> rfl

include truthful

theorem rejectCompletion_outcome (message : String) (start : σ) :
    ∃ failure final, (lease.rejectCompletion action message).outcome start =
      (.ok (.error failure), final) ∧ failure.sessionState = server final := by
  obtain ⟨final, ends, gone⟩ := truthful.disconnects start
  unfold BackendLease.rejectCompletion
  rw [outcome_bind, ends]
  exact ⟨_, final, rfl, gone.symm⟩

variable (deadline : Nat)

theorem postgresTransaction_completes :
    Completes server action.postgresExpected.state (lease.postgresTransaction action deadline) := by
  intro start
  obtain ⟨result, final, ends, reported⟩ := truthful.query action.postgresCommand deadline start
  unfold BackendLease.postgresTransaction
  rw [outcome_bind, ends]
  cases result with
  | error failure => exact ⟨_, final, rfl, reported, nofun⟩
  | value result snapshot =>
    dsimp only
    split
    · obtain ⟨failure, closed, ends, gone⟩ := rejectCompletion_outcome truthful action _ final
      exact ⟨_, closed, ends, gone, nofun⟩
    rename_i expected
    rw [not_not] at expected
    refine ⟨_, final, rfl, reported, fun _ => ?_⟩
    rw [← expected]
    exact reported.symm

theorem mysqlCommand_completes :
    Completes server action.mysqlExpected (lease.mysqlCommand action deadline) := by
  intro start
  obtain ⟨result, final, ends, reported⟩ := truthful.query action.mysqlCommand deadline start
  unfold BackendLease.mysqlCommand
  rw [outcome_bind, ends]
  cases result with
  | error failure => exact ⟨_, final, rfl, reported, nofun⟩
  | value result snapshot =>
    dsimp only
    split
    · obtain ⟨failure, closed, ends, gone⟩ := rejectCompletion_outcome truthful action _ final
      exact ⟨_, closed, ends, gone, nofun⟩
    rename_i expected
    simp only [not_or, not_not] at expected
    exact ⟨_, final, rfl, reported, fun _ => reported.symm.trans expected.2.2.2.2⟩

theorem mysqlTransaction_completes :
    Completes server action.mysqlExpected (lease.mysqlTransaction action deadline) := by
  intro start
  unfold BackendLease.mysqlTransaction
  rw [outcome_bind, outcome_get]
  dsimp only
  split
  · exact ⟨_, start, rfl, truthful.passive start, nofun⟩
  · exact mysqlCommand_completes truthful action deadline start

theorem transaction_completes :
    Completes server action.mysqlExpected (lease.transaction action deadline) := by
  unfold BackendLease.transaction
  split
  · rw [← postgresExpected_state]
    exact postgresTransaction_completes truthful action deadline
  · exact mysqlTransaction_completes truthful action deadline

omit truthful

/-! ## What a call leaves -/

def ConnectionHandle.Disowned (handle : ConnectionHandle) : Prop :=
  handle.connected = true → handle.autocommit = true → handle.transactionActive = false

/-- The server holds a transaction that a connected driver in manual mode does not
know of. -/
structure Unflagged (server : σ → SessionState) (driver : Driver σ) : Prop where
  connected : driver.handle.connected = true
  manual : driver.handle.autocommit = false
  holds : SessionState.holdsTransaction (server driver.backend) = true
  inactive : driver.handle.transactionActive = false

/-- What every command leaves. -/
structure Settled (server : σ → SessionState) (driver : Driver σ) : Prop where
  disowned : driver.handle.Disowned
  flagged : ¬ Unflagged server driver

/-- What every call leaves: a transaction goes unflagged only if it was, or with autocommit on and
nothing handed to the backend. -/
structure Follows (server : σ → SessionState) (start driver : Driver σ) : Prop where
  disowned : driver.handle.Disowned
  excused : Unflagged server driver → driver.commands = start.commands ∧
    (Unflagged server start ∨ start.handle.autocommit = true)

theorem Settled.follows {start driver : Driver σ} (settled : Settled server driver) :
    Follows server start driver :=
  ⟨settled.disowned, fun unflagged => absurd unflagged settled.flagged⟩

theorem Follows.of_eq {start driver} (disowned : start.handle.Disowned)
    (same : driver = start) : Follows server start driver := by
  subst same
  exact ⟨disowned, fun unflagged => ⟨rfl, .inl unflagged⟩⟩

section

variable {driver : Driver σ} {snapshot : SessionSnapshot}

theorem settled_closeConnection :
    Settled server { driver with handle := driver.handle.closeConnection } :=
  ⟨fun connected => absurd connected Bool.false_ne_true,
    fun unflagged => absurd unflagged.connected Bool.false_ne_true⟩

theorem settled_reconcile (disowned : driver.handle.Disowned)
    (reported : snapshot.state = server driver.backend) :
    Settled server { driver with handle := driver.handle.reconcileTransactionState snapshot } := by
  unfold reconcileTransactionState
  split
  · rename_i auto
    refine ⟨disowned, fun unflagged => ?_⟩
    cases auto.symm.trans unflagged.manual
  rename_i manual
  rw [reported]
  split
  · exact ⟨fun _ auto => absurd auto manual, fun unflagged => by cases unflagged.inactive⟩
  rename_i closed
  split
  · exact ⟨fun _ _ => rfl, fun unflagged => closed unflagged.holds⟩
  · exact ⟨disowned, fun unflagged => closed unflagged.holds⟩

theorem settled_settle (disowned : driver.handle.Disowned)
    (reported : snapshot.state = server driver.backend) :
    Settled server { driver with handle := driver.handle.settle snapshot } := by
  unfold settle
  split
  · exact settled_closeConnection
  · exact settled_reconcile disowned reported

theorem settled_settleFailure {close : Bool} (manual : driver.handle.autocommit = false)
    (reported : snapshot.state = server driver.backend) :
    Settled server { driver with handle := driver.handle.settleFailure close snapshot } := by
  unfold settleFailure
  split
  · exact settled_closeConnection
  refine ⟨fun _ auto => ?_, fun unflagged => ?_⟩
  · cases manual.symm.trans auto
  have inactive := unflagged.inactive
  rw [reported] at inactive
  cases inactive.symm.trans unflagged.holds

end

/-! ## Programs of the driver -/

/-- Over a truthful backend no exception is raised. -/
abbrev Never (_ : Thrown) (_ : Driver σ) : Prop := False

section

variable {α : Type}

variable {program : Program Thrown σ (BackendResult α)}

theorem updateHandle_triple {change : ConnectionHandle → ConnectionHandle}
    {before after : Driver σ → Prop} {abrupt : Thrown → Driver σ → Prop}
    (changes : ∀ driver, before driver → after { driver with handle := change driver.handle }) :
    Triple before (updateHandle change) (fun _ => after) abrupt :=
  Triple.update _ changes

theorem onBackend_triple (before : ConnectionHandle → Prop)
    (reports : ReportsState server program) :
    Triple (fun driver => before driver.handle) (onBackend program)
      (fun result driver => before driver.handle ∧
        result.sessionSnapshot.state = server driver.backend) Never := by
  intro driver holds
  obtain ⟨result, final, ends, reported⟩ := reports driver.backend
  unfold onBackend
  simp only [outcome_onPart, ends]
  exact ⟨holds, reported⟩

theorem command_triple (before : ConnectionHandle → Prop) (reports : ReportsState server program) :
    Triple (fun driver => before driver.handle) (command program)
      (fun result driver => before driver.handle ∧
        result.sessionSnapshot.state = server driver.backend) Never := by
  unfold command
  refine Triple.bind (Triple.update _ ?_) fun _ => onBackend_triple before reports
  exact fun _ holds => holds

end

variable {before : Driver σ → Prop} {abrupt : Thrown → Driver σ → Prop}

variable {result : BackendResult Unit} {on : Bool} {sql : Bytes} {verdicts : CancellationVerdicts}
  {completion : CompletionType} {driver : Driver σ} {events : List (ConnectionEvent σ)}
  {sets : List (List QueryParameter)} {deadline : Nat} {pending : Pending}
  {exchange : Program Thrown σ (BackendResult QueryResult)} {α : Type} {event : ConnectionEvent σ}

theorem settleBegin_settled : Triple (fun driver : Driver σ => driver.handle.autocommit = false ∧
        result.sessionSnapshot.state = server driver.backend)
      (settleBegin result) (fun _ => Settled server) abrupt := by
  unfold settleBegin
  cases result with
  | error failure =>
    refine (updateHandle_triple fun driver holds => ?_).bind fun _ =>
      .pure _ fun _ => id
    exact settled_settleFailure holds.1 holds.2
  | value value snapshot =>
    dsimp only
    split
    · exact (updateHandle_triple fun driver _ => settled_closeConnection).bind fun _ =>
        .pure _ fun _ => id
    refine (updateHandle_triple fun driver holds => ?_).bind fun _ =>
      .pure _ fun _ => id
    refine ⟨fun _ auto => ?_, fun unflagged => ?_⟩
    · cases holds.1.symm.trans auto
    · cases unflagged.inactive

/-- The program leaves a driver that owns no transaction settled. -/
abbrev Settles (server : σ → SessionState) (program : Driving σ α) : Prop :=
  Triple (fun driver => driver.handle.Disowned) program (fun _ => Settled server) Never

/-- What the program makes of `start` follows it. -/
abbrev Pursues (server : σ → SessionState) (start : Driver σ) (program : Driving σ α) : Prop :=
  Triple (· = start) program (fun _ => Follows server start) Never

theorem beginTransactionIfNeeded_settled (truthful : lease.Truthful server) :
    Settles server (beginTransactionIfNeeded lease deadline) := by
  refine Triple.read.bind fun read => ?_
  split
  · rename_i skipped
    refine .pure _ ?_
    rintro driver ⟨rfl, disowned⟩
    refine ⟨disowned, fun unflagged => ?_⟩
    simp [unflagged.manual, unflagged.inactive] at skipped
  rename_i needed
  simp only [Bool.or_eq_true, not_or, Bool.not_eq_true] at needed
  refine Triple.bind ((command_triple (·.autocommit = false)
    (transaction_completes truthful .begin deadline).reportsState).assuming ?_)
    fun _ => settleBegin_settled
  rintro driver ⟨rfl, -⟩
  exact needed.1

theorem runStatement_settled (reports : ReportsState server exchange) :
    Settles server (runStatement lease verdicts exchange) := by
  refine (command_triple ConnectionHandle.Disowned reports).bind fun result => ?_
  refine (updateHandle_triple fun driver holds => settled_reconcile holds.1 holds.2).bind
    fun _ => ?_
  have close : Triple (Settled server) (updateHandle closeConnection)
      (fun _ => Settled server) Never :=
    updateHandle_triple fun _ _ => settled_closeConnection
  cases result with
  | error failure =>
    dsimp only
    split
    · exact .pure _ fun _ => id
    · exact (Triple.onlyIf close).bind fun _ => .pure _ fun _ => id
  | value value snapshot =>
    dsimp only
    split <;> exact .pure _ fun _ => id

theorem reportFailedBegin_settled {failure} :
    Triple (Settled server) (reportFailedBegin lease verdicts failure)
      (fun _ => Settled server) Never := by
  have close : Triple (Settled server) (updateHandle closeConnection)
      (fun _ => Settled server) Never :=
    updateHandle_triple fun _ _ => settled_closeConnection
  unfold reportFailedBegin
  split
  · exact .pure _ fun _ => id
  · exact (Triple.onlyIf close).bind fun _ => .pure _ fun _ => id

theorem dispatch_follows (truthful : lease.Truthful server)
    (reports : ReportsState server exchange) (disowned : start.handle.Disowned) :
    Pursues server start (dispatch lease verdicts deadline exchange) := by
  unfold dispatch
  split
  · exact .pure _ fun _ => Follows.of_eq disowned
  refine Triple.bind
    ((beginTransactionIfNeeded_settled truthful).assuming fun _ same => ?_) fun result => ?_
  · exact same ▸ disowned
  refine Triple.concluding ?_ fun _ _ settled => Settled.follows settled
  cases result with
  | error failure => exact reportFailedBegin_settled
  | value value snapshot =>
    dsimp only
    split
    · exact .pure _ fun _ => id
    · exact (runStatement_settled reports).assuming fun _ settled => settled.disowned

/-- A statement of a disconnected handle does nothing. -/
theorem whenConnected_follows {reply : α} {body : Driving σ α} (disowned : start.handle.Disowned)
    (follows : Pursues server start body) : Pursues server start (do
        let driver ← get
        if !driver.handle.connected then return reply else body) := by
  refine Triple.read.bind fun read => ?_
  split
  · exact .pure _ fun _ holds => Follows.of_eq disowned holds.2
  · exact follows.assuming fun _ holds => holds.2

theorem executeDirect_follows (truthful : lease.Truthful server)
    (disowned : start.handle.Disowned) :
    Pursues server start (executeDirect lease verdicts sql deadline) :=
  whenConnected_follows disowned
    (.tryCatch_never (dispatch_follows truthful (truthful.query sql deadline) disowned))

theorem executePrepared_follows (truthful : lease.Truthful server)
    {parameters : List QueryParameter} (disowned : start.handle.Disowned) :
    Pursues server start (executePrepared lease verdicts sql parameters deadline) :=
  whenConnected_follows disowned
    (.tryCatch_never (dispatch_follows truthful (truthful.prepared sql parameters deadline) disowned))

/-- A failed preparation is settled on the spot; after one that succeeds the handle is as it was. -/
theorem stage_settled {preparation : Program Thrown σ (BackendResult α)}
    {rest : Driving σ (Option CallReply)} (reports : ReportsState server preparation)
    (settles : Settles server rest) : Settles server (do
      match ← stage lease preparation with
      | .error reply => return some reply
      | .ok () => rest) := by
  have staged : Triple (fun driver => driver.handle.Disowned) (stage lease preparation)
      (fun reply driver => match reply with
        | .error _ => Settled server driver
        | .ok _ => driver.handle.Disowned) Never := by
    refine (onBackend_triple ConnectionHandle.Disowned reports).bind fun result => ?_
    cases result with
    | error failure =>
      exact (updateHandle_triple fun driver holds => settled_settle holds.1 holds.2).bind
        fun _ => .pure _ fun _ => id
    | value value snapshot => exact .pure _ fun _ holds => holds.1
  refine staged.bind fun reply => ?_
  cases reply with
  | error reply => exact .pure _ fun _ => id
  | ok _ => exact settles

/-- A program that settles every disowned driver pursues one. -/
theorem Settles.pursues {program : Driving σ α} (settles : Settles server program)
    (disowned : start.handle.Disowned) : Pursues server start program :=
  settles.consequence (fun _ same => same ▸ disowned) (fun _ _ settled => settled.follows)
    (fun _ _ => id)

theorem settled_settled {exchange : Program Thrown σ (BackendResult α)}
    (reports : ReportsState server exchange) : Settles server (settled exchange) := by
  refine (command_triple ConnectionHandle.Disowned reports).bind fun result => ?_
  exact (updateHandle_triple fun driver holds => settled_settle holds.1 holds.2).bind fun _ =>
    .pure _ fun _ => id

include truthful

theorem runArray_settled {exchange}
    (runs : Settles server exchange) : Settles server (runArray lease deadline exchange) := by
  refine (beginTransactionIfNeeded_settled truthful).bind fun result => ?_
  cases result with
  | error failure => exact .pure _ fun _ => id
  | value value snapshot => exact runs.assuming fun _ settled => settled.disowned

theorem runBatch_settled : Settles server (runBatch lease sql sets deadline) :=
  .tryCatch_never ((settled_settled (truthful.batch sql sets deadline)).bind fun _ =>
    .pure _ fun _ => id)

theorem advanceParameterResult_settled : Settles server (advanceParameterResult lease) := by
  refine Triple.read.bind fun read => ?_
  split
  · rename_i closed
    refine .pure _ ?_
    rintro driver ⟨rfl, disowned⟩
    refine ⟨disowned, fun unflagged => ?_⟩
    simp [unflagged.connected] at closed
  refine .tryCatch_never (Triple.bind
    ((settled_settled truthful.advance).assuming fun _ holds => holds.2) fun _ => ?_)
  exact .pure _ fun _ => id

theorem executeParameterArray_follows (disowned : start.handle.Disowned) :
    Pursues server start (executeParameterArray lease sql sets deadline) :=
  whenConnected_follows disowned (.tryCatch_never (Settles.pursues
    (stage_settled (truthful.describe sql deadline)
      (runArray_settled truthful (runBatch_settled truthful))) disowned))

theorem startParameterResults_follows (disowned : start.handle.Disowned) :
    Pursues server start (startParameterResults lease sql deadline) :=
  whenConnected_follows disowned (.tryCatch_never (Settles.pursues
    (stage_settled (truthful.describe sql deadline) (stage_settled truthful.sequence
      (runArray_settled truthful (advanceParameterResult_settled truthful)))) disowned))

omit truthful

/-! ## Ending a transaction -/

/-- `end_transaction` replies on its own, with success only where the driver owns no transaction, or
ends the one it owns. -/
inductive EndDecision (handle : ConnectionHandle) : Except CallReply TransactionAction → Prop where
  | replies {reply : CallReply}
      (owned : reply.ret = .success → handle.connected = true ∧
        (handle.autocommit = true ∨ handle.transactionActive = false)) :
      EndDecision handle (.error reply)
  | ends {action : TransactionAction} (manual : handle.autocommit = false)
      (active : handle.transactionActive = true) (idle : action.mysqlExpected = .idle) :
      EndDecision handle (.ok action)

theorem endTransactionAction_decides (handle : ConnectionHandle) (pending : Pending)
    (completion : CompletionType) :
    EndDecision handle (endTransactionAction handle pending completion) := by
  unfold endTransactionAction
  split
  · exact .replies nofun
  split
  · exact .replies nofun
  rcases chosen : completion.action with _ | action
  · exact .replies nofun
  dsimp only
  split
  · exact .replies nofun
  rename_i open_
  split
  · rename_i unowned
    simp only [Bool.not_eq_true', Bool.not_eq_false] at open_
    exact .replies fun _ => ⟨open_, by simpa using unowned⟩
  rename_i owned
  simp only [Bool.or_eq_true, not_or, Bool.not_eq_true, Bool.not_eq_true'] at owned
  refine .ends owned.1 (by simpa using owned.2) ?_
  cases completion <;> cases chosen <;> rfl

/-- How a call that ends a transaction leaves the driver. -/
structure Ended (server : σ → SessionState) (reply : CallReply) (driver : Driver σ) : Prop where
  settled : Settled server driver
  idle : reply.ret = .success → server driver.backend = .idle
  manual : driver.handle.autocommit = false
  inactive : reply.ret = .success → driver.handle.transactionActive = false

theorem settleEnd_ended : Triple (fun driver : Driver σ => driver.handle.autocommit = false ∧
        result.sessionSnapshot.state = server driver.backend ∧
        (result.hasError = false → server driver.backend = .idle))
      (settleEnd lease result) (Ended server) Never := by
  unfold settleEnd
  cases result with
  | error failure =>
    refine (updateHandle_triple fun driver holds => ?_ : Triple _ _ (fun _ driver =>
      Settled server driver ∧ driver.handle.autocommit = false) _).bind fun _ =>
      .pure _ fun _ holds => ⟨holds.1, nofun, holds.2, nofun⟩
    refine ⟨settled_settleFailure holds.1 holds.2.1, ?_⟩
    unfold settleFailure
    split <;> exact holds.1
  | value value snapshot =>
    refine (updateHandle_triple fun driver holds => ?_ : Triple _ _ (fun _ driver =>
      Ended server .success driver) _).bind fun _ => .pure _ fun _ ended => ended
    have idle := holds.2.2 rfl
    refine ⟨⟨fun _ _ => rfl, fun unflagged => ?_⟩, fun _ => idle, holds.1, fun _ => rfl⟩
    have open_ := unflagged.holds
    rw [show server driver.backend = .idle from idle] at open_
    cases open_

/-- The transaction command of an end, with what its success tells. -/
theorem command_completes {expected}
    (completes : Completes server expected program) :
    Triple (fun driver : Driver σ => driver.handle.autocommit = false) (command program)
      (fun result driver => driver.handle.autocommit = false ∧
        result.sessionSnapshot.state = server driver.backend ∧
        (result.hasError = false → server driver.backend = expected)) Never := by
  intro driver manual
  obtain ⟨result, final, ends, reported, succeeds⟩ := completes driver.backend
  unfold command onBackend
  simp only [outcome_bind, outcome_modify, outcome_onPart, ends]
  exact ⟨manual, reported, succeeds⟩

include truthful

theorem endTransaction_ends : Triple (· = start) (endTransaction lease pending completion deadline)
      (fun reply driver => Ended server reply driver ∨ driver = start ∧
        (reply.ret = .success → start.handle.connected = true ∧
          (start.handle.autocommit = true ∨ start.handle.transactionActive = false))) Never := by
  refine Triple.read.bind fun read => ?_
  have decided := endTransactionAction_decides read.handle pending completion
  cases decision : endTransactionAction read.handle pending completion with
  | error reply =>
    rw [decision] at decided
    cases decided with
    | replies owned =>
      refine .pure _ ?_
      rintro driver ⟨rfl, rfl⟩
      exact .inr ⟨rfl, owned⟩
  | ok action =>
    rw [decision] at decided
    cases decided with
    | ends manual active idle =>
      have completes := transaction_completes truthful action deadline
      rw [idle] at completes
      refine Triple.bind ((command_completes completes).assuming ?_) fun _ =>
        settleEnd_ended.concluding fun _ _ ended => .inl ended
      rintro driver ⟨rfl, rfl⟩
      exact manual

theorem endTransaction_follows (disowned : start.handle.Disowned) :
    Pursues server start (endTransaction lease pending completion deadline) := by
  refine (endTransaction_ends truthful).concluding ?_
  rintro reply driver (ended | ⟨same, -⟩)
  · exact ended.settled.follows
  · exact Follows.of_eq disowned same

/-! ## Switching autocommit -/

/-- Before autocommit goes on, the driver's transaction is over; before it goes off,
nothing happens. -/
theorem commitBeforeAutocommit_inactive (disowned : start.handle.Disowned)
    (switches : start.handle.autocommit ≠ on) :
    Triple (· = start) (commitBeforeAutocommit lease on pending deadline)
      (fun reply driver => Follows server start driver ∧ (on = false → driver = start) ∧
        (reply.ret = .success → on = true → driver.handle.connected = true →
          driver.handle.transactionActive = false)) Never := by
  refine Triple.read.bind fun read => ?_
  split
  · rename_i owned
    simp only [Bool.and_eq_true] at owned
    refine Triple.consequence (endTransaction_ends truthful) (fun _ holds => holds.2) ?_
      (fun _ _ => id)
    rintro reply driver (ended | ⟨rfl, unowned⟩)
    · refine ⟨ended.settled.follows, fun isOff => ?_, fun success _ _ => ended.inactive success⟩
      cases isOff.symm.trans owned.1.1
    refine ⟨Follows.of_eq disowned rfl, fun _ => rfl, fun success isOn _ => ?_⟩
    rcases (unowned success).2 with auto | inactive
    · exact absurd (auto.trans isOn.symm) switches
    · exact inactive
  · rename_i unowned
    refine .pure _ ?_
    rintro driver ⟨rfl, rfl⟩
    refine ⟨Follows.of_eq disowned rfl, fun _ => rfl, fun _ isOn connected => ?_⟩
    simpa [isOn, connected] using unowned

theorem switchAutocommit_follows (disowned : start.handle.Disowned)
    (switches : start.handle.autocommit ≠ on) :
    Pursues server start (switchAutocommit lease on pending deadline) := by
  refine (commitBeforeAutocommit_inactive truthful disowned switches).bind fun reply => ?_
  split
  · exact .pure _ fun _ holds => holds.1
  rename_i succeeded
  rw [not_not] at succeeded
  refine (updateHandle_triple fun driver holds => ?_ : Triple _ _
    (fun _ => Follows server start) _).bind fun _ => .pure _ fun _ => id
  obtain ⟨follows, untouched, inactive⟩ := holds
  refine ⟨fun connected isOn => inactive succeeded isOn connected, fun unflagged => ?_⟩
  obtain rfl := untouched unflagged.manual
  have wasOn : driver.handle.autocommit = true := by
    rw [show on = false from unflagged.manual] at switches
    simpa using switches
  exact ⟨rfl, .inr wasOn⟩

theorem setAutocommit_follows {value} (disowned : start.handle.Disowned) :
    Pursues server start (setAutocommit lease pending value deadline) := by
  have untouched {reply : CallReply} {read : Driver σ} :
      Triple (fun driver : Driver σ => read = driver ∧ driver = start)
        (pure reply : Driving σ CallReply) (fun _ => Follows server start) Never :=
    .pure _ fun _ holds => Follows.of_eq disowned holds.2
  refine Triple.read.bind fun read => ?_
  split
  · exact untouched
  split
  · exact untouched
  rcases value.requested with _ | on
  · exact untouched
  dsimp only
  split
  · exact untouched
  rename_i switches
  rintro driver ⟨rfl, rfl⟩
  exact switchAutocommit_follows truthful disowned switches _ rfl

/-! ## Whole histories -/

theorem perform_follows (call : ConnectionCall) (disowned : start.handle.Disowned) :
    Pursues server start (call.perform lease) := by
  cases call with
  | setAutocommit pending value deadline =>
    exact (setAutocommit_follows truthful disowned).bind fun _ => .pure _ fun _ => id
  | executeDirect verdicts sql deadline =>
    exact (executeDirect_follows truthful disowned).bind fun _ => .pure _ fun _ => id
  | executePrepared verdicts sql parameters deadline =>
    exact (executePrepared_follows truthful disowned).bind fun _ => .pure _ fun _ => id
  | executeParameterArray sql sets deadline =>
    exact executeParameterArray_follows truthful disowned
  | startParameterResults sql deadline => exact startParameterResults_follows truthful disowned
  | moreResults =>
    exact Settles.pursues (advanceParameterResult_settled truthful) disowned
  | endTran pending completion deadline =>
    exact (endTransaction_follows truthful disowned).bind fun _ => .pure _ fun _ => id

theorem invoke_follows (call : ConnectionCall) (disowned : driver.handle.Disowned) :
    Follows server driver (call.invoke lease driver).after := by
  have reached := perform_follows truthful call disowned driver rfl
  unfold invoke
  rcases ends : (call.perform lease).outcome driver with ⟨result, after⟩
  rw [ends] at reached
  cases result with
  | ok reply => exact reached
  | error thrown => exact reached.elim

omit truthful

/-- Autocommit was switched off over an open transaction, and nothing has been handed to the backend
since. -/
def CarriedOver (server : σ → SessionState) (events : List (ConnectionEvent σ)) : Prop :=
  ∃ earlier switch later, events = earlier ++ switch :: later ∧
    switch.before.handle.autocommit = true ∧ switch.after.handle.autocommit = false ∧
    SessionState.holdsTransaction (server switch.after.backend) = true ∧
    ∀ event ∈ switch :: later, event.after.commands = event.before.commands

theorem carriedOver_append (carried : CarriedOver server events)
    (silent : event.after.commands = event.before.commands) :
    CarriedOver server (events ++ [event]) := by
  obtain ⟨earlier, switch, later, rfl, wasOn, isOff, holds, quiet⟩ := carried
  refine ⟨earlier, switch, later ++ [event], by simp, wasOn, isOff, holds, fun other member => ?_⟩
  rcases List.mem_cons.mp member with rfl | member
  · exact quiet _ (by simp)
  rcases List.mem_append.mp member with old | new
  · exact quiet _ (by simp [old])
  · rw [List.mem_singleton.mp new]
    exact silent

/-- A transaction the driver does not know of was carried over from autocommit mode. -/
structure Tracked (server : σ → SessionState) (events : List (ConnectionEvent σ))
    (driver : Driver σ) : Prop where
  disowned : driver.handle.Disowned
  carried : Unflagged server driver → CarriedOver server events

theorem tracked_invoke (truthful : lease.Truthful server) (call : ConnectionCall)
    (tracked : Tracked server events driver) :
    Tracked server (events ++ [call.invoke lease driver]) (call.invoke lease driver).after := by
  have follows := invoke_follows truthful call tracked.disowned
  refine ⟨follows.disowned, fun unflagged => ?_⟩
  obtain ⟨silent, already | wasOn⟩ := follows.excused unflagged
  · exact carriedOver_append (tracked.carried already) silent
  · exact ⟨events, _, [], rfl, wasOn, unflagged.manual, unflagged.holds, by simpa using silent⟩

theorem connectionEvents_tracked (truthful : lease.Truthful server) (calls : List ConnectionCall)
    (tracked : Tracked server events driver) {earlier later}
    (split : connectionEvents lease driver calls = earlier ++ event :: later) :
    event = event.call.invoke lease event.before ∧
      Tracked server (events ++ earlier) event.before := by
  induction calls generalizing events driver earlier with
  | nil => simp [connectionEvents] at split
  | cons call calls ih =>
    cases earlier with
    | nil =>
      obtain ⟨rfl, -⟩ := List.cons.inj split
      exact ⟨rfl, by simpa using tracked⟩
    | cons first earlier =>
      obtain ⟨rfl, rest⟩ := List.cons.inj split
      simpa using ih (tracked_invoke truthful call tracked) rest

/-- A connection that has just been opened. -/
structure Driver.Fresh (server : σ → SessionState) (driver : Driver σ) : Prop where
  connected : driver.handle.connected = true
  inactive : driver.handle.transactionActive = false
  idle : server driver.backend = .idle

theorem Driver.Fresh.tracked (fresh : driver.Fresh server) : Tracked server [] driver := by
  refine ⟨fun _ _ => fresh.inactive, fun unflagged => ?_⟩
  have holds := unflagged.holds
  rw [fresh.idle] at holds
  cases holds

/-- A successful `SQLEndTran` in manual mode ends in an idle session, or changed
nothing and left a transaction unflagged. -/
theorem endTran_idle (truthful : lease.Truthful server) {reply}
    (manual : driver.handle.autocommit = false) (succeeds : reply.ret = .success)
    (replied : ((ConnectionCall.endTran pending completion deadline).invoke lease driver).reply =
      some reply) :
    let after := ((endTran pending completion deadline).invoke lease driver).after
    server after.backend = .idle ∨ after = driver ∧
      (SessionState.holdsTransaction (server driver.backend) = true → Unflagged server driver) := by
  have performed : Triple (· = driver)
      ((endTran pending completion deadline).perform lease)
      (fun reply final => ∀ answer, reply = some answer → answer.ret = .success →
        server final.backend = .idle ∨ final = driver ∧
          (SessionState.holdsTransaction (server driver.backend) = true →
            Unflagged server driver)) Never := by
    refine (endTransaction_ends truthful).bind fun reply => .pure _ ?_
    rintro final (ended | ⟨rfl, unowned⟩) answer isReply success
    · obtain rfl := Option.some.inj isReply
      exact .inl (ended.idle success)
    obtain rfl := Option.some.inj isReply
    obtain ⟨connected, auto | inactive⟩ := unowned success
    · cases manual.symm.trans auto
    · exact .inr ⟨rfl, fun holds => ⟨connected, manual, holds, inactive⟩⟩
  have reached := performed driver rfl
  unfold invoke at replied ⊢
  rcases ends : ((endTran pending completion deadline).perform lease).outcome driver
    with ⟨result, after⟩
  rw [ends] at reached replied
  cases result with
  | ok answer => exact reached reply replied succeeds
  | error thrown => exact reached.elim

/-- Over a truthful backend a successful `SQLEndTran` in manual mode leaves the server session idle,
unless the session was in a transaction when autocommit was last switched off and nothing was sent
since. -/
theorem endTran_leaves_idle (truthful : lease.Truthful server) {start : Driver σ}
    (fresh : start.Fresh server) (calls : List ConnectionCall)
    {earlier later : List (ConnectionEvent σ)} {event : ConnectionEvent σ}
    (split : connectionEvents lease start calls = earlier ++ event :: later)
    {pending : Pending} {completion : CompletionType} {deadline : Nat} {reply : CallReply}
    (isEndTran : event.call = .endTran pending completion deadline)
    (manual : event.before.handle.autocommit = false) (replied : event.reply = some reply)
    (succeeds : reply.ret = .success) (connected : server event.after.backend ≠ .disconnected) :
    server event.after.backend = .idle ∨ CarriedOver server earlier := by
  obtain ⟨made, tracked⟩ := connectionEvents_tracked truthful calls fresh.tracked split
  rw [isEndTran] at made
  have idle := endTran_idle truthful manual succeeds
    (show ((endTran pending completion deadline).invoke lease event.before).reply =
      some reply from made ▸ replied)
  rw [← made] at idle
  rcases idle with idle | ⟨same, unflagged⟩
  · exact .inl idle
  cases state : server event.after.backend with
  | idle => exact .inl rfl
  | disconnected => exact absurd state connected
  | unknown => exact absurd state (truthful.known _)
  | transaction | failedTransaction =>
    refine .inr (tracked.carried (unflagged ?_))
    rw [← same, state]
    rfl

end

namespace Sample

/-- A server that knows BEGIN, COMMIT and ROLLBACK. -/
inductive Server where
  | idle | transaction | gone
deriving DecidableEq

def Server.state : Server → SessionState
  | .idle => .idle
  | .transaction => .transaction
  | .gone => .disconnected

def Server.run (sql : Bytes) : Server → Server
  | .gone => .gone
  | session =>
    if sql = ascii "BEGIN" then .transaction
    else if sql = ascii "COMMIT" ∨ sql = ascii "ROLLBACK" then .idle
    else session

def report {α : Type} (value : α) (move : Server → Server) :
    Program Thrown Server (BackendResult α) := do
  modify move
  let session ← get
  return .value value ⟨session.state, dispositionOf session.state⟩

def truthfulLease : BackendLease Server where
  provider := .postgres
  normalizeErrorSqlstate _ := none
  sessionState := Server.state
  executeQuery sql _ := report {} (Server.run sql)
  executePrepared sql _ _ := report {} (Server.run sql)
  prepareCommandBatch _ _ := report {} id
  executeCommandBatch sql _ _ := report {} (Server.run sql)
  startResultSequence := report () id
  advanceResultSequence := report {} id
  disconnect := modify fun _ => .gone

theorem report_reportsState {α : Type} (value : α) (move : Server → Server) :
    ReportsState Server.state (report value move) :=
  fun start => ⟨_, move start, rfl, rfl⟩

theorem truthfulLease_truthful : truthfulLease.Truthful Server.state where
  known session := by cases session <;> decide
  passive _ := rfl
  query _ _ := report_reportsState _ _
  prepared _ _ _ := report_reportsState _ _
  batch _ _ _ := report_reportsState _ _
  advance := report_reportsState _ _
  describe _ _ := report_reportsState _ _
  sequence := report_reportsState _ _
  disconnects _ := ⟨.gone, rfl, rfl⟩

def fresh : Driver Server := ⟨{}, .idle, 0⟩

theorem fresh_fresh : fresh.Fresh Server.state := ⟨rfl, rfl, rfl⟩

def manual : ConnectionEvent Server :=
  (ConnectionCall.setAutocommit {} .off 0).invoke truthfulLease fresh

def executed : ConnectionEvent Server :=
  (ConnectionCall.executeDirect {} (ascii "UPDATE t SET x = 1") 0).invoke truthfulLease manual.after

def committed : ConnectionEvent Server :=
  (ConnectionCall.endTran {} .commit 0).invoke truthfulLease executed.after

/-- A BEGIN of the application's own, before autocommit goes off. -/
def begun : ConnectionEvent Server :=
  (ConnectionCall.executeDirect {} (ascii "BEGIN") 0).invoke truthfulLease fresh

def switched : ConnectionEvent Server :=
  (ConnectionCall.setAutocommit {} .off 0).invoke truthfulLease begun.after

def ended : ConnectionEvent Server :=
  (ConnectionCall.endTran {} .commit 0).invoke truthfulLease switched.after

end Sample

open Sample in
theorem endTran_leaves_idle_committed :
    committed.reply = some .success ∧ executed.after.backend = .transaction ∧
      (committed.after.backend.state = .idle ∨
        CarriedOver Server.state [manual, executed]) := by
  have replied : committed.reply = some .success := by decide +kernel
  refine ⟨replied, by decide +kernel, ?_⟩
  exact @endTran_leaves_idle Server truthfulLease Server.state truthfulLease_truthful fresh
    fresh_fresh [.setAutocommit {} .off 0, .executeDirect {} (ascii "UPDATE t SET x = 1") 0,
      .endTran {} .commit 0]
    [manual, executed] [] committed rfl {} .commit 0 .success rfl (by decide +kernel) replied rfl
    (by decide +kernel)

open Sample in
/-- A BEGIN sent in autocommit mode survives the switch, and `SQLEndTran` succeeds over the open
transaction. -/
theorem endTran_succeeds_over_open_transaction :
    truthfulLease.Truthful Server.state ∧ fresh.Fresh Server.state ∧
      connectionEvents truthfulLease fresh [.executeDirect {} (ascii "BEGIN") 0,
        .setAutocommit {} .off 0, .endTran {} .commit 0] = [begun, switched] ++ [ended] ∧
      ended.before.handle.connected = true ∧ ended.before.handle.autocommit = false ∧
      ended.reply = some .success ∧ ended.after.backend.state = .transaction :=
  ⟨truthfulLease_truthful, fresh_fresh, rfl, by decide +kernel, by decide +kernel,
    by decide +kernel, by decide +kernel⟩

end Odbcpp.Odbc
