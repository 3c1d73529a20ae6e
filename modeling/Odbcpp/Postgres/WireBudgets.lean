import Odbcpp.Postgres.WireCounts

/-!
# Wire budgets

The four requests of the frontend that are limited in size. A request is refused for
its size exactly when its bytes are more than its budget.
-/

namespace Odbcpp.Postgres

open Foundation Database Util

/-- The requests with a wire budget. -/
inductive Request where
  | startup (user database : Bytes) (params : List (Bytes × Bytes))
  | simpleQuery (sql : Bytes)
  | preparedQuery (floating : FloatingContext) (sql : Bytes) (parameters : List QueryParameter)
  | statementDescription (sql : Bytes) (types : List QueryParameterType)

namespace Request

def encode (profile : PgCatalogProfile) (maxWireBytes : Nat) :
    Request → ExceptT Thrown Option Bytes
  | startup user database params =>
    createStartupMessage profile user database params maxWireBytes
  | simpleQuery sql => do
    let bytes ← countSimpleQuery sql maxWireBytes
    exactly (rejectSqlNul sql)
    (writeSimpleQuery sql bytes : Option Bytes)
  | preparedQuery floating sql parameters =>
    exactly (createPreparedQuery profile floating sql parameters maxWireBytes)
  | statementDescription sql types =>
    exactly (createStatementDescription profile sql types maxWireBytes)

def count (profile : PgCatalogProfile) (maxWireBytes : Nat) : Request → ExceptT Thrown Option Nat
  | startup user database params =>
    countStartupMessage profile user database params maxWireBytes
  | simpleQuery sql => countSimpleQuery sql maxWireBytes
  | preparedQuery floating sql parameters =>
    countPreparedQuery profile (floatingContext profile floating parameters)
      (replaceParameterMarkers sql).sql parameters maxWireBytes
  | statementDescription sql types =>
    countStatementDescription (replaceParameterMarkers sql).sql types maxWireBytes

/-- The bytes of a request that every check but the budget accepts. The length of a message has 32
bits. -/
def wire (profile : PgCatalogProfile) : Request → Except Thrown Bytes
  | startup user database params => do
    let fields := startupFields profile user database params
    if 2 ^ 32 - 1 < (startupWire fields).length then throw .requestWireLimitExceeded
    rejectStartupNul fields
    return startupWire fields
  | simpleQuery sql => do
    if 2 ^ 32 - 1 - 5 < sql.length then throw .requestWireLimitExceeded
    rejectSqlNul sql
    return simpleQueryWire sql
  | preparedQuery floating sql parameters => do
    rejectSqlNul sql
    if 2 ^ 16 - 1 < parameters.length then
      throw (.lengthError "too many PostgreSQL query parameters")
    let rewritten := replaceParameterMarkers sql
    if rewritten.markerCount ≠ 0 ∧ rewritten.markerCount ≠ parameters.length then
      throw (.invalidArgument "parameter marker count does not match bound parameter count")
    let context := floatingContext profile floating parameters
    finishFloating context (preparedMessages profile context rewritten.sql parameters)
  | statementDescription sql types => do
    rejectSqlNul sql
    if 2 ^ 16 - 1 < types.length then
      throw (.lengthError "too many PostgreSQL query parameters")
    let rewritten := replaceParameterMarkers sql
    if rewritten.markerCount ≠ types.length then
      throw (.invalidArgument "parameter marker count does not match described parameter count")
    descriptionMessages profile rewritten.sql types

/-- What an exact budget comes to: no step is undefined, and the count and the encoding of a request
with the bytes `wire` are decided by their number. -/
structure ExactBudget (profile : PgCatalogProfile) (maxWireBytes : Nat) (request : Request) :
    Prop where
  countDefined : ∃ outcome, request.count profile maxWireBytes = exactly outcome
  encodeDefined : ∃ outcome, request.encode profile maxWireBytes = exactly outcome
  counted : ∀ {bytes}, request.wire profile = .ok bytes →
    request.count profile maxWireBytes = exactly (charge maxWireBytes bytes.length)
  encoded : ∀ {bytes}, request.wire profile = .ok bytes →
    request.encode profile maxWireBytes =
      exactly (charge maxWireBytes bytes.length >>= fun _ => .ok bytes)
  accepted : ∀ {bytes}, request.encode profile maxWireBytes = exactly (.ok bytes) →
    request.wire profile = .ok bytes

variable {profile : PgCatalogProfile} {maxWireBytes : Nat}

theorem exactBudget_of_encode_eq {request : Request} {size : Nat}
    {representable : Except Thrown Nat → Except Thrown Nat}
    (count_eq : request.count profile maxWireBytes =
      exactly (representable (charge maxWireBytes size)))
    (passes : ∀ {bytes}, request.wire profile = .ok bytes →
      bytes.length = size ∧ representable (charge maxWireBytes size) = charge maxWireBytes size)
    (encode_eq : request.encode profile maxWireBytes =
      exactly (charge maxWireBytes size >>= fun _ => request.wire profile)) :
    ExactBudget profile maxWireBytes request where
  countDefined := ⟨_, count_eq⟩
  encodeDefined := ⟨_, encode_eq⟩
  counted := by
    intro bytes isWire
    obtain ⟨rfl, fits⟩ := passes isWire
    rw [count_eq, fits]
  encoded := by
    intro bytes isWire
    obtain ⟨rfl, -⟩ := passes isWire
    rw [encode_eq, isWire]
  accepted := by
    intro bytes isEncoded
    rw [encode_eq, exactly_inj_iff, bind_eq_ok] at isEncoded
    obtain ⟨-, -, isWire⟩ := isEncoded
    exact isWire

theorem exactBudget_startup (user database : Bytes) (params : List (Bytes × Bytes)) :
    ExactBudget profile maxWireBytes (startup user database params) := by
  have count_eq := countStartupMessage_eq profile maxWireBytes user database params
  refine exactBudget_of_encode_eq count_eq ?_ ?_
  · intro bytes isWire
    simp only [wire, guard_eq_ok, bind_eq_ok, pure_eq_ok] at isWire
    obtain ⟨fits, -, -, rfl⟩ := isWire
    exact ⟨rfl, checkLength_charge_of_le (Nat.le_of_not_lt fits)⟩
  simp only [encode, createStartupMessage, wire]
  rw [count_eq]
  generalize startupFields profile user database params = fields
  by_cases large : 2 ^ 32 - 1 < (startupWire fields).length
  · -- Both limits are refused alike.
    rw [if_pos large, checkLength_charge_of_lt large, charge]
    split <;> rfl
  rw [if_neg large, checkLength_charge_of_le (Nat.le_of_not_lt large)]
  refine exactly_bind fun counted isCharge => exactly_bind fun _ _ => ?_
  obtain ⟨-, rfl⟩ := charge_eq_ok.mp isCharge
  rw [writeStartupMessage_eq]
  rfl

variable (sql : Bytes)

theorem countSimpleQuery_eq : countSimpleQuery sql maxWireBytes =
      exactly (if 2 ^ 32 - 1 - 5 < sql.length then .error .requestWireLimitExceeded
        else charge maxWireBytes (1 + 4 + sql.length + 1)) := by
  unfold countSimpleQuery charge
  by_cases small : maxWireBytes < 6
  · rw [if_pos small, if_pos (show maxWireBytes < 1 + 4 + sql.length + 1 by omega)]
    split <;> rfl
  simp only [if_neg small, checkedSub_of_le (Nat.le_of_not_lt small),
    checkedSub_of_le (show 5 ≤ 2 ^ 32 - 1 by norm_num), liftM_some,
    throw_eq_exactly, pure_eq_exactly, exactly_ok_bind, exactly_error_bind]
  split_ifs <;> first | rfl | (exfalso; omega)

theorem exactBudget_simpleQuery : ExactBudget profile maxWireBytes (simpleQuery sql) := by
  refine exactBudget_of_encode_eq (countSimpleQuery_eq sql) ?_ ?_
  · intro bytes isWire
    simp only [wire, guard_eq_ok, bind_eq_ok, pure_eq_ok] at isWire
    obtain ⟨fits, -, -, rfl⟩ := isWire
    refine ⟨?_, if_neg fits⟩
    simp [simpleQueryWire]
    omega
  simp only [encode, wire, countSimpleQuery_eq]
  by_cases large : 2 ^ 32 - 1 - 5 < sql.length
  · rw [if_pos large, if_pos large, charge]
    split <;> rfl
  rw [if_neg large, if_neg large]
  refine exactly_bind fun counted isCharge => exactly_bind fun _ _ => ?_
  obtain ⟨-, rfl⟩ := charge_eq_ok.mp isCharge
  rw [writeSimpleQuery_eq]
  rfl

theorem finishFloating_eq_ok_iff {context outcome bytes} :
    finishFloating context outcome = .ok bytes ↔
      ¬context.any (!·.restored) ∧ outcome = .ok bytes := by
  unfold finishFloating
  split <;> simp_all

theorem exactBudget_preparedQuery (floating : FloatingContext) (sql : Bytes)
    (parameters : List QueryParameter) :
    ExactBudget profile maxWireBytes (preparedQuery floating sql parameters) where
  countDefined := ⟨_, countPreparedQuery_eq _ _⟩
  encodeDefined := ⟨_, rfl⟩
  counted := by
    intro bytes isWire
    simp only [wire, bind_eq_ok, guard_eq_ok, finishFloating_eq_ok_iff] at isWire
    obtain ⟨-, -, -, -, -, sent⟩ := isWire
    rw [count, countPreparedQuery_eq, preparedBudget_eq_length sent]
  encoded := by
    intro bytes isWire
    simp only [wire, bind_eq_ok, guard_eq_ok, finishFloating_eq_ok_iff] at isWire
    obtain ⟨_, clean, few, matching, restored, sent⟩ := isWire
    simp only [encode, createPreparedQuery, clean, if_neg few, if_neg matching, finishFloating,
      if_neg restored]
    rw [preparedBudget_eq_length sent, sent]
    rfl
  accepted := by
    intro bytes isEncoded
    simp only [encode, exactly_inj_iff, createPreparedQuery, bind_eq_ok, guard_eq_ok,
      finishFloating_eq_ok_iff] at isEncoded
    obtain ⟨_, clean, few, matching, restored, _, -, sent⟩ := isEncoded
    simp only [wire, bind_eq_ok, guard_eq_ok, finishFloating_eq_ok_iff]
    exact ⟨_, clean, few, matching, restored, sent⟩

theorem countStatementDescription_eq (types : List QueryParameterType) :
    countStatementDescription sql types maxWireBytes =
      exactly (charge maxWireBytes (21 + 4 * types.length + sql.length)) := by
  unfold countStatementDescription charge
  by_cases small : maxWireBytes < 21 + 4 * types.length
  · rw [if_pos small, if_pos (by omega)]
    rfl
  simp only [if_neg small, checkedSub_of_le (Nat.le_of_not_lt small), liftM_some,
    throw_eq_exactly, pure_eq_exactly, exactly_ok_bind, exactly_error_bind]
  by_cases exceeds : maxWireBytes - (21 + 4 * types.length) < sql.length
  · rw [if_pos exceeds, if_pos (by omega)]
  · rw [if_neg exceeds, if_neg (by omega)]

theorem length_descriptionMessages {sql bytes types}
    (sent : descriptionMessages profile sql types = .ok bytes) :
    bytes.length = 21 + 4 * types.length + sql.length := by
  simp only [descriptionMessages, bind_eq_ok, pure_eq_ok] at sent
  obtain ⟨parse, parseFramed, describe, describeFramed, sync, syncFramed, rfl⟩ := sent
  simp [length_frame parseFramed, length_frame describeFramed, length_frame syncFramed,
    length_parseBody]
  omega

theorem exactBudget_statementDescription (types : List QueryParameterType) :
    ExactBudget profile maxWireBytes (statementDescription sql types) where
  countDefined := ⟨_, countStatementDescription_eq _ _⟩
  encodeDefined := ⟨_, rfl⟩
  counted := by
    intro bytes isWire
    simp only [wire, bind_eq_ok, guard_eq_ok] at isWire
    obtain ⟨-, -, -, -, sent⟩ := isWire
    rw [count, countStatementDescription_eq, length_descriptionMessages sent]
  encoded := by
    intro bytes isWire
    simp only [wire, bind_eq_ok, guard_eq_ok] at isWire
    obtain ⟨_, clean, few, matching, sent⟩ := isWire
    rw [length_descriptionMessages sent]
    have refuses : (maxWireBytes < 21 + 4 * types.length ∨
        maxWireBytes - (21 + 4 * types.length) < (replaceParameterMarkers sql).sql.length) ↔
        maxWireBytes < 21 + 4 * types.length + (replaceParameterMarkers sql).sql.length := by omega
    simp only [encode, createStatementDescription, clean, if_neg few, if_neg matching, sent, charge,
      refuses]
    by_cases exceeds :
        maxWireBytes < 21 + 4 * types.length + (replaceParameterMarkers sql).sql.length
    · rw [if_pos exceeds]
      simp only [if_pos exceeds]
      rfl
    rw [if_neg exceeds]
    simp only [if_neg exceeds]
    rfl
  accepted := by
    intro bytes isEncoded
    simp only [encode, exactly_inj_iff, createStatementDescription, bind_eq_ok,
      guard_eq_ok] at isEncoded
    obtain ⟨_, clean, few, matching, -, sent⟩ := isEncoded
    simp only [wire, bind_eq_ok, guard_eq_ok]
    exact ⟨_, clean, few, matching, sent⟩

theorem exactBudget (profile : PgCatalogProfile) (maxWireBytes : Nat) (request : Request) :
    ExactBudget profile maxWireBytes request := by
  cases request with
  | startup user database params => exact exactBudget_startup user database params
  | simpleQuery sql => exact exactBudget_simpleQuery sql
  | preparedQuery floating sql parameters => exact exactBudget_preparedQuery floating sql parameters
  | statementDescription sql types => exact exactBudget_statementDescription sql types

/-- Wire budgets are exact. No subtraction wraps and no byte is written outside its buffer; what is
returned has the counted size; and a request that every other check accepts is refused for its size
exactly when its bytes are more than the budget. -/
theorem wireBudgets_exact (profile : PgCatalogProfile) (request : Request) (maxWireBytes : Nat) :
    (∃ outcome, request.count profile maxWireBytes = exactly outcome) ∧
    (∃ outcome, request.encode profile maxWireBytes = exactly outcome) ∧
    (∀ bytes, request.encode profile maxWireBytes = exactly (.ok bytes) →
      request.count profile maxWireBytes = exactly (.ok bytes.length) ∧
        bytes.length ≤ maxWireBytes) ∧
    ∀ bytes, request.wire profile = .ok bytes →
      (request.encode profile maxWireBytes = exactly (.error .requestWireLimitExceeded) ↔
        maxWireBytes < bytes.length) ∧
      (bytes.length ≤ maxWireBytes →
        request.encode profile maxWireBytes = exactly (.ok bytes)) := by
  have budget := request.exactBudget profile maxWireBytes
  refine ⟨budget.countDefined, budget.encodeDefined, ?_, ?_⟩
  · intro bytes isEncoded
    have isWire := budget.accepted isEncoded
    rw [budget.encoded isWire, exactly_inj_iff, bind_eq_ok] at isEncoded
    obtain ⟨counted, isCharge, -⟩ := isEncoded
    have within := (charge_eq_ok.mp isCharge).1
    rw [budget.counted isWire, charge_of_le within]
    exact ⟨rfl, within⟩
  intro bytes isWire
  rw [budget.encoded isWire]
  by_cases within : bytes.length ≤ maxWireBytes
  · rw [charge_of_le within]
    exact ⟨⟨fun same => (nomatch exactly_inj same), fun exceeds => absurd exceeds (by omega)⟩,
      fun _ => rfl⟩
  · rw [charge, if_pos (Nat.lt_of_not_le within)]
    exact ⟨⟨fun _ => Nat.lt_of_not_le within, fun _ => rfl⟩, fun fits => absurd fits within⟩

/-- A startup message of 41 bytes, at its size and one byte below. -/
theorem wireBudgets_exact_startup : (startup [] (ascii "d") []).encode .redshift 40 =
        exactly (.error .requestWireLimitExceeded) ∧
      (startup [] (ascii "d") []).encode .redshift 41 =
        exactly (.ok (startupWire
          [(ascii "database", ascii "d"), (ascii "extra_float_digits", ascii "2")])) := by
  have below := (wireBudgets_exact .redshift (startup [] (ascii "d") []) 40).2.2.2 _ rfl
  have enough := (wireBudgets_exact .redshift (startup [] (ascii "d") []) 41).2.2.2 _ rfl
  exact ⟨below.1.mpr (by decide), enough.2 (by decide)⟩

end Request

end Odbcpp.Postgres
