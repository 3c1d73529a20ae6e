import Odbcpp.Connection.Draining
import Odbcpp.Connection.Operations

/-!
# The session stream stays synchronised

If an operation returns with the connection still up, it exchanged no byte, or it wrote a whole
request and consumed exactly one complete response, whose state the session then has; nested type
queries do the same after it. Every other exit has retired the connection.
-/

namespace Odbcpp.Connection

open Foundation Database Postgres

/-! ## Exchanges -/

/-- One request with its response and the state the response left. -/
structure WireExchange where
  request : Bytes
  frames : List Bytes
  state : SessionState
deriving DecidableEq

def Link.exchange (link : Link) (exchanged : WireExchange) : Link :=
  { (link.send exchanged.request).receive exchanged.frames.flatten with
    sessionState := exchanged.state }

section

variable {σ : Type} {env : Environment σ} {settings : Settings} {base : Link}
  {before : Link → Prop} {abrupt : Thrown → Link → Prop}

variable {operation : BackendOperation}

section

variable {backend : Backend} {resolve : List Nat → Io σ (BackendResult ResolvedTypeMap)}
  {settled : Link → Prop} {deadline : Nat} {kind : ResponseKind}

variable {result : BackendResult QueryResult} {sends : Bytes → Prop}
  {encoded : Except Thrown Bytes} {done : Link → Prop} {settled : Link → Link → Prop}
  {body : Io σ (BackendResult QueryResult)} {expected : Bytes}

/-! ## Operations -/

/-- What an exception out of an exchange leaves: the encoder's wire limit is
raised before any I/O. -/
def Rejected (base : Link) (failure : Thrown) (link : Link) : Prop :=
  (failure = .requestWireLimitExceeded ∧ link = base) ∨ Interrupted failure link

/-- An exchange over `base` did nothing, retired the connection, or was answered by a whole
response, and `settled` describes what came after. -/
def Exchanged (sends : Bytes → Prop) (settled : Link → Link → Prop) (base link : Link) : Prop :=
  link = base ∨ link.Retired ∨ ∃ exchanged : WireExchange, sends exchanged.request ∧
    Drained exchanged.frames exchanged.state ∧ settled (base.exchange exchanged) link

/-- A request is built without I/O, and only the encoder's limit is thrown. -/
theorem buildRequest_ensures : Ensures (· = base) (buildRequest env encoded)
      (fun result link => link = base ∧ ∀ request, result = .ok request → encoded = .ok request)
      (Rejected base) := by
  have encodes : Ensures (· = base)
      (do allocate env
          let request ← Program.ofExcept encoded
          return .ok request : Io σ (Except BackendError Bytes))
      (fun result link => link = base ∧ ∀ request, result = .ok request → encoded = .ok request)
      (fun _ link => link = base) := by
    refine (Ensures.allocate fun _ same => same :
      Ensures (· = base) _ (fun _ => (· = base)) _).bind fun _ => ?_
    refine (Ensures.ofExcept fun _ _ same => same :
      Ensures (· = base) _ (fun _ link => link = base ∧ _) _).bind fun request => ?_
    refine .pure _ fun link ⟨same, isOk⟩ => ⟨same, fun other isOther => ?_⟩
    cases isOther
    exact isOk
  refine encodes.tryCatch fun thrown => ?_
  cases thrown with
  | requestWireLimitExceeded => exact .throw _ fun _ same => .inl ⟨rfl, same⟩
  | _ => exact .pure _ fun _ same => ⟨same, fun _ isOk => by cases isOk⟩

theorem dispatchAllowed_ensures :
    Ensures before (dispatchAllowed env kind) (fun _ => before) abrupt := by
  refine cancellationActive_ensures.bind fun active => ?_
  split
  · exact .ask _
  · exact .pure _ fun _ => id

theorem noteSent_ensures : Ensures before (noteSent env kind) (fun _ => before) abrupt :=
  cancellationActive_ensures.bind fun _ => .onlyIf (.tell _)

/-- An exchange over `base` failed without a byte sent, failed and retired the connection, or was
answered by a whole response, of which a result is made. -/
def Answered (settings : Settings) (kind : ResponseKind) (expected : Bytes) (sends : Bytes → Prop)
    (settled : Link → Link → Prop) (base : Link) (result : BackendResult QueryResult)
    (link : Link) : Prop :=
  link = base ∧ result.hasError = true ∨ link.Retired ∧ result.hasError = true ∨
    ∃ exchanged : WireExchange, sends exchanged.request ∧
      Drained exchanged.frames exchanged.state ∧ settled (base.exchange exchanged) link ∧
      ∀ value session, result = .value value session →
        Published settings kind expected exchanged.frames value

theorem Answered.exchanged {link : Link}
    (answered : Answered settings kind expected sends settled base result link) :
    Exchanged sends settled base link := by
  rcases answered with ⟨same, -⟩ | ⟨retired, -⟩ | ⟨exchanged, sent, whole, holds, -⟩
  · exact .inl same
  · exact .inr (.inl retired)
  · exact .inr (.inr ⟨exchanged, sent, whole, holds⟩)

section

variable (connected : base.connected = true)
  (encodes : ∀ request, encoded = .ok request → sends request)
  (drained : ∀ link, settled link link) (retires : ∀ start link, link.Retired → settled start link)
  (resolves : ∀ start, start.connected = true →
    ∀ ids, Ensures (settled start) (resolve ids) (fun _ => settled start) Caught)

include connected encodes drained retires resolves

theorem exchange_answers :
    Ensures (· = base) (exchange env settings backend resolve deadline kind expected encoded)
      (Answered settings kind expected sends settled base) (Rejected base) := by
  refine (Ensures.get fun _ same => same : Ensures (· = base) _ (fun _ => (· = base)) _).bind
    fun session => ?_
  split
  · exact .pure _ fun _ same => .inl ⟨same, rfl⟩
  refine buildRequest_ensures.bind fun built => ?_
  rcases built with failure | request
  · exact .pure _ fun _ unsent => .inl ⟨unsent.1, rfl⟩
  refine Ensures.knowing (fun _ unsent => unsent.2 request rfl) fun isOk => ?_
  refine dispatchAllowed_ensures.bind fun allowed => ?_
  split
  · exact .pure _ fun _ unsent => .inl ⟨unsent.1, rfl⟩
  refine Ensures.bind ((writeAllResult_ensures (tolerates_interrupted connected)).consequence
    (fun _ unsent => unsent.1) (fun _ _ reports => reports) (fun _ _ thrown => .inr thrown))
    fun written => ?_
  rcases written with failure | _
  · exact .pure _ fun _ retired => .inr (.inl ⟨retired, rfl⟩)
  refine noteSent_ensures.bind fun _ => ?_
  have sent : (base.send request).connected = true := connected
  refine (readQueryResult_answers (tolerates_interrupted sent) drained retires
    fun start same => resolves start (same.trans sent)).consequence
    (fun _ => id) ?_ (fun _ _ thrown => .inr thrown)
  rintro result link (retired | ⟨frames, state, whole, holds, published⟩)
  · exact .inr (.inl retired)
  · exact .inr (.inr ⟨⟨request, frames, state⟩, encodes request isOk, whole, holds,
      published⟩)

theorem exchange_ensures :
    Ensures (· = base) (exchange env settings backend resolve deadline kind expected encoded)
      (fun _ => Exchanged sends settled base) (Rejected base) :=
  (exchange_answers connected encodes drained retires resolves).concluding
    (fun _ _ answered => answered.exchanged)

end

theorem finishOperation_ensures (retires : ∀ link, link.Retired → done link) :
    Ensures done (finishOperation env result operation) (fun _ => done) abrupt := by
  have read : Ensures done (get : Io σ (Session σ)) (fun _ => done) abrupt :=
    .get fun _ holds => holds
  unfold finishOperation
  cases result with
  | value value session => exact read.bind fun _ => .pure _ fun _ => id
  | error failure =>
    dsimp only
    split
    · exact .pure _ fun _ => id
    have marked : Ensures done (markTransportFailed env) (fun _ => done) abrupt :=
      Ensures.markTransportFailed.concluding (fun _ link retired => retires link retired)
    exact (Ensures.onlyIf marked).bind fun _ => read.bind fun _ => .pure _ fun _ => id

theorem rejectRequestLimit_ensures :
    Ensures before (rejectRequestLimit operation : Io σ (BackendResult QueryResult))
      (fun _ => before) abrupt :=
  (Ensures.get fun _ holds => holds : Ensures before _ (fun _ => before) abrupt).bind
    fun _ => .pure _ fun _ => id

/-- The outer handlers keep what the body establishes, and let no exception out
of a connection whose flags disagree. -/
theorem guardOperation_ensures (untouched : done base) (retires : ∀ link, link.Retired → done link)
    (runs : Ensures (· = base) body (fun _ => done) (Rejected base)) :
    Ensures (· = base) (guardOperation env operation body) (fun _ => done)
      (fun _ => Link.Consistent) := by
  refine (runs.bind fun result => finishOperation_ensures retires).tryCatch fun thrown => ?_
  cases thrown with
  | requestWireLimitExceeded =>
    refine rejectRequestLimit_ensures.assuming fun link rejected => ?_
    rcases rejected with ⟨-, rfl⟩ | interrupted
    · exact untouched
    · exact absurd rfl interrupted.1
  | badAlloc =>
    exact Ensures.markTransportFailed.bind fun _ =>
      (finishOperation_ensures retires).assuming retires
  | _ =>
    refine .throw _ fun link rejected => ?_
    rcases rejected with ⟨isLimit, -⟩ | interrupted
    · cases isLimit
    · exact interrupted.2

theorem finishOperation_error {failure} :
    Ensures before (finishOperation env (.error failure) operation)
      (fun result _ => result.hasError = true) Caught := by
  unfold finishOperation
  dsimp only
  split
  · exact .pure _ fun _ _ => rfl
  · exact .after fun _ => .after fun _ => .pure _ fun _ _ => rfl

/-- A finished operation returns a value only where its body did, with the state of
the link. -/
theorem guardOperation_value {told : QueryResult → Link → Prop} (runs : Ensures before body
      (fun result link => ∀ value session, result = .value value session → told value link) Caught) :
    Ensures before (guardOperation env operation body)
      (fun result link => ∀ value snapshot, result = .value value snapshot →
        snapshot.state = link.sessionState ∧ ∃ raw, told raw link) Caught := by
  have failed {result : BackendResult QueryResult} {claim : QueryResult → SessionSnapshot → Prop}
      (hasError : result.hasError = true) (value : QueryResult) (snapshot : SessionSnapshot)
      (isValue : result = .value value snapshot) : claim value snapshot := by
    rw [isValue] at hasError
    cases hasError
  refine (runs.bind fun result => ?_).tryCatch fun thrown => ?_
  · cases result with
    | error failure =>
      exact finishOperation_error.concluding (fun _ _ => failed)
    | value raw session =>
      refine (Ensures.get fun session told => ⟨rfl, told raw _ rfl⟩ : Ensures _ _
        (fun session link => session.toLink = link ∧ told raw link) _).bind fun session => ?_
      refine .pure _ fun link holds value snapshot isValue => ?_
      cases isValue
      exact ⟨congrArg Link.sessionState holds.1, raw, holds.2⟩
  · cases thrown with
    | requestWireLimitExceeded => exact .after fun _ => .pure _ fun _ _ => failed rfl
    | badAlloc =>
      refine .after fun _ => ?_
      exact finishOperation_error.concluding (fun _ _ => failed)
    | _ => exact .throw _ fun _ _ => trivial

end

/-! ## Type discovery -/

variable {backend : Backend} {deadline : Nat}

variable {sql expected : Bytes} {ids unresolved : List Nat} {start : Link}

theorem describedTypes_ensures :
    Ensures before (describedTypes backend ids : Io σ (BackendResult ResolvedTypeMap))
      (fun _ => before) abrupt :=
  .pure _ fun _ => id

/-- A simple query ends where its response ends. -/
def Ended (start link : Link) : Prop := link.Retired ∨ link = start

def SimpleRequest (settings : Settings) (sql request : Bytes) : Prop :=
  createSimpleQuery sql settings.inputLimits.maxRequestWireBytes = .ok request

theorem simpleQuery_ensures (connected : base.connected = true) :
    Ensures (· = base) (simpleQuery env settings backend sql expected deadline operation)
      (fun _ => Exchanged (SimpleRequest settings sql) Ended base) (fun _ => Link.Consistent) := by
  refine (Ensures.get fun _ same => same : Ensures (· = base) _ (fun _ => (· = base)) _).bind
    fun session => ?_
  split
  · exact rejectRequestLimit_ensures.concluding (fun _ _ same => .inl same)
  exact guardOperation_ensures (.inl rfl) (fun _ retired => .inr (.inl retired))
    (exchange_ensures connected (fun _ => id) (fun _ => .inr rfl)
      (fun _ _ retired => .inl retired) fun _ _ _ => describedTypes_ensures)

/-- The connection is retired, or the query was answered by a whole response, of which
the value is made. -/
def SimplyAnswered (settings : Settings) (sql expected : Bytes) (base : Link) (value : QueryResult)
    (link : Link) : Prop :=
  link.Retired ∨ ∃ exchanged : WireExchange, SimpleRequest settings sql exchanged.request ∧
    Drained exchanged.frames exchanged.state ∧ link = base.exchange exchanged ∧
    Published settings .simpleExecution expected exchanged.frames value

theorem exchange_simplyAnswered : Ensures (· = base)
      (exchange env settings backend (describedTypes backend) deadline .simpleExecution expected
        (createSimpleQuery sql settings.inputLimits.maxRequestWireBytes))
      (fun result link => ∀ value session, result = .value value session →
        SimplyAnswered settings sql expected base value link) Caught := by
  by_cases connected : base.connected = true
  · have answers : Ensures (· = base)
        (exchange env settings backend (describedTypes backend) deadline .simpleExecution expected
          (createSimpleQuery sql settings.inputLimits.maxRequestWireBytes))
        (Answered settings .simpleExecution expected (SimpleRequest settings sql) Ended base)
        (Rejected base) :=
      exchange_answers connected (fun _ => id) (fun _ => .inr rfl)
        (fun _ _ retired => .inl retired) fun _ _ _ => describedTypes_ensures
    refine answers.consequence (fun _ => id) ?_ (fun _ _ _ => trivial)
    rintro result link answered value session rfl
    rcases answered with ⟨-, failed⟩ | ⟨retired, -⟩ | ⟨exchanged, sent, whole, ended, published⟩
    · cases failed
    · exact .inl retired
    rcases ended with retired | same
    · exact .inl retired
    · exact .inr ⟨exchanged, sent, whole, same, published value session rfl⟩
  · refine (Ensures.get fun session same => congrArg Link.connected same : Ensures (· = base) _
      (fun session _ => session.connected = base.connected) _).bind fun session => ?_
    refine Ensures.knowing (fun _ sameFlag => sameFlag) fun sameFlag => ?_
    rw [sameFlag, Bool.eq_false_of_not_eq_true connected]
    exact .pure _ fun _ _ _ _ isValue => by cases isValue

theorem simpleQuery_answers :
    Ensures (· = base) (simpleQuery env settings backend sql expected deadline operation)
      (fun result link => ∀ value snapshot, result = .value value snapshot →
        snapshot.state = link.sessionState ∧
          ∃ raw, SimplyAnswered settings sql expected base raw link) Caught := by
  refine (Ensures.get fun _ same => same : Ensures (· = base) _ (fun _ => (· = base)) _).bind
    fun session => ?_
  split
  · exact .after fun _ => .pure _ fun _ _ _ _ isValue => by cases isValue
  · exact guardOperation_value exchange_simplyAnswered

theorem simpleQuery_retired :
    Ensures Link.Retired (simpleQuery env settings backend sql expected deadline operation)
      (fun _ => Link.Retired) (fun _ => Link.Consistent) := by
  refine Ensures.each fun link retired => ?_
  refine (Ensures.get fun _ same => same : Ensures (· = link) _ (fun _ => (· = link)) _).bind
    fun session => ?_
  split
  · exact rejectRequestLimit_ensures.concluding (fun _ _ same => same ▸ retired)
  refine guardOperation_ensures retired (fun _ => id) ?_
  refine (Ensures.get fun session same => ⟨?_, same⟩ : Ensures (· = link) _
    (fun session other => session.connected = false ∧ other = link) _).bind fun session => ?_
  · rw [same]
    exact retired.1
  refine Ensures.knowing (fun _ holds => holds.1) fun disconnected => ?_
  rw [disconnected]
  exact .pure _ fun _ holds => holds.2 ▸ retired

/-- The connection is retired, or only whole type queries were exchanged. -/
def Standing (settings : Settings) (start link : Link) : Prop :=
  link.Retired ∨ ∃ exchanges : List WireExchange, link = exchanges.foldl Link.exchange start ∧
    ∀ exchanged ∈ exchanges, Drained exchanged.frames exchanged.state ∧
      ∃ unresolved, SimpleRequest settings (typeQuery unresolved) exchanged.request

/-- The bytes add up, and the last exchange decides the state. -/
theorem foldl_exchange (exchanges : List WireExchange) (start : Link) :
    exchanges.foldl Link.exchange start =
      { connected := start.connected
        sessionState := (exchanges.getLast?.map (·.state)).getD start.sessionState
        sent := start.sent ++ (exchanges.map (·.request)).flatten
        received := start.received ++ (exchanges.map (·.frames.flatten)).flatten } := by
  induction exchanges generalizing start with
  | nil => simp
  | cons exchanged rest ih =>
    rw [List.foldl_cons, ih]
    cases last : rest.getLast? <;>
      simp [Link.exchange, Link.send, Link.receive, List.getLast?_cons, last]

theorem Standing.refl {start : Link} : Standing settings start start :=
  .inr ⟨[], rfl, by simp⟩

theorem executeQuery_standing (connected : start.connected = true) :
    Ensures (Standing settings start)
      (executeQuery env settings backend (typeQuery unresolved) deadline)
      (fun _ => Standing settings start) Caught := by
  refine Ensures.each fun link standing => ?_
  rcases standing with retired | ⟨exchanges, rfl, each⟩
  · exact simpleQuery_retired.consequence (fun _ same => same ▸ retired)
      (fun _ _ retired => .inl retired) (fun _ _ _ => trivial)
  have still : (exchanges.foldl Link.exchange start).connected = true := by
    rw [foldl_exchange]
    exact connected
  refine (simpleQuery_ensures still).consequence (fun _ => id) ?_ (fun _ _ _ => trivial)
  rintro result link (rfl | retired | ⟨exchanged, sends, whole, retired | rfl⟩)
  · exact .inr ⟨exchanges, rfl, each⟩
  · exact .inl retired
  · exact .inl retired
  · exact .inr ⟨exchanges ++ [exchanged], by simp,
      forall_mem_concat each ⟨whole, unresolved, sends⟩⟩

theorem discoverTypes_standing {profile resolved} (connected : start.connected = true) :
    Ensures (Standing settings start)
      (discoverTypes env settings backend profile resolved unresolved deadline)
      (fun _ => Standing settings start) Caught := by
  refine (executeQuery_standing connected).bind fun result => ?_
  cases result with
  | error failure => exact .pure _ fun _ => id
  | value types session =>
    dsimp only
    split
    · exact .pure _ fun _ => id
    exact (Ensures.get fun _ standing => standing :
      Ensures (Standing settings start) _ (fun _ => Standing settings start) _).bind
      fun _ => .pure _ fun _ => id

/-- The resolver phase concerns only the cancellation endpoint. -/
theorem withinResolver_ensures {α : Type} {settled : Link → Prop} {suspended : Bool}
    {body : Io σ α} (runs : Ensures settled body (fun _ => settled) Caught) :
    Ensures settled (withinResolver env suspended body) (fun _ => settled) Caught := by
  have left : Ensures settled (Program.onlyIf suspended (tell env.leaveResolver))
      (fun _ => settled) Caught := .onlyIf (.tell _)
  refine Ensures.bind (runs.tryCatch fun thrown => ?_) fun result =>
    left.bind fun _ => .pure _ fun _ => id
  exact (Ensures.onlyIf (.tell _)).bind fun _ => .throw _ fun _ _ => trivial

theorem resolveTypes_standing (connected : start.connected = true) :
    Ensures (Standing settings start) (resolveTypes env settings backend deadline ids)
      (fun _ => Standing settings start) Caught := by
  unfold resolveTypes
  split
  · exact describedTypes_ensures
  unfold discoveredTypes
  dsimp only
  split
  · exact .pure _ fun _ => id
  refine (Ensures.get fun _ standing => standing :
    Ensures (Standing settings start) _ (fun _ => Standing settings start) _).bind fun session => ?_
  have entered : Ensures (Standing settings start)
      (enterResolver env session.cancellationOperation)
      (fun _ => Standing settings start) Caught := by
    unfold enterResolver
    split
    · exact .ask _
    · exact .pure _ fun _ => id
  refine entered.bind fun allowed => ?_
  split
  · exact .pure _ fun _ => id
  · exact withinResolver_ensures ((Ensures.allocate fun _ _ => trivial).bind fun _ =>
      discoverTypes_standing connected)

/-! ## The law -/

/-- What one operation exchanges: nothing, or its request and the type queries it nests, each
answered as a whole. -/
def Operation.Exchanges (settings : Settings) (operation : Operation)
    (exchanges : List WireExchange) : Prop :=
  exchanges = [] ∨ ∃ first nested, exchanges = first :: nested ∧
    operation.Encodes settings first.request ∧
    (∀ exchanged ∈ exchanges, Drained exchanged.frames exchanged.state) ∧
    (operation.resolvesTypes = false → nested = []) ∧
    ∀ exchanged ∈ nested, ∃ unresolved,
      SimpleRequest settings (typeQuery unresolved) exchanged.request

def Operation.Leaves (settings : Settings) (operation : Operation) (base link : Link) : Prop :=
  link.Retired ∨ ∃ exchanges, operation.Exchanges settings exchanges ∧
    link = exchanges.foldl Link.exchange base

theorem Operation.leaves_of_exchanged {operation : Operation} {sends : Bytes → Prop}
    {settled : Link → Link → Prop} {link : Link}
    (encodes : ∀ request, sends request → operation.Encodes settings request)
    (stands : ∀ start, settled start link →
      Ended start link ∨ operation.resolvesTypes = true ∧ Standing settings start link)
    (exchanged : Exchanged sends settled base link) : operation.Leaves settings base link := by
  rcases exchanged with rfl | retired | ⟨first, sent, whole, holds⟩
  · exact .inr ⟨[], .inl rfl, rfl⟩
  · exact .inl retired
  rcases stands _ holds with (retired | rfl) | ⟨resolves, retired | ⟨nested, rfl, each⟩⟩
  · exact .inl retired
  · exact .inr ⟨[first], .inr ⟨first, [], rfl, encodes _ sent, by simpa using whole, fun _ => rfl,
      by simp⟩, rfl⟩
  · exact .inl retired
  refine .inr ⟨first :: nested, .inr ⟨first, nested, rfl, encodes _ sent, ?_, ?_,
    fun other member => (each other member).2⟩, rfl⟩
  · rintro other (_ | ⟨_, member⟩)
    · exact whole
    · exact (each other member).1
  intro never
  rw [resolves] at never
  cases never

theorem Operation.run_ensures {operation : Operation} (connected : base.connected = true) :
    Ensures (· = base) (operation.run env settings backend deadline)
      (fun _ => operation.Leaves settings base) (fun _ => Link.Consistent) := by
  have untouched : operation.Leaves settings base base := .inr ⟨[], .inl rfl, rfl⟩
  have resolves : ∀ start, start.connected = true → ∀ ids, Ensures (Standing settings start)
      (resolveTypes env settings backend deadline ids) (fun _ => Standing settings start) Caught :=
    fun start standing ids => resolveTypes_standing standing
  have rejected {kind : BackendOperation} : Ensures (· = base)
      (rejectRequestLimit kind : Io σ (BackendResult QueryResult))
      (fun _ => operation.Leaves settings base) (fun _ => Link.Consistent) :=
    rejectRequestLimit_ensures.concluding (fun _ _ same => same ▸ untouched)
  have read : Ensures (· = base) (get : Io σ (Session σ)) (fun _ => (· = base))
      (fun _ => Link.Consistent) := .get fun _ => id
  cases operation with
  | executeQuery sql | executeCleanupQuery sql expected =>
    exact (simpleQuery_ensures connected).concluding
      (fun _ link => leaves_of_exchanged (fun _ => id) fun _ ended => .inl ended)
  | executePrepared sql parameters =>
    refine read.bind fun session => ?_
    dsimp only
    split
    · exact rejected
    refine guardOperation_ensures untouched (fun _ retired => .inl retired) ?_
    refine (Ensures.ask env.floating).bind fun floating => ?_
    exact (exchange_ensures connected (fun _ => id) (fun _ => .refl)
      (fun _ _ retired => .inl retired) resolves).concluding (fun _ link => leaves_of_exchanged (fun _ sent => ⟨floating, sent⟩)
        fun _ standing => .inr ⟨rfl, standing⟩)
  | describeStatement sql types =>
    refine read.bind fun session => ?_
    dsimp only
    split
    · exact rejected
    refine guardOperation_ensures untouched (fun _ retired => .inl retired) ?_
    exact (exchange_ensures connected (fun _ => id) (fun _ => .refl)
      (fun _ _ retired => .inl retired) resolves).concluding (fun _ link => leaves_of_exchanged (fun _ => id)
        fun _ standing => .inr ⟨rfl, standing⟩)

end

/-- Whatever the surroundings do, an operation that returns with the connection still up has
exchanged whole requests for whole responses only, and the session has the state of the last one; a
connection that is down is disconnected. -/
theorem operation_synchronised {σ : Type} (env : Environment σ) (settings : Settings)
    (backend : Backend) (deadline : Nat) (operation : Operation) {start final : Session σ}
    {result : Except Thrown (BackendResult QueryResult)} (connected : start.connected = true)
    (ends : (operation.run env settings backend deadline).outcome start = (result, final)) :
    (final.connected = false → final.sessionState = .disconnected) ∧
      (result.isOk = true → final.connected = true →
        ∃ exchanges, operation.Exchanges settings exchanges ∧
          final.sent = start.sent ++ (exchanges.map (·.request)).flatten ∧
          final.received = start.received ++ (exchanges.map (·.frames.flatten)).flatten ∧
          final.sessionState = (exchanges.getLast?.map (·.state)).getD start.sessionState) := by
  cases result with
  | error failure =>
    exact ⟨(Operation.run_ensures connected).throws rfl ends, fun isOk => by cases isOk⟩
  | ok value =>
    rcases (Operation.run_ensures connected).returns rfl ends with
      retired | ⟨exchanges, exchanged, same⟩
    · refine ⟨retired.consistent, fun _ stillUp => ?_⟩
      rw [retired.1] at stillUp
      cases stillUp
    rw [foldl_exchange] at same
    have stillUp : final.connected = true := by
      rw [same]
      exact connected
    exact ⟨Link.consistent_of_connected stillUp, fun _ _ => ⟨exchanges, exchanged,
      congrArg Link.sent same, congrArg Link.received same,
      congrArg Link.sessionState same⟩⟩

namespace Sample

/-- A server that takes four bytes a call and hands out three, from a fixed
stream. -/
def trickling : Environment Bytes where
  send data stream := (.wrote (min 4 data.length), stream)
  recv buffer offset stream :=
    let count := min 3 (buffer.length - offset)
    (.received (stream.take count) false, stream.drop count)
  close stream := stream
  now stream := (0, stream)
  allocationFails stream := (false, stream)
  floating stream := (⟨true, fun _ _ => ⟨0, true, .none, true, 0⟩, true⟩, stream)
  beforeWire stream := (true, stream)
  wireSent stream := stream
  errorObserved _ stream := stream
  drained stream := ({}, stream)
  sealed stream := ({}, stream)
  enterResolver stream := (true, stream)
  leaveResolver stream := stream

def plainBackend : Backend where
  describeType _ _ _ := {}
  parserDescribeType _ _ _ := {}
  normalizeNativeResultValue _ _ value := some value
  typeResolution := .described

/-- The response to BEGIN, and bytes of a later message that must stay unread. -/
def began : Bytes :=
  code 'C' :: bigEndian 4 10 ++ ascii "BEGIN" ++ [0] ++ code 'Z' :: bigEndian 4 5 ++ [code 'T']

def idleSession : Session Bytes where
  connected := true
  sessionState := .idle
  environment := began ++ ascii "later"

end Sample

open Sample in
/-- BEGIN over the trickling server consumes its own response and enters the
transaction. -/
theorem operation_synchronised_begin : ∃ result final, (Operation.run trickling {} plainBackend 1
        (.executeQuery (ascii "BEGIN"))).outcome idleSession = (result, final) ∧
      final.connected = true ∧ final.sessionState = .transaction ∧
      final.environment = ascii "later" ∧
      ∃ exchanges, (Operation.executeQuery (ascii "BEGIN")).Exchanges {} exchanges ∧
        final.received = (exchanges.map (·.frames.flatten)).flatten := by
  have evaluated : ∀ result final, (Operation.run trickling {} plainBackend 1
      (.executeQuery (ascii "BEGIN"))).outcome idleSession = (result, final) →
      result.isOk = true ∧ final.connected = true ∧ final.sessionState = .transaction ∧
        final.environment = ascii "later" := by
    rintro result final ends
    rw [show result = (result, final).1 from rfl, show final = (result, final).2 from rfl, ← ends]
    decide +kernel
  rcases ends : (Operation.run trickling {} plainBackend 1
    (.executeQuery (ascii "BEGIN"))).outcome idleSession with ⟨result, final⟩
  obtain ⟨isOk, stillUp, state, unread⟩ := evaluated result final ends
  obtain ⟨exchanges, exchanged, -, received, -⟩ :=
    (operation_synchronised trickling {} plainBackend 1 _ rfl ends).2 isOk stillUp
  exact ⟨result, final, rfl, stillUp, state, unread, exchanges, exchanged, received⟩

/-! ## Runs -/

/-- Operations, each with its deadline, that return one after the other and leave the connection
up. -/
inductive Performs {σ : Type} (env : Environment σ) (settings : Settings) (backend : Backend) :
    Session σ → List (Operation × Nat) → Session σ → Prop where
  | nothing {session} : Performs env settings backend session [] session
  | next {start middle final operation deadline result rest}
      (ends : (operation.run env settings backend deadline).outcome start = (.ok result, middle))
      (stillUp : middle.connected = true)
      (remaining : Performs env settings backend middle rest final) :
      Performs env settings backend start ((operation, deadline) :: rest) final

variable {σ : Type} {env : Environment σ} {settings : Settings} {backend : Backend}
  {start final : Session σ} {operations : List (Operation × Nat)}

theorem Performs.exchanges (performs : Performs env settings backend start operations final)
    (connected : start.connected = true) :
    ∃ exchanges, List.Forall₂ (fun performed => performed.1.Exchanges settings) operations exchanges ∧
      final.toLink = exchanges.flatten.foldl Link.exchange start.toLink := by
  induction performs with
  | nothing => exact ⟨[], .nil, rfl⟩
  | next ends stillUp remaining ih =>
    obtain ⟨later, each, last⟩ := ih stillUp
    rcases (Operation.run_ensures connected).returns rfl ends with
      retired | ⟨exchanges, exchanged, same⟩
    · simp [retired.1] at stillUp
    · refine ⟨exchanges :: later, .cons exchanged each, ?_⟩
      rw [List.flatten_cons, List.foldl_append, ← same, last]

/-- However many operations are performed, the bytes sent are their requests and the bytes consumed
are the responses to them, in order: no response is read as that of another request. -/
theorem run_synchronised (connected : start.connected = true)
    (performs : Performs env settings backend start operations final) :
    ∃ exchanges, List.Forall₂ (fun performed => performed.1.Exchanges settings) operations exchanges ∧
      final.sent = start.sent ++ (exchanges.flatten.map (·.request)).flatten ∧
      final.received = start.received ++ (exchanges.flatten.map (·.frames.flatten)).flatten ∧
      final.sessionState =
        (exchanges.flatten.getLast?.map (·.state)).getD start.sessionState := by
  obtain ⟨exchanges, each, same⟩ := performs.exchanges connected
  rw [foldl_exchange] at same
  exact ⟨exchanges, each, congrArg Link.sent same, congrArg Link.received same,
    congrArg Link.sessionState same⟩

namespace Sample

/-- The responses to BEGIN, to a statement that fails in its transaction and to ROLLBACK. -/
def failedTransaction : Session Bytes where
  connected := true
  sessionState := .idle
  environment := began ++
    code 'E' :: bigEndian 4 29 ++ ascii "SERROR" ++ 0 :: ascii "C42P01" ++ 0 :: ascii "Mno table" ++
    [0, 0] ++ code 'Z' :: bigEndian 4 5 ++ [code 'E'] ++
    code 'C' :: bigEndian 4 13 ++ ascii "ROLLBACK" ++ [0] ++ code 'Z' :: bigEndian 4 5 ++ [code 'I']

def performed (query : String) (session : Session Bytes) :=
  (Operation.run trickling {} plainBackend 1 (.executeQuery (ascii query))).outcome session

end Sample

open Sample in
/-- The failed statement leaves the connection up, and its response is not that of another. -/
theorem run_synchronised_failed : ∃ final, Performs trickling {} plainBackend failedTransaction
      [(.executeQuery (ascii "BEGIN"), 1), (.executeQuery (ascii "TABLE t"), 1),
        (.executeQuery (ascii "ROLLBACK"), 1)] final ∧
      final.sessionState = .idle ∧ final.environment = [] ∧
      ∃ exchanges : List (List WireExchange), exchanges.length = 3 ∧
        final.received = (exchanges.flatten.map (·.frames.flatten)).flatten := by
  obtain ⟨first, isFirst⟩ : ∃ outcome, performed "BEGIN" failedTransaction = outcome := ⟨_, rfl⟩
  obtain ⟨second, isSecond⟩ : ∃ outcome, performed "TABLE t" first.2 = outcome := ⟨_, rfl⟩
  obtain ⟨third, isThird⟩ : ∃ outcome, performed "ROLLBACK" second.2 = outcome := ⟨_, rfl⟩
  have evaluated : (first.1.isOk = true ∧ first.2.connected = true) ∧
      (second.1.isOk = true ∧ second.2.connected = true ∧
        second.2.sessionState = .failedTransaction) ∧
      third.1.isOk = true ∧ third.2.connected = true ∧ third.2.sessionState = .idle ∧
        third.2.environment = [] := by
    rw [← isThird, ← isSecond, ← isFirst]
    decide +kernel
  obtain ⟨⟨okFirst, upFirst⟩, ⟨okSecond, upSecond, -⟩, okThird, upThird, state, unread⟩ := evaluated
  rcases first with ⟨_ | _, first⟩
  · cases okFirst
  rcases second with ⟨_ | _, second⟩
  · cases okSecond
  rcases third with ⟨_ | _, final⟩
  · cases okThird
  have performs := Performs.next isFirst upFirst (.next isSecond upSecond
    (.next isThird upThird .nothing))
  obtain ⟨exchanges, each, -, received, -⟩ := run_synchronised rfl performs
  exact ⟨final, performs, state, unread, exchanges, each.length_eq.symm, received⟩

end Odbcpp.Connection
