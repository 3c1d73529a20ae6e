import Odbcpp.Connection.Accounting
import Odbcpp.Connection.Synchronisation
import Odbcpp.Odbc.Transactions

/-!
# Reported commits

`SQLEndTran` infers the success of a COMMIT from the state the response leaves, not from its
completion tag. A server answers COMMIT with the tag COMMIT, except in a failed transaction, which
it rolls back with the tag ROLLBACK. So a reported commit is one exactly when the session was not in
a failed transaction before the call.
-/

namespace Odbcpp.Odbc

open Foundation Database Connection Postgres Program List

variable {frames : List Bytes} {profile : PgCatalogProfile} {message : Message}

/-! ## Responses as bytes -/

/-- Cut a byte stream into frames, by their length fields. -/
def splitWithin : Nat → Bytes → List Bytes
  | 0, _ => []
  | _, [] => []
  | bound + 1, bytes =>
    bytes.take (frameLength bytes + 1) :: splitWithin bound (bytes.drop (frameLength bytes + 1))

def splitFrames (bytes : Bytes) : List Bytes := splitWithin bytes.length bytes

theorem frameLength_append {frame : Bytes} (complete : CompleteFrame frame) (rest : Bytes) :
    frameLength (frame ++ rest) + 1 = frame.length := by
  have header : (frame.take 5).length = 5 := by
    simp [complete.1]
  have begins : frame.take 5 <+: frame := take_prefix 5 frame
  rw [frameLength_header header (begins.trans (prefix_append frame rest)),
    ← frameLength_header header begins]
  exact complete.2

theorem splitWithin_flatten {bound : Nat} (complete : ∀ frame ∈ frames, CompleteFrame frame)
    (enough : frames.length ≤ bound) : splitWithin bound frames.flatten = frames := by
  induction frames generalizing bound with
  | nil => cases bound <;> rfl
  | cons frame frames ih =>
    obtain ⟨here, there⟩ := forall_mem_cons.mp complete
    obtain ⟨bound, rfl⟩ : ∃ smaller, bound = smaller + 1 :=
      Nat.exists_eq_add_of_le' (by simp at enough; omega)
    have size := frameLength_append here frames.flatten
    obtain ⟨first, rest, shape⟩ := exists_cons_of_length_pos
      (show 0 < (frame ++ frames.flatten).length by simp; have := here.1; omega)
    rw [flatten_cons]
    conv_lhs => rw [shape]
    unfold splitWithin
    rw [← shape, size, take_left, drop_left, ih there (by simpa using enough)]

theorem splitFrames_flatten (complete : ∀ frame ∈ frames, CompleteFrame frame) :
    splitFrames frames.flatten = frames := by
  refine splitWithin_flatten complete ?_
  induction frames with
  | nil => simp
  | cons frame frames ih =>
    obtain ⟨here, there⟩ := forall_mem_cons.mp complete
    have := ih there
    have := here.1
    simp only [flatten_cons, length_append, length_cons]
    omega

def completionTag (frame : Bytes) : Option Bytes :=
  if frame.head? = some (code 'C') then some ((frame.drop 5).takeWhile (· != 0)) else none

/-- The frames that complete a command: CommandComplete, ErrorResponse and
EmptyQueryResponse. -/
def isCompletion (frame : Bytes) : Bool :=
  frame.head? = some (code 'C') || frame.head? = some (code 'E') || frame.head? = some (code 'I')

def completionTags (response : Bytes) : List Bytes := (splitFrames response).filterMap completionTag

/-- How the protocol answers a COMMIT in state `state`: by one completion, an error or the tag
COMMIT, or in a failed transaction the tag ROLLBACK. -/
def AnswersCommit (state : SessionState) (response : Bytes) : Prop :=
  ∃ completion, (splitFrames response).filter isCompletion = [completion] ∧
    (completion.head? = some (code 'E') ∨
      completionTag completion =
        some (if state = .failedTransaction then ascii "ROLLBACK" else ascii "COMMIT"))

/-! ## Errors of a simple response -/

def completes (message : Message) : Bool :=
  message.tag = .commandComplete || message.tag = .errorResponse

/-- The extraction of a simple response: one result for each completion, and an error
for each ErrorResponse. -/
structure ExtractsSimply (seen : List Message) (state : Extraction) : Prop where
  simple : state.extendedExecution = false
  clean : state.current.error = none
  errors : state.completed.map (·.error.isSome) = (seen.filter completes).map isErrorResponse

theorem extractsSimply_step {idle seen state next}
    (extracts : ExtractsSimply seen state) (notExtended : isExtended message.tag = false)
    (steps : Extraction.step profile idle state message = .ok next) :
    ExtractsSimply (seen ++ [message]) next := by
  have kept {next : Extraction} (incomplete : completes message = false)
      (simple : next.extendedExecution = state.extendedExecution)
      (clean : next.current.error = state.current.error)
      (same : next.completed = state.completed) : ExtractsSimply (seen ++ [message]) next := by
    refine ⟨simple.trans extracts.simple, clean.trans extracts.clean, ?_⟩
    rw [same, extracts.errors, filter_append]
    simp [incomplete]
  have completed {result : ParsedResult} (complete : completes message = true)
      (error : result.error.isSome = isErrorResponse message) :
      ExtractsSimply (seen ++ [message]) (state.complete result) := by
    refine ⟨extracts.simple, rfl, ?_⟩
    rw [filter_append, map_append, ← extracts.errors]
    simp [Extraction.complete, complete, error]
  unfold Extraction.step at steps
  cases tag : message.tag with
  | parseComplete | bindComplete | parameterDescription | noData =>
    rw [tag] at notExtended
    cases notExtended
  | rowDescription =>
    simp only [tag, guard_eq_ok] at steps
    obtain ⟨columns, -, steps⟩ := bind_eq_ok.mp steps.2
    cases steps
    exact kept (by simp [completes, tag]) rfl rfl rfl
  | dataRow =>
    simp only [tag, guard_eq_ok] at steps
    obtain ⟨row, -, steps⟩ := bind_eq_ok.mp steps.2
    simp only [guard_eq_ok] at steps
    cases steps.2
    exact kept (by simp [completes, tag]) rfl rfl rfl
  | commandComplete =>
    simp only [tag] at steps
    obtain ⟨commandTag, -, steps⟩ := bind_eq_ok.mp steps
    cases steps
    refine completed (by simp [completes, tag]) ?_
    simp [Extraction.commandResult, extracts.clean, isErrorResponse, tag]
  | emptyQueryResponse =>
    simp only [tag, guard_eq_ok, extracts.simple] at steps
    cases steps.2
    exact kept (by simp [completes, tag]) rfl rfl rfl
  | errorResponse =>
    simp only [tag] at steps
    obtain ⟨fields, -, steps⟩ := bind_eq_ok.mp steps
    cases steps
    refine completed (by simp [completes, tag]) ?_
    simp [Extraction.errorResult, isErrorResponse, tag]
  | _ =>
    simp only [tag] at steps
    cases steps
    exact kept (by simp [completes, tag]) rfl rfl rfl

theorem extractQueryResult_error {messages parsed}
    (simple : ∀ other ∈ messages, isExtended other.tag = false)
    (only : messages.filter completes = [message]) (isError : isErrorResponse message = true)
    (extracted : extractQueryResult profile messages = .ok parsed) :
    parsed.error.isSome = true := by
  obtain ⟨state, folds, extracted⟩ := bind_eq_ok.mp extracted
  have extracts : (∀ other ∈ messages, isExtended other.tag = false) →
      ExtractsSimply messages state := by
    refine foldlM_invariant (fun seen state => (∀ other ∈ seen, isExtended other.tag = false) →
      ExtractsSimply seen state) ?_ (fun _ => ⟨rfl, rfl, rfl⟩) folds
    intro seen state item next holds steps notExtended
    exact extractsSimply_step (holds fun other member => notExtended other (by simp [member]))
      (notExtended item (by simp)) steps
  have errors := (extracts simple).errors
  rw [only] at errors
  rcases completed : state.completed with _ | ⟨primary, rest⟩
  · simp [completed] at errors
  rw [completed] at errors extracted
  cases extracted
  simp only [map_cons, List.cons.injEq, map_nil] at errors
  exact errors.1.trans isError

theorem published_not_error {settings expected value completion}
    (published : Published settings .simpleExecution expected frames value)
    (only : frames.filter isCompletion = [completion]) : completion.head? ≠ some (code 'E') := by
  intro isError
  obtain ⟨progress, retained, parsed, extracted, mirrors, errorless⟩ := published
  have sameFilter : List.Forall₂ (fun frame message => parseMessage frame = .ok message)
      (frames.filter isCompletion) (progress.messages.filter fun message =>
        completes message || message.tag = .emptyQueryResponse) := by
    refine rel_filter ?_ retained.parsed
    intro frame message parses
    have letter {own : UInt8} {tag : Tag} (entry : (own, tag) ∈ tagLetters) :
        message.tag = tag ↔ frame.head? = some own := parseMessage_tag_iff parses entry
    simp [isCompletion, completes,
      letter (by decide : (code 'C', Tag.commandComplete) ∈ tagLetters),
      letter (by decide : (code 'E', Tag.errorResponse) ∈ tagLetters),
      letter (by decide : (code 'I', Tag.emptyQueryResponse) ∈ tagLetters)]
  rw [only] at sameFilter
  obtain ⟨message, rest, parses, nothing, isOnly⟩ := forall₂_cons_left_iff.mp sameFilter
  rw [forall₂_nil_left_iff] at nothing
  subst nothing
  have errorTag : message.tag = .errorResponse :=
    (parseMessage_tag_iff parses
      (by decide : (code 'E', Tag.errorResponse) ∈ tagLetters)).mpr isError
  have onlyError : progress.messages.filter completes = [message] := by
    have narrowed : (progress.messages.filter fun message =>
        completes message || message.tag = .emptyQueryResponse).filter completes =
        progress.messages.filter completes := by
      rw [filter_filter]
      congr 1
      funext other
      cases completes other <;> simp
    rw [← narrowed, isOnly]
    simp [completes, errorTag]
  have failed := extractQueryResult_error retained.simple onlyError
    (by simp [isErrorResponse, errorTag]) extracted
  have primary : value.error = parsed.error := by
    cases mirrors with
    | cons first _ => exact first.error
  rw [← primary, errorless] at failed
  cases failed

/-! ## Over the wire -/

/-- The lease is a PostgreSQL connection of the model. -/
structure OverWire {σ : Type} (lease : BackendLease (Session σ)) (env : Environment σ)
    (settings : Settings) (backend : Backend) : Prop where
  provider : lease.provider = .postgres
  executeQuery : lease.executeQuery = Connection.executeQuery env settings backend

section

variable {σ : Type} {lease : BackendLease (Session σ)} {env : Environment σ} {settings : Settings}
  {backend : Backend} {deadline : Nat}

/-- A transaction command that succeeds was answered by a whole response, which left the
session in the expected state. -/
theorem transaction_answers (overWire : OverWire lease env settings backend) {base action} :
    Ensures (· = base) (lease.transaction action deadline)
      (fun result link => result.hasError = false →
        link.sessionState = action.postgresExpected.state ∧
          ∃ raw, SimplyAnswered settings action.postgresCommand [] base raw link) Caught := by
  unfold BackendLease.transaction
  rw [overWire.provider]
  dsimp only
  unfold BackendLease.postgresTransaction
  rw [overWire.executeQuery]
  refine simpleQuery_answers.bind fun result => ?_
  cases result with
  | error failure => exact .pure _ fun _ _ failed => by cases failed
  | value value snapshot =>
    dsimp only
    split
    · exact .after fun _ => .pure _ fun _ _ failed => by cases failed
    rename_i expected
    rw [not_not] at expected
    refine .pure _ fun link answers _ => ?_
    obtain ⟨state, answered⟩ := answers value snapshot rfl
    exact ⟨by rw [← state, expected], answered⟩

theorem command_ensures {α : Type} {base : Link} {program : Io σ α} {normal : α → Link → Prop}
    (ensures : Ensures (· = base) program normal Caught) :
    Triple (fun driver : Driver (Session σ) => driver.backend.toLink = base)
      (command program) (fun result driver => normal result driver.backend.toLink)
      (fun _ _ => True) := by
  intro driver same
  have reached := ensures driver.backend same
  unfold command onBackend
  simp only [Program.outcome_bind, Program.outcome_modify, Program.outcome_onPart]
  rcases ends : program.outcome driver.backend with ⟨result, final⟩
  rw [ends] at reached
  cases result with
  | ok value => exact reached
  | error failure => trivial

theorem endTransaction_answers (overWire : OverWire lease env settings backend)
    {start pending completion}
    (manual : start.handle.autocommit = false) (active : start.handle.transactionActive = true) :
    Triple (· = start) (endTransaction lease pending completion deadline)
      (fun reply final => reply.ret = .success → ∃ action, completion.action = some action ∧
        final.backend.sessionState = action.postgresExpected.state ∧
        ∃ raw, SimplyAnswered settings action.postgresCommand [] start.backend.toLink raw
          final.backend.toLink) (fun _ _ => True) := by
  refine Triple.read.bind fun read => ?_
  by_cases same : read = start
  case neg => exact fun driver holds => absurd (holds.1.trans holds.2) same
  subst same
  cases decision : endTransactionAction read.handle pending completion with
  | error reply =>
    refine .pure _ fun _ _ success => ?_
    exfalso
    unfold endTransactionAction at decision
    split at decision
    · cases decision
      cases success
    split at decision
    · cases decision
      cases success
    split at decision
    · cases decision
      cases success
    split at decision
    · cases decision
      cases success
    · simp [manual, active] at decision
  | ok action =>
    have chosen : completion.action = some action := by
      unfold endTransactionAction at decision
      repeat (split at decision; · cases decision)
      cases decision
      assumption
    refine Triple.bind ((command_ensures (transaction_answers overWire)).assuming
      fun _ holds => by rw [holds.2]) fun result => ?_
    unfold settleEnd
    cases result with
    | error failure =>
      exact (Triple.update _ fun _ _ => trivial :
        Triple _ _ (fun _ _ => True) _).bind fun _ =>
        .pure _ fun _ _ success => by cases success
    | value value snapshot =>
      refine (Triple.update _ fun _ answers => answers rfl : Triple _ _
        (fun _ final => final.backend.sessionState = action.postgresExpected.state ∧
          ∃ raw, SimplyAnswered settings action.postgresCommand [] read.backend.toLink raw
            final.backend.toLink) _).bind fun _ => ?_
      exact .pure _ fun _ answered _ => ⟨action, chosen, answered⟩

end

/-! ## Histories -/

section

variable {σ : Type} {lease : BackendLease (Session σ)} {env : Environment σ} {settings : Settings}
  {backend : Backend}

/-- The bytes received in a call. -/
def ConnectionEvent.response (event : ConnectionEvent (Session σ)) : Bytes :=
  event.after.backend.received.drop event.before.backend.received.length

/-- The call sent COMMIT and nothing else, and its response is one whole response, which left the
session in the state of its ReadyForQuery. -/
def ConnectionEvent.ExchangesCommit (event : ConnectionEvent (Session σ)) (settings : Settings) :
    Prop :=
  ∃ exchanged : WireExchange, SimpleRequest settings (ascii "COMMIT") exchanged.request ∧
    Drained exchanged.frames exchanged.state ∧ event.response = exchanged.frames.flatten ∧
    event.after.backend.toLink = event.before.backend.toLink.exchange exchanged

theorem eq_invoke_of_mem {lease : BackendLease (Session σ)} {start : Driver (Session σ)}
    {calls : List ConnectionCall} {event : ConnectionEvent (Session σ)}
    (member : event ∈ connectionEvents lease start calls) :
    event = event.call.invoke lease event.before := by
  induction calls generalizing start with
  | nil => cases member
  | cons call calls ih =>
    rcases mem_cons.mp member with rfl | later
    · rfl
    · exact ih later

/-- A successful COMMIT of an owned transaction was sent and consumed one whole response,
which is not a mere error. -/
theorem commit_consumes (overWire : OverWire lease env settings backend)
    {driver pending deadline reply}
    (manual : driver.handle.autocommit = false) (active : driver.handle.transactionActive = true)
    (replied : ((ConnectionCall.endTran pending .commit deadline).invoke lease driver).reply =
      some reply) (succeeds : reply.ret = .success) :
    let event := (ConnectionCall.endTran pending .commit deadline).invoke lease driver
    event.ExchangesCommit settings ∧ ∃ frames raw, (∀ frame ∈ frames, CompleteFrame frame) ∧
      event.response = frames.flatten ∧ Published settings .simpleExecution [] frames raw := by
  have performed : Triple (· = driver)
      ((ConnectionCall.endTran pending .commit deadline).perform lease)
      (fun reply final => ∀ answer, reply = some answer → answer.ret = .success →
        final.backend.sessionState = .idle ∧
        ∃ raw, SimplyAnswered settings (ascii "COMMIT") [] driver.backend.toLink raw
          final.backend.toLink) (fun _ _ => True) := by
    refine (endTransaction_answers overWire manual active).bind fun reply => .pure _ ?_
    intro final answers answer isReply success
    obtain rfl := Option.some.inj isReply
    obtain ⟨action, chosen, answered⟩ := answers success
    cases chosen
    exact answered
  have reached := performed driver rfl
  unfold ConnectionEvent.ExchangesCommit ConnectionEvent.response
  unfold ConnectionCall.invoke at replied ⊢
  rcases ends : ((ConnectionCall.endTran pending .commit deadline).perform lease).outcome driver
    with ⟨result, after⟩
  rw [ends] at reached replied
  cases result with
  | error thrown =>
    cases replied
    cases thrown <;> cases succeeds
  | ok answer =>
    obtain ⟨idle, raw, retired | ⟨exchanged, sent, whole, same, published⟩⟩ :=
      reached reply replied succeeds
    · cases idle.symm.trans retired.2
    have received : after.backend.received =
        driver.backend.received ++ exchanged.frames.flatten := congrArg Link.received same
    have response : after.backend.received.drop driver.backend.received.length =
        exchanged.frames.flatten := by simp [received]
    exact ⟨⟨exchanged, sent, whole, response, same⟩, exchanged.frames, raw, whole.complete,
      response, published⟩

theorem mem_completionTags_iff {frames : List Bytes} {completion tag : Bytes}
    (only : frames.filter isCompletion = [completion]) :
    tag ∈ frames.filterMap completionTag ↔ completionTag completion = some tag := by
  have among (frame : Bytes) : frame ∈ frames ∧ isCompletion frame = true ↔ frame = completion := by
    rw [← mem_filter, only, mem_singleton]
  rw [mem_filterMap]
  constructor
  · rintro ⟨frame, member, tagged⟩
    have complete : isCompletion frame = true := by
      unfold completionTag at tagged
      split at tagged
      · rename_i letter
        simp [isCompletion, letter]
      · cases tagged
    rw [← (among frame).mp ⟨member, complete⟩]
    exact tagged
  · intro tagged
    exact ⟨completion, ((among completion).mpr rfl).1, tagged⟩

/-- A reported COMMIT of an owned transaction was sent and has a whole response. Where the server
answers as the protocol says, the response has the tag COMMIT exactly if the session was not in a
failed transaction before the call. -/
theorem commit_reported_iff (overWire : OverWire lease env settings backend)
    (start : Driver (Session σ)) (calls : List ConnectionCall)
    {event : ConnectionEvent (Session σ)} (member : event ∈ connectionEvents lease start calls)
    {pending : Pending} {deadline : Nat} {reply : CallReply}
    (isCommit : event.call = .endTran pending .commit deadline)
    (manual : event.before.handle.autocommit = false)
    (active : event.before.handle.transactionActive = true) (replied : event.reply = some reply)
    (succeeds : reply.ret = .success)
    (answers : event.ExchangesCommit settings →
      AnswersCommit event.before.backend.sessionState event.response) :
    event.ExchangesCommit settings ∧ (ascii "COMMIT" ∈ completionTags event.response ↔
      event.before.backend.sessionState ≠ .failedTransaction) := by
  have made := eq_invoke_of_mem member
  rw [isCommit] at made
  obtain ⟨exchanges, frames, raw, complete, consumed, published⟩ :=
    commit_consumes overWire manual active (made ▸ replied) succeeds
  rw [← made] at exchanges consumed
  obtain ⟨completion, only, answer⟩ := answers exchanges
  refine ⟨exchanges, ?_⟩
  unfold completionTags
  rw [consumed, splitFrames_flatten complete] at only ⊢
  rw [mem_completionTags_iff only]
  have tagged := answer.resolve_left (published_not_error published only)
  rw [tagged, Option.some.injEq]
  split
  · rename_i failed
    exact iff_of_false (by decide) (fun notFailed => notFailed failed)
  · rename_i notFailed
    exact iff_of_true rfl notFailed

end

namespace Sample

/-- A lease over the wire that only direct statements use. -/
def wireLease : BackendLease (Session Bytes) where
  provider := .postgres
  normalizeErrorSqlstate _ := none
  sessionState session := session.sessionState
  executeQuery := Connection.executeQuery Connection.Sample.trickling {} Connection.Sample.plainBackend
  executePrepared _ _ _ := pure (.fail .unsupportedFeature "")
  prepareCommandBatch _ _ := pure (.fail .unsupportedFeature "")
  executeCommandBatch _ _ _ := pure (.fail .unsupportedFeature "")
  startResultSequence := pure (.fail .unsupportedFeature "")
  advanceResultSequence := pure (.fail .unsupportedFeature "")
  disconnect := Connection.disconnect Connection.Sample.trickling

theorem wireLease_overWire : OverWire wireLease Connection.Sample.trickling {}
    Connection.Sample.plainBackend := ⟨rfl, rfl⟩

def frame (letter : Char) (payload : Bytes) : Bytes :=
  code letter :: bigEndian 4 (payload.length + 4) ++ payload

def completed (tag : String) (state : Char) : Bytes :=
  frame 'C' (ascii tag ++ [0]) ++ frame 'Z' [code state]

/-- The response to a failed statement inside a transaction. -/
def failed : Bytes :=
  frame 'E' (ascii "SERROR" ++ 0 :: ascii "C42P01" ++ 0 :: ascii "Mno such table" ++ [0, 0]) ++
    frame 'Z' [code 'E']

/-- A connection in manual mode whose server will send `stream`. -/
def wired (stream : Bytes) : Driver (Session Bytes) where
  handle := { autocommit := false }
  backend := { connected := true, sessionState := .idle, environment := stream }

def updating : ConnectionCall := .executeDirect {} (ascii "UPDATE t SET x = 1") 1

def committing : ConnectionCall := .endTran {} .commit 1

def goodStream : Bytes := completed "BEGIN" 'T' ++ completed "UPDATE 1" 'T' ++ completed "COMMIT" 'I'

def goodCommit : ConnectionEvent (Session Bytes) :=
  committing.invoke wireLease (updating.invoke wireLease (wired goodStream)).after

def badStream : Bytes := completed "BEGIN" 'T' ++ failed ++ completed "ROLLBACK" 'I'

def badCommit : ConnectionEvent (Session Bytes) :=
  committing.invoke wireLease (updating.invoke wireLease (wired badStream)).after

end Sample

open Sample in
theorem commit_reported_iff_good : goodCommit.reply = some .success ∧
      goodCommit.ExchangesCommit {} ∧ (ascii "COMMIT" ∈ completionTags goodCommit.response ↔
        goodCommit.before.backend.sessionState ≠ .failedTransaction) := by
  have replied : goodCommit.reply = some .success := by decide +kernel
  have answers : AnswersCommit goodCommit.before.backend.sessionState goodCommit.response :=
    ⟨frame 'C' (ascii "COMMIT" ++ [0]), by decide +kernel, .inr (by decide +kernel)⟩
  exact ⟨replied, @commit_reported_iff Bytes wireLease _ _ _ wireLease_overWire (wired goodStream)
    [updating, committing] goodCommit (List.mem_cons_of_mem _ List.mem_cons_self) {} 1 .success rfl
    (by decide +kernel) (by decide +kernel) replied rfl fun _ => answers⟩

open Sample in
/-- A statement fails, the server answers the COMMIT with ROLLBACK, and `SQLEndTran`
reports success. -/
theorem rollback_reported_as_commit :
    OverWire wireLease Connection.Sample.trickling {} Connection.Sample.plainBackend ∧
      badCommit ∈ connectionEvents wireLease (wired badStream) [updating, committing] ∧
      badCommit.call = .endTran {} .commit 1 ∧ badCommit.before.handle.autocommit = false ∧
      badCommit.before.handle.transactionActive = true ∧ badCommit.reply = some .success ∧
      completionTags badCommit.response = [ascii "ROLLBACK"] :=
  ⟨wireLease_overWire, List.mem_cons_of_mem _ List.mem_cons_self, rfl, by decide +kernel,
    by decide +kernel, by decide +kernel, by decide +kernel⟩

end Odbcpp.Odbc
