import Odbcpp.Connection.Metering
import Odbcpp.Connection.Synchronisation
import Odbcpp.Connection.Totals

/-!
# Responses are bounded before they are believed

Every call of `recv` that one response makes asks for bytes the budget of the response still has,
with a buffer that is never more than 8192 bytes longer than what has arrived. A call that brings
nothing, fails or brings too much is the last one. With the totals of the published results this
bounds what a server can make the client hold.
-/

namespace Odbcpp.Connection

open Foundation Database Postgres Program List

variable {kind : ResponseKind} {settings : Settings} {expected : Bytes}

/-! ## The place of a call -/

/-- The response so far is `frames` and `part` of a further frame, and a call may be made with
`buffer`, which holds that part and the space for more. -/
structure Due (limits : ResponseLimits) (frames : List Bytes) (part buffer : Bytes) : Prop where
  complete : ∀ frame ∈ frames, CompleteFrame frame
  messages : frames.length < limits.maxMessages
  arrived : part <+: buffer
  progress : part.length < buffer.length
  space : buffer.length ≤ part.length + 8192
  header : part.length < 5 →
    buffer.length ≤ 5 ∧ frames.flatten.length + 5 ≤ limits.maxWireBytes
  body : 5 ≤ part.length → buffer.length ≤ frameLength part + 1 ∧
    frames.flatten.length + (frameLength part + 1) ≤ limits.maxWireBytes

/-- The call brought some of the bytes it asked for and no others. -/
def RecvCall.Productive (call : RecvCall) : Prop :=
  call.bytes ≠ [] ∧ call.bytes.length ≤ call.requested

/-- The calls of one response: each one is made where it is due, after productive ones. -/
inductive Budgeted (limits : ResponseLimits) : List RecvCall → Prop where
  | none : Budgeted limits []
  | call {earlier call frames part}
      (budgeted : Budgeted limits earlier) (productive : ∀ other ∈ earlier, other.Productive)
      (position : stream earlier = frames.flatten ++ part)
      (due : Due limits frames part call.buffer) (offset : call.offset = part.length) :
      Budgeted limits (earlier ++ [call])

section

variable {limits : ResponseLimits} {frames : List Bytes} {part buffer : Bytes}
  {own : List RecvCall}

theorem Due.within (due : Due limits frames part buffer) :
    frames.flatten.length + buffer.length ≤ limits.maxWireBytes := by
  by_cases inHeader : part.length < 5
  · have header := due.header inHeader
    omega
  · have body := due.body (by omega)
    omega

theorem length_le_stream (productive : ∀ call ∈ own, call.Productive) :
    own.length ≤ (stream own).length := by
  induction own with
  | nil => exact Nat.zero_le _
  | cons call rest ih =>
    have first := length_pos_of_ne_nil (productive call (by simp)).1
    have others := ih fun other member => productive other (by simp [member])
    simp [stream] at others ⊢
    omega

theorem Budgeted.length_le (budgeted : Budgeted limits own) : own.length ≤ limits.maxWireBytes := by
  cases budgeted with
  | none => exact Nat.zero_le _
  | call _ productive position due _ =>
    have within := due.within
    have some := due.progress
    have fewer := length_le_stream productive
    rw [position] at fewer
    simp only [length_append, length_singleton] at fewer ⊢
    omega

theorem Budgeted.stream_le (budgeted : Budgeted limits own)
    (honest : ∀ call ∈ own, call.bytes.length ≤ call.requested) :
    (stream own).length ≤ limits.maxWireBytes := by
  cases budgeted with
  | none => exact Nat.zero_le _
  | @call earlier call frames part _ productive position due offset =>
    have within := due.within
    have some := due.progress
    have last := honest call (by simp)
    rw [RecvCall.requested, offset] at last
    rw [stream_append, position, stream_singleton]
    simp only [length_append]
    omega

end

/-! ## The reading loops -/

section

variable {σ : Type} {env : Environment σ} {calls : σ → List RecvCall} {limits : ResponseLimits}
  {log : List RecvCall} {seen : List Bytes} {deadline : Nat}

variable {enforceDeadline : Bool}

def Spent (calls : σ → List RecvCall) (limits : ResponseLimits) (log : List RecvCall)
    (session : Session σ) : Prop :=
  ∃ own, calls session.environment = log ++ own ∧ Budgeted limits own

/-- So far they were all productive and have brought `seen` and `part`. -/
def Reading (calls : σ → List RecvCall) (limits : ResponseLimits) (log : List RecvCall)
    (seen : List Bytes) (part : Bytes) (session : Session σ) : Prop :=
  ∃ own, calls session.environment = log ++ own ∧ Budgeted limits own ∧
    (∀ call ∈ own, call.Productive) ∧ stream own = seen.flatten ++ part

theorem Reading.spent {part session}
    (reading : Reading calls limits log seen part session) : Spent calls limits log session := by
  obtain ⟨own, logged, budgeted, -⟩ := reading
  exact ⟨own, logged, budgeted⟩

/-- How a reading loop ends: with more of the response, or for good. -/
def Received (calls : σ → List RecvCall) (limits : ResponseLimits) (log : List RecvCall)
    (seen : List Bytes) (gains : Bytes → Prop) (result : Except Failure Bytes)
    (session : Session σ) : Prop :=
  match result with
  | .ok whole => Reading calls limits log seen whole session ∧ gains whole
  | .error _ => Spent calls limits log session

theorem Spends.reading {α : Type} {program : Io σ α} {part : Bytes}
    (silent : Spends calls .silent program) :
    Triple (Reading calls limits log seen part) program
      (fun _ => Reading calls limits log seen part) (fun _ => Spent calls limits log) :=
  (silent.keeps fun logged => ∃ own, logged = log ++ own ∧ Budgeted limits own ∧
    (∀ call ∈ own, call.Productive) ∧ stream own = seen.flatten ++ part).consequence
    (fun _ => id) (fun _ _ => id) (fun _ _ reading => Reading.spent reading)

theorem Spends.spent {α : Type} {program : Io σ α} (silent : Spends calls .silent program) :
    Triple (Spent calls limits log) program (fun _ => Spent calls limits log)
      (fun _ => Spent calls limits log) :=
  silent.keeps fun logged => ∃ own, logged = log ++ own ∧ Budgeted limits own

variable (metered : Metered env calls)
include metered

theorem retireWith_spent {before : Session σ → Prop} {gains : Bytes → Prop} (failure : Failure)
    (spent : ∀ session, before session → Spent calls limits log session) :
    Triple before (retireWith env failure : Io σ (Except Failure Bytes))
      (Received calls limits log seen gains) (fun _ => Spent calls limits log) := by
  exact ((markTransportFailed_spends metered).spent.assuming spent).bind fun _ =>
    .pure _ fun _ => id

/-- What a call brings, if it is productive, is a further part of the response. -/
theorem transportRecv_reading {part buffer : Bytes} (due : Due limits seen part buffer) :
    Triple (Reading calls limits log seen part) (transportRecv env buffer part.length)
      (fun result session => Spent calls limits log session ∧
        ∀ stored count eof, result = .ok (stored, count, eof) → ∃ bytes,
          stored = store buffer part.length bytes ∧ count = bytes.length ∧
          (bytes ≠ [] → part.length + bytes.length ≤ buffer.length →
            Reading calls limits log seen (part ++ bytes) session))
      (fun _ => Spent calls limits log) := by
  have asked : Triple (Reading calls limits log seen part) (ask (env.recv buffer part.length))
      (fun reply session => Spent calls limits log session ∧
        (reply.bytes ≠ [] → part.length + reply.bytes.length ≤ buffer.length →
          Reading calls limits log seen (part ++ reply.bytes) session))
      (fun _ => Spent calls limits log) := by
    rintro start ⟨own, logged, budgeted, productive, position⟩
    have called := metered.recv buffer part.length start.environment
    rw [logged, append_assoc] at called
    have more : Budgeted limits
      (own ++ [⟨buffer, part.length, (env.recv buffer part.length start.environment).1.bytes⟩]) :=
      .call budgeted productive position due rfl
    refine ⟨⟨_, called, more⟩, fun some fits => ⟨_, called, more, ?_, ?_⟩⟩
    · exact forall_mem_concat productive ⟨some, Nat.le_sub_of_add_le' fits⟩
    · rw [stream_append, position, stream_singleton, append_assoc]
  refine asked.bind fun reply => ?_
  cases reply with
  | received bytes eof =>
    intro start holds
    refine ⟨holds.1, fun stored count flag isOk => ?_⟩
    cases isOk
    exact ⟨bytes, rfl, rfl, holds.2⟩
  | failed failure lost => exact fun start holds => ⟨holds.1, fun _ _ _ isOk => by cases isOk⟩
  | threw fault lost => exact fun start holds => holds.1

/-- Exactly the missing bytes are read, by calls that are due while the buffer grows
from `message` to its full length. -/
theorem receiveWithin_reading {grows bound missing message}
    (due : ∀ part buffer, message <+: part → part <+: buffer →
      buffer.length ≤ message.length + missing → part.length < buffer.length →
      buffer.length ≤ part.length + 8192 → Due limits seen part buffer) :
    Triple (Reading calls limits log seen message)
      (receiveWithin env deadline enforceDeadline grows bound message missing)
      (Received calls limits log seen fun whole =>
        whole.length = message.length + missing ∧ message <+: whole)
      (fun _ => Spent calls limits log) := by
  induction bound generalizing message missing with
  | zero =>
    cases missing with
    | zero => exact .pure _ fun _ reading => ⟨reading, rfl, prefix_refl _⟩
    | succ missing => exact .pure _ fun _ reading => reading.spent
  | succ bound ih =>
    rcases missing with _ | missing
    · exact .pure _ fun _ reading => ⟨reading, rfl, prefix_refl _⟩
    refine (deadlineExpired_spends metered).reading.bind fun expired => ?_
    split
    · exact retireWith_spent metered _ fun _ reading => reading.spent
    refine (Spends.onlyIf (allocate_spends metered)).reading.bind fun _ => ?_
    refine (transportRecv_reading metered (due message _ (prefix_refl _)
      (prefix_resize (Nat.le_add_right _ _)) (by rw [length_resize]; omega)
      (by rw [length_resize]; omega) (by rw [length_resize]; omega))).bind fun reply => ?_
    match reply with
    | .error failure => exact retireWith_spent metered _ fun _ holds => holds.1
    | .ok (stored, count, eof) =>
      dsimp only
      split
      · exact retireWith_spent metered _ fun _ holds => holds.1
      split
      · exact retireWith_spent metered _ fun _ holds => holds.1
      split
      · exact retireWith_spent metered _ fun _ holds => holds.1
      rename_i fits moved
      rintro session ⟨-, brought⟩
      obtain ⟨bytes, rfl, rfl, reading⟩ := brought stored count eof rfl
      rw [resize_store]
      have length : (message ++ bytes).length + (missing + 1 - bytes.length) =
          message.length + (missing + 1) := by
        rw [length_append]
        omega
      have further : Reading calls limits log seen (message ++ bytes) session :=
        reading (length_pos_iff.mp (Nat.pos_of_ne_zero moved)) (by rw [length_resize]; omega)
      refine (@ih (missing + 1 - bytes.length) (message ++ bytes) ?_).concluding ?_ session further
      · intro part buffer begins
        rw [length]
        exact due part buffer ((prefix_append _ _).trans begins)
      intro result session received
      cases result with
      | error failure => exact received
      | ok whole =>
        obtain ⟨reading, size, begins⟩ := received
        exact ⟨reading, size.trans length, (prefix_append _ _).trans begins⟩

/-- A frame is read within the bytes that remain: its header when there are five, its
body when the announced length fits. -/
theorem readMessageResult_reading {remainingBytes : Nat}
    (complete : ∀ frame ∈ seen, CompleteFrame frame) (messages : seen.length < limits.maxMessages)
    (budget : seen.flatten.length + remainingBytes ≤ limits.maxWireBytes) :
    Triple (Reading calls limits log seen [])
      (readMessageResult env settings deadline remainingBytes enforceDeadline)
      (Received calls limits log seen fun frame =>
        CompleteFrame frame ∧ frame.length ≤ remainingBytes)
      (fun _ => Spent calls limits log) := by
  unfold readMessageResult
  split
  · exact retireWith_spent metered _ fun _ reading => reading.spent
  rename_i room
  refine (allocate_spends metered).reading.bind fun _ => ?_
  have headerDue (part buffer : Bytes) (_ : [] <+: part) (arrived : part <+: buffer)
      (fits : buffer.length ≤ ([] : Bytes).length + 5) (progress : part.length < buffer.length)
      (space : buffer.length ≤ part.length + 8192) : Due limits seen part buffer :=
    { complete, messages, arrived, progress, space
      header := fun _ => ⟨by simpa using fits, by omega⟩
      body := fun long => absurd fits (by simp; omega) }
  refine (receiveWithin_reading metered headerDue).bind fun result => ?_
  rcases result with failure | header
  · exact .pure _ fun _ => id
  dsimp only
  split
  · exact retireWith_spent metered _ fun _ received => received.1.spent
  rename_i lengthOk
  split
  · refine ((disconnect_spends metered).spent.assuming ?_).bind fun _ =>
      .pure _ fun _ => id
    exact fun _ received => received.1.spent
  split
  · exact retireWith_spent metered _ fun _ received => received.1.spent
  rename_i announced
  split
  · exact retireWith_spent metered _ fun _ received => received.1.spent
  refine Triple.knowing (fun _ received => received.2.1) fun isHeader => ?_
  have headerLength : header.length = 5 := isHeader
  have bodyDue (part buffer : Bytes) (begins : header <+: part) (arrived : part <+: buffer)
      (fits : buffer.length ≤ header.length + (frameLength header - 4))
      (progress : part.length < buffer.length)
      (space : buffer.length ≤ part.length + 8192) : Due limits seen part buffer :=
    have same := frameLength_header headerLength begins
    have long := begins.length_le
    { complete, messages, arrived, progress, space
      header := fun short => absurd short (by omega)
      body := fun _ => ⟨by omega, by omega⟩ }
  refine (((allocate_spends metered).reading).assuming fun _ received => received.1).bind
    fun _ => ?_
  refine (receiveWithin_reading metered bodyDue).concluding fun result session received => ?_
  cases result with
  | error failure => exact received
  | ok whole =>
    obtain ⟨reading, size, begins⟩ := received
    have same := frameLength_header headerLength begins
    exact ⟨reading, ⟨by omega, by omega⟩, by omega⟩

theorem acceptFrame_reading {expected frame progress} :
    Triple (Reading calls limits log seen [])
      (retireOnThrow env .finished (acceptFrame env settings kind expected progress frame))
      (fun outcome session => Reading calls limits log seen [] session ∧
        outcome.Keeps (progress.Retains settings.resultLimits kind expected frame))
      (fun _ => Spent calls limits log) := by
  have retains : Ensures (fun _ => True)
      (retireOnThrow env .finished (acceptFrame env settings kind expected progress frame))
      (fun outcome _ => outcome.Keeps (progress.Retains settings.resultLimits kind expected frame))
      Caught :=
    retireOnThrow_ensures acceptFrame_retains fun _ _ failed _ => failed
  exact ((retireOnThrow_spends metered (acceptFrame_spends metered)).reading.and retains).consequence
    (fun _ reading => ⟨reading, trivial⟩) (fun _ _ => id) (fun _ _ holds => holds.1)

/-- However the reading loop ends, its calls were within the budget. -/
theorem readFrames_spent {expected remaining progress}
    (complete : ∀ frame ∈ seen, CompleteFrame frame)
    (messages : seen.length + remaining = settings.responseLimits.maxMessages)
    (wire : progress.wireBytes = seen.flatten.length)
    (budget : seen.flatten.length ≤ settings.responseLimits.maxWireBytes) :
    Triple (Reading calls settings.responseLimits log seen [])
      (readFrames env settings deadline kind expected remaining progress)
      (fun _ => Spent calls settings.responseLimits log)
      (fun _ => Spent calls settings.responseLimits log) := by
  induction remaining generalizing progress seen with
  | zero =>
    refine ((markTransportFailed_spends metered).spent.assuming ?_).bind fun _ =>
      .pure _ fun _ => id
    exact fun _ reading => reading.spent
  | succ remaining ih =>
    have unwrapped : seen.flatten.length +
        wrappingSub 64 settings.responseLimits.maxWireBytes progress.wireBytes ≤
          settings.responseLimits.maxWireBytes := by
      rw [wire, wrappingSub_of_le budget]
      omega
    refine (readMessageResult_reading metered complete (by omega) unwrapped).bind fun result => ?_
    rcases result with failure | frame
    · exact .pure _ fun _ => id
    refine Triple.knowing (fun _ received => received.2) fun read => ?_
    have extended : (seen ++ [frame]).flatten = seen.flatten ++ frame := by simp
    refine (Triple.assuming (acceptFrame_reading metered : Triple
      (Reading calls settings.responseLimits log (seen ++ [frame]) []) _ _ _) ?_).bind
      fun outcome => ?_
    · rintro session ⟨⟨own, logged, budgeted, productive, position⟩, -⟩
      exact ⟨own, logged, budgeted, productive, by rw [position, extended, append_nil]⟩
    cases outcome with
    | finished result | drained progress => exact .pure _ fun _ holds => holds.1.spent
    | next after =>
      refine Triple.knowing (fun _ holds => holds.2) fun retains => ?_
      obtain ⟨-, -, sameWire, -⟩ := Progress.Retains.tally retains
      refine (ih ?_ ?_ ?_ ?_).assuming fun _ holds => holds.1
      · exact forall_mem_concat complete read.1
      · simp
        omega
      · rw [sameWire, extended, length_append, wire]
      rw [extended, length_append]
      have fits := read.2
      omega

end

/-! ## The bounds -/

/-- The bound of the receiving loop never cuts it short: a longer one changes nothing. -/
theorem receiveWithin_bound {σ : Type} (env : Environment σ) (deadline : Nat)
    (enforceDeadline grows : Bool) {bound missing : Nat} (message : Bytes)
    (enough : missing ≤ bound) :
    receiveWithin env deadline enforceDeadline grows bound message missing =
      receiveWithin env deadline enforceDeadline grows missing message missing := by
  -- Both sides shrink together, so the statement is about any two bounds that suffice.
  suffices general : ∀ (bound other missing : Nat) (message : Bytes), missing ≤ bound →
      missing ≤ other → receiveWithin env deadline enforceDeadline grows bound message missing =
        receiveWithin env deadline enforceDeadline grows other message missing from
    general bound missing missing message enough le_rfl
  intro bound
  induction bound with
  | zero =>
    intro other missing message enough _
    obtain rfl : missing = 0 := by omega
    cases other <;> rfl
  | succ bound ih =>
    intro other missing message enough enoughToo
    rcases missing with _ | missing
    · cases other <;> rfl
    obtain ⟨other, rfl⟩ := Nat.exists_eq_succ_of_ne_zero (by omega : other ≠ 0)
    unfold receiveWithin
    refine bind_congr fun expired => ?_
    split
    · rfl
    refine bind_congr fun _ => bind_congr fun reply => ?_
    match reply with
    | .error failure => rfl
    | .ok (stored, count, eof) =>
      dsimp only
      split
      · rfl
      split
      · rfl
      split
      · rfl
      exact ih other _ _ (by omega) (by omega)

/-- No budget has been overdrawn, at the head of the loop or among the column names of the next
description. -/
structure Progress.Unwrapped (settings : Settings) (progress : Progress) : Prop where
  wire : progress.wireBytes ≤ settings.responseLimits.maxWireBytes
  entries : progress.metadataEntries ≤ settings.resultLimits.maxMetadataEntries
  cells : progress.cells ≤ settings.resultLimits.maxCells
  names : ∀ payload walked, Relation.ReflTransGen
    (fun column next : Nat × Bytes =>
      countColumnName settings.resultLimits column.1 column.2 = .ok (some next))
    (progress.metadataNameBytes, payload) walked →
    walked.1 ≤ settings.resultLimits.maxMetadataNameBytes

theorem Retained.unwrapped {frames progress}
    (retained : Retained settings.resultLimits kind expected frames progress)
    (budget : frames.flatten.length ≤ settings.responseLimits.maxWireBytes) :
    progress.Unwrapped settings := by
  obtain ⟨-, within, wire⟩ := retained.tally
  refine ⟨wire ▸ budget, within .metadataEntries, within .cells, fun payload walked steps => ?_⟩
  induction steps with
  | refl => exact within .metadataNameBytes
  | tail _ counted ih => exact countColumnName_le ih counted

theorem readQueryResult_spent {σ : Type} {env calls backend account deadline resolve}
    (metered : Metered env calls)
    (resolves : ∀ ids, Spends calls account (resolve ids)) (start : Session σ) :
    ∃ own nested, calls ((readQueryResult env settings backend resolve deadline kind
        expected).outcome start).2.environment = calls start.environment ++ own ++ nested ∧
      account.admits nested ∧ Budgeted settings.responseLimits own := by
  have nothing : Reading calls settings.responseLimits (calls start.environment) [] [] start :=
    ⟨[], by simp, .none, by simp, rfl⟩
  have frames : Triple
      (Reading calls settings.responseLimits (calls start.environment) [] [])
      (readFrames env settings deadline kind expected settings.responseLimits.maxMessages {}) _ _ :=
    readFrames_spent metered (by simp) (Nat.zero_add _) rfl (Nat.zero_le _)
  have published (progress : Progress) : Spends calls account (do
      drainCancellation env
      retireOnThrow env id (publishResponse env settings backend resolve deadline kind progress)) :=
    .bind (drainCancellation_spends metered) fun _ =>
      retireOnThrow_spends metered (publishResponse_spends metered resolves)
  have reached := frames start nothing
  unfold readQueryResult
  rw [Program.outcome_bind]
  rcases ends : (readFrames env settings deadline kind expected
    settings.responseLimits.maxMessages {}).outcome start with ⟨result, middle⟩
  rw [ends] at reached
  match result with
  | .error failure =>
    obtain ⟨own, logged, budgeted⟩ := reached
    exact ⟨own, [], by rw [append_nil]; exact logged, account.none, budgeted⟩
  | .ok (.inl failed) =>
    obtain ⟨own, logged, budgeted⟩ := reached
    exact ⟨own, [], by rw [append_nil]; exact logged, account.none, budgeted⟩
  | .ok (.inr progress) =>
    obtain ⟨own, logged, budgeted⟩ := reached
    obtain ⟨nested, admitted, loggedToo⟩ := published progress middle
    exact ⟨own, nested, by rw [← logged]; exact loggedToo, admitted, budgeted⟩

/-- One response takes at most `maxWireBytes` bytes in at most as many calls of `recv`, each due
where it is made. The further calls in the log are those of nested type resolutions. No budget is
overdrawn, and the totals of what is returned are within the limits. -/
theorem readQueryResult_bounded {σ : Type} {env : Environment σ} {calls : σ → List RecvCall}
    (metered : Metered env calls) {settings : Settings}
    (valid : validResourceLimits settings = true) (backend : Backend) {account : Account}
    {resolve : List Nat → Io σ (BackendResult ResolvedTypeMap)}
    (resolves : ∀ ids, Spends calls account (resolve ids)) (deadline : Nat) (kind : ResponseKind)
    (expected : Bytes) (start : Session σ) {result : Except Thrown (BackendResult QueryResult)}
    {final : Session σ}
    (ends : (readQueryResult env settings backend resolve deadline kind expected).outcome start =
      (result, final)) :
    (∃ own nested, calls final.environment = calls start.environment ++ own ++ nested ∧
      account.admits nested ∧ Budgeted settings.responseLimits own ∧
      own.length ≤ settings.responseLimits.maxWireBytes ∧
      ((∀ call ∈ own, call.bytes.length ≤ call.requested) →
        (stream own).length ≤ settings.responseLimits.maxWireBytes ∧
        ∀ frames progress, frames.flatten <+: stream own →
          Retained settings.resultLimits kind expected frames progress →
          progress.Unwrapped settings)) ∧
    (∀ value session, result = .ok (.value value session) →
      value.total ≤ settings.resultLimits.tally) ∧
    ∀ enforceDeadline grows bound message missing, missing ≤ bound →
      receiveWithin env deadline enforceDeadline grows bound message missing =
        receiveWithin env deadline enforceDeadline grows missing message missing := by
  refine ⟨?_, ?_, fun enforceDeadline grows bound message missing =>
    receiveWithin_bound env deadline enforceDeadline grows message⟩
  · obtain ⟨own, nested, logged, admitted, budgeted⟩ := readQueryResult_spent metered resolves start
    rw [ends] at logged
    refine ⟨own, nested, logged, admitted, budgeted, budgeted.length_le, fun honest => ?_⟩
    have bounded := budgeted.stream_le honest
    exact ⟨bounded, fun frames progress begins retained =>
      retained.unwrapped (begins.length_le.trans bounded)⟩
  rintro value session rfl
  have someResult : 0 < settings.resultLimits.maxResults := by
    simp only [validResourceLimits, Bool.and_eq_true, decide_eq_true_eq] at valid
    exact valid.1.1.1.1.1.1.1.1.2
  have answered : Ensures (· = start.toLink)
      (readQueryResult env settings backend resolve deadline kind expected) _ fun _ _ => True :=
    readQueryResult_answers (tolerates_any _) (fun _ => trivial) (fun _ _ _ => trivial)
      (fun _ _ ids => .anything (resolve ids))
  rcases answered.returns rfl ends with ⟨-, failed⟩ | ⟨frames, -, -, -, published⟩
  · cases failed
  · exact (published value session rfl).total_le someResult

namespace Sample

/-- The description of a statement with one parameter and one column `n`. -/
def described : Bytes :=
  code '1' :: bigEndian 4 4 ++ code 't' :: bigEndian 4 10 ++ bigEndian 2 1 ++ bigEndian 4 23 ++
    code 'T' :: bigEndian 4 26 ++ bigEndian 2 1 ++ [code 'n', 0] ++ bigEndian 4 0 ++ bigEndian 2 0 ++
    bigEndian 4 25 ++ bigEndian 2 65535 ++ bigEndian 4 0 ++ bigEndian 2 0 ++
    code 'Z' :: bigEndian 4 5 ++ [code 'I']

def knownTypes (ids : List Nat) : Io (Bytes × List RecvCall) (BackendResult ResolvedTypeMap) :=
  pure (.value (ids.map fun id => (id, {})) ⟨.idle, .reusable⟩)

def describing : Session (Bytes × List RecvCall) where
  connected := true
  sessionState := .idle
  environment := (described ++ ascii "later", [])

/-- The columns and parameters of a returned result. -/
def entries : Except Thrown (BackendResult QueryResult) → Option Nat
  | .ok (.value value _) => some (value.total .metadataEntries)
  | _ => none

end Sample

open Sample in
/-- A description over the trickling server takes 19 calls and leaves what follows. -/
theorem readQueryResult_bounded_description :
    ∃ value session final, (readQueryResult trickling.recording {} plainBackend knownTypes 1
        .description []).outcome describing = (.ok (.value value session), final) ∧
      final.environment.1 = ascii "later" ∧ final.environment.2.length = 19 ∧
      Budgeted {} final.environment.2 ∧ value.total .metadataEntries = 2 ∧
      value.total ≤ ResultLimits.tally {} := by
  have evaluated : ∀ result final, (readQueryResult trickling.recording {} plainBackend knownTypes 1
      .description []).outcome describing = (result, final) →
      entries result = some 2 ∧ final.environment.1 = ascii "later" ∧
        final.environment.2.length = 19 := by
    rintro result final ends
    rw [show result = (result, final).1 from rfl, show final = (result, final).2 from rfl, ← ends]
    decide +kernel
  have resolves (ids : List Nat) : Spends Prod.snd .silent (knownTypes ids) := .pure _
  obtain ⟨result, final, ends⟩ : ∃ result final,
      (readQueryResult trickling.recording {} plainBackend knownTypes 1 .description []).outcome
        describing = (result, final) := ⟨_, _, Prod.mk.eta.symm⟩
  obtain ⟨two, unread, called⟩ := evaluated result final ends
  obtain ⟨⟨own, nested, logged, rfl, budgeted, -⟩, totals, -⟩ :=
    readQueryResult_bounded (metered_recording trickling) (by decide) plainBackend resolves 1
      .description [] describing ends
  have isOwn : final.environment.2 = own := by simpa [describing] using logged
  rcases result with failure | ⟨value, session⟩ | failure
  · cases two
  · exact ⟨value, session, final, ends, unread, called, isOwn ▸ budgeted, Option.some.inj two,
      totals value session rfl⟩
  · cases two

end Odbcpp.Connection
