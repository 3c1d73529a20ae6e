import Odbcpp.Connection.Session

/-!
# Writing requests and reading frames

`write_all_result` and `read_message_result`: the loops around `send` and `recv`. Both recurse on a
bound that their progress checks make sufficient, since a call that moves no byte ends the loop.
Every failure retires the connection before it is reported.
-/

namespace Odbcpp.Connection

open Foundation Database Postgres Program List

section

variable {σ : Type} (env : Environment σ)

/-! ## The loops -/

def transportSend (data : Bytes) : Io σ (Except Failure Nat) := do
  match ← ask (env.send data) with
  | .wrote count =>
    modify fun session => { session with sent := session.sent ++ data.take count }
    return .ok count
  | .failed failure leaked =>
    modify fun session => { session with sent := session.sent ++ data.take leaked }
    return .error failure
  | .threw fault leaked =>
    modify fun session => { session with sent := session.sent ++ data.take leaked }
    throw fault.thrown

/-- `std::vector::resize`: a buffer is cut off, or filled up with zeros. -/
def resize (buffer : Bytes) (size : Nat) : Bytes :=
  buffer.take size ++ List.replicate (size - buffer.length) 0

/-- The buffer after `bytes` were written into it from `offset` on. -/
def store (buffer : Bytes) (offset : Nat) (bytes : Bytes) : Bytes :=
  buffer.take offset ++ bytes ++ buffer.drop (offset + bytes.length)

/-- Fill a buffer from `offset` on: its new content, the number of bytes that arrived, and whether
the stream has ended. -/
def transportRecv (buffer : Bytes) (offset : Nat) : Io σ (Except Failure (Bytes × Nat × Bool)) := do
  match ← ask (env.recv buffer offset) with
  | .received bytes eof =>
    modify fun session => { session with received := session.received ++ bytes }
    return .ok (store buffer offset bytes, bytes.length, eof)
  | .failed failure lost =>
    modify fun session => { session with received := session.received ++ lost }
    return .error failure
  | .threw fault lost =>
    modify fun session => { session with received := session.received ++ lost }
    throw fault.thrown

def retireWith {α : Type} (failure : Failure) : Io σ (Except Failure α) := do
  markTransportFailed env
  return .error failure

def deadlineExpired (deadline : Nat) (enforceDeadline : Bool) : Io σ Bool := do
  if enforceDeadline then return deadline ≤ (← now env) else return false

def deadlineFailure : Failure := .make .timeout "Database connection deadline expired"

/-- Send `data` until nothing is left of it. Each send takes at least one byte, so the bound is not
used up. -/
def writeWithin (deadline : Nat) (enforceDeadline : Bool) : Nat → Bytes → Io σ (Except Failure Unit)
  | _, [] => return .ok ()
  | 0, _ :: _ => return .error (.make .networkError "Write failed")
  | bound + 1, byte :: rest => do
    if ← deadlineExpired env deadline enforceDeadline then
      retireWith env deadlineFailure
    else
      match ← transportSend env (byte :: rest) with
      | .error failure => retireWith env failure
      | .ok count =>
        if (byte :: rest).length < count then
          retireWith env
            (.make .protocolError "Transport write exceeded requested message bytes")
        else if count = 0 then
          retireWith env (.make .networkError "Write failed")
        else writeWithin deadline enforceDeadline bound ((byte :: rest).drop count)

def writeAllResult (data : Bytes) (deadline : Nat) (enforceDeadline : Bool) :
    Io σ (Except Failure Unit) :=
  writeWithin env deadline enforceDeadline data.length data

/-- Receive `missing` bytes after those already in `message`, at most 8192 a call: the buffer is made
longer for the call, and cut to what has arrived after it. Each receive brings at least one byte, so
the bound `missing` is not used up. The buffer of a header has its five bytes from the beginning on,
so only that of a message body `grows` by allocations. -/
def receiveWithin (deadline : Nat) (enforceDeadline grows : Bool) :
    Nat → Bytes → Nat → Io σ (Except Failure Bytes)
  | _, message, 0 => return .ok message
  | 0, _, _ + 1 => return .error (.make .networkError "Transport read made no progress")
  | bound + 1, message, missing + 1 => do
    if ← deadlineExpired env deadline enforceDeadline then
      retireWith env deadlineFailure
    else
      Program.onlyIf grows (allocate env)
      let requested := min (missing + 1) 8192
      match ← transportRecv env (resize message (message.length + requested)) message.length with
      | .error failure => retireWith env failure
      | .ok (buffer, count, eof) =>
        if eof then
          retireWith env (.make .networkError "Unexpected EOF")
        else if requested < count then
          retireWith env
            (.make .protocolError "Transport read exceeded requested message bytes")
        else if count = 0 then
          retireWith env (.make .networkError "Transport read made no progress")
        else
          receiveWithin deadline enforceDeadline grows bound
            (resize buffer (message.length + count)) (missing + 1 - count)

/-- Frames whose length is not bounded by the short limit. -/
def allowsLargeFrame (tag : UInt8) : Bool :=
  [code 'D', code 'E', code 'V', code 'N', code 'A', code 'T', code 't'].contains tag

def frameLimit (tag : UInt8) : Nat := if allowsLargeFrame tag then 0x3fffffff else 30000

def frameLength (header : Bytes) : Nat := ofBigEndian ((header.drop 1).take 4)

/-- Read one frame of at most `remainingBytes` bytes: the header, then as many
bytes as it announces. -/
def readMessageResult (settings : Settings) (deadline remainingBytes : Nat)
    (enforceDeadline : Bool) : Io σ (Except Failure Bytes) := do
  if remainingBytes < 5 then
    retireWith env (.make .resourceLimit "Database response byte limit exceeded")
  else
    allocate env
    match ← receiveWithin env deadline enforceDeadline false 5 [] 5 with
    | .error failure => return .error failure
    | .ok header =>
      let tag := header.headD 0
      let length := frameLength header
      if length < 4 ∨ frameLimit tag < length then
        retireWith env (.make .protocolError "Invalid message length")
      else if tag = code 'd' ∨ tag = code 'c' then
        disconnect env
        return .error (.make .protocolError "PostgreSQL COPY frame arrived outside COPY mode")
      else if remainingBytes < length + 1 then
        retireWith env (.make .resourceLimit "Database response byte limit exceeded")
      else if (tag = code 'E' ∨ tag = code 'N') ∧
          settings.resultLimits.maxDiagnosticBytes < length - 4 then
        retireWith env (.make .resourceLimit "Database diagnostic byte limit exceeded")
      else
        allocate env
        receiveWithin env deadline enforceDeadline true (length - 4) header (length - 4)

end

/-! ## Specifications -/

namespace Link

variable (link : Link)

def Retired : Prop := link.connected = false ∧ link.sessionState = .disconnected

def Consistent : Prop := link.connected = false → link.sessionState = .disconnected

def retire : Link := { link with connected := false, sessionState := .disconnected }

theorem retired_retire : link.retire.Retired := ⟨rfl, rfl⟩

theorem Retired.consistent {link : Link} (retired : link.Retired) : link.Consistent :=
  fun _ => retired.2

def send (bytes : Bytes) : Link := { link with sent := link.sent ++ bytes }

/-- The link after `bytes` more were received. -/
def receive (bytes : Bytes) : Link := { link with received := link.received ++ bytes }

theorem consistent_of_connected {link : Link} (connected : link.connected = true) :
    link.Consistent := by
  intro disconnected
  simp [connected] at disconnected

end Link

/-- A triple about the link alone. -/
def Ensures {σ α : Type} (before : Link → Prop) (program : Io σ α) (normal : α → Link → Prop)
    (abrupt : Thrown → Link → Prop) : Prop :=
  Triple (fun session => before session.toLink) program
    (fun value session => normal value session.toLink)
    (fun failure session => abrupt failure session.toLink)

/-- What an exception out of the wire loops leaves: it is not the exception of the
request encoders, and the flags agree. -/
def Interrupted (failure : Thrown) (link : Link) : Prop :=
  failure ≠ .requestWireLimitExceeded ∧ link.Consistent

/-- An exception of the surroundings over `base`, which leaves the flags alone, is
accounted for. -/
def Tolerates (base : Link) (abrupt : Thrown → Link → Prop) : Prop :=
  ∀ (fault : TransportFault) (link : Link), link.connected = base.connected →
    link.sessionState = base.sessionState → abrupt fault.thrown link

theorem tolerates_any (base : Link) : Tolerates base fun _ _ => True := fun _ _ _ _ => trivial

variable {base : Link}

/-- Such an exception is never the encoders' own, and a connected link stays so. -/
theorem tolerates_interrupted (connected : base.connected = true) : Tolerates base Interrupted := by
  intro fault link stillConnected _
  refine ⟨by cases fault <;> simp [TransportFault.thrown], ?_⟩
  exact Link.consistent_of_connected (stillConnected.trans connected)

def CompleteFrame (frame : Bytes) : Prop :=
  5 ≤ frame.length ∧ frameLength frame + 1 = frame.length

namespace Ensures

variable {σ α β : Type} {env : Environment σ} {before : Link → Prop}
  {abrupt : Thrown → Link → Prop} {normal : α → Link → Prop} {program : Io σ α}
  {stronger : Link → Prop}

theorem pure (value : α) (holds : ∀ link, before link → normal value link) :
    Ensures before (Pure.pure value : Io σ α) normal abrupt :=
  Triple.pure value fun session => holds session.toLink

theorem throw {normal : α → Link → Prop} (failure : Thrown)
    (holds : ∀ link, before link → abrupt failure link) :
    Ensures before (MonadExcept.throw failure : Io σ α) normal abrupt :=
  Triple.throw failure fun session => holds session.toLink

theorem bind {first : Io σ α} {second : α → Io σ β} {middle : α → Link → Prop}
    {normal : β → Link → Prop} (head : Ensures before first middle abrupt)
    (tail : ∀ value, Ensures (middle value) (second value) normal abrupt) :
    Ensures before (first >>= second) normal abrupt :=
  Triple.bind head tail

theorem tryCatch {body : Io σ α} {handler : Thrown → Io σ α}
    {thrown : Thrown → Link → Prop} (tries : Ensures before body normal thrown)
    (handles : ∀ failure, Ensures (thrown failure) (handler failure) normal abrupt) :
    Ensures before (MonadExcept.tryCatch body handler) normal abrupt :=
  Triple.tryCatch tries handles

theorem consequence {normal weaker : α → Link → Prop}
    {abruptWeaker : Thrown → Link → Prop} (holds : Ensures before program normal abrupt)
    (assume : ∀ link, stronger link → before link)
    (conclude : ∀ value link, normal value link → weaker value link)
    (concludeAbrupt : ∀ failure link, abrupt failure link → abruptWeaker failure link) :
    Ensures stronger program weaker abruptWeaker :=
  Triple.consequence holds (fun session => assume session.toLink)
    (fun value session => conclude value session.toLink)
    (fun failure session => concludeAbrupt failure session.toLink)

theorem assuming
    (holds : Ensures before program normal abrupt) (assume : ∀ link, stronger link → before link) :
    Ensures stronger program normal abrupt :=
  holds.consequence assume (fun _ _ => id) (fun _ _ => id)

theorem concluding {normal weaker : α → Link → Prop} (holds : Ensures before program normal abrupt)
    (conclude : ∀ value link, normal value link → weaker value link) :
    Ensures before program weaker abrupt :=
  holds.consequence (fun _ => id) conclude (fun _ _ => id)

theorem returns {program : Io σ α} {normal : α → Link → Prop} {start final : Session σ} {value : α}
    (holds : Ensures before program normal abrupt) (admitted : before start.toLink)
    (ends : program.outcome start = (.ok value, final)) : normal value final.toLink := by
  have reached := holds start admitted
  rw [ends] at reached
  exact reached

theorem throws {program : Io σ α} {normal : α → Link → Prop} {start final : Session σ}
    {failure : Thrown} (holds : Ensures before program normal abrupt)
    (admitted : before start.toLink) (ends : program.outcome start = (.error failure, final)) :
    abrupt failure final.toLink := by
  have reached := holds start admitted
  rw [ends] at reached
  exact reached

theorem and {program : Io σ α} {beforeToo : Link → Prop} {normal normalToo : α → Link → Prop}
    {abruptToo : Thrown → Link → Prop} (left : Ensures before program normal abrupt)
    (right : Ensures beforeToo program normalToo abruptToo) :
    Ensures (fun link => before link ∧ beforeToo link) program
      (fun value link => normal value link ∧ normalToo value link)
      (fun failure link => abrupt failure link ∧ abruptToo failure link) :=
  Triple.and left right

/-- It is enough to start from each admitted link on its own. -/
theorem each {program : Io σ α} {normal : α → Link → Prop}
    (body : ∀ link, before link → Ensures (· = link) program normal abrupt) :
    Ensures before program normal abrupt :=
  fun session holds => body session.toLink holds session rfl

theorem knowing {fact : Prop}
    (implied : ∀ link, before link → fact) (body : fact → Ensures before program normal abrupt) :
    Ensures before program normal abrupt :=
  Triple.knowing (fun session => implied session.toLink) body

theorem get {normal : Session σ → Link → Prop}
    (holds : ∀ session : Session σ, before session.toLink → normal session session.toLink) :
    Ensures before (MonadState.get : Io σ (Session σ)) normal abrupt :=
  Triple.get holds

theorem update {normal : PUnit → Link → Prop} (change : Session σ → Session σ)
    (holds : ∀ session, before session.toLink → normal ⟨⟩ (change session).toLink) :
    Ensures before (modify change : Io σ PUnit) normal abrupt :=
  Triple.update change holds

/-- An update of the other fields. -/
theorem quietly (change : Session σ → Session σ)
    (quiet : ∀ session, (change session).toLink = session.toLink) :
    Ensures before (modify change : Io σ PUnit) (fun _ => before) abrupt :=
  .update change fun session holds => (quiet session).symm ▸ holds

theorem ask (question : σ → α × σ) : Ensures before (ask question) (fun _ => before) abrupt :=
  fun _ => id

theorem tell (change : σ → σ) : Ensures before (tell change) (fun _ => before) abrupt :=
  fun _ => id

theorem allocate (fails : ∀ link, before link → abrupt .badAlloc link) :
    Ensures before (allocate env) (fun _ => before) abrupt := by
  refine (Ensures.ask env.allocationFails).bind fun failed => ?_
  cases failed with
  | false => exact .pure () fun _ => id
  | true => exact .throw .badAlloc fails

theorem allocate_keeps : Ensures before (Connection.allocate env) (fun _ => before) (fun _ => before) :=
  allocate fun _ => id

theorem onlyIf {condition : Bool} {program : Io σ Unit}
    (keeps : Ensures before program (fun _ => before) abrupt) :
    Ensures before (Program.onlyIf condition program) (fun _ => before) abrupt :=
  Triple.onlyIf keeps

/-- Whatever the endpoint answers, the flags are cleared and nothing else. -/
theorem markTransportFailed_retire :
    Ensures (· = base) (Connection.markTransportFailed env) (fun _ => (· = base.retire)) abrupt := by
  refine (Ensures.get fun _ same => same : Ensures (· = base) _ (fun _ => (· = base)) _).bind
    fun session => ?_
  refine (Ensures.onlyIf ((Ensures.ask env.sealed).bind fun _ => .pure () fun _ => id)).bind
    fun _ => ?_
  refine (Ensures.update _ fun session same => ?_ :
    Ensures (· = base) _ (fun _ => (· = base.retire)) _).bind fun _ => ?_
  · rw [← same]
    rfl
  · exact .onlyIf ((Ensures.tell env.close).bind fun _ => .update _ fun _ => id)

theorem markTransportFailed :
    Ensures before (markTransportFailed env) (fun _ => Link.Retired) abrupt :=
  .each fun link _ => markTransportFailed_retire.concluding
    (fun _ _ same => same ▸ link.retired_retire)

theorem markTransportFailed_keeps (kept : ∀ link, before link → before link.retire) :
    Ensures before (Connection.markTransportFailed env) (fun _ => before) abrupt :=
  .each fun link holds => markTransportFailed_retire.concluding
    (fun _ _ same => same ▸ kept link holds)

theorem retireWith (failure : Failure) :
    Ensures before (retireWith env failure : Io σ (Except Failure α))
      (fun result link => result = .error failure ∧ link.Retired) abrupt :=
  markTransportFailed.bind fun _ => .pure _ fun _ retired => ⟨rfl, retired⟩

theorem disconnect_retire :
    Ensures (· = base) (Connection.disconnect env) (fun _ => (· = base.retire)) abrupt := by
  have finished : Ensures (·.retire = base.retire) (finishCancellationOperation env)
      (fun _ => (·.retire = base.retire)) abrupt := by
    refine (Ensures.get fun _ same => same : Ensures (·.retire = base.retire) _
      (fun _ => (·.retire = base.retire)) _).bind fun session => .onlyIf ?_
    refine (Ensures.ask env.sealed).bind fun outcome => ?_
    refine (Ensures.quietly _ ?_).bind fun _ => .onlyIf (markTransportFailed_keeps ?_)
    · exact fun _ => rfl
    · exact fun _ => id
  refine (finished.assuming fun link same => congrArg Link.retire same).bind fun _ => ?_
  refine (Ensures.get fun _ same => same : Ensures (·.retire = base.retire) _
    (fun _ => (·.retire = base.retire)) _).bind fun session => ?_
  refine (Ensures.onlyIf ((Ensures.tell env.close).bind fun _ => Ensures.quietly _ ?_)).bind
    fun _ => .update _ fun _ => id
  exact fun _ => rfl

theorem disconnect_keeps (kept : ∀ link, before link → before link.retire) :
    Ensures before (Connection.disconnect env) (fun _ => before) abrupt :=
  .each fun link holds => disconnect_retire.concluding (fun _ _ same => same ▸ kept link holds)

theorem disconnect : Ensures before (disconnect env) (fun _ => Link.Retired) abrupt :=
  .each fun link _ => disconnect_retire.concluding (fun _ _ same => same ▸ link.retired_retire)

theorem deadlineExpired {deadline enforceDeadline} :
    Ensures before (deadlineExpired env deadline enforceDeadline) (fun _ => before) abrupt := by
  cases enforceDeadline with
  | false => exact .pure _ fun _ => id
  | true => exact (Ensures.ask env.now).bind fun _ => .pure _ fun _ => id

end Ensures

variable {σ : Type} {env : Environment σ} {base : Link} {abrupt : Thrown → Link → Prop}

variable {enforceDeadline grows : Bool} {deadline remainingBytes bound missing : Nat}
  {kept before : Link → Prop} {settings : Settings} {data sent message : Bytes}

theorem transportSend_ensures (faults : Tolerates base abrupt) (data : Bytes) :
    Ensures (· = base) (transportSend env data)
      (fun result link => ∀ count, result = .ok count → link = base.send (data.take count))
      abrupt := by
  refine (Ensures.ask (env.send data)).bind fun reply => ?_
  cases reply with
  | wrote count =>
    refine (Ensures.update _ fun session same => ?_ :
      Ensures _ _ (fun _ link => link = base.send (data.take count)) _).bind fun _ => ?_
    · subst same
      rfl
    · exact .pure _ fun link same other isOk => by cases isOk; exact same
  | failed failure leaked =>
    refine (Ensures.update _ fun _ _ => trivial : Ensures _ _ (fun _ _ => True) _).bind
      fun _ => .pure _ fun link _ other isOk => by cases isOk
  | threw fault leaked =>
    refine (Ensures.update _ fun session same => ?_ :
      Ensures _ _ (fun _ link => link.connected = base.connected ∧
        link.sessionState = base.sessionState) _).bind
      fun _ => .throw _ fun link flags => faults fault link flags.1 flags.2
    subst same
    exact ⟨rfl, rfl⟩

@[simp] theorem length_resize (buffer : Bytes) (size : Nat) :
    (resize buffer size).length = size := by
  simp [resize]
  omega

theorem prefix_resize {size : Nat} (fits : message.length ≤ size) :
    message <+: resize message size := by
  rw [resize, take_of_length_le fits]
  exact prefix_append _ _

theorem resize_append (buffer rest : Bytes) : resize (buffer ++ rest) buffer.length = buffer := by
  simp [resize]

/-- A buffer that was filled and cut holds what was there and what arrived. -/
@[simp] theorem resize_store (message bytes : Bytes) (requested : Nat) :
    resize (store (resize message (message.length + requested)) message.length bytes)
      (message.length + bytes.length) = message ++ bytes := by
  have begins := prefix_iff_eq_take.mp
    (@prefix_resize message (message.length + requested) (by omega))
  rw [store, ← begins, ← length_append]
  exact resize_append _ _

theorem transportRecv_ensures (faults : Tolerates base abrupt) (buffer : Bytes) (offset : Nat) :
    Ensures (· = base) (transportRecv env buffer offset)
      (fun result link => ∀ stored count eof, result = .ok (stored, count, eof) → ∃ bytes,
        stored = store buffer offset bytes ∧ count = bytes.length ∧ link = base.receive bytes)
      abrupt := by
  refine (Ensures.ask (env.recv buffer offset)).bind fun reply => ?_
  cases reply with
  | received bytes eof =>
    refine (Ensures.update _ fun session same => ?_ :
      Ensures _ _ (fun _ link => link = base.receive bytes) _).bind fun _ => ?_
    · subst same
      rfl
    refine .pure _ fun link same _ _ _ isOk => ?_
    cases isOk
    exact ⟨bytes, rfl, rfl, same⟩
  | failed failure lost =>
    refine (Ensures.update _ fun _ _ => trivial : Ensures _ _ (fun _ _ => True) _).bind
      fun _ => .pure _ fun link _ _ _ _ isOk => by cases isOk
  | threw fault lost =>
    refine (Ensures.update _ fun session same => ?_ :
      Ensures _ _ (fun _ link => link.connected = base.connected ∧
        link.sessionState = base.sessionState) _).bind
      fun _ => .throw _ fun link flags => faults fault link flags.1 flags.2
    subst same
    exact ⟨rfl, rfl⟩

def Reports {α : Type} (succeeds : α → Link → Prop) (result : Except Failure α) (link : Link) :
    Prop :=
  match result with
  | .ok value => succeeds value link
  | .error _ => link.Retired

theorem retireWith_reports {α : Type} {succeeds : α → Link → Prop} (failure : Failure) :
    Ensures before (retireWith env failure : Io σ (Except Failure α)) (Reports succeeds) abrupt :=
  (Ensures.retireWith failure).concluding
    (fun _ _ ⟨isError, retired⟩ => by rw [isError]; exact retired)

variable (faults : Tolerates base abrupt)

include faults

/-- The whole of `data` is sent, or the connection is retired. -/
theorem writeWithin_ensures (enough : data.length ≤ bound) :
    Ensures (· = base) (writeWithin env deadline enforceDeadline bound data)
      (Reports fun _ link => link = base.send data) abrupt := by
  induction bound generalizing base data with
  | zero =>
    obtain rfl : data = [] := eq_nil_of_length_eq_zero (by omega)
    exact .pure _ fun link same => by simpa [Reports, Link.send] using same
  | succ bound ih =>
    rcases data with _ | ⟨byte, rest⟩
    · exact .pure _ fun link same => by simpa [Reports, Link.send] using same
    refine Ensures.deadlineExpired.bind fun expired => ?_
    split
    · exact retireWith_reports _
    refine (transportSend_ensures faults _).bind fun reply => ?_
    rcases reply with failure | count
    · exact retireWith_reports _
    dsimp only
    split
    · exact retireWith_reports _
    split
    · exact retireWith_reports _
    rename_i fits moved
    have shorter : ((byte :: rest).drop count).length ≤ bound := by
      simp only [length_drop]
      simp at enough ⊢
      omega
    have step := @ih (base.send ((byte :: rest).take count)) _ faults shorter
    refine step.consequence (fun link sent => sent count rfl) ?_
      (fun _ _ => id)
    intro result link reports
    cases result with
    | error failure => exact reports
    | ok value =>
      rw [Reports] at reports ⊢
      rw [reports]
      simp [Link.send, append_assoc]

theorem writeAllResult_ensures :
    Ensures (· = base) (writeAllResult env data deadline enforceDeadline)
      (Reports fun _ link => link = base.send data) abrupt :=
  writeWithin_ensures faults (Nat.le_refl _)

theorem receiveWithin_ensures (enough : missing ≤ bound) : Ensures (· = base.receive message)
      (receiveWithin env deadline enforceDeadline grows bound message missing)
      (Reports fun whole link => whole.length = message.length + missing ∧ message <+: whole ∧
        link = base.receive whole) abrupt := by
  induction bound generalizing message missing with
  | zero =>
    obtain rfl : missing = 0 := by omega
    exact .pure _ fun link same => ⟨rfl, prefix_refl _, same⟩
  | succ bound ih =>
    rcases missing with _ | missing
    · exact .pure _ fun link same => ⟨rfl, prefix_refl _, same⟩
    refine Ensures.deadlineExpired.bind fun expired => ?_
    split
    · exact retireWith_reports _
    refine (Ensures.onlyIf (.allocate fun link same => ?_)).bind fun _ => ?_
    · subst same
      exact faults .badAlloc _ rfl rfl
    have standing : Tolerates (base.receive message) abrupt := faults
    refine (transportRecv_ensures standing _ _).bind fun reply => ?_
    match reply with
    | .error failure => exact retireWith_reports _
    | .ok (stored, count, eof) =>
      -- The bytes are the same for every link the call may end in.
      refine Ensures.each fun link received => ?_
      obtain ⟨bytes, rfl, rfl, rfl⟩ := received stored count eof rfl
      dsimp only
      split
      · exact retireWith_reports _
      split
      · exact retireWith_reports _
      split
      · exact retireWith_reports _
      rename_i fits moved
      have bounded : bytes.length ≤ missing + 1 := by omega
      have remaining : missing + 1 - bytes.length ≤ bound := by omega
      rw [resize_store]
      refine (@ih _ (message ++ bytes) remaining).consequence ?_ ?_
        (fun _ _ => id)
      · rintro link rfl
        simp [Link.receive, append_assoc]
      intro result link reports
      rcases result with failure | whole
      · exact reports
      obtain ⟨size, extends_, same⟩ := reports
      refine ⟨?_, (prefix_append _ _).trans extends_, same⟩
      rw [size, length_append]
      omega

omit faults

theorem frameLength_header {header whole : Bytes} (isHeader : header.length = 5)
    (begins : header <+: whole) : frameLength whole = frameLength header := by
  obtain ⟨rest, rfl⟩ := begins
  unfold frameLength
  rw [drop_append_of_le_length (by omega), take_append_of_le_length (by simp; omega)]

/-- One complete frame is consumed, or the connection is retired. -/
theorem readMessageResult_ensures (faults : Tolerates base abrupt) :
    Ensures (· = base) (readMessageResult env settings deadline remainingBytes enforceDeadline)
      (Reports fun frame link => CompleteFrame frame ∧ link = base.receive frame) abrupt := by
  unfold readMessageResult
  split
  · exact retireWith_reports _
  refine (Ensures.allocate fun link same => ?_).bind fun _ => ?_
  · subst same
    exact faults .badAlloc _ rfl rfl
  have start : ∀ link, link = base → link = base.receive [] := by
    rintro link rfl
    simp [Link.receive]
  refine ((receiveWithin_ensures faults (Nat.le_refl 5)).consequence start
    (fun _ _ => id) (fun _ _ => id)).bind fun result => ?_
  rcases result with failure | header
  · exact .pure _ fun _ => id
  dsimp only
  split
  · exact retireWith_reports _
  split
  · exact Ensures.disconnect.bind fun _ => .pure _ fun _ => id
  split
  · exact retireWith_reports _
  split
  · exact retireWith_reports _
  rename_i lengthOk _ _ _
  refine (Ensures.allocate fun link reports => ?_).bind fun _ => ?_
  · obtain ⟨-, -, same⟩ := reports
    subst same
    exact faults .badAlloc _ rfl rfl
  refine Ensures.knowing (fun link reports => reports.1) fun isHeader => ?_
  refine (receiveWithin_ensures faults (Nat.le_refl _)).consequence
    (fun link reports => reports.2.2) ?_ (fun _ _ => id)
  intro result link reports
  rcases result with failure | whole
  · exact reports
  obtain ⟨size, begins, same⟩ := reports
  have headerSize : header.length = 5 := isHeader
  refine ⟨⟨by omega, ?_⟩, same⟩
  rw [frameLength_header headerSize begins]
  omega

/-! ## Unfinished exchanges

What is on the wire however a loop ends, exceptions included. -/

/-- A property of the link that receiving and retiring keep. -/
structure SurvivesReading (kept : Link → Prop) : Prop where
  receive : ∀ link bytes, kept link → kept (link.receive bytes)
  retire : ∀ link, kept link → kept link.retire

variable (stable : SurvivesReading kept)

include stable

theorem retireWith_keeps {α : Type} (failure : Failure) :
    Ensures kept (retireWith env failure : Io σ (Except Failure α)) (fun _ => kept) abrupt :=
  (Ensures.markTransportFailed_keeps stable.retire).bind fun _ => .pure _ fun _ => id

theorem transportRecv_keeps (buffer : Bytes) (offset : Nat) :
    Ensures kept (transportRecv env buffer offset) (fun _ => kept) (fun _ => kept) := by
  refine (Ensures.ask (env.recv buffer offset)).bind fun reply => ?_
  cases reply with
  | received bytes eof =>
    exact (Ensures.update _ fun session holds => stable.receive session.toLink bytes holds :
      Ensures kept _ (fun _ => kept) _).bind fun _ => .pure _ fun _ => id
  | failed failure lost =>
    exact (Ensures.update _ fun session holds => stable.receive session.toLink lost holds :
      Ensures kept _ (fun _ => kept) _).bind fun _ => .pure _ fun _ => id
  | threw fault lost =>
    exact (Ensures.update _ fun session holds => stable.receive session.toLink lost holds :
      Ensures kept _ (fun _ => kept) _).bind fun _ => .throw _ fun _ => id

theorem receiveWithin_keeps :
    Ensures kept (receiveWithin env deadline enforceDeadline grows bound message missing)
      (fun _ => kept) (fun _ => kept) := by
  induction bound generalizing message missing with
  | zero => cases missing <;> exact .pure _ fun _ => id
  | succ bound ih =>
    rcases missing with _ | missing
    · exact .pure _ fun _ => id
    refine Ensures.deadlineExpired.bind fun expired => ?_
    split
    · exact retireWith_keeps stable _
    refine (Ensures.onlyIf Ensures.allocate_keeps).bind fun _ => ?_
    refine (transportRecv_keeps stable _ _).bind fun reply => ?_
    match reply with
    | .error failure => exact retireWith_keeps stable _
    | .ok (stored, count, eof) =>
      dsimp only
      split
      · exact retireWith_keeps stable _
      split
      · exact retireWith_keeps stable _
      split
      · exact retireWith_keeps stable _
      · exact ih

theorem readMessageResult_keeps :
    Ensures kept (readMessageResult env settings deadline remainingBytes enforceDeadline)
      (fun _ => kept) (fun _ => kept) := by
  unfold readMessageResult
  split
  · exact retireWith_keeps stable _
  refine Ensures.allocate_keeps.bind fun _ => ?_
  refine (receiveWithin_keeps stable).bind fun result => ?_
  rcases result with failure | header
  · exact .pure _ fun _ => id
  dsimp only
  split
  · exact retireWith_keeps stable _
  split
  · exact (Ensures.disconnect_keeps stable.retire).bind fun _ => .pure _ fun _ => id
  split
  · exact retireWith_keeps stable _
  split
  · exact retireWith_keeps stable _
  · exact Ensures.allocate_keeps.bind fun _ =>
      receiveWithin_keeps stable

omit stable

/-- Some initial part of `data` was sent after `sent`. -/
def SentPart (sent data : Bytes) (link : Link) : Prop :=
  ∃ part, part <+: data ∧ link.sent = sent ++ part

theorem transportSend_sent {sent : Bytes} (data : Bytes) :
    Ensures (·.sent = sent) (transportSend env data) (fun result link => SentPart sent data link ∧
        ∀ count, result = .ok count → link.sent = sent ++ data.take count)
      (fun _ => SentPart sent data) := by
  have extended (count : Nat) (session : Session σ) (same : session.sent = sent) :
      session.sent ++ data.take count = sent ++ data.take count := by rw [same]
  refine (Ensures.ask (env.send data)).bind fun reply => ?_
  cases reply with
  | wrote count =>
    refine (Ensures.update _ fun session same => extended count session same :
      Ensures _ _ (fun _ link => link.sent = sent ++ data.take count) _).bind fun _ => ?_
    refine .pure _ fun link same => ⟨⟨_, take_prefix _ _, same⟩, fun other isOk => ?_⟩
    cases isOk
    exact same
  | failed failure leaked =>
    refine (Ensures.update _ fun session same => extended leaked session same :
      Ensures _ _ (fun _ link => link.sent = sent ++ data.take leaked) _).bind fun _ => ?_
    exact .pure _ fun link same => ⟨⟨_, take_prefix _ _, same⟩, fun _ isOk => by cases isOk⟩
  | threw fault leaked =>
    refine (Ensures.update _ fun session same => extended leaked session same :
      Ensures _ _ (fun _ link => link.sent = sent ++ data.take leaked) _).bind fun _ => ?_
    exact .throw _ fun link same => ⟨_, take_prefix _ _, same⟩

theorem SentPart.nothing {sent data : Bytes} {link : Link} (same : link.sent = sent) :
    SentPart sent data link :=
  ⟨[], nil_prefix, by simpa using same⟩

theorem retireWith_sentPart (failure : Failure)
    (partly : ∀ link, before link → SentPart sent data link) :
    Ensures before (retireWith env failure : Io σ (Except Failure Unit))
      (fun _ => SentPart sent data) (fun _ => SentPart sent data) :=
  ((Ensures.markTransportFailed_keeps fun _ => id).assuming partly).bind
    fun _ => .pure _ fun _ => id

theorem writeWithin_sent
    : Ensures (·.sent = sent) (writeWithin env deadline enforceDeadline bound data)
      (fun _ => SentPart sent data) (fun _ => SentPart sent data) := by
  induction bound generalizing sent data with
  | zero => cases data <;> exact .pure _ fun _ => SentPart.nothing
  | succ bound ih =>
    rcases data with _ | ⟨byte, rest⟩
    · exact .pure _ fun _ => SentPart.nothing
    refine Ensures.deadlineExpired.bind fun expired => ?_
    split
    · exact retireWith_sentPart _ fun _ => SentPart.nothing
    refine (transportSend_sent _).bind fun reply => ?_
    rcases reply with failure | count
    · exact retireWith_sentPart _ fun _ holds => holds.1
    dsimp only
    split
    · exact retireWith_sentPart _ fun _ holds => holds.1
    split
    · exact retireWith_sentPart _ fun _ holds => holds.1
    have extends_ (link : Link)
        (partly : SentPart (sent ++ (byte :: rest).take count)
          ((byte :: rest).drop count) link) : SentPart sent (byte :: rest) link := by
      obtain ⟨part, begins, same⟩ := partly
      refine ⟨(byte :: rest).take count ++ part, ?_, by simpa using same⟩
      conv_rhs => rw [← take_append_drop count (byte :: rest)]
      exact (prefix_append_right_inj _).mpr begins
    exact ih.consequence (fun _ holds => holds.2 count rfl)
      (fun _ link partly => extends_ link partly)
      (fun _ link partly => extends_ link partly)

theorem writeAllResult_sent : Ensures (· = base) (writeAllResult env data deadline enforceDeadline)
      (fun result link => Reports (fun _ link => link = base.send data) result link ∧
        SentPart base.sent data link)
      (fun _ => SentPart base.sent data) :=
  (Ensures.and (writeAllResult_ensures (tolerates_any base)) writeWithin_sent).consequence
    (fun _ same => ⟨same, congrArg Link.sent same⟩) (fun _ _ => id)
    (fun _ _ holds => holds.2)

/-- Reading a frame sends nothing, however it ends. -/
theorem readMessageResult_sent :
    Ensures (· = base) (readMessageResult env settings deadline remainingBytes enforceDeadline)
      (fun result link =>
        Reports (fun frame link => CompleteFrame frame ∧ link = base.receive frame) result link ∧
          link.sent = base.sent)
      (fun _ link => link.sent = base.sent) := by
  have unsent : SurvivesReading (·.sent = base.sent) := ⟨fun _ _ => id, fun _ => id⟩
  exact (Ensures.and (readMessageResult_ensures (tolerates_any base))
    (readMessageResult_keeps unsent)).consequence (fun _ same => ⟨same, congrArg Link.sent same⟩)
    (fun _ _ => id) (fun _ _ holds => holds.2)

end Odbcpp.Connection
