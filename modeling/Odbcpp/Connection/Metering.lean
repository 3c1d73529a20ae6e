import Odbcpp.Connection.Draining

/-!
# Metered transport calls

The calls of `recv` a program makes, in the log of an environment that keeps one, as any environment
can be made to. Only `recv` itself and type resolution ever add to it, so every part of the response
reader is silent or adds what its resolver adds.
-/

namespace Odbcpp.Connection

open Foundation Database Postgres List

/-- A call of `recv`: its buffer, the offset from which on it was to be filled, and the bytes that
arrived. -/
structure RecvCall where
  buffer : Bytes
  offset : Nat
  bytes : Bytes
deriving DecidableEq

def RecvCall.requested (call : RecvCall) : Nat := call.buffer.length - call.offset

def RecvReply.bytes : RecvReply → Bytes
  | .received bytes _ => bytes
  | .failed _ lost | .threw _ lost => lost

def stream (calls : List RecvCall) : Bytes := calls.flatMap RecvCall.bytes

@[simp] theorem stream_append (earlier later : List RecvCall) :
    stream (earlier ++ later) = stream earlier ++ stream later :=
  flatMap_append

@[simp] theorem stream_singleton (call : RecvCall) : stream [call] = call.bytes := by
  simp [stream]

variable {σ α β : Type}

/-- `calls` is a log of the calls of `recv`, which nothing else adds to. -/
structure Metered (env : Environment σ) (calls : σ → List RecvCall) : Prop where
  recv : ∀ buffer offset state, calls (env.recv buffer offset state).2 =
    calls state ++ [⟨buffer, offset, (env.recv buffer offset state).1.bytes⟩]
  send : ∀ data state, calls (env.send data state).2 = calls state
  close : ∀ state, calls (env.close state) = calls state
  now : ∀ state, calls (env.now state).2 = calls state
  allocationFails : ∀ state, calls (env.allocationFails state).2 = calls state
  floating : ∀ state, calls (env.floating state).2 = calls state
  beforeWire : ∀ state, calls (env.beforeWire state).2 = calls state
  wireSent : ∀ state, calls (env.wireSent state) = calls state
  errorObserved : ∀ sqlstate state, calls (env.errorObserved sqlstate state) = calls state
  drained : ∀ state, calls (env.drained state).2 = calls state
  sealed : ∀ state, calls (env.sealed state).2 = calls state
  enterResolver : ∀ state, calls (env.enterResolver state).2 = calls state
  leaveResolver : ∀ state, calls (env.leaveResolver state) = calls state

/-- The same surroundings with a log of their calls of `recv`. -/
def Environment.recording (env : Environment σ) : Environment (σ × List RecvCall) :=
  let asking {γ : Type} (question : σ → γ × σ) : σ × List RecvCall → γ × (σ × List RecvCall) :=
    fun state => ((question state.1).1, (question state.1).2, state.2)
  let telling (change : σ → σ) : σ × List RecvCall → σ × List RecvCall :=
    fun state => (change state.1, state.2)
  { send := fun data => asking (env.send data)
    recv := fun buffer offset state =>
      let (reply, next) := env.recv buffer offset state.1
      (reply, next, state.2 ++ [⟨buffer, offset, reply.bytes⟩])
    close := telling env.close
    now := asking env.now
    allocationFails := asking env.allocationFails
    floating := asking env.floating
    beforeWire := asking env.beforeWire
    wireSent := telling env.wireSent
    errorObserved := fun sqlstate => telling (env.errorObserved sqlstate)
    drained := asking env.drained
    sealed := asking env.sealed
    enterResolver := asking env.enterResolver
    leaveResolver := telling env.leaveResolver }

theorem metered_recording (env : Environment σ) : Metered env.recording Prod.snd := by
  constructor <;> intros <;> rfl

/-! ## Programs by the calls they make -/

/-- A property of call sequences that holds of none and of two in a row. -/
structure Account where
  admits : List RecvCall → Prop
  none : admits []
  more : ∀ {first second}, admits first → admits second → admits (first ++ second)

def Account.silent : Account := ⟨(· = []), rfl, by rintro _ _ rfl rfl; rfl⟩

def Spends (calls : σ → List RecvCall) (account : Account) (program : Io σ α) : Prop :=
  ∀ start, ∃ spent, account.admits spent ∧
    calls (program.outcome start).2.environment = calls start.environment ++ spent

variable {env : Environment σ} {calls : σ → List RecvCall} {account : Account}

namespace Spends

theorem pure (value : α) : Spends calls account (Pure.pure value : Io σ α) :=
  fun _ => ⟨[], account.none, (append_nil _).symm⟩

theorem throw (failure : Thrown) : Spends calls account (MonadExcept.throw failure : Io σ α) :=
  fun _ => ⟨[], account.none, (append_nil _).symm⟩

theorem get : Spends calls account (MonadState.get : Io σ (Session σ)) :=
  fun _ => ⟨[], account.none, (append_nil _).symm⟩

theorem update (change : Session σ → Session σ)
    (quiet : ∀ session, (change session).environment = session.environment) :
    Spends calls account (modify change : Io σ PUnit) := by
  refine fun start => ⟨[], account.none, ?_⟩
  rw [append_nil, Program.outcome_modify, quiet]

theorem ask (question : σ → α × σ) (quiet : ∀ state, calls (question state).2 = calls state) :
    Spends calls account (ask question) :=
  fun start => ⟨[], account.none, (quiet start.environment).trans (append_nil _).symm⟩

theorem tell (change : σ → σ)
    (quiet : ∀ state, calls (change state) = calls state) : Spends calls account (tell change) :=
  fun start => ⟨[], account.none, (quiet start.environment).trans (append_nil _).symm⟩

theorem ofExcept (computation : Except Thrown α) :
    Spends calls account (Program.ofExcept computation : Io σ α) := by
  cases computation with
  | ok value => exact Spends.pure value
  | error failure => exact Spends.throw failure

theorem bind {first : Io σ α} {second : α → Io σ β}
    (head : Spends calls account first) (tail : ∀ value, Spends calls account (second value)) :
    Spends calls account (first >>= second) := by
  intro start
  obtain ⟨spent, isAdmitted, logged⟩ := head start
  rw [Program.outcome_bind]
  rcases ends : first.outcome start with ⟨result, next⟩
  rw [ends] at logged
  cases result with
  | error failure => exact ⟨spent, isAdmitted, logged⟩
  | ok value =>
    obtain ⟨later, isAdmittedToo, loggedToo⟩ := tail value next
    refine ⟨spent ++ later, account.more isAdmitted isAdmittedToo, ?_⟩
    rw [← append_assoc, ← logged]
    exact loggedToo

theorem tryCatch {body : Io σ α} {handler : Thrown → Io σ α}
    (tries : Spends calls account body) (handles : ∀ failure, Spends calls account (handler failure)) :
    Spends calls account (MonadExcept.tryCatch body handler) := by
  intro start
  obtain ⟨spent, isAdmitted, logged⟩ := tries start
  rw [Program.outcome_tryCatch]
  rcases ends : body.outcome start with ⟨result, next⟩
  rw [ends] at logged
  cases result with
  | ok value => exact ⟨spent, isAdmitted, logged⟩
  | error failure =>
    obtain ⟨later, isAdmittedToo, loggedToo⟩ := handles failure next
    refine ⟨spent ++ later, account.more isAdmitted isAdmittedToo, ?_⟩
    rw [← append_assoc, ← logged]
    exact loggedToo

theorem onlyIf {condition program} (spends : Spends calls account program) :
    Spends calls account (Program.onlyIf condition program) := by
  cases condition with
  | false => exact Spends.pure ()
  | true => exact spends

theorem keeps {program : Io σ α} (silent : Spends calls .silent program)
    (holds : List RecvCall → Prop) :
    Program.Triple (fun session => holds (calls session.environment)) program
      (fun _ session => holds (calls session.environment))
      (fun _ session => holds (calls session.environment)) := by
  intro start before
  obtain ⟨spent, rfl, logged⟩ := silent start
  rcases ends : program.outcome start with ⟨result, final⟩
  rw [ends, append_nil] at logged
  have after : holds (calls final.environment) := by
    rw [show calls final.environment = calls start.environment from logged]
    exact before
  cases result <;> exact after

end Spends

/-! ## The parts of the response reader -/

variable (metered : Metered env calls)
include metered

theorem allocate_spends : Spends calls account (allocate env) := by
  refine .bind (.ask _ metered.allocationFails) fun failed => ?_
  cases failed with
  | false => exact .pure ()
  | true => exact .throw _

theorem deadlineExpired_spends {deadline : Nat} {enforceDeadline : Bool} :
    Spends calls account (deadlineExpired env deadline enforceDeadline) := by
  cases enforceDeadline with
  | false => exact .pure _
  | true => exact .bind (.ask _ metered.now) fun _ => .pure _

omit metered in
theorem cancellationActive_spends : Spends calls account (cancellationActive : Io σ Bool) :=
  .bind (.get) fun _ => .pure _

theorem markTransportFailed_spends : Spends calls account (markTransportFailed env) := by
  refine .bind (.get) fun session => ?_
  refine .bind (.onlyIf ?_) fun _ => ?_
  · exact .bind (.ask _ metered.sealed) fun _ => .pure _
  refine .bind (.update _ fun _ => rfl) fun _ => .onlyIf ?_
  exact .bind (.tell _ metered.close) fun _ => .update _ fun _ => rfl

theorem disconnect_spends : Spends calls account (disconnect env) := by
  have finished : Spends calls account (finishCancellationOperation env) := by
    refine .bind (.get) fun session => .onlyIf ?_
    refine .bind (.ask _ metered.sealed) fun outcome => ?_
    exact .bind (.update _ fun _ => rfl) fun _ =>
      .onlyIf (markTransportFailed_spends metered)
  refine .bind finished fun _ => .bind (.get) fun session => ?_
  refine .bind (.onlyIf ?_) fun _ => .update _ fun _ => rfl
  exact .bind (.tell _ metered.close) fun _ => .update _ fun _ => rfl

theorem retireResult_spends (result : BackendResult QueryResult) :
    Spends calls account (retireResult env result) :=
  .bind (markTransportFailed_spends metered) fun _ => .pure _

theorem retireOnThrow_spends {report : BackendResult QueryResult → α} {body : Io σ α}
    (tries : Spends calls account body) : Spends calls account (retireOnThrow env report body) := by
  refine .tryCatch tries fun thrown => ?_
  refine .bind (markTransportFailed_spends metered) fun _ => ?_
  cases thrown <;> exact .pure _

omit metered in
theorem recordStatus_spends {message : Message} :
    Spends calls account (recordStatus message : Io σ (Except Failure Unit)) := by
  unfold recordStatus recordParameterStatus
  split
  · split
    · exact .pure _
    · exact .bind (.update _ fun _ => rfl) fun _ => .pure _
  · exact .pure _

theorem observeError_spends {progress message} :
    Spends calls account (observeError env progress message) := by
  unfold observeError
  split
  · exact .pure _
  refine .bind (.ofExcept _) fun terminal => ?_
  split
  · exact .throw _
  refine .bind (.ofExcept _) fun text => ?_
  refine .bind (.ofExcept _) fun sqlstate => ?_
  refine .bind (cancellationActive_spends) fun active => ?_
  refine .bind (.onlyIf (.tell _ (metered.errorObserved _))) fun _ => ?_
  split
  · exact retireResult_spends metered _
  · exact .pure _

theorem retainFrame_spends {kind progress message} :
    Spends calls account (retainFrame env kind progress message) := by
  refine .bind (.ofExcept _) fun ready => ?_
  refine .bind (allocate_spends metered) fun _ => ?_
  cases ready with
  | false => exact .pure _
  | true =>
    refine .bind (.update _ fun _ => rfl) fun _ => ?_
    split
    · exact retireResult_spends metered _
    split
    · exact retireResult_spends metered _
    · exact .pure _

theorem acceptFrame_spends {settings kind expected frame progress} :
    Spends calls account (acceptFrame env settings kind expected progress frame) := by
  refine .bind (cancellationActive_spends) fun active => ?_
  refine .bind (.onlyIf (.tell _ (metered.errorObserved _))) fun _ => ?_
  refine .bind (allocate_spends metered) fun _ => ?_
  refine .bind (.ofExcept _) fun message => ?_
  refine .bind (.ofExcept _) fun _ => ?_
  split
  · exact .bind (disconnect_spends metered) fun _ => .pure _
  split
  · exact retireResult_spends metered _
  refine .bind (.ofExcept _) fun checked => ?_
  refine .bind (.ofExcept _) fun completed => ?_
  refine .bind (.ofExcept _) fun counted => ?_
  rcases counted with _ | counted
  · exact retireResult_spends metered _
  refine .bind (recordStatus_spends) fun outcome => ?_
  rcases outcome with failure | _
  · exact retireResult_spends metered _
  refine .bind (observeError_spends metered) fun outcome => ?_
  cases outcome with
  | finished result | drained noted => exact .pure _
  | next noted => exact retainFrame_spends metered

theorem drainCancellation_spends : Spends calls account (drainCancellation env) := by
  refine .bind (cancellationActive_spends) fun active => .onlyIf ?_
  refine .bind (.ask _ metered.drained) fun outcome => ?_
  exact .bind (.update _ fun _ => rfl) fun _ =>
    .onlyIf (markTransportFailed_spends metered)

theorem declineDescription_spends {deadline parameters : Nat} {parsed : ParsedQueryResult} :
    Spends calls account (declineDescription env deadline parameters parsed) := by
  unfold declineDescription
  split
  · exact .bind (markTransportFailed_spends metered) fun _ => .pure _
  refine .bind (.ask _ metered.now) fun instant => ?_
  split
  · exact .bind (markTransportFailed_spends metered) fun _ => .pure _
  · exact .pure _

variable {settings : Settings} {backend : Backend} {kind : ResponseKind}
  {resolve : List Nat → Io σ (BackendResult ResolvedTypeMap)}
  (resolves : ∀ ids, Spends calls account (resolve ids))
include resolves

omit metered in
theorem normalizeParameterTypes_spends {parsed} :
    Spends calls account (normalizeParameterTypes resolve kind parsed) := by
  unfold normalizeParameterTypes
  split
  · exact .pure _
  refine .bind (resolves _) fun result => ?_
  cases result with
  | error failure => exact .pure _
  | value types session =>
    dsimp only
    split
    · exact .pure _
    · exact .bind (.get) fun _ => .pure _

theorem normalizeItem_spends {parsed} :
    Spends calls account (normalizeItem env settings backend resolve kind parsed) := by
  refine .bind (.get) fun session => ?_
  refine .bind (.update _ fun _ => rfl) fun _ => ?_
  refine .bind (allocate_spends metered) fun _ => ?_
  refine .bind (.update _ fun _ => rfl) fun _ => ?_
  refine .bind (normalizeParameterTypes_spends resolves) fun result => ?_
  cases result <;> exact .pure _

theorem normalizeItems_spends {items} :
    Spends calls account (normalizeItems env settings backend resolve kind items) := by
  induction items with
  | nil => exact .pure _
  | cons parsed rest ih =>
    refine .bind (normalizeItem_spends metered resolves) fun result => ?_
    cases result with
    | error failure => exact .pure _
    | ok item =>
      refine .bind ih fun result => ?_
      cases result <;> exact .pure _

theorem publishResponse_spends {deadline progress} : Spends calls account
      (publishResponse env settings backend resolve deadline kind progress) := by
  refine .bind (allocate_spends metered) fun _ => ?_
  refine .bind (.ofExcept _) fun result => ?_
  split
  · exact .pure _
  split
  · exact .pure _
  split
  · exact .bind (markTransportFailed_spends metered) fun _ => .pure _
  split
  · exact .pure _
  split
  · exact declineDescription_spends metered
  refine .bind (normalizeItem_spends metered resolves) fun primary => ?_
  rcases primary with failure | primary
  · exact .pure _
  refine .bind (normalizeItems_spends metered resolves) fun items => ?_
  rcases items with failure | items
  · exact .pure _
  unfold publishNormalized
  dsimp only
  split
  · exact .pure _
  refine .bind (.ask _ metered.now) fun instant => ?_
  split
  · exact .bind (markTransportFailed_spends metered) fun _ =>
      .pure _
  · exact .pure _

end Odbcpp.Connection
