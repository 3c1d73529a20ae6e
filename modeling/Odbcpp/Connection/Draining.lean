import Odbcpp.Connection.Publication

/-!
# Draining a response

The reading loop either retires the connection or consumes one complete response,
up to and including its ReadyForQuery, whose state the session then has. It keeps the
messages of all the frames it accepted, and a published result is made of them.
-/

namespace Odbcpp.Connection

open Foundation Database Postgres
open Ensures (knowing quietly onlyIf)

/-! ## Responses on the wire -/

def IsReady (frame : Bytes) : Prop := frame.head? = some (code 'Z')

def Carries (frame : Bytes) (state : SessionState) : Prop :=
  (frame.drop 5 = [code 'I'] ∧ state = .idle) ∨
    (frame.drop 5 = [code 'T'] ∧ state = .transaction) ∨
    (frame.drop 5 = [code 'E'] ∧ state = .failedTransaction)

/-- A whole response: complete frames of which only the last is a ReadyForQuery, and the state it
carries. -/
structure Drained (frames : List Bytes) (state : SessionState) : Prop where
  complete : ∀ frame ∈ frames, CompleteFrame frame
  ends : ∃ earlier last, frames = earlier ++ [last] ∧ (∀ frame ∈ earlier, ¬ IsReady frame) ∧
    IsReady last ∧ Carries last state

variable {frame : Bytes} {message : Message}

variable (parsed : parseMessage frame = .ok message)

include parsed

theorem isReady_iff : IsReady frame ↔ message.tag = .readyForQuery :=
  (parseMessage_tag_iff parsed (by decide : (code 'Z', Tag.readyForQuery) ∈ tagLetters)).symm

theorem carries_readyState (ready : isReadyForQuery message = .ok true) :
    IsReady frame ∧ Carries frame (readyState message) := by
  have payload : message.payload = frame.drop 5 := by rw [(parseMessage_eq parsed).1]
  unfold isReadyForQuery at ready
  split at ready
  · cases ready
  rename_i tag
  split at ready
  case isFalse => cases ready
  rename_i status
  refine ⟨(isReady_iff parsed).mpr (not_not.mp tag), ?_⟩
  rw [payload] at status
  unfold Carries readyState
  rw [payload]
  rcases status with idle | transaction | failed
  · exact .inl ⟨idle, by rw [idle]; rfl⟩
  · exact .inr (.inl ⟨transaction, by rw [transaction]; rfl⟩)
  · exact .inr (.inr ⟨failed, by rw [failed]; rfl⟩)

theorem not_isReady (notReady : isReadyForQuery message = .ok false) : ¬ IsReady frame := by
  rw [isReady_iff parsed]
  unfold isReadyForQuery at notReady
  split at notReady
  · assumption
  · split at notReady <;> cases notReady

omit parsed

/-! ## One frame -/

/-- Any exception of a `try` block is caught, so nothing is claimed about it. -/
def Caught (_ : Thrown) (_ : Link) : Prop := True

/-- What the treatment of a frame read over `base` leaves. -/
def FrameLeaves (base : Link) (frame : Bytes) (outcome : FrameOutcome) (link : Link) : Prop :=
  match outcome with
  | .finished _ => link.Retired
  | .next _ => link = base ∧ ¬ IsReady frame
  | .drained _ => ∃ state, link = { base with sessionState := state } ∧ IsReady frame ∧
      Carries frame state

variable {σ : Type} {env : Environment σ} {settings : Settings} {base : Link}
  {before : Link → Prop} {abrupt : Thrown → Link → Prop}

variable {kind : ResponseKind}

variable {progress : Progress} {expected : Bytes}

theorem cancellationActive_ensures :
    Ensures before (cancellationActive : Io σ Bool) (fun _ => before) abrupt :=
  (Ensures.get fun _ holds => holds : Ensures before _ (fun _ => before) abrupt).bind
    fun _ => .pure _ fun _ => id

theorem retireResult_leaves (result : BackendResult QueryResult) :
    Ensures before (retireResult env result) (FrameLeaves base frame) abrupt :=
  Ensures.markTransportFailed.bind fun _ => .pure _ fun _ => id

theorem Ensures.ofExcept {α : Type} {computation : Except Thrown α}
    (fails : ∀ failure link, before link → abrupt failure link) :
    Ensures before (Program.ofExcept computation : Io σ α)
      (fun value link => before link ∧ computation = .ok value) abrupt :=
  Program.Triple.ofExcept (fun _ isOk _ holds => ⟨holds, isOk⟩)
    fun failure _ session => fails failure session.toLink

theorem passes {α : Type} {computation : Except Thrown α} :
    Ensures before (Program.ofExcept computation : Io σ α)
      (fun value link => before link ∧ computation = .ok value) Caught :=
  .ofExcept fun _ _ _ => trivial

theorem retainFrame_leaves (parsed : parseMessage frame = .ok message) :
    Ensures (· = base) (retainFrame env kind progress message) (FrameLeaves base frame) Caught := by
  refine passes.bind fun ready => ?_
  refine knowing (fun _ holds => holds.2) fun isReady => ?_
  refine (Ensures.allocate fun _ _ => trivial).bind fun _ => ?_
  cases ready with
  | false => exact .pure _ fun link same => ⟨same.1, not_isReady parsed isReady⟩
  | true =>
    obtain ⟨tagged, carries⟩ := carries_readyState parsed isReady
    refine (Ensures.update _ fun session same => ?_ :
      Ensures _ _ (fun _ link => link = { base with sessionState := readyState message }) _).bind
      fun _ => ?_
    · rw [← same.1]
    split
    · exact retireResult_leaves _
    split
    · exact retireResult_leaves _
    · exact .pure _ fun link same => ⟨_, same, tagged, carries⟩

/-- Noting an error changes nothing else, and never drains. -/
theorem observeError_ensures : Ensures before (observeError env progress message)
      (fun outcome link => match outcome with
        | .finished result => link.Retired ∧ result.hasError = true
        | .next after => before link ∧ after = { progress with
                                                 queryError := after.queryError
                                                 queryErrorSqlstate := after.queryErrorSqlstate }
        | .drained _ => False) Caught := by
  unfold observeError
  split
  · exact .pure _ fun _ holds => ⟨holds, rfl⟩
  refine passes.bind fun terminal => ?_
  split
  · exact .throw _ fun _ _ => trivial
  refine passes.bind fun text => passes.bind fun sqlstate => ?_
  refine cancellationActive_ensures.bind fun active => ?_
  refine (onlyIf (.tell _)).bind fun _ => ?_
  split
  · exact Ensures.markTransportFailed.bind fun _ => .pure _ fun _ gone => ⟨gone, rfl⟩
  · exact .pure _ fun _ holds => ⟨holds.1.1.1, rfl⟩

theorem recordStatus_ensures :
    Ensures before (recordStatus message : Io σ (Except Failure Unit)) (fun _ => before) abrupt := by
  unfold recordStatus recordParameterStatus
  split
  · split
    · exact .pure _ fun _ => id
    · refine (quietly _ ?_).bind fun _ => .pure _ fun _ => id
      exact fun _ => rfl
  · exact .pure _ fun _ => id

theorem acceptFrame_leaves :
    Ensures (· = base) (acceptFrame env settings kind expected progress frame)
      (FrameLeaves base frame) Caught := by
  refine cancellationActive_ensures.bind fun active => ?_
  refine (onlyIf (.tell _)).bind fun _ => ?_
  refine (Ensures.allocate fun _ _ => trivial).bind fun _ => ?_
  refine passes.bind fun message => ?_
  refine knowing (fun _ holds => holds.2) fun parsed => ?_
  refine passes.bind fun _ => ?_
  split
  · exact Ensures.disconnect.bind fun _ => .pure _ fun _ => id
  split
  · exact retireResult_leaves _
  refine passes.bind fun checked => passes.bind fun expectedOk => ?_
  refine passes.bind fun counted => ?_
  rcases counted with _ | progress
  · exact retireResult_leaves _
  refine recordStatus_ensures.bind fun outcome => ?_
  rcases outcome with failure | _
  · exact retireResult_leaves _
  refine Ensures.bind (observeError_ensures.assuming fun _ holds => holds.1.1.1.1.1)
    fun outcome => ?_
  cases outcome with
  | finished result => exact .pure _ fun _ => And.left
  | next progress => exact (retainFrame_leaves parsed).assuming fun _ => And.left
  | drained progress => exact .pure _ fun _ impossible => impossible.elim

/-! ## What the loop retains -/

/-- What an accepted frame does to the locals of the loop: it is parsed, checked and
counted, and its message is kept. -/
def Progress.Retains (limits : ResultLimits) (kind : ResponseKind) (expected : Bytes)
    (progress : Progress) (frame : Bytes) (after : Progress) : Prop :=
  ∃ message checked completed counted, parseMessage frame = .ok message ∧
    checkAfterError progress message = .ok () ∧
    checkFrame kind progress message.tag = .ok checked ∧
    checkExpectedCompletion expected checked message = .ok completed ∧
    countFrame limits completed message = .ok (some counted) ∧
    after = { counted with
              messages := counted.messages ++ [message]
              sawCompletion := after.sawCompletion
              queryError := after.queryError
              queryErrorSqlstate := after.queryErrorSqlstate }

/-- An outcome ends the operation with an error, or goes on with locals in `kept`. -/
def FrameOutcome.Keeps (kept : Progress → Prop) : FrameOutcome → Prop
  | .finished result => result.hasError = true
  | .next progress | .drained progress => kept progress

theorem retireResult_keeps {kept : Progress → Prop} {result : BackendResult QueryResult}
    (failed : result.hasError = true) :
    Ensures before (retireResult env result) (fun outcome _ => outcome.Keeps kept) abrupt :=
  Ensures.markTransportFailed.bind fun _ => .pure _ fun _ _ => failed

theorem retainFrame_appends : Ensures before (retainFrame env kind progress message)
      (fun outcome _ => outcome.Keeps fun after =>
        after = { progress with
                  messages := progress.messages ++ [message]
                  sawCompletion := after.sawCompletion }) Caught := by
  refine passes.bind fun ready => ?_
  refine (Ensures.allocate fun _ _ => trivial).bind fun _ => ?_
  cases ready with
  | false => exact .pure _ fun _ _ => rfl
  | true =>
    refine (Ensures.update _ fun _ _ => trivial : Ensures _ _ (fun _ _ => True) _).bind
      fun _ => ?_
    split
    · exact retireResult_keeps rfl
    split
    · exact retireResult_keeps rfl
    · exact .pure _ fun _ _ => rfl

theorem acceptFrame_retains : Ensures before (acceptFrame env settings kind expected progress frame)
      (fun outcome _ => outcome.Keeps
        (progress.Retains settings.resultLimits kind expected frame)) Caught := by
  refine cancellationActive_ensures.bind fun active => ?_
  refine (onlyIf (.tell _)).bind fun _ => ?_
  refine (Ensures.allocate fun _ _ => trivial).bind fun _ => ?_
  refine passes.bind fun message => ?_
  refine knowing (fun _ holds => holds.2) fun parsed => ?_
  refine passes.bind fun _ => ?_
  refine knowing (fun _ holds => holds.2) fun afterError => ?_
  split
  · exact Ensures.disconnect.bind fun _ => .pure _ fun _ _ => rfl
  split
  · exact retireResult_keeps rfl
  refine passes.bind fun checked => ?_
  refine knowing (fun _ holds => holds.2) fun checks => ?_
  refine passes.bind fun completed => ?_
  refine knowing (fun _ holds => holds.2) fun completes => ?_
  refine passes.bind fun counted => ?_
  refine knowing (fun _ holds => holds.2) fun counts => ?_
  rcases counted with _ | counted
  · exact retireResult_keeps rfl
  refine recordStatus_ensures.bind fun outcome => ?_
  rcases outcome with failure | _
  · exact retireResult_keeps rfl
  refine observeError_ensures.bind fun outcome => ?_
  cases outcome with
  | finished result => exact .pure _ fun _ => And.right
  | drained noted => exact .pure _ fun _ impossible => impossible.elim
  | next noted =>
    refine knowing (fun _ => And.right) fun notes => ?_
    have retained (after : Progress)
        (appended : after = { noted with
                              messages := noted.messages ++ [message]
                              sawCompletion := after.sawCompletion }) :
        progress.Retains settings.resultLimits kind expected frame after := by
      refine ⟨message, checked, completed, counted, parsed, afterError, checks,
        completes, counts, ?_⟩
      rw [notes] at appended
      rw [appended]
    refine retainFrame_appends.concluding ?_
    intro outcome _ appends
    cases outcome with
    | finished result => exact appends
    | next after | drained after => exact retained after appends

/-- The handlers of a `try` block retire the connection. -/
theorem retireOnThrow_ensures {α : Type} {report : BackendResult QueryResult → α} {body : Io σ α}
    {normal : α → Link → Prop} (tries : Ensures before body normal Caught)
    (retires : ∀ result link, result.hasError = true → link.Retired → normal (report result) link) :
    Ensures before (retireOnThrow env report body) normal abrupt := by
  refine tries.tryCatch fun thrown => ?_
  refine Ensures.markTransportFailed.bind fun _ => ?_
  cases thrown with
  | badAlloc => exact .pure _ fun link retired => retires _ link rfl retired
  | _ => exact .pure _ fun link retired => retires _ link rfl retired

/-! ## A whole response -/

/-- The locals of the loop after it has accepted `frames`. -/
inductive Retained (limits : ResultLimits) (kind : ResponseKind) (expected : Bytes) :
    List Bytes → Progress → Prop where
  | nothing : Retained limits kind expected [] {}
  | frame {frames frame progress after}
      (earlier : Retained limits kind expected frames progress)
      (retains : Progress.Retains limits kind expected
        { progress with wireBytes := progress.wireBytes + frame.length } frame after) :
      Retained limits kind expected (frames ++ [frame]) after

/-- The reading loop fails and retires the connection, or consumes a whole response,
all of which it has retained. -/
theorem readFrames_retains {deadline remaining seen} (faults : Tolerates base abrupt)
    (complete : ∀ frame ∈ seen, CompleteFrame frame) (ordinary : ∀ frame ∈ seen, ¬ IsReady frame)
    (retained : Retained settings.resultLimits kind expected seen progress) :
    Ensures (· = base.receive seen.flatten)
      (readFrames env settings deadline kind expected remaining progress)
      (fun result link => match result with
        | .inl result => link.Retired ∧ result.hasError = true
        | .inr progress => ∃ frames state, Drained frames state ∧
            Retained settings.resultLimits kind expected frames progress ∧
            link = { base.receive frames.flatten with sessionState := state }) abrupt := by
  induction remaining generalizing progress seen with
  | zero => exact Ensures.markTransportFailed.bind fun _ => .pure _ fun _ retired => ⟨retired, rfl⟩
  | succ remaining ih =>
    have standing : Tolerates (base.receive seen.flatten) abrupt := faults
    refine (readMessageResult_ensures standing).bind fun result => ?_
    rcases result with failure | frame
    · exact .pure _ fun _ retired => ⟨retired, rfl⟩
    refine knowing (fun _ reports => reports.1) fun frameComplete => ?_
    have accumulated : (base.receive seen.flatten).receive frame =
        base.receive (seen ++ [frame]).flatten := by
      simp [Link.receive, List.append_assoc]
    have allComplete : ∀ other ∈ seen ++ [frame], CompleteFrame other := by
      exact forall_mem_concat complete frameComplete
    have accepted (progress : Progress) :
        Ensures (· = base.receive (seen ++ [frame]).flatten)
          (retireOnThrow env .finished (acceptFrame env settings kind expected progress frame))
          (fun outcome link =>
            FrameLeaves (base.receive (seen ++ [frame]).flatten) frame outcome link ∧
              outcome.Keeps (progress.Retains settings.resultLimits kind expected frame))
          abrupt :=
      retireOnThrow_ensures ((acceptFrame_leaves.and acceptFrame_retains).consequence
        (fun _ same => ⟨same, same⟩) (fun _ _ => id) (fun _ _ _ => trivial))
        fun _ _ failed retired => ⟨retired, failed⟩
    refine Ensures.bind ((accepted _).assuming ?_) fun outcome => ?_
    · exact fun link reports => reports.2.trans accumulated
    cases outcome with
    | finished result => exact .pure _ fun _ => id
    | next progress =>
      refine knowing (fun _ holds => holds.1.2) fun notReady => ?_
      refine knowing (fun _ holds => holds.2) fun retains => ?_
      refine (@ih _ (seen ++ [frame]) allComplete ?_ (.frame retained retains)).assuming
        fun _ holds => holds.1.1
      exact forall_mem_concat ordinary notReady
    | drained progress =>
      refine .pure _ fun link holds => ?_
      obtain ⟨⟨state, same, ready, carries⟩, retains⟩ := holds
      exact ⟨seen ++ [frame], state,
        ⟨allComplete, seen, frame, rfl, ordinary, ready, carries⟩,
        .frame retained retains, same⟩

theorem drainCancellation_ensures {settled : Link → Prop}
    (retires : ∀ link, link.Retired → settled link) :
    Ensures settled (drainCancellation env) (fun _ => settled) abrupt := by
  refine cancellationActive_ensures.bind fun active => .onlyIf ?_
  refine (Ensures.ask env.drained).bind fun outcome => ?_
  refine (quietly _ ?_).bind fun _ => .onlyIf ?_
  · exact fun _ => rfl
  · exact Ensures.markTransportFailed.concluding (fun _ link retired => retires link retired)

variable {backend : Backend} {resolve : List Nat → Io σ (BackendResult ResolvedTypeMap)}
  {settled : Link → Prop} {deadline : Nat} {parsed : ParsedResult}

variable (resolves : ∀ ids, Ensures settled (resolve ids) (fun _ => settled) Caught)

include resolves

theorem normalizeParameterTypes_ensures :
    Ensures settled (normalizeParameterTypes resolve kind parsed) (fun _ => settled) Caught := by
  unfold normalizeParameterTypes
  split
  · exact .pure _ fun _ => id
  refine (resolves _).bind fun result => ?_
  cases result with
  | error failure => exact .pure _ fun _ => id
  | value types session =>
    dsimp only
    split
    · exact .pure _ fun _ => id
    · exact (Ensures.get fun _ holds => holds : Ensures settled _ (fun _ => settled) Caught).bind
        fun _ => .pure _ fun _ => id

theorem normalizeItem_ensures :
    Ensures settled (normalizeItem env settings backend resolve kind parsed) (fun _ => settled)
      Caught := by
  refine (Ensures.get fun _ holds => holds : Ensures settled _ (fun _ => settled) Caught).bind
    fun _ => ?_
  refine (quietly _ ?_).bind fun _ => ?_
  · exact fun _ => rfl
  refine (Ensures.allocate fun _ _ => trivial).bind fun _ => ?_
  refine (quietly _ ?_).bind fun _ => ?_
  · exact fun _ => rfl
  refine (normalizeParameterTypes_ensures resolves).bind fun result => ?_
  cases result with
  | error failure | ok types => exact .pure _ fun _ => id

theorem normalizeItems_ensures {items} :
    Ensures settled (normalizeItems env settings backend resolve kind items) (fun _ => settled)
      Caught := by
  induction items with
  | nil => exact .pure _ fun _ => id
  | cons parsed rest ih =>
    refine (normalizeItem_ensures resolves).bind fun result => ?_
    cases result with
    | error failure => exact .pure _ fun _ => id
    | ok item =>
      refine ih.bind fun result => ?_
      cases result with
      | error failure | ok items => exact .pure _ fun _ => id

omit resolves

theorem publishNormalized_ensures {normalized}
    (retires : ∀ link, link.Retired → settled link) :
    Ensures settled (publishNormalized env deadline kind progress normalized) (fun _ => settled)
      Caught := by
  unfold publishNormalized
  dsimp only
  split
  · exact .pure _ fun _ => id
  refine (Ensures.ask env.now).bind fun instant => ?_
  split
  · exact Ensures.markTransportFailed.bind fun _ => .pure _ retires
  · exact .pure _ fun _ => id

theorem declineDescription_ensures {parameters parsed}
    (retires : ∀ link, link.Retired → settled link) :
    Ensures settled (declineDescription env deadline parameters parsed) (fun _ => settled)
      Caught := by
  unfold declineDescription
  split
  · exact Ensures.markTransportFailed.bind fun _ => .pure _ retires
  refine (Ensures.ask env.now).bind fun instant => ?_
  split
  · exact Ensures.markTransportFailed.bind fun _ => .pure _ retires
  · exact .pure _ fun _ => id

theorem publishResponse_ensures (retires : ∀ link, link.Retired → settled link)
    (resolves : ∀ ids, Ensures settled (resolve ids) (fun _ => settled) Caught) :
    Ensures settled (publishResponse env settings backend resolve deadline kind progress)
      (fun _ => settled) Caught := by
  refine (Ensures.allocate fun _ _ => trivial).bind fun _ => ?_
  refine Ensures.bind (passes.concluding (fun _ _ holds => holds.1)) fun result => ?_
  split
  · exact .pure _ fun _ => id
  split
  · exact .pure _ fun _ => id
  split
  · exact Ensures.markTransportFailed.bind fun _ => .pure _ retires
  split
  · exact .pure _ fun _ => id
  split
  · exact declineDescription_ensures retires
  refine (normalizeItem_ensures resolves).bind fun primary => ?_
  rcases primary with failure | primary
  · exact .pure _ fun _ => id
  refine (normalizeItems_ensures resolves).bind fun items => ?_
  cases items with
  | error failure => exact .pure _ fun _ => id
  | ok items => exact publishNormalized_ensures retires

def Published (settings : Settings) (kind : ResponseKind) (expected : Bytes) (frames : List Bytes)
    (value : QueryResult) : Prop :=
  ∃ progress, Retained settings.resultLimits kind expected frames progress ∧
    Publishes settings.profile progress.messages value

/-- A response is drained before anything else is sent, or the connection is retired. What holds of
a drained link must survive type resolution. -/
theorem readQueryResult_answers {settled : Link → Link → Prop}
    (faults : Tolerates base abrupt) (drained : ∀ link, settled link link)
    (retires : ∀ start link, link.Retired → settled start link)
    (resolves : ∀ start, start.connected = base.connected → ∀ ids,
      Ensures (settled start) (resolve ids) (fun _ => settled start) Caught) :
    Ensures (· = base) (readQueryResult env settings backend resolve deadline kind expected)
      (fun result link => link.Retired ∧ result.hasError = true ∨
        ∃ frames state, Drained frames state ∧
          settled { base.receive frames.flatten with sessionState := state } link ∧
          ∀ value session, result = .value value session →
            Published settings kind expected frames value) abrupt := by
  have start : ∀ link, link = base → link = base.receive ([] : List Bytes).flatten := by
    rintro link rfl
    simp [Link.receive]
  refine ((readFrames_retains faults (by simp) (by simp) .nothing).assuming start).bind
    fun result => ?_
  cases result with
  | inl result => exact .pure _ fun _ retired => .inl retired
  | inr progress =>
    -- The drained frames are the same for every link the loop may end in.
    refine Ensures.each fun link reached => ?_
    obtain ⟨frames, state, whole, retained, rfl⟩ := reached
    have published : Ensures
        (settled { base.receive frames.flatten with sessionState := state })
        (retireOnThrow env id (publishResponse env settings backend resolve deadline kind progress))
        (fun result link => settled { base.receive frames.flatten with sessionState := state } link ∧
          ∀ value session, result = .value value session →
            Publishes settings.profile progress.messages value)
        abrupt := by
      refine retireOnThrow_ensures (Ensures.consequence (Ensures.and
        (publishResponse_ensures (retires _)
          (resolves { base.receive frames.flatten with sessionState := state } rfl))
        publishResponse_publishes)
        (fun _ holds => ⟨holds, holds⟩) (fun _ _ => id) (fun _ _ _ => trivial)) ?_
      intro result link failed retired
      refine ⟨retires _ link retired, fun value session isValue => ?_⟩
      rw [show result = .value value session from isValue] at failed
      cases failed
    refine Ensures.bind ((drainCancellation_ensures (retires _)).assuming ?_) fun _ =>
      published.concluding (fun _ link holds => .inr ⟨frames, state, whole, holds.1, fun value session isValue =>
          ⟨progress, retained, holds.2 value session isValue⟩⟩)
    rintro link rfl
    exact drained _

end Odbcpp.Connection
