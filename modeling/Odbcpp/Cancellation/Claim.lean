import Odbcpp.Cancellation.Endpoint

/-!
# The claim

At most one thread gets past the claim, so at most one secondary exchange is started.
The errors of the main connection are ordered with the claim: one that was seen before
it prevents the claim, and in a phase that the owner announced, the first one after it
decides whether the query was cancelled.
-/

namespace Odbcpp.Cancellation

open Foundation List
open PgCancellation (abandon escape concludeExchange errorObserved)

/-! ## What a request can do -/

/-- The ways a step of `request` can go. -/
inductive RequestMove (endpoint : PgCancellation) :
    Stage → List Event → PgCancellation → Stage → Prop where
  | refused : RequestMove endpoint .idle [] endpoint .idle
  /-- A claim outside of a phase on the wire is settled at once. -/
  | settled (unclaimed : endpoint.claimed = false) (errorFree : endpoint.errorBeforeClaim = false)
      (isOpen : endpoint.sealed = false) (late confirmed : Bool) :
      RequestMove endpoint .idle [.claimed]
        { endpoint with
          claimed := true, localAfterReady := late, secondaryDone := true, secondaryOk := true,
          confirmed } .idle
  | queued (unclaimed : endpoint.claimed = false) (errorFree : endpoint.errorBeforeClaim = false)
      (isOpen : endpoint.sealed = false) (writing : endpoint.phase = .writing) :
      RequestMove endpoint .idle [.claimed] { endpoint with claimed := true } .waiting
  | started (unclaimed : endpoint.claimed = false) (errorFree : endpoint.errorBeforeClaim = false)
      (isOpen : endpoint.sealed = false) (running : endpoint.phase = .running) :
      RequestMove endpoint .idle [.exchangeStarted, .claimed] { endpoint with claimed := true }
        .exchanging
  | overtaken : RequestMove endpoint .waiting [] { endpoint with secondaryDone := true } .idle
  | resumed (running : endpoint.phase = .running) :
      RequestMove endpoint .waiting [.exchangeStarted] endpoint .exchanging
  | expired : RequestMove endpoint .waiting [] endpoint.abandon .idle
  | escaped : RequestMove endpoint .exchanging [] endpoint.escape (.sending 16)
  | sent {remaining} (left : Nat) :
      RequestMove endpoint (.sending remaining) [.cancelBytes] endpoint (.sending left)
  | concluded {stage} (exchanging : stage ≠ .idle ∧ stage ≠ .waiting) (ok : Bool) :
      RequestMove endpoint stage [.exchanged ok] (endpoint.concludeExchange ok) .idle
  | aborted {stage} (exchanging : stage ≠ .idle ∧ stage ≠ .waiting) :
      RequestMove endpoint stage [.exchanged false] endpoint.abandon .idle

theorem RequestMove.idle_cases {endpoint after events next}
    (move : RequestMove endpoint .idle events after next) :
    (events = [] ∧ after = endpoint ∧ next = .idle) ∨ endpoint.claimed = false := by
  cases move with
  | refused => exact .inl ⟨rfl, rfl, rfl⟩
  | settled unclaimed | queued unclaimed | started unclaimed => exact .inr unclaimed
  | concluded exchanging ok | aborted exchanging => exact absurd rfl exchanging.1

theorem PgCancellation.request_move (endpoint : PgCancellation) (frozen : Bool) :
    RequestMove endpoint .idle (requestEvents endpoint (endpoint.request frozen))
      (endpoint.request frozen).1 (endpoint.request frozen).2.stage := by
  have returns (result : Bool) : RequestMove endpoint .idle
      (requestEvents endpoint (endpoint, .returned result)) endpoint .idle := by
    simpa [requestEvents] using RequestMove.refused
  unfold PgCancellation.request
  split
  · exact returns _
  split
  · exact returns _
  rename_i isOpen
  rw [Bool.not_eq_true] at isOpen
  split
  · exact returns _
  rename_i discovering
  split
  · exact returns _
  rename_i errorFree
  rw [Bool.not_eq_true] at errorFree
  split
  · exact returns _
  rename_i unclaimed
  rw [Bool.not_eq_true] at unclaimed
  split
  · exact returns _
  split
  · simpa [requestEvents, unclaimed] using
      RequestMove.settled unclaimed errorFree isOpen true endpoint.confirmed
  · simpa [requestEvents, unclaimed] using
      RequestMove.settled unclaimed errorFree isOpen endpoint.localAfterReady true
  · simpa [requestEvents, unclaimed] using
      RequestMove.queued unclaimed errorFree isOpen (by assumption)
  · simpa [requestEvents, unclaimed] using
      RequestMove.started unclaimed errorFree isOpen (by assumption)
  · exact absurd (by assumption) discovering

theorem RequestStep.move {endpoint after stage next events}
    (acts : RequestStep endpoint stage events after next) :
    RequestMove endpoint stage events after next := by
  cases acts with
  | enter frozen => exact endpoint.request_move frozen
  | wake awake =>
    unfold PgCancellation.wake
    split
    · simpa [requestEvents] using RequestMove.overtaken
    · rename_i running
      simpa [requestEvents] using RequestMove.resumed (by simpa using running)
  | expire writing => exact .expired
  | refuse => exact .concluded (by simp) false
  | escape => exact .escaped
  | send taken within => exact .sent _
  | conclude ok complete => exact .concluded (by simp) ok
  | abort exchanging => exact .aborted exchanging

/-! ## What the owner leaves to the requests -/

def Event.ofRequest : Event → Bool
  | .claimed | .exchangeStarted | .cancelBytes | .exchanged _ => true
  | _ => false

/-- The owner changes nothing about the claim. -/
structure SameClaim (endpoint after : PgCancellation) : Prop where
  claimed : after.claimed = endpoint.claimed
  secondaryDone : after.secondaryDone = endpoint.secondaryDone
  secondaryOk : after.secondaryOk = endpoint.secondaryOk
  escaped : after.escaped = endpoint.escaped

variable {endpoint after : PgCancellation} {owner next : Position} {stage : Stage}
  {events history : List Event}

theorem sameClaim_nextPhase (endpoint : PgCancellation) :
    SameClaim endpoint endpoint.nextPhase.1 := by
  have confirm : SameClaim endpoint endpoint.confirmLocal := by
    unfold PgCancellation.confirmLocal
    split <;> exact ⟨rfl, rfl, rfl, rfl⟩
  unfold PgCancellation.nextPhase
  split
  · exact confirm
  · exact ⟨confirm.1, confirm.2, confirm.3, confirm.4⟩

theorem OwnerStep.sameClaim (acts : OwnerStep endpoint owner events after next) :
    SameClaim endpoint after := by
  cases acts with
  | beforeWire => unfold PgCancellation.beforeWire; split <;> exact ⟨rfl, rfl, rfl, rfl⟩
  | enterResolver => unfold PgCancellation.enterResolver; split <;> exact ⟨rfl, rfl, rfl, rfl⟩
  | leaveResolver => unfold PgCancellation.leaveResolver; split <;> exact ⟨rfl, rfl, rfl, rfl⟩
  | nextPhase => exact sameClaim_nextPhase endpoint
  | concludeSeal => unfold PgCancellation.concludeSeal; split <;> exact ⟨rfl, rfl, rfl, rfl⟩
  | _ => exact ⟨rfl, rfl, rfl, rfl⟩

theorem OwnerStep.events_own (acts : OwnerStep endpoint owner events after next) :
    ∀ event ∈ events, event.ofRequest = false := by
  cases acts <;> simp [Event.ofRequest]

/-! ## The claim -/

/-- How the claim, the stage of the one thread that holds it, and the history go
together. -/
structure Claim (endpoint : PgCancellation) (stage : Stage) (history : List Event) : Prop where
  fresh : endpoint.claimed = false → endpoint.secondaryDone = false
  held : stage ≠ .idle → endpoint.claimed = true ∧ endpoint.secondaryDone = false
  pending : endpoint.claimed = false ∨ stage = .waiting → .exchangeStarted ∉ history
  once : history.count .exchangeStarted ≤ 1
  sending : ∀ remaining, stage = .sending remaining → endpoint.escaped = true
  bytes : .cancelBytes ∈ history → endpoint.escaped = true
  escaped : endpoint.escaped = true → endpoint.claimed = true
  done : endpoint.secondaryOk = true → endpoint.secondaryDone = true
  exchanged : endpoint.escaped = true → endpoint.secondaryOk = true → .exchanged true ∈ history

theorem Claim.own (holds : Claim endpoint stage history)
    (acts : OwnerStep endpoint owner events after next) :
    Claim after stage (events ++ history) := by
  have same := acts.sameClaim
  have absent (event : Event) (isRequest : event.ofRequest = true) : event ∉ events := by
    intro isNew
    simp [acts.events_own event isNew] at isRequest
  have started := absent .exchangeStarted rfl
  refine ⟨?_, ?_, ?_, ?_, ?_, ?_, ?_, ?_, ?_⟩
  · simpa [same.claimed, same.secondaryDone] using holds.fresh
  · simpa [same.claimed, same.secondaryDone] using holds.held
  · simpa [same.claimed, started] using holds.pending
  · simpa [count_eq_zero.mpr started] using holds.once
  · simpa [same.escaped] using holds.sending
  · simpa [same.escaped, absent .cancelBytes rfl] using holds.bytes
  · simpa [same.escaped, same.claimed] using holds.escaped
  · simpa [same.secondaryDone, same.secondaryOk] using holds.done
  · simpa [same.escaped, same.secondaryOk, absent (.exchanged true) rfl] using holds.exchanged

theorem Claim.unescaped (holds : Claim endpoint stage history)
    (unclaimed : endpoint.claimed = false) : endpoint.escaped = false := by
  by_contra isEscaped
  simp [holds.escaped (by simpa using isEscaped)] at unclaimed

theorem Claim.move {following : Stage} (holds : Claim endpoint stage history)
    (move : RequestMove endpoint stage events after following) :
    Claim after following (events ++ history) := by
  have once := holds.once
  have bytes := holds.bytes
  have escaped := holds.escaped
  have done := holds.done
  cases move with
  | refused => exact holds
  | settled unclaimed errorFree isOpen late confirmed =>
    have unescaped := holds.unescaped unclaimed
    exact ⟨by simp, by simp, by simp, by simpa using once, by simp, by simpa using bytes, by simp,
      by simp, by simp [unescaped]⟩
  | queued unclaimed errorFree isOpen writing =>
    have never := holds.pending (.inl unclaimed)
    exact ⟨by simp, by simpa using holds.fresh unclaimed, by simpa using never,
      by simpa using once, by simp, by simpa using bytes, by simp, done,
      by simpa using holds.exchanged⟩
  | started unclaimed errorFree isOpen running =>
    have never := count_eq_zero.mpr (holds.pending (.inl unclaimed))
    exact ⟨by simp, by simpa using holds.fresh unclaimed, by simp, by simp [never], by simp,
      by simpa using bytes, by simp, done, by simpa using holds.exchanged⟩
  | overtaken =>
    obtain ⟨claimed, -⟩ := holds.held (by simp)
    exact ⟨by simp [claimed], by simp, by simp [claimed], once, by simp, bytes, escaped, by simp,
      holds.exchanged⟩
  | resumed running =>
    obtain ⟨claimed, waiting⟩ := holds.held (by simp)
    have never := count_eq_zero.mpr (holds.pending (.inr rfl))
    exact ⟨by simp [claimed], by simp [claimed, waiting], by simp [claimed], by simp [never],
      by simp, by simpa using bytes, escaped, done, by simpa using holds.exchanged⟩
  | expired =>
    obtain ⟨claimed, -⟩ := holds.held (by simp)
    exact ⟨by simp [abandon, claimed], by simp,
      by simp [abandon, claimed], once, by simp, bytes, escaped,
      by simp [abandon], holds.exchanged⟩
  | escaped =>
    obtain ⟨claimed, waiting⟩ := holds.held (by simp)
    have failed : endpoint.secondaryOk = false := by
      by_contra ok
      simp [done (by simpa using ok)] at waiting
    exact ⟨by simp [escape, claimed], by simp [escape, claimed, waiting],
      by simp [escape, claimed], once, by simp [escape],
      by simp [escape], by simp [escape, claimed], done,
      by simp [escape, failed]⟩
  | sent left =>
    obtain ⟨claimed, waiting⟩ := holds.held (by simp)
    have isEscaped := holds.sending _ rfl
    exact ⟨holds.fresh, by simp [claimed, waiting], by simp [claimed], by simpa using once,
      by simp [isEscaped], by simp [isEscaped], escaped, done, by simpa using holds.exchanged⟩
  | concluded exchanging ok =>
    obtain ⟨claimed, waiting⟩ := holds.held exchanging.1
    exact ⟨by simp [concludeExchange, claimed], by simp,
      by simp [concludeExchange, claimed], by simpa using once, by simp,
      by simpa [concludeExchange] using bytes,
      by simpa [concludeExchange] using escaped,
      by simp [concludeExchange],
      by simp +contextual [concludeExchange]⟩
  | aborted exchanging =>
    obtain ⟨claimed, waiting⟩ := holds.held exchanging.1
    exact ⟨by simp [abandon, claimed], by simp,
      by simp [abandon, claimed], by simpa using once, by simp,
      by simpa [abandon] using bytes,
      by simpa [abandon] using escaped,
      by simp [abandon],
      by simpa [abandon] using holds.exchanged⟩

/-! ## The claim and the errors of the main connection -/

/-- The events that decide whether an error answers the claim. -/
def Event.traced : Event → Bool
  | .claimed | .latched | .observed _ => true
  | _ => false

/-- The claim and the errors, newest first. -/
def trace (history : List Event) : List Event := history.filter Event.traced

@[simp] theorem trace_append : trace (events ++ history) = trace events ++ trace history :=
  filter_append ..

/-- An error that cancels the query is the first one after the claim. -/
def cancelledTrace : List Event := [.observed (ascii "57014"), .latched, .claimed]

/-- What has happened since a claim by the time the owner is somewhere in a phase it
announced. -/
def Position.Expects (endpoint : PgCancellation) (traced : List Event) : Position → Prop
  | .writing | .reading true =>
    traced = [.claimed] ∧ endpoint.errorSeen = false ∧ endpoint.cancelledError = false
  | .latched true => traced = [.latched, .claimed]
  | .reported true | .draining true =>
    endpoint.cancelledError = true → traced = cancelledTrace
  | _ => True

/-- How the error flags go together with the claim and the errors so far. -/
structure Traced (endpoint : PgCancellation) (owner : Position) (traced : List Event) : Prop where
  unclaimed : endpoint.claimed = false →
    endpoint.cancelledError = false ∧ endpoint.errorBeforeClaim = endpoint.errorSeen ∧
      (endpoint.errorSeen = false → traced = [])
  claimed : endpoint.claimed = true → endpoint.errorBeforeClaim = false
  seen : ∀ sent, owner = .latched sent ∨ owner = .reported sent → endpoint.errorSeen = true
  expects : endpoint.claimed = true → owner.Expects endpoint traced

/-- A request touches neither phase nor error flags, and claims only while no error was
seen. -/
structure KeepsErrors (endpoint : PgCancellation) (events : List Event) (after : PgCancellation) :
    Prop where
  phase : after.phase = endpoint.phase
  sealed : after.sealed = endpoint.sealed
  errorSeen : after.errorSeen = endpoint.errorSeen
  errorBeforeClaim : after.errorBeforeClaim = endpoint.errorBeforeClaim
  cancelledError : after.cancelledError = endpoint.cancelledError
  claims : (after.claimed = endpoint.claimed ∧ trace events = []) ∨
    (endpoint.claimed = false ∧ endpoint.errorBeforeClaim = false ∧ after.claimed = true ∧
      trace events = [.claimed])

theorem RequestMove.keepsErrors {following : Stage}
    (move : RequestMove endpoint stage events after following) :
    KeepsErrors endpoint events after := by
  cases move with
  | settled unclaimed errorFree isOpen late confirmed
  | queued unclaimed errorFree isOpen writing
  | started unclaimed errorFree isOpen running =>
    exact ⟨rfl, rfl, rfl, rfl, rfl, .inr ⟨unclaimed, errorFree, rfl, rfl⟩⟩
  | _ => exact ⟨rfl, rfl, rfl, rfl, rfl, .inl ⟨rfl, rfl⟩⟩

theorem Traced.move {following : Stage} (holds : Traced endpoint owner (trace history))
    (move : RequestMove endpoint stage events after following) :
    Traced after owner (trace (events ++ history)) := by
  obtain ⟨-, -, errorSeen, errorBeforeClaim, cancelledError, claims⟩ := move.keepsErrors
  rcases claims with ⟨same, nothing⟩ | ⟨unclaimed, errorFree, isClaimed, marked⟩
  · refine ⟨?_, ?_, ?_, fun isClaimed => ?_⟩
    · simpa [same, nothing, cancelledError, errorBeforeClaim, errorSeen] using holds.unclaimed
    · simpa [same, errorBeforeClaim] using holds.claimed
    · simpa [errorSeen] using holds.seen
    have expected := holds.expects (same ▸ isClaimed)
    revert expected
    simp only [trace_append, nothing, nil_append]
    unfold Position.Expects
    split <;> simp [errorSeen, cancelledError]
  · obtain ⟨uncancelled, before, silent⟩ := holds.unclaimed unclaimed
    have unseen : endpoint.errorSeen = false := before ▸ errorFree
    refine ⟨by simp [isClaimed], by simp [errorBeforeClaim, errorFree], ?_, fun _ => ?_⟩
    · simpa [errorSeen] using holds.seen
    simp only [trace_append, marked, silent unseen]
    unfold Position.Expects
    split
    · simp [errorSeen, cancelledError, unseen, uncancelled]
    · simp [errorSeen, cancelledError, unseen, uncancelled]
    · have := holds.seen true (.inl rfl)
      simp [unseen] at this
    · simp [cancelledError, uncancelled]
    · simp [cancelledError, uncancelled]
    · trivial

theorem Traced.observe {traced} (holds : Traced endpoint owner traced)
    (nativeState : Bytes) (event : Event) (expects : endpoint.claimed = true →
      next.Expects (endpoint.errorObserved nativeState) (event :: traced)) :
    Traced (endpoint.errorObserved nativeState) next (event :: traced) := by
  refine ⟨fun unclaimed => ?_, fun claimed => ?_, fun _ _ => rfl, expects⟩
  · have isUnclaimed : endpoint.claimed = false := unclaimed
    obtain ⟨-, before, -⟩ := holds.unclaimed isUnclaimed
    simp [errorObserved, isUnclaimed, before]
  · have isClaimed : endpoint.claimed = true := claimed
    simp [errorObserved, isClaimed, holds.claimed isClaimed]

theorem Traced.proceed {traced} (holds : Traced endpoint owner traced)
    (same : after.claimed = endpoint.claimed ∧ after.errorSeen = endpoint.errorSeen ∧
      after.errorBeforeClaim = endpoint.errorBeforeClaim ∧
      after.cancelledError = endpoint.cancelledError)
    (seen : ∀ sent, next = .latched sent ∨ next = .reported sent → owner = next)
    (expects : endpoint.claimed = true → next.Expects after traced) : Traced after next traced := by
  obtain ⟨claimed, errorSeen, errorBeforeClaim, cancelledError⟩ := same
  refine ⟨?_, ?_, fun sent reading => ?_, fun isClaimed => expects (claimed ▸ isClaimed)⟩
  · simpa [claimed, errorSeen, errorBeforeClaim, cancelledError] using holds.unclaimed
  · simpa [claimed, errorBeforeClaim] using holds.claimed
  · rw [errorSeen]
    exact holds.seen sent (seen sent reading ▸ reading)

/-- By the end of an announced phase, a cancelled query is one whose first error after the
claim says so. -/
theorem Traced.cancelled {traced} (holds : Traced endpoint owner traced)
    (read : owner = .reading true ∨ owner = .reported true ∨ owner = .draining true)
    (claimed : endpoint.claimed = true) (cancelled : endpoint.cancelledError = true) :
    traced = cancelledTrace := by
  have expected := holds.expects claimed
  rcases read with rfl | rfl | rfl
  · simp [Position.Expects, cancelled] at expected
  · exact expected cancelled
  · exact expected cancelled

theorem Traced.own (holds : Traced endpoint owner (trace history))
    (acts : OwnerStep endpoint owner events after next) :
    Traced after next (trace (events ++ history)) := by
  cases acts with
  | beforeWire =>
    unfold PgCancellation.beforeWire
    split
    · exact holds
    · rename_i free
      exact holds.proceed ⟨rfl, rfl, rfl, rfl⟩ (by simp) (fun claimed => by simp [claimed] at free)
  | sent => exact holds.proceed ⟨rfl, rfl, rfl, rfl⟩ (by simp) holds.expects
  | describe | startSeal free waits | sealAtOnce free done =>
    exact holds.proceed ⟨rfl, rfl, rfl, rfl⟩ (by simp) fun _ => trivial
  | @latch sent =>
    refine holds.observe [] .latched fun claimed => ?_
    cases sent with
    | false => trivial
    | true => simp [Position.Expects, (holds.expects claimed).1]
  | @report sent nativeState terminal =>
    refine holds.observe nativeState (.observed nativeState) fun claimed => ?_
    cases terminal with
    | true => trivial
    | false =>
      cases sent with
      | false => trivial
      | true =>
        have latched : trace history = [.latched, .claimed] := holds.expects claimed
        intro cancelled
        simp only [errorObserved, Bool.and_eq_true, decide_eq_true_eq] at cancelled
        rw [latched, cancelled.2, cancelledTrace]
  | latchAgain => exact holds.observe [] .latched fun _ => trivial
  | reportAgain nativeState => exact holds.observe nativeState (.observed nativeState) fun _ => trivial
  | @drain _ sent read waits =>
    refine holds.proceed ⟨rfl, rfl, rfl, rfl⟩ (by simp) fun claimed => ?_
    cases sent with
    | false => trivial
    | true => exact fun cancelled => holds.cancelled (read.imp_right .inl) claimed cancelled
  | drainAtOnce read free legalReady timely | concludeDrain legalReady timely =>
    exact holds.proceed ⟨rfl, rfl, rfl, rfl⟩ (by unfold afterDrained; split <;> simp)
      fun _ => by unfold afterDrained; split <;> trivial
  | enterResolver rests =>
    unfold PgCancellation.enterResolver
    split
    · exact holds
    · exact holds.proceed ⟨rfl, rfl, rfl, rfl⟩ (by simp) fun _ => trivial
  | leaveResolver resolving =>
    refine holds.proceed ?_ (by split <;> simp) fun _ => by split <;> trivial
    unfold PgCancellation.leaveResolver
    split <;> exact ⟨rfl, rfl, rfl, rfl⟩
  | nextPhase rests =>
    refine holds.proceed ?_ (by split <;> simp) fun _ => by split <;> trivial
    unfold PgCancellation.nextPhase PgCancellation.confirmLocal
    split <;> split <;> exact ⟨rfl, rfl, rfl, rfl⟩
  | concludeSeal =>
    refine holds.proceed ?_ (by simp) fun _ => trivial
    unfold PgCancellation.concludeSeal
    split <;> exact ⟨rfl, rfl, rfl, rfl⟩

end Odbcpp.Cancellation
