import Odbcpp.Cancellation.Claim

/-!
# Containment of a cancellation

A drain that does not retire the session leaves no exchange behind, and packets are
sent again only in a phase that the owner sends afterwards; if one was sent before, the
cancellation is confirmed by its outcome and by the error the query ended with.
-/

namespace Odbcpp.Cancellation

open Foundation List
open PgCancellation (concludeDrained beginDrained beginSeal)

section

variable {endpoint after : PgCancellation} {owner next : Position} {stage following : Stage}
  {events history : List Event}

/-! ## Phases that are over -/

/-- Every phase that was sent has been drained. -/
def settled : List Event → Bool
  | [] => true
  | .sent :: _ => false
  | .drained _ :: _ => true
  | _ :: earlier => settled earlier

/-- No exchange is under way, and none can start before the owner sends. -/
def Quiet (endpoint : PgCancellation) (stage : Stage) : Prop :=
  endpoint.phase ≠ .running ∧ (stage = .idle ∨ stage = .waiting)

/-- A packet that may have been sent did what it was for: the exchange succeeded, and the first
error after the claim is the cancellation. -/
def Answered (history : List Event) : Prop :=
  .exchanged true ∈ history ∧ cancelledTrace <:+ trace history

/-- The same, and the outcome says so. -/
def Harmless (endpoint : PgCancellation) (history : List Event) : Prop :=
  endpoint.escaped = true → endpoint.confirmed = true ∧ Answered history

/-- What holds of the claim depending on where the owner is. -/
def Position.Calm (endpoint : PgCancellation) (stage : Stage) (history : List Event) :
    Position → Prop
  | .writing => endpoint.phase = .writing ∧ (stage = .idle ∨ stage = .waiting) ∧
      endpoint.escaped = false
  | .reading true | .latched true | .reported true => settled history = false
  | .draining true => settled history = false ∧ endpoint.phase = .finished
  | .failing => settled history = true → endpoint.retire = false →
      Quiet endpoint stage ∧ Harmless endpoint history
  | .sealing | .closed => endpoint.sealed = true ∧ (settled history = true →
      endpoint.retire = false → Quiet endpoint stage ∧ Harmless endpoint history)
  | _ => endpoint.phase ≠ .running ∧ endpoint.phase ≠ .writing ∧ stage = .idle ∧
      Harmless endpoint history

theorem Answered.append (answered : Answered history) : Answered (events ++ history) := by
  obtain ⟨exchanged, cancelled⟩ := answered
  refine ⟨mem_append_right _ exchanged, ?_⟩
  rw [trace_append]
  exact cancelled.trans (suffix_append ..)

theorem Harmless.append (harmless : Harmless endpoint history)
    (escaped : after.escaped = endpoint.escaped)
    (confirmed : endpoint.confirmed = true → after.confirmed = true) :
    Harmless after (events ++ history) := fun isEscaped => by
  obtain ⟨isConfirmed, answered⟩ := harmless (escaped ▸ isEscaped)
  exact ⟨confirmed isConfirmed, answered.append⟩

theorem settled_append (quiet : ∀ event ∈ events, event.ofRequest = true) :
    settled (events ++ history) = settled history := by
  induction events with
  | nil => rfl
  | cons event events ih =>
    have isRequest := quiet event mem_cons_self
    have rest := ih fun event isNew => quiet event (mem_cons_of_mem _ isNew)
    cases event <;> first | exact rest | cases isRequest

theorem RequestMove.events_request (move : RequestMove endpoint stage events after following) :
    ∀ event ∈ events, event.ofRequest = true := by
  cases move <;> simp [Event.ofRequest]

/-- While there is quiet, requests can claim and wait, but neither exchange nor undo what
is settled. -/
theorem RequestMove.quiet (claim : Claim endpoint stage history)
    (move : RequestMove endpoint stage events after following) (quiet : Quiet endpoint stage) :
    Quiet after following ∧ after.escaped = endpoint.escaped ∧ .cancelBytes ∉ events ∧
      (Harmless endpoint history → Harmless after (events ++ history)) := by
  obtain ⟨notRunning, unstarted⟩ := quiet
  cases move with
  | refused | overtaken | expired =>
    exact ⟨⟨notRunning, .inl rfl⟩, rfl, by simp, fun harmless => harmless.append rfl id⟩
  | settled unclaimed errorFree isOpen late confirmed =>
    refine ⟨⟨notRunning, .inl rfl⟩, rfl, by simp, fun _ isEscaped => ?_⟩
    have unescaped := claim.unescaped unclaimed
    simp [unescaped] at isEscaped
  | queued unclaimed errorFree isOpen writing =>
    exact ⟨⟨notRunning, .inr rfl⟩, rfl, by simp, fun harmless => harmless.append rfl id⟩
  | started unclaimed errorFree isOpen running | resumed running => exact absurd running notRunning
  | escaped | sent left => simp at unstarted
  | concluded exchanging ok | aborted exchanging => simp [exchanging] at unstarted

theorem RequestMove.retire {following : Stage}
    (move : RequestMove endpoint stage events after following) (spared : after.retire = false) :
    endpoint.retire = false := by
  cases move <;> simp_all [PgCancellation.abandon, PgCancellation.concludeExchange,
    PgCancellation.escape]

theorem Position.Calm.move {following : Stage} (claim : Claim endpoint stage history)
    (holds : owner.Calm endpoint stage history)
    (move : RequestMove endpoint stage events after following) :
    owner.Calm after following (events ++ history) := by
  have errors := move.keepsErrors
  have unchanged : settled (events ++ history) = settled history :=
    settled_append move.events_request
  have calm (resting : endpoint.phase ≠ .running ∧ endpoint.phase ≠ .writing ∧ stage = .idle ∧
      Harmless endpoint history) : after.phase ≠ .running ∧ after.phase ≠ .writing ∧
        following = .idle ∧ Harmless after (events ++ history) := by
    obtain ⟨notRunning, notWriting, idle, harmless⟩ := resting
    obtain ⟨⟨stillNot, stage'⟩, -, -, keeps⟩ := move.quiet claim ⟨notRunning, .inl idle⟩
    refine ⟨stillNot, errors.phase ▸ notWriting, ?_, keeps harmless⟩
    subst idle
    cases move with
    | queued unclaimed errorFree isOpen writing => exact absurd writing notWriting
    | started unclaimed errorFree isOpen running => exact absurd running notRunning
    | _ => rfl
  have ended (ending : settled history = true → endpoint.retire = false →
      Quiet endpoint stage ∧ Harmless endpoint history) (isSettled : settled (events ++ history) = true)
      (spared : after.retire = false) : Quiet after following ∧ Harmless after (events ++ history) := by
    obtain ⟨quiet, harmless⟩ := ending (unchanged ▸ isSettled) (move.retire spared)
    obtain ⟨stillQuiet, -, -, keeps⟩ := move.quiet claim quiet
    exact ⟨stillQuiet, keeps harmless⟩
  cases owner with
  | writing =>
    obtain ⟨writing, unstarted, unescaped⟩ := holds
    have quiet : Quiet endpoint stage := ⟨by simp [writing], unstarted⟩
    obtain ⟨⟨-, stillUnstarted⟩, escaped, -⟩ := move.quiet claim quiet
    exact ⟨errors.phase.trans writing, stillUnstarted, escaped.trans unescaped⟩
  | reading sent | latched sent | reported sent =>
    cases sent with
    | true => exact unchanged.trans holds
    | false => exact calm holds
  | draining sent =>
    cases sent with
    | true => exact ⟨unchanged.trans holds.1, errors.phase.trans holds.2⟩
    | false => exact calm holds
  | armed | finished | resolving => exact calm holds
  | failing => exact ended holds
  | sealing | closed => exact ⟨errors.sealed.trans holds.1, ended holds.2⟩

variable (claim : Claim endpoint stage history)

include claim

theorem concludeDrained_idle {legalReady timely : Bool}
    (spared : (endpoint.concludeDrained legalReady timely).retire = false) : stage = .idle := by
  by_contra active
  obtain ⟨claimed, waiting⟩ := claim.held active
  simp [concludeDrained, PgCancellation.awaitsSecondary, claimed, waiting] at spared

theorem concludeDrained_harmless {legalReady timely : Bool}
    (cancelled : endpoint.claimed = true → endpoint.cancelledError = true →
      endpoint.escaped = true → cancelledTrace <:+ trace history)
    (spared : (endpoint.concludeDrained legalReady timely).retire = false) :
    Harmless (endpoint.concludeDrained legalReady timely) history := by
  intro isEscaped
  have escaped : endpoint.escaped = true := isEscaped
  have claimed := claim.escaped escaped
  have confirmed : (endpoint.concludeDrained legalReady timely).confirmed = true := by
    by_contra unconfirmed
    simp_all [concludeDrained]
  have facts := confirmed
  simp only [concludeDrained, Bool.and_eq_true] at facts
  obtain ⟨⟨⟨-, isCancelled⟩, ok⟩, -⟩ := facts
  exact ⟨confirmed, claim.exchanged escaped ok, cancelled claimed isCancelled escaped⟩

theorem Position.Calm.conclude
    (off : endpoint.phase ≠ .running ∧ endpoint.phase ≠ .writing) {legalReady timely : Bool}
    (cancelled : endpoint.claimed = true → endpoint.cancelledError = true →
      endpoint.escaped = true → cancelledTrace <:+ trace history) :
    (afterDrained (endpoint.concludeDrained legalReady timely)).Calm
      (endpoint.concludeDrained legalReady timely) stage
      (.drained (endpoint.concludeDrained legalReady timely).outcome :: history) := by
  unfold afterDrained
  split
  · rename_i retires
    intro _ spared
    simp [retires] at spared
  rename_i spares
  rw [Bool.not_eq_true] at spares
  exact ⟨off.1, off.2, concludeDrained_idle claim spares,
    @Harmless.append _ _ [_] _ (concludeDrained_harmless claim cancelled spares) rfl id⟩

omit claim

theorem Position.Calm.ending (holds : owner.Calm endpoint stage history)
    (free : owner.waits = false) (isSettled : settled history = true)
    (spared : endpoint.retire = false) :
    (stage = .idle ∨ stage = .waiting) ∧ Harmless endpoint history := by
  have calm (resting : endpoint.phase ≠ .running ∧ endpoint.phase ≠ .writing ∧ stage = .idle ∧
      Harmless endpoint history) :
      (stage = .idle ∨ stage = .waiting) ∧ Harmless endpoint history :=
    ⟨.inl resting.2.2.1, resting.2.2.2⟩
  cases owner with
  | writing => exact ⟨holds.2.1, fun escaped => by simp [holds.2.2] at escaped⟩
  | reading sent | latched sent | reported sent =>
    cases sent with
    | true => simp [show settled history = false from holds] at isSettled
    | false => exact calm holds
  | armed | finished | resolving => exact calm holds
  | failing => exact ⟨(holds isSettled spared).1.2, (holds isSettled spared).2⟩
  | closed => exact ⟨(holds.2 isSettled spared).1.2, (holds.2 isSettled spared).2⟩
  | draining sent | sealing => cases free

theorem nextPhase_facts (endpoint : PgCancellation) :
    (endpoint.nextPhase.1.phase = endpoint.phase ∨ endpoint.nextPhase.1.phase = .beforeWire) ∧
      endpoint.nextPhase.1.sealed = endpoint.sealed ∧
      endpoint.nextPhase.1.retire = endpoint.retire ∧
      (endpoint.confirmed = true → endpoint.nextPhase.1.confirmed = true) := by
  unfold PgCancellation.nextPhase PgCancellation.confirmLocal
  split <;> split <;> simp_all

theorem Position.Calm.own (claim : Claim endpoint stage history)
    (traced : Traced endpoint owner (trace history)) (holds : owner.Calm endpoint stage history)
    (acts : OwnerStep endpoint owner events after next) :
    next.Calm after stage (events ++ history) := by
  cases acts with
  | beforeWire =>
    unfold PgCancellation.beforeWire
    split
    · exact holds
    rename_i free
    obtain ⟨-, -, idle, -⟩ := holds
    exact ⟨rfl, .inl idle, claim.unescaped (by simp_all)⟩
  | sent => rfl
  | describe => exact holds
  | @latch sent =>
    cases sent with
    | true => exact holds
    | false => exact ⟨holds.1, holds.2.1, holds.2.2.1, holds.2.2.2.append rfl id⟩
  | @report sent nativeState terminal =>
    cases sent with
    | true =>
      cases terminal with
      | true => exact fun isSettled => by cases holds.symm.trans isSettled
      | false => exact holds
    | false =>
      have harmless := @Harmless.append _ (endpoint.errorObserved nativeState)
        [.observed nativeState] _ holds.2.2.2 rfl id
      cases terminal with
      | true => exact fun _ _ => ⟨⟨holds.1, .inl holds.2.2.1⟩, harmless⟩
      | false => exact ⟨holds.1, holds.2.1, holds.2.2.1, harmless⟩
  | @latchAgain sent =>
    cases sent with
    | true => exact fun isSettled => by cases holds.symm.trans isSettled
    | false =>
      exact fun _ _ => ⟨⟨holds.1, .inl holds.2.2.1⟩, holds.2.2.2.append rfl id⟩
  | reportAgain nativeState =>
    intro isSettled spared
    obtain ⟨quiet, harmless⟩ := holds isSettled spared
    exact ⟨quiet, harmless.append rfl id⟩
  | @drain _ sent read waits =>
    cases sent with
    | true => rcases read with rfl | rfl <;> exact ⟨holds, rfl⟩
    | false =>
      rcases read with rfl | rfl <;>
        exact ⟨by simp [beginDrained], by simp [beginDrained],
          holds.2.2.1, holds.2.2.2.append rfl id⟩
  | @drainAtOnce _ sent read free legalReady timely =>
    have begun : Claim endpoint.beginDrained stage history :=
      ⟨claim.1, claim.2, claim.3, claim.4, claim.5, claim.6, claim.7, claim.8, claim.9⟩
    refine Position.Calm.conclude begun (by simp [beginDrained])
      fun claimed cancelled escaped => ?_
    cases sent with
    | true =>
      rw [traced.cancelled (read.imp_right .inl) claimed cancelled]
    | false => rcases read with rfl | rfl <;> exact (holds.2.2.2 escaped).2.2
  | @concludeDrain sent legalReady timely =>
    cases sent with
    | true =>
      refine Position.Calm.conclude claim (by simp [holds.2]) fun claimed cancelled _ => ?_
      rw [traced.cancelled (.inr (.inr rfl)) claimed cancelled]
    | false =>
      exact Position.Calm.conclude claim ⟨holds.1, holds.2.1⟩
        fun _ _ escaped => (holds.2.2.2 escaped).2.2
  | enterResolver rests =>
    unfold PgCancellation.enterResolver
    split
    · exact holds
    rename_i admitted
    cases owner with
    | armed | finished => exact ⟨by simp, by simp, holds.2.2.1, holds.2.2.2⟩
    | closed => simp [holds.1] at admitted
    | _ => cases rests
  | leaveResolver resolving =>
    unfold PgCancellation.leaveResolver
    rcases resolving with rfl | rfl
    · split
      · exact ⟨by simp, by simp, holds.2.2.1, holds.2.2.2⟩
      · exact holds
    · rw [if_neg (by simp [holds.1])]
      exact holds
  | nextPhase rests =>
    obtain ⟨phase, sealed, retire, confirmed⟩ := nextPhase_facts endpoint
    have escaped := (sameClaim_nextPhase endpoint).escaped
    cases owner with
    | armed | finished =>
      obtain ⟨notRunning, notWriting, idle, harmless⟩ := holds
      refine ⟨?_, ?_, idle, harmless.append escaped confirmed⟩
      · rcases phase with same | before <;> simp [*]
      · rcases phase with same | before <;> simp [*]
    | closed =>
      obtain ⟨isSealed, ending⟩ := holds
      refine ⟨sealed.trans isSealed, fun isSettled spared => ?_⟩
      obtain ⟨⟨notRunning, unstarted⟩, harmless⟩ := ending isSettled (retire ▸ spared)
      refine ⟨⟨?_, unstarted⟩, harmless.append escaped confirmed⟩
      rcases phase with same | before <;> simp [*]
    | _ => cases rests
  | startSeal free waits =>
    refine ⟨rfl, fun isSettled spared => ?_⟩
    obtain ⟨unstarted, harmless⟩ := holds.ending free isSettled spared
    exact ⟨⟨by simp [beginSeal], unstarted⟩, harmless⟩
  | sealAtOnce free done =>
    refine ⟨rfl, fun isSettled spared => ?_⟩
    obtain ⟨unstarted, harmless⟩ := holds.ending free isSettled spared
    exact ⟨⟨by simp [beginSeal], unstarted⟩, harmless.append rfl id⟩
  | concludeSeal =>
    unfold PgCancellation.concludeSeal
    split
    · exact ⟨holds.1, fun _ spared => by cases spared⟩
    refine ⟨holds.1, fun isSettled spared => ?_⟩
    obtain ⟨quiet, harmless⟩ := holds.2 isSettled spared
    exact ⟨quiet, harmless.append rfl id⟩

/-! ## After the owner was told that the session is clean -/

/-- What holds once a drain or a seal has spared the session. -/
structure Released (endpoint : PgCancellation) (stage : Stage) (history : List Event) : Prop where
  drained : ∀ {later earlier outcome}, history = later ++ .drained outcome :: earlier →
    outcome.retire = false → .sent ∉ later → Quiet endpoint stage ∧ .cancelBytes ∉ later
  drainedAnswered : ∀ {later earlier outcome}, history = later ++ .drained outcome :: earlier →
    outcome.retire = false → .cancelBytes ∈ earlier → outcome.confirmed = true ∧ Answered earlier
  sealed : ∀ {later earlier outcome}, history = later ++ .sealed outcome :: earlier →
    outcome.retire = false → (endpoint.sealed = true ∧ stage = .idle) ∧ .cancelBytes ∉ later
  sealedAnswered : ∀ {later earlier outcome}, history = later ++ .sealed outcome :: earlier →
    outcome.retire = false → settled earlier = true → .cancelBytes ∈ earlier →
    outcome.confirmed = true ∧ Answered earlier

theorem Released.move {following : Stage} (claim : Claim endpoint stage history)
    (holds : Released endpoint stage history)
    (move : RequestMove endpoint stage events after following) :
    Released after following (events ++ history) := by
  have absent (event : Event) (isOwn : event.ofRequest = false) : event ∉ events := by
    intro isNew
    simp [move.events_request event isNew] at isOwn
  refine ⟨fun split spared silent => ?_, fun split => ?_, fun split spared => ?_, fun split => ?_⟩
  · obtain ⟨since, rfl, old⟩ := split_of_notMem (absent _ rfl) split
    obtain ⟨quiet, none_since⟩ := holds.drained old spared (by simp_all)
    obtain ⟨stillQuiet, -, none_new, -⟩ := move.quiet claim quiet
    exact ⟨stillQuiet, by simp [none_new, none_since]⟩
  · obtain ⟨since, -, old⟩ := split_of_notMem (absent _ rfl) split
    exact holds.drainedAnswered old
  · obtain ⟨since, rfl, old⟩ := split_of_notMem (absent _ rfl) split
    obtain ⟨⟨isSealed, idle⟩, none_since⟩ := holds.sealed old spared
    subst idle
    cases move with
    | refused => exact ⟨⟨isSealed, rfl⟩, none_since⟩
    | settled unclaimed errorFree isOpen | queued unclaimed errorFree isOpen
    | started unclaimed errorFree isOpen => simp [isSealed] at isOpen
    | concluded exchanging ok | aborted exchanging => simp at exchanging
  · obtain ⟨since, -, old⟩ := split_of_notMem (absent _ rfl) split
    exact holds.sealedAnswered old

/-- The owner alone sends, unseals nothing, and does one thing at a time. -/
theorem OwnerStep.frame (acts : OwnerStep endpoint owner events after next) :
    events.length ≤ 1 ∧ (endpoint.sealed = true → after.sealed = true) ∧
      (.sent ∉ events → endpoint.phase ≠ .running → after.phase ≠ .running) := by
  cases acts with
  | beforeWire =>
    unfold PgCancellation.beforeWire
    split <;> simp
  | enterResolver rests =>
    unfold PgCancellation.enterResolver
    split <;> simp
  | leaveResolver resolving =>
    unfold PgCancellation.leaveResolver
    split <;> simp
  | nextPhase rests =>
    obtain ⟨phase, sealed, -⟩ := nextPhase_facts endpoint
    refine ⟨by simp, fun isSealed => sealed.trans isSealed, fun _ notRunning => ?_⟩
    rcases phase with same | before <;> simp [*]
  | concludeSeal =>
    unfold PgCancellation.concludeSeal
    split <;> simp
  | _ => simp [PgCancellation.sent, PgCancellation.errorObserved, beginDrained,
      concludeDrained, beginSeal]

theorem OwnerStep.drained (acts : OwnerStep endpoint owner events after next)
    {outcome} (told : .drained outcome ∈ events) :
    events = [.drained after.outcome] ∧ outcome = after.outcome ∧ next = afterDrained after := by
  cases acts <;> simp_all

theorem OwnerStep.sealed (acts : OwnerStep endpoint owner events after next)
    {outcome} (told : .sealed outcome ∈ events) :
    events = [.sealed after.outcome] ∧ outcome = after.outcome ∧ next = .closed ∧
      (after.retire = false → after.awaitsSecondary = false) := by
  cases acts with
  | sealAtOnce free done =>
    exact ⟨rfl, by simpa using told, rfl, fun _ => done⟩
  | concludeSeal =>
    refine ⟨rfl, by simpa using told, rfl, ?_⟩
    unfold PgCancellation.concludeSeal
    split <;> simp_all
  | _ => simp at told

theorem Answered.told {event : Event} (answered : Answered (event :: history))
    (untraced : event.traced = false) (isOwn : event.ofRequest = false) : Answered history := by
  obtain ⟨exchanged, cancelled⟩ := answered
  refine ⟨(mem_cons.mp exchanged).resolve_left ?_, ?_⟩
  · rintro rfl
    cases isOwn
  · simpa [trace, untraced] using cancelled

theorem Released.own (claim : Claim endpoint stage history)
    (traced : Traced endpoint owner (trace history)) (calm : owner.Calm endpoint stage history)
    (holds : Released endpoint stage history) (acts : OwnerStep endpoint owner events after next) :
    Released after stage (events ++ history) := by
  have claimAfter := claim.own acts
  have calmAfter := calm.own claim traced acts
  obtain ⟨single, keepsSealed, keepsPhase⟩ := acts.frame
  have none_new : .cancelBytes ∉ events := fun isNew => by cases acts.events_own _ isNew
  have isEscaped (isSent : .cancelBytes ∈ history) : after.escaped = true :=
    claimAfter.bytes (mem_append_right _ isSent)
  -- An event of this step has all of the history before it, and nothing after.
  have first {event : Event} {later earlier : List Event}
      (split : events ++ history = later ++ event :: earlier) :
      (∃ since, later = events ++ since ∧ history = since ++ event :: earlier) ∨
        (events = [event] ∧ later = [] ∧ earlier = history) := by
    rcases split_append split with old | ⟨before, isAdded⟩
    · exact .inl old
    have length := congrArg List.length isAdded
    simp only [length_append, length_cons] at length
    obtain rfl := length_eq_zero_iff.mp (show later.length = 0 by omega)
    obtain rfl := length_eq_zero_iff.mp (show before.length = 0 by omega)
    subst isAdded
    exact .inr ⟨rfl, rfl, by simpa using split.symm⟩
  refine ⟨fun split spared silent => ?_, fun split spared isSent => ?_, fun split spared => ?_,
    fun split spared isSettled isSent => ?_⟩
  · rcases first split with ⟨since, rfl, old⟩ | ⟨rfl, rfl, rfl⟩
    · obtain ⟨⟨notRunning, unstarted⟩, none_since⟩ := holds.drained old spared (by simp_all)
      exact ⟨⟨keepsPhase (by simp_all) notRunning, unstarted⟩, by simp [none_new, none_since]⟩
    obtain ⟨-, rfl, rfl⟩ := acts.drained mem_cons_self
    rw [afterDrained, if_neg (by simpa [PgCancellation.outcome] using spared)] at calmAfter
    exact ⟨⟨calmAfter.1, .inl calmAfter.2.2.1⟩, by simp⟩
  · rcases first split with ⟨since, -, old⟩ | ⟨rfl, rfl, rfl⟩
    · exact holds.drainedAnswered old spared isSent
    obtain ⟨-, rfl, rfl⟩ := acts.drained mem_cons_self
    rw [afterDrained, if_neg (by simpa [PgCancellation.outcome] using spared)] at calmAfter
    obtain ⟨confirmed, answered⟩ := calmAfter.2.2.2 (isEscaped isSent)
    exact ⟨confirmed, answered.told rfl rfl⟩
  · rcases first split with ⟨since, rfl, old⟩ | ⟨rfl, rfl, rfl⟩
    · obtain ⟨⟨isSealed, idle⟩, none_since⟩ := holds.sealed old spared
      exact ⟨⟨keepsSealed isSealed, idle⟩, by simp [none_new, none_since]⟩
    obtain ⟨-, rfl, rfl, over_⟩ := acts.sealed mem_cons_self
    refine ⟨⟨calmAfter.1, ?_⟩, by simp⟩
    by_contra active
    obtain ⟨claimed, waiting⟩ := claimAfter.held active
    simp [PgCancellation.awaitsSecondary, claimed, waiting] at over_
    simp [PgCancellation.outcome, over_] at spared
  · rcases first split with ⟨since, -, old⟩ | ⟨rfl, rfl, rfl⟩
    · exact holds.sealedAnswered old spared isSettled isSent
    obtain ⟨-, rfl, rfl, -⟩ := acts.sealed mem_cons_self
    obtain ⟨-, harmless⟩ := calmAfter.2 isSettled spared
    obtain ⟨confirmed, answered⟩ := harmless (isEscaped isSent)
    exact ⟨confirmed, answered.told rfl rfl⟩

end

/-! ## Runs -/

namespace World

variable {world after : World}

/-- One thread at most is past the claim; what the others did was refused. -/
def Contained (world : World) : Prop :=
  ∃ thread, (∀ other, other ≠ thread → world.requests other = .idle) ∧
    Claim world.endpoint (world.requests thread) world.history ∧
    Traced world.endpoint world.owner (trace world.history) ∧
    world.owner.Calm world.endpoint (world.requests thread) world.history ∧
    Released world.endpoint (world.requests thread) world.history

theorem Contained.initial (begins : world.Initial) : world.Contained := by
  obtain ⟨generation, rfl⟩ := begins
  refine ⟨0, fun _ _ => rfl, ?_, ?_, ?_, ?_⟩
  · exact ⟨by simp, by simp, by simp, by simp, by simp, by simp, by simp, by simp, by simp⟩
  · exact ⟨by simp [trace], by simp, by simp, by simp⟩
  · exact ⟨by simp, by simp, rfl, by simp [Harmless]⟩
  · exact ⟨by simp, by simp, by simp, by simp⟩

/-- A thread that is idle while another one holds the claim is refused; otherwise it may
be the one. -/
theorem Contained.step (holds : world.Contained) (taken : Step world after) : after.Contained := by
  obtain ⟨thread, others, claim, traced, calm, released⟩ := holds
  cases taken with
  | own acts =>
    exact ⟨thread, others, claim.own acts, traced.own acts, calm.own claim traced acts,
      released.own claim traced calm acts⟩
  | @ask asking events endpoint stage acts =>
    have advance (isThread : ∀ other, other ≠ asking → world.requests other = .idle)
        (same : world.requests asking = world.requests thread) :
        Contained { world with
          endpoint
          requests := Function.update world.requests asking stage
          history := events ++ world.history } := by
      have move := acts.move
      rw [same] at move
      refine ⟨asking, fun other elsewhere => by simp [elsewhere, isThread other elsewhere], ?_⟩
      simp only [Function.update_self]
      exact ⟨claim.move move, traced.move move, calm.move claim move, released.move claim move⟩
    by_cases here : asking = thread
    · exact advance (here ▸ others) (by rw [here])
    have idle := others asking here
    have move := acts.move
    rw [idle] at move
    rcases move.idle_cases with ⟨rfl, rfl, rfl⟩ | unclaimed
    · rw [← idle, Function.update_eq_self]
      exact ⟨thread, others, claim, traced, calm, released⟩
    have vacant : world.requests thread = .idle := by
      by_contra active
      simp [(claim.held active).1] at unclaimed
    refine advance (fun other _ => ?_) (idle.trans vacant.symm)
    by_cases isThread : other = thread
    · rw [isThread, vacant]
    · exact others other isThread

theorem Contained.reached (reached : Reachable Initial Step world) : world.Contained :=
  reached.invariant (fun _ => Contained.initial) fun _ holds taken => holds.step taken

/-- In every interleaving of requests with the owner's calls: at most one exchange is started; after
a drain that spares the session no bytes of a CancelRequest are sent unless the owner sends another
phase first, and after such a seal none at all. If bytes had been sent before, the outcome is
confirmed: the exchange succeeded, and the first error observed has SQLSTATE 57014. -/
theorem cancellation_contained (reached : Reachable Initial Step world) :
    world.history.count .exchangeStarted ≤ 1 ∧
    (∀ later earlier outcome, world.history = later ++ .drained outcome :: earlier →
      outcome.retire = false →
      (.sent ∉ later → .cancelBytes ∉ later) ∧
        (.cancelBytes ∈ earlier → outcome.confirmed = true ∧ Answered earlier)) ∧
    (∀ later earlier outcome, world.history = later ++ .sealed outcome :: earlier →
      outcome.retire = false →
      .cancelBytes ∉ later ∧
        (settled earlier = true → .cancelBytes ∈ earlier →
          outcome.confirmed = true ∧ Answered earlier)) := by
  obtain ⟨thread, -, claim, -, -, released⟩ := Contained.reached reached
  refine ⟨claim.once, fun later earlier outcome split spared => ⟨fun silent => ?_, ?_⟩,
    fun later earlier outcome split spared => ⟨?_, ?_⟩⟩
  · exact (released.drained split spared silent).2
  · exact released.drainedAnswered split spared
  · exact (released.sealed split spared).2
  · exact released.sealedAnswered split spared

/-- The owner has installed the endpoint, announced a request and sent it. -/
theorem running : Reachable Initial Step
    { endpoint := { generation := 1, phase := .running }
      owner := .reading true
      history := [.sent] } := by
  have begun : Reachable Initial Step { endpoint := { generation := 1 } } := .start ⟨1, rfl⟩
  have announced := begun.next (.own .beforeWire)
  have sent := announced.next (.own .sent)
  exact sent

/-- The query is cancelled and the session spared. -/
theorem cancellation_contained_confirmed : ∃ world earlier, Reachable Initial Step world ∧
      world.history = .drained ⟨true, true, false⟩ :: earlier ∧ .cancelBytes ∈ earlier ∧
      Answered earlier := by
  have asked := running.next (@Step.ask _ 0 _ _ _ (.enter true))
  have escaped := asked.next (@Step.ask _ 0 _ _ _ .escape)
  have written := escaped.next (@Step.ask _ 0 _ _ _ (.send 16 (by decide)))
  have exchanged := written.next (@Step.ask _ 0 _ _ _ (.conclude true (by decide)))
  have latched := exchanged.next (.own .latch)
  have reported := latched.next (.own (.report (ascii "57014") false))
  have drained := reported.next (.own (.drainAtOnce (.inr rfl) rfl true true))
  have facts := (cancellation_contained drained).2.1 [] _ _ rfl rfl
  exact ⟨_, _, drained, rfl, by decide, (facts.2 (by decide)).2⟩

/-- The first phase is drained, and a request in the next one sends its packet. -/
theorem cancellation_nextPhase : ∃ world later earlier outcome, Reachable Initial Step world ∧
      world.history = later ++ .drained outcome :: earlier ∧ outcome.retire = false ∧
      .cancelBytes ∈ later := by
  have drained := running.next (.own (.drainAtOnce (.inl rfl) rfl true true))
  have continued := drained.next (.own (.nextPhase rfl))
  have resumed := (continued.next (.own .beforeWire)).next (.own .sent)
  have asked := resumed.next (@Step.ask _ 0 _ _ _ (.enter true))
  have escaped := asked.next (@Step.ask _ 0 _ _ _ .escape)
  have written := escaped.next (@Step.ask _ 0 _ _ _ (.send 16 (by decide)))
  exact ⟨_, [.cancelBytes, .exchangeStarted, .claimed, .sent], [.sent], ⟨false, false, false⟩,
    written, rfl, rfl, by decide⟩

end World

end Odbcpp.Cancellation
