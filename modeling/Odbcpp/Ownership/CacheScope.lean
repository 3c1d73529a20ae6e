import Odbcpp.Ownership.Exclusive

/-!
# Cache scopes

A token names a generation that its lease was issued. The generation is dropped by every operation
that runs something on the session, except the resolution of column origins. Generations are never
reused, so a token that is still current belongs to the lease it was issued to.
-/

namespace Odbcpp.Ownership

open Foundation Database Relation List OwnershipState

variable {authorities : Authorities} {activities : List Activity} {owner after : OwnershipState}
  {phase : Phase}

namespace OwnershipState

variable {readings : Readings} {generation : Nat}

/-- The cache scope stays as it is, or is dropped. -/
structure DropsScope (owner after : OwnershipState) : Prop where
  scope : ∀ {generation}, after.cacheGeneration = some generation →
    owner.cacheGeneration = some generation
  counter : after.nextGeneration = owner.nextGeneration

theorem DropsScope.refl : DropsScope owner owner := ⟨id, rfl⟩

theorem DropsScope.all (dropped : after.cacheGeneration = none)
    (counter : after.nextGeneration = owner.nextGeneration) : DropsScope owner after :=
  ⟨fun held => by simp [dropped] at held, counter⟩

theorem dropsScope_checkScope : owner.DropsScope (owner.checkScope authorities readings).owner := by
  unfold checkScope
  split
  · exact .all rfl rfl
  · exact .refl

theorem dropsScope_enterScope : owner.DropsScope (owner.enterScope authorities readings).owner := by
  unfold enterScope
  split
  · exact .refl
  · exact dropsScope_checkScope

theorem dropsScope_cacheCurrent :
    owner.DropsScope (owner.cacheCurrent authorities generation readings).owner := by
  unfold cacheCurrent
  split
  · exact .refl
  · exact dropsScope_checkScope

theorem cacheCurrent_admitted
    (current : (owner.cacheCurrent authorities generation readings).admitted = true) :
    owner.cacheGeneration = some generation := by
  unfold cacheCurrent at current
  split at current
  · cases current
  rename_i matching
  simp only [Bool.or_eq_true, decide_eq_true_eq, not_or, not_not] at matching
  exact matching.2

/-- What the second section of `cache_token` issues: nothing, the scope there is, or a
fresh one. -/
theorem issueScope_cases {idle : Bool} : ((owner.issueScope authorities idle readings).2 = none ∧
      owner.DropsScope (owner.issueScope authorities idle readings).1) ∨
    (∃ generation, owner.cacheGeneration = some generation ∧
      owner.issueScope authorities idle readings = (owner, some generation)) ∨
    owner.issueScope authorities idle readings = ({ owner with
          cacheGeneration := some owner.nextGeneration
          nextGeneration := owner.nextGeneration + 1 }, some owner.nextGeneration) := by
  unfold issueScope
  split
  · exact .inl ⟨rfl, .all rfl rfl⟩
  dsimp only
  split
  · exact .inl ⟨rfl, dropsScope_checkScope⟩
  split
  · exact .inr (.inl ⟨_, by assumption, rfl⟩)
  · exact .inr (.inr rfl)

end OwnershipState

/-- What an act of a lease has to do with the scope: a scope that is there afterwards is the old one
or a fresh one, and nothing was started that drops it. -/
structure Rescopes (owner : OwnershipState) (activities : List Activity) (after : OwnershipState) :
    Prop where
  single : activities.length ≤ 1
  counter : owner.nextGeneration ≤ after.nextGeneration
  scope : ∀ {generation}, after.cacheGeneration = some generation →
    owner.cacheGeneration = some generation ∨
      (generation = owner.nextGeneration ∧ generation < after.nextGeneration)
  started : ∀ {generation operation}, after.cacheGeneration = some generation →
    .started operation ∈ activities → operation.invalidates = false
  issued : ∀ {generation}, .issued generation ∈ activities →
    after.cacheGeneration = some generation

theorem Rescopes.dropped {after : OwnershipState} (drops : owner.DropsScope after) :
    Rescopes owner [] after :=
  ⟨by simp, drops.counter.ge, fun held => .inl (drops.scope held), by simp, by simp⟩

theorem Rescopes.without {after : OwnershipState} (single : activities.length ≤ 1)
    (none_issued : ∀ generation, .issued generation ∉ activities)
    (dropped : after.cacheGeneration = none)
    (counter : after.nextGeneration = owner.nextGeneration) : Rescopes owner activities after :=
  ⟨single, counter.ge, by simp [dropped], by simp [dropped],
    fun isIssued => absurd isIssued (none_issued _)⟩

/-- Every act of a lease; a health probe starts after the scope was dropped. -/
theorem LeaseStep.rescopes {next : Phase}
    (acts : LeaseStep authorities owner phase activities after next)
    (probed : phase = .probing .invalidated → owner.cacheGeneration = none) :
    Rescopes owner activities after := by
  cases acts with
  | start operation sample other =>
    cases invalidates : operation.invalidates with
    | true => exact .without (by simp) (by simp) (by simp [OwnershipState.invalidateCache]) rfl
    | false => exact ⟨by simp, by simp, fun held => .inl (by simpa using held),
        by simp [invalidates], by simp⟩
  | startReset sample | startReturn sample | startReturnReset sample | startProbe sample
  | failScope sample => exact .without (by simp) (by simp) rfl rfl
  | finishReset report deadline clean timely =>
    exact ⟨by simp, le_rfl, .inl, by simp, by simp⟩
  | admitProbe deadline readings timely eligible =>
    exact .without (by simp) (by simp) (probed rfl) rfl
  | finishProbe report deadline readings clean =>
    refine .without ?_ ?_ rfl rfl
    · split <;> simp
    · intro generation
      split <;> simp
  | enterScope readings => exact .dropped dropsScope_enterScope
  | issueScope idle readings =>
    rcases issueScope_cases with ⟨nothing, drops⟩ | ⟨generation, held, same⟩ | fresh
    · rw [nothing]
      exact .dropped drops
    · rw [same]
      exact ⟨by simp, le_rfl, .inl, by simp, by simp [held]⟩
    · rw [fresh]
      exact ⟨by simp, by simp, by simp, by simp, by simp⟩
  | _ => exact .dropped .refl

/-- A lease that is about to be probed has just dropped the scope. -/
theorem LeaseStep.probing_invalidated {next : Phase}
    (acts : LeaseStep authorities owner phase activities after next)
    (probing : next = .probing .invalidated) : after.cacheGeneration = none := by
  cases acts with
  | startProbe sample => rfl
  | finish report | finishReset report | admitReturn readings | finishProbe report
  | enterScope readings => split at probing <;> cases probing
  | _ => cases probing

namespace World

variable {world after : World}

/-- How generations, leases and history go together. -/
structure Scoped (world : World) : Prop where
  counted : ∀ {generation}, world.owner.cacheGeneration = some generation →
    generation < world.owner.nextGeneration
  issued : ∀ {lease generation}, .acted lease (.issued generation) ∈ world.history →
    generation < world.owner.nextGeneration
  probing : ∀ {object lease}, world.leases object = some lease →
    lease.phase = .probing .invalidated → world.owner.cacheGeneration = none
  current : ∀ {generation lease later earlier}, world.owner.cacheGeneration = some generation →
    world.history = later ++ .acted lease (.issued generation) :: earlier →
    (∃ object phase, world.leases object = some ⟨lease, phase⟩) ∧
      ∀ acting operation, .acted acting (.started operation) ∈ later →
        operation.invalidates = false

theorem Scoped.initial (begins : world.Initial) : world.Scoped := by
  obtain ⟨-, -, -, unscoped, nobody, nothing⟩ := begins
  exact ⟨by simp [unscoped], by simp [nothing], by simp [nobody], by simp [unscoped]⟩

theorem Scoped.clear (holds : world.Scoped) {owner} (authorities : Authorities)
    (leases : Nat → Option Lease) {events} (dropped : owner.cacheGeneration = none)
    (counter : owner.nextGeneration = world.owner.nextGeneration)
    (quiet : ∀ lease generation, .acted lease (.issued generation) ∉ events) :
    Scoped { world with owner, leases, authorities, history := events ++ world.history } := by
  refine ⟨by simp [dropped], fun isIssued => ?_, fun _ _ => dropped, by simp [dropped]⟩
  rw [counter]
  exact holds.issued ((mem_append.mp isIssued).resolve_left (quiet _ _))

theorem Scoped.drop (holds : world.Scoped) {owner}
    (drops : world.owner.DropsScope owner) (authorities : Authorities) :
    Scoped { world with owner, authorities } := by
  refine ⟨fun held => ?_, fun isIssued => ?_, fun live isProbing => ?_,
    fun held split => holds.current (drops.scope held) split⟩
  · rw [drops.counter]
    exact holds.counted (drops.scope held)
  · rw [drops.counter]
    exact holds.issued isIssued
  rw [Option.eq_none_iff_forall_ne_some]
  intro generation held
  have before := holds.probing live isProbing
  rw [drops.scope held] at before
  cases before

theorem issued_notMem_handover (handed : Bool) (lease generation : Nat) :
    .acted lease (.issued generation) ∉ handover handed := by
  cases handed <;> simp [handover]

theorem Scoped.close (holds : world.Scoped) (authorities : Authorities) : Scoped { world with
      owner := world.owner.close.owner
      authorities := authorities
      history := handover world.owner.close.handed ++ world.history } := by
  rcases world.owner.close_cases with ⟨-, closed⟩ | ⟨-, closed⟩ <;> rw [closed] <;>
    exact holds.clear authorities _ rfl rfl (issued_notMem_handover _)

theorem Scoped.act (holds : world.Scoped) (exclusive : world.Exclusive)
    {object lease activities owner phase}
    (live : world.leases object = some lease)
    (acts : LeaseStep world.authorities world.owner lease.phase activities owner phase) :
    Scoped { world with
      owner := owner
      leases := Function.update world.leases object (some { lease with phase })
      history := activities.map (.acted lease.identity) ++ world.history } := by
  have rescopes := acts.rescopes (holds.probing live)
  have counted {generation : Nat} (held : owner.cacheGeneration = some generation) :
      generation < owner.nextGeneration := by
    rcases rescopes.scope held with old | ⟨-, fresh⟩
    · exact (holds.counted old).trans_le rescopes.counter
    · exact fresh
  refine ⟨counted, fun isIssued => ?_, fun isLive isProbing => ?_,
    fun {generation issuer later earlier} held split => ?_⟩
  · rcases mem_append.mp isIssued with isNew | old
    · obtain ⟨activity, acted, same⟩ := mem_map.mp isNew
      obtain ⟨-, rfl⟩ := Event.acted.inj same
      exact counted (rescopes.issued acted)
    · exact (holds.issued old).trans_le rescopes.counter
  · rw [(only_written (exclusive.elsewhere live) isLive).2] at isProbing
    exact acts.probing_invalidated isProbing
  rcases split_append split with ⟨since, rfl, old⟩ | ⟨before, isAdded⟩
  · -- The issue is an old one, so the scope is the old one, too.
    have isOld : world.owner.cacheGeneration = some generation := by
      rcases rescopes.scope held with same | ⟨fresh, -⟩
      · exact same
      have below : generation < world.owner.nextGeneration :=
        @Scoped.issued _ holds issuer generation (by simp [old])
      omega
    obtain ⟨⟨elsewhere, before, isLive⟩, started⟩ := holds.current isOld old
    obtain ⟨rfl, rfl⟩ := exclusive.same live isLive
    refine ⟨⟨object, phase, by simp⟩, fun acting operation isStarted => ?_⟩
    rcases mem_append.mp isStarted with isNew | isOlder
    · obtain ⟨activity, acted, same⟩ := mem_map.mp isNew
      obtain ⟨-, rfl⟩ := Event.acted.inj same
      exact rescopes.started held acted
    · exact started acting operation isOlder
  · -- The issue is the only thing that was done.
    have alone : later = [] := by
      have bound := rescopes.single
      have length := congrArg List.length isAdded
      simp only [length_map, length_append, length_cons] at length
      exact length_eq_zero_iff.mp (by omega)
    subst alone
    have isNew : Event.acted issuer (.issued generation) ∈
        activities.map (Event.acted lease.identity) := by
      simp [isAdded]
    obtain ⟨activity, -, same⟩ := mem_map.mp isNew
    obtain ⟨rfl, -⟩ := Event.acted.inj same
    exact ⟨⟨object, phase, by simp⟩, by simp⟩

theorem Scoped.step (holds : world.Scoped) (exclusive : world.Exclusive)
    (taken : Step world after) : after.Scoped := by
  cases taken with
  | act live acts => exact holds.act exclusive live acts
  | @grant object free token readings healthy admitted =>
    obtain ⟨ends, -, -, unleased⟩ := tryAcquire_admitted admitted
    have nobody := exclusive.unleased unleased
    rw [ends]
    refine ⟨holds.counted, fun isIssued => holds.issued (by simpa using isIssued),
      fun isLive isProbing => ?_, fun held split => ?_⟩
    · rw [(only_written (fun _ => nobody _) isLive).2] at isProbing
      cases healthy <;> cases isProbing
    obtain ⟨since, -, old⟩ := @split_of_notMem _ _ [_] _ _ _ (by simp) split
    obtain ⟨⟨elsewhere, phase, isLive⟩, -⟩ := holds.current held old
    simp [nobody] at isLive
  | refuse token readings refused =>
    rcases tryAcquire_refused refused with ends | ends
    · rw [ends]
      exact holds
    · rw [ends]
      exact holds.close world.authorities
  | close => exact holds.close _
  | @retire object lease live retiring =>
    have cleared := @Scoped.clear _ holds world.owner.retire.owner world.authorities
      (Function.update world.leases object none)
      (handover world.owner.retire.handed ++ [.retired lease.identity]) rfl rfl
      (by simp [issued_notMem_handover])
    simpa using cleared
  | @publish object lease live cleaned deadline readings admitted =>
    obtain ⟨-, ends⟩ := publishReturn_admitted admitted
    rw [ends]
    exact @Scoped.clear _ holds _ _ _ [_] rfl rfl (by simp)
  | @move source target lease live idle free =>
    refine ⟨holds.counted, holds.issued, fun isLive isProbing => ?_,
      fun held split => ?_⟩
    · rw [(only_written (fun _ => exclusive.vacant live _) isLive).2, idle] at isProbing
      cases isProbing
    obtain ⟨⟨elsewhere, phase, isLive⟩, started⟩ := holds.current held split
    obtain ⟨-, rfl⟩ := exclusive.same live isLive
    exact ⟨⟨target, phase, by simp⟩, started⟩
  | check generation readings => exact holds.drop dropsScope_cacheCurrent _
  | reauthorize authorities => exact holds.drop .refl authorities

theorem Scoped.reached (reached : Reachable Initial Step world) : world.Scoped :=
  reached.invariant (fun _ => Scoped.initial)
    fun before holds taken => holds.step (Exclusive.reached before) taken

/-- In every run, a token that is still current was issued to the lease that is still live, the only
one that could present it; and since any issue of its generation no operation was started on the
session, if no column origins were resolved. -/
theorem cacheScope_fresh_iff (reached : Reachable Initial Step world) {generation : Nat}
    {readings : Readings}
    (current : (world.owner.cacheCurrent world.authorities generation readings).admitted = true)
    {lease : Nat} {later earlier : List Event}
    (issued : world.history = later ++ .acted lease (.issued generation) :: earlier) :
    (∃ object phase, world.leases object = some ⟨lease, phase⟩) ∧
    (∀ object other, world.leases object = some other → other.identity = lease) ∧
    ((∀ acting operation, .acted acting (.started operation) ∈ later →
        operation.active = false) ↔
      ∀ acting, .acted acting (.started .resolveColumnOrigins) ∉ later) := by
  have held := OwnershipState.cacheCurrent_admitted current
  obtain ⟨⟨object, phase, live⟩, started⟩ := (Scoped.reached reached).current held issued
  refine ⟨⟨object, phase, live⟩, fun elsewhere other isLive => ?_, ?_, ?_⟩
  · rw [← ((Exclusive.reached reached).same live isLive).2]
  · intro passive acting isStarted
    cases passive acting .resolveColumnOrigins isStarted
  intro unresolved acting operation isStarted
  -- Everything active but the resolution of origins drops the scope.
  have kept := started acting operation isStarted
  cases operation with
  | resolveColumnOrigins => exact absurd isStarted (unresolved acting)
  | inspect | catalogQuery | selectsCatalogRequest => rfl
  | _ => cases kept

theorem issuedRun : ∃ world, Reachable Initial Step world ∧ world.owner =
        { credential := some ⟨0, some 0, none⟩, leased := true, cacheGeneration := some 0,
          nextGeneration := 1 } ∧
      world.authorities = (fun _ => some 0) ∧ world.leases 0 = some ⟨0, .idle⟩ ∧
      world.history = [.acted 0 (.issued 0), .granted 0] := by
  have begun : Initial
      { owner := { credential := some ⟨0, some 0, none⟩ }, authorities := fun _ => some 0 } :=
    ⟨rfl, rfl, rfl, rfl, rfl, rfl⟩
  have granted := (Reachable.start begun).next
    (@Step.grant _ 0 rfl (some ⟨0, some 0, none⟩) ⟨0, 0, 0⟩ false rfl)
  have entered := granted.next (@Step.act _ 0 ⟨0, .idle⟩ _ _ _ rfl (.enterScope ⟨0, 0, 0⟩))
  have issued := entered.next
    (@Step.act _ 0 ⟨0, .scoping⟩ _ _ _ rfl (.issueScope true ⟨0, 0, 0⟩))
  exact ⟨_, issued, rfl, rfl, rfl, rfl⟩

theorem cacheScope_fresh_iff_issued : ∃ world, Reachable Initial Step world ∧
      (world.owner.cacheCurrent world.authorities 0 ⟨0, 0, 0⟩).admitted = true ∧
      ∃ object phase, world.leases object = some ⟨0, phase⟩ := by
  obtain ⟨world, reached, owner, authorities, live, history⟩ := issuedRun
  have current : (world.owner.cacheCurrent world.authorities 0 ⟨0, 0, 0⟩).admitted = true := by
    rw [owner, authorities]
    decide
  obtain ⟨isLive, -⟩ := @cacheScope_fresh_iff _ reached _ _ current 0 [] _ history
  exact ⟨world, reached, current, isLive⟩

/-- The lease then resolves column origins, which runs a query, and the token is still
current. -/
theorem cacheScope_survives_resolveColumnOrigins :
    ∃ world lease later earlier, Reachable Initial Step world ∧
      (world.owner.cacheCurrent world.authorities 0 ⟨0, 0, 0⟩).admitted = true ∧
      world.history = later ++ .acted lease (.issued 0) :: earlier ∧
      .acted lease (.started .resolveColumnOrigins) ∈ later ∧
      LeaseOperation.resolveColumnOrigins.active = true := by
  obtain ⟨world, reached, owner, authorities, live, history⟩ := issuedRun
  have resolving := reached.next
    (@Step.act _ 0 ⟨0, .idle⟩ _ _ _ live (.start .resolveColumnOrigins 0 (by decide)))
  refine ⟨_, 0, [.acted 0 (.started .resolveColumnOrigins)], [.granted 0], resolving, ?_, ?_,
    by simp, rfl⟩
  · simp only [owner, authorities]
    decide
  · simp [history]

end World

end Odbcpp.Ownership
