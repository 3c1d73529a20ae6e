import Odbcpp.Foundation.Reachability
import Odbcpp.Ownership.Sections

/-!
# Leases and their runs

Lease objects move, run operations, end, and are granted anew, while other threads close the owner,
revoke credentials and check cache scopes. One step is one critical section, or one event between
two; what a backend call returns is left open. A ghost history, newest event first, records what the
properties are about.
-/

namespace Odbcpp.Ownership

open Foundation Database

/-- The operations a borrower may run. A command batch and a result sequence are runs of
`executePrepared` that may retire the lease. -/
inductive LeaseOperation where
  | executeQuery | executePrepared | describeParameterInput | prepareParameterBatch
  | describeStatement | transaction | setTransactionIsolation | checkHealth | executeCatalog
  | resolveColumnOrigins | inspect | catalogQuery | selectsCatalogRequest | resetSession
deriving DecidableEq

/-- Operations that run something on the physical session, in contrast to those
that only look at it. -/
def LeaseOperation.active : LeaseOperation → Bool
  | .inspect | .catalogQuery | .selectsCatalogRequest => false
  | _ => true

/-- Operations that call `invalidate_cache` before the backend. -/
def LeaseOperation.invalidates : LeaseOperation → Bool
  | .resolveColumnOrigins | .inspect | .catalogQuery | .selectsCatalogRequest => false
  | _ => true

/-- How a backend call ends. -/
inductive BackendReport where
  | returned (snapshot : SessionSnapshot)
  | threw
deriving DecidableEq

def BackendReport.retires : BackendReport → Bool
  | .returned snapshot => snapshot.disposition = .retire
  | .threw => true

/-- What `reset_session` and `acquire_healthy` learn from their backend call: the snapshot of a
success, and the passive state and clock after it. -/
structure ActiveReport where
  success : Option SessionSnapshot
  connected : Bool
  state : SessionState
  now : Nat
deriving DecidableEq

/-- The call succeeded, the session is idle, and the backend agrees. -/
def ActiveReport.clean (report : ActiveReport) : Bool :=
  report.success = some ⟨.idle, .reusable⟩ && report.connected && report.state = .idle

/-- How far `return_reusable` has come. -/
inductive ReturnStage where
  | invalidated | admitted | cleaned
deriving DecidableEq

/-- How far `acquire_healthy` has come. -/
inductive ProbeStage where
  | acquired | invalidated | admitted
deriving DecidableEq

/-- What a lease is doing. A retiring lease waits for the section that ends it; `scoping` is between
the two sections of `cache_token`. -/
inductive Phase where
  | idle
  | operating (operation : LeaseOperation)
  | resetting (forReturn : Bool)
  | returning (stage : ReturnStage)
  | probing (stage : ProbeStage)
  | scoping
  | retiring
deriving DecidableEq

/-- A live lease: the identity of its acquisition, which survives moves, and what
it is doing. -/
structure Lease where
  identity : Nat
  phase : Phase
deriving DecidableEq

/-- What a lease does on the session. -/
inductive Activity where
  | started (operation : LeaseOperation)
  | cleaned (snapshot : SessionSnapshot)
  | delivered
  | issued (generation : Nat)
deriving DecidableEq

/-- What the owner was like in the section that returned a session. -/
structure ReturnSight where
  accepting : Bool
  credentialCurrent : Bool
  lifetimeExpired : Bool
deriving DecidableEq

/-- What is recorded of a run. -/
inductive Event where
  | granted (lease : Nat)
  | acted (lease : Nat) (activity : Activity)
  | returned (lease : Nat) (sight : ReturnSight)
  | retired (lease : Nat)
  | handedOver
deriving DecidableEq

/-! ## Steps of one lease -/

section

variable (authorities : Authorities)

/-- The steps of a lease that stays live: what it does, and the states of owner and
lease before and after. -/
inductive LeaseStep : OwnershipState → Phase → List Activity → OwnershipState → Phase → Prop where
  -- An operation behind `invoke_borrowed`.
  | start {owner} (operation : LeaseOperation) (sample : Nat) (other : operation ≠ .resetSession) :
      LeaseStep owner .idle [.started operation]
        (if operation.invalidates then owner.invalidateCache sample else owner)
        (.operating operation)
  | finish {owner operation} (report : BackendReport) :
      LeaseStep owner (.operating operation) [] owner (if report.retires then .retiring else .idle)
  -- `retire`, the destructor, a move onto this lease, or a failure between operations.
  | abandon {owner} : LeaseStep owner .idle [] owner .retiring
  -- `reset_session`, on its own or within `return_reusable`.
  | startReset {owner} (sample : Nat) :
      LeaseStep owner .idle [.started .resetSession] (owner.invalidateCache sample)
        (.resetting false)
  | finishReset {owner forReturn} (report : ActiveReport) (deadline : Nat)
      (clean : report.clean = true) (timely : report.now < deadline) :
      LeaseStep owner (.resetting forReturn) [.cleaned (report.success.getD {})] owner
        (if forReturn then .returning .cleaned else .idle)
  | failReset {owner forReturn} : LeaseStep owner (.resetting forReturn) [] owner .retiring
  -- `return_reusable`.
  | startReturn {owner} (sample : Nat) :
      LeaseStep owner .idle [] (owner.invalidateCache sample) (.returning .invalidated)
  | admitReturn {owner} (readings : Readings) :
      LeaseStep owner (.returning .invalidated) [] owner
        (if owner.eligible authorities readings then .returning .admitted else .retiring)
  | startReturnReset {owner} (sample : Nat) :
      LeaseStep owner (.returning .admitted) [.started .resetSession]
        (owner.invalidateCache sample) (.resetting true)
  | refuseReturn {owner} (deadline : Nat) (readings : Readings)
      (refused : (owner.publishReturn authorities deadline readings).admitted = false) :
      LeaseStep owner (.returning .cleaned) [] owner .retiring
  -- `acquire_healthy`, after its lease was granted.
  | startProbe {owner} (sample : Nat) :
      LeaseStep owner (.probing .acquired) [] (owner.invalidateCache sample)
        (.probing .invalidated)
  | admitProbe {owner} (deadline : Nat) (readings : Readings) (timely : readings.other < deadline)
      (eligible : owner.eligible authorities readings = true) :
      LeaseStep owner (.probing .invalidated) [.started .checkHealth] owner (.probing .admitted)
  | finishProbe {owner} (report : ActiveReport) (deadline : Nat) (readings : Readings)
      (clean : report.clean = true) :
      LeaseStep owner (.probing .admitted)
        (if (owner.finishProbe authorities deadline readings).admitted then [.delivered] else [])
        (owner.finishProbe authorities deadline readings).owner
        (if (owner.finishProbe authorities deadline readings).admitted then .idle else .retiring)
  | failProbe {owner stage} : LeaseStep owner (.probing stage) [] owner .retiring
  -- `cache_token`.
  | enterScope {owner} (readings : Readings) :
      LeaseStep owner .idle [] (owner.enterScope authorities readings).owner
        (if (owner.enterScope authorities readings).admitted then .scoping else .idle)
  | issueScope {owner} (idle : Bool) (readings : Readings) :
      LeaseStep owner .scoping
        ((owner.issueScope authorities idle readings).2.toList.map .issued)
        (owner.issueScope authorities idle readings).1 .idle
  -- A new scope cannot be allocated.
  | starveScope {owner} (absent : owner.cacheGeneration = none) :
      LeaseStep owner .scoping [] owner .idle
  | failScope {owner} (sample : Nat) :
      LeaseStep owner .scoping [] (owner.invalidateCache sample) .idle

end

/-! ## Steps of the world -/

/-- The owner, all lease objects, the credential authorities and the history. -/
structure World where
  owner : OwnershipState
  leases : Nat → Option Lease := fun _ => none
  authorities : Authorities := fun _ => none
  nextLease : Nat := 0
  history : List Event := []

namespace World

/-- A fresh owner with some credential, authority and policy; no lease yet. -/
def Initial (world : World) : Prop :=
  world.owner.session = true ∧ world.owner.accepting = true ∧ world.owner.leased = false ∧
    world.owner.cacheGeneration = none ∧ world.leases = (fun _ => none) ∧ world.history = []

def handover (handed : Bool) : List Event := if handed then [.handedOver] else []

def revoked (world : World) : Authorities :=
  match world.owner.authentication with
  | some authority => Function.update world.authorities authority none
  | none => world.authorities

def sight (world : World) (readings : Readings) : ReturnSight where
  accepting := world.owner.accepting
  credentialCurrent := world.owner.credentialCurrent world.authorities readings.credential
  lifetimeExpired := world.owner.lifetimeExpired readings.lifetime

/-- The steps of an owner and its leases, in any order. -/
inductive Step : World → World → Prop where
  | act {world object lease activities owner phase} (live : world.leases object = some lease)
      (acts : LeaseStep world.authorities world.owner lease.phase activities owner phase) :
      Step world
        { world with
          owner := owner
          leases := Function.update world.leases object (some { lease with phase })
          history := activities.map (.acted lease.identity) ++ world.history }
  /-- An acquisition succeeds, for a borrower or for `acquire_healthy`. -/
  | grant {world object} (free : world.leases object = none)
      (token : Option CredentialToken) (readings : Readings) (healthy : Bool)
      (admitted : (world.owner.tryAcquire world.authorities token readings).admitted = true) :
      Step world
        { world with
          owner := (world.owner.tryAcquire world.authorities token readings).owner
          leases := Function.update world.leases object
            (some ⟨world.nextLease, if healthy then .probing .acquired else .idle⟩)
          nextLease := world.nextLease + 1
          history := .granted world.nextLease :: world.history }
  /-- An acquisition is refused, which may close the owner. -/
  | refuse {world} (token : Option CredentialToken) (readings : Readings)
      (refused : (world.owner.tryAcquire world.authorities token readings).admitted = false) :
      Step world
        { world with
          owner := (world.owner.tryAcquire world.authorities token readings).owner
          history := handover (world.owner.tryAcquire world.authorities token readings).handed ++
            world.history }
  /-- The owner is closed, or revokes the credentials it manages. -/
  | close {world} :
      Step world
        { world with
          owner := world.owner.close.owner
          authorities := world.revoked
          history := handover world.owner.close.handed ++ world.history }
  /-- The section that ends a retiring lease. -/
  | retire {world object lease}
      (live : world.leases object = some lease) (retiring : lease.phase = .retiring) :
      Step world
        { world with
          owner := world.owner.retire.owner
          leases := Function.update world.leases object none
          history := handover world.owner.retire.handed ++ .retired lease.identity :: world.history }
  /-- The section that returns a session. -/
  | publish {world object lease}
      (live : world.leases object = some lease) (cleaned : lease.phase = .returning .cleaned)
      (deadline : Nat) (readings : Readings)
      (admitted :
        (world.owner.publishReturn world.authorities deadline readings).admitted = true) :
      Step world
        { world with
          owner := (world.owner.publishReturn world.authorities deadline readings).owner
          leases := Function.update world.leases object none
          history := .returned lease.identity (world.sight readings) :: world.history }
  /-- A lease is moved to another object. -/
  | move {world source target lease}
      (live : world.leases source = some lease) (idle : lease.phase = .idle)
      (free : world.leases target = none) :
      Step world
        { world with
          leases := Function.update (Function.update world.leases source none) target (some lease) }
  /-- A token is checked. -/
  | check {world} (generation : Nat) (readings : Readings) :
      Step world
        { world with
          owner := (world.owner.cacheCurrent world.authorities generation readings).owner }
  /-- Credentials are published or revoked elsewhere. -/
  | reauthorize {world} (authorities : Authorities) : Step world { world with authorities }

/-- The session of a credential-bound owner is lent, refused to a second borrower, returned and lent
again. -/
theorem lent_again : ∃ world sight, Reachable Initial Step world ∧
    world.leases 0 = some ⟨1, .idle⟩ ∧
    world.history = [.granted 1, .returned 0 sight, .acted 0 (.cleaned ⟨.idle, .reusable⟩),
      .acted 0 (.started .resetSession), .granted 0] := by
  have begun : Initial
      { owner := { credential := some ⟨0, some 0, none⟩ }, authorities := fun _ => some 0 } :=
    ⟨rfl, rfl, rfl, rfl, rfl, rfl⟩
  have first := (Reachable.start begun).next
    (@Step.grant _ 0 rfl (some ⟨0, some 0, none⟩) ⟨0, 0, 0⟩ false rfl)
  have refused := first.next (.refuse (some ⟨0, some 0, none⟩) ⟨0, 0, 0⟩ rfl)
  have returning := refused.next (@Step.act _ 0 ⟨0, .idle⟩ _ _ _ rfl (.startReturn 0))
  have admitted := returning.next
    (@Step.act _ 0 ⟨0, .returning .invalidated⟩ _ _ _ rfl (.admitReturn ⟨0, 0, 0⟩))
  have resetting := admitted.next
    (@Step.act _ 0 ⟨0, .returning .admitted⟩ _ _ _ rfl (.startReturnReset 0))
  have cleaned := resetting.next (@Step.act _ 0 ⟨0, .resetting true⟩ _ _ _ rfl
    (.finishReset ⟨some ⟨.idle, .reusable⟩, true, .idle, 0⟩ 1 rfl (by decide)))
  have returned := cleaned.next
    (@Step.publish _ 0 ⟨0, .returning .cleaned⟩ rfl rfl 1 ⟨0, 0, 0⟩ rfl)
  exact ⟨_, _, returned.next
    (@Step.grant _ 0 rfl (some ⟨0, some 0, none⟩) ⟨0, 0, 0⟩ false rfl), rfl, rfl⟩

end World

end Odbcpp.Ownership
