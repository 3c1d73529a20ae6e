import Odbcpp.Ownership.Exclusive

/-!
# Sequential tenures

What an owner is for, as one sequential object: a session that is free, lent to one lease at a time,
or gone. Every history of every interleaving is one of this object, so that whatever runs on the
session between a grant and its end belongs to the lease that was granted.
-/

namespace Odbcpp.Ownership

open Foundation OwnershipState

/-- The session as its borrowers see it; after a retirement it is yet to be handed over. -/
inductive Tenure where
  | free
  | lent (lease : Nat)
  | retired
  | gone
deriving DecidableEq

/-- What may happen next, and what it leads to. -/
def Tenure.next : Tenure → Event → Option Tenure
  | .free, .granted lease => some (.lent lease)
  | .lent lease, .acted other _ => if other = lease then some (.lent lease) else none
  | .lent lease, .returned other _ => if other = lease then some .free else none
  | .lent lease, .retired other => if other = lease then some .retired else none
  | .free, .handedOver | .retired, .handedOver => some .gone
  | _, _ => none

/-- What a history leads to, if it is one of the sequential object. -/
def tenure : List Event → Option Tenure
  | [] => some .free
  | event :: earlier => (tenure earlier).bind (·.next event)

theorem tenure_acted {lease history}
    (lent : tenure history = some (.lent lease)) (activities : List Activity) :
    tenure (activities.map (.acted lease) ++ history) = some (.lent lease) := by
  induction activities with
  | nil => exact lent
  | cons activity activities ih => simp [tenure, ih, Tenure.next]

namespace World

variable {world after : World} {owner : OwnershipState}

/-- The world stands where its history has led the sequential object. -/
structure Sequential (world : World) : Prop where
  live : ∀ {object lease}, world.leases object = some lease →
    tenure world.history = some (.lent lease.identity)
  unlent : world.owner.leased = false →
    tenure world.history = some (if world.owner.session then .free else .gone)

namespace Sequential

variable (holds : world.Sequential)

include holds

theorem tighten (tight : world.owner.Tightens owner) (authorities : Authorities) :
    Sequential { world with owner, authorities } :=
  ⟨holds.live, by simpa [tight.leased, tight.session] using holds.unlent⟩

theorem close (exclusive : world.Exclusive) (authorities : Authorities) : Sequential { world with
      owner := world.owner.close.owner
      authorities := authorities
      history := handover world.owner.close.handed ++ world.history } := by
  rcases world.owner.close_cases with ⟨isLeased, closed⟩ | ⟨isFree, closed⟩
  · rw [closed]
    exact holds.tighten tightens_shut authorities
  refine ⟨by simp [exclusive.unleased isFree], fun _ => ?_⟩
  have before := holds.unlent isFree
  rw [closed]
  cases isSession : world.owner.session <;>
    simp_all [handover, tenure, Tenure.next]

theorem step (exclusive : world.Exclusive) (taken : Step world after) : after.Sequential := by
  cases taken with
  | @act object lease activities owner phase live acts =>
    obtain ⟨tight, -⟩ := acts.tightens
    refine ⟨fun isLive => ?_, fun unleased => ?_⟩
    · rw [(only_written (exclusive.elsewhere live) isLive).2]
      exact tenure_acted (holds.live live) activities
    · simp [tight.leased, (exclusive.session live).1] at unleased
  | @grant object free token readings healthy admitted =>
    obtain ⟨ends, -, present, unleased⟩ := tryAcquire_admitted admitted
    have nobody := exclusive.unleased unleased
    rw [ends]
    refine ⟨fun isLive => ?_, by simp⟩
    rw [(only_written (fun _ => nobody _) isLive).2]
    simp [tenure, holds.unlent unleased, present, Tenure.next]
  | refuse token readings refused =>
    rcases tryAcquire_refused refused with ends | ends
    · rw [ends]
      exact holds
    · rw [ends]
      exact holds.close exclusive world.authorities
  | close => exact holds.close exclusive _
  | @retire object lease live retiring =>
    refine ⟨by simp [exclusive.vacant live], fun _ => ?_⟩
    simp [OwnershipState.retire, (exclusive.session live).2, handover, tenure, holds.live live,
      Tenure.next]
  | @publish object lease live cleaned deadline readings admitted =>
    obtain ⟨-, ends⟩ := publishReturn_admitted admitted
    rw [ends]
    refine ⟨by simp [exclusive.vacant live], fun _ => ?_⟩
    simp [(exclusive.session live).2, tenure, holds.live live, Tenure.next]
  | @move source target lease live idle free =>
    refine ⟨fun isLive => ?_, holds.unlent⟩
    rw [(only_written (fun _ => exclusive.vacant live _) isLive).2]
    exact holds.live live
  | check generation readings => exact holds.tighten tightens_cacheCurrent _
  | reauthorize authorities => exact holds.tighten .refl authorities

end Sequential

theorem Sequential.initial (begins : world.Initial) : world.Sequential := by
  obtain ⟨present, -, -, -, nobody, nothing⟩ := begins
  exact ⟨by simp [nobody], by simp [present, nothing, tenure]⟩

/-- Every history is one of the sequential object, which stands where the owner does: lent to the
live lease, free while the session is there, and gone after that. -/
theorem histories_sequential (reached : Reachable Initial Step world) :
    (∀ object lease, world.leases object = some lease →
      tenure world.history = some (.lent lease.identity)) ∧
    ((∀ object, world.leases object = none) →
      tenure world.history = some (if world.owner.session then .free else .gone)) := by
  have holds : world.Sequential := reached.invariant (fun _ => Sequential.initial)
    fun before holds taken => holds.step (Exclusive.reached before) taken
  refine ⟨fun _ _ => holds.live, fun nobody => holds.unlent ?_⟩
  simpa [nobody] using (Exclusive.reached reached).leased

theorem histories_sequential_lent : ∃ world sight, Reachable Initial Step world ∧
    .granted 0 ∈ world.history ∧ .returned 0 sight ∈ world.history ∧
    tenure world.history = some (.lent 1) := by
  obtain ⟨world, sight, lent, live, history⟩ := lent_again
  exact ⟨world, sight, lent, by simp [history], by simp [history],
    (histories_sequential lent).1 0 _ live⟩

end World

end Odbcpp.Ownership
