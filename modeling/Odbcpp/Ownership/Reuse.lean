import Odbcpp.Ownership.Exclusive

/-!
# Isolation between borrowers

A session is lent again only after the borrower before cleaned and returned it: its last acts were a
reset that succeeded with an idle, reusable session and the return to an open owner with a current
credential. Every other end of a lease closes the owner for good.
-/

namespace Odbcpp.Ownership

open Foundation Database Relation List OwnershipState

def LastGranted (lease : Nat) (history : List Event) : Prop :=
  ∃ between before, history = between ++ .granted lease :: before ∧
    ∀ other, .granted other ∉ between

/-- The last lease was reset, with nothing run on the session since, and returned in order. -/
def CleanlyReturned (history : List Event) : Prop :=
  ∃ previous rest,
    history =
      .returned previous ⟨true, true, false⟩ :: .acted previous (.cleaned ⟨.idle, .reusable⟩) ::
        .acted previous (.started .resetSession) :: rest ∧
    LastGranted previous rest

/-- What the history must end with for a lease that is within `return_reusable`. -/
def Phase.Traced (lease : Nat) (history : List Event) : Phase → Prop
  | .resetting true => ∃ rest, history = .acted lease (.started .resetSession) :: rest
  | .returning .cleaned => ∃ rest,
      history = .acted lease (.cleaned ⟨.idle, .reusable⟩) ::
        .acted lease (.started .resetSession) :: rest
  | _ => True

def Ended (lease : Nat) (history : List Event) : Prop :=
  (∃ sight, .returned lease sight ∈ history) ∨ .retired lease ∈ history

theorem Ended.append {lease history} (ended : Ended lease history)
    (events : List Event) : Ended lease (events ++ history) := by
  rcases ended with ⟨sight, isReturned⟩ | isRetired
  · exact .inl ⟨sight, mem_append_right _ isReturned⟩
  · exact .inr (mem_append_right _ isRetired)

theorem LastGranted.append {lease history events}
    (last : LastGranted lease history) (quiet : ∀ other, .granted other ∉ events) :
    LastGranted lease (events ++ history) := by
  obtain ⟨between, before, rfl, silent⟩ := last
  refine ⟨events ++ between, before, by simp, fun other isGranted => ?_⟩
  exact (mem_append.mp isGranted).elim (quiet other) (silent other)

theorem LastGranted.tail {lease event history}
    (last : LastGranted lease (event :: history)) (other : ∀ lease, event ≠ .granted lease) :
    LastGranted lease history := by
  obtain ⟨between, before, split, silent⟩ := last
  cases between with
  | nil => exact absurd (List.cons.inj split).1 (other lease)
  | cons first between =>
    exact ⟨between, before, (List.cons.inj split).2,
      fun other isGranted => silent other (mem_cons_of_mem _ isGranted)⟩

/-- The acts that lead a lease through `return_reusable`. -/
theorem LeaseStep.traced {authorities owner after phase next activities}
    (acts : LeaseStep authorities owner phase activities after next) (lease : Nat)
    {history} (traced : phase.Traced lease history) :
    next.Traced lease (activities.map (.acted lease) ++ history) := by
  cases acts with
  | finish report | admitReturn report | enterScope report
  | finishProbe report deadline readings clean => split <;> trivial
  | startReturnReset sample => exact ⟨history, rfl⟩
  | @finishReset forReturn report deadline clean timely =>
    cases forReturn with
    | false => trivial
    | true =>
      obtain ⟨rest, rfl⟩ := traced
      have succeeded : report.success = some ⟨.idle, .reusable⟩ := by
        simp only [ActiveReport.clean, Bool.and_eq_true, decide_eq_true_eq] at clean
        exact clean.1.1
      exact ⟨rest, by simp [succeeded]⟩
  | _ => trivial

namespace World

variable {world after : World} {owner : OwnershipState}

/-- A session goes to the next lease only when it was reset and returned. -/
structure Isolated (world : World) : Prop where
  lastGranted : ∀ {object lease}, world.leases object = some lease →
    LastGranted lease.identity world.history
  traced : ∀ {object lease}, world.leases object = some lease →
    lease.phase.Traced lease.identity world.history
  available : world.owner.leased = false → world.owner.accepting = true →
    world.history = [] ∨ CleanlyReturned world.history
  grants : ∀ {lease earlier}, .granted lease :: earlier <:+ world.history →
    earlier = [] ∨ CleanlyReturned earlier
  retired : ∀ {lease}, .retired lease ∈ world.history → world.owner.accepting = false
  ended : ∀ {lease}, .granted lease ∈ world.history →
    (∃ object phase, world.leases object = some ⟨lease, phase⟩) ∨ Ended lease world.history

theorem Isolated.initial (begins : world.Initial) : world.Isolated := by
  obtain ⟨-, -, -, -, nobody, nothing⟩ := begins
  exact ⟨by simp [nobody], by simp [nobody], fun _ _ => .inl nothing, by simp [nothing],
    by simp [nothing], by simp [nothing]⟩

theorem suffix_of_quiet {lease : Nat} {events history earlier : List Event}
    (quiet : ∀ other, .granted other ∉ events)
    (found : .granted lease :: earlier <:+ events ++ history) :
    .granted lease :: earlier <:+ history := by
  obtain ⟨later, split⟩ := found
  obtain ⟨since, -, old⟩ := split_of_notMem (quiet lease) split.symm
  exact ⟨since, old.symm⟩

theorem granted_notMem_handover (handed : Bool) (lease : Nat) :
    .granted lease ∉ handover handed := by
  cases handed <;> simp [handover]

namespace Isolated

variable (holds : world.Isolated)

include holds

theorem tighten (tight : world.owner.Tightens owner) (authorities : Authorities) :
    Isolated { world with owner, authorities } :=
  ⟨holds.lastGranted, holds.traced,
    fun unleased accepting => holds.available (tight.leased ▸ unleased) (tight.accepting accepting),
    holds.grants, fun retired => tight.closed (holds.retired retired), holds.ended⟩

theorem vacate {leases : Nat → Option Lease} {events : List Event} (authorities : Authorities)
    (nobody : ∀ object, leases object = none) (closed : owner.accepting = false)
    (quiet : ∀ other, .granted other ∉ events)
    (retired : ∀ {object lease}, world.leases object = some lease →
      .retired lease.identity ∈ events) :
    Isolated { world with owner, leases, authorities, history := events ++ world.history } := by
  refine ⟨by simp [nobody], by simp [nobody], by simp [closed],
    fun found => holds.grants (suffix_of_quiet quiet found), fun _ => closed, fun isGranted => ?_⟩
  rcases holds.ended ((mem_append.mp isGranted).resolve_left (quiet _)) with
    ⟨object, phase, live⟩ | gone
  · exact .inr (.inr (mem_append_left _ (retired live)))
  · exact .inr (gone.append events)

/-- Closing the owner keeps the leases as they are. -/
theorem close (exclusive : world.Exclusive) (authorities : Authorities) : Isolated { world with
      owner := world.owner.close.owner
      authorities := authorities
      history := handover world.owner.close.handed ++ world.history } := by
  rcases world.owner.close_cases with ⟨isLeased, closed⟩ | ⟨isFree, closed⟩
  · rw [closed]
    exact holds.tighten tightens_shut authorities
  have nobody := exclusive.unleased isFree
  exact holds.vacate authorities nobody close_accepting
    (granted_notMem_handover _) (by simp [nobody])

theorem step (exclusive : world.Exclusive) (taken : Step world after) : after.Isolated := by
  cases taken with
  | @act object lease activities owner phase live acts =>
    obtain ⟨tight, -⟩ := acts.tightens
    have quiet : ∀ other, .granted other ∉ activities.map (Event.acted lease.identity) := by simp
    refine ⟨fun isLive => ?_, fun isLive => ?_, fun unleased => ?_,
      fun found => holds.grants (suffix_of_quiet quiet found), fun isRetired => ?_,
      fun isGranted => ?_⟩
    · rw [(only_written (exclusive.elsewhere live) isLive).2]
      exact (holds.lastGranted live).append quiet
    · rw [(only_written (exclusive.elsewhere live) isLive).2]
      exact acts.traced _ (holds.traced live)
    · simp [tight.leased, (exclusive.session live).1] at unleased
    · exact tight.closed (holds.retired (by simpa using isRetired))
    rcases holds.ended (by simpa using isGranted) with ⟨elsewhere, before, isLive⟩ | gone
    · obtain ⟨rfl, rfl⟩ := exclusive.same live isLive
      exact .inl ⟨object, phase, by simp⟩
    · exact .inr (gone.append _)
  | @grant object free token readings healthy admitted =>
    obtain ⟨ends, accepting, -, unleased⟩ := tryAcquire_admitted admitted
    have nobody := exclusive.unleased unleased
    rw [ends]
    refine ⟨fun isLive => ?_, fun isLive => ?_, by simp, fun found => ?_, fun isRetired => ?_,
      fun isGranted => ?_⟩
    · rw [(only_written (fun _ => nobody _) isLive).2]
      exact ⟨[], world.history, rfl, by simp⟩
    · rw [(only_written (fun _ => nobody _) isLive).2]
      cases healthy <;> trivial
    · rcases suffix_cons_iff.mp found with here | older
      · rw [(List.cons.inj here).2]
        exact holds.available unleased accepting
      · exact holds.grants older
    · exact holds.retired (by simpa using isRetired)
    rcases mem_cons.mp isGranted with here | older
    · obtain rfl := Event.granted.inj here
      exact .inl ⟨object, _, Function.update_self ..⟩
    rcases holds.ended older with ⟨elsewhere, before, isLive⟩ | gone
    · simp [nobody] at isLive
    · exact .inr (gone.append [_])
  | refuse token readings refused =>
    rcases tryAcquire_refused refused with ends | ends
    · rw [ends]
      exact holds
    · rw [ends]
      exact holds.close exclusive world.authorities
  | close => exact holds.close exclusive _
  | @retire object lease live retiring =>
    have quiet (other : Nat) :
        .granted other ∉ handover world.owner.retire.handed ++ [.retired lease.identity] := by
      simp [granted_notMem_handover]
    have vacated := holds.vacate world.authorities (exclusive.vacant live)
      (show world.owner.retire.owner.accepting = false from rfl) quiet
      (fun isLive => by simp [(exclusive.same live isLive).2])
    simpa using vacated
  | @publish object lease live cleaned deadline readings admitted =>
    obtain ⟨eligible, ends⟩ := publishReturn_admitted admitted
    simp only [OwnershipState.eligible, Bool.and_eq_true, Bool.not_eq_true'] at eligible
    obtain ⟨⟨⟨⟨accepting, -⟩, -⟩, current⟩, lasting⟩ := eligible
    have nobody := exclusive.vacant live
    have seen : world.sight readings = ⟨true, true, false⟩ := by
      simp [sight, accepting, current, lasting]
    have last := holds.lastGranted live
    have traced := holds.traced live
    rw [cleaned] at traced
    obtain ⟨rest, history⟩ := traced
    rw [ends, seen]
    refine ⟨by simp [nobody], by simp [nobody], fun _ _ => .inr ⟨lease.identity, rest, ?_, ?_⟩,
      fun found => ?_, fun isRetired => ?_, fun isGranted => ?_⟩
    · rw [history]
    · rw [history] at last
      exact (last.tail (by simp)).tail (by simp)
    · exact holds.grants (@suffix_of_quiet _ [_] _ _ (by simp) found)
    · exact holds.retired (by simpa using isRetired)
    rcases holds.ended (by simpa using isGranted) with ⟨elsewhere, before, isLive⟩ | gone
    · obtain ⟨-, rfl⟩ := exclusive.same live isLive
      exact .inr (.inl ⟨_, mem_cons_self⟩)
    · exact .inr (gone.append [_])
  | @move source target lease live idle free =>
    refine ⟨fun isLive => ?_, fun isLive => ?_, holds.available, holds.grants, holds.retired,
      fun isGranted => ?_⟩
    · rw [(only_written (fun _ => exclusive.vacant live _) isLive).2]
      exact holds.lastGranted live
    · rw [(only_written (fun _ => exclusive.vacant live _) isLive).2]
      exact holds.traced live
    rcases holds.ended isGranted with ⟨elsewhere, before, isLive⟩ | gone
    · obtain ⟨-, rfl⟩ := exclusive.same live isLive
      exact .inl ⟨target, before, by simp⟩
    · exact .inr gone
  | check generation readings => exact holds.tighten tightens_cacheCurrent _
  | reauthorize authorities => exact holds.tighten .refl authorities

end Isolated

theorem Isolated.reached (reached : Reachable Initial Step world) : world.Isolated :=
  reached.invariant (fun _ => Isolated.initial)
    fun before holds taken => holds.step (Exclusive.reached before) taken

/-- In every run, a lease is granted on an unused session or right after the lease before was reset
with an idle, reusable outcome and returned to an open owner with a current credential and time
left; a lease ends by a return or is retired, and after a retirement no lease is granted. -/
theorem borrowers_isolated (reached : Reachable Initial Step world) :
    (∀ lease earlier, .granted lease :: earlier <:+ world.history →
      earlier = [] ∨ CleanlyReturned earlier) ∧
    (∀ lease, .granted lease ∈ world.history →
      (∃ object phase, world.leases object = some ⟨lease, phase⟩) ∨ Ended lease world.history) ∧
    (∀ lease, .retired lease ∈ world.history → world.owner.accepting = false ∧
      ∀ later, ReflTransGen Step world later →
        ∃ events, later.history = events ++ world.history ∧ ∀ other, .granted other ∉ events) := by
  have holds := Isolated.reached reached
  refine ⟨fun _ _ => holds.grants, fun _ => holds.ended, fun lease isRetired => ?_⟩
  have closed := holds.retired isRetired
  refine ⟨closed, fun later steps => ?_⟩
  obtain ⟨events, extended, admitsNone⟩ := extends_of_steps steps
  exact ⟨events, extended, fun other isGranted => by cases (admitsNone closed).2 _ isGranted⟩

/-- A credential-bound owner whose session is lent, returned and lent again. -/
theorem borrowers_isolated_reused : ∃ world earlier, Reachable Initial Step world ∧
      world.history = .granted 1 :: earlier ∧ CleanlyReturned earlier := by
  obtain ⟨world, sight, second, -, history⟩ := lent_again
  obtain ⟨grants, -⟩ := borrowers_isolated second
  exact ⟨world, _, second, history, (grants 1 _ (by rw [history])).resolve_left (by simp)⟩

end World

end Odbcpp.Ownership
