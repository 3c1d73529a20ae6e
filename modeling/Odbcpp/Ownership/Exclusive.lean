import Odbcpp.Ownership.Runs

/-!
# Exclusive ownership

At most one lease is live, the owner's flag says so exactly, and the session is
there as long as it is. The session is handed over for retirement once, when no
lease is live, and a closed owner admits nobody again.
-/

namespace Odbcpp.Ownership

open Foundation Database Relation List OwnershipState

/-! ## What the sections do -/

namespace OwnershipState

variable {owner : OwnershipState} {authorities : Authorities} {token : Option CredentialToken}
  {readings : Readings}

/-- Closing keeps a leased session and hands over any other. -/
theorem close_cases (owner : OwnershipState) :
    (owner.leased = true ∧ owner.close = { owner := owner.shut }) ∨
      (owner.leased = false ∧
        owner.close = { owner := { owner.shut with session := false }, handed := owner.session }) := by
  unfold close surrender
  cases isLeased : owner.leased with
  | true => exact .inl ⟨rfl, by simp [shut, isLeased]⟩
  | false => exact .inr ⟨rfl, by simp [shut, isLeased]⟩

/-- A successful acquisition. -/
def Lends (owner : OwnershipState) (ends : SectionEnd) : Prop :=
  ends = { owner := { owner with leased := true }, admitted := true } ∧
    owner.accepting = true ∧ owner.session = true ∧ owner.leased = false

theorem tryAcquire_cases : owner.Lends (owner.tryAcquire authorities token readings) ∨
      owner.tryAcquire authorities token readings = { owner } ∨
      owner.tryAcquire authorities token readings = owner.close := by
  unfold tryAcquire
  split
  · exact .inr (.inl rfl)
  rename_i admits
  rw [Bool.or_eq_true, not_or] at admits
  have lends : owner.Lends owner.lend ∨ owner.lend = { owner } := by
    unfold lend
    split
    · exact .inr rfl
    · rename_i free
      exact .inl ⟨rfl, by simpa using admits.1, by simpa using admits.2, by simpa using free⟩
  have lent : owner.Lends owner.lend ∨ owner.lend = { owner } ∨ owner.lend = owner.close :=
    lends.imp_right .inl
  split
  · split
    · exact .inr (.inl rfl)
    split
    · exact .inr (.inr rfl)
    · exact lent
  · exact lent
  · exact .inr (.inl rfl)

theorem close_not_admitted : owner.close.admitted = false := by
  rcases owner.close_cases with ⟨-, ends⟩ | ⟨-, ends⟩ <;> rw [ends]

theorem close_accepting : owner.close.owner.accepting = false := by
  rcases owner.close_cases with ⟨-, ends⟩ | ⟨-, ends⟩ <;> rw [ends] <;> rfl

theorem tryAcquire_admitted
    (admitted : (owner.tryAcquire authorities token readings).admitted = true) :
    owner.Lends (owner.tryAcquire authorities token readings) := by
  rcases tryAcquire_cases with lent | ends | ends
  · exact lent
  · rw [ends] at admitted
    cases admitted
  · rw [ends, close_not_admitted] at admitted
    cases admitted

theorem tryAcquire_refused
    (refused : (owner.tryAcquire authorities token readings).admitted = false) :
    owner.tryAcquire authorities token readings = { owner } ∨
      owner.tryAcquire authorities token readings = owner.close := by
  rcases tryAcquire_cases with ⟨lent, -⟩ | ends
  · rw [lent] at refused
    cases refused
  · exact ends

/-- A return succeeds only for an admitted, leased and present session with a current
credential and time left. -/
theorem publishReturn_admitted {deadline : Nat}
    (admitted : (owner.publishReturn authorities deadline readings).admitted = true) :
    owner.eligible authorities readings = true ∧
      (owner.publishReturn authorities deadline readings).owner =
        { owner with cacheGeneration := none, idleSince := readings.lifetime, leased := false } := by
  unfold publishReturn at admitted ⊢
  split at admitted
  · rename_i holds
    rw [if_pos holds]
    exact ⟨holds.2, rfl⟩
  · cases admitted

/-- Nothing but admission and the cache scope changed, and admission was not reopened. -/
structure Tightens (owner after : OwnershipState) : Prop where
  session : after.session = owner.session
  leased : after.leased = owner.leased
  accepting : after.accepting = true → owner.accepting = true

theorem Tightens.closed {after} (tight : owner.Tightens after)
    (closed : owner.accepting = false) : after.accepting = false := by
  by_contra reopened
  simp [tight.accepting (by simpa using reopened)] at closed

theorem Tightens.refl : Tightens owner owner := ⟨rfl, rfl, id⟩

theorem tightens_shut : Tightens owner owner.shut := ⟨rfl, rfl, fun impossible => by cases impossible⟩

theorem tightens_invalidateCache (sample : Nat) : Tightens owner (owner.invalidateCache sample) :=
  ⟨rfl, rfl, fun accepting => by simp [invalidateCache] at accepting; exact accepting.1⟩

theorem tightens_checkScope : Tightens owner (owner.checkScope authorities readings).owner := by
  unfold checkScope
  split
  · exact tightens_shut
  · exact .refl

theorem tightens_enterScope : Tightens owner (owner.enterScope authorities readings).owner := by
  unfold enterScope
  split
  · exact .refl
  · exact tightens_checkScope

theorem tightens_cacheCurrent {generation : Nat} :
    Tightens owner (owner.cacheCurrent authorities generation readings).owner := by
  unfold cacheCurrent
  split
  · exact .refl
  · exact tightens_checkScope

theorem tightens_issueScope {idle : Bool} :
    Tightens owner (owner.issueScope authorities idle readings).1 := by
  unfold issueScope
  split
  · exact ⟨rfl, rfl, id⟩
  dsimp only
  split
  · exact tightens_checkScope
  split
  · exact .refl
  · exact ⟨rfl, rfl, id⟩

end OwnershipState

theorem LeaseStep.tightens {authorities owner after phase next activities}
    (acts : LeaseStep authorities owner phase activities after next) :
    owner.Tightens after ∧ (.delivered ∈ activities → owner.accepting = true) := by
  cases acts with
  | start operation sample other =>
    refine ⟨?_, by simp⟩
    split
    · exact tightens_invalidateCache sample
    · exact .refl
  | startReset sample | startReturn sample | startReturnReset sample | startProbe sample
  | failScope sample => exact ⟨tightens_invalidateCache sample, by simp⟩
  | finishProbe report deadline readings clean =>
    refine ⟨⟨rfl, rfl, id⟩, fun delivered => ?_⟩
    split at delivered
    · rename_i admitted
      simp [OwnershipState.finishProbe, OwnershipState.eligible] at admitted
      tauto
    · cases delivered
  | enterScope readings => exact ⟨tightens_enterScope, by simp⟩
  | issueScope idle readings => exact ⟨tightens_issueScope, by simp⟩
  | _ => exact ⟨.refl, by simp⟩

/-- The successes that need an open owner: an acquisition, the delivery of a healthy
lease, and a return. -/
def Event.admits : Event → Bool
  | .granted _ | .acted _ .delivered | .returned _ _ => true
  | _ => false

/-! ## The invariant -/

namespace World

variable {world after : World}

variable {lease : Lease} {object : Nat}

/-- The relation of owner, leases and handovers that every step keeps. -/
structure Exclusive (world : World) : Prop where
  unique : ∀ {first second}, (world.leases first).isSome → (world.leases second).isSome →
    first = second
  leased : world.owner.leased = true ↔ ∃ object, (world.leases object).isSome
  present : world.owner.leased = true → world.owner.session = true
  handedOnce : world.history.count .handedOver = if world.owner.session then 0 else 1

theorem Exclusive.initial (begins : world.Initial) : world.Exclusive := by
  obtain ⟨present, -, free, -, nobody, nothing⟩ := begins
  exact ⟨by simp [nobody], by simp [free, nobody], by simp [free], by simp [present, nothing]⟩

theorem count_handover (handed : Bool) :
    (handover handed).count .handedOver = if handed then 1 else 0 := by
  cases handed <;> rfl

theorem count_acted (lease : Nat) (activities : List Activity) :
    (activities.map (Event.acted lease)).count .handedOver = 0 := by
  simp [count_eq_zero]

theorem only_written {leases other written}
    (vacant : ∀ {other}, other ≠ object → leases other = none)
    (isLive : Function.update leases object (some written) other = some lease) :
    other = object ∧ lease = written := by
  by_cases here : other = object
  · subst here
    exact ⟨rfl, by simpa [eq_comm] using isLive⟩
  · simp [here, vacant here] at isLive

namespace Exclusive

variable (holds : world.Exclusive)

include holds

theorem tighten {owner : OwnershipState} (tight : world.owner.Tightens owner)
    (authorities : Authorities) : Exclusive { world with owner, authorities } :=
  ⟨holds.unique, by simpa [tight.leased] using holds.leased,
    by simpa [tight.leased, tight.session] using holds.present,
    by simpa [tight.session] using holds.handedOnce⟩

/-- Closing the owner keeps the leases as they are. -/
theorem close (authorities : Authorities) : Exclusive { world with
      owner := world.owner.close.owner
      authorities := authorities
      history := handover world.owner.close.handed ++ world.history } := by
  rcases world.owner.close_cases with ⟨isLeased, closed⟩ | ⟨isFree, closed⟩
  · rw [closed]
    exact holds.tighten tightens_shut authorities
  rw [closed]
  refine ⟨holds.unique, holds.leased, ?_, ?_⟩
  · simp [OwnershipState.shut, isFree]
  · simp only [count_append, count_handover, holds.handedOnce]
    cases world.owner.session <;> rfl

theorem elsewhere (live : world.leases object = some lease) {other : Nat}
    (distinct : other ≠ object) : world.leases other = none := by
  by_contra someone
  exact distinct (holds.unique (Option.isSome_iff_ne_none.mpr someone) (by simp [live]))

theorem vacant (live : world.leases object = some lease)
    (other : Nat) : Function.update world.leases object none other = none := by
  by_cases here : other = object
  · simp [here]
  · simp [here, holds.elsewhere live here]

theorem session (live : world.leases object = some lease) :
    world.owner.leased = true ∧ world.owner.session = true := by
  have isLeased := holds.leased.mpr ⟨object, by simp [live]⟩
  exact ⟨isLeased, holds.present isLeased⟩

theorem same {first second other}
    (live : world.leases first = some lease) (isLive : world.leases second = some other) :
    first = second ∧ lease = other := by
  obtain rfl := @holds.unique first second (by simp [live]) (by simp [isLive])
  exact ⟨rfl, Option.some.inj (live.symm.trans isLive)⟩

theorem unleased (unleased : world.owner.leased = false)
    (object : Nat) : world.leases object = none := by
  by_contra someone
  have isLeased := holds.leased.mpr ⟨object, Option.isSome_iff_ne_none.mpr someone⟩
  rw [unleased] at isLeased
  cases isLeased

theorem step (taken : Step world after) : after.Exclusive := by
  cases taken with
  | @act object lease activities owner phase live acts =>
    obtain ⟨tight, -⟩ := acts.tightens
    have same (other : Nat) :
        (Function.update world.leases object (some { lease with phase }) other).isSome =
          (world.leases other).isSome := by
      by_cases here : other = object
      · simp [here, live]
      · simp [here]
    refine ⟨fun first second => holds.unique (by rwa [← same]) (by rwa [← same]), ?_, ?_, ?_⟩
    · simpa [tight.leased, same] using holds.leased
    · simpa [tight.leased, tight.session] using holds.present
    · simpa [count_append, count_acted, tight.session] using holds.handedOnce
  | @grant object free token readings healthy admitted =>
    obtain ⟨ends, -, present, unleased⟩ := tryAcquire_admitted admitted
    have nobody := holds.unleased unleased
    have only {lease : Lease} {other : Nat}
        (live : (Function.update world.leases object (some lease) other).isSome) :
        other = object := by
      obtain ⟨_, isLive⟩ := Option.isSome_iff_exists.mp live
      exact (only_written (fun _ => nobody _) isLive).1
    rw [ends]
    refine ⟨fun first second => (only first).trans (only second).symm, ?_, fun _ => present, ?_⟩
    · exact ⟨fun _ => ⟨object, by simp⟩, fun _ => rfl⟩
    · simpa using holds.handedOnce
  | refuse token readings refused =>
    rcases tryAcquire_refused refused with ends | ends
    · rw [ends]
      exact holds
    · rw [ends]
      exact holds.close world.authorities
  | close => exact holds.close _
  | @retire object lease live retiring =>
    obtain ⟨-, present⟩ := holds.session live
    have before := holds.handedOnce
    rw [present] at before
    have nobody := holds.vacant live
    exact ⟨by simp [nobody], by simp [OwnershipState.retire, nobody],
      by simp [OwnershipState.retire],
      by simpa [OwnershipState.retire, handover, present] using before⟩
  | @publish object lease live cleaned deadline readings admitted =>
    obtain ⟨-, ends⟩ := publishReturn_admitted admitted
    have nobody := holds.vacant live
    rw [ends]
    exact ⟨by simp [nobody], by simp [nobody], by simp, by simpa using holds.handedOnce⟩
  | @move source target lease live idle free =>
    have only {other : Nat} (moved : (Function.update (Function.update world.leases source none)
        target (some lease) other).isSome) : other = target := by
      obtain ⟨_, isLive⟩ := Option.isSome_iff_exists.mp moved
      exact (only_written (fun _ => holds.vacant live _) isLive).1
    refine ⟨fun first second => (only first).trans (only second).symm, ?_, holds.present,
      holds.handedOnce⟩
    exact ⟨fun _ => ⟨target, by simp⟩, fun _ => (holds.session live).1⟩
  | check generation readings => exact holds.tighten tightens_cacheCurrent _
  | reauthorize authorities => exact holds.tighten .refl authorities

end Exclusive

/-! ## After admission has closed -/

/-- What a step adds to the history; once admission is closed it stays closed, and
nothing is admitted. -/
theorem Step.extends (taken : Step world after) :
    ∃ events, after.history = events ++ world.history ∧ (world.owner.accepting = false →
        after.owner.accepting = false ∧ ∀ event ∈ events, event.admits = false) := by
  have handovers (handed : Bool) : ∀ event ∈ handover handed, event.admits = false := by
    cases handed <;> simp [handover, Event.admits]
  cases taken with
  | act live acts =>
    obtain ⟨tight, delivers⟩ := acts.tightens
    refine ⟨_, rfl, fun closed => ⟨tight.closed closed, fun event isNew => ?_⟩⟩
    obtain ⟨activity, acted, rfl⟩ := mem_map.mp isNew
    cases activity with
    | delivered => simp [delivers acted] at closed
    | _ => rfl
  | grant free token readings healthy admitted =>
    obtain ⟨-, accepting, -⟩ := tryAcquire_admitted admitted
    exact ⟨[_], rfl, fun closed => by simp [accepting] at closed⟩
  | refuse token readings refused =>
    refine ⟨_, rfl, fun closed => ⟨?_, handovers _⟩⟩
    rcases tryAcquire_refused refused with ends | ends
    · rwa [ends]
    · rw [ends, close_accepting]
  | close => exact ⟨_, rfl, fun _ => ⟨close_accepting, handovers _⟩⟩
  | @retire object lease live retiring =>
    exact ⟨handover world.owner.retire.handed ++ [.retired lease.identity], by simp,
      fun _ => ⟨rfl, forall_mem_append.mpr
        ⟨handovers _, forall_mem_singleton.mpr rfl⟩⟩⟩
  | publish live cleaned deadline readings admitted =>
    obtain ⟨eligible, -⟩ := publishReturn_admitted admitted
    refine ⟨[_], rfl, fun closed => ?_⟩
    simp [OwnershipState.eligible, closed] at eligible
  | move live idle free | reauthorize authorities =>
    exact ⟨[], rfl, fun closed => ⟨closed, by simp⟩⟩
  | check generation readings =>
    exact ⟨[], rfl, fun closed => ⟨tightens_cacheCurrent.closed closed, by simp⟩⟩

theorem extends_of_steps (steps : ReflTransGen Step world after) :
    ∃ events, after.history = events ++ world.history ∧ (world.owner.accepting = false →
        after.owner.accepting = false ∧ ∀ event ∈ events, event.admits = false) := by
  induction steps with
  | refl => exact ⟨[], rfl, fun closed => ⟨closed, by simp⟩⟩
  | tail _ taken ih =>
    obtain ⟨earlier, before, quiet⟩ := ih
    obtain ⟨last, next, quietly⟩ := taken.extends
    refine ⟨last ++ earlier, by rw [next, before, append_assoc], fun closed => ?_⟩
    obtain ⟨stillClosed, none_earlier⟩ := quiet closed
    obtain ⟨nowClosed, none_last⟩ := quietly stillClosed
    exact ⟨nowClosed, fun event isNew =>
      (mem_append.mp isNew).elim (none_last event) (none_earlier event)⟩

theorem Exclusive.reached (reached : Reachable Initial Step world) : world.Exclusive :=
  reached.invariant (fun _ => Exclusive.initial) fun _ holds taken => holds.step taken

/-- In every run of any number of threads: at most one lease is live, the owner is leased exactly
then, and the session is present while it is; the session is handed over at most once and with no
lease left; a closed owner grants no lease and takes no session back. -/
theorem ownership_exclusive (reached : Reachable Initial Step world) :
    (∀ first second, (world.leases first).isSome → (world.leases second).isSome →
      first = second) ∧
    (world.owner.leased = true ↔ ∃ object, (world.leases object).isSome) ∧
    ((∃ object, (world.leases object).isSome) → world.owner.session = true) ∧
    world.history.count .handedOver ≤ 1 ∧
    (.handedOver ∈ world.history → ∀ object, world.leases object = none) ∧
    (world.owner.accepting = false → ∀ later, ReflTransGen Step world later →
      later.owner.accepting = false ∧
        ∃ events, later.history = events ++ world.history ∧
          ∀ event ∈ events, event.admits = false) := by
  have holds := Exclusive.reached reached
  refine ⟨fun _ _ => holds.unique, holds.leased, fun live => holds.present (holds.leased.mpr live),
    ?_, fun handed object => ?_, fun closed later steps => ?_⟩
  · rw [holds.handedOnce]
    split <;> omega
  · by_contra someone
    have present := holds.present (holds.leased.mpr ⟨object, Option.isSome_iff_ne_none.mpr someone⟩)
    have never := holds.handedOnce
    rw [present, if_pos rfl, List.count_eq_zero] at never
    exact never handed
  · obtain ⟨events, extended, admitsNone⟩ := extends_of_steps steps
    exact ⟨(admitsNone closed).1, events, extended, (admitsNone closed).2⟩

/-- A lease is granted and retired, which hands the session over. -/
theorem ownership_exclusive_retired :
    ∃ world, Reachable Initial Step world ∧ .handedOver ∈ world.history ∧
      world.owner.accepting = false ∧ ∀ object, world.leases object = none := by
  have begun : Initial { owner := {} } := ⟨rfl, rfl, rfl, rfl, rfl, rfl⟩
  have granted := (Reachable.start begun).next (@Step.grant _ 0 rfl none ⟨0, 0, 0⟩ false rfl)
  have abandoned := granted.next (@Step.act _ 0 ⟨0, .idle⟩ _ _ _ rfl .abandon)
  have retired := abandoned.next (@Step.retire _ 0 ⟨0, .retiring⟩ rfl rfl)
  obtain ⟨-, -, -, -, vacant, -⟩ := ownership_exclusive retired
  exact ⟨_, retired, by decide, rfl, vacant (by decide)⟩

end World

end Odbcpp.Ownership
