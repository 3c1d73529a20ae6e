import Odbcpp.Auth.AuthCore
import Odbcpp.Foundation.Reachability

/-!
# Histories of receipts

Any number of authorities, acquisitions that wait for their issuer, and receipts that
are moved and taken, in any order. Over every history a material leaves a receipt at most
once, from the authority that issued it, and only within everything the checks promise.
-/

namespace Odbcpp.Auth

open Foundation Program Triple List
open List (getElem?_set mem_append mem_append_right mem_cons mem_of_getElem? mem_singleton)
open And (left right)

/-! ## Events -/

namespace AuthEvent

def timeOf (authority : Nat) : AuthEvent → Option Deadline
  | .sampled sampler now => if sampler = authority then some now else none
  | _ => none

def stopOf (cancellation : Nat) : AuthEvent → Option Bool
  | .observed asked stop => if asked = cancellation then some stop else none
  | _ => none

def handedOutSerial : AuthEvent → Option Nat
  | .handedOut _ serial _ _ _ => some serial
  | _ => none

/-- A reading of the clock or of a cancellation. -/
inductive Reading (authority : Nat) : AuthEvent → Prop where
  | sampled (now : Deadline) : Reading authority (.sampled authority now)
  | observed (cancellation : Nat) (stop : Bool) : Reading authority (.observed cancellation stop)

end AuthEvent

def timesOf (authority : Nat) (events : List AuthEvent) : List Deadline :=
  events.filterMap (AuthEvent.timeOf authority)

def handedOut (events : List AuthEvent) : List Nat := events.filterMap AuthEvent.handedOutSerial

/-! ## The state of all authorities -/

/-- An acquisition whose issuer has not answered. -/
structure Acquisition where
  authority : Nat
  request : Request
  cancel : Option Nat
deriving DecidableEq

/-- All authorities, waiting acquisitions and receipts. -/
structure Shop (ω : Type) where
  world : ω
  /-- The authorities by their identity; a destroyed one is absent. -/
  authorities : List (Option Authority) := []
  acquisitions : List (Option Acquisition) := []
  receipts : List Receipt := []
  /-- Ghost: the events, the latest first, and the number of receipts issued. -/
  events : List AuthEvent := []
  serials : Nat := 0

/-- The calls of a history. -/
inductive AuthCall where
  | create (binding : Binding)
  | destroy (authority : Nat)
  | acquire (authority : Nat) (request : Request) (cancel : Option Nat)
  /-- The issuer of a waiting acquisition answers. -/
  | answer (acquisition : Nat)
  | moveReceipt (receipt : Nat)
  | take (authority receipt : Nat) (cancel : Option Nat)
deriving DecidableEq

def Receipt.movedFrom (receipt : Receipt) : Receipt :=
  { receipt with
    issuer := none
    request := { receipt.request with binding := receipt.request.binding.movedFrom }
    material := receipt.material.map Material.movedFrom }

namespace Shop

variable {ω : Type} (surroundings : Surroundings ω) (shop : Shop ω)

def find (authority : Nat) : Option Authority := (shop.authorities[authority]?).join

def alive (authority : Nat) : Bool := (shop.find authority).isSome

def desk (authority : Authority) : Desk ω := ⟨shop.world, authority, shop.events⟩

/-- Put an authority back after its code ran. -/
def leave (desk : Desk ω) : Shop ω :=
  { shop with
    world := desk.world
    events := desk.events
    authorities := shop.authorities.set desk.authority.identity (some desk.authority) }

def create (binding : Binding) : Shop ω :=
  if binding.invariantError.isSome then shop
  else
    let (allocated, world) := surroundings.allocates shop.world
    if allocated then
      { shop with
        world
        authorities := shop.authorities ++ [some { binding, identity := shop.authorities.length }]
        events := .created shop.authorities.length binding :: shop.events }
    else { shop with world }

def destroy (authority : Nat) : Shop ω :=
  if shop.acquisitions.any fun waiting => waiting.any (·.authority = authority) then shop
  else { shop with authorities := shop.authorities.set authority none }

def acquire (authority : Authority) (request : Request) (cancel : Option Nat) : Shop ω :=
  let (result, desk) :=
    (Authority.beginAcquire surroundings request cancel).outcome (shop.desk authority)
  match result with
  | .error _ => shop.leave desk
  | .ok _ =>
    { shop.leave desk with
      acquisitions := shop.acquisitions ++ [some ⟨authority.identity, request, cancel⟩] }

def answer (shop : Shop ω) (authority : Authority) (waiting : Acquisition) : Shop ω :=
  let (answer, world) := surroundings.acquire authority.identity waiting.request waiting.cancel
    shop.world
  let (result, desk) := (Authority.publish surroundings waiting.request waiting.cancel shop.serials
    answer).outcome { shop.desk authority with world }
  match result with
  | .error _ => shop.leave desk
  | .ok receipt =>
    { shop.leave desk with receipts := shop.receipts ++ [receipt], serials := shop.serials + 1 }

def moveReceipt (index : Nat) (receipt : Receipt) : Shop ω :=
  { shop with receipts := shop.receipts.set index receipt.movedFrom ++ [receipt] }

/-- What `take` returns, and what it leaves. -/
def take (authority : Authority) (index : Nat) (receipt : Receipt)
    (cancel : Option Nat) : Except Reason Material × Shop ω :=
  let (result, taking) := (Authority.take surroundings shop.alive cancel).outcome
    ⟨shop.desk authority, receipt⟩
  (result, { shop.leave taking.desk with receipts := shop.receipts.set index taking.receipt })

/-- Make a call; objects that do not exist cannot be called. -/
def perform : AuthCall → Shop ω
  | .create binding => shop.create surroundings binding
  | .destroy authority => shop.destroy authority
  | .acquire authority request cancel =>
    match shop.find authority with
    | none => shop
    | some authority => shop.acquire surroundings authority request cancel
  | .answer acquisition =>
    match (shop.acquisitions[acquisition]?).join with
    | none => shop
    | some waiting =>
      match shop.find waiting.authority with
      | none => shop
      | some authority =>
        { shop with acquisitions := shop.acquisitions.set acquisition none }.answer surroundings
          authority waiting
  | .moveReceipt receipt =>
    match shop.receipts[receipt]? with
    | none => shop
    | some moved => shop.moveReceipt receipt moved
  | .take authority receipt cancel =>
    match shop.find authority, shop.receipts[receipt]? with
    | some authority, some taken => (shop.take surroundings authority receipt taken cancel).2
    | _, _ => shop

def run (calls : List AuthCall) : Shop ω := calls.foldl (perform surroundings) shop

end Shop

/-! ## What the checks establish -/

/-- Everything a material must satisfy to be handed out. -/
structure Proper (binding : Binding) (now : Deadline) (request : Request) (material : Material) :
    Prop where
  target : request.binding.target = binding.target ∧ material.binding.target = binding.target
  source : request.binding.source = binding.source ∧ material.binding.source = binding.source
  method : request.binding.method = binding.method ∧ material.binding.method = binding.method
  principal : material.principal = request.binding.target.principal
  inTime : now < request.deadline
  unexpired : material.validity.kind = .trustedMonotonicExpiry →
    material.validity.issuedAt ≤ now ∧
      request.deadline.ticks + request.headroom < material.validity.expiresAt.ticks

theorem Binding.mismatch_eq_none {expected actual : Binding}
    (same : expected.mismatch actual = none) :
    actual.target = expected.target ∧ actual.source = expected.source ∧
      actual.method = expected.method := by
  simp only [mismatch, refusal_eq_none, ne_eq, not_not] at same
  exact ⟨same.1.symm, same.2.1.symm, same.2.2.1.symm⟩

theorem requiredUntil_ticks {deadline required : Deadline} {headroom : Int}
    (sum : requiredUntil deadline headroom = some required) :
    required.ticks = deadline.ticks + headroom := by
  unfold requiredUntil at sum
  split at sum
  · simp only [Option.ite_none_right_eq_some, Option.some.injEq] at sum
    rw [← sum.2]
  · cases sum

variable {material : Material} {authority : Nat} {now : Deadline}

/-- The conditions of the claim are what the two checks leave. -/
theorem proper_of_checks {binding request}
    (agrees : binding.mismatch request.binding = none)
    (inTime : now < request.deadline) (checked : checkMaterial request material now = none) :
    Proper binding now request material := by
  simp only [checkMaterial, Option.or_eq_none_iff, refusal_eq_none, ne_eq, not_not] at checked
  obtain ⟨-, sameMaterial, principal, -, expiry⟩ := checked
  obtain ⟨target, source, method⟩ := Binding.mismatch_eq_none agrees
  obtain ⟨targetToo, sourceToo, methodToo⟩ := Binding.mismatch_eq_none sameMaterial
  refine ⟨⟨target, targetToo.trans target⟩, ⟨source, sourceToo.trans source⟩,
    ⟨method, methodToo.trans method⟩, principal, inTime, fun expires => ?_⟩
  rw [if_pos expires, refusal_eq_none] at expiry
  obtain ⟨issued, required⟩ := expiry
  split at required
  · cases required
  rename_i required' sum
  have ticks := requiredUntil_ticks sum
  simp only [refusal_eq_none, not_or, Deadline.le_def] at required
  simp only [Deadline.lt_def, Deadline.le_def] at issued ⊢
  omega

/-! ## The code of an authority -/

section

variable {ω : Type} {surroundings : Surroundings ω} {start desk : Desk ω} {request : Request}
  {cancel : Option Nat} {serial : Nat}

/-- Nothing but cancellations was read. -/
structure Observes (start desk : Desk ω) : Prop where
  authority : desk.authority = start.authority
  observations : ∃ observations, desk.events = observations ++ start.events ∧
    ∀ event ∈ observations, ∃ cancellation stop, event = .observed cancellation stop

/-- The accepted times ascend to the high-water mark. -/
structure Clocked (authority : Authority) (events : List AuthEvent) : Prop where
  ordered : (timesOf authority.identity events).Pairwise fun later earlier => earlier ≤ later
  bounded : ∀ time ∈ timesOf authority.identity events,
    ∃ mark, authority.highWater = some mark ∧ time ≤ mark

/-- Only the clock and cancellations were read, and the times ascend. -/
structure Reads (start desk : Desk ω) : Prop where
  binding : desk.authority.binding = start.authority.binding
  identity : desk.authority.identity = start.authority.identity
  readings : ∃ added, desk.events = added ++ start.events ∧
    ∀ event ∈ added, event.Reading start.authority.identity
  clocked : Clocked start.authority start.events → Clocked desk.authority desk.events

theorem Observes.refl (desk : Desk ω) : Observes desk desk :=
  ⟨rfl, [], rfl, by simp⟩

theorem Observes.trans {last : Desk ω} (first : Observes start desk) (second : Observes desk last) :
    Observes start last := by
  obtain ⟨observations, events, only⟩ := first.observations
  obtain ⟨more, eventsToo, onlyToo⟩ := second.observations
  refine ⟨second.authority.trans first.authority, more ++ observations, ?_, ?_⟩
  · rw [eventsToo, events, append_assoc]
  · exact forall_mem_append.mpr ⟨onlyToo, only⟩

theorem Reads.refl (desk : Desk ω) : Reads desk desk :=
  ⟨rfl, rfl, ⟨[], rfl, by simp⟩, id⟩

theorem Reads.trans {last : Desk ω} (first : Reads start desk) (second : Reads desk last) :
    Reads start last := by
  obtain ⟨added, events, only⟩ := first.readings
  obtain ⟨more, eventsToo, onlyToo⟩ := second.readings
  refine ⟨second.binding.trans first.binding, second.identity.trans first.identity,
    ⟨more ++ added, ?_, ?_⟩, second.clocked ∘ first.clocked⟩
  · rw [eventsToo, events, append_assoc]
  · exact forall_mem_append.mpr ⟨first.identity ▸ onlyToo, only⟩

theorem timesOf_timeless {authority added}
    (timeless : ∀ event ∈ added, event.timeOf authority = none) (events : List AuthEvent) :
    timesOf authority (added ++ events) = timesOf authority events := by
  rw [timesOf, filterMap_append, filterMap_eq_nil_iff.mpr timeless]
  rfl

theorem Clocked.unaffected {authority : Authority} {events grown : List AuthEvent}
    (clocked : Clocked authority events)
    (same : timesOf authority.identity grown = timesOf authority.identity events) :
    Clocked authority grown :=
  ⟨same ▸ clocked.ordered, same ▸ clocked.bounded⟩

theorem Observes.timesOf_eq (observes : Observes start desk) (authority : Nat) :
    timesOf authority desk.events = timesOf authority start.events := by
  obtain ⟨observations, events, only⟩ := observes.observations
  rw [events]
  refine timesOf_timeless (fun event member => ?_) _
  obtain ⟨cancellation, stop, rfl⟩ := only event member
  rfl

theorem Observes.reads (observes : Observes start desk) : Reads start desk := by
  obtain ⟨observations, events, only⟩ := observes.observations
  refine ⟨by rw [observes.authority], by rw [observes.authority], ⟨observations, events, ?_⟩, ?_⟩
  · intro event member
    obtain ⟨cancellation, stop, rfl⟩ := only event member
    exact .observed cancellation stop
  · rw [observes.authority]
    exact fun clocked => clocked.unaffected (observes.timesOf_eq _)

/-- The clock was read and its time accepted. -/
structure Samples (start : Desk ω) (now : Deadline) (desk : Desk ω) : Prop where
  authority : desk.authority = { start.authority with highWater := some now }
  events : desk.events = .sampled start.authority.identity now :: start.events
  later : ∀ mark, start.authority.highWater = some mark → mark ≤ now

theorem Samples.reads {now} (samples : Samples start now desk) : Reads start desk := by
  refine ⟨by rw [samples.authority], by rw [samples.authority],
    ⟨[.sampled start.authority.identity now], samples.events, ?_⟩, ?_⟩
  · intro event member
    obtain rfl := mem_singleton.mp member
    exact .sampled now
  intro clocked
  have times : timesOf desk.authority.identity desk.events =
      now :: timesOf start.authority.identity start.events := by
    rw [samples.authority, samples.events]
    simp [timesOf, AuthEvent.timeOf]
  have below (time : Deadline)
      (member : time ∈ timesOf start.authority.identity start.events) : time ≤ now := by
    obtain ⟨mark, isMark, within⟩ := clocked.bounded time member
    exact Int.le_trans within (samples.later mark isMark)
  constructor
  · rw [times]
    exact pairwise_cons.mpr ⟨below, clocked.ordered⟩
  rw [times]
  intro time member
  refine ⟨now, by rw [samples.authority], ?_⟩
  rcases mem_cons.mp member with rfl | old
  · exact Int.le_refl _
  · exact below time old

/-- An injected object was asked and nothing recorded. -/
theorem Observes.world (start : Desk ω) (world : ω) : Observes start { start with world } :=
  ⟨rfl, [], rfl, by simp⟩

theorem refuse_triple {σ : Type} {before : σ → Prop} {abrupt : Reason → σ → Prop}
    {error : Option Reason} (refused : ∀ reason state, before state → abrupt reason state) :
    Triple before (refuse error) (fun _ state => before state ∧ error = none) abrupt := by
  cases error with
  | none => exact pure () fun _ holds => ⟨holds, rfl⟩
  | some reason => exact throw reason (refused reason)

theorem refuseIf_triple {σ : Type} {before : σ → Prop} {abrupt : Reason → σ → Prop}
    {condition : Prop} [Decidable condition] {reason : Reason}
    (refused : ∀ state, before state → abrupt reason state) :
    Triple before (refuseIf condition reason)
      (fun _ state => before state ∧ ¬ condition) abrupt := by
  unfold refuseIf
  by_cases holds : condition
  · rw [if_pos holds]
    exact throw reason refused
  · rw [if_neg holds]
    exact pure () fun _ before => ⟨before, holds⟩

theorem consult_asks {α : Type} {question : ω → α × ω} {abrupt : Reason → Desk ω → Prop} :
    Triple (· = start) (consult question)
      (fun _ desk => ∃ world, desk = { start with world }) abrupt := by
  rintro start rfl
  exact ⟨_, rfl⟩

theorem sample_samples : Triple (· = start) (Authority.sample surroundings)
      (fun now => Samples start now) (fun _ => Reads start) := by
  unfold Authority.sample
  refine bind read fun desk => ?_
  refine knowing (fun _ read => read.1.trans read.2) fun isStart => ?_
  refine bind (consult_asks.assuming fun _ read => read.2) fun now => ?_
  refine bind (refuseIf_triple ?_) fun _ => ?_
  · rintro _ ⟨world, rfl⟩
    exact (Observes.world start world).reads
  refine bind (update _ ?_) fun _ => pure now fun _ => id
  rintro state ⟨⟨world, rfl⟩, accepted⟩
  refine ⟨rfl, by rw [isStart]; rfl, fun mark isMark => ?_⟩
  simp only [isStart, isMark, Option.any_some, decide_eq_true_eq, not_or,
    Deadline.lt_def] at accepted
  exact Int.not_lt.mp accepted.2

theorem stopRequested_observes : Triple (· = start) (Authority.stopRequested surroundings cancel)
      (fun stop desk => Observes start desk ∧ ∀ cancellation, cancel = some cancellation →
        desk.events.findSome? (AuthEvent.stopOf cancellation) = some stop)
      (fun _ _ => False) := by
  rintro start rfl
  rcases cancel with _ | cancellation
  · exact ⟨.refl start, nofun⟩
  refine ⟨⟨rfl, [_], rfl, ?_⟩, ?_⟩
  · intro event member
    obtain rfl := mem_singleton.mp member
    exact ⟨_, _, rfl⟩
  · rintro _ ⟨⟩
    simp [Desk.log, AuthEvent.stopOf]

theorem checkRequest_observes :
    Triple (· = start) (Authority.checkRequest surroundings request now cancel)
      (fun _ desk => Observes start desk ∧
        start.authority.binding.mismatch request.binding = none ∧ now < request.deadline)
      (fun _ => Observes start) := by
  unfold Authority.checkRequest
  refine bind (stopRequested_observes.consequence (fun _ => id)
    (fun _ _ => left) (fun _ _ => False.elim)) fun stop => ?_
  refine bind (refuseIf_triple fun _ => id) fun _ => ?_
  refine bind ((refuse_triple fun _ _ => id).assuming fun _ => left) fun _ => ?_
  refine bind (read.assuming fun _ => left) fun desk => ?_
  refine knowing (fun state read => read.1 ▸ read.2.authority) fun same => ?_
  refine bind ((refuse_triple fun _ _ => id).assuming fun _ => right) fun _ => ?_
  refine (refuseIf_triple fun _ observes => observes.1).concluding ?_
  rintro _ state ⟨⟨observes, agrees⟩, inTime⟩
  exact ⟨observes, same ▸ agrees, Int.not_le.mp inTime⟩

theorem Reads.extend {α : Type} {program : Admitting ω α}
    (fromHere : ∀ desk : Desk ω, Triple (· = desk) program (fun _ => Reads desk)
      (fun _ => Reads desk)) :
    Triple (Reads start) program (fun _ => Reads start) (fun _ => Reads start) := by
  intro desk reads
  have reached := fromHere desk desk rfl
  rcases ends : program.outcome desk with ⟨result, left⟩
  rw [ends] at reached
  cases result with
  | ok value | error reason => exact reads.trans reached

theorem sample_reads : Triple (Reads start) (Authority.sample surroundings) (fun _ => Reads start)
      (fun _ => Reads start) :=
  Reads.extend fun _ => sample_samples.concluding fun _ _ => Samples.reads

theorem stopRequested_reads : Triple (Reads start) (Authority.stopRequested surroundings cancel)
      (fun _ => Reads start) (fun _ => Reads start) :=
  Reads.extend fun _ => stopRequested_observes.consequence (fun _ => id)
    (fun _ _ observes => observes.1.reads) (fun _ _ => False.elim)

theorem checkRequest_reads :
    Triple (Reads start) (Authority.checkRequest surroundings request now cancel)
      (fun _ => Reads start) (fun _ => Reads start) :=
  Reads.extend fun _ => checkRequest_observes.consequence (fun _ => id)
    (fun _ _ observes => observes.1.reads) (fun _ _ observes => observes.reads)

theorem beginAcquire_reads : Triple (· = start) (Authority.beginAcquire surroundings request cancel)
      (fun _ => Reads start) (fun _ => Reads start) :=
  bind (sample_samples.concluding fun _ _ => Samples.reads) fun _ =>
    checkRequest_reads

def issuedReceipt (authority serial : Nat) (request : Request) (material : Material) : Receipt :=
  { issuer := some authority, request, material := some material, serial }

theorem makeReceipt_reads :
    Triple (Reads start) (Authority.makeReceipt surroundings request material serial)
      (fun receipt desk => Reads start desk ∧
        receipt = issuedReceipt start.authority.identity serial request material)
      (fun _ => Reads start) := by
  unfold Authority.makeReceipt
  refine bind (Reads.extend fun desk => consult_asks.concluding ?_) fun _ => ?_
  · rintro _ _ ⟨world, rfl⟩
    exact (Observes.world desk world).reads
  refine bind (refuseIf_triple fun _ => id) fun _ => ?_
  unfold Material.move
  cases material.secret.consuming with
  | true => exact throw _ fun _ => left
  | false =>
    refine bind (read.assuming fun _ => left) fun desk => ?_
    refine pure _ ?_
    rintro state ⟨rfl, reads⟩
    exact ⟨reads, by rw [issuedReceipt, ← reads.identity]⟩

theorem publish_issues {answer} :
    Triple (· = start) (Authority.publish surroundings request cancel serial answer)
      (fun receipt desk => ∃ checked material, Reads start checked ∧
        desk = checked.log (.issued start.authority.identity serial request material) ∧
        receipt = issuedReceipt start.authority.identity serial request material)
      (fun _ => Reads start) := by
  cases answer with
  | badAlloc | threw => exact throw _ fun _ same => same ▸ Reads.refl _
  | returned result =>
    refine bind (sample_reads.assuming fun _ same => same ▸ Reads.refl _) fun now => ?_
    refine bind checkRequest_reads fun _ => ?_
    refine bind (ofExcept (fun _ _ _ => id) (fun _ _ _ => id))
      fun material => ?_
    refine bind (refuse_triple fun _ _ => id) fun _ => ?_
    refine bind (makeReceipt_reads.assuming fun _ => left) fun receipt => ?_
    refine knowing (fun _ => right) fun isReceipt => ?_
    refine bind (sample_reads.assuming fun _ => left) fun later => ?_
    refine bind checkRequest_reads fun _ => ?_
    refine bind (refuse_triple fun _ _ => id) fun _ => ?_
    refine bind (stopRequested_reads.assuming fun _ => left) fun stop => ?_
    refine bind (refuseIf_triple fun _ => id) fun _ => ?_
    rintro desk ⟨reads, -⟩
    exact ⟨desk, material, reads, by rw [← reads.identity], isReceipt⟩

/-- How a material leaves a receipt: a time is sampled, the checks pass, no stop is seen, and the
receipt is empty. -/
structure HandsOut (start : Taking ω) (issuer cancel : Option Nat) (material : Material)
    (taking : Taking ω) : Prop where
  issuer : issuer = some start.desk.authority.identity
  receipt : taking.receipt = { start.receipt with material := none }
  checked : ∃ now sampled checked, Samples start.desk now sampled ∧ Observes sampled checked ∧
    Proper start.desk.authority.binding now start.receipt.request material ∧
    (∀ cancellation, cancel = some cancellation →
      checked.events.findSome? (AuthEvent.stopOf cancellation) = some false) ∧
    taking.desk = checked.log (.handedOut start.desk.authority.identity start.receipt.serial cancel
      start.receipt.request material)

/-- How a refused attempt ends before the material is destroyed. -/
structure Abandons (start taking : Taking ω) : Prop where
  desk : Reads start.desk taking.desk
  receipt : taking.receipt = start.receipt ∨ taking.receipt = { start.receipt with material := none }

/-- A time was sampled for the attempt, and only cancellations were looked at since. -/
structure Attempts (start : Taking ω) (now : Deadline) (taking : Taking ω) : Prop where
  receipt : taking.receipt = start.receipt
  since : ∃ sampled, Samples start.desk now sampled ∧ Observes sampled taking.desk

variable {start taking : Taking ω} {issuer : Option Nat}

theorem Attempts.reads (attempts : Attempts start now taking) : Reads start.desk taking.desk := by
  obtain ⟨sampled, samples, observes⟩ := attempts.since
  exact samples.reads.trans observes.reads

theorem Attempts.abandons (attempts : Attempts start now taking) : Abandons start taking :=
  ⟨attempts.reads, .inl attempts.receipt⟩

theorem Attempts.observes {left : Desk ω} (attempts : Attempts start now taking)
    (observes : Observes taking.desk left) : Attempts start now { taking with desk := left } := by
  obtain ⟨sampled, samples, earlier⟩ := attempts.since
  exact ⟨attempts.receipt, sampled, samples, earlier.trans observes⟩

theorem sample_attempts : Triple (· = start) (onDesk (Authority.sample surroundings))
      (fun now => Attempts start now) (fun _ => Abandons start) := by
  refine onPart ?_
  rintro start rfl
  refine sample_samples.consequence (fun _ => id) ?_ ?_
  · intro now left samples
    exact ⟨rfl, left, samples, .refl left⟩
  · intro _ left reads
    exact ⟨reads, .inl rfl⟩

theorem checkRequest_attempts : Triple (Attempts start now)
      (onDesk (Authority.checkRequest surroundings request now cancel))
      (fun _ taking => Attempts start now taking ∧
        start.desk.authority.binding.mismatch request.binding = none ∧ now < request.deadline)
      (fun _ => Abandons start) := by
  refine onPart fun taking attempts => ?_
  refine checkRequest_observes.consequence (fun _ => id) ?_ ?_
  · rintro _ left ⟨observes, agrees, inTime⟩
    exact ⟨attempts.observes observes, attempts.reads.binding ▸ agrees, inTime⟩
  · intro _ left observes
    exact (attempts.observes observes).abandons

/-- The material was taken at a time that was read before. -/
structure Emptied (start : Taking ω) (now : Deadline) (taking : Taking ω) : Prop where
  receipt : taking.receipt = { start.receipt with material := none }
  since : ∃ sampled, Samples start.desk now sampled ∧ Observes sampled taking.desk

theorem Emptied.abandons (emptied : Emptied start now taking) : Abandons start taking := by
  obtain ⟨sampled, samples, observes⟩ := emptied.since
  exact ⟨samples.reads.trans observes.reads, .inr emptied.receipt⟩

theorem Attempts.discard (attempts : Attempts start now taking) :
    Emptied start now taking.discard :=
  ⟨by rw [Taking.discard, attempts.receipt], attempts.since⟩

theorem stopRequested_emptied :
    Triple (Emptied start now) (onDesk (Authority.stopRequested surroundings cancel))
      (fun stop taking => Emptied start now taking ∧ ∀ cancellation, cancel = some cancellation →
        taking.desk.events.findSome? (AuthEvent.stopOf cancellation) = some stop)
      (fun _ => Abandons start) := by
  refine onPart fun taking emptied => ?_
  refine stopRequested_observes.consequence (fun _ => id) ?_ fun _ _ => False.elim
  rintro stop left ⟨observes, answered⟩
  obtain ⟨sampled, samples, earlier⟩ := emptied.since
  exact ⟨⟨emptied.receipt, sampled, samples, earlier.trans observes⟩, answered⟩

theorem handOver_handsOut (trusted : issuer = some start.desk.authority.identity)
    (proper : Proper start.desk.authority.binding now start.receipt.request material) :
    Triple (Attempts start now) (Authority.handOver surroundings cancel start.receipt material)
      (fun handed taking => handed = material ∧ HandsOut start issuer cancel material taking)
      (fun _ => Abandons start) := by
  unfold Authority.handOver Material.move
  cases material.secret.consuming with
  | true => exact throw _ fun _ attempts => attempts.abandons
  | false =>
    have emptying : Triple (Attempts start now) (modify Taking.discard)
        (fun _ => Emptied start now) (fun _ : Reason => Abandons start) :=
      fun _ attempts => attempts.discard
    refine bind emptying fun _ => ?_
    refine bind stopRequested_emptied fun stop => ?_
    refine bind (refuseIf_triple fun _ emptied => emptied.1.abandons) fun _ => ?_
    rintro taking ⟨⟨emptied, answered⟩, goesOn⟩
    rw [Bool.not_eq_true] at goesOn
    subst goesOn
    obtain ⟨sampled, samples, observes⟩ := emptied.since
    have identity := (samples.reads.trans observes.reads).identity
    exact ⟨rfl, trusted, emptied.receipt, now, sampled, taking.desk, samples, observes, proper,
      answered, by rw [← identity]; rfl⟩

theorem release_handsOut :
    Triple (· = start) (Authority.release surroundings issuer cancel material)
      (fun handed taking => handed = material ∧ HandsOut start issuer cancel material taking)
      (fun _ => Abandons start) := by
  unfold Authority.release
  refine bind read fun entry => ?_
  refine knowing (fun _ read => read.1.trans read.2) fun isStart => ?_
  subst isStart
  refine bind ((refuseIf_triple ?_).assuming fun _ => right) fun _ => ?_
  · rintro _ rfl
    exact ⟨.refl _, .inl rfl⟩
  refine knowing (fun _ => right) fun trusted => ?_
  refine bind (sample_attempts.assuming fun _ => left) fun now => ?_
  refine bind checkRequest_attempts fun _ => ?_
  refine knowing (fun _ => right) fun ⟨agrees, inTime⟩ => ?_
  refine bind ((refuse_triple fun _ _ attempts => attempts.abandons).assuming
    fun _ => left) fun _ => ?_
  refine knowing (fun _ => right) fun accepted => ?_
  exact (handOver_handsOut (not_not.mp trusted) (proper_of_checks agrees inTime accepted)).assuming
    fun _ => left

/-- A refused attempt leaves an empty receipt. A receipt without material is left as it
is. -/
structure Refuses (start taking : Taking ω) : Prop where
  desk : Reads start.desk taking.desk
  receipt : taking.receipt = { start.receipt with issuer := none, material := none } ∨
    start.receipt.material = none ∧ taking.receipt = start.receipt

theorem take_empties {alive} :
    Triple (· = start) (Authority.take surroundings alive cancel)
      (fun material taking => start.receipt.material = some material ∧
        HandsOut { start with receipt := { start.receipt with issuer := none } }
          (start.receipt.issuer.filter alive) cancel material taking)
      (fun _ => Refuses start) := by
  unfold Authority.take
  refine bind read fun entry => ?_
  refine knowing (fun _ read => read.1.trans read.2) fun isStart => ?_
  subst isStart
  dsimp only
  split
  · rename_i empty
    refine throw _ ?_
    rintro _ ⟨-, rfl⟩
    exact ⟨.refl _, .inr ⟨empty, rfl⟩⟩
  rename_i material held
  have letsGo : Triple (fun state => entry = state ∧ state = entry)
      (modify fun taking : Taking ω =>
        { taking with receipt := { taking.receipt with issuer := none } })
      (fun _ => (· = { entry with receipt := { entry.receipt with issuer := none } }))
      (fun _ : Reason => Refuses entry) := by
    rintro _ ⟨-, rfl⟩
    rfl
  refine bind letsGo fun _ => ?_
  refine tryCatch (release_handsOut.concluding ?_) fun reason => ?_
  · rintro handed taking ⟨rfl, handsOut⟩
    exact ⟨held, handsOut⟩
  rintro taking ⟨reads, receipt⟩
  refine ⟨reads, .inl ?_⟩
  rcases receipt with kept | emptied
  · simp [Taking.discard, kept]
  · simp [Taking.discard, emptied]

end

/-! ## Receipts -/

theorem handedOut_append (added events : List AuthEvent) :
    handedOut (added ++ events) = handedOut added ++ handedOut events :=
  filterMap_append ..

theorem handedOut_readings {added}
    (readings : ∀ event ∈ added, event.Reading authority) : handedOut added = [] := by
  rw [handedOut, filterMap_eq_nil_iff]
  intro event member
  cases readings event member <;> rfl

/-- The receipts that can still hand a material out: each the only one of its acquisition, its
material not handed out. -/
structure Held (receipts : List Receipt) (events : List AuthEvent) (serials : Nat) : Prop where
  numbered : ∀ receipt ∈ receipts, receipt.serial < serials
  live : ∀ receipt ∈ receipts, ∀ authority, receipt.issuer = some authority →
    ∃ material, receipt.material = some material ∧
      .issued authority receipt.serial receipt.request material ∈ events ∧
      receipt.serial ∉ handedOut events
  single : ∀ (index other : Nat) (receipt twin : Receipt), receipts[index]? = some receipt →
    receipts[other]? = some twin → receipt.issuer.isSome → twin.issuer.isSome →
    receipt.serial = twin.serial → index = other

namespace Held

variable {receipts : List Receipt} {events added : List AuthEvent} {serials index : Nat}
  {receipt spent : Receipt}

theorem grow (held : Held receipts events serials) (quiet : handedOut added = []) :
    Held receipts (added ++ events) serials := by
  refine ⟨held.numbered, fun receipt member authority issuer => ?_, held.single⟩
  obtain ⟨material, holds, issued, kept⟩ := held.live receipt member authority issuer
  refine ⟨material, holds, mem_append_right _ issued, ?_⟩
  rw [handedOut_append, quiet]
  exact kept

theorem elsewhere {place kept} (issuer : spent.issuer = none)
    (isPlace : (receipts.set index spent)[place]? = some kept) (isLive : kept.issuer.isSome) :
    index ≠ place ∧ receipts[place]? = some kept := by
  rw [getElem?_set] at isPlace
  split at isPlace
  · split at isPlace
    · cases isPlace
      rw [issuer] at isLive
      cases isLive
    · cases isPlace
  · rename_i apart
    exact ⟨apart, isPlace⟩

theorem spend (held : Held receipts events serials) (found : receipts[index]? = some receipt)
    (serial : spent.serial = receipt.serial) (issuer : spent.issuer = none) :
    Held (receipts.set index spent) events serials := by
  have inside : receipt ∈ receipts := mem_of_getElem? found
  constructor
  · intro other member
    rcases mem_or_eq_of_mem_set member with old | rfl
    · exact held.numbered other old
    · rw [serial]
      exact held.numbered receipt inside
  · intro other member authority isIssuer
    rcases mem_or_eq_of_mem_set member with old | rfl
    · exact held.live other old authority isIssuer
    · rw [issuer] at isIssuer
      cases isIssuer
  · intro first second left right foundLeft foundRight liveLeft liveRight same
    exact held.single first second left right (elsewhere issuer foundLeft liveLeft).2
      (elsewhere issuer foundRight liveRight).2 liveLeft liveRight same

theorem add {more : Nat} (held : Held receipts events serials) (fits : serials ≤ more)
    (numbered : receipt.serial < more) (live : ∀ authority, receipt.issuer = some authority →
      ∃ material, receipt.material = some material ∧
        .issued authority receipt.serial receipt.request material ∈ events ∧
        receipt.serial ∉ handedOut events)
    (unique : receipt.issuer.isSome → ∀ other ∈ receipts, other.issuer.isSome →
      other.serial ≠ receipt.serial) : Held (receipts ++ [receipt]) events more := by
  constructor
  · exact forall_mem_append.mpr ⟨fun other old => (held.numbered other old).trans_le fits,
      forall_mem_singleton.mpr numbered⟩
  · exact forall_mem_append.mpr ⟨held.live, forall_mem_singleton.mpr live⟩
  have place {index : Nat} {found : Receipt}
      (isFound : (receipts ++ [receipt])[index]? = some found) :
      receipts[index]? = some found ∨ index = receipts.length ∧ found = receipt := by
    rcases Nat.lt_trichotomy index receipts.length with before | rfl | beyond
    · rw [List.getElem?_append_left before] at isFound
      exact .inl isFound
    · simp only [List.getElem?_concat_length, Option.some.injEq] at isFound
      exact .inr ⟨rfl, isFound.symm⟩
    · rw [List.getElem?_eq_none (by simpa using beyond)] at isFound
      cases isFound
  intro first second left right foundLeft foundRight liveLeft liveRight same
  rcases place foundLeft with old | ⟨rfl, rfl⟩ <;> rcases place foundRight with oldToo | ⟨rfl, rfl⟩
  · exact held.single first second left right old oldToo liveLeft liveRight same
  · exact absurd same (unique liveRight left (mem_of_getElem? old) liveLeft)
  · exact absurd same.symm (unique liveLeft right (mem_of_getElem? oldToo) liveRight)
  · rfl

theorem distinct (held : Held receipts events serials) (found : receipts[index]? = some receipt)
    (live : receipt.issuer.isSome) (issuer : spent.issuer = none) (other : Receipt)
    (member : other ∈ receipts.set index spent) (otherLive : other.issuer.isSome) :
    other.serial ≠ receipt.serial := by
  intro same
  obtain ⟨place, isPlace⟩ := List.getElem?_of_mem member
  obtain ⟨apart, isOld⟩ := elsewhere issuer isPlace otherLive
  exact apart (held.single place index other receipt isOld found otherLive live same).symm

theorem move (held : Held receipts events serials) (found : receipts[index]? = some receipt) :
    Held (receipts.set index receipt.movedFrom ++ [receipt]) events serials := by
  have inside : receipt ∈ receipts := mem_of_getElem? found
  have moved : Held (receipts.set index receipt.movedFrom) events serials := held.spend found rfl rfl
  exact moved.add le_rfl (held.numbered receipt inside) (held.live receipt inside)
    fun live => held.distinct found live rfl

theorem handOut {cancel request}
    (held : Held receipts events serials) (found : receipts[index]? = some receipt)
    (live : receipt.issuer.isSome) (serial : spent.serial = receipt.serial)
    (issuer : spent.issuer = none) : Held (receipts.set index spent)
      (.handedOut authority receipt.serial cancel request material :: events) serials := by
  have kept := held.spend found serial issuer
  refine ⟨kept.numbered, fun other member identity isIssuer => ?_, kept.single⟩
  obtain ⟨left, holds, issued, unused⟩ := kept.live other member identity isIssuer
  have differs := held.distinct found live issuer other member (by simp [isIssuer])
  refine ⟨left, holds, mem_cons_of_mem _ issued, ?_⟩
  change other.serial ∉ receipt.serial :: handedOut events
  simp [differs, unused]

end Held

/-! ## Histories -/

/-- A handed out material was issued, fits its request, and was not stopped. -/
structure Honoured (earlier : List AuthEvent) (authority serial : Nat) (cancel : Option Nat)
    (request : Request) (material : Material) : Prop where
  issued : .issued authority serial request material ∈ earlier
  admitted : ∃ binding now, .created authority binding ∈ earlier ∧
    earlier.findSome? (AuthEvent.timeOf authority) = some now ∧ Proper binding now request material
  unstopped : ∀ cancellation, cancel = some cancellation →
    earlier.findSome? (AuthEvent.stopOf cancellation) = some false

section

variable {ω : Type} {surroundings : Surroundings ω} {shop : Shop ω} {authority : Authority}
  {identity : Nat} {start desk : Desk ω}

variable {added : List AuthEvent} {giver index : Nat} {receipt : Receipt} {cancel : Option Nat}

/-- Each authority was created and has a clock that does not go back. -/
structure Timed (shop : Shop ω) : Prop where
  born : ∀ identity authority, shop.find identity = some authority →
    authority.identity = identity ∧ .created identity authority.binding ∈ shop.events ∧
      Clocked authority shop.events
  unborn : ∀ identity, shop.authorities.length ≤ identity → timesOf identity shop.events = []
  ordered : ∀ identity, (timesOf identity shop.events).Pairwise fun later earlier =>
    earlier ≤ later

/-- The invariant of all histories. -/
structure Sound (shop : Shop ω) : Prop extends Timed shop where
  held : Held shop.receipts shop.events shop.serials
  numbered : ∀ serial ∈ handedOut shop.events, serial < shop.serials
  once : (handedOut shop.events).Nodup
  honoured : ∀ later earlier authority serial cancel request material,
    shop.events = later ++ .handedOut authority serial cancel request material :: earlier →
    Honoured earlier authority serial cancel request material

theorem find_lt (found : shop.find identity = some authority) :
    identity < shop.authorities.length := by
  by_contra beyond
  rw [Shop.find, List.getElem?_eq_none (not_lt.mp beyond)] at found
  cases found

theorem find_leave (inside : desk.authority.identity < shop.authorities.length) (other : Nat) :
    (shop.leave desk).find other =
      if desk.authority.identity = other then some desk.authority else shop.find other := by
  unfold Shop.find Shop.leave
  rw [getElem?_set]
  split
  · rfl
  · rfl

theorem timesOf_readings {other : Nat} (elsewhere : other ≠ identity)
    (readings : ∀ event ∈ added, event.Reading identity) (events : List AuthEvent) :
    timesOf other (added ++ events) = timesOf other events := by
  refine timesOf_timeless (fun event member => ?_) events
  cases readings event member with
  | sampled now => exact if_neg elsewhere.symm
  | observed cancellation stop => rfl

theorem Timed.leave (timed : Timed shop) (found : shop.find identity = some authority)
    (isAuthority : start.authority = authority) (isEvents : start.events = shop.events)
    (reads : Reads start desk) : Timed (shop.leave desk) := by
  obtain ⟨isIdentity, created, clocked⟩ := timed.born identity authority found
  obtain ⟨added, events, readings⟩ := reads.readings
  rw [isAuthority, isIdentity] at readings
  rw [isEvents] at events
  have deskIdentity : desk.authority.identity = identity := by
    rw [reads.identity, isAuthority, isIdentity]
  have inside : desk.authority.identity < shop.authorities.length := deskIdentity ▸ find_lt found
  have clockedToo : Clocked desk.authority desk.events :=
    reads.clocked (by rw [isAuthority, isEvents]; exact clocked)
  have leftEvents : (shop.leave desk).events = added ++ shop.events := events
  constructor
  · intro other present isPresent
    rw [find_leave inside] at isPresent
    rw [leftEvents]
    split at isPresent
    · rename_i same
      cases isPresent
      have sameBinding : desk.authority.binding = authority.binding := by
        rw [reads.binding, isAuthority]
      refine ⟨same, mem_append_right _ ?_, events ▸ clockedToo⟩
      rw [← same, deskIdentity, sameBinding]
      exact created
    rename_i elsewhere
    obtain ⟨isOther, createdToo, clockedOther⟩ := timed.born other present isPresent
    exact ⟨isOther, mem_append_right _ createdToo, clockedOther.unaffected (timesOf_readings
      (fun same => elsewhere (by rw [deskIdentity, ← same, isOther])) readings _)⟩
  · intro other beyond
    have length : (shop.leave desk).authorities.length = shop.authorities.length := length_set
    rw [length] at beyond
    have elsewhere : other ≠ identity := by
      have := find_lt found
      omega
    rw [leftEvents, timesOf_readings elsewhere readings]
    exact timed.unborn other beyond
  · intro other
    by_cases same : other = identity
    · rw [same, ← deskIdentity]
      exact clockedToo.ordered
    · rw [leftEvents, timesOf_readings same readings]
      exact timed.ordered other

theorem Sound.grow (sound : Sound shop) {grown : Shop ω} (timed : Timed grown)
    (events : grown.events = added ++ shop.events) (quiet : handedOut added = [])
    (receipts : grown.receipts = shop.receipts) (serials : grown.serials = shop.serials) :
    Sound grown := by
  have same : handedOut grown.events = handedOut shop.events := by
    rw [events, handedOut_append, quiet]
    rfl
  refine ⟨timed, ?_, ?_, same ▸ sound.once, ?_⟩
  · rw [events, receipts, serials]
    exact sound.held.grow quiet
  · rw [same, serials]
    exact sound.numbered
  intro later earlier giver serial cancel request material split
  have absent : .handedOut giver serial cancel request material ∉ added := fun member =>
    Option.some_ne_none serial (filterMap_eq_nil_iff.mp quiet _ member)
  obtain ⟨since, -, before⟩ := split_of_notMem absent (events ▸ split)
  exact sound.honoured since earlier giver serial cancel request material before

/-- The code of an authority that only reads keeps the invariant. -/
theorem Sound.leave (sound : Sound shop) (found : shop.find identity = some authority)
    (isAuthority : start.authority = authority) (isEvents : start.events = shop.events)
    (reads : Reads start desk) : Sound (shop.leave desk) := by
  obtain ⟨added, events, readings⟩ := reads.readings
  exact sound.grow (sound.toTimed.leave found isAuthority isEvents reads)
    (events.trans (by rw [isEvents])) (handedOut_readings readings) rfl rfl

/-- Nothing of the invariant is about the injected objects or the waiting acquisitions. -/
theorem Sound.rest (sound : Sound shop) (world : ω) (acquisitions : List (Option Acquisition)) :
    Sound { shop with world, acquisitions } :=
  { sound with }

theorem Timed.record (timed : Timed shop) {event}
    (timeless : ∀ identity, event.timeOf identity = none) :
    Timed { shop with events := event :: shop.events } := by
  have times (identity : Nat) : timesOf identity (event :: shop.events) =
      timesOf identity shop.events := filterMap_cons_none (timeless identity)
  constructor
  · intro identity authority found
    obtain ⟨isIdentity, created, clocked⟩ := timed.born identity authority found
    exact ⟨isIdentity, mem_cons_of_mem _ created, clocked.unaffected (times _)⟩
  · intro identity beyond
    exact (times identity).trans (timed.unborn identity beyond)
  intro identity
  rw [times]
  exact timed.ordered identity

theorem Sound.record (sound : Sound shop) {event}
    (timeless : ∀ identity, event.timeOf identity = none) (keeps : event.handedOutSerial = none) :
    Sound { shop with events := event :: shop.events } :=
  @Sound.grow _ _ [event] sound _ (sound.toTimed.record timeless) rfl
    (filterMap_cons_none keeps) rfl rfl

theorem Timed.add (timed : Timed shop) {binding : Binding}
    (created : .created shop.authorities.length binding ∈ shop.events) : Timed { shop with
      authorities := shop.authorities ++ [some { binding, identity := shop.authorities.length }] } := by
  refine { timed with born := ?_, unborn := ?_ }
  · intro identity authority found
    by_cases old : identity < shop.authorities.length
    · unfold Shop.find at found
      rw [List.getElem?_append_left old] at found
      exact timed.born identity authority found
    have isNew : identity = shop.authorities.length := by
      have := find_lt found
      rw [length_append, length_singleton] at this
      omega
    subst isNew
    unfold Shop.find at found
    rw [List.getElem?_concat_length] at found
    cases found
    have none := timed.unborn shop.authorities.length le_rfl
    refine ⟨rfl, created, ⟨?_, ?_⟩⟩
    · rw [none]
      exact List.Pairwise.nil
    · rw [none]
      simp
  · intro identity beyond
    rw [length_append] at beyond
    exact timed.unborn identity (le_trans (Nat.le_add_right _ _) beyond)

theorem Sound.create (sound : Sound shop) (binding : Binding) :
    Sound (shop.create surroundings binding) := by
  unfold Shop.create
  split
  · exact sound
  dsimp only
  split
  · have recorded : Sound { shop with
        events := .created shop.authorities.length binding :: shop.events } :=
      sound.record (fun _ => rfl) rfl
    have added := recorded.toTimed.add mem_cons_self
    exact { recorded with born := added.born, unborn := added.unborn }
  · exact sound.rest _ _

theorem Sound.destroy (sound : Sound shop) (identity : Nat) : Sound (shop.destroy identity) := by
  unfold Shop.destroy
  split
  · exact sound
  refine { sound with born := ?_, unborn := ?_ }
  · intro other authority found
    have before : shop.find other = some authority := by
      unfold Shop.find at found ⊢
      rw [getElem?_set] at found
      split at found
      · split at found <;> cases found
      · exact found
    exact sound.born other authority before
  · intro other beyond
    rw [length_set] at beyond
    exact sound.unborn other beyond

/-- A receipt is published. -/
theorem Sound.issue (sound : Sound shop) (identity : Nat) (request : Request)
    (material : Material) : Sound { shop with
      events := .issued identity shop.serials request material :: shop.events
      receipts := shop.receipts ++ [issuedReceipt identity shop.serials request material]
      serials := shop.serials + 1 } := by
  have recorded : Sound { shop with
      events := .issued identity shop.serials request material :: shop.events } :=
    sound.record (fun _ => rfl) rfl
  have unused : shop.serials ∉ handedOut shop.events := fun member =>
    absurd (sound.numbered _ member) (lt_irrefl _)
  have held := recorded.held.add (Nat.le_succ _)
    (Nat.lt_succ_self (issuedReceipt identity shop.serials request material).serial) (by
      rintro _ ⟨⟩
      exact ⟨material, rfl, mem_cons_self, unused⟩) (by
      intro _ other member _ same
      exact absurd (sound.held.numbered other member) (same ▸ lt_irrefl _))
  exact { recorded with
    held
    numbered := fun serial member => (recorded.numbered serial member).trans (Nat.lt_succ_self _) }

theorem Sound.handOut (sound : Sound shop) {spent : Receipt}
    (found : shop.receipts[index]? = some receipt) (issuer : receipt.issuer = some giver)
    (serial : spent.serial = receipt.serial) (spends : spent.issuer = none)
    (honoured : Honoured shop.events giver receipt.serial cancel receipt.request material) :
    Sound { shop with
      events := .handedOut giver receipt.serial cancel receipt.request material :: shop.events
      receipts := shop.receipts.set index spent } := by
  have serials : handedOut (.handedOut giver receipt.serial cancel receipt.request material ::
      shop.events) = receipt.serial :: handedOut shop.events := rfl
  have inside : receipt ∈ shop.receipts := mem_of_getElem? found
  obtain ⟨-, -, -, unused⟩ := sound.held.live receipt inside giver issuer
  have timed : Timed { shop with
      events := .handedOut giver receipt.serial cancel receipt.request material :: shop.events } :=
    sound.toTimed.record fun _ => rfl
  refine ⟨⟨timed.born, timed.unborn, timed.ordered⟩,
    sound.held.handOut found (by simp [issuer]) serial spends, ?_, ?_, ?_⟩
  · rw [serials]
    intro other member
    rcases mem_cons.mp member with rfl | old
    · exact sound.held.numbered receipt inside
    · exact sound.numbered other old
  · rw [serials]
    exact nodup_cons.mpr ⟨unused, sound.once⟩
  intro later earlier giver' serial' cancel' request' material' split
  cases later with
  | nil =>
    cases split
    exact honoured
  | cons latest later =>
    rw [cons_append, List.cons.injEq] at split
    exact sound.honoured later earlier giver' serial' cancel' request' material' split.2

theorem Sound.acquire (sound : Sound shop) (found : shop.find identity = some authority)
    (request : Request) (cancel : Option Nat) :
    Sound (shop.acquire surroundings authority request cancel) := by
  unfold Shop.acquire
  have reached := @beginAcquire_reads _ surroundings _ request cancel (shop.desk authority) rfl
  rcases ends : (Authority.beginAcquire surroundings request cancel).outcome (shop.desk authority)
    with ⟨result, desk⟩
  rw [ends] at reached
  cases result with
  | ok _ => exact (sound.leave found rfl rfl reached).rest _ _
  | error _ => exact sound.leave found rfl rfl reached

theorem Sound.answer (sound : Sound shop) (found : shop.find identity = some authority)
    (waiting : Acquisition) : Sound (shop.answer surroundings authority waiting) := by
  unfold Shop.answer
  dsimp only
  generalize (surroundings.acquire authority.identity waiting.request waiting.cancel shop.world).1 =
    answer
  generalize (surroundings.acquire authority.identity waiting.request waiting.cancel shop.world).2 =
    world
  have isIdentity := (sound.born identity authority found).1
  have reached := @publish_issues _ surroundings _ waiting.request waiting.cancel shop.serials answer
    { shop.desk authority with world } rfl
  rcases ends : (Authority.publish surroundings waiting.request waiting.cancel shop.serials
    answer).outcome { shop.desk authority with world } with ⟨result, desk⟩
  rw [ends] at reached
  cases result with
  | error _ => exact sound.leave found rfl rfl reached
  | ok receipt =>
    obtain ⟨checked, material, reads, rfl, rfl⟩ := reached
    exact (sound.leave found rfl rfl reads).issue authority.identity waiting.request material

theorem Sound.take (sound : Sound shop) (found : shop.find identity = some authority)
    {index receipt} (isReceipt : shop.receipts[index]? = some receipt)
    (cancel : Option Nat) : Sound (shop.take surroundings authority index receipt cancel).2 := by
  unfold Shop.take
  obtain ⟨isIdentity, created, -⟩ := sound.born identity authority found
  have reached := @take_empties _ surroundings cancel _ shop.alive
    ⟨shop.desk authority, receipt⟩ rfl
  rcases ends : (Authority.take surroundings shop.alive cancel).outcome
    ⟨shop.desk authority, receipt⟩ with ⟨result, taking⟩
  rw [ends] at reached
  cases result with
  | error _ =>
    have left := sound.leave found rfl rfl reached.desk
    rcases reached.receipt with emptied | ⟨-, kept⟩
    · dsimp only
      rw [emptied]
      exact { left with held := left.held.spend isReceipt rfl rfl }
    have same : shop.receipts.set index receipt = shop.receipts := by
      obtain ⟨inside, rfl⟩ := List.getElem?_eq_some_iff.mp isReceipt
      exact set_getElem_self inside
    dsimp only
    rw [kept, same]
    exact left
  | ok material =>
    obtain ⟨holds, trusted, emptied, now, sampled, checked, samples, observes, proper, unstopped,
      isDesk⟩ := reached
    have issuer : receipt.issuer = some authority.identity :=
      (Option.filter_eq_some_iff.mp trusted).1
    have left := sound.leave found rfl rfl (samples.reads.trans observes.reads)
    have latest : checked.events.findSome? (AuthEvent.timeOf authority.identity) = some now := by
      rw [← List.head?_filterMap]
      change (timesOf _ _).head? = _
      rw [observes.timesOf_eq, samples.events]
      simp [timesOf, AuthEvent.timeOf, Shop.desk]
    have grown : ∀ event ∈ shop.events, event ∈ checked.events := by
      obtain ⟨added, events, -⟩ := (samples.reads.trans observes.reads).readings
      intro event member
      rw [events]
      exact mem_append_right _ member
    obtain ⟨material', holds', issued, -⟩ :=
      sound.held.live receipt (mem_of_getElem? isReceipt) authority.identity issuer
    obtain rfl : material = material' := Option.some.inj (holds.symm.trans holds')
    have honoured : Honoured checked.events authority.identity receipt.serial cancel receipt.request
        material :=
      ⟨grown _ issued, ⟨authority.binding, now, grown _ (isIdentity ▸ created), latest, proper⟩,
        unstopped⟩
    have handed : Sound { shop.leave checked with
        events := .handedOut authority.identity receipt.serial cancel receipt.request material ::
          checked.events
        receipts := shop.receipts.set index taking.receipt } :=
      left.handOut isReceipt issuer (by rw [emptied]) (by rw [emptied]) honoured
    dsimp only
    rw [isDesk]
    exact handed

theorem Sound.perform (sound : Sound shop) (call : AuthCall) :
    Sound (shop.perform surroundings call) := by
  cases call with
  | create binding => exact sound.create binding
  | destroy identity => exact sound.destroy identity
  | acquire identity request cancel =>
    simp only [Shop.perform]
    split
    · exact sound
    · rename_i authority found
      exact sound.acquire found request cancel
  | answer acquisition =>
    simp only [Shop.perform]
    split
    · exact sound
    rename_i waiting isWaiting
    split
    · exact sound
    · rename_i authority found
      exact (sound.rest shop.world (shop.acquisitions.set acquisition none)).answer found waiting
  | moveReceipt index =>
    simp only [Shop.perform]
    split
    · exact sound
    · rename_i receipt isReceipt
      exact { sound with held := sound.held.move isReceipt }
  | take identity index cancel =>
    simp only [Shop.perform]
    split
    · rename_i authority receipt found isReceipt
      exact sound.take found isReceipt cancel
    · exact sound

theorem Sound.run (sound : Sound shop) (calls : List AuthCall) :
    Sound (shop.run surroundings calls) := by
  induction calls generalizing shop with
  | nil => exact sound
  | cons call calls ih => exact ih (sound.perform call)

end

namespace Sample

def redshift : Binding :=
  (Binding.create
    { service := .redshift
      endpoint := ascii "host"
      port := 5439
      database := ascii "dev"
      principal := ascii "user"
      resourceId := ascii "cluster"
      tlsIdentity := ascii "host"
      trustPolicy := ascii "system" }
    { kind := .trustedTemporaryDbIssuer, identity := ascii "iam", generation := ascii "1" }
    .temporaryDatabasePassword).toOption.get (by decide +kernel)

def request : Request :=
  (Request.create redshift ⟨100, by decide, by decide⟩ 10).toOption.get (by decide +kernel)

def password : Material :=
  (Material.create redshift .temporaryDatabasePassword (ascii "user") { bytes := ascii "secret" }
    { kind := .trustedMonotonicExpiry
      issuedAt := ⟨1, by decide, by decide⟩
      expiresAt := ⟨200, by decide, by decide⟩ } {}).toOption.get (by decide +kernel)

/-- A stopped clock, an issuer of one password and a cancellation that never asks. -/
def calm : Surroundings Unit where
  now _ world := (⟨5, by decide, by decide⟩, world)
  stopRequested _ world := (false, world)
  acquire _ _ _ world := (.returned (.ok password), world)
  allocates world := (true, world)

def taken : Shop Unit :=
  Shop.run calm { world := () } [.create redshift, .acquire 0 request (some 0), .answer 0,
    .moveReceipt 0, .take 0 1 (some 0), .take 0 1 none]

end Sample

end Odbcpp.Auth
