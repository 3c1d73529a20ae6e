import Odbcpp.Foundation.Program
import Odbcpp.Util.Utf8

/-!
# Admission of credentials

The values of `sdk/internal/odbcpp/auth/auth_core.h` and the code of `sdk/src/auth/auth_core.cpp`:
bindings, requests and materials with their checks, and the authority that acquires receipts from an
issuer and takes materials out of them. An arbitrary automaton stands for issuer, clock and
cancellation. An issuer may call back, so the code before and after its call is kept apart.
-/

namespace Odbcpp.Auth

open Foundation Util

inductive Reason where
  | unsupportedMethod | invalidBinding | invalidRequest | invalidMaterial | secretLimit
  | targetMismatch | sourceMismatch | methodMismatch | principalMismatch
  | untrustedReceipt | consumedReceipt | credentialExpired | deadlineElapsed
  | cancelled | clockRollback | issuerFailed | allocationFailed
deriving DecidableEq

/-! ## Time -/

/-- The range of the clock's signed 64-bit representation. -/
def Rep.min : Int := -2 ^ 63

def Rep.max : Int := 2 ^ 63 - 1

/-- A time point of the steady clock, in nanoseconds. -/
structure Deadline where
  ticks : Int
  lower : Rep.min ≤ ticks
  upper : ticks ≤ Rep.max
deriving DecidableEq

namespace Deadline

instance : LE Deadline := ⟨fun left right => left.ticks ≤ right.ticks⟩

instance : LT Deadline := ⟨fun left right => left.ticks < right.ticks⟩

instance (left right : Deadline) : Decidable (left ≤ right) :=
  inferInstanceAs (Decidable (left.ticks ≤ right.ticks))

instance (left right : Deadline) : Decidable (left < right) :=
  inferInstanceAs (Decidable (left.ticks < right.ticks))

variable {left right : Deadline}

theorem le_def : left ≤ right ↔ left.ticks ≤ right.ticks := Iff.rfl

theorem lt_def : left < right ↔ left.ticks < right.ticks := Iff.rfl

/-- The value of a default-constructed time point. -/
def epoch : Deadline := ⟨0, by decide, by decide⟩

def finite (time : Deadline) : Bool := time.ticks ≠ Rep.min && time.ticks ≠ Rep.max

end Deadline

/-- `required_until`: deadline and headroom together, where the sum does not overflow
and is a finite time. -/
def requiredUntil (deadline : Deadline) (headroom : Int) : Option Deadline :=
  if fits : ¬ (headroom < 0 ∨ Rep.max - headroom < deadline.ticks) then
    let result : Deadline :=
      ⟨deadline.ticks + headroom, by have := deadline.lower; omega, by omega⟩
    if result.finite then some result else none
  else none

/-! ## Bindings -/

/-- The continuation count, payload bits and least code point of a lead byte. -/
def leadOf (first : UInt8) : Option (Nat × Nat × Nat) :=
  if 0xc2 ≤ first ∧ first ≤ 0xdf then some (1, (first &&& 0x1f).toNat, 0x80)
  else if 0xe0 ≤ first ∧ first ≤ 0xef then some (2, (first &&& 0x0f).toNat, 0x800)
  else if 0xf0 ≤ first ∧ first ≤ 0xf4 then some (3, (first &&& 7).toNat, 0x10000)
  else none

/-- The loop of `text`; every step reads a byte, so the length bounds their number. -/
def textWithin : Nat → Bytes → Bool
  | _, [] => true
  | 0, _ :: _ => false
  | steps + 1, first :: rest =>
    if first < 0x20 ∨ first = 0x7f then false
    else if first < 0x80 then textWithin steps rest
    else match leadOf first with
      | none => false
      | some (count, bits, minimum) =>
        if rest.length < count then false
        else match continueCodePoint bits (rest.take count) with
          | none => false
          | some value =>
            if value < minimum ∨ 0x10ffff < value ∨ (0xd800 ≤ value ∧ value ≤ 0xdfff) then
              false
            else textWithin steps (rest.drop count)

/-- Nonempty UTF-8 of at most 1024 bytes without control characters. -/
def text (content : Bytes) : Bool :=
  content ≠ [] && content.length ≤ 1024 && textWithin content.length content

inductive Service where
  | postgreSql | redshift | rds
  | other (value : Int)
deriving DecidableEq

inductive Method where
  | ordinaryPassword | temporaryDatabasePassword | nativeIdpToken
  | other (value : Int)
deriving DecidableEq

inductive SourceKind where
  | externalPassword | trustedTemporaryDbIssuer | externalNativeIdpToken
  | other (value : Int)
deriving DecidableEq

structure TargetInput where
  service : Service
  endpoint : Bytes
  port : Nat
  database : Bytes
  principal : Bytes
  resourceId : Bytes
  tlsIdentity : Bytes
  trustPolicy : Bytes
deriving DecidableEq

structure SourceInput where
  kind : SourceKind
  identity : Bytes
  generation : Bytes
deriving DecidableEq

def bindingPolicyError (target : TargetInput) (source : SourceInput) (method : Method) :
    Option Reason :=
  if target.service ≠ .postgreSql ∧ target.service ≠ .redshift ∧ target.service ≠ .rds then
    some .unsupportedMethod
  else if method ≠ .ordinaryPassword ∧ method ≠ .temporaryDatabasePassword ∧
      method ≠ .nativeIdpToken then some .unsupportedMethod
  else if (method = .temporaryDatabasePassword ∨ method = .nativeIdpToken) ∧
      target.service ≠ .redshift then some .unsupportedMethod
  else if (method = .ordinaryPassword ∧ source.kind ≠ .externalPassword) ∨
      (method = .temporaryDatabasePassword ∧ source.kind ≠ .trustedTemporaryDbIssuer) ∨
      (method = .nativeIdpToken ∧ source.kind ≠ .externalNativeIdpToken) then
    some .unsupportedMethod
  else if target.port = 0 ∨ 65535 < target.port ∨ !text target.endpoint ∨ !text target.database ∨
      !text target.principal ∨ !text target.resourceId ∨ !text target.tlsIdentity ∨
      !text target.trustPolicy ∨ !text source.identity ∨ !text source.generation then
    some .invalidBinding
  else none

/-- What a credential is for. A binding that was moved from no longer owns its texts. -/
structure Binding where
  target : TargetInput
  source : SourceInput
  method : Method
  ownsValidStorage : Bool := true
deriving DecidableEq

namespace Binding

def invariantError (binding : Binding) : Option Reason :=
  if !binding.ownsValidStorage then some .invalidBinding
  else bindingPolicyError binding.target binding.source binding.method

def create (target : TargetInput) (source : SourceInput) (method : Method) :
    Except Reason Binding :=
  match bindingPolicyError target source method with
  | some reason => .error reason
  | none => .ok { target, source, method }

/-- What a move leaves behind. The texts are unspecified and nothing reads them. -/
def movedFrom (binding : Binding) : Binding := { binding with ownsValidStorage := false }

/-- `match`: the first difference between two bindings. -/
def mismatch (expected actual : Binding) : Option Reason :=
  if expected.target ≠ actual.target then some .targetMismatch
  else if expected.source ≠ actual.source then some .sourceMismatch
  else if expected.method ≠ actual.method then some .methodMismatch
  else none

end Binding

/-! ## Requests -/

def maxHeadroom : Int := 24 * 3600 * 10 ^ 9

/-- A request for a credential. Only `create` makes one, so its times can be added; its
binding may have been moved from since. -/
structure Request where
  binding : Binding
  deadline : Deadline
  headroom : Int
  deadlineFinite : deadline.finite = true
  headroomRange : 0 ≤ headroom ∧ headroom ≤ maxHeadroom
  bounded : (requiredUntil deadline headroom).isSome = true
deriving DecidableEq

def Request.create (binding : Binding) (deadline : Deadline) (headroom : Int) :
    Except Reason Request :=
  match binding.invariantError with
  | some reason => .error reason
  | none =>
    if valid : deadline.finite = true ∧ 0 ≤ headroom ∧ headroom ≤ maxHeadroom then
      if bounded : (requiredUntil deadline headroom).isSome = true then
        .ok ⟨binding, deadline, headroom, valid.1, valid.2, bounded⟩
      else .error .invalidRequest
    else .error .invalidRequest

/-! ## Materials -/

structure SecretBytes where
  bytes : Bytes
  consuming : Bool := false
deriving DecidableEq

def SecretBytes.maxBytes : Nat := 65536

inductive MaterialKind where
  | ordinaryPassword | temporaryDatabasePassword | nativeIdpToken
  | other (value : Int)
deriving DecidableEq

structure NativeIdpAttributes where
  idpType : Bytes := []
  providerName : Bytes := []
  tokenType : Bytes := []
  identityNamespace : Bytes := []
  pluginName : Bytes := []
deriving DecidableEq

namespace NativeIdpAttributes

def empty (attributes : NativeIdpAttributes) : Bool :=
  attributes.idpType = [] && attributes.providerName = [] && attributes.tokenType = [] &&
    attributes.identityNamespace = [] && attributes.pluginName = []

def valid (attributes : NativeIdpAttributes) : Bool :=
  text attributes.idpType && text attributes.providerName && text attributes.tokenType &&
    (attributes.identityNamespace = [] || text attributes.identityNamespace) &&
    (attributes.pluginName = [] || text attributes.pluginName)

end NativeIdpAttributes

inductive ValidityKind where
  | noKnownAcquisitionExpiry | trustedMonotonicExpiry
  | other (value : Int)
deriving DecidableEq

/-- How long a material is valid. -/
structure Validity where
  kind : ValidityKind
  issuedAt : Deadline := .epoch
  expiresAt : Deadline := .epoch
deriving DecidableEq

/-- The secret and what it is good for. -/
structure Material where
  binding : Binding
  kind : MaterialKind
  principal : Bytes
  secret : SecretBytes
  validity : Validity
  nativeIdpAttributes : NativeIdpAttributes := {}
deriving DecidableEq

namespace Material

variable (material : Material)

def invariantError : Option Reason :=
  if material.secret.bytes = [] ∨ SecretBytes.maxBytes < material.secret.bytes.length ∨
      !text material.principal ∨ material.binding.invariantError.isSome then some .invalidMaterial
  else if material.kind ≠ .ordinaryPassword ∧ material.kind ≠ .temporaryDatabasePassword ∧
      material.kind ≠ .nativeIdpToken then some .unsupportedMethod
  else if (material.kind = .ordinaryPassword ∧ material.binding.method ≠ .ordinaryPassword) ∨
      (material.kind = .temporaryDatabasePassword ∧
        material.binding.method ≠ .temporaryDatabasePassword) ∨
      (material.kind = .nativeIdpToken ∧ material.binding.method ≠ .nativeIdpToken) then
    some .methodMismatch
  else if material.kind = .ordinaryPassword ∧
      (material.validity.kind ≠ .noKnownAcquisitionExpiry ∨ material.validity.issuedAt ≠ .epoch ∨
        material.validity.expiresAt ≠ .epoch) then some .invalidMaterial
  else if material.kind = .temporaryDatabasePassword ∧
      (material.validity.kind ≠ .trustedMonotonicExpiry ∨ !material.validity.issuedAt.finite ∨
        !material.validity.expiresAt.finite ∨
        material.validity.expiresAt ≤ material.validity.issuedAt) then some .invalidMaterial
  else if material.kind ≠ .nativeIdpToken ∧ !material.nativeIdpAttributes.empty then
    some .invalidMaterial
  else if material.kind = .nativeIdpToken ∧ !material.nativeIdpAttributes.valid then
    some .invalidMaterial
  else none

/-- A secret with a NUL is refused here and nowhere else. -/
def create (binding : Binding) (kind : MaterialKind) (principal : Bytes) (secret : SecretBytes)
    (validity : Validity) (attributes : NativeIdpAttributes) : Except Reason Material :=
  match binding.invariantError with
  | some reason => .error reason
  | none =>
    if 0 ∈ secret.bytes then .error .invalidMaterial
    else
      let candidate : Material :=
        { binding, kind, principal, secret, validity, nativeIdpAttributes := attributes }
      match candidate.invariantError with
      | some reason => .error reason
      | none => .ok candidate

/-- The value a move constructs; the move throws while the secret is being read. -/
def move : Option Material :=
  if material.secret.consuming then none else some material

/-- What a move leaves behind. -/
def movedFrom : Material :=
  { material with binding := material.binding.movedFrom, secret := { bytes := [] } }

end Material

/-- `check_material`, which reads nothing of the authority. -/
def checkMaterial (request : Request) (material : Material) (now : Deadline) : Option Reason :=
  material.invariantError.or <| (request.binding.mismatch material.binding).or <|
    if material.principal ≠ request.binding.target.principal then some .principalMismatch
    else if decide (material.kind = .ordinaryPassword) ≠
        decide (request.binding.method = .ordinaryPassword) then some .methodMismatch
    else if material.validity.kind = .trustedMonotonicExpiry then
      if now < material.validity.issuedAt then some .invalidMaterial
      else match requiredUntil request.deadline request.headroom with
        | none => some .invalidRequest
        | some required =>
          if material.validity.expiresAt ≤ now ∨ material.validity.expiresAt ≤ required then
            some .credentialExpired
          else none
    else none

@[simp] theorem refusal_eq_none {condition : Prop} [Decidable condition] {reason : Reason}
    {rest : Option Reason} :
    (if condition then some reason else rest) = none ↔ ¬ condition ∧ rest = none := by
  by_cases refused : condition <;> simp [refused]

/-! ## The authority -/

/-- How the call of an issuer ends. -/
inductive IssuerAnswer where
  | returned (result : Except Reason Material)
  | badAlloc
  | threw
deriving DecidableEq

/-- The injected objects and the allocator, as an automaton. Clocks and issuers are those
of an authority, cancellations those of a call. -/
structure Surroundings (ω : Type) where
  now : Nat → ω → Deadline × ω
  stopRequested : Nat → ω → Bool × ω
  acquire : Nat → Request → Option Nat → ω → IssuerAnswer × ω
  allocates : ω → Bool × ω

/-- An authority; its identity stands for its address. -/
structure Authority where
  binding : Binding
  identity : Nat
  highWater : Option Deadline := none
deriving DecidableEq

/-- What an acquisition gives: a material to be taken once. -/
structure Receipt where
  issuer : Option Nat
  request : Request
  material : Option Material
  /-- Ghost: the acquisition this receipt came from. -/
  serial : Nat
deriving DecidableEq

/-- What is recorded of a history. -/
inductive AuthEvent where
  | created (authority : Nat) (binding : Binding)
  /-- A time that `sample` accepted. -/
  | sampled (authority : Nat) (now : Deadline)
  | observed (cancellation : Nat) (stop : Bool)
  | issued (authority serial : Nat) (request : Request) (material : Material)
  | handedOut (authority serial : Nat) (cancel : Option Nat) (request : Request)
      (material : Material)
deriving DecidableEq

/-- An authority among the injected objects, with the events so far, the latest first. -/
structure Desk (ω : Type) where
  world : ω
  authority : Authority
  events : List AuthEvent

/-- Code of an authority; it fails with a reason. -/
abbrev Admitting (ω : Type) := Program Reason (Desk ω)

variable {ω α σ : Type} (surroundings : Surroundings ω)

def Desk.log (desk : Desk ω) (event : AuthEvent) : Desk ω :=
  { desk with events := event :: desk.events }

/-- Ask an injected object. -/
def consult (question : ω → α × ω) : Admitting ω α := do
  let desk ← get
  modify fun desk => { desk with world := (question desk.world).2 }
  return (question desk.world).1

/-- Return an error where there is one. -/
def refuse : Option Reason → Program Reason σ Unit
  | some reason => throw reason
  | none => return ()

def refuseIf (condition : Prop) [Decidable condition] (reason : Reason) : Program Reason σ Unit :=
  if condition then throw reason else return ()

namespace Authority

def sample : Admitting ω Deadline := do
  let authority := (← get).authority
  let now ← consult (surroundings.now authority.identity)
  refuseIf (!now.finite ∨ authority.highWater.any (now < ·)) .clockRollback
  modify fun desk =>
    { desk with authority := { desk.authority with highWater := some now } }.log
      (.sampled authority.identity now)
  return now

/-- Whether the call was given a cancellation that asks to stop. -/
def stopRequested : Option Nat → Admitting ω Bool
  | none => return false
  | some cancellation => do
    let stop ← consult (surroundings.stopRequested cancellation)
    modify (·.log (.observed cancellation stop))
    return stop

variable (request : Request)

def checkRequest (now : Deadline) (cancel : Option Nat) : Admitting ω Unit := do
  refuseIf (← stopRequested surroundings cancel) .cancelled
  refuse request.binding.invariantError
  refuse ((← get).authority.binding.mismatch request.binding)
  refuseIf (request.deadline ≤ now) .deadlineElapsed

/-- `acquire` up to the call of the issuer. -/
def beginAcquire (cancel : Option Nat) : Admitting ω Unit := do
  let now ← sample surroundings
  checkRequest surroundings request now cancel

def makeReceipt (material : Material) (serial : Nat) : Admitting ω Receipt := do
  refuseIf (!(← consult surroundings.allocates)) .allocationFailed
  match material.move with
  | none => throw .issuerFailed
  | some material =>
    return { issuer := some (← get).authority.identity, request, material := some material, serial }

/-- `acquire` after the issuer's answer. Nothing is published if time passed or a stop was
requested while the receipt was made. -/
def publish (cancel : Option Nat) (serial : Nat) : IssuerAnswer → Admitting ω Receipt
  | .badAlloc => throw .allocationFailed
  | .threw => throw .issuerFailed
  | .returned result => do
    let now ← sample surroundings
    checkRequest surroundings request now cancel
    let material ← Program.ofExcept result
    refuse (checkMaterial request material now)
    let receipt ← makeReceipt surroundings request material serial
    let now ← sample surroundings
    checkRequest surroundings request now cancel
    refuse (checkMaterial request material now)
    refuseIf (← stopRequested surroundings cancel) .cancelled
    modify fun desk => desk.log (.issued desk.authority.identity serial request material)
    return receipt

end Authority

/-- An authority with the receipt it was handed. -/
structure Taking (ω : Type) where
  desk : Desk ω
  receipt : Receipt

def onDesk (program : Admitting ω α) : Program Reason (Taking ω) α :=
  Program.onPart Taking.desk (fun desk taking => { taking with desk }) program

def Taking.discard (taking : Taking ω) : Taking ω :=
  { taking with receipt := { taking.receipt with material := none } }

/-- Any refusal destroys the material. -/
def discarding (body : Program Reason (Taking ω) α) : Program Reason (Taking ω) α :=
  tryCatch body fun reason => do
    modify Taking.discard
    throw reason

namespace Authority

def handOver (cancel : Option Nat) (receipt : Receipt) (material : Material) :
    Program Reason (Taking ω) Material :=
  match material.move with
  | none => throw .issuerFailed
  | some material => do
    modify Taking.discard
    refuseIf (← onDesk (stopRequested surroundings cancel)) .cancelled
    onDesk (modify fun desk => desk.log
      (.handedOut desk.authority.identity receipt.serial cancel receipt.request material))
    return material

/-- `take` once the receipt has let go of its issuer. -/
def release (issuer cancel : Option Nat) (material : Material) :
    Program Reason (Taking ω) Material := do
  let start ← get
  refuseIf (issuer ≠ some start.desk.authority.identity) .untrustedReceipt
  let now ← onDesk (sample surroundings)
  onDesk (checkRequest surroundings start.receipt.request now cancel)
  refuse (checkMaterial start.receipt.request material now)
  handOver surroundings cancel start.receipt material

/-- `take`. Every attempt uses the receipt up; `alive` says which identities can still be
locked. -/
def take (alive : Nat → Bool) (cancel : Option Nat) : Program Reason (Taking ω) Material := do
  let receipt := (← get).receipt
  match receipt.material with
  | none => throw .consumedReceipt
  | some material => do
    modify fun taking => { taking with receipt := { taking.receipt with issuer := none } }
    discarding (release surroundings (receipt.issuer.filter alive) cancel material)

end Authority

end Odbcpp.Auth
