import Odbcpp.Postgres.Requests
import Odbcpp.Postgres.Scram

/-!
# Authentication requests and responses

`parse_auth_request` and `create_auth_response` of `PgProtocolParser`, and the sequences of requests
they answer. A server that was offered SCRAM cannot fall back: the only way to AuthenticationOk is
then one server-first message and a verified server-final message.
-/

namespace Odbcpp.Postgres

open Foundation Database Util ScramSha256Client

inductive AuthenticationType where
  | none | cleartext | md5 | sasl | saslContinue | saslFinal | idp
deriving DecidableEq

/-- A decoded authentication message. -/
structure AuthenticationRequest where
  type : AuthenticationType
  challengeData : Bytes := []
deriving DecidableEq

/-- What the parser remembers of an authentication. -/
structure Authenticator where
  scramClient : Option ScramSha256Client := none
  scramServerVerified : Bool := false
deriving DecidableEq

/-- What an attempt authenticates with: the arguments of `create_auth_response`
besides the request. -/
structure AuthContext where
  crypto : Crypto
  password : Bytes
  user : Bytes
  peerIdentityVerified : Bool
  maxWireBytes : Nat

def parseAuthRequest (parser : Authenticator) (data : Bytes) :
    Except Thrown (AuthenticationRequest × Authenticator) := do
  if data.length < 4 then throw (.runtimeError "Auth payload too short")
  let method := ofBigEndian (data.take 4)
  if parser.scramClient.isSome ∧ method ≠ 0 ∧ method ≠ 11 ∧ method ≠ 12 then
    throw (.runtimeError "SCRAM authentication method changed")
  match method with
  | 0 =>
    if data.length ≠ 4 then throw (.runtimeError "Invalid authentication request length")
    if parser.scramClient.isSome ∧ !parser.scramServerVerified then
      throw (.runtimeError "SCRAM AuthenticationOk arrived before server verification")
    return (⟨.none, []⟩, if parser.scramClient.isSome then {} else parser)
  | 3 =>
    if data.length ≠ 4 then throw (.runtimeError "Invalid authentication request length")
    return (⟨.cleartext, []⟩, parser)
  | 5 =>
    if data.length ≠ 8 then throw (.runtimeError "Invalid MD5 auth payload")
    return (⟨.md5, data.drop 4⟩, parser)
  | 10 => return (⟨.sasl, data.drop 4⟩, parser)
  | 11 => return (⟨.saslContinue, data.drop 4⟩, parser)
  | 12 => return (⟨.saslFinal, data.drop 4⟩, parser)
  | 14 => return (⟨.idp, []⟩, parser)
  | other => throw (.runtimeError ("Unsupported auth method: " ++ toString other))

def credentialMessage (tag : Char) (credential : Bytes) : Bytes :=
  code tag :: bigEndian 4 (4 + credential.length + 1) ++ credential ++ [0]

def md5Hex (crypto : Crypto) (input : Bytes) : Except Thrown Bytes :=
  return encodeHex (← crypto.md5 input)

def scramMechanism : Bytes := ascii "SCRAM-SHA-256"

/-- Walk the offered mechanisms: whether the client's is among them, whether the
list was terminated, and what follows it. -/
def mechanismsWithin : Nat → Bool → Bytes → Except Thrown (Bool × Bool × Bytes)
  | 0, supported, unread => .ok (supported, false, unread)
  | _ + 1, supported, [] => .ok (supported, false, [])
  | steps + 1, supported, letter :: rest =>
    match (letter :: rest).span (· != 0) with
    | (_, []) => .error (.runtimeError "unterminated PostgreSQL SASL mechanism")
    | (mechanism, _ :: unread) =>
      if mechanism = [] then .ok (supported, true, unread)
      else mechanismsWithin steps (supported || mechanism = scramMechanism) unread

def checkMechanisms (offer : Bytes) : Except Thrown Unit := do
  let (supported, terminated, unread) ← mechanismsWithin offer.length false offer
  if !terminated ∨ unread ≠ [] then
    throw (.runtimeError "invalid PostgreSQL SASL mechanism list")
  if !supported then throw (.runtimeError "server does not offer SCRAM-SHA-256")

def generateScramNonce (crypto : Crypto) : Except Thrown Bytes :=
  return base64Encode (← crypto.secureRandom 18)

def offeredClient (context : AuthContext) : Except Thrown ScramSha256Client := do
  let nonce ← generateScramNonce context.crypto
  ScramSha256Client.create context.user context.password nonce

def createAuthResponse (context : AuthContext) (parser : Authenticator)
    (request : AuthenticationRequest) : Except Thrown (Bytes × Authenticator) := do
  if 0 ∈ context.password ∨ 0 ∈ context.user then
    throw (.invalidArgument "PostgreSQL authentication credential contains an embedded NUL byte")
  if parser.scramClient.isSome ∧ (request.type = .cleartext ∨ request.type = .md5) then
    throw (.runtimeError "SCRAM authentication method changed")
  match request.type with
  | .none =>
    if parser.scramClient.isSome ∧ !parser.scramServerVerified then
      throw (.runtimeError "SCRAM AuthenticationOk arrived before server verification")
    return ([], {})
  | .cleartext =>
    if !context.peerIdentityVerified then
      throw (.runtimeError
        "PostgreSQL cleartext password authentication requires verified TLS")
    if context.maxWireBytes < 6 ∨ context.maxWireBytes - 6 < context.password.length then
      throw .requestWireLimitExceeded
    return (credentialMessage 'p' context.password, parser)
  | .md5 =>
    if context.maxWireBytes < 41 then throw .requestWireLimitExceeded
    if request.challengeData.length ≠ 4 then
      throw (.invalidArgument "PostgreSQL MD5 salt must be four bytes")
    let step1 ← md5Hex context.crypto (context.password ++ context.user)
    let step2 ← md5Hex context.crypto (step1 ++ request.challengeData)
    return (credentialMessage 'p' (ascii "md5" ++ step2), parser)
  | .sasl =>
    if parser.scramClient.isSome then throw (.runtimeError "duplicate SCRAM mechanism offer")
    checkMechanisms request.challengeData
    let client ← offeredClient context
    let initial := client.clientFirstMessage
    if context.maxWireBytes < 23 ∨ context.maxWireBytes - 23 < initial.length then
      throw .requestWireLimitExceeded
    let response ← frame 'p' (scramMechanism ++ [0] ++ bigEndian 4 initial.length ++ initial)
    return (response, ⟨some client, false⟩)
  | .saslContinue =>
    match parser.scramClient with
    | none => throw (.runtimeError "SCRAM continuation arrived out of sequence")
    | some client =>
      let (final, client) ← client.receiveServerFirst context.crypto request.challengeData
      if context.maxWireBytes < 5 ∨ context.maxWireBytes - 5 < final.length then
        throw .requestWireLimitExceeded
      let response ← frame 'p' final
      return (response, { parser with scramClient := some client })
  | .saslFinal =>
    match parser.scramClient with
    | none => throw (.runtimeError "SCRAM final message arrived out of sequence")
    | some client =>
      if parser.scramServerVerified then
        throw (.runtimeError "SCRAM final message arrived out of sequence")
      client.verifyServerFinal request.challengeData
      return ([], { parser with scramServerVerified := true })
  | .idp =>
    if !context.peerIdentityVerified then
      throw (.runtimeError "Native IdP token authentication requires verified TLS")
    if context.maxWireBytes < 6 ∨ context.maxWireBytes - 6 < context.password.length then
      throw .requestWireLimitExceeded
    return (credentialMessage 'i' context.password, parser)

/-- An authentication message, its request and the answer to it. -/
structure AuthStep where
  payload : Bytes
  request : AuthenticationRequest
  answer : Bytes
deriving DecidableEq

def answerAuthRequest (context : AuthContext) (parser : Authenticator) (payload : Bytes) :
    Except Thrown (AuthStep × Authenticator) := do
  let (request, parser) ← parseAuthRequest parser payload
  if request.type = .none then return (⟨payload, request, []⟩, parser)
  else
    let (answer, parser) ← createAuthResponse context parser request
    return (⟨payload, request, answer⟩, parser)

/-! ## What one request can do -/

/-- A request was treated as the state of the exchange admits: SCRAM is offered once, and then only
its own messages pass, in order. -/
inductive AuthStep.Admitted (context : AuthContext) (parser : Authenticator) (step : AuthStep) :
    Authenticator → Prop where
  | accepted (isOk : step.request.type = .none)
      (complete : parser.scramClient.isSome = true → parser.scramServerVerified = true)
      (next : Authenticator) : Admitted context parser step next
  | verbatim (isPlain : step.request.type = .cleartext ∨ step.request.type = .idp)
      (fresh : parser.scramClient = none) (verified : context.peerIdentityVerified = true) :
      Admitted context parser step parser
  | digested (isMd5 : step.request.type = .md5) (fresh : parser.scramClient = none) :
      Admitted context parser step parser
  | offered (isSasl : step.request.type = .sasl) (fresh : parser.scramClient = none)
      (client : ScramSha256Client) (created : offeredClient context = .ok client) :
      Admitted context parser step ⟨some client, false⟩
  | continued (isContinue : step.request.type = .saslContinue) (client next : ScramSha256Client)
      (current : parser.scramClient = some client) (reply : Bytes)
      (received : client.receiveServerFirst context.crypto step.request.challengeData =
        .ok (reply, next)) :
      Admitted context parser step { parser with scramClient := some next }
  | verified (isFinal : step.request.type = .saslFinal) (client : ScramSha256Client)
      (current : parser.scramClient = some client)
      (unverified : parser.scramServerVerified = false)
      (verifies : client.verifyServerFinal step.request.challengeData = .ok ()) :
      Admitted context parser step ⟨some client, true⟩

section

variable {context : AuthContext} {parser next : Authenticator} {payload : Bytes}
  {request : AuthenticationRequest}

theorem parseAuthRequest_spec (parsed : parseAuthRequest parser payload = .ok (request, next)) :
    (parser.scramClient.isSome = true → request.type = .none ∨ request.type = .saslContinue ∨
      request.type = .saslFinal) ∧
    (request.type = .none → parser.scramClient.isSome = true → parser.scramServerVerified = true) ∧
    (request.type ≠ .none → next = parser) := by
  simp only [parseAuthRequest, guard_eq_ok] at parsed
  obtain ⟨-, sameMethod, parsed⟩ := parsed
  split at parsed
  case h_8 => exact absurd parsed throw_ne_ok
  all_goals simp only [guard_eq_ok, pure_eq_ok, Prod.mk.injEq] at parsed
  case h_1 method =>
    obtain ⟨-, unverified, rfl, rfl⟩ := parsed
    refine ⟨fun _ => .inl rfl, fun _ offered => ?_, fun other => absurd rfl other⟩
    simpa [offered] using unverified
  case h_5 | h_6 =>
    obtain ⟨rfl, rfl⟩ := parsed
    simp
  -- The other methods pass only while no client exists.
  all_goals rename_i method
  case h_4 | h_7 =>
    obtain ⟨rfl, rfl⟩ := parsed
    simpa [method] using sameMethod
  all_goals
    obtain ⟨-, rfl, rfl⟩ := parsed
    simpa [method] using sameMethod

theorem createAuthResponse_admitted {answer : Bytes}
    (open_ : parser.scramClient.isSome = true → request.type = .none ∨
      request.type = .saslContinue ∨ request.type = .saslFinal) (isRequest : request.type ≠ .none)
    (responded : createAuthResponse context parser request = .ok (answer, next)) :
    AuthStep.Admitted context parser ⟨payload, request, answer⟩ next := by
  obtain ⟨type, challenge⟩ := request
  have fresh : type ≠ .saslContinue → type ≠ .saslFinal → parser.scramClient = none := by
    intro notContinue notFinal
    cases client : parser.scramClient with
    | none => rfl
    | some client => simp_all
  simp only [createAuthResponse, guard_eq_ok] at responded
  obtain ⟨-, -, responded⟩ := responded
  cases type with
  | none => exact absurd rfl isRequest
  | cleartext =>
    simp only [guard_eq_ok, pure_eq_ok, Prod.mk.injEq] at responded
    obtain ⟨verified, -, -, rfl⟩ := responded
    exact .verbatim (.inl rfl) (fresh (by simp) (by simp)) (by simpa using verified)
  | idp =>
    simp only [guard_eq_ok, pure_eq_ok, Prod.mk.injEq] at responded
    obtain ⟨verified, -, -, rfl⟩ := responded
    exact .verbatim (.inr rfl) (fresh (by simp) (by simp)) (by simpa using verified)
  | md5 =>
    simp only [guard_eq_ok, bind_eq_ok, pure_eq_ok, Prod.mk.injEq] at responded
    obtain ⟨-, -, step1, -, step2, -, -, rfl⟩ := responded
    exact .digested rfl (fresh (by simp) (by simp))
  | sasl =>
    simp only [guard_eq_ok, bind_eq_ok, pure_eq_ok, Prod.mk.injEq] at responded
    obtain ⟨-, _, -, client, created, -, response, -, -, rfl⟩ := responded
    exact .offered rfl (fresh (by simp) (by simp)) client created
  | saslContinue =>
    cases current : parser.scramClient with
    | none =>
      rw [current] at responded
      exact absurd responded throw_ne_ok
    | some client =>
      rw [current] at responded
      simp only [guard_eq_ok, bind_eq_ok, pure_eq_ok, Prod.mk.injEq,
        Prod.exists] at responded
      obtain ⟨reply, keyed, received, -, response, -, -, rfl⟩ := responded
      exact .continued rfl client keyed current reply received
  | saslFinal =>
    cases current : parser.scramClient with
    | none =>
      rw [current] at responded
      exact absurd responded throw_ne_ok
    | some client =>
      rw [current] at responded
      simp only [guard_eq_ok, bind_eq_ok, pure_eq_ok, Prod.mk.injEq]
        at responded
      obtain ⟨unverified, _, verifies, -, rfl⟩ := responded
      exact .verified rfl client current (by simpa using unverified) verifies

theorem answerAuthRequest_admitted {step}
    (answered : answerAuthRequest context parser payload = .ok (step, next)) :
    step.payload = payload ∧ AuthStep.Admitted context parser step next := by
  simp only [answerAuthRequest, bind_eq_ok, Prod.exists] at answered
  obtain ⟨request, middle, parsed, answered⟩ := answered
  obtain ⟨methods, complete, unchanged⟩ := parseAuthRequest_spec parsed
  split at answered
  · rename_i isOk
    simp only [pure_eq_ok, Prod.mk.injEq] at answered
    obtain ⟨rfl, rfl⟩ := answered
    exact ⟨rfl, .accepted isOk (complete isOk) _⟩
  rename_i isRequest
  simp only [bind_eq_ok, pure_eq_ok, Prod.exists, Prod.mk.injEq] at answered
  obtain ⟨answer, final, responded, rfl, rfl⟩ := answered
  obtain rfl := unchanged isRequest
  exact ⟨rfl, createAuthResponse_admitted methods isRequest responded⟩

end

/-! ## Sequences of requests -/

/-- The two sides of an attempt: whether AuthenticationOk has arrived, and the
parser's state. -/
structure Handshake where
  authenticated : Bool := false
  parser : Authenticator := {}
deriving DecidableEq

/-- The requests treated so far, until AuthenticationOk. -/
inductive Handshake.Runs (context : AuthContext) : List AuthStep → Handshake → Prop where
  | start : Runs context [] {}
  | step {steps middle payload step next} (earlier : Runs context steps middle)
      (pending : middle.authenticated = false)
      (answered : answerAuthRequest context middle.parser payload = .ok (step, next)) :
      Runs context (steps ++ [step]) ⟨step.request.type = .none, next⟩

/-- What can follow an answered offer, and the state it leaves. The client is the
one the offer was answered with. -/
inductive AfterOffer (context : AuthContext) : List AuthStep → Handshake → Prop where
  | offered (client : ScramSha256Client) (created : offeredClient context = .ok client) :
      AfterOffer context [] ⟨false, some client, false⟩
  | keyed (client keyed : ScramSha256Client) (created : offeredClient context = .ok client)
      (first : AuthStep) (isFirst : first.request.type = .saslContinue) (reply : Bytes)
      (received : client.receiveServerFirst context.crypto first.request.challengeData =
        .ok (reply, keyed)) :
      AfterOffer context [first] ⟨false, some keyed, false⟩
  | verified (client keyed : ScramSha256Client) (created : offeredClient context = .ok client)
      (first final : AuthStep) (isFirst : first.request.type = .saslContinue)
      (isFinal : final.request.type = .saslFinal) (reply : Bytes)
      (received : client.receiveServerFirst context.crypto first.request.challengeData =
        .ok (reply, keyed))
      (verifies : keyed.verifyServerFinal final.request.challengeData = .ok ()) :
      AfterOffer context [first, final] ⟨false, some keyed, true⟩
  | complete (client keyed : ScramSha256Client) (created : offeredClient context = .ok client)
      (first final ok : AuthStep) (isFirst : first.request.type = .saslContinue)
      (isFinal : final.request.type = .saslFinal) (isOk : ok.request.type = .none) (reply : Bytes)
      (received : client.receiveServerFirst context.crypto first.request.challengeData =
        .ok (reply, keyed))
      (verifies : keyed.verifyServerFinal final.request.challengeData = .ok ())
      (parser : Authenticator) : AfterOffer context [first, final, ok] ⟨true, parser⟩

def NoOffer (steps : List AuthStep) : Prop := ∀ step ∈ steps, step.request.type ≠ .sasl

/-- SCRAM was not begun, or one offer is followed by an initial part of its exchange. -/
def Handshake.Shaped (context : AuthContext) (steps : List AuthStep) (handshake : Handshake) :
    Prop :=
  (NoOffer steps ∧ (handshake.authenticated = false → handshake.parser.scramClient = none)) ∨
    ∃ before offer after, steps = before ++ offer :: after ∧ offer.request.type = .sasl ∧
      NoOffer before ∧ AfterOffer context after handshake

variable {context : AuthContext} {steps : List AuthStep} {handshake : Handshake}

theorem NoOffer.snoc {step} (none : NoOffer steps) (other : step.request.type ≠ .sasl) :
    NoOffer (steps ++ [step]) := by
  exact forall_mem_concat none other

theorem serverFirstReceived_of_offeredClient {client}
    (created : offeredClient context = .ok client) : client.serverFirstReceived = false := by
  simp only [offeredClient, bind_eq_ok] at created
  obtain ⟨nonce, -, created⟩ := created
  exact serverFirstReceived_of_create created

theorem AfterOffer.step {after step next}
    (follows : AfterOffer context after handshake) (pending : handshake.authenticated = false)
    (admitted : step.Admitted context handshake.parser next) :
    AfterOffer context (after ++ [step]) ⟨step.request.type = .none, next⟩ := by
  cases follows with
  | offered client created =>
    have unheard := serverFirstReceived_of_offeredClient created
    cases admitted with
    | accepted isOk complete => simp at complete
    | verbatim isPlain fresh | digested isMd5 fresh | offered isSasl fresh => cases fresh
    | continued isContinue current keyed isCurrent reply received =>
      cases isCurrent
      simpa [isContinue] using
        AfterOffer.keyed client keyed created step isContinue reply received
    | verified isFinal current isCurrent unverified verifies =>
      cases isCurrent
      have heard := serverFirstReceived_of_verifyServerFinal verifies
      rw [unheard] at heard
      cases heard
  | keyed client keyed created first isFirst reply received =>
    have heard := (receiveServerFirst_once received).2
    cases admitted with
    | accepted isOk complete => simp at complete
    | verbatim isPlain fresh | digested isMd5 fresh | offered isSasl fresh => cases fresh
    | continued isContinue current other isCurrent reply again =>
      cases isCurrent
      have unheard := (receiveServerFirst_once again).1
      rw [heard] at unheard
      cases unheard
    | verified isFinal current isCurrent unverified verifies =>
      cases isCurrent
      simpa [isFinal] using AfterOffer.verified client keyed created first step isFirst isFinal
        reply received verifies
  | verified client keyed created first final isFirst isFinal reply received verifies =>
    have heard := (receiveServerFirst_once received).2
    cases admitted with
    | accepted isOk complete =>
      simpa [isOk] using AfterOffer.complete client keyed created first final step isFirst
        isFinal isOk reply received verifies next
    | verbatim isPlain fresh | digested isMd5 fresh | offered isSasl fresh => cases fresh
    | continued isContinue current other isCurrent reply again =>
      cases isCurrent
      have unheard := (receiveServerFirst_once again).1
      rw [heard] at unheard
      cases unheard
    | verified isFinal current isCurrent unverified => cases unverified
  | complete => cases pending

theorem Handshake.Shaped.step {step next}
    (shaped : handshake.Shaped context steps) (pending : handshake.authenticated = false)
    (admitted : step.Admitted context handshake.parser next) :
    Handshake.Shaped context (steps ++ [step]) ⟨step.request.type = .none, next⟩ := by
  rcases shaped with ⟨none, fresh⟩ | ⟨before, offer, after, rfl, isSasl, none, follows⟩
  · have isFresh := fresh pending
    cases admitted with
    | accepted isOk complete =>
      exact .inl ⟨none.snoc (by simp [isOk]), by simp [isOk]⟩
    | verbatim isPlain fresh =>
      exact .inl ⟨none.snoc (by rcases isPlain with plain | plain <;> simp [plain]), fun _ => fresh⟩
    | digested isMd5 fresh => exact .inl ⟨none.snoc (by simp [isMd5]), fun _ => fresh⟩
    | offered isSasl fresh client created =>
      exact .inr ⟨steps, step, [], rfl, isSasl, none,
        by simpa [isSasl] using AfterOffer.offered client created⟩
    | continued isContinue client keyed current | verified isFinal client current =>
      rw [isFresh] at current; cases current
  · exact .inr ⟨before, offer, after ++ [step], by simp, isSasl, none, follows.step pending admitted⟩

theorem Handshake.Runs.shaped (runs : Handshake.Runs context steps handshake) :
    handshake.Shaped context steps := by
  induction runs with
  | start => exact .inl ⟨by simp [NoOffer], fun _ => rfl⟩
  | step earlier pending answered ih => exact ih.step pending (answerAuthRequest_admitted answered).2

/-- Passwords and tokens are sent as they are only to a verified peer. -/
theorem Handshake.Runs.verbatim (runs : Handshake.Runs context steps handshake) :
    ∀ step ∈ steps, step.request.type = .cleartext ∨ step.request.type = .idp →
      context.peerIdentityVerified = true := by
  induction runs with
  | start => simp
  | @step steps middle payload step next earlier pending answered ih =>
    intro other member isPlain
    rcases List.mem_append.mp member with before | last
    · exact ih other before isPlain
    obtain rfl := List.mem_singleton.mp last
    cases (answerAuthRequest_admitted answered).2 with
    | verbatim _ _ verified => exact verified
    | _ => simp_all

/-- An offer, one accepted server-first message, one verified server-final message and
AuthenticationOk, and nothing else. -/
def CompletedScram (context : AuthContext) (steps : List AuthStep) : Prop :=
  ∃ before offer first final ok client keyed reply,
    steps = before ++ [offer, first, final, ok] ∧ NoOffer before ∧ offer.request.type = .sasl ∧
    first.request.type = .saslContinue ∧ final.request.type = .saslFinal ∧
    ok.request.type = .none ∧ offeredClient context = .ok client ∧
    client.receiveServerFirst context.crypto first.request.challengeData = .ok (reply, keyed) ∧
    keyed.verifyServerFinal final.request.challengeData = .ok ()

theorem Handshake.Runs.completed (runs : Handshake.Runs context steps handshake)
    (authenticated : handshake.authenticated = true)
    (offered : ∃ step ∈ steps, step.request.type = .sasl) : CompletedScram context steps := by
  obtain ⟨step, member, isSasl⟩ := offered
  rcases runs.shaped with ⟨none, -⟩ | ⟨before, offer, after, rfl, isOffer, none, follows⟩
  · exact absurd isSasl (none step member)
  cases follows with
  | complete client keyed created first final ok isFirst isFinal isOk reply received verifies =>
    exact ⟨before, offer, first, final, ok, client, keyed, reply, rfl, none, isOffer, isFirst,
      isFinal, isOk, created, received, verifies⟩
  | _ => cases authenticated

/-- What may be treated after an offer was answered. -/
def ContinuesScram (step : AuthStep) : Prop :=
  step.request.type = .saslContinue ∨ step.request.type = .saslFinal ∨ step.request.type = .none

theorem AfterOffer.continues {after}
    (follows : AfterOffer context after handshake) : ∀ step ∈ after, ContinuesScram step := by
  cases follows <;> simp_all [ContinuesScram]

/-- No other method is answered after an offer, however the attempt ends. -/
theorem Handshake.Runs.noFallback (runs : Handshake.Runs context steps handshake)
    {before after offer} (split : steps = before ++ offer :: after)
    (isOffer : offer.request.type = .sasl) : ∀ step ∈ after, ContinuesScram step := by
  rcases runs.shaped with ⟨none, -⟩ | ⟨earlier, first, rest, whole, -, none, follows⟩
  · exact absurd isOffer (none offer (by simp [split]))
  -- The only offer of the attempt is the one its shape names.
  have notEarlier : offer ∉ earlier := fun member => none offer member isOffer
  have notRest : offer ∉ rest := by
    intro member
    rcases follows.continues offer member with other | other | other <;>
      rw [isOffer] at other <;> cases other
  rw [whole, List.append_cons_inj_of_notMem notEarlier notRest] at split
  obtain ⟨-, -, rfl⟩ := split
  exact follows.continues

end Odbcpp.Postgres
