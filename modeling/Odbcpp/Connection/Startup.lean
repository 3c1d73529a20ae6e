import Odbcpp.Connection.Synchronisation
import Odbcpp.Postgres.Authentication

/-!
# Authentication while connecting

`perform_authentication_result`: frames are read, authentication requests are answered, and the loop
ends with the first ReadyForQuery after AuthenticationOk. Every exception is caught and reported.
The specification ties the bytes on the wire to a sequence of treated requests.
-/

namespace Odbcpp.Connection

open Foundation Database Postgres List

/-- What a connection logs in with; a native IdP token replaces the password. -/
structure Credentials where
  user : Bytes
  password : Bytes
  nativeIdpToken : Option Bytes := none
deriving DecidableEq

def authContext (settings : Settings) (crypto : Crypto) (credentials : Credentials)
    (peerIdentityVerified : Bool) : AuthContext where
  crypto := crypto
  password := credentials.nativeIdpToken.getD credentials.password
  user := credentials.user
  peerIdentityVerified := peerIdentityVerified
  maxWireBytes := settings.inputLimits.maxAuthWireBytes

/-- The locals of the startup loop, the parser's state and whether a cancellation
key has arrived. -/
structure Startup where
  handshake : Handshake := {}
  keyPresent : Bool := false
  wireBytes : Nat := 0
deriving DecidableEq

/-- How the handling of a startup message ends. -/
inductive StartupOutcome where
  | finished (failure : BackendError)
  | next (startup : Startup)
  | ready
deriving DecidableEq

namespace Startup

variable (startup : Startup)

/-- Failures before AuthenticationOk belong to authentication, later ones to the
rest of the startup. -/
def operation : BackendOperation :=
  if startup.handshake.authenticated then .startup else .authenticate

def fail (failure : BackendError) : StartupOutcome :=
  .finished { failure with operation := startup.operation }

def reject (code : DbErrorCode) (message : String) : StartupOutcome :=
  startup.fail (BackendError.make code message)

/-- An ErrorResponse: an authentication failure before AuthenticationOk or with a
SQLSTATE of class 28. -/
def serverError (message : Message) : Except Thrown StartupOutcome := do
  let text ← extractErrorMessage message
  let sqlstate ← extractErrorSqlstate message
  let authenticationError := !startup.handshake.authenticated || (ascii "28").isPrefixOf sqlstate
  return .finished
    { code := .db (if authenticationError then .authenticationFailed else .connectionFailed)
      message :=
        ascii (if authenticationError then "Authentication failed: " else "Startup failed: ") ++ text
      nativeState := some sqlstate
      operation := if authenticationError then .authenticate else .startup }

/-- What the handlers make of an exception. -/
def thrown : Thrown → StartupOutcome
  | .requestWireLimitExceeded =>
    startup.reject .resourceLimit "Database authentication request limit exceeded"
  | .badAlloc => startup.reject .allocationFailure ""
  | other => startup.reject .protocolError ("Invalid authentication exchange: " ++ other.what)

end Startup

section

variable {σ : Type} (env : Environment σ) (settings : Settings) (context : AuthContext)

/-- Treat an authentication request: compute its answer and write it. -/
def answerRequest (deadline : Nat) (startup : Startup) (payload : Bytes) : Io σ StartupOutcome := do
  let (step, parser) ← Program.ofExcept (answerAuthRequest context startup.handshake.parser payload)
  let next := { startup with handshake := ⟨step.request.type = .none, parser⟩ }
  if step.answer = [] then return .next next
  else
    match ← writeAllResult env step.answer deadline true with
    | .error failure => return startup.fail failure.backendError
    | .ok () => return .next next

/-- Keep the cancellation key, which may arrive once. -/
def authenticatedBackendKey (startup : Startup) (payload : Bytes) : Except Thrown Startup :=
  if payload.length ≠ 8 ∨ startup.keyPresent then
    .error (.runtimeError "Invalid PostgreSQL backend cancellation key")
  else .ok { startup with keyPresent := true }

/-- The body of the loop after a frame has been parsed. -/
def startupMessage (deadline : Nat) (startup : Startup) (message : Message) : Io σ StartupOutcome :=
  let authenticated := startup.handshake.authenticated
  match message.tag with
  | .authentication =>
    if authenticated then
      return startup.reject .protocolError "Authentication request arrived after AuthenticationOk"
    else answerRequest env context deadline startup message.payload
  | .parameterStatus =>
    if !authenticated then
      return startup.reject .protocolError "ParameterStatus arrived before AuthenticationOk"
    else do
      match ← recordParameterStatus message with
      | .error failure => return startup.fail failure.backendError
      | .ok () => return .next startup
  | .backendKeyData =>
    if !authenticated then
      return startup.reject .protocolError "BackendKeyData arrived before AuthenticationOk"
    else return .next (← Program.ofExcept (authenticatedBackendKey startup message.payload))
  | .errorResponse => Program.ofExcept (startup.serverError message)
  | _ => do
    if ← Program.ofExcept (isReadyForQuery message) then
      if !authenticated then
        return startup.reject .protocolError "ReadyForQuery arrived before AuthenticationOk"
      else
        modify fun session => { session with sessionState := readyState message }
        return .ready
    else if message.tag = .noticeResponse ∧ authenticated then return .next startup
    else return startup.reject .protocolError "Unexpected PostgreSQL startup message"

def startupFrame (deadline : Nat) (startup : Startup) : Io σ StartupOutcome := do
  match ← readMessageResult env settings deadline
      (settings.startupResponseLimits.maxWireBytes - startup.wireBytes) true with
  | .error failure => return startup.fail failure.backendError
  | .ok frame =>
    allocate env
    let message ← Program.ofExcept (parseMessage frame)
    startupMessage env context deadline
      { startup with wireBytes := startup.wireBytes + frame.length } message

/-- Treat frames until the server is ready or the attempt is over, at most
`remaining` of them. -/
def startupFrames (deadline : Nat) : Nat → Startup → Io σ (BackendResult Unit)
  | 0, startup =>
    return .error { BackendError.make .resourceLimit "Database startup message limit exceeded" with
      operation := startup.operation }
  | remaining + 1, startup => do
    match ← tryCatch (startupFrame env settings context deadline startup)
        (fun thrown => return startup.thrown thrown) with
    | .finished failure => return .error failure
    | .next startup => startupFrames deadline remaining startup
    | .ready => return .value ()

def performAuthenticationResult (crypto : Crypto) (credentials : Credentials)
    (peerIdentityVerified : Bool) (deadline : Nat) : Io σ (BackendResult Unit) :=
  startupFrames env settings (authContext settings crypto credentials peerIdentityVerified) deadline
    settings.startupResponseLimits.maxMessages {}

end

/-! ## What is on the wire -/

def authenticationPayload (frame : Bytes) : Option Bytes :=
  if frame.head? = some (code 'R') then some (frame.drop 5) else none

def answers (steps : List AuthStep) : Bytes := (steps.map (·.answer)).flatten

/-- Nothing but answers to treated requests was sent, the last one maybe in part. -/
def Attempted (context : AuthContext) (base link : Link) : Prop :=
  ∃ steps handshake, Handshake.Runs context steps handshake ∧ SentPart base.sent (answers steps) link

/-- The frames received are accounted for: the requests among them were treated in
order, and their answers sent. -/
structure Accounts (context : AuthContext) (base : Link) (handshake : Handshake)
    (frames : List Bytes) (steps : List AuthStep) (link : Link) : Prop where
  runs : Handshake.Runs context steps handshake
  payloads : steps.map (·.payload) = frames.filterMap authenticationPayload
  received : link.received = base.received ++ frames.flatten
  sent : link.sent = base.sent ++ answers steps

/-- The attempt goes on after complete frames, none of them ReadyForQuery. -/
def Underway (context : AuthContext) (base : Link) (handshake : Handshake) (link : Link) : Prop :=
  ∃ frames steps, Accounts context base handshake frames steps link ∧
    (∀ frame ∈ frames, CompleteFrame frame) ∧ ∀ frame ∈ frames, ¬ IsReady frame

/-- The attempt succeeded with a ReadyForQuery after AuthenticationOk. -/
def LoggedIn (context : AuthContext) (base link : Link) : Prop :=
  ∃ frames steps state handshake, Accounts context base handshake frames steps link ∧
    handshake.authenticated = true ∧ Drained frames state ∧ link.sessionState = state

section

variable {σ : Type} {env : Environment σ} {settings : Settings} {context : AuthContext}
  {base link : Link} {handshake : Handshake} {frames : List Bytes} {steps : List AuthStep}

variable {parser : Authenticator} {deadline : Nat} {startup : Startup}

theorem Accounts.attempted (accounts : Accounts context base handshake frames steps link)
    {other : Link} (same : other.sent = link.sent) : Attempted context base other :=
  ⟨steps, handshake, accounts.runs, answers steps, prefix_refl _, same.trans accounts.sent⟩

theorem Accounts.ordinary {frame message}
    (accounts : Accounts context base handshake frames steps link)
    (parsed : parseMessage frame = .ok message) (other : message.tag ≠ .authentication) :
    Accounts context base handshake (frames ++ [frame]) steps (link.receive frame) := by
  have notRequest : authenticationPayload frame = none := by
    rw [Ne, parseMessage_tag_iff parsed
      (by decide : (code 'R', Tag.authentication) ∈ tagLetters)] at other
    simp [authenticationPayload, other]
  refine ⟨accounts.runs, ?_, ?_, accounts.sent⟩
  · simp [accounts.payloads, notRequest]
  · simp [Link.receive, accounts.received]

theorem Accounts.request {frame message step}
    (accounts : Accounts context base handshake frames steps link)
    (parsed : parseMessage frame = .ok message) (isRequest : message.tag = .authentication)
    (pending : handshake.authenticated = false)
    (answered : answerAuthRequest context handshake.parser message.payload = .ok (step, parser)) :
    Accounts context base ⟨step.request.type = .none, parser⟩ (frames ++ [frame]) (steps ++ [step])
      ((link.receive frame).send step.answer) := by
  have tagged : frame.head? = some (code 'R') := (parseMessage_tag_iff parsed
    (by decide : (code 'R', Tag.authentication) ∈ tagLetters)).mp isRequest
  have payload : step.payload = frame.drop 5 := by
    rw [(answerAuthRequest_admitted answered).1, (parseMessage_eq parsed).1]
  refine ⟨.step accounts.runs pending answered, ?_, ?_, ?_⟩
  · simp [accounts.payloads, authenticationPayload, tagged, payload]
  · simp [Link.send, Link.receive, accounts.received]
  · simp [Link.send, Link.receive, accounts.sent, answers]

theorem Accounts.attempted_of_sentPart {step payload other}
    (accounts : Accounts context base handshake frames steps link)
    (pending : handshake.authenticated = false)
    (answered : answerAuthRequest context handshake.parser payload = .ok (step, parser))
    (partly : SentPart link.sent step.answer other) : Attempted context base other := by
  obtain ⟨part, begins, same⟩ := partly
  refine ⟨steps ++ [step], _, .step accounts.runs pending answered, answers steps ++ part, ?_, ?_⟩
  · simpa [answers] using begins
  · rw [same, accounts.sent, append_assoc]

def StartupLeaves (context : AuthContext) (base : Link) (outcome : StartupOutcome) (link : Link) :
    Prop :=
  match outcome with
  | .finished _ => Attempted context base link
  | .next startup => Underway context base startup.handshake link
  | .ready => LoggedIn context base link

section

variable {frame : Bytes} {message : Message}
  (accounts : Accounts context base startup.handshake frames steps link)
  (complete : ∀ other ∈ frames ++ [frame], CompleteFrame other)
  (ordinary : ∀ other ∈ frames, ¬ IsReady other) (parsed : parseMessage frame = .ok message)

include accounts complete ordinary parsed

theorem underway_of_ordinary (other : message.tag ≠ .authentication)
    (notReady : message.tag ≠ .readyForQuery) :
    Underway context base startup.handshake (link.receive frame) := by
  refine ⟨frames ++ [frame], steps, accounts.ordinary parsed other, complete, ?_⟩
  exact forall_mem_concat ordinary (by rw [isReady_iff parsed]; exact notReady)

theorem answerRequest_leaves (isRequest : message.tag = .authentication)
    (pending : startup.handshake.authenticated = false) :
    Ensures (· = link.receive frame) (answerRequest env context deadline startup message.payload)
      (StartupLeaves context base) (fun _ => Attempted context base) := by
  have underway {step : AuthStep} {parser : Authenticator}
      (answered : answerAuthRequest context startup.handshake.parser message.payload =
        .ok (step, parser)) : Underway context base ⟨step.request.type = .none, parser⟩
        ((link.receive frame).send step.answer) := by
    refine ⟨frames ++ [frame], steps ++ [step],
      accounts.request parsed isRequest pending answered, complete, ?_⟩
    intro seen member
    rcases mem_append.mp member with earlier | last
    · exact ordinary seen earlier
    · rw [mem_singleton.mp last, isReady_iff parsed, isRequest]
      simp
  refine (Ensures.ofExcept fun _ other same => accounts.attempted (by rw [same]; rfl) :
    Ensures (· = link.receive frame) _ (fun _ other => other = link.receive frame ∧ _) _).bind ?_
  rintro ⟨step, parser⟩
  refine Ensures.knowing (fun _ holds => holds.2) fun answered => ?_
  dsimp only
  split
  · rename_i silent
    refine .pure _ fun other holds => ?_
    have reached := underway answered
    rw [silent] at reached
    simpa [StartupLeaves, Link.send, holds.1] using reached
  refine Ensures.bind (writeAllResult_sent.consequence (fun _ holds => holds.1)
    (fun _ _ => id) (fun _ _ partly =>
      accounts.attempted_of_sentPart pending answered partly)) fun result => ?_
  cases result with
  | error failure =>
    exact .pure _ fun other holds => accounts.attempted_of_sentPart pending answered holds.2
  | ok _ => exact .pure _ fun other holds => holds.1 ▸ underway answered

theorem startupMessage_leaves :
    Ensures (· = link.receive frame) (startupMessage env context deadline startup message)
      (StartupLeaves context base) (fun _ => Attempted context base) := by
  have attempted (other : Link) (same : other = link.receive frame) : Attempted context base other :=
    accounts.attempted (by rw [same]; rfl)
  unfold startupMessage
  dsimp only
  split
  case h_1 isRequest =>
    split
    · exact .pure _ attempted
    · rename_i pending
      exact answerRequest_leaves accounts complete ordinary parsed isRequest (by simpa using pending)
  case h_2 isStatus =>
    have underway := underway_of_ordinary accounts complete ordinary parsed
      (by simp [isStatus]) (by simp [isStatus])
    split
    · exact .pure _ attempted
    unfold recordParameterStatus
    split
    · exact .pure _ attempted
    · refine (Ensures.quietly _ ?_).bind fun _ => .pure _ fun other same => same ▸ underway
      exact fun _ => rfl
  case h_3 isKey =>
    have underway := underway_of_ordinary accounts complete ordinary parsed
      (by simp [isKey]) (by simp [isKey])
    split
    · exact .pure _ attempted
    refine (Ensures.ofExcept fun _ => attempted).bind fun next => ?_
    refine .pure _ fun other holds => ?_
    have same : next.handshake = startup.handshake := by
      have stored := holds.2
      unfold authenticatedBackendKey at stored
      split at stored <;> cases stored
      rfl
    rw [StartupLeaves, same, holds.1]
    exact underway
  case h_4 isError =>
    refine (Ensures.ofExcept fun _ => attempted).concluding ?_
    rintro outcome other ⟨same, reported⟩
    simp only [Startup.serverError, bind_eq_ok, pure_eq_ok] at reported
    obtain ⟨text, -, sqlstate, -, rfl⟩ := reported
    exact attempted other same
  case h_5 notRequest _ _ _ =>
    refine (Ensures.ofExcept fun _ => attempted).bind fun ready => ?_
    refine Ensures.knowing (fun _ holds => holds.2) fun isReady => ?_
    split
    · split
      · exact .pure _ fun other holds => attempted other holds.1
      rename_i wasReady authenticated
      obtain ⟨tagged, carries⟩ := carries_readyState parsed (wasReady ▸ isReady)
      refine (Ensures.update _ fun session holds => ?_ :
        Ensures _ _ (fun _ => LoggedIn context base) _).bind fun _ => .pure _ fun _ => id
      have same : session.toLink = link.receive frame := holds.1
      have reached := accounts.ordinary parsed notRequest
      rw [← same] at reached
      exact ⟨frames ++ [frame], steps, readyState message, startup.handshake,
        ⟨reached.runs, reached.payloads, reached.received, reached.sent⟩,
        by simpa using authenticated,
        ⟨complete, frames, frame, rfl, ordinary, tagged, carries⟩, rfl⟩
    · split
      · rename_i isNotice
        have underway := underway_of_ordinary accounts complete ordinary parsed
          (by simp [isNotice.1]) (by simp [isNotice.1])
        exact .pure _ fun other holds => holds.1 ▸ underway
      · exact .pure _ fun other holds => attempted other holds.1

end

theorem Underway.attempted (underway : Underway context base handshake link) {other : Link}
    (same : other.sent = link.sent) : Attempted context base other := by
  obtain ⟨frames, steps, accounts, -, -⟩ := underway
  exact accounts.attempted same

/-- One iteration of the loop. -/
theorem startupFrame_leaves : Ensures (Underway context base startup.handshake)
      (startupFrame env settings context deadline startup)
      (StartupLeaves context base) (fun _ => Attempted context base) := by
  refine Ensures.each fun link underway => ?_
  refine Ensures.bind (readMessageResult_sent.consequence (fun _ => id)
    (fun _ _ => id) (fun _ _ same => underway.attempted same)) fun result => ?_
  rcases result with failure | frame
  · exact .pure _ fun _ holds => underway.attempted holds.2
  refine Ensures.knowing (fun _ holds => holds.1.1) fun frameComplete => ?_
  have attempted (other : Link) (same : other = link.receive frame) :
      Attempted context base other := underway.attempted (by rw [same]; rfl)
  refine Ensures.bind ((Ensures.allocate attempted).assuming fun _ holds => holds.1.2)
    fun _ => ?_
  refine (Ensures.ofExcept fun _ => attempted).bind fun message => ?_
  refine Ensures.knowing (fun _ holds => holds.2) fun parsed => ?_
  obtain ⟨frames, steps, accounts, complete, ordinary⟩ := underway
  have allComplete : ∀ other ∈ frames ++ [frame], CompleteFrame other := by
    exact forall_mem_concat complete frameComplete
  exact Ensures.assuming (startupMessage_leaves accounts allComplete ordinary parsed)
    fun _ holds => holds.1

/-- However the loop ends, only answers were sent; it succeeds only when logged in. -/
theorem startupFrames_ensures {remaining : Nat} {abrupt : Thrown → Link → Prop} :
    Ensures (Underway context base startup.handshake)
      (startupFrames env settings context deadline remaining startup)
      (fun result link => match result with
        | .value _ _ => LoggedIn context base link
        | .error _ => Attempted context base link) abrupt := by
  induction remaining generalizing startup with
  | zero => exact .pure _ fun _ underway => underway.attempted rfl
  | succ remaining ih =>
    have treated : Ensures (Underway context base startup.handshake)
        (tryCatch (startupFrame env settings context deadline startup)
          (fun thrown => return startup.thrown thrown))
        (StartupLeaves context base) abrupt := by
      refine startupFrame_leaves.tryCatch fun thrown => .pure _ fun _ attempted => ?_
      cases thrown <;> exact attempted
    refine treated.bind fun outcome => ?_
    cases outcome with
    | finished failure => exact .pure _ fun _ attempted => attempted
    | next startup => exact ih
    | ready => exact .pure _ fun _ loggedIn => loggedIn

end

/-- Whatever the server sends, an attempt writes nothing but answers to the requests it treated. It
sends the plain password or token only to a verified peer, and answers no other method after a SASL
offer. It succeeds only after every received request was treated, and after an offer only with a
verified server. -/
theorem performAuthenticationResult_safe {σ : Type} (env : Environment σ) (settings : Settings)
    (crypto : Crypto) (credentials : Credentials) (peerIdentityVerified : Bool) (deadline : Nat)
    {start final : Session σ} {result : Except Thrown (BackendResult Unit)}
    (ends : (performAuthenticationResult env settings crypto credentials peerIdentityVerified
      deadline).outcome start = (result, final)) :
    let context := authContext settings crypto credentials peerIdentityVerified
    ∃ steps handshake, Handshake.Runs context steps handshake ∧
      SentPart start.sent (answers steps) final.toLink ∧
      (∀ step ∈ steps, step.request.type = .cleartext ∨ step.request.type = .idp →
        peerIdentityVerified = true) ∧
      (∀ before offer after, steps = before ++ offer :: after → offer.request.type = .sasl →
        ∀ step ∈ after, ContinuesScram step) ∧
      ∀ value snapshot, result = .ok (.value value snapshot) →
        final.sent = start.sent ++ answers steps ∧
        (∃ frames state, Drained frames state ∧ final.received = start.received ++ frames.flatten ∧
          steps.map (·.payload) = frames.filterMap authenticationPayload) ∧
        ((∃ step ∈ steps, step.request.type = .sasl) → CompletedScram context steps) := by
  intro context
  have underway : Underway context start.toLink ({} : Startup).handshake start.toLink :=
    ⟨[], [], ⟨.start, rfl, by simp, by simp [answers]⟩, by simp, by simp⟩
  have runs : Ensures (Underway context start.toLink ({} : Startup).handshake)
      (performAuthenticationResult env settings crypto credentials peerIdentityVerified deadline) _
      (fun _ _ => False) := startupFrames_ensures
  match result with
  | .error failure => exact (runs.throws underway ends).elim
  | .ok (.error failure) =>
    obtain ⟨steps, handshake, treated, sent⟩ := runs.returns underway ends
    exact ⟨steps, handshake, treated, sent, treated.verbatim,
      fun _ _ _ split isOffer => treated.noFallback split isOffer, fun _ _ isOk => by cases isOk⟩
  | .ok (.value value snapshot) =>
    obtain ⟨frames, steps, state, handshake, accounts, authenticated, whole, -⟩ :=
      runs.returns underway ends
    refine ⟨steps, handshake, accounts.runs, ⟨_, List.prefix_refl _, accounts.sent⟩,
      accounts.runs.verbatim, fun _ _ _ split isOffer => accounts.runs.noFallback split isOffer,
      fun _ _ _ => ⟨accounts.sent, ⟨frames, state, whole, accounts.received, accounts.payloads⟩,
        accounts.runs.completed authenticated⟩⟩

namespace Sample

/-- Primitives that always answer with the same three bytes. -/
def constantCrypto : Crypto where
  md5 _ := .ok [1, 2, 3]
  sha256 _ := .ok [1, 2, 3]
  hmacSha256 _ _ := .ok [1, 2, 3]
  pbkdf2HmacSha256 _ _ _ := .ok [1, 2, 3]
  secureRandom count := .ok (List.replicate count 0)

def authFrame (method : Nat) (body : Bytes) : Bytes :=
  code 'R' :: bigEndian 4 (8 + body.length) ++ bigEndian 4 method ++ body

/-- A SCRAM exchange with a server that knows the password, up to the first
ReadyForQuery. -/
def scramServer : Bytes :=
  authFrame 10 (scramMechanism ++ [0, 0]) ++
  authFrame 11 (ascii "r=AAAAAAAAAAAAAAAAAAAAAAAAx,s=AQID,i=4096") ++
  authFrame 12 (ascii "v=AQID") ++ authFrame 0 [] ++ code 'Z' :: bigEndian 4 5 ++ [code 'I']

def closedSession : Session Bytes where
  environment := scramServer

end Sample

open Sample in
/-- A whole SCRAM login over an unverified peer. -/
theorem performAuthenticationResult_safe_scram :
    ∃ final, (performAuthenticationResult trickling {} constantCrypto ⟨ascii "u", ascii "p", none⟩
        false 1).outcome closedSession = (.ok (.value ()), final) ∧
      ∃ steps, final.sent = answers steps ∧ final.sent ≠ [] ∧
        ((∃ step ∈ steps, step.request.type = .sasl) → CompletedScram
          (authContext {} constantCrypto ⟨ascii "u", ascii "p", none⟩ false) steps) := by
  have evaluated : ∀ result final, (performAuthenticationResult trickling {} constantCrypto
      ⟨ascii "u", ascii "p", none⟩ false 1).outcome closedSession = (result, final) →
      result = .ok (.value ()) ∧ final.sent ≠ [] := by
    rintro result final ends
    rw [show result = (result, final).1 from rfl, show final = (result, final).2 from rfl, ← ends]
    decide +kernel
  rcases ends : (performAuthenticationResult trickling {} constantCrypto
    ⟨ascii "u", ascii "p", none⟩ false 1).outcome closedSession with ⟨result, final⟩
  obtain ⟨rfl, sent⟩ := evaluated result final ends
  obtain ⟨steps, -, -, -, -, -, succeeded⟩ :=
    performAuthenticationResult_safe trickling {} constantCrypto _ false 1 ends
  obtain ⟨same, -, completed⟩ := succeeded () {} rfl
  exact ⟨final, rfl, steps, same, sent, completed⟩

end Odbcpp.Connection
