import Odbcpp.Util.Base64
import Odbcpp.Util.Text

/-!
# The SCRAM-SHA-256 client

`ScramSha256Client`: the client's half of the exchange, with the server's proof
checked against a signature computed from the first server message. The
cryptographic primitives are given functions that may fail.
-/

namespace Odbcpp.Postgres

open Foundation Database Util

/-- The primitives of `security/crypto.h`. `secureRandom` hands out the bytes of
the one nonce an attempt draws. -/
structure Crypto where
  md5 : Bytes → Except Thrown Bytes
  sha256 : Bytes → Except Thrown Bytes
  hmacSha256 : (key input : Bytes) → Except Thrown Bytes
  pbkdf2HmacSha256 : (password salt : Bytes) → (iterations : Nat) → Except Thrown Bytes
  secureRandom : Nat → Except Thrown Bytes

def maximumIterations : Nat := 10000000

/-- Attribute letters with their values; letters are distinct. -/
abbrev ScramAttributes := List (UInt8 × Bytes)

/-- Enter one attribute, a letter and a nonempty value around an equals sign. -/
def addAttribute (attributes : ScramAttributes) (entry : Bytes) :
    Except Thrown ScramAttributes :=
  match entry with
  | letter :: 61 :: first :: rest =>
    if (attributes.lookup letter).isSome then
      .error (.runtimeError "invalid SCRAM attribute list")
    else .ok (attributes ++ [(letter, first :: rest)])
  | _ => .error (.runtimeError "invalid SCRAM attribute list")

def parseAttributes (message : Bytes) : Except Thrown ScramAttributes :=
  (message.splitOn (code ',')).foldlM addAttribute []

def escapeUsername (user : Bytes) : Bytes :=
  user.flatMap fun ch =>
    if ch = code '=' then ascii "=3D" else if ch = code ',' then ascii "=2C" else [ch]

structure ScramSha256Client where
  password : Bytes
  clientNonce : Bytes
  clientFirstBare : Bytes
  serverFirst : Bytes := []
  clientFinalWithoutProof : Bytes := []
  expectedServerSignature : Bytes := List.replicate 32 0
  serverFirstReceived : Bool := false
deriving DecidableEq

def scramBase64Decode (input : Bytes) : Except Thrown Bytes :=
  if input = [] then .error (.runtimeError "invalid SCRAM base64 value") else base64Decode input

structure ServerFirst where
  nonce : Bytes
  salt : Bytes
  iterations : Nat
deriving DecidableEq

namespace ScramSha256Client

/-- The constructor. -/
def create (user password clientNonce : Bytes) : Except Thrown ScramSha256Client :=
  if clientNonce = [] ∨ code ',' ∈ clientNonce then
    .error (.invalidArgument "invalid SCRAM client nonce")
  else
    .ok
      { password
        clientNonce
        clientFirstBare := ascii "n=" ++ escapeUsername user ++ ascii ",r=" ++ clientNonce }

variable (client : ScramSha256Client)

def clientFirstMessage : Bytes :=
  ascii "n,," ++ client.clientFirstBare

/-- Read a server-first message: it extends the client's own nonce and asks for a
bounded number of iterations. -/
def readServerFirst (message : Bytes) : Except Thrown ServerFirst := do
  let attributes ← parseAttributes message
  if (attributes.lookup (code 'm')).isSome then
    throw (.runtimeError "unsupported mandatory SCRAM extension")
  match attributes.lookup (code 'r'), attributes.lookup (code 's'), attributes.lookup (code 'i') with
  | some nonce, some salt, some count =>
    if !client.clientNonce.isPrefixOf nonce ∨ nonce.length ≤ client.clientNonce.length then
      throw (.runtimeError "invalid SCRAM server-first message")
    match parseUnsigned 32 count with
    | some iterations =>
      if iterations = 0 ∨ maximumIterations < iterations then
        throw (.runtimeError "invalid SCRAM iteration count")
      return { nonce, salt := ← scramBase64Decode salt, iterations }
    | none => throw (.runtimeError "invalid SCRAM iteration count")
  | _, _, _ => throw (.runtimeError "invalid SCRAM server-first message")

/-- Answer a server-first message with the client's proof, and remember the
signature the server has to present. -/
def receiveServerFirst (crypto : Crypto) (client : ScramSha256Client) (message : Bytes) :
    Except Thrown (Bytes × ScramSha256Client) := do
  if client.serverFirstReceived then
    throw (.runtimeError "duplicate SCRAM server-first message")
  let first ← client.readServerFirst message
  let salted ← crypto.pbkdf2HmacSha256 client.password first.salt first.iterations
  let clientKey ← crypto.hmacSha256 salted (ascii "Client Key")
  let storedKey ← crypto.sha256 clientKey
  let clientFinalWithoutProof := ascii "c=biws,r=" ++ first.nonce
  let authenticationMessage :=
    client.clientFirstBare ++ ascii "," ++ message ++ ascii "," ++ clientFinalWithoutProof
  let clientSignature ← crypto.hmacSha256 storedKey authenticationMessage
  let clientProof := List.zipWith (· ^^^ ·) clientKey clientSignature
  let serverKey ← crypto.hmacSha256 salted (ascii "Server Key")
  let expectedServerSignature ← crypto.hmacSha256 serverKey authenticationMessage
  return (clientFinalWithoutProof ++ ascii ",p=" ++ base64Encode clientProof,
    { client with
      serverFirst := message
      clientFinalWithoutProof
      expectedServerSignature
      serverFirstReceived := true })

def verifyServerFinal (message : Bytes) : Except Thrown Unit := do
  if !client.serverFirstReceived then
    throw (.runtimeError "SCRAM server-final message arrived out of sequence")
  let attributes ← parseAttributes message
  match attributes.lookup (code 'e'), attributes.lookup (code 'v') with
  | some serverError, _ =>
    throw (.runtimeError ("SCRAM authentication failed: " ++ quoted serverError))
  | none, none => throw (.runtimeError "SCRAM server signature is missing")
  | none, some verifier =>
    let decoded ← scramBase64Decode verifier
    if decoded ≠ client.expectedServerSignature then
      throw (.runtimeError "SCRAM server signature verification failed")

variable {client : ScramSha256Client}

theorem serverFirstReceived_of_create {user password nonce : Bytes}
    (created : create user password nonce = .ok client) : client.serverFirstReceived = false := by
  unfold create at created
  split at created
  · cases created
  · cases created
    rfl

theorem receiveServerFirst_once {crypto : Crypto} {client next : ScramSha256Client}
    {message reply : Bytes} (accepted : client.receiveServerFirst crypto message = .ok (reply, next)) :
    client.serverFirstReceived = false ∧ next.serverFirstReceived = true := by
  simp only [receiveServerFirst, guard_eq_ok, bind_eq_ok, pure_eq_ok] at accepted
  obtain ⟨fresh, first, -, salted, -, clientKey, -, storedKey, -, signature, -, serverKey, -,
    expected, -, ends⟩ := accepted
  cases ends
  exact ⟨by simpa using fresh, rfl⟩

theorem serverFirstReceived_of_verifyServerFinal {message : Bytes}
    (verified : client.verifyServerFinal message = .ok ()) : client.serverFirstReceived = true := by
  simp only [verifyServerFinal, guard_eq_ok] at verified
  simpa using verified.1

end ScramSha256Client

end Odbcpp.Postgres
