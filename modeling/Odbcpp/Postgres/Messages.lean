import Odbcpp.Database.BackendResult
import Odbcpp.Foundation.Except
import Odbcpp.Foundation.Reader
import Odbcpp.Util.Utf8

/-!
# Backend messages

One frame of the PostgreSQL v3 protocol as `PgProtocolParser` sees it: a tag
letter and a payload. `parseMessage` checks the framing and the payloads that
are validated on arrival; the error and ready predicates decode the rest.
-/

namespace Odbcpp.Postgres

open Foundation Database Util

/-- The tag letters the client tells apart. -/
inductive Tag where
  | parseComplete | bindComplete | closeComplete | parameterDescription | rowDescription | noData
  | dataRow | commandComplete | emptyQueryResponse | errorResponse | noticeResponse
  | parameterStatus | notificationResponse | readyForQuery | authentication | backendKeyData
  | copyInResponse | copyOutResponse | copyBothResponse | copyData | copyDone | portalSuspended
  | functionCallResponse | other
deriving DecidableEq

def tagLetters : List (UInt8 × Tag) :=
  [(code '1', .parseComplete), (code '2', .bindComplete), (code '3', .closeComplete),
   (code 't', .parameterDescription), (code 'T', .rowDescription), (code 'n', .noData),
   (code 'D', .dataRow), (code 'C', .commandComplete), (code 'I', .emptyQueryResponse),
   (code 'E', .errorResponse), (code 'N', .noticeResponse), (code 'S', .parameterStatus),
   (code 'A', .notificationResponse), (code 'Z', .readyForQuery), (code 'R', .authentication),
   (code 'K', .backendKeyData), (code 'G', .copyInResponse), (code 'H', .copyOutResponse),
   (code 'W', .copyBothResponse), (code 'd', .copyData), (code 'c', .copyDone),
   (code 's', .portalSuspended), (code 'V', .functionCallResponse)]

def Tag.ofByte (letter : UInt8) : Tag :=
  match tagLetters.find? (·.1 = letter) with
  | some (_, tag) => tag
  | none => .other

theorem Tag.ofByte_eq_iff {letter own : UInt8} {tag : Tag} (entry : (own, tag) ∈ tagLetters) :
    Tag.ofByte letter = tag ↔ letter = own := by
  have unique : ∀ first ∈ tagLetters, ∀ second ∈ tagLetters,
      (first.1 = second.1 ↔ first.2 = second.2) ∧ first.2 ≠ .other := by decide
  unfold Tag.ofByte
  cases found : tagLetters.find? (·.1 = letter) with
  | none =>
    have absent := List.find?_eq_none.mp found (own, tag) entry
    have named := (unique _ entry _ entry).2
    refine iff_of_false (fun isTag => named isTag.symm) fun isOwn => ?_
    exact absent (by simp [isOwn])
  | some candidate =>
    have member := List.mem_of_find?_eq_some found
    have letterOf : candidate.1 = letter := by simpa using List.find?_some found
    rw [← letterOf]
    exact (unique candidate member _ entry).1.symm

/-- A parsed frame. -/
structure Message where
  tag : Tag
  payload : Bytes
deriving DecidableEq

/-- Field letters with their values, in arrival order; letters are distinct. -/
abbrev ErrorFields := List (UInt8 × Bytes)

/-- Decode `code value NUL` fields up to the terminator, within `steps` fields. -/
def errorFieldsWithin : Nat → ErrorFields → Bytes → Except Thrown (ErrorFields × Bytes)
  | 0, fields, unread => .ok (fields, unread)
  | _ + 1, fields, [] => .ok (fields, [])
  | steps + 1, fields, letter :: rest =>
    if letter = 0 then .ok (fields, letter :: rest)
    else match rest.span (· != 0) with
      | (_, []) => .error (.runtimeError "Unterminated PostgreSQL error field")
      | (value, _ :: unread) =>
        if (fields.lookup letter).isSome then
          .error (.runtimeError "Duplicate PostgreSQL error field")
        else errorFieldsWithin steps (fields ++ [(letter, replaceInvalidUtf8 value)]) unread

def sqlstateLetter (letter : UInt8) : Bool :=
  (code '0' ≤ letter && letter ≤ code '9') || (code 'A' ≤ letter && letter ≤ code 'Z')

/-- Decode and validate an ErrorResponse or NoticeResponse payload: terminated,
with severity, SQLSTATE and a message that is not empty. -/
def decodeErrorFields (payload : Bytes) : Except Thrown ErrorFields := do
  let (fields, unread) ← errorFieldsWithin payload.length [] payload
  let invalid := Thrown.runtimeError "Invalid PostgreSQL error/notice payload"
  match fields.lookup (code 'S'), fields.lookup (code 'C'), fields.lookup (code 'M') with
  | some _, some sqlstate, some message =>
    if unread.length ≠ 1 ∨ message = [] then throw invalid
    if sqlstate.length ≠ 5 ∨ !sqlstate.all sqlstateLetter then
      throw (.runtimeError "Invalid PostgreSQL SQLSTATE")
    return fields
  | _, _, _ => throw invalid

/-- Two NUL-terminated strings after the process id, and nothing else. -/
def checkNotification (payload : Bytes) : Except Thrown Unit := do
  if payload.length < 6 then
    throw (.runtimeError "truncated PostgreSQL NotificationResponse")
  let unterminated := Thrown.runtimeError "unterminated PostgreSQL metadata string"
  let (_, rest) ← (Reader.cstring unterminated).run (payload.drop 4)
  let (_, rest) ← (Reader.cstring unterminated).run rest
  if rest ≠ [] then throw (.runtimeError "invalid PostgreSQL NotificationResponse length")

def Tag.fixedLength : Tag → Bool
  | .parseComplete | .bindComplete | .closeComplete | .noData | .emptyQueryResponse
  | .portalSuspended => true
  | _ => false

def parseMessage (data : Bytes) : Except Thrown Message := do
  if data.length < 5 then throw (.runtimeError "Message too short")
  let tag := Tag.ofByte (data.headD 0)
  let length := ofBigEndian ((data.drop 1).take 4)
  if length < 4 ∨ data.length - 1 ≠ length then throw (.runtimeError "Invalid message length")
  if tag.fixedLength ∧ length ≠ 4 then
    throw (.runtimeError "Invalid PostgreSQL fixed-length response")
  let payload := data.drop 5
  if tag = .backendKeyData ∧ payload.length ≠ 8 then
    throw (.runtimeError "Invalid PostgreSQL 3.0 BackendKeyData length")
  if tag = .noticeResponse then
    let _ ← decodeErrorFields payload
  if tag = .notificationResponse then checkNotification payload
  return ⟨tag, payload⟩

theorem parseMessage_eq {frame message}
    (parsed : parseMessage frame = .ok message) :
    message = ⟨Tag.ofByte (frame.headD 0), frame.drop 5⟩ ∧ 5 ≤ frame.length := by
  simp only [parseMessage, guard_eq_ok] at parsed
  obtain ⟨long, -, -, -, parsed⟩ := parsed
  have same : message = ⟨Tag.ofByte (frame.headD 0), frame.drop 5⟩ := by
    split_ifs at parsed <;> simp only [bind_eq_ok, pure_eq_ok] at parsed
    · obtain ⟨_, -, _, -, rfl⟩ := parsed
      rfl
    · obtain ⟨_, -, rfl⟩ := parsed
      rfl
    · obtain ⟨_, -, rfl⟩ := parsed
      rfl
    · exact parsed.symm
  exact ⟨same, by omega⟩

theorem parseMessage_tag_iff {frame : Bytes} {message : Message} {own : UInt8} {tag : Tag}
    (parsed : parseMessage frame = .ok message) (entry : (own, tag) ∈ tagLetters) :
    message.tag = tag ↔ frame.head? = some own := by
  obtain ⟨rfl, long⟩ := parseMessage_eq parsed
  obtain ⟨letter, rest, rfl⟩ := List.exists_cons_of_length_pos (by omega : 0 < frame.length)
  simpa using Tag.ofByte_eq_iff entry

variable (message : Message)

/-- Whether the frame is ReadyForQuery; a ready frame must carry one of the
three transaction states. -/
def isReadyForQuery : Except Thrown Bool :=
  if message.tag ≠ .readyForQuery then .ok false
  else if message.payload = [code 'I'] ∨ message.payload = [code 'T'] ∨
      message.payload = [code 'E'] then .ok true
  else .error (.runtimeError "Invalid PostgreSQL ReadyForQuery payload")

def isErrorResponse : Bool :=
  message.tag = .errorResponse

/-- Whether an error ends the physical session: FATAL or PANIC, taken from the
nonlocalized severity when the server sends one. -/
def isTerminalErrorResponse : Except Thrown Bool := do
  if message.tag ≠ .errorResponse then return false
  let fields ← decodeErrorFields message.payload
  match fields.lookup (code 'V') with
  | some severity =>
    if severity ≠ ascii "ERROR" ∧ severity ≠ ascii "FATAL" ∧ severity ≠ ascii "PANIC" then
      throw (.runtimeError "Invalid PostgreSQL error severity")
    return severity = ascii "FATAL" ∨ severity = ascii "PANIC"
  | none =>
    let severity := (fields.lookup (code 'S')).getD []
    if severity = [] then throw (.runtimeError "Empty PostgreSQL error severity")
    return severity = ascii "FATAL" ∨ severity = ascii "PANIC"

def extractErrorMessage : Except Thrown Bytes := do
  if message.tag ≠ .errorResponse then return []
  return ((← decodeErrorFields message.payload).lookup (code 'M')).getD []

def extractErrorSqlstate : Except Thrown Bytes := do
  if message.tag ≠ .errorResponse then return []
  return ((← decodeErrorFields message.payload).lookup (code 'C')).getD []

end Odbcpp.Postgres
