import Odbcpp.Foundation.Buffers
import Odbcpp.Postgres.FrontendCodec

/-!
# Wire counts

The sizes that the request encoders count before they allocate, with the source's
own unsigned subtractions and, where a message is written by offset into its
buffer, with the source's own writes. Each count comes to the length of the message.
-/

namespace Odbcpp.Postgres

open Foundation Database Util List
open Option (bind_eq_bind bind_some)

/-! ## Counting -/

/-- Claim `bytes` of a request budget in `create_prepared_query`. -/
def claimBudget (maxWireBytes wireBytes bytes : Nat) : ExceptT Thrown Option Nat := do
  let room ← (checkedSub maxWireBytes wireBytes : Option Nat)
  if room < bytes then throw .requestWireLimitExceeded
  return wireBytes + bytes

variable (profile : PgCatalogProfile)

/-- First pass of `create_prepared_query` over a parameter. -/
def countParameter (context : Option FloatingContext) (maxWireBytes wireBytes : Nat)
    (parameter : QueryParameter) : ExceptT Thrown Option Nat :=
  match parameter.value with
  | none => pure wireBytes
  | some value =>
    match nativeIeeeParameter profile context parameter with
    | some native => claimBudget maxWireBytes wireBytes native.length
    | none => do
      if parameterMaximum profile parameter < value.length then
        throw (.lengthError "PostgreSQL parameter value is too large")
      claimBudget maxWireBytes wireBytes
        (if hexBinary profile parameter then 2 + 2 * value.length else value.length)

def countPreparedQuery (context : Option FloatingContext) (sql : Bytes)
    (parameters : List QueryParameter) (maxWireBytes : Nat) : ExceptT Thrown Option Nat := do
  let wireBytes ← claimBudget maxWireBytes 0 51
  let wireBytes ← claimBudget maxWireBytes wireBytes sql.length
  let wireBytes ← claimBudget maxWireBytes wireBytes (8 * parameters.length)
  let wireBytes ←
    if explicitFormats profile context parameters then
      claimBudget maxWireBytes wireBytes (2 * parameters.length)
    else pure wireBytes
  parameters.foldlM (countParameter profile context maxWireBytes) wireBytes

/-- The size reserved by `create_statement_description`. -/
def countStatementDescription (sql : Bytes) (types : List QueryParameterType)
    (maxWireBytes : Nat) : ExceptT Thrown Option Nat := do
  let overhead := 21 + 4 * types.length
  if maxWireBytes < overhead then throw .requestWireLimitExceeded
  let room ← (checkedSub maxWireBytes overhead : Option Nat)
  if room < sql.length then throw .requestWireLimitExceeded
  return overhead + sql.length

/-- The size allocated by `create_simple_query`. -/
def countSimpleQuery (sql : Bytes) (maxWireBytes : Nat) : ExceptT Thrown Option Nat := do
  if maxWireBytes < 6 then throw .requestWireLimitExceeded
  let room ← (checkedSub maxWireBytes 6 : Option Nat)
  let representable ← (checkedSub (2 ^ 32 - 1) 5 : Option Nat)
  if min room representable < sql.length then throw .requestWireLimitExceeded
  return 1 + 4 + sql.length + 1

/-- `add` of `create_startup_message`, whose count does not start at zero. -/
def addStartupBytes (maxWireBytes bytes size : Nat) : ExceptT Thrown Option Nat := do
  if maxWireBytes < bytes then throw .requestWireLimitExceeded
  let room ← (checkedSub maxWireBytes bytes : Option Nat)
  if room < size then throw .requestWireLimitExceeded
  return bytes + size

/-- Redshift sessions ask for all digits of floating values, unless the caller
chose a number of digits. -/
def asksFloatDigits (params : List (Bytes × Bytes)) : Bool :=
  profile = .redshift && !params.any (·.1 = ascii "extra_float_digits")

/-- Claim a name and a value with their terminators. -/
def addStartupField (maxWireBytes bytes : Nat) (field : Bytes × Bytes) :
    ExceptT Thrown Option Nat := do
  let bytes ← addStartupBytes maxWireBytes bytes field.1.length
  let bytes ← addStartupBytes maxWireBytes bytes 1
  let bytes ← addStartupBytes maxWireBytes bytes field.2.length
  addStartupBytes maxWireBytes bytes 1

/-- Claim the user, behind the nine bytes every startup message has. An empty user
is omitted. -/
def addStartupUser (maxWireBytes : Nat) (user : Bytes) : ExceptT Thrown Option Nat :=
  if user ≠ [] then do
    let bytes ← addStartupBytes maxWireBytes 9 6
    addStartupBytes maxWireBytes bytes user.length
  else pure 9

def addFloatDigits (asks : Bool) (maxWireBytes bytes : Nat) : ExceptT Thrown Option Nat :=
  if asks then addStartupBytes maxWireBytes bytes ((ascii "extra_float_digits").length + 1 + 2)
  else pure bytes

def countStartupMessage (user database : Bytes) (params : List (Bytes × Bytes))
    (maxWireBytes : Nat) : ExceptT Thrown Option Nat := do
  let bytes ← addStartupUser maxWireBytes user
  let bytes ← addStartupBytes maxWireBytes bytes 10
  let bytes ← addStartupBytes maxWireBytes bytes database.length
  let bytes ← params.foldlM (addStartupField maxWireBytes) bytes
  let bytes ← addFloatDigits (asksFloatDigits profile params) maxWireBytes bytes
  if 2 ^ 32 - 1 < bytes then throw .requestWireLimitExceeded
  return bytes

/-! ## Messages written by offset -/

/-- The message of `create_simple_query` in a buffer of the counted size. -/
def writeSimpleQuery (sql : Bytes) (bytes : Nat) : Option Bytes := do
  let buffer ← writeAt (List.replicate bytes 0) 0 [code 'Q']
  let buffer ← writeAt buffer 1 (bigEndian 4 (4 + sql.length + 1))
  let buffer ← writeAt buffer 5 sql
  writeAt buffer (5 + sql.length) [0]

/-- The name and value pairs of a startup message. An empty user is omitted. -/
def startupFields (user database : Bytes) (params : List (Bytes × Bytes)) : List (Bytes × Bytes) :=
  (if user ≠ [] then [(ascii "user", user)] else []) ++ [(ascii "database", database)] ++ params ++
    if asksFloatDigits profile params then [(ascii "extra_float_digits", ascii "2")] else []

/-- Write a name and a value, each with its terminator, at the running offset. -/
def writeField (state : Bytes × Nat) (field : Bytes × Bytes) : Option (Bytes × Nat) := do
  let (buffer, off) := state
  let buffer ← writeAt buffer off field.1
  let off := off + field.1.length
  let buffer ← writeAt buffer off [0]
  let off := off + 1
  let buffer ← writeAt buffer off field.2
  let off := off + field.2.length
  let buffer ← writeAt buffer off [0]
  return (buffer, off + 1)

variable (fields : List (Bytes × Bytes))

def writeStartupMessage (bytes : Nat) : Option Bytes := do
  let buffer ← writeAt (List.replicate bytes 0) 0 (bigEndian 4 bytes)
  let buffer ← writeAt buffer 4 (bigEndian 4 196608)
  let (buffer, off) ← fields.foldlM writeField (buffer, 8)
  writeAt buffer off [0]

def rejectStartupNul : Except Thrown Unit :=
  if fields.any fun (key, value) => 0 ∈ key || 0 ∈ value then
    .error (.invalidArgument "PostgreSQL startup field contains an embedded NUL byte")
  else .ok ()

def createStartupMessage (user database : Bytes) (params : List (Bytes × Bytes))
    (maxWireBytes : Nat) : ExceptT Thrown Option Bytes := do
  let bytes ← countStartupMessage profile user database params maxWireBytes
  let fields := startupFields profile user database params
  exactly (rejectStartupNul fields)
  (writeStartupMessage fields bytes : Option Bytes)

/-! ## What the counts come to -/

/-- The outcome of counting `total` bytes. -/
def charge (maxWireBytes total : Nat) : Except Thrown Nat :=
  if maxWireBytes < total then .error .requestWireLimitExceeded else .ok total

theorem charge_eq_ok {maxWireBytes total counted : Nat} :
    charge maxWireBytes total = .ok counted ↔ total ≤ maxWireBytes ∧ total = counted := by
  unfold charge
  split <;> simp <;> omega

theorem charge_of_le {maxWireBytes total : Nat} (fits : total ≤ maxWireBytes) :
    charge maxWireBytes total = .ok total :=
  charge_eq_ok.mpr ⟨fits, rfl⟩

/-- A count that has passed the limit stays above it, whatever follows. -/
theorem charge_bind {maxWireBytes total bytes rest}
    (continues : total ≤ maxWireBytes → rest total = charge maxWireBytes (total + bytes)) :
    (charge maxWireBytes total >>= rest) = charge maxWireBytes (total + bytes) := by
  by_cases fits : total ≤ maxWireBytes
  · rw [charge_of_le fits]
    exact continues fits
  have exceeds : maxWireBytes < total := by omega
  rw [charge, charge, if_pos exceeds, if_pos (by omega)]
  rfl

section Prepared

variable {profile : PgCatalogProfile} {context : Option FloatingContext}
  {maxWireBytes wireBytes bytes : Nat} {parameter : QueryParameter}

variable {sql : Bytes} {values : List Bytes} {parameters : List QueryParameter} {counted : Nat}

variable (within : wireBytes ≤ maxWireBytes)

include within

theorem addBudget_eq_charge :
    addBudget maxWireBytes wireBytes bytes = charge maxWireBytes (wireBytes + bytes) := by
  by_cases exceeds : maxWireBytes - wireBytes < bytes
  · rw [addBudget, charge, if_pos exceeds, if_pos (by omega)]
  · rw [addBudget, charge, if_neg exceeds, if_neg (by omega)]

theorem addBudget_le
    (claimed : addBudget maxWireBytes wireBytes bytes = .ok counted) : counted ≤ maxWireBytes := by
  rw [addBudget_eq_charge within, charge_eq_ok] at claimed
  omega

theorem claimBudget_eq :
    claimBudget maxWireBytes wireBytes bytes =
      exactly (addBudget maxWireBytes wireBytes bytes) := by
  simp only [claimBudget, addBudget, checkedSub_of_le within, liftM_some, throw_eq_exactly,
    pure_eq_exactly, exactly_ok_bind, exactly_error_bind]
  split <;> rfl

theorem countParameter_eq :
    countParameter profile context maxWireBytes wireBytes parameter =
      exactly (addParameter profile context maxWireBytes wireBytes parameter) := by
  unfold countParameter addParameter
  rcases parameter.value with _ | value
  · rfl
  cases nativeIeeeParameter profile context parameter with
  | some native => exact claimBudget_eq within
  | none =>
    by_cases large : parameterMaximum profile parameter < value.length
    · simp only [if_pos large]
      rfl
    · simp only [if_neg large]
      exact claimBudget_eq within

theorem addParameter_le
    (claimed : addParameter profile context maxWireBytes wireBytes parameter = .ok counted) :
    counted ≤ maxWireBytes := by
  unfold addParameter at claimed
  cases value : parameter.value with
  | none =>
    rw [value] at claimed
    exact Except.ok.inj claimed ▸ within
  | some bytes =>
    rw [value] at claimed
    cases native : nativeIeeeParameter profile context parameter with
    | some image =>
      rw [native] at claimed
      exact addBudget_le within claimed
    | none =>
      rw [native] at claimed
      simp only [guard_eq_ok] at claimed
      exact addBudget_le within claimed.2

omit within

theorem countPreparedQuery_eq (sql : Bytes) (parameters : List QueryParameter) :
    countPreparedQuery profile context sql parameters maxWireBytes =
      exactly (preparedBudget profile context sql parameters maxWireBytes) := by
  unfold countPreparedQuery preparedBudget
  rw [claimBudget_eq (Nat.zero_le _)]
  refine exactly_bind fun fixed isFixed => ?_
  have fixedWithin := addBudget_le (Nat.zero_le _) isFixed
  rw [claimBudget_eq fixedWithin]
  refine exactly_bind fun withSql isWithSql => ?_
  have sqlWithin := addBudget_le fixedWithin isWithSql
  rw [claimBudget_eq sqlWithin]
  refine exactly_bind fun withTypes isWithTypes => ?_
  have typesWithin := addBudget_le sqlWithin isWithTypes
  have counted : ∀ {start}, start ≤ maxWireBytes →
      parameters.foldlM (countParameter profile context maxWireBytes) start =
        exactly (parameters.foldlM (addParameter profile context maxWireBytes) start) :=
    fun within => foldlM_exactly (· ≤ maxWireBytes) (fun _ within => countParameter_eq within)
      addParameter_le within parameters
  split
  · rw [claimBudget_eq typesWithin]
    exact exactly_bind fun withFormats isWithFormats =>
      counted (addBudget_le typesWithin isWithFormats)
  · exact counted typesWithin

/-- The first pass claims what the third pass appends, apart from the length. -/
theorem addParameter_eq_charge {piece : Bytes} (within : wireBytes ≤ maxWireBytes)
    (appended : appendParameter profile context parameter = .ok piece) :
    addParameter profile context maxWireBytes wireBytes parameter =
        charge maxWireBytes (wireBytes + (piece.length - 4)) ∧ 4 ≤ piece.length := by
  unfold appendParameter at appended
  unfold addParameter
  cases value : parameter.value with
  | none =>
    rw [value] at appended
    obtain rfl := Except.ok.inj appended
    simp [charge_of_le within]
  | some bytes =>
    rw [value] at appended
    cases native : nativeIeeeParameter profile context parameter with
    | some image =>
      rw [native] at appended
      obtain rfl := Except.ok.inj appended
      simp [addBudget_eq_charge within]
    | none =>
      rw [native] at appended
      simp only [guard_eq_ok, pure_eq_ok] at appended
      obtain ⟨fits, rfl⟩ := appended
      simp only [if_neg fits, addBudget_eq_charge within]
      by_cases hex : hexBinary profile parameter
      · have prefixed : (ascii "\\x").length = 2 := rfl
        simp [hex, prefixed]
      · simp [hex]

def carriedBytes (values : List Bytes) : Nat := (values.map fun value => value.length - 4).sum

theorem foldlM_addParameter (within : wireBytes ≤ maxWireBytes)
    (appended : parameters.mapM (appendParameter profile context) = .ok values) :
    parameters.foldlM (addParameter profile context maxWireBytes) wireBytes =
        charge maxWireBytes (wireBytes + carriedBytes values) ∧
      values.flatten.length = 4 * parameters.length + carriedBytes values := by
  rw [mapM_eq_ok] at appended
  induction appended generalizing wireBytes with
  | nil => exact ⟨(charge_of_le within).symm, rfl⟩
  | @cons parameter piece parameters values here _ ih =>
    obtain ⟨claimed, nonempty⟩ := addParameter_eq_charge within here
    have carried : carriedBytes (piece :: values) = piece.length - 4 + carriedBytes values := rfl
    constructor
    · rw [foldlM_cons, claimed, carried, ← Nat.add_assoc]
      exact charge_bind fun fits => (ih fits).1
    have later := (ih within).2
    simp only [flatten_cons, length_append, length_cons]
    omega

theorem preparedBudget_eq_charge
    (appended : parameters.mapM (appendParameter profile context) = .ok values) :
    preparedBudget profile context sql parameters maxWireBytes =
      charge maxWireBytes (51 + sql.length + 8 * parameters.length +
        (if explicitFormats profile context parameters then 2 * parameters.length else 0) +
        carriedBytes values) := by
  unfold preparedBudget
  rw [addBudget_eq_charge (Nat.zero_le _), Nat.zero_add, Nat.add_assoc, Nat.add_assoc,
    Nat.add_assoc]
  refine charge_bind fun fixedWithin => ?_
  rw [addBudget_eq_charge fixedWithin, ← Nat.add_assoc]
  refine charge_bind fun sqlWithin => ?_
  rw [addBudget_eq_charge sqlWithin, ← Nat.add_assoc]
  refine charge_bind fun typesWithin => ?_
  split
  · rw [addBudget_eq_charge typesWithin, ← Nat.add_assoc]
    exact charge_bind fun formatsWithin => (foldlM_addParameter formatsWithin appended).1
  · rw [Nat.zero_add]
    exact (foldlM_addParameter typesWithin appended).1

theorem length_frame {tag content framed}
    (isFramed : frame tag content = .ok framed) : framed.length = 5 + content.length := by
  unfold frame at isFramed
  split at isFramed
  · cases isFramed
  obtain rfl := Except.ok.inj isFramed
  simp
  omega

theorem length_parseBody (sql : Bytes) (types : List QueryParameterType) :
    (parseBody profile sql types).length = 4 + sql.length + 4 * types.length := by
  simp [parseBody, Nat.mul_comm]
  omega

theorem length_bindBody
    (appended : parameters.mapM (appendParameter profile context) = .ok values) :
    (bindBody profile context parameters values).length =
      8 + (if explicitFormats profile context parameters then 2 * parameters.length else 0) +
        4 * parameters.length + carriedBytes values := by
  have carried := (foldlM_addParameter (Nat.le_refl 0) appended).2
  by_cases explicit : explicitFormats profile context parameters <;>
    simp [bindBody, explicit, carried, Nat.mul_comm] <;> omega

theorem preparedBudget_eq_length {bytes : Bytes}
    (sent : preparedMessages profile context sql parameters = .ok bytes) :
    preparedBudget profile context sql parameters maxWireBytes =
      charge maxWireBytes bytes.length := by
  simp only [preparedMessages, bind_eq_ok, pure_eq_ok] at sent
  obtain ⟨parse, parseFramed, describeStatement, statementFramed, values, appended, bind,
    bindFramed, describePortal, portalFramed, execute, executeFramed, sync, syncFramed, rfl⟩ := sent
  rw [preparedBudget_eq_charge appended]
  congr 1
  simp [length_frame parseFramed, length_frame statementFramed, length_frame bindFramed,
    length_frame portalFramed, length_frame executeFramed, length_frame syncFramed,
    length_parseBody, length_bindBody appended, length_bigEndian]
  omega

end Prepared

section Startup

variable {profile : PgCatalogProfile} {maxWireBytes total bytes size : Nat}
  {user database : Bytes} {params : List (Bytes × Bytes)}

/-- A name and a value with their terminators. -/
def startupField (field : Bytes × Bytes) : Bytes := field.1 ++ [0] ++ field.2 ++ [0]

def startupWire : Bytes :=
  let content := bigEndian 4 196608 ++ fields.flatMap startupField ++ [0]
  bigEndian 4 (4 + content.length) ++ content

theorem length_startupField (field : Bytes × Bytes) :
    (startupField field).length = field.1.length + 1 + field.2.length + 1 := by
  simp [startupField]
  omega

theorem length_startupWire :
    (startupWire fields).length = 9 + (fields.flatMap startupField).length := by
  simp [startupWire, length_bigEndian]
  omega

theorem length_startupWire_startupFields :
    (startupWire (startupFields profile user database params)).length =
      19 + (if user ≠ [] then 6 + user.length else 0) + database.length +
        (params.flatMap startupField).length +
        if asksFloatDigits profile params then 21 else 0 := by
  have names : (ascii "user").length = 4 ∧ (ascii "database").length = 8 ∧
      (ascii "extra_float_digits").length = 18 ∧ (ascii "2").length = 1 := by decide
  rw [length_startupWire, startupFields]
  simp only [flatMap_append, length_append, apply_ite (List.flatMap startupField),
    apply_ite List.length, flatMap_cons, flatMap_nil, length_startupField,
    length_nil, names]
  split <;> split <;> omega

theorem addStartupBytes_eq :
    addStartupBytes maxWireBytes bytes size = exactly (charge maxWireBytes (bytes + size)) := by
  unfold addStartupBytes charge
  by_cases above : maxWireBytes < bytes
  · rw [if_pos above, if_pos (by omega)]
    rfl
  simp only [if_neg above, checkedSub_of_le (Nat.le_of_not_lt above), liftM_some,
    throw_eq_exactly, pure_eq_exactly, exactly_ok_bind, exactly_error_bind]
  by_cases exceeds : maxWireBytes - bytes < size
  · rw [if_pos exceeds, if_pos (by omega)]
  · rw [if_neg exceeds, if_neg (by omega)]

/-- A count that has passed the limit stays above it, whatever follows. -/
theorem charge_bind_exactly {rest}
    (continues : total ≤ maxWireBytes → rest total = exactly (charge maxWireBytes (total + size))) :
    (exactly (charge maxWireBytes total) >>= rest) =
      exactly (charge maxWireBytes (total + size)) := by
  calc (exactly (charge maxWireBytes total) >>= rest)
      = exactly (charge maxWireBytes total >>= fun counted =>
          charge maxWireBytes (counted + size)) := by
        refine exactly_bind fun counted isCounted => ?_
        obtain ⟨fits, rfl⟩ := charge_eq_ok.mp isCounted
        exact continues fits
    _ = exactly (charge maxWireBytes (total + size)) :=
        congrArg exactly (charge_bind fun _ => rfl)

/-- Another addition. -/
theorem charge_bind_add : (exactly (charge maxWireBytes total) >>= fun counted =>
      addStartupBytes maxWireBytes counted size) = exactly (charge maxWireBytes (total + size)) :=
  charge_bind_exactly fun _ => addStartupBytes_eq

theorem addStartupField_eq (field : Bytes × Bytes) : addStartupField maxWireBytes bytes field =
      exactly (charge maxWireBytes (bytes + (startupField field).length)) := by
  unfold addStartupField
  rw [addStartupBytes_eq, ← bind_assoc, charge_bind_add, ← bind_assoc, charge_bind_add,
    charge_bind_add, length_startupField]
  simp only [Nat.add_assoc]

theorem foldlM_addStartupField (within : total ≤ maxWireBytes) (fields : List (Bytes × Bytes)) :
    fields.foldlM (addStartupField maxWireBytes) total =
      exactly (charge maxWireBytes (total + (fields.flatMap startupField).length)) := by
  induction fields generalizing total with
  | nil => exact congrArg exactly (charge_of_le within).symm
  | cons field rest ih =>
    rw [foldlM_cons, addStartupField_eq, flatMap_cons, length_append,
      ← Nat.add_assoc]
    exact charge_bind_exactly ih

def checkLength (counted : Except Thrown Nat) : Except Thrown Nat :=
  counted >>= fun bytes =>
    if 2 ^ 32 - 1 < bytes then .error .requestWireLimitExceeded else .ok bytes

theorem checkLength_charge_of_le (fits : size ≤ 2 ^ 32 - 1) :
    checkLength (charge maxWireBytes size) = charge maxWireBytes size := by
  unfold checkLength charge
  split
  · rfl
  · exact if_neg (Nat.not_lt.mpr fits)

theorem checkLength_charge_of_lt (large : 2 ^ 32 - 1 < size) :
    checkLength (charge maxWireBytes size) = .error .requestWireLimitExceeded := by
  unfold checkLength charge
  split
  · rfl
  · exact if_pos large

theorem countStartupMessage_eq (profile : PgCatalogProfile) (maxWireBytes : Nat)
    (user database : Bytes) (params : List (Bytes × Bytes)) :
    countStartupMessage profile user database params maxWireBytes =
      exactly (checkLength (charge maxWireBytes
        (startupWire (startupFields profile user database params)).length)) := by
  have named : (addStartupUser maxWireBytes user >>= fun bytes =>
      addStartupBytes maxWireBytes bytes 10) =
      exactly (charge maxWireBytes (19 + if user ≠ [] then 6 + user.length else 0)) := by
    unfold addStartupUser
    split
    · rw [addStartupBytes_eq, charge_bind_add, charge_bind_add]
      congr 2
      omega
    · exact addStartupBytes_eq
  have digits : ∀ total, (exactly (charge maxWireBytes total) >>= fun bytes =>
      addFloatDigits (asksFloatDigits profile params) maxWireBytes bytes) =
      exactly (charge maxWireBytes
        (total + if asksFloatDigits profile params then 21 else 0)) := by
    intro total
    refine charge_bind_exactly fun within => ?_
    unfold addFloatDigits
    split
    · exact addStartupBytes_eq
    · exact congrArg exactly (charge_of_le within).symm
  have fields : ∀ total, (exactly (charge maxWireBytes total) >>= fun bytes =>
      params.foldlM (addStartupField maxWireBytes) bytes) =
      exactly (charge maxWireBytes (total + (params.flatMap startupField).length)) :=
    fun total => charge_bind_exactly fun within => foldlM_addStartupField within params
  rw [length_startupWire_startupFields, countStartupMessage, ← bind_assoc, named, ← bind_assoc,
    charge_bind_add, ← bind_assoc, fields, ← bind_assoc, digits]
  exact exactly_bind fun counted _ => by split <;> rfl

theorem writeField_partFilled (written : Bytes) (room : Nat) (field : Bytes × Bytes) :
    writeField (partFilled written ((startupField field).length + room), written.length) field =
      some (partFilled (written ++ startupField field) room,
        (written ++ startupField field).length) := by
  have split : (startupField field).length + room =
      field.1.length +
        (([0] : Bytes).length + (field.2.length + (([0] : Bytes).length + room))) := by
    rw [length_startupField]
    simp
    omega
  simp only [writeField, split, bind_eq_bind, Option.pure_def]
  rw [writeAt_partFilled _ _ rfl, bind_some, writeAt_partFilled _ _ (by simp),
    bind_some, writeAt_partFilled _ _ (by simp; omega), bind_some,
    writeAt_partFilled _ _ (by simp; omega), bind_some]
  simp [startupField]
  omega

theorem foldlM_writeField (written : Bytes) (room : Nat) (fields : List (Bytes × Bytes)) :
    fields.foldlM writeField
        (partFilled written ((fields.flatMap startupField).length + room), written.length) =
      some (partFilled (written ++ fields.flatMap startupField) room,
        (written ++ fields.flatMap startupField).length) := by
  induction fields generalizing written with
  | nil => simp
  | cons field rest ih =>
    rw [flatMap_cons, length_append, Nat.add_assoc, foldlM_cons,
      writeField_partFilled]
    simpa using ih (written ++ startupField field)

theorem writeStartupMessage_eq :
    writeStartupMessage fields (startupWire fields).length = some (startupWire fields) := by
  have wire : startupWire fields = bigEndian 4 (startupWire fields).length ++
      bigEndian 4 196608 ++ fields.flatMap startupField ++ [0] := by
    rw [length_startupWire]
    simp only [startupWire, append_assoc, length_append, length_bigEndian,
      length_singleton]
    congr 2
    omega
  conv_rhs => rw [wire]
  have isSize := length_startupWire fields
  generalize (startupWire fields).length = bytes at isSize wire ⊢
  have buffer : List.replicate bytes 0 = partFilled [] ((bigEndian 4 bytes).length +
      ((bigEndian 4 196608).length + ((fields.flatMap startupField).length +
        (([0] : Bytes).length + 0)))) := by
    rw [partFilled_nil]
    congr 1
    simp only [length_bigEndian, length_singleton]
    omega
  have start : (8 : Nat) = ([] ++ bigEndian 4 bytes ++ bigEndian 4 196608).length := by simp
  simp only [writeStartupMessage, bind_eq_bind]
  rw [buffer, writeAt_partFilled [] _ length_nil.symm, bind_some,
    writeAt_partFilled _ _ (by simp), bind_some, start, foldlM_writeField, bind_some]
  rw [writeAt_partFilled _ _ rfl]
  simp

end Startup

def simpleQueryWire (sql : Bytes) : Bytes :=
  code 'Q' :: bigEndian 4 (4 + sql.length + 1) ++ sql ++ [0]

theorem writeSimpleQuery_eq (sql : Bytes) :
    writeSimpleQuery sql (1 + 4 + sql.length + 1) = some (simpleQueryWire sql) := by
  have buffer : List.replicate (1 + 4 + sql.length + 1) 0 = partFilled [] ([code 'Q'].length +
      ((bigEndian 4 (4 + sql.length + 1)).length + (sql.length + (([0] : Bytes).length + 0)))) := by
    rw [partFilled_nil]
    congr 1
    simp [length_bigEndian]
    omega
  simp only [writeSimpleQuery, bind_eq_bind]
  rw [buffer, writeAt_partFilled [] _ length_nil.symm, bind_some,
    writeAt_partFilled _ _ (by simp),
    bind_some, writeAt_partFilled _ _ (by simp), bind_some,
    writeAt_partFilled _ _ (by simp; omega)]
  simp [simpleQueryWire]

end Odbcpp.Postgres
