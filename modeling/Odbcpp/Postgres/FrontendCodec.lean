import Odbcpp.Postgres.Requests

/-!
# Reading requests back

A decoder of the frontend half of the PostgreSQL v3 protocol, written from the
message formats and not from the encoders, and the round trip of the prepared
request through it.
-/

namespace Odbcpp.Postgres

open Foundation Database Util Reader.Reads List

inductive FrontendError where
  | truncated | trailingBytes | unknownMessage | invalidLength | invalidFormats
deriving DecidableEq

/-- The frontend messages of both query protocols. A bound parameter is its format code with its
value, absent for NULL. -/
inductive FrontendMessage where
  | query (sql : Bytes)
  | parse (statement sql : Bytes) (types : List Nat)
  | describe (target : UInt8) (name : Bytes)
  | bind (portal statement : Bytes) (parameters : List (Nat × Option Bytes))
      (resultFormats : List Nat)
  | execute (portal : Bytes) (maxRows : Nat)
  | sync
deriving DecidableEq

namespace Frontend

def text : Reader FrontendError Bytes := Reader.cstring .truncated
def int16 : Reader FrontendError Nat := Reader.unsigned .truncated 2
def int32 : Reader FrontendError Nat := Reader.unsigned .truncated 4

/-- A length-prefixed parameter value; length `-1` is NULL and no other negative
length is allowed. -/
def value : Reader FrontendError (Option Bytes) := do
  let length ← int32
  if length = 2 ^ 32 - 1 then return none
  if 2 ^ 31 - 1 < length then throw .invalidLength
  return some (← Reader.take .truncated length)

/-- The format code of each parameter: no code means text for all of them, a
single code holds for all of them. -/
def parameterFormats (count : Nat) : List Nat → Except FrontendError (List Nat)
  | [] => .ok (List.replicate count 0)
  | [format] => .ok (List.replicate count format)
  | formats => if formats.length = count then .ok formats else .error .invalidFormats

def counted {α : Type} (item : Reader FrontendError α) : Reader FrontendError (List α) := do
  let count ← int16
  Reader.many item count

def bindMessage : Reader FrontendError FrontendMessage := do
  let portal ← text
  let statement ← text
  let formats ← counted int16
  let values ← counted value
  let resultFormats ← counted int16
  let formats ← (parameterFormats values.length formats : Except FrontendError (List Nat))
  return .bind portal statement (formats.zip values) resultFormats

def body (tag : UInt8) : Reader FrontendError FrontendMessage :=
  if tag = code 'Q' then return .query (← text)
  else if tag = code 'P' then do
    let statement ← text
    let sql ← text
    return .parse statement sql (← counted int32)
  else if tag = code 'D' then do
    let target ← Reader.byte .truncated
    return .describe target (← text)
  else if tag = code 'B' then bindMessage
  else if tag = code 'E' then do
    let portal ← text
    return .execute portal (← int32)
  else if tag = code 'S' then return .sync
  else throw .unknownMessage

/-- One message: a tag, a length that counts itself, and a body of that length. -/
def message : Reader FrontendError FrontendMessage := do
  let tag ← Reader.byte .truncated
  let length ← int32
  if length < 4 then throw .invalidLength
  let content ← Reader.take .truncated (length - 4)
  ((body tag).runAll .trailingBytes content : Except FrontendError FrontendMessage)

end Frontend

/-- The messages of a byte string, with nothing left over. -/
def decodeFrontend (bytes : Bytes) : Except FrontendError (List FrontendMessage) :=
  Reader.untilEnd Frontend.message .truncated bytes.length bytes

namespace Frontend

open Reader

theorem reads_text (bytes : Bytes) (clean : 0 ∉ bytes) : Reads text (bytes ++ [0]) bytes :=
  reads_cstring _ clean

theorem reads_noText : Reads text [0] [] := reads_text [] (by simp)

theorem reads_int16 (number : Nat) (fits : number < 2 ^ 16) :
    Reads int16 (bigEndian 2 number) number :=
  reads_unsigned _ fits

theorem reads_int32 (number : Nat) (fits : number < 2 ^ 32) :
    Reads int32 (bigEndian 4 number) number :=
  reads_unsigned _ fits

theorem reads_null : Reads value (bigEndian 4 (2 ^ 32 - 1)) none := by
  exact (reads_int32 (2 ^ 32 - 1) (by decide)).bindLast (Reads.pure none)

theorem reads_value {bytes : Bytes} (fits : bytes.length ≤ 2 ^ 31 - 1) :
    Reads value (bigEndian 4 bytes.length ++ bytes) (some bytes) := by
  refine (reads_int32 bytes.length (by omega)).bind ?_
  have present : ¬ bytes.length = 2 ^ 32 - 1 := by omega
  have positive : ¬ 2 ^ 31 - 1 < bytes.length := by omega
  simp only [present, positive, if_false]
  exact (reads_take _ bytes).bindLast (Reads.pure _)

theorem reads_counted {α : Type} {item : Reader FrontendError α} {pieces : List Bytes}
    {values : List α} (fits : values.length < 2 ^ 16)
    (reads : List.Forall₂ (Reads item) pieces values) :
    Reads (counted item) (bigEndian 2 values.length ++ pieces.flatten) values :=
  (reads_int16 values.length fits).bind (reads_many reads)

theorem reads_message {tag content bytes decoded}
    (framed : frame tag content = .ok bytes) (reads : Reads (body (code tag)) content decoded) :
    Reads message bytes decoded := by
  unfold frame at framed
  split at framed
  · exact absurd framed (by simp)
  rename_i fits
  obtain rfl := Except.ok.inj framed
  rw [cons_append, ← singleton_append]
  refine (reads_byte _ (code tag)).bind ?_
  refine (reads_int32 (content.length + 4) (by omega)).bind ?_
  have enough : ¬ content.length + 4 < 4 := by omega
  simp only [enough, if_false, Nat.add_sub_cancel]
  exact (reads_take _ content).bindLast (Reads.lift (reads.runAll .trailingBytes))

theorem reads_describeBody (target : UInt8) :
    Reads (body (code 'D')) [target, 0] (.describe target []) :=
  (reads_byte _ target).bind (reads_noText.bindLast (Reads.pure _))

theorem reads_executeBody : Reads (body (code 'E')) ([0] ++ bigEndian 4 0) (.execute [] 0) :=
  reads_noText.bind ((reads_int32 0 (by decide)).bindLast (Reads.pure _))

end Frontend

/-! ## The prepared request -/

/-- How a parameter travels: the format code and the value of its Bind entry. -/
def wireParameter (profile : PgCatalogProfile) (context : Option FloatingContext)
    (parameter : QueryParameter) : Nat × Option Bytes :=
  match parameter.value, nativeIeeeParameter profile context parameter with
  | none, _ => (if rawBinary profile parameter then 1 else 0, none)
  | some _, some native => (1, some native)
  | some value, none =>
    if rawBinary profile parameter then (1, some value)
    else if hexBinary profile parameter then (0, some (ascii "\\x" ++ encodeHex value))
    else (0, some value)

section

variable {profile : PgCatalogProfile} {context : Option FloatingContext}
  {parameter : QueryParameter} {parameters : List QueryParameter} {native : Bytes}

theorem encodeNativeIeee_length {width floating text native}
    (isNative : encodeNativeIeee width floating text = some native) : native.length = width := by
  simp only [encodeNativeIeee, Option.bind_eq_bind, Option.bind_eq_some_iff, Option.pure_def,
    Option.some.injEq] at isNative
  obtain ⟨-, -, -, -, -, -, rfl⟩ := isNative
  exact length_bigEndian _ _

theorem nativeIeeeParameter_length
    (isNative : nativeIeeeParameter profile context parameter = some native) :
    (parameter.type = .float32 ∧ native.length = 4) ∨
      (parameter.type = .float64 ∧ native.length = 8) := by
  simp only [nativeIeeeParameter, Option.bind_eq_bind, Option.bind_eq_some_iff] at isNative
  obtain ⟨floating, -, value, -, -, -, encoded⟩ := isNative
  cases type : parameter.type with
  | float32 =>
    simp only [type] at encoded
    exact .inl ⟨rfl, encodeNativeIeee_length encoded⟩
  | float64 =>
    simp only [type] at encoded
    exact .inr ⟨rfl, encodeNativeIeee_length encoded⟩
  | _ => simp [type] at encoded

theorem nativeIeeeParameter_eq_none (null : parameter.value = none) :
    nativeIeeeParameter profile context parameter = none := by
  cases context <;> simp [nativeIeeeParameter, null]

theorem wireParameter_null :
    (wireParameter profile context parameter).2 = none ↔ parameter.value = none := by
  unfold wireParameter
  cases value : parameter.value with
  | none => simp
  | some bytes =>
    cases nativeIeeeParameter profile context parameter with
    | some native => simp
    | none => by_cases raw : rawBinary profile parameter <;> simp [raw]; split <;> simp

theorem wireParameter_native
    (isNative : nativeIeeeParameter profile context parameter = some native) :
    wireParameter profile context parameter = (1, some native) := by
  unfold wireParameter
  cases value : parameter.value with
  | none => simp [nativeIeeeParameter_eq_none value] at isNative
  | some bytes => simp [isNative]

/-- The second and the third pass over the parameters make the same choice. -/
theorem formatCode_eq_wireParameter :
    formatCode profile context parameter = (wireParameter profile context parameter).1 := by
  unfold formatCode wireParameter
  rcases value : parameter.value with _ | bytes
  · simp [nativeIeeeParameter_eq_none value]
  cases nativeIeeeParameter profile context parameter with
  | some native => simp
  | none =>
    by_cases raw : rawBinary profile parameter
    · simp [raw]
    · by_cases hex : hexBinary profile parameter <;> simp [raw, hex]

theorem reads_appendParameter {piece : Bytes}
    (appended : appendParameter profile context parameter = .ok piece) :
    Frontend.value.Reads piece (wireParameter profile context parameter).2 := by
  unfold appendParameter at appended
  unfold wireParameter
  cases value : parameter.value with
  | none =>
    simp only [value] at appended ⊢
    obtain rfl := Except.ok.inj appended
    exact Frontend.reads_null
  | some bytes =>
    simp only [value] at appended ⊢
    cases isNative : nativeIeeeParameter profile context parameter with
    | some native =>
      simp only [isNative] at appended ⊢
      obtain rfl := Except.ok.inj appended
      apply Frontend.reads_value
      rcases nativeIeeeParameter_length isNative with single | double
      · omega
      · omega
    | none =>
      simp only [isNative, guard_eq_ok, pure_eq_ok] at appended ⊢
      obtain ⟨small, rfl⟩ := appended
      by_cases hex : hexBinary profile parameter
      · have notRaw : rawBinary profile parameter = false := by
          simpa using (Bool.and_eq_true_iff.mp hex).1
        simp only [parameterMaximum, hex, if_true, notRaw, Bool.false_eq_true, if_false] at small ⊢
        apply Frontend.reads_value
        have marker : (ascii "\\x").length = 2 := rfl
        rw [length_append, length_encodeHex, marker]
        omega
      simp only [parameterMaximum, hex, if_false, Bool.false_eq_true] at small ⊢
      have fits : bytes.length ≤ 2 ^ 31 - 1 := by omega
      by_cases raw : rawBinary profile parameter
      · simpa [raw] using Frontend.reads_value fits
      · simpa [raw] using Frontend.reads_value fits

/-- The codes of a Bind message are its parameters' formats: it lists all of them
or, when each is text, none. -/
theorem parameterFormats_formatCode : Frontend.parameterFormats parameters.length
        (if explicitFormats profile context parameters then
          parameters.map (formatCode profile context) else []) =
      .ok (parameters.map (formatCode profile context)) := by
  by_cases explicit : explicitFormats profile context parameters
  · simp only [explicit, if_true]
    match parameters with
    | [] => rfl
    | [_] => rfl
    | _ :: _ :: _ => simp [Frontend.parameterFormats]
  simp only [explicit, Bool.false_eq_true, if_false, Frontend.parameterFormats]
  have implicit : explicitFormats profile context parameters = false := by simpa using explicit
  have text : ∀ parameter ∈ parameters, formatCode profile context parameter = 0 :=
    fun parameter member => if_neg (any_eq_false.mp implicit parameter member)
  rw [map_congr_left text]
  simp

theorem postgresTypeOid_lt (type : QueryParameterType) : postgresTypeOid profile type < 2 ^ 32 := by
  cases type <;> cases profile <;> decide

theorem formatCode_lt : formatCode profile context parameter < 2 ^ 16 := by
  unfold formatCode
  split <;> decide

theorem reads_parseBody {sql types} (clean : 0 ∉ sql)
    (few : types.length < 2 ^ 16) : (Frontend.body (code 'P')).Reads (parseBody profile sql types)
      (.parse [] sql (types.map (postgresTypeOid profile))) := by
  have oids : (Frontend.counted Frontend.int32).Reads
      (bigEndian 2 types.length ++
        types.flatMap fun type => bigEndian 4 (postgresTypeOid profile type))
      (types.map (postgresTypeOid profile)) :=
    (Frontend.reads_int16 types.length few).bind (Reader.reads_manyEncoded types fun type _ =>
      Frontend.reads_int32 _ (postgresTypeOid_lt type))
  unfold parseBody
  rw [append_assoc, append_assoc]
  exact Frontend.reads_noText.bind ((Frontend.reads_text sql clean).bind
    (oids.bindLast (pure _)))

theorem reads_bindBody {values} (few : parameters.length < 2 ^ 16)
    (appended : parameters.mapM (appendParameter profile context) = .ok values) :
    (Frontend.body (code 'B')).Reads (bindBody profile context parameters values)
      (.bind [] [] (parameters.map (wireParameter profile context)) []) := by
  have formats : (Frontend.counted Frontend.int16).Reads
      (bigEndian 2 (if explicitFormats profile context parameters then parameters.length else 0) ++
        (if explicitFormats profile context parameters then
          parameters.flatMap fun parameter => bigEndian 2 (formatCode profile context parameter)
        else []))
      (if explicitFormats profile context parameters then
        parameters.map (formatCode profile context) else []) := by
    by_cases explicit : explicitFormats profile context parameters
    · simp only [explicit, if_true]
      exact (Frontend.reads_int16 _ few).bind (Reader.reads_manyEncoded parameters fun _ _ =>
        Frontend.reads_int16 _ formatCode_lt)
    · simp only [explicit, Bool.false_eq_true, if_false]
      exact (Frontend.reads_int16 0 (by decide)).bind (pure [])
  have carried : (Frontend.counted Frontend.value).Reads
      (bigEndian 2 parameters.length ++ values.flatten)
      (parameters.map fun parameter => (wireParameter profile context parameter).2) := by
    have pieces : List.Forall₂ Frontend.value.Reads values
        (parameters.map fun parameter => (wireParameter profile context parameter).2) := by
      rw [forall₂_map_right_iff]
      exact (mapM_eq_ok.mp appended).flip.imp fun _ _ => reads_appendParameter
    have counted := Frontend.reads_counted (by simpa using few) pieces
    rwa [length_map] at counted
  have resultFormats : (Frontend.counted Frontend.int16).Reads (bigEndian 2 0) [] :=
    (Frontend.reads_int16 0 (by decide)).bindLast (pure [])
  have bound : (parameters.map (formatCode profile context)).zip
      (parameters.map fun parameter => (wireParameter profile context parameter).2) =
      parameters.map (wireParameter profile context) := by
    rw [zip_map']
    exact map_congr_left fun parameter _ => by rw [formatCode_eq_wireParameter]
  have isBind : Frontend.body (code 'B') = Frontend.bindMessage := rfl
  rw [isBind]
  unfold bindBody
  simp only [append_assoc]
  refine Frontend.reads_noText.bind (Frontend.reads_noText.bind ?_)
  rw [← append_assoc]
  refine formats.bind ?_
  rw [← append_assoc]
  refine carried.bind (resultFormats.bindLast ?_)
  rw [← bound, length_map]
  exact (lift parameterFormats_formatCode).bindLast (pure _)

end

theorem rejectSqlNul_eq_ok {sql : Bytes} : rejectSqlNul sql = .ok () ↔ 0 ∉ sql := by
  unfold rejectSqlNul
  split <;> simp_all

theorem finishFloating_eq_ok {context outcome bytes}
    (finished : finishFloating context outcome = .ok bytes) :
    outcome = .ok bytes := by
  unfold finishFloating at finished
  split at finished
  · cases finished
  · exact finished

theorem frame_ne_nil {tag content bytes} (framed : frame tag content = .ok bytes) :
    bytes ≠ [] := by
  unfold frame at framed
  split at framed
  · cases framed
  · obtain rfl := Except.ok.inj framed
    simp

/-- An encoded prepared request is read back, with nothing left over, as Parse, Describe, Bind,
Describe, Execute and Sync, with the rewritten SQL, one type for each parameter, and each parameter
in its wire form. -/
theorem createPreparedQuery_decodes {profile : PgCatalogProfile} {floating : FloatingContext}
    {sql bytes : Bytes} {parameters : List QueryParameter} {maxWireBytes : Nat}
    (encoded : createPreparedQuery profile floating sql parameters maxWireBytes = .ok bytes) :
    let context := if needsFloatingContext profile parameters then some floating else none
    decodeFrontend bytes = .ok
      [.parse [] (replaceParameterMarkers sql).sql
        (parameters.map fun parameter => postgresTypeOid profile parameter.type),
       .describe (code 'S') [],
       .bind [] [] (parameters.map (wireParameter profile context)) [],
       .describe (code 'P') [],
       .execute [] 0,
       .sync] ∧
    (∀ parameter ∈ parameters,
      (wireParameter profile context parameter).2 = none ↔ parameter.value = none) ∧
    ∀ parameter ∈ parameters, ∀ native, nativeIeeeParameter profile context parameter = some native →
      wireParameter profile context parameter = (1, some native) ∧
        ((parameter.type = .float32 ∧ native.length = 4) ∨
          (parameter.type = .float64 ∧ native.length = 8)) := by
  intro context
  refine ⟨?_, fun _ _ => wireParameter_null, fun _ _ _ isNative =>
    ⟨wireParameter_native isNative, nativeIeeeParameter_length isNative⟩⟩
  simp only [createPreparedQuery, bind_eq_ok, guard_eq_ok] at encoded
  obtain ⟨_, accepted, few, -, finished⟩ := encoded
  have clean := zero_notMem_replaceParameterMarkers (rejectSqlNul_eq_ok.mp accepted)
  have built := finishFloating_eq_ok finished
  simp only [preparedMessages, bind_eq_ok, pure_eq_ok] at built
  obtain ⟨_, -, parse, parseFramed, describeStatement, statementFramed, values, appended, bind,
    bindFramed, describePortal, portalFramed, execute, executeFramed, sync, syncFramed, rfl⟩ := built
  have pieces : List.Forall₂
      (fun piece decoded => piece ≠ [] ∧ Frontend.message.Reads piece decoded)
      [parse, describeStatement, bind, describePortal, execute, sync]
      [.parse [] (replaceParameterMarkers sql).sql
        (parameters.map fun parameter => postgresTypeOid profile parameter.type),
       .describe (code 'S') [],
       .bind [] [] (parameters.map (wireParameter profile context)) [],
       .describe (code 'P') [], .execute [] 0, .sync] := by
    refine .cons ⟨frame_ne_nil parseFramed, ?_⟩ (.cons ⟨frame_ne_nil statementFramed, ?_⟩
      (.cons ⟨frame_ne_nil bindFramed, ?_⟩ (.cons ⟨frame_ne_nil portalFramed, ?_⟩
      (.cons ⟨frame_ne_nil executeFramed, ?_⟩ (.cons ⟨frame_ne_nil syncFramed, ?_⟩ .nil)))))
    · have reads := Frontend.reads_message parseFramed
        (reads_parseBody clean (by rw [List.length_map]; omega))
      rwa [List.map_map] at reads
    · exact Frontend.reads_message statementFramed (Frontend.reads_describeBody _)
    · exact Frontend.reads_message bindFramed (reads_bindBody (by omega) appended)
    · exact Frontend.reads_message portalFramed (Frontend.reads_describeBody _)
    · exact Frontend.reads_message executeFramed Frontend.reads_executeBody
    · exact Frontend.reads_message syncFramed (pure _)
  have whole : parse ++ describeStatement ++ bind ++ describePortal ++ execute ++ sync =
      [parse, describeStatement, bind, describePortal, execute, sync].flatten := by simp
  rw [whole]
  exact Reader.untilEnd_eq_ok _ pieces (Reader.length_le_length_flatten pieces)

def oneAndAHalf : FloatingContext where
  ready := true
  convert _ text := ⟨text.length, true, .none, false, 0x3fc00000⟩
  restored := true

/-- Redshift VARBYTE goes out raw, a `float` as its IEEE bytes, and binary input
for a text parameter as hexadecimal. -/
theorem createPreparedQuery_decodes_redshift :
    ∃ bytes, createPreparedQuery .redshift oneAndAHalf (ascii "f(?,?,?,?)")
        [⟨some [0, 255], .binary, false⟩, ⟨some (ascii "1.5"), .float32, false⟩,
          ⟨some [10], .text, true⟩, ⟨none, .text, false⟩] 1000 = .ok bytes ∧
      decodeFrontend bytes = .ok
        [.parse [] (ascii "f($1,$2,$3,$4)") [6551, 700, 25, 25],
         .describe (code 'S') [],
         .bind [] []
          [(1, some [0, 255]), (1, some [0x3f, 0xc0, 0, 0]), (0, some (ascii "\\x0a")), (0, none)] [],
         .describe (code 'P') [], .execute [] 0, .sync] := by
  obtain ⟨bytes, encoded⟩ : ∃ bytes, createPreparedQuery .redshift oneAndAHalf (ascii "f(?,?,?,?)")
      [⟨some [0, 255], .binary, false⟩, ⟨some (ascii "1.5"), .float32, false⟩,
        ⟨some [10], .text, true⟩, ⟨none, .text, false⟩] 1000 = .ok bytes := ⟨_, rfl⟩
  exact ⟨bytes, encoded, (createPreparedQuery_decodes encoded).1⟩

end Odbcpp.Postgres
