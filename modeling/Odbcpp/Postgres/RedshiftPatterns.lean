import Odbcpp.Database.CatalogRequest
import Odbcpp.Foundation.Wildcards
import Odbcpp.Util.CodePoints

/-!
# Redshift name patterns

The patterns of Redshift catalog requests: which are valid, what they match, the names that
patterns without wildcards stand for, and the lowering of identifiers to patterns.
-/

namespace Odbcpp.Postgres.Redshift

open Foundation Util Database
open List hiding utf8Encode

/-! ## Patterns -/

/-- Whether a text ends with a backslash that escapes what would follow. -/
def endsEscaped : Bool → Bytes → Bool
  | escaped, [] => escaped
  | true, _ :: rest => endsEscaped false rest
  | false, ch :: rest => endsEscaped (ch = code '\\') rest

def tablePatternValid : Option Bytes → Bool
  | none => true
  | some pattern =>
    !pattern.contains 0 && (utf8CodePointCount pattern).isSome && !endsEscaped false pattern

def isContinuation (byte : UInt8) : Bool := byte &&& 0xc0 = 0x80

/-- The bytes up to `codepoint_end`. -/
def codepoint : Bytes → Bytes
  | [] => []
  | first :: rest => first :: rest.takeWhile isContinuation

/-- The bytes from `codepoint_end` on. -/
def afterCodepoint : Bytes → Bytes
  | [] => []
  | _ :: rest => rest.dropWhile isContinuation

/-- The loop of `table_like`: the value and the pattern from the current places on, and from those
to go back to. -/
def tableLikeLoop : Nat → Bytes → Bytes → Option (Bytes × Bytes) → Option Bool
  | _, [], pattern, _ => some (pattern.dropWhile (· = code '%')).isEmpty
  | 0, _ :: _, _, _ => none
  | steps + 1, first :: rest, pattern, star =>
    let value := first :: rest
    if pattern.head? = some (code '%') then
      tableLikeLoop steps value pattern.tail (some (pattern.tail, value))
    else if pattern.head? = some (code '_') then
      tableLikeLoop steps (afterCodepoint value) pattern.tail star
    else
      let literal := if pattern.head? = some (code '\\') then pattern.tail else pattern
      if literal ≠ [] ∧ codepoint literal = codepoint value then
        tableLikeLoop steps (afterCodepoint value) (afterCodepoint literal) star
      else
        match star with
        | none => some false
        | some (start, retry) =>
          tableLikeLoop steps (afterCodepoint retry) start (some (start, afterCodepoint retry))

/-- The answer of `table_like`, if there is one within a number of iterations that depends on
the lengths only. -/
def tableLikeRun (value : Bytes) : Option Bytes → Option Bool
  | none => some true
  | some pattern =>
    tableLikeLoop (Wildcards.greedySteps pattern.length value.length) value pattern none

def tableLike (value : Bytes) (pattern : Option Bytes) : Bool :=
  tableLikeRun value pattern = some true

/-! ## Patterns without wildcards -/

/-- The loop of `column_literal_pattern` and `redshift_table_schema_is_literal`. -/
def isLiteral : Bool → Bytes → Bool
  | escaped, [] => !escaped
  | true, _ :: rest => isLiteral false rest
  | false, ch :: rest =>
    if ch = code '\\' then isLiteral true rest
    else if ch = code '%' || ch = code '_' then false
    else isLiteral false rest

def columnLiteralPattern : Option Bytes → Bool
  | none => false
  | some pattern => !pattern.isEmpty && isLiteral false pattern

/-- The loop of `column_literal_name` and `redshift_table_schema`. -/
def unescape : Bool → Bytes → Bytes
  | _, [] => []
  | true, ch :: rest => ch :: unescape false rest
  | false, ch :: rest => if ch = code '\\' then unescape true rest else ch :: unescape false rest

def columnLiteralName (pattern : Bytes) : Bytes := unescape false pattern

def redshiftTableSchemaIsLiteral (request : TablesCatalogRequest) : Bool :=
  request.mode = .tables &&
    match request.schema with
    | none => false
    | some schema => !schema.isEmpty && isLiteral false schema

def schemaIdentifier (value : Bytes) : Bool :=
  !value.isEmpty && !value.contains 0 && (utf8CodePointCount value).isSome

def typesValid (types : Option (List Bytes)) : Bool :=
  (types.getD []).all fun type => !type.contains 0 && (utf8CodePointCount type).isSome

def redshiftTableSchema (request : TablesCatalogRequest) : Option Bytes :=
  if !tablePatternValid request.catalog || !tablePatternValid request.table then none
  else if !typesValid request.types then none
  else if !redshiftTableSchemaIsLiteral request then none
  else
    let result := unescape false (request.schema.getD [])
    if !schemaIdentifier result then none else some result

/-- The loop of `redshift_routine_schema`: a backslash before an ordinary character is kept. -/
def routineName : Bytes → Option Bytes
  | [] => some []
  | [last] => if last = code '\\' || last = code '%' || last = code '_' then none else some [last]
  | ch :: next :: rest =>
    if ch = code '\\' then
      if next = code '%' || next = code '_' || next = code '\\' then
        (routineName rest).map (next :: ·)
      else (routineName (next :: rest)).map (ch :: ·)
    else if ch = code '%' || ch = code '_' then none
    else (routineName (next :: rest)).map (ch :: ·)

def routineSchema (schema : Option Bytes) (nameMatch : CatalogNameMatch) : Option Bytes :=
  schema.bind fun schema => if nameMatch ≠ .existing then some schema else routineName schema

def redshiftRoutineSchema : CatalogRequest → Option Bytes
  | .procedures names => routineSchema names.schema names.nameMatches.schema
  | .procedureColumns names => routineSchema names.schema names.nameMatches.schema
  | _ => none

/-! ## Lowering of identifiers -/

def escapeIdentifier (name : Bytes) : Bytes :=
  name.flatMap fun ch =>
    if ch = code '\\' || ch = code '%' || ch = code '_' then [code '\\', ch] else [ch]

/-- The lambda `escape`. -/
def escapeName (name : Option Bytes) (nameMatch : CatalogNameMatch) : Option Bytes :=
  if nameMatch = .existing then name else name.map escapeIdentifier

def redshiftIdentifierShowRequest : CatalogRequest → Option CatalogRequest
  | .tables names =>
    if names.mode ≠ .tables then none
    else
      some (.tables { names with
        catalog := escapeName names.catalog names.nameMatches.catalog
        schema := escapeName names.schema names.nameMatches.schema
        table := escapeName names.table names.nameMatches.object
        nameMatches := {} })
  | .columns names =>
    some (.columns { names with
      schema := escapeName names.schema names.nameMatches.schema
      table := escapeName names.table names.nameMatches.object
      column := escapeName names.column names.nameMatches.member
      nameMatches := {} })
  | _ => none

/-! ## The bytes of a code point -/

theorem isContinuation_iff : ∀ byte : UInt8,
    isContinuation byte = true ↔ 0x80 ≤ byte.toNat ∧ byte.toNat < 0xc0 :=
  forall_byte (by decide +kernel)

theorem utf8Encode_shape {point : Nat} (scalar : IsScalar point) :
    ∃ first following, utf8Encode point = first :: following ∧ isContinuation first = false ∧
      (∀ byte ∈ following, isContinuation byte = true) ∧
      (first.toNat < 0x80 → point = first.toNat ∧ following = []) := by
  obtain ⟨atMost, -⟩ := scalar
  have continuation {bits : Nat} (small : bits < 64) :
      isContinuation (.ofNat (0x80 + bits)) = true := by
    rw [isContinuation_iff, UInt8.toNat_ofNat']
    omega
  have lead {value : Nat} (small : value < 0x80 ∨ 0xc0 ≤ value ∧ value < 0x100) :
      isContinuation (.ofNat value) = false ∧ (UInt8.ofNat value).toNat = value := by
    have isValue : (UInt8.ofNat value).toNat = value := by
      rw [UInt8.toNat_ofNat']
      omega
    refine ⟨?_, isValue⟩
    rw [Bool.eq_false_iff, Ne, isContinuation_iff, isValue]
    omega
  unfold utf8Encode
  split_ifs with one two three
  · obtain ⟨isLead, isValue⟩ := @lead point (by omega)
    exact ⟨_, _, rfl, isLead, by simp, fun _ => ⟨isValue.symm, rfl⟩⟩
  · obtain ⟨isLead, isValue⟩ := @lead (0xc0 + point / 64) (by omega)
    refine ⟨_, _, rfl, isLead, ?_, fun small => ?_⟩
    · exact forall_mem_singleton.mpr (continuation (by omega))
    · rw [isValue] at small
      omega
  · obtain ⟨isLead, isValue⟩ := @lead (0xe0 + point / 4096) (by omega)
    refine ⟨_, _, rfl, isLead, ?_, fun small => ?_⟩
    · exact forall_mem_cons.mpr ⟨continuation (by omega),
        forall_mem_singleton.mpr (continuation (by omega))⟩
    · rw [isValue] at small
      omega
  · obtain ⟨isLead, isValue⟩ := @lead (0xf0 + point / 262144) (by omega)
    refine ⟨_, _, rfl, isLead, ?_, fun small => ?_⟩
    · exact forall_mem_cons.mpr ⟨continuation (by omega), forall_mem_cons.mpr
        ⟨continuation (by omega), forall_mem_singleton.mpr (continuation (by omega))⟩⟩
    · rw [isValue] at small
      omega

variable {point : Nat} {points : List Nat} {rest : Bytes} {special : UInt8}

theorem utf8Encode_ascii (small : special.toNat < 0x80) : utf8Encode special.toNat = [special] := by
  simp [utf8Encode, small]

theorem head?_encode (scalar : IsScalar point) (small : special.toNat < 0x80) :
    (utf8Encode point ++ rest).head? = some special ↔ point = special.toNat := by
  constructor
  · intro isHead
    obtain ⟨first, following, isEncoding, -, -, ascii⟩ := utf8Encode_shape scalar
    rw [isEncoding] at isHead
    obtain rfl := Option.some.inj isHead
    exact (ascii small).1
  · rintro rfl
    simp [utf8Encode_ascii small]

theorem head?_encodeText_continuation (scalars : ∀ point ∈ points, IsScalar point) :
    ∀ byte ∈ (encodeText points).head?, isContinuation byte = false := by
  cases points with
  | nil => simp
  | cons point points =>
    obtain ⟨first, following, isEncoding, isFirst, -, -⟩ :=
      utf8Encode_shape (scalars point mem_cons_self)
    simpa [isEncoding] using isFirst

theorem codepoint_encode (scalar : IsScalar point)
    (ends : ∀ byte ∈ rest.head?, isContinuation byte = false) :
    codepoint (utf8Encode point ++ rest) = utf8Encode point ∧
      afterCodepoint (utf8Encode point ++ rest) = rest := by
  obtain ⟨first, following, isEncoding, -, continuations, -⟩ := utf8Encode_shape scalar
  have stops : rest.takeWhile isContinuation = [] ∧ rest.dropWhile isContinuation = rest := by
    cases rest with
    | nil => exact ⟨rfl, rfl⟩
    | cons byte rest => simp [ends byte rfl]
  rw [isEncoding, cons_append, codepoint, afterCodepoint,
    takeWhile_append_of_pos continuations, dropWhile_append_of_pos continuations, stops.1,
    stops.2, append_nil]
  exact ⟨rfl, rfl⟩

theorem utf8Encode_inj {other : Nat} (scalar : IsScalar point) (isOther : IsScalar other) :
    utf8Encode point = utf8Encode other ↔ point = other := by
  constructor
  · intro same
    have first := nextUtf8CodePoint_encode scalar []
    rw [same, nextUtf8CodePoint_encode isOther] at first
    exact (Prod.mk.inj (Option.some.inj first)).1.symm
  · rintro rfl
    rfl

/-- The bytes of a code point other than a backslash are not backslashes. -/
theorem notMem_encode (scalar : IsScalar point) (small : special.toNat < 0x80)
    (differs : point ≠ special.toNat) : special ∉ utf8Encode point := by
  obtain ⟨first, following, isEncoding, -, continuations, ascii⟩ := utf8Encode_shape scalar
  rw [isEncoding]
  rintro (_ | ⟨_, present⟩)
  · exact differs (ascii small).1
  · have := (isContinuation_iff special).mp (continuations special present)
    omega

end Odbcpp.Postgres.Redshift
