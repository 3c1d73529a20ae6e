import Odbcpp.Postgres.RedshiftMatching

/-!
# Names that Redshift patterns stand for

A pattern without wildcards stands for one name: the decoders of the catalog functions give it,
and it is the only text that the pattern matches. Lowering an identifier gives such a pattern.
-/

namespace Odbcpp.Postgres.Redshift

open Foundation Util Wildcards Database List
open List (cons_append forall_mem_cons mem_cons mem_singleton singleton_append)

variable {name pattern points : List Nat} {steps : Nat} {value : Bytes}

/-! ## Patterns that spell a name -/

def isSpecial (point : Nat) : Bool :=
  point = '\\'.toNat || point = '%'.toNat || point = '_'.toNat

/-- The pattern is the name, with some of its code points escaped, and all special ones. -/
inductive Spells : List Nat → List Nat → Prop where
  | nil : Spells [] []
  | plain {point pattern name} (ordinary : isSpecial point = false)
      (later : Spells pattern name) : Spells (point :: pattern) (point :: name)
  | escaped {point pattern name} (later : Spells pattern name) :
      Spells ('\\'.toNat :: point :: pattern) (point :: name)

section Special

variable {point : Nat} {rest piece : Bytes}

theorem isSpecial_eq_false : isSpecial point = false ↔
    point ≠ '\\'.toNat ∧ point ≠ '%'.toNat ∧ point ≠ '_'.toNat := by
  simp [isSpecial, and_assoc]

/-- No byte is one that patterns treat specially. -/
def Ordinary (piece : Bytes) : Prop :=
  code '\\' ∉ piece ∧ code '%' ∉ piece ∧ code '_' ∉ piece

theorem ordinary_encode (scalar : IsScalar point) (ordinary : isSpecial point = false) :
    Ordinary (utf8Encode point) := by
  obtain ⟨notBackslash, notPercent, notUnderscore⟩ := isSpecial_eq_false.mp ordinary
  exact ⟨notMem_encode scalar (by decide) notBackslash,
    notMem_encode scalar (by decide) notPercent, notMem_encode scalar (by decide) notUnderscore⟩

theorem ordinary_following {following : Bytes}
    (continuations : ∀ byte ∈ following, isContinuation byte = true) : Ordinary following :=
  ⟨fun present => absurd (continuations _ present) (by decide),
    fun present => absurd (continuations _ present) (by decide),
    fun present => absurd (continuations _ present) (by decide)⟩

theorem Ordinary.cons {byte : UInt8} (ordinary : Ordinary (byte :: piece)) :
    (byte ≠ code '\\' ∧ byte ≠ code '%' ∧ byte ≠ code '_') ∧ Ordinary piece := by
  obtain ⟨notBackslash, notPercent, notUnderscore⟩ := ordinary
  simp only [mem_cons, not_or] at notBackslash notPercent notUnderscore
  exact ⟨⟨Ne.symm notBackslash.1, Ne.symm notPercent.1, Ne.symm notUnderscore.1⟩,
    notBackslash.2, notPercent.2, notUnderscore.2⟩

theorem isLiteral_append (ordinary : Ordinary piece) :
    isLiteral false (piece ++ rest) = isLiteral false rest := by
  induction piece with
  | nil => rfl
  | cons byte piece ih =>
    obtain ⟨⟨notBackslash, notPercent, notUnderscore⟩, others⟩ := ordinary.cons
    simp [isLiteral, notBackslash, notPercent, notUnderscore, ih others]

theorem unescape_append (ordinary : Ordinary piece) :
    unescape false (piece ++ rest) = piece ++ unescape false rest := by
  induction piece with
  | nil => rfl
  | cons byte piece ih =>
    obtain ⟨⟨notBackslash, -, -⟩, others⟩ := ordinary.cons
    simp [unescape, notBackslash, ih others]

theorem isLiteral_escaped (scalar : IsScalar point) :
    isLiteral true (utf8Encode point ++ rest) = isLiteral false rest := by
  obtain ⟨first, following, isEncoding, -, continuations, -⟩ := utf8Encode_shape scalar
  rw [isEncoding, cons_append, isLiteral, isLiteral_append (ordinary_following continuations)]

theorem unescape_escaped (scalar : IsScalar point) :
    unescape true (utf8Encode point ++ rest) = utf8Encode point ++ unescape false rest := by
  obtain ⟨first, following, isEncoding, -, continuations, -⟩ := utf8Encode_shape scalar
  rw [isEncoding, cons_append, unescape,
    unescape_append (ordinary_following continuations), cons_append]

end Special

namespace Spells

variable (spells : Spells pattern name) (areScalars : ∀ point ∈ pattern, IsScalar point)

include spells areScalars

theorem scalars : ∀ point ∈ name, IsScalar point := by
  induction spells with
  | nil => exact areScalars
  | plain _ _ ih =>
    obtain ⟨first, others⟩ := forall_mem_cons.mp areScalars
    exact forall_mem_cons.mpr ⟨first, ih others⟩
  | escaped _ ih =>
    obtain ⟨-, others⟩ := forall_mem_cons.mp areScalars
    obtain ⟨first, others⟩ := forall_mem_cons.mp others
    exact forall_mem_cons.mpr ⟨first, ih others⟩

theorem unescape_eq : unescape false (encodeText pattern) = encodeText name := by
  induction spells with
  | nil => rfl
  | plain ordinary _ ih =>
    obtain ⟨first, others⟩ := forall_mem_cons.mp areScalars
    rw [encodeText_cons, unescape_append (ordinary_encode first ordinary), ih others,
      encodeText_cons]
  | escaped _ ih =>
    obtain ⟨-, others⟩ := forall_mem_cons.mp areScalars
    obtain ⟨first, others⟩ := forall_mem_cons.mp others
    rw [encodeText_cons, encode_backslash, singleton_append, unescape, if_pos rfl,
      encodeText_cons, unescape_escaped first, ih others, encodeText_cons]

theorem isLiteral_eq : isLiteral false (encodeText pattern) = true := by
  induction spells with
  | nil => rfl
  | plain ordinary _ ih =>
    obtain ⟨first, others⟩ := forall_mem_cons.mp areScalars
    rw [encodeText_cons, isLiteral_append (ordinary_encode first ordinary), ih others]
  | escaped _ ih =>
    obtain ⟨-, others⟩ := forall_mem_cons.mp areScalars
    obtain ⟨first, others⟩ := forall_mem_cons.mp others
    rw [encodeText_cons, encode_backslash, singleton_append, isLiteral, if_pos rfl,
      encodeText_cons, isLiteral_escaped first, ih others]

theorem endsEscaped_eq : endsEscaped false (encodeText pattern) = false := by
  induction spells with
  | nil => rfl
  | plain ordinary _ ih =>
    obtain ⟨first, others⟩ := forall_mem_cons.mp areScalars
    rw [encodeText_cons, endsEscaped_encode first (isSpecial_eq_false.mp ordinary).1, ih others]
  | escaped _ ih =>
    obtain ⟨-, others⟩ := forall_mem_cons.mp areScalars
    obtain ⟨first, others⟩ := forall_mem_cons.mp others
    rw [encodeText_cons, encode_backslash, singleton_append, endsEscaped,
      decide_eq_true rfl, encodeText_cons, endsEscaped_true_encode first, ih others]

end Spells

theorem exists_spells (isPattern : IsPattern points)
    (literal : isLiteral false (encodeText points) = true) : ∃ name, Spells points name := by
  have head {point : Nat} {points : List Nat} (isPattern : IsPattern (point :: points))
      (literal : isLiteral false (encodeText (point :: points)) = true) :
      point ≠ '%'.toNat ∧ point ≠ '_'.toNat := by
    constructor
    · rintro rfl
      cases literal
    · rintro rfl
      cases literal
  have plain {point : Nat} {points : List Nat} (isPattern : IsPattern (point :: points))
      (literal : isLiteral false (encodeText (point :: points)) = true)
      (notBackslash : point ≠ '\\'.toNat) : isSpecial point = false ∧
        IsPattern points ∧ isLiteral false (encodeText points) = true := by
    have ordinary := isSpecial_eq_false.mpr ⟨notBackslash, head isPattern literal⟩
    refine ⟨ordinary, isPattern.tail notBackslash, ?_⟩
    rwa [encodeText_cons, isLiteral_append
      (ordinary_encode (isPattern.scalars point mem_cons_self) ordinary)] at literal
  fun_induction likeElements points with
  | case1 => exact ⟨[], .nil⟩
  | case2 last =>
    by_cases isBackslash : last = '\\'.toNat
    · subst isBackslash
      obtain ⟨next, rest, isNil, -⟩ := isPattern.escaped
      cases isNil
    · exact ⟨[last], .plain (plain isPattern literal isBackslash).1 .nil⟩
  | case3 next rest ih => exact absurd rfl (head isPattern literal).1
  | case4 next rest _ ih => exact absurd rfl (head isPattern literal).2
  | case5 next rest _ _ ih =>
    obtain ⟨other, others, isRest, isPattern'⟩ := isPattern.escaped
    obtain ⟨rfl, rfl⟩ := List.cons.inj isRest
    have scalar := isPattern.scalars next (by simp)
    rw [encodeText_cons, encode_backslash, singleton_append, isLiteral, if_pos rfl,
      encodeText_cons, isLiteral_escaped scalar] at literal
    obtain ⟨name, spells⟩ := ih isPattern' literal
    exact ⟨next :: name, .escaped spells⟩
  | case6 point next rest _ _ notBackslash ih =>
    obtain ⟨ordinary, isRest, restLiteral⟩ := plain isPattern literal notBackslash
    obtain ⟨name, spells⟩ := ih isRest restLiteral
    exact ⟨point :: name, .plain ordinary spells⟩

/-! ## The only text that matches -/

theorem codepoint_append_afterCodepoint (text : Bytes) :
    codepoint text ++ afterCodepoint text = text := by
  cases text with
  | nil => rfl
  | cons first rest => simp [codepoint, afterCodepoint]

theorem loop_code_point {point : Nat} (isPoint : IsScalar point)
    (areNames : ∀ point ∈ name, IsScalar point) (later : ∀ rest, rest.length ≤ steps →
      tableLikeLoop steps rest (encodeText pattern) none = some (decide (rest = encodeText name)))
    (shorter : value.length ≤ steps + 1) : (if utf8Encode point = codepoint value then
      tableLikeLoop steps (afterCodepoint value) (encodeText pattern) none
    else goBack steps none) = some (decide (value = utf8Encode point ++ encodeText name)) := by
  have whole := codepoint_append_afterCodepoint value
  split
  · rename_i same
    have isLength := congrArg List.length whole
    have positive := length_pos_iff.mpr (utf8Encode_ne_nil point)
    rw [length_append, ← same] at isLength
    rw [later _ (by omega)]
    have isRest : afterCodepoint value = encodeText name ↔
        value = utf8Encode point ++ encodeText name := by
      rw [same, ← append_cancel_left_eq (codepoint value), whole]
    simp only [isRest]
  · rename_i differs
    have notEqual : value ≠ utf8Encode point ++ encodeText name := by
      rintro rfl
      exact differs (codepoint_encode isPoint (head?_encodeText_continuation areNames)).1.symm
    simp [goBack, notEqual]

theorem nil_ne_encode (point : Nat) (points : List Nat) : [] ≠ encodeText (point :: points) :=
  fun isNil => utf8Encode_ne_nil point (append_eq_nil_iff.mp isNil.symm).1

variable (areScalars : ∀ point ∈ pattern, IsScalar point)

include areScalars

variable (spells : Spells pattern name)

include spells

theorem Spells.loop_nil (steps : Nat) :
    tableLikeLoop steps [] (encodeText pattern) none = some (decide ([] = encodeText name)) := by
  have isEnd : tableLikeLoop steps [] (encodeText pattern) none =
      some ((encodeText pattern).dropWhile (· = code '%')).isEmpty := by cases steps <;> rfl
  rw [isEnd, trailing_eq areScalars]
  cases spells with
  | nil => rfl
  | plain ordinary later =>
    obtain ⟨notBackslash, notPercent, notUnderscore⟩ := isSpecial_eq_false.mp ordinary
    rw [likeElements_plain notPercent notUnderscore notBackslash,
      decide_eq_false (nil_ne_encode _ _)]
    rfl
  | escaped later =>
    rw [likeElements_escaped, decide_eq_false (nil_ne_encode _ _)]
    rfl

theorem Spells.loop_eq
    (enough : value.length ≤ steps) : tableLikeLoop steps value (encodeText pattern) none =
      some (decide (value = encodeText name)) := by
  induction spells generalizing value steps with
  | nil =>
    cases value with
    | nil => exact Spells.nil.loop_nil areScalars steps
    | cons first rest =>
      obtain ⟨steps, rfl⟩ : ∃ fewer, steps = fewer + 1 :=
        Nat.exists_eq_add_one_of_ne_zero (by simp at enough; omega)
      simp [tableLikeLoop_cons, goBack]
  | @plain point pattern name ordinary spells ih =>
    by_cases isEmpty : value = []
    · exact isEmpty ▸ (Spells.plain ordinary spells).loop_nil areScalars steps
    obtain ⟨steps, rfl⟩ : ∃ fewer, steps = fewer + 1 :=
      Nat.exists_eq_add_one_of_ne_zero (by
        have := length_pos_iff.mpr isEmpty
        omega)
    obtain ⟨isPoint, others⟩ := forall_mem_cons.mp areScalars
    have isHead (special : UInt8) (small : special.toNat < 0x80) :
        (encodeText (point :: pattern)).head? = some special ↔ point = special.toNat :=
      head?_encode isPoint small
    obtain ⟨notBackslash, notPercent, notUnderscore⟩ := isSpecial_eq_false.mp ordinary
    rw [tableLikeLoop_cons isEmpty, if_neg (mt (isHead (code '%') (by decide)).mp notPercent),
      if_neg (mt (isHead (code '_') (by decide)).mp notUnderscore),
      if_neg (mt (isHead (code '\\') (by decide)).mp notBackslash), encodeText_cons,
      loop_literal isPoint (head?_encodeText_continuation others),
      loop_code_point isPoint (spells.scalars others) (fun rest fits => ih others fits) enough,
      encodeText_cons]
  | @escaped point pattern name spells ih =>
    by_cases isEmpty : value = []
    · exact isEmpty ▸ (Spells.escaped spells).loop_nil areScalars steps
    obtain ⟨steps, rfl⟩ : ∃ fewer, steps = fewer + 1 :=
      Nat.exists_eq_add_one_of_ne_zero (by
        have := length_pos_iff.mpr isEmpty
        omega)
    obtain ⟨-, others⟩ := forall_mem_cons.mp areScalars
    obtain ⟨isPoint, others⟩ := forall_mem_cons.mp others
    have literal := @loop_literal steps pattern value none point isPoint
      (head?_encodeText_continuation others)
    rw [loop_code_point isPoint (spells.scalars others) (fun rest fits => ih others fits)
      enough] at literal
    rw [tableLikeLoop_cons isEmpty]
    exact literal

theorem Spells.tableLike_eq (value : Bytes) :
    tableLike value (some (encodeText pattern)) = true ↔ value = encodeText name := by
  have enough : value.length ≤ greedySteps (encodeText pattern).length value.length := by
    rw [greedySteps]
    exact le_trans (by omega) (Nat.le_mul_of_pos_right _ (Nat.succ_pos _))
  simp [tableLike, tableLikeRun, spells.loop_eq areScalars enough]

omit spells

omit areScalars

/-! ## The decoders -/

/-- Every backslash that escapes stands before one of the characters that need it. -/
def escapesSpecial : Bytes → Bool
  | [] | [_] => true
  | ch :: next :: rest =>
    if ch = code '\\' then
      (next = code '%' || next = code '_' || next = code '\\') && escapesSpecial rest
    else escapesSpecial (next :: rest)

section Routines

variable {piece rest : Bytes} {point : Nat}

theorem routineName_append (ordinary : Ordinary piece) :
    routineName (piece ++ rest) = (routineName rest).map (piece ++ ·) := by
  induction piece with
  | nil => simp
  | cons byte piece ih =>
    obtain ⟨⟨notBackslash, notPercent, notUnderscore⟩, others⟩ := ordinary.cons
    have later := ih others
    have step (more : Bytes) : routineName (byte :: more) = (routineName more).map (byte :: ·) := by
      cases more with
      | nil | cons next more => simp [routineName, notBackslash, notPercent, notUnderscore]
    rw [cons_append, step, later, Option.map_map]
    rfl

theorem escapesSpecial_append (free : code '\\' ∉ piece) :
    escapesSpecial (piece ++ rest) = escapesSpecial rest := by
  induction piece with
  | nil => rfl
  | cons byte piece ih =>
    obtain ⟨differs, others⟩ := not_or.mp (mt mem_cons.mpr free)
    rw [← ih others]
    cases isRest : piece ++ rest with
    | nil => simp [isRest, escapesSpecial]
    | cons next more => simp [isRest, escapesSpecial, Ne.symm differs]

theorem encode_special (special : isSpecial point = true) : ∃ byte, utf8Encode point = [byte] ∧
      (byte = code '%' || byte = code '_' || byte = code '\\') = true := by
  simp only [isSpecial, Bool.or_eq_true, decide_eq_true_eq] at special
  rcases special with (rfl | rfl) | rfl
  · exact ⟨_, rfl, by decide⟩
  · exact ⟨_, rfl, by decide⟩
  · exact ⟨_, rfl, by decide⟩

theorem encode_ordinary (scalar : IsScalar point) (ordinary : isSpecial point = false) :
    ∃ first following, utf8Encode point = first :: following ∧
      (first = code '%' || first = code '_' || first = code '\\') = false ∧
      code '\\' ∉ following := by
  obtain ⟨first, following, isEncoding, -⟩ := utf8Encode_shape scalar
  have pieces := ordinary_encode scalar ordinary
  rw [isEncoding] at pieces
  obtain ⟨⟨notBackslash, notPercent, notUnderscore⟩, others⟩ := pieces.cons
  exact ⟨first, following, isEncoding, by simp [notBackslash, notPercent, notUnderscore],
    others.1⟩

end Routines

theorem Spells.routineName_eq (spells : Spells pattern name)
    (areScalars : ∀ point ∈ pattern, IsScalar point) :
    ∃ decoded, routineName (encodeText pattern) = some decoded ∧
      (decoded = encodeText name ↔ escapesSpecial (encodeText pattern) = true) := by
  induction spells with
  | nil => exact ⟨[], rfl, by simp [escapesSpecial]⟩
  | @plain point pattern name ordinary spells ih =>
    obtain ⟨isPoint, others⟩ := forall_mem_cons.mp areScalars
    obtain ⟨decoded, isDecoded, same⟩ := ih others
    have pieces := ordinary_encode isPoint ordinary
    refine ⟨utf8Encode point ++ decoded, ?_, ?_⟩
    · rw [encodeText_cons, routineName_append pieces, isDecoded]
      rfl
    · rw [encodeText_cons, encodeText_cons, escapesSpecial_append pieces.1, ← same,
        append_cancel_left_eq]
  | @escaped point pattern name spells ih =>
    obtain ⟨-, others⟩ := forall_mem_cons.mp areScalars
    obtain ⟨isPoint, others⟩ := forall_mem_cons.mp others
    obtain ⟨decoded, isDecoded, same⟩ := ih others
    have isText : encodeText ('\\'.toNat :: point :: pattern) =
        code '\\' :: (utf8Encode point ++ encodeText pattern) := rfl
    cases special : isSpecial point with
    | true =>
      obtain ⟨byte, isEncoding, isByte⟩ := encode_special special
      refine ⟨byte :: decoded, ?_, ?_⟩
      · rw [isText, isEncoding, singleton_append, routineName, if_pos rfl, if_pos isByte,
          isDecoded]
        rfl
      rw [isText, isEncoding, singleton_append, escapesSpecial, if_pos rfl, isByte,
        Bool.true_and, ← same, encodeText_cons, isEncoding]
      simp
    | false =>
      obtain ⟨first, following, isEncoding, isFirst, free⟩ := encode_ordinary isPoint special
      have kept : routineName (utf8Encode point ++ encodeText pattern) =
          some (utf8Encode point ++ decoded) := by
        rw [routineName_append (ordinary_encode isPoint special), isDecoded]
        rfl
      rw [isEncoding, cons_append, cons_append] at kept
      refine ⟨code '\\' :: first :: (following ++ decoded), ?_, ?_⟩
      · rw [isText, isEncoding, cons_append, routineName, if_pos rfl,
          if_neg (by simp [isFirst]), kept]
        rfl
      rw [isText, isEncoding, cons_append, escapesSpecial, if_pos rfl, isFirst,
        encodeText_cons, isEncoding]
      simp only [Bool.or_eq_false_iff, decide_eq_false_iff_not] at isFirst
      simp [Ne.symm isFirst.2]

theorem mem_of_mem_unescape {byte : UInt8} {escaped : Bool} {pattern : Bytes}
    (present : byte ∈ unescape escaped pattern) : byte ∈ pattern := by
  induction pattern generalizing escaped with
  | nil => cases escaped <;> simp [unescape] at present
  | cons ch rest ih =>
    cases escaped with
    | true =>
      rw [unescape, mem_cons] at present
      exact mem_cons.mpr (present.imp id ih)
    | false =>
      rw [unescape] at present
      split at present
      · exact mem_cons_of_mem _ (ih present)
      · exact mem_cons.mpr ((mem_cons.mp present).imp id ih)

theorem Spells.schemaIdentifier (spells : Spells pattern name)
    (areScalars : ∀ point ∈ pattern, IsScalar point) (nonempty : pattern ≠ [])
    (clean : 0 ∉ encodeText pattern) : schemaIdentifier (encodeText name) = true := by
  have isName : encodeText name ≠ [] := by
    cases spells with
    | nil => exact absurd rfl nonempty
    | plain ordinary later | escaped later => exact (nil_ne_encode _ _).symm
  have isClean : 0 ∉ encodeText name := by
    rw [← spells.unescape_eq areScalars]
    exact fun present => clean (mem_of_mem_unescape present)
  have isText : (utf8CodePointCount (encodeText name)).isSome = true :=
    utf8CodePointCount_isSome.mpr ⟨name, rfl, spells.scalars areScalars⟩
  simp [Redshift.schemaIdentifier, isName, isClean, isText]

/-- Of a nonempty valid pattern without wildcards, the decoders for tables and columns give the only
text it matches. The decoder for procedures keeps a backslash before an ordinary character. -/
theorem literal_schema_decoders (pattern : Bytes) (valid : tablePatternValid (some pattern) = true)
    (literal : isLiteral false pattern = true) (nonempty : pattern ≠ []) :
    (∀ request : TablesCatalogRequest, request.mode = .tables → request.schema = some pattern →
      tablePatternValid request.catalog = true → tablePatternValid request.table = true →
      typesValid request.types = true →
      redshiftTableSchema request = some (columnLiteralName pattern)) ∧
    (∀ request : ProceduresCatalogRequest, request.schema = some pattern →
      request.nameMatches.schema = .existing →
      (redshiftRoutineSchema (.procedures request)).isSome = true ∧
      (redshiftRoutineSchema (.procedures request) = some (columnLiteralName pattern) ↔
        escapesSpecial pattern = true)) ∧
    ∀ value, tableLike value (some pattern) = true ↔ value = columnLiteralName pattern := by
  obtain ⟨points, rfl, isPattern⟩ := isPattern_of_valid valid
  obtain ⟨name, spells⟩ := exists_spells isPattern literal
  have isName : columnLiteralName (encodeText points) = encodeText name :=
    spells.unescape_eq isPattern.scalars
  have clean : 0 ∉ encodeText points := by
    simp only [tablePatternValid, Bool.and_eq_true, Bool.not_eq_true', List.contains_eq_mem,
      decide_eq_false_iff_not] at valid
    exact valid.1.1
  refine ⟨?_, ?_, fun value => ?_⟩
  · intro request isTables isSchema validCatalog validTable validTypes
    have isLiteral : redshiftTableSchemaIsLiteral request = true := by
      simp [redshiftTableSchemaIsLiteral, isTables, isSchema, nonempty, literal]
    have isIdentifier := spells.schemaIdentifier isPattern.scalars (fun isNil => nonempty
      (by rw [isNil, encodeText_nil])) clean
    rw [← isName, columnLiteralName] at isIdentifier
    simp [redshiftTableSchema, validCatalog, validTable, validTypes, isLiteral, isSchema,
      isIdentifier, columnLiteralName]
  · intro request isSchema isExisting
    obtain ⟨decoded, isDecoded, same⟩ := spells.routineName_eq isPattern.scalars
    have isRoutine : redshiftRoutineSchema (.procedures request) = some decoded := by
      simp [redshiftRoutineSchema, routineSchema, isSchema, isExisting, isDecoded]
    rw [isRoutine, isName, ← same]
    exact ⟨rfl, by simp⟩
  · rw [isName]
    exact spells.tableLike_eq isPattern.scalars value

theorem literal_schema_decoders_underscore :
    redshiftTableSchema { schema := some (ascii "a\\_b") } = some (ascii "a_b") ∧
      redshiftRoutineSchema (.procedures { schema := some (ascii "a\\_b") }) =
        some (ascii "a_b") ∧
      (tableLike (ascii "a_b") (some (ascii "a\\_b")) = true ↔ ascii "a_b" = ascii "a_b") := by
  obtain ⟨tables, procedures, matching⟩ := literal_schema_decoders (ascii "a\\_b") (by decide)
    (by decide) (by decide)
  exact ⟨tables _ rfl rfl rfl rfl rfl, (procedures _ rfl rfl).2.mpr (by decide), matching _⟩

/-- A backslash before an ordinary character: two schemas for one pattern. -/
theorem literal_schema_decoders_differ :
    tablePatternValid (some (ascii "\\a")) = true ∧ isLiteral false (ascii "\\a") = true ∧
      redshiftTableSchema { schema := some (ascii "\\a") } = some (ascii "a") ∧
      columnLiteralName (ascii "\\a") = ascii "a" ∧
      redshiftRoutineSchema (.procedures { schema := some (ascii "\\a") }) =
        some (ascii "\\a") := by
  decide

/-! ## Identifiers -/

def escapePoints (points : List Nat) : List Nat :=
  points.flatMap fun point => if isSpecial point then ['\\'.toNat, point] else [point]

theorem spells_escapePoints (points : List Nat) : Spells (escapePoints points) points := by
  induction points with
  | nil => exact .nil
  | cons point points ih =>
    cases special : isSpecial point with
    | true => simpa [escapePoints, special] using Spells.escaped ih
    | false => simpa [escapePoints, special] using Spells.plain special ih

theorem isScalar_escapePoints (areScalars : ∀ point ∈ points, IsScalar point) :
    ∀ point ∈ escapePoints points, IsScalar point := by
  intro point present
  obtain ⟨origin, isOrigin, isPoint⟩ := mem_flatMap.mp present
  split at isPoint
  · rcases mem_cons.mp isPoint with rfl | isPoint
    · exact ⟨by decide, by decide⟩
    · exact mem_singleton.mp isPoint ▸ areScalars origin isOrigin
  · exact mem_singleton.mp isPoint ▸ areScalars origin isOrigin

theorem escapeIdentifier_append (first second : Bytes) :
    escapeIdentifier (first ++ second) = escapeIdentifier first ++ escapeIdentifier second := by
  simp [escapeIdentifier]

theorem escapeIdentifier_ordinary {piece : Bytes} (ordinary : Ordinary piece) :
    escapeIdentifier piece = piece := by
  induction piece with
  | nil => rfl
  | cons byte piece ih =>
    obtain ⟨⟨notBackslash, notPercent, notUnderscore⟩, others⟩ := ordinary.cons
    rw [← singleton_append, escapeIdentifier_append, ih others]
    simp [escapeIdentifier, notBackslash, notPercent, notUnderscore]

theorem escapeIdentifier_encodeText (areScalars : ∀ point ∈ points, IsScalar point) :
    escapeIdentifier (encodeText points) = encodeText (escapePoints points) := by
  induction points with
  | nil => rfl
  | cons point points ih =>
    obtain ⟨isPoint, others⟩ := forall_mem_cons.mp areScalars
    have isRest : escapePoints (point :: points) =
        (if isSpecial point then ['\\'.toNat, point] else [point]) ++ escapePoints points := rfl
    rw [encodeText_cons, escapeIdentifier_append, ih others, isRest, encodeText_append]
    congr 1
    cases special : isSpecial point with
    | true =>
      simp only [isSpecial, Bool.or_eq_true, decide_eq_true_eq] at special
      rcases special with (rfl | rfl) | rfl <;> rfl
    | false =>
      rw [escapeIdentifier_ordinary (ordinary_encode isPoint special)]
      simp

theorem zero_notMem_escapeIdentifier {name : Bytes} (clean : 0 ∉ name) :
    0 ∉ escapeIdentifier name := by
  intro present
  obtain ⟨byte, isByte, isZero⟩ := mem_flatMap.mp present
  split at isZero
  · rcases mem_cons.mp isZero with isBackslash | isZero
    · exact absurd isBackslash (by decide)
    · exact clean (mem_singleton.mp isZero ▸ isByte)
  · exact clean (mem_singleton.mp isZero ▸ isByte)

/-- The names that are lowered: as they are in the request, how they are matched, and as they
are in the lowered request. -/
def loweredNames : CatalogRequest → CatalogRequest →
    List (Option Bytes × CatalogNameMatch × Option Bytes)
  | .tables names, .tables lowered =>
    [(names.catalog, names.nameMatches.catalog, lowered.catalog),
      (names.schema, names.nameMatches.schema, lowered.schema),
      (names.table, names.nameMatches.object, lowered.table)]
  | .columns names, .columns lowered =>
    [(names.schema, names.nameMatches.schema, lowered.schema),
      (names.table, names.nameMatches.object, lowered.table),
      (names.column, names.nameMatches.member, lowered.column)]
  | _, _ => []

theorem escapeName_of_mem {request lowered name pattern nameMatch}
    (lowers : redshiftIdentifierShowRequest request = some lowered)
    (present : (name, nameMatch, pattern) ∈ loweredNames request lowered) :
    pattern = escapeName name nameMatch := by
  cases request with
  | tables names =>
    rw [redshiftIdentifierShowRequest] at lowers
    split at lowers
    · cases lowers
    obtain rfl := Option.some.inj lowers
    simp only [loweredNames, mem_cons, Prod.mk.injEq, not_mem_nil, or_false] at present
    rcases present with ⟨rfl, rfl, rfl⟩ | ⟨rfl, rfl, rfl⟩ | ⟨rfl, rfl, rfl⟩ <;> rfl
  | columns names =>
    obtain rfl := Option.some.inj lowers
    simp only [loweredNames, mem_cons, Prod.mk.injEq, not_mem_nil, or_false] at present
    rcases present with ⟨rfl, rfl, rfl⟩ | ⟨rfl, rfl, rfl⟩ | ⟨rfl, rfl, rfl⟩ <;> rfl
  | primaryKeys | foreignKeys | statistics | procedures | procedureColumns | specialColumns =>
    cases lowers

/-- An identifier is lowered to a pattern that is decoded to it and matches nothing else, and that is
literal unless it is empty. -/
theorem lowered_identifier (request lowered : CatalogRequest) (name : Bytes)
    (nameMatch : CatalogNameMatch) (pattern : Option Bytes)
    (lowers : redshiftIdentifierShowRequest request = some lowered)
    (present : (some name, nameMatch, pattern) ∈ loweredNames request lowered)
    (identifier : nameMatch ≠ .existing) (clean : 0 ∉ name)
    (isText : (utf8CodePointCount name).isSome = true) :
    ∃ text, pattern = some text ∧ tablePatternValid (some text) = true ∧
      (columnLiteralPattern (some text) = true ↔ name ≠ []) ∧ columnLiteralName text = name ∧
      ∀ value, (utf8CodePointCount value).isSome = true →
        (tableLike value (some text) = true ↔ value = name) := by
  obtain ⟨points, rfl, areScalars⟩ := utf8CodePointCount_isSome.mp isText
  have spells := spells_escapePoints points
  have scalars := isScalar_escapePoints areScalars
  have isEscape := escapeIdentifier_encodeText areScalars
  have isPattern : pattern = some (escapeIdentifier (encodeText points)) := by
    rw [escapeName_of_mem lowers present, escapeName, if_neg identifier, Option.map_some]
  have isClean := zero_notMem_escapeIdentifier clean
  have counted : (utf8CodePointCount (escapeIdentifier (encodeText points))).isSome = true :=
    utf8CodePointCount_isSome.mpr ⟨_, isEscape, scalars⟩
  have isName : columnLiteralName (escapeIdentifier (encodeText points)) = encodeText points := by
    rw [isEscape]
    exact spells.unescape_eq scalars
  refine ⟨_, isPattern, ?_, ?_, isName, fun value _ => ?_⟩
  · have complete := spells.endsEscaped_eq scalars
    rw [← isEscape] at complete
    simp [tablePatternValid, isClean, counted, complete]
  · have isLiteral := spells.isLiteral_eq scalars
    rw [← isEscape] at isLiteral
    have isEmpty : escapeIdentifier (encodeText points) = [] ↔ encodeText points = [] := by
      refine ⟨fun isNil => ?_, fun isNil => by rw [isNil]; rfl⟩
      rw [← isName, isNil]
      rfl
    simp [columnLiteralPattern, isLiteral, isEmpty]
  · rw [isEscape]
    exact spells.tableLike_eq scalars value

theorem lowered_identifier_backslash :
    ∃ text, escapeName (some (ascii "a_\\")) .identifierQuoted = some text ∧
      tablePatternValid (some text) = true ∧
      (columnLiteralPattern (some text) = true ↔ ascii "a_\\" ≠ []) ∧
      columnLiteralName text = ascii "a_\\" ∧
      ∀ value, (utf8CodePointCount value).isSome = true →
        (tableLike value (some text) = true ↔ value = ascii "a_\\") :=
  lowered_identifier
    (.columns { schema := some (ascii "a_\\"), nameMatches := { schema := .identifierQuoted } })
    (.columns { schema := escapeName (some (ascii "a_\\")) .identifierQuoted })
    (ascii "a_\\") .identifierQuoted _ rfl (by simp [loweredNames]) (by decide) (by decide)
    (by decide)

/-- The empty identifier is lowered to the empty pattern, which is not literal. -/
theorem empty_identifier_not_literal : redshiftIdentifierShowRequest
        (.columns { schema := some [], nameMatches := { schema := .identifierQuoted } }) =
      some (.columns { schema := some [] }) ∧
      columnLiteralPattern (some []) = false := by
  decide

end Odbcpp.Postgres.Redshift
