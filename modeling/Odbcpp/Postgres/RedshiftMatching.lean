import Odbcpp.Postgres.RedshiftPatterns

/-!
# Matching of Redshift name patterns

`table_like` decides whether a text matches a pattern, code point by code point.
-/

namespace Odbcpp.Postgres.Redshift

open Foundation Util Wildcards List

/-- The elements of a pattern: `%` and `_` are wildcards, and a backslash makes the next code
point literal. -/
def likeElements : List Nat → List (Element Nat)
  | [] => []
  | [last] =>
    [if last = '%'.toNat then .anything else if last = '_'.toNat then .one else .literal last]
  | point :: next :: rest =>
    if point = '%'.toNat then .anything :: likeElements (next :: rest)
    else if point = '_'.toNat then .one :: likeElements (next :: rest)
    else if point = '\\'.toNat then .literal next :: likeElements rest
    else .literal point :: likeElements (next :: rest)

def Like (value : Bytes) (pattern : Option Bytes) : Prop :=
  ∀ text ∈ pattern, ∃ points letters, utf8CodePoints text = some points ∧
    utf8CodePoints value = some letters ∧ Matches (likeElements points) letters

/-- Code points of a valid pattern. -/
structure IsPattern (points : List Nat) : Prop where
  scalars : ∀ point ∈ points, IsScalar point
  complete : endsEscaped false (encodeText points) = false

section Elements

variable {point next : Nat} {points : List Nat} {rest : Bytes}

theorem likeElements_percent :
    likeElements ('%'.toNat :: points) = .anything :: likeElements points := by
  cases points <;> rfl

theorem likeElements_underscore :
    likeElements ('_'.toNat :: points) = .one :: likeElements points := by
  cases points <;> rfl

theorem likeElements_escaped :
    likeElements ('\\'.toNat :: next :: points) = .literal next :: likeElements points := rfl

theorem likeElements_plain (notPercent : point ≠ '%'.toNat) (notUnderscore : point ≠ '_'.toNat)
    (notBackslash : point ≠ '\\'.toNat) :
    likeElements (point :: points) = .literal point :: likeElements points := by
  cases points with
  | nil => simp only [likeElements, if_neg notPercent, if_neg notUnderscore]
  | cons next points =>
    rw [likeElements, if_neg notPercent, if_neg notUnderscore, if_neg notBackslash]

theorem likeElements_head (notPercent : point ≠ '%'.toNat) :
    ∃ element rest, likeElements (point :: points) = element :: rest ∧ element ≠ .anything := by
  by_cases isUnderscore : point = '_'.toNat
  · exact ⟨_, _, isUnderscore ▸ likeElements_underscore, by simp⟩
  by_cases isBackslash : point = '\\'.toNat
  · subst isBackslash
    cases points with
    | nil => exact ⟨_, _, rfl, by decide⟩
    | cons next rest => exact ⟨_, _, rfl, by simp⟩
  · exact ⟨_, _, likeElements_plain notPercent isUnderscore isBackslash, by simp⟩

theorem endsEscaped_append {first : Bytes} (free : code '\\' ∉ first) :
    endsEscaped false (first ++ rest) = endsEscaped false rest := by
  induction first with
  | nil => rfl
  | cons byte first ih =>
    obtain ⟨differs, others⟩ := not_or.mp (mt mem_cons.mpr free)
    have notBackslash : (byte = code '\\') = False := by simpa [eq_comm] using differs
    simp [endsEscaped, notBackslash, ih others]

theorem endsEscaped_true_encode (scalar : IsScalar point) :
    endsEscaped true (utf8Encode point ++ rest) = endsEscaped false rest := by
  obtain ⟨first, following, isEncoding, -, continuations, -⟩ := utf8Encode_shape scalar
  rw [isEncoding, cons_append, endsEscaped]
  refine endsEscaped_append fun present => ?_
  exact absurd (continuations _ present) (by decide)

theorem endsEscaped_encode (scalar : IsScalar point) (notBackslash : point ≠ '\\'.toNat) :
    endsEscaped false (utf8Encode point ++ rest) = endsEscaped false rest :=
  endsEscaped_append (notMem_encode scalar (by decide) notBackslash)

theorem encode_backslash : utf8Encode '\\'.toNat = [code '\\'] := rfl

namespace IsPattern

theorem tail (isPattern : IsPattern (point :: points)) (notBackslash : point ≠ '\\'.toNat) :
    IsPattern points := by
  obtain ⟨scalar, scalars⟩ := forall_mem_cons.mp isPattern.scalars
  have complete := isPattern.complete
  rw [encodeText_cons, endsEscaped_encode scalar notBackslash] at complete
  exact ⟨scalars, complete⟩

theorem escaped (isPattern : IsPattern ('\\'.toNat :: points)) :
    ∃ next rest, points = next :: rest ∧ IsPattern rest := by
  have complete := isPattern.complete
  rw [encodeText_cons, encode_backslash, singleton_append, endsEscaped,
    decide_eq_true rfl] at complete
  obtain ⟨-, scalars⟩ := forall_mem_cons.mp isPattern.scalars
  cases points with
  | nil => cases complete
  | cons next rest =>
    obtain ⟨scalar, scalars⟩ := forall_mem_cons.mp scalars
    rw [encodeText_cons, endsEscaped_true_encode scalar] at complete
    exact ⟨next, rest, rfl, scalars, complete⟩

end IsPattern

/-- At the end of the text only wildcards for any sequence may follow. -/
theorem trailing_eq (scalars : ∀ point ∈ points, IsScalar point) :
    ((encodeText points).dropWhile (· = code '%')).isEmpty =
      (likeElements points).all (· = .anything) := by
  induction points with
  | nil => rfl
  | cons point points ih =>
    obtain ⟨scalar, others⟩ := forall_mem_cons.mp scalars
    by_cases isPercent : point = '%'.toNat
    · subst isPercent
      rw [likeElements_percent, all_cons, ← ih others]
      rfl
    obtain ⟨first, following, isEncoding, -⟩ := utf8Encode_shape scalar
    have notHead := mt (@head?_encode _ (encodeText points) (code '%') scalar (by decide)).mp
      isPercent
    rw [isEncoding] at notHead
    have differs : first ≠ code '%' := by simpa using notHead
    obtain ⟨element, elements, isElements, notWild⟩ := @likeElements_head _ points isPercent
    rw [isElements, encodeText_cons, isEncoding]
    simp [differs, notWild]

end Elements

/-! ## The loop and the matcher on code points -/

/-- The places to go back to, as code points. -/
abbrev Places := Option (List Nat × List Nat)

def Places.bytes (places : Places) : Option (Bytes × Bytes) :=
  places.map fun (start, retry) => (encodeText start, encodeText retry)

def Places.retry (places : Places) : Retry Nat :=
  places.map fun (start, retry) => (likeElements start, retry)

section Loop

variable {steps value : Nat} {values points : List Nat} {places : Places} {pattern text : Bytes}
  {star : Option (Bytes × Bytes)}

/-- The loop goes back: `%` takes one code point more. -/
def goBack (steps : Nat) : Option (Bytes × Bytes) → Option Bool
  | none => some false
  | some (start, retry) =>
    tableLikeLoop steps (afterCodepoint retry) start (some (start, afterCodepoint retry))

theorem tableLikeLoop_cons (nonempty : text ≠ []) : tableLikeLoop (steps + 1) text pattern star =
      if pattern.head? = some (code '%') then
        tableLikeLoop steps text pattern.tail (some (pattern.tail, text))
      else if pattern.head? = some (code '_') then
        tableLikeLoop steps (afterCodepoint text) pattern.tail star
      else
        let literal := if pattern.head? = some (code '\\') then pattern.tail else pattern
        if literal ≠ [] ∧ codepoint literal = codepoint text then
          tableLikeLoop steps (afterCodepoint text) (afterCodepoint literal) star
        else goBack steps star := by
  cases text with
  | nil => exact absurd rfl nonempty
  | cons first rest => cases star <;> rfl

theorem loop_literal {point : Nat} (isPoint : IsScalar point)
    (isPattern : ∀ byte ∈ (encodeText points).head?, isContinuation byte = false) :
    (let literal := utf8Encode point ++ encodeText points
    if literal ≠ [] ∧ codepoint literal = codepoint text then
      tableLikeLoop steps (afterCodepoint text) (afterCodepoint literal) star
    else goBack steps star) =
      if utf8Encode point = codepoint text then
        tableLikeLoop steps (afterCodepoint text) (encodeText points) star
      else goBack steps star := by
  obtain ⟨isCodepoint, isAfter⟩ := codepoint_encode isPoint isPattern
  simp [isCodepoint, isAfter, utf8Encode_ne_nil]

theorem afterCodepoint_encodeText (scalars : ∀ value ∈ values, IsScalar value) :
    afterCodepoint (encodeText values) = encodeText values.tail := by
  cases values with
  | nil => rfl
  | cons value values =>
    obtain ⟨scalar, others⟩ := forall_mem_cons.mp scalars
    exact (codepoint_encode scalar (head?_encodeText_continuation others)).2

/-- What the places to go back to have to be. -/
def Places.Valid (places : Places) : Prop :=
  ∀ place ∈ places, IsPattern place.1 ∧ ∀ value ∈ place.2, IsScalar value

theorem goBack_eq (valid : places.Valid)
    (ih : ∀ {values points : List Nat} {places : Places}, (∀ value ∈ values, IsScalar value) →
      IsPattern points → places.Valid →
      tableLikeLoop steps (encodeText values) (encodeText points) places.bytes =
        greedy steps (likeElements points) values places.retry) :
    goBack steps places.bytes = places.retry.elim (some false) fun place =>
      greedy steps place.1 place.2.tail (some (place.1, place.2.tail)) := by
  rcases places with _ | place
  · rfl
  obtain ⟨start, retry⟩ := place
  obtain ⟨isStart, isRetry⟩ := valid _ rfl
  have others : ∀ value ∈ retry.tail, IsScalar value :=
    fun value present => isRetry value (mem_of_mem_tail present)
  have again := @ih retry.tail start (some (start, retry.tail)) others isStart (by
    rintro place (_ | _)
    exact ⟨isStart, others⟩)
  simpa [goBack, Places.bytes, Places.retry, afterCodepoint_encodeText isRetry] using again

theorem tableLikeLoop_eq (areValues : ∀ value ∈ values, IsScalar value)
    (isPattern : IsPattern points) (valid : places.Valid) :
    tableLikeLoop steps (encodeText values) (encodeText points) places.bytes =
      greedy steps (likeElements points) values places.retry := by
  induction steps generalizing values points places with
  | zero =>
    rcases values with _ | ⟨value, values⟩
    · simp [tableLikeLoop, greedy, trailing_eq isPattern.scalars]
    obtain ⟨first, following, isEncoding, -⟩ :=
      utf8Encode_shape (areValues value mem_cons_self)
    rw [encodeText_cons, isEncoding]
    rfl
  | succ steps ih =>
    rcases values with _ | ⟨value, values⟩
    · simp [tableLikeLoop, greedy, trailing_eq isPattern.scalars]
    obtain ⟨isValue, others⟩ := forall_mem_cons.mp areValues
    have nonempty : encodeText (value :: values) ≠ [] := by simp [utf8Encode_ne_nil]
    obtain ⟨isCodepoint, isAfter⟩ := codepoint_encode isValue
      (head?_encodeText_continuation others)
    have literal {point : Nat} {rest : List Nat} (isPoint : IsScalar point)
        (isRest : IsPattern rest) :
        (if utf8Encode point = codepoint (encodeText (value :: values)) then
          tableLikeLoop steps (afterCodepoint (encodeText (value :: values)))
            (encodeText rest) places.bytes
        else goBack steps places.bytes) =
          greedy (steps + 1) (.literal point :: likeElements rest) (value :: values)
            places.retry := by
      rw [encodeText_cons, isCodepoint, isAfter, goBack_eq valid ih, ih others isRest valid]
      by_cases same : point = value
      · rw [if_pos ((utf8Encode_inj isPoint isValue).mpr same),
          greedy_fits (by simpa [Element.fits] using same)]
      · rw [if_neg (mt (utf8Encode_inj isPoint isValue).mp same),
          greedy_stuck ⟨by simp, by simpa [Element.fits] using same⟩]
    rw [tableLikeLoop_cons nonempty]
    cases points with
    | nil =>
      rw [show likeElements [] = [] from rfl, greedy_stuck ⟨by simp, rfl⟩, ← goBack_eq valid ih]
      rfl
    | cons point points =>
      obtain ⟨isPoint, areOthers⟩ := forall_mem_cons.mp isPattern.scalars
      have isHead (special : UInt8) (small : special.toNat < 0x80) :
          (encodeText (point :: points)).head? = some special ↔ point = special.toNat :=
        head?_encode isPoint small
      by_cases isPercent : point = '%'.toNat
      · subst isPercent
        have isRest := isPattern.tail (by decide)
        rw [if_pos ((isHead (code '%') (by decide)).mpr rfl), likeElements_percent]
        exact @ih (value :: values) points (some (points, value :: values)) areValues
          isRest fun _ isPlace => Option.some.inj isPlace ▸ ⟨isRest, areValues⟩
      by_cases isUnderscore : point = '_'.toNat
      · subst isUnderscore
        rw [if_neg (mt (isHead (code '%') (by decide)).mp (by decide)),
          if_pos ((isHead (code '_') (by decide)).mpr rfl), likeElements_underscore,
          greedy_fits (show Element.fits .one value = true from rfl),
          ← ih others (isPattern.tail (by decide)) valid, encodeText_cons value, isAfter]
        rfl
      rw [if_neg (mt (isHead (code '%') (by decide)).mp isPercent),
        if_neg (mt (isHead (code '_') (by decide)).mp isUnderscore)]
      by_cases isBackslash : point = '\\'.toNat
      · subst isBackslash
        obtain ⟨next, rest, rfl, isRest⟩ := isPattern.escaped
        obtain ⟨isNext, areOthers⟩ := forall_mem_cons.mp areOthers
        rw [likeElements_escaped, ← literal isNext isRest,
          ← loop_literal isNext (head?_encodeText_continuation areOthers)]
        rfl
      rw [likeElements_plain isPercent isUnderscore isBackslash,
        ← literal isPoint (isPattern.tail isBackslash),
        ← loop_literal isPoint (head?_encodeText_continuation areOthers),
        if_neg (mt (isHead (code '\\') (by decide)).mp isBackslash)]
      rfl

end Loop

/-! ## Whole texts -/

theorem length_likeElements_le (points : List Nat) :
    (likeElements points).length ≤ points.length := by
  fun_induction likeElements points with
  | case1 | case2 => simp
  | case3 next rest ih | case4 next rest _ ih | case6 point next rest _ _ _ ih => simpa using ih
  | case5 next rest _ _ ih =>
    simp only [length_cons] at ih ⊢
    omega

theorem length_le_encodeText (points : List Nat) : points.length ≤ (encodeText points).length := by
  induction points with
  | nil => simp
  | cons point points ih =>
    have positive := length_pos_iff.mpr (utf8Encode_ne_nil point)
    simp [encodeText_cons]
    omega

theorem isPattern_of_valid {pattern : Bytes} (valid : tablePatternValid (some pattern) = true) :
    ∃ points, pattern = encodeText points ∧ IsPattern points := by
  simp only [tablePatternValid, Bool.and_eq_true, Bool.not_eq_true'] at valid
  obtain ⟨⟨-, isText⟩, complete⟩ := valid
  obtain ⟨points, rfl, scalars⟩ := utf8CodePointCount_isSome.mp isText
  exact ⟨points, rfl, scalars, complete⟩

theorem tableLikeRun_encodeText {letters points}
    (areLetters : ∀ letter ∈ letters, IsScalar letter) (isPattern : IsPattern points) :
    ∃ answer, tableLikeRun (encodeText letters) (some (encodeText points)) = some answer ∧
      (answer = true ↔ Matches (likeElements points) letters) := by
  have isRun : tableLikeRun (encodeText letters) (some (encodeText points)) =
      greedy (greedySteps (encodeText points).length (encodeText letters).length)
        (likeElements points) letters none :=
    @tableLikeLoop_eq _ letters points none areLetters isPattern (by rintro _ (_ | _))
  have enough : greedySteps (likeElements points).length letters.length ≤
      greedySteps (encodeText points).length (encodeText letters).length := by
    have shorter := (length_likeElements_le points).trans (length_le_encodeText points)
    have fewer := length_le_encodeText letters
    exact Nat.mul_le_mul (by omega) (by omega)
  rw [isRun]
  exact greedy_decides enough

theorem tableLike_eq_true_iff {value pattern}
    (isText : (utf8CodePointCount value).isSome = true) (valid : tablePatternValid pattern = true) :
    tableLike value pattern = true ↔ Like value pattern := by
  rcases pattern with _ | pattern
  · simp [tableLikeRun, tableLike, Like]
  obtain ⟨letters, rfl, areLetters⟩ := utf8CodePointCount_isSome.mp isText
  obtain ⟨points, rfl, isPattern⟩ := isPattern_of_valid valid
  obtain ⟨answer, returns, decides⟩ := tableLikeRun_encodeText areLetters isPattern
  have decoded := utf8CodePoints_eq_some_iff.mpr ⟨rfl, areLetters⟩
  have isPoints := utf8CodePoints_eq_some_iff.mpr ⟨rfl, isPattern.scalars⟩
  rw [tableLike, returns]
  simpa [Like, decoded, isPoints] using decides

/-- For a text and a valid pattern, `table_like` returns, and says whether the text matches. -/
theorem tableLike_iff (value : Bytes) (pattern : Option Bytes)
    (isText : (utf8CodePointCount value).isSome = true) (valid : tablePatternValid pattern = true) :
    (tableLikeRun value pattern).isSome = true ∧
      (tableLike value pattern = true ↔ Like value pattern) := by
  refine ⟨?_, tableLike_eq_true_iff isText valid⟩
  rcases pattern with _ | pattern
  · rfl
  obtain ⟨letters, rfl, areLetters⟩ := utf8CodePointCount_isSome.mp isText
  obtain ⟨points, rfl, isPattern⟩ := isPattern_of_valid valid
  obtain ⟨answer, returns, -⟩ := tableLikeRun_encodeText areLetters isPattern
  rw [returns]
  rfl

theorem tableLike_iff_escaped :
    (tableLikeRun (ascii "a" ++ [0xc3, 0xa9] ++ ascii "_cbc") (some (ascii "%_\\_%bc"))).isSome =
        true ∧
      (tableLike (ascii "a" ++ [0xc3, 0xa9] ++ ascii "_cbc") (some (ascii "%_\\_%bc")) = true ↔
        Like (ascii "a" ++ [0xc3, 0xa9] ++ ascii "_cbc") (some (ascii "%_\\_%bc"))) :=
  tableLike_iff _ _ (by decide) (by decide)

end Odbcpp.Postgres.Redshift
