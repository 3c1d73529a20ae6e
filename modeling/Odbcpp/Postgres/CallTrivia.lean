import Odbcpp.Postgres.CallArguments
import Odbcpp.Postgres.MarkerRewriting
import Odbcpp.Util.CodePoints

/-!
# Trivia of a call

The dialect finds the lexical bodies of the grammar, and `skip_trivia` goes over segments that are
blank space or closed comments.
-/

namespace Odbcpp.Postgres

open Foundation Util Dialect List Option

/-! ## Segments -/

def SqlSegment.bytes : SqlSegment → Bytes
  | .plain byte => [byte]
  | .body bytes => bytes

def spell (segments : List SqlSegment) : Bytes := segments.flatMap SqlSegment.bytes

@[simp] theorem spell_nil : spell [] = [] := rfl

@[simp] theorem spell_plain (byte : UInt8) (segments : List SqlSegment) :
    spell (.plain byte :: segments) = byte :: spell segments :=
  rfl

@[simp] theorem spell_body (bytes : Bytes) (segments : List SqlSegment) :
    spell (.body bytes :: segments) = bytes ++ spell segments :=
  rfl

@[simp] theorem spell_append (first second : List SqlSegment) :
    spell (first ++ second) = spell first ++ spell second :=
  flatMap_append

namespace SqlSegments

variable {before text : Bytes} {segments first second : List SqlSegment}

theorem text_eq (divided : SqlSegments before text segments) : text = spell segments := by
  induction divided with
  | nil => rfl
  | body _ _ ih => rw [spell_body, ← ih]
  | plain _ _ ih => rw [spell_plain, ← ih]

theorem eq_nil (divided : SqlSegments before [] segments) : segments = [] := by
  generalize isText : ([] : Bytes) = text at divided
  cases divided with
  | nil => rfl
  | body isBody => simp [isBody.ne_nil] at isText
  | plain => cases isText

theorem drop (divided : SqlSegments before text (first ++ second)) :
    SqlSegments ((spell first).reverse ++ before) (spell second) second := by
  induction first generalizing before text with
  | nil => exact divided.text_eq ▸ divided
  | cons segment first ih =>
    cases divided with
    | body _ later | plain _ later => simpa using ih later

theorem tail {segment} (divided : SqlSegments before text (segment :: segments)) :
    SqlSegments (segment.bytes.reverse ++ before) (spell segments) segments := by
  simpa [spell] using @drop before text [segment] segments divided

theorem isBody {bytes : Bytes} (divided : SqlSegments before text (.body bytes :: segments)) :
    Body before bytes (spell segments) := by
  cases divided with
  | body isBody later => exact later.text_eq ▸ isBody

theorem bytes_ne_nil {segment}
    (divided : SqlSegments before text (segment :: segments)) : segment.bytes ≠ [] := by
  cases divided with
  | plain => simp [SqlSegment.bytes]
  | body isBody => exact isBody.ne_nil

theorem outside {byte : UInt8} (divided : SqlSegments before text (.plain byte :: segments)) :
    ∀ bytes more, bytes ++ more = byte :: spell segments → ¬Body before bytes more := by
  cases divided with
  | plain outside later => exact later.text_eq ▸ outside

end SqlSegments

/-! ## Places -/

section Places

variable {before rest : Bytes} {ch : UInt8}

/-- The dialect sees a body wherever the grammar has one; one that is not closed goes to the end
of the text. -/
theorem bodyLength_eq_lexicalBody (before : Bytes) (ch : UInt8) (rest : Bytes) :
    bodyLength before ch rest =
      (lexicalBody before ch rest).map fun closed => closed.getD (rest.length + 1) := by
  have quoted (quote : UInt8) (escapes : Bool) :
      (quotedBody escapes quote rest).getD rest.length + 1 =
        ((quotedBody escapes quote rest).map (· + 1)).getD (rest.length + 1) := by
    cases quotedBody escapes quote rest <;> rfl
  by_cases isSingle : ch = 39
  · subst isSingle
    rw [bodyLength, if_pos rfl, quoted, ← escapeStringAt_eq]
    rfl
  by_cases isDouble : ch = code '"'
  · subst isDouble
    rw [bodyLength, if_neg (by decide), if_pos rfl, quoted]
    rfl
  have notQuote : (ch = 39 || ch = code '"') = false := by simp [isSingle, isDouble]
  by_cases isLine : ch = code '-' ∧ rest.head? = some (code '-')
  · obtain ⟨rfl, isNext⟩ := isLine
    obtain ⟨more, rfl⟩ := List.head?_eq_some_iff.mp isNext
    rfl
  by_cases isBlock : ch = code '/' ∧ rest.head? = some (code '*')
  · obtain ⟨rfl, isNext⟩ := isBlock
    obtain ⟨more, rfl⟩ := List.head?_eq_some_iff.mp isNext
    have block : lexicalBody before (code '/') (code '*' :: more) =
        some ((blockBody 1 more).map (· + 2)) := rfl
    have isLength : bodyLength before (code '/') (code '*' :: more) =
        some ((blockBody 1 more).getD more.length + 2) := rfl
    rw [block, isLength]
    cases blockBody 1 more <;> rfl
  have notComment : opensComment (ch :: rest) = false := by
    rw [Bool.eq_false_iff, Ne, opensComment_iff]
    rintro (line | block)
    · exact isLine line
    · exact isBlock block
  simp only [bodyLength, lexicalBody, if_neg isSingle, if_neg isDouble, if_neg isLine,
    if_neg isBlock, notQuote, notComment, Bool.false_eq_true, if_false]
  by_cases isDollar : ch = code '$'
  · subst isDollar
    cases apart : before.head?.any isIdentifierContinue with
    | true => simp [dollarTagAt_eq, apart]
    | false =>
      have isTagAt : dollarTagAt before (code '$' :: rest) = dollarDelimiter rest := by
        rw [dollarTagAt_eq, apart]
        rfl
      rcases isDelimiter : dollarDelimiter rest with _ | delimiter
      · simp [isTagAt, isDelimiter]
      obtain ⟨name, more, rfl, rfl⟩ := dollarDelimiter_eq_some isDelimiter
      have isText : code '$' :: (name ++ code '$' :: more) =
          (code '$' :: (name ++ [code '$'])) ++ more := by simp
      have isRest : name ++ code '$' :: more = (name ++ [code '$']) ++ more := by simp
      have dropped : (name ++ code '$' :: more).drop
          ((code '$' :: (name ++ [code '$'])).length - 1) = more := by
        rw [isRest]
        exact drop_left
      have tail : (code '$' :: (name ++ code '$' :: more)).drop
          (code '$' :: (name ++ [code '$'])).length = more := by
        rw [isText]
        exact drop_left
      simp only [isTagAt, isDelimiter, dollarEnd, dropped, tail, bind_some,
        map_some, isSome_some, decide_true, Bool.and_self, Bool.not_false,
        if_true, true_and]
      cases find (code '$' :: (name ++ [code '$'])) more <;> simp <;> omega
  · simp [isDollar]

/-- At a byte of ordinary text no body opens. -/
theorem lexicalBody_eq_none
    (outside : ∀ bytes more, bytes ++ more = ch :: rest → ¬Body before bytes more) :
    lexicalBody before ch rest = none := by
  rcases place_cases before ch rest with ⟨bytes, more, place⟩ | ⟨isNone, -⟩
  · exact absurd place.isBody (outside bytes more place.text.symm)
  · rw [bodyLength_eq_lexicalBody] at isNone
    exact map_eq_none_iff.mp isNone

/-- A body is found with its end, unless the text ends in it. -/
theorem lexicalBody_of_body {bytes more : Bytes} (isBody : Body before bytes more) :
    ∃ ch rest, bytes ++ more = ch :: rest ∧
      (lexicalBody before ch rest = some (some bytes.length) ∨
        lexicalBody before ch rest = some none ∧ more = []) := by
  obtain ⟨ch, rest, same, isLength⟩ := isBody.length_eq
  refine ⟨ch, rest, same, ?_⟩
  rw [bodyLength_eq_lexicalBody, map_eq_some_iff] at isLength
  obtain ⟨closed, isClosed, isLength⟩ := isLength
  cases closed with
  | some size => exact .inl (by rw [isClosed, ← isLength]; rfl)
  | none =>
    refine .inr ⟨isClosed, length_eq_zero_iff.mp ?_⟩
    have whole := congrArg List.length same
    rw [length_append, ← isLength] at whole
    simpa using whole

end Places

/-! ## Trivia -/

/-- Blank space, or a comment that is closed; the end of the text closes a line comment too. -/
inductive Trivia : SqlSegment → Prop where
  | space {byte} (isBlank : isSpace byte = true) : Trivia (.plain byte)
  | line {content} : Trivia (.body (code '-' :: code '-' :: content))
  | comment {content} (closed : CommentText 1 content 0) :
      Trivia (.body (code '/' :: code '*' :: content))

variable {ch : UInt8} {rest text before follows : Bytes} {size : Nat} {segment : SqlSegment}
  {segments more : List SqlSegment}

theorem commentEnd_pos (isEnd : commentEnd text = some size) : 2 ≤ size := by
  unfold commentEnd at isEnd
  split at isEnd
  · cases isEnd
    omega
  split at isEnd
  · obtain ⟨inner, -, rfl⟩ := map_eq_some_iff.mp isEnd
    omega
  · cases isEnd

theorem isSpace_iff (letter : UInt8) : isSpace letter =
    (letter = code ' ' || letter = 9 || letter = 13 || letter = 10 || letter = 12 ||
      letter = 11) := by
  revert letter
  exact forall_byte (by decide +kernel)

/-- More iterations than bytes change nothing. -/
theorem skipTriviaWithin_eq {steps : Nat} (enough : text.length ≤ steps) :
    skipTriviaWithin steps text = skipTrivia text := by
  suffices same : ∀ {steps others : Nat} {text : Bytes}, text.length ≤ steps →
      text.length ≤ others → skipTriviaWithin steps text = skipTriviaWithin others text from
    same enough le_rfl
  intro steps
  induction steps with
  | zero =>
    intro others text enough _
    obtain rfl := length_eq_zero_iff.mp (Nat.le_zero.mp enough)
    cases others <;> rfl
  | succ steps ih =>
    intro others text enough enoughOthers
    rcases text with _ | ⟨ch, rest⟩
    · cases others <;> rfl
    obtain ⟨others, rfl⟩ : ∃ fewer, others = fewer + 1 :=
      Nat.exists_eq_add_one.mpr (by simp at enoughOthers; omega)
    rw [length_cons] at enough enoughOthers
    have onward : ∀ {size}, commentEnd (ch :: rest) = some size →
        skipTriviaWithin steps ((ch :: rest).drop size) =
          skipTriviaWithin others ((ch :: rest).drop size) := by
      intro size isEnd
      have positive := commentEnd_pos isEnd
      refine ih ?_ ?_ <;> rw [length_drop, length_cons] <;> omega
    rw [skipTriviaWithin, skipTriviaWithin]
    split
    · rw [@ih others rest (by omega) (by omega)]
    split
    · cases isEnd : commentEnd (ch :: rest) with
      | none => rfl
      | some size =>
        simp only [bind_some]
        rw [onward isEnd]
    · rfl

@[simp] theorem skipTrivia_nil : skipTrivia [] = some 0 := rfl

theorem skipTrivia_space (isBlank : isSpace ch = true) :
    skipTrivia (ch :: rest) = (skipTrivia rest).map (· + 1) := by
  rw [isSpace_iff] at isBlank
  rw [skipTrivia, length_cons, skipTriviaWithin]
  simp [isBlank, skipTrivia]

theorem not_isSpace_of_opensComment (isComment : opensComment (ch :: rest) = true) :
    isSpace ch = false := by
  rw [opensComment_iff] at isComment
  rcases isComment with ⟨rfl, -⟩ | ⟨rfl, -⟩ <;> decide

theorem skipTrivia_comment (isComment : opensComment text = true) :
    skipTrivia text = (commentEnd text).bind fun size =>
      (skipTrivia (text.drop size)).map (· + size) := by
  rcases text with _ | ⟨ch, rest⟩
  · cases isComment
  have notBlank := not_isSpace_of_opensComment isComment
  rw [isSpace_iff] at notBlank
  rw [skipTrivia, length_cons, skipTriviaWithin]
  simp only [notBlank, isComment, if_true, Bool.false_eq_true, if_false]
  rcases isEnd : commentEnd (ch :: rest) with _ | size
  · rfl
  have positive := commentEnd_pos isEnd
  have shorter : ((ch :: rest).drop size).length ≤ rest.length := by
    rw [length_drop, length_cons]
    omega
  rw [bind_some, bind_some, skipTriviaWithin_eq shorter]

theorem skipTrivia_other (notBlank : isSpace ch = false)
    (notComment : opensComment (ch :: rest) = false) : skipTrivia (ch :: rest) = some 0 := by
  rw [isSpace_iff] at notBlank
  rw [skipTrivia, length_cons, skipTriviaWithin]
  simp [notBlank, notComment]

/-- A line comment of a text ends where its segment ends, also in a shorter text. -/
theorem lineBody_of_body {before content rest follows : Bytes}
    (isBody : Body before (code '-' :: code '-' :: content) rest) (within : follows <+: rest) :
    lineBody (content ++ follows) = content.length := by
  generalize isBytes : code '-' :: code '-' :: content = bytes at isBody
  cases isBody with
  | line inner isBreak =>
    obtain rfl : content = _ := by simpa using isBytes
    rw [append_assoc]
    simpa using lineBody_break inner isBreak
  | lastLine inner =>
    obtain rfl : content = _ := by simpa using isBytes
    obtain rfl := prefix_nil.mp within
    rw [append_nil, lineBody_last inner]
  | quoted quotes | openQuoted quotes => cases quotes <;> simp [code] at isBytes
  | danglingEscape quotes =>
    cases quotes
    simp [code] at isBytes
  | comment | openComment => simp [code] at isBytes
  | dollar | openDollar => simp [code, delimiterOfTag] at isBytes

theorem skipTrivia_trivia (divided : SqlSegments before text (segment :: more))
    (isTrivia : Trivia segment) (within : follows <+: spell more) :
    skipTrivia (segment.bytes ++ follows) =
      (skipTrivia follows).map (· + segment.bytes.length) := by
  cases isTrivia with
  | space isBlank => exact skipTrivia_space isBlank
  | @line content =>
    cases divided with
    | body isBody later =>
      have isEnd : commentEnd (code '-' :: code '-' :: (content ++ follows)) =
          some (content.length + 2) := by
        rw [← lineBody_of_body isBody (later.text_eq ▸ within)]
        rfl
      rw [SqlSegment.bytes, cons_append, cons_append, skipTrivia_comment rfl, isEnd]
      simp
  | @comment content closed =>
    have isEnd : commentEnd (code '/' :: code '*' :: (content ++ follows)) =
        some (content.length + 2) := by
      have inner := blockBody_closed closed rfl (by omega) follows
      show (blockBody 1 (content ++ follows)).map (· + 2) = _
      rw [inner]
      rfl
    rw [SqlSegment.bytes, cons_append, cons_append, skipTrivia_comment rfl, isEnd]
    simp

theorem skipTrivia_stops (divided : SqlSegments before text (segment :: more))
    (notTrivia : ¬Trivia segment) (within : follows <+: spell more) :
    skipTrivia (segment.bytes ++ follows) = some 0 ∨
      skipTrivia (segment.bytes ++ follows) = none ∧ more = [] := by
  have stops {ch : UInt8} (rest : Bytes) (notBlank : isSpace ch = false) (notDash : ch ≠ code '-')
      (notSlash : ch ≠ code '/') : skipTrivia (ch :: rest) = some 0 := by
    refine skipTrivia_other notBlank ?_
    rw [Bool.eq_false_iff, Ne, opensComment_iff]
    rintro (⟨isDash, -⟩ | ⟨isSlash, -⟩)
    · exact notDash isDash
    · exact notSlash isSlash
  cases divided with
  | @plain _ rest byte _ outside later =>
    refine .inl (skipTrivia_other ?_ ?_)
    · rw [Bool.eq_false_iff]
      exact fun isBlank => notTrivia (.space isBlank)
    -- A comment of the shorter text would be one of the text itself.
    rw [Bool.eq_false_iff]
    intro isComment
    have isNone := lexicalBody_eq_none outside
    have opens : opensComment (byte :: rest) = true := by
      obtain ⟨tail, isRest⟩ := within
      rw [opensComment_iff] at isComment ⊢
      rw [later.text_eq, ← isRest]
      cases follows with
      | nil => simp at isComment
      | cons next follows => simpa using isComment
    unfold lexicalBody at isNone
    split at isNone
    · cases isNone
    · simp [opens] at isNone
  | @body _ bytes rest _ isBody later =>
    cases isBody with
    | quoted quotes => cases quotes <;> exact .inl (stops _ (by decide) (by decide) (by decide))
    | openQuoted quotes =>
      cases quotes <;> exact .inl (stops _ (by decide) (by decide) (by decide))
    | danglingEscape quotes =>
      cases quotes
      exact .inl (stops _ (by decide) (by decide) (by decide))
    | line | lastLine => exact absurd .line notTrivia
    | comment isContent => exact absurd (.comment isContent) notTrivia
    | @openComment content depth isContent =>
      obtain rfl : follows = [] := prefix_nil.mp (later.text_eq ▸ within)
      have isNone : commentEnd (code '/' :: code '*' :: content) = none := by
        show (blockBody 1 content).map (· + 2) = none
        rw [blockBody_open isContent (by omega)]
        rfl
      refine .inr ⟨?_, later.eq_nil⟩
      rw [SqlSegment.bytes, append_nil, skipTrivia_comment rfl, isNone]
      rfl
    | dollar | openDollar => exact .inl (stops _ (by decide) (by decide) (by decide))

theorem skipTrivia_eq_length_iff (divided : SqlSegments before text (segments ++ more)) :
    skipTrivia (spell segments) = some (spell segments).length ↔
      ∀ segment ∈ segments, Trivia segment := by
  induction segments generalizing before text with
  | nil => simp
  | cons segment segments ih =>
    have within : spell segments <+: spell (segments ++ more) := by simp
    have bytes : spell (segment :: segments) = segment.bytes ++ spell segments := rfl
    have later := ih divided.tail
    rw [forall_mem_cons, ← later, bytes]
    by_cases isTrivia : Trivia segment
    · rw [skipTrivia_trivia divided isTrivia within]
      cases skipTrivia (spell segments) with
      | none => simp
      | some size =>
        simp [isTrivia]
        omega
    have nonempty : 0 < segment.bytes.length := length_pos_iff.mpr divided.bytes_ne_nil
    simp only [isTrivia, false_and, iff_false]
    rcases skipTrivia_stops divided isTrivia within with stops | ⟨fails, -⟩
    · rw [stops, length_append]
      intro same
      have zero := Option.some.inj same
      omega
    · simp [fails]

theorem skipTrivia_ne_none
    (divided : SqlSegments before text (segments ++ more)) (goesOn : more ≠ []) :
    skipTrivia (spell segments) ≠ none := by
  induction segments generalizing before text with
  | nil => simp
  | cons segment segments ih =>
    have within : spell segments <+: spell (segments ++ more) := by simp
    have bytes : spell (segment :: segments) = segment.bytes ++ spell segments := rfl
    have later := ih divided.tail
    rw [bytes]
    by_cases isTrivia : Trivia segment
    · rw [skipTrivia_trivia divided isTrivia within]
      simpa using later
    rcases skipTrivia_stops divided isTrivia within with stops | ⟨-, isLast⟩
    · simp [stops]
    · simp [goesOn] at isLast

end Odbcpp.Postgres
