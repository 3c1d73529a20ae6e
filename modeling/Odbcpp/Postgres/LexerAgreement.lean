import Odbcpp.Postgres.LexicalBodies

/-!
# Agreement of the lexers

The walk of `translate_fragment` and the marker scanner take the same bytes for parts of
lexical bodies.
-/

namespace Odbcpp.Postgres

open Foundation Util Dialect List

variable {body : LexicalBody} {before text rest : Bytes} {ch : UInt8}

variable {extra : Bytes} {kind : LexicalBody → Prop} {quote : UInt8}

/-! ## A byte of ordinary text -/

/-- A body opens: both lexers go to the same place, if there is one. -/
structure Opening (before : Bytes) (ch : UInt8) (extra rest : Bytes)
    (kind : LexicalBody → Prop) (body : LexicalBody) (found : Option Nat) : Prop where
  within : ∀ {body}, kind body → body ≠ .normal
  isKind : kind body
  isOpen : found = none → ∀ {body}, kind body → body.mayEnd = false
  lexeme : nextLexeme .normal before ch (extra ++ rest) = ⟨extra.length + 1, false, body⟩
  ends : Ends kind body ((ch :: extra).reverse ++ before) rest found
  walk : skipped before ch (extra ++ rest) = found.map (· + (extra.length + 1))

/-- What both lexers do at a byte of ordinary text. -/
inductive Meets (before : Bytes) (ch : UInt8) (rest : Bytes) : Prop where
  | opens {extra more kind body found} (isRest : rest = extra ++ more)
      (opening : Opening before ch extra more kind body found)
  /-- A line comment to the end of the text. -/
  | comment {more} (isRest : rest = code '-' :: more)
      (lexeme : nextLexeme .normal before ch rest = ⟨2, false, .lineComment⟩)
      (stays : Stays (· = .lineComment) .lineComment (code '-' :: ch :: before) more)
      (walk : skipped before ch rest = some (rest.length + 1))
  | plain {marker} (lexeme : nextLexeme .normal before ch rest = ⟨1, marker, .normal⟩)
      (walk : skipped before ch rest = none)

theorem meets_quote {escapeString : Bool} (quoting : Quoting body quote escapeString)
    (isOpen : body.mayEnd = false)
    (lexeme : nextLexeme .normal before quote rest = ⟨1, false, body⟩)
    (walk : skipped before quote rest = (quotedBody escapeString quote rest).map (· + 1)) :
    Meets before quote rest := by
  refine @Meets.opens _ _ _ [] rest (· = body) body _ rfl
    ⟨?_, rfl, fun _ {_} isBody => isBody ▸ isOpen, lexeme, quoting.ends, walk⟩
  rintro _ rfl rfl
  cases isOpen

theorem take_two_eq {first second : UInt8} :
    (ch :: rest).take 2 = [first, second] ↔ ch = first ∧ rest.head? = some second := by
  cases rest <;> simp

theorem opensComment_iff : opensComment (ch :: rest) = true ↔
    (ch = code '-' ∧ rest.head? = some (code '-')) ∨
      (ch = code '/' ∧ rest.head? = some (code '*')) := by
  have line : ascii "--" = [code '-', code '-'] := rfl
  have block : ascii "/*" = [code '/', code '*'] := rfl
  simp only [opensComment, line, block, take_two_eq, Bool.or_eq_true, decide_eq_true_eq]

theorem skipped_quote (isQuote : quote = 39 ∨ quote = code '"') :
    skipped before quote rest = quotedEnd before (quote :: rest) := by
  have notComment : opensComment (quote :: rest) = false := by
    rw [Bool.eq_false_iff, Ne, opensComment_iff]
    rintro (⟨rfl, -⟩ | ⟨rfl, -⟩) <;> exact absurd isQuote (by decide)
  have notDollar : quote ≠ code '$' := by rcases isQuote with rfl | rfl <;> decide
  have isQuote : (quote = 39 || quote = code '"') = true := by simpa using isQuote
  simp only [skipped, isQuote, if_true, notComment, notDollar]
  cases quotedEnd before (quote :: rest) <;> rfl

theorem meets_single : Meets before 39 rest := by
  have walk : skipped before 39 rest =
      (quotedBody (opensEscapeString before) 39 rest).map (· + 1) := by
    rw [skipped_quote (.inl rfl)]
    simp [quotedEnd, escapeStringAt_eq]
  cases isEscape : opensEscapeString before with
  | true =>
    rw [isEscape] at walk
    refine meets_quote quoting_escape rfl ?_ walk
    simp [nextLexeme, normalLexeme, isEscape]
    decide
  | false =>
    rw [isEscape] at walk
    refine meets_quote quoting_single rfl ?_ walk
    simp [nextLexeme, normalLexeme, isEscape]
    decide

theorem meets_double : Meets before (code '"') rest := by
  refine meets_quote quoting_double rfl rfl ?_
  rw [skipped_quote (.inr rfl)]
  rfl

theorem skipped_comment (isComment : opensComment (ch :: rest) = true) :
    skipped before ch rest = commentEnd (ch :: rest) := by
  have notQuote : (ch = 39 || ch = code '"') = false := by
    rcases opensComment_iff.mp isComment with ⟨rfl, -⟩ | ⟨rfl, -⟩ <;> decide
  have notDollar : ch ≠ code '$' := by
    rcases opensComment_iff.mp isComment with ⟨rfl, -⟩ | ⟨rfl, -⟩ <;> decide
  simp only [skipped, notQuote, isComment, notDollar]
  cases commentEnd (ch :: rest) <;> rfl

theorem meets_line : Meets before (code '-') (code '-' :: rest) := by
  have isComment : opensComment (code '-' :: code '-' :: rest) = true :=
    opensComment_iff.mpr (.inl ⟨rfl, rfl⟩)
  have walk : skipped before (code '-') (code '-' :: rest) = some (lineBody rest + 2) :=
    skipped_comment isComment
  have lexeme : nextLexeme .normal before (code '-') (code '-' :: rest) =
      ⟨2, false, .lineComment⟩ := rfl
  rcases line_cases rest with ⟨line, lineBreak, more, rfl, within, isBreak, isBody⟩ |
    ⟨within, isBody⟩
  · refine @Meets.opens _ _ _ [code '-'] _ (· = .lineComment) .lineComment
      (some (line.length + 1)) rfl
      ⟨by simp, rfl, by simp, lexeme, ?_, by rw [← isBody]; exact walk⟩
    exact lineComment_closes within isBreak
  · exact .comment rfl lexeme (lineComment_stays within) (by rw [walk, isBody]; rfl)

theorem meets_block : Meets before (code '/') (code '*' :: rest) := by
  have isComment : opensComment (code '/' :: code '*' :: rest) = true :=
    opensComment_iff.mpr (.inr ⟨rfl, rfl⟩)
  have walk : skipped before (code '/') (code '*' :: rest) = (blockBody 1 rest).map (· + 2) :=
    skipped_comment isComment
  refine @Meets.opens _ _ _ [code '*'] _ (fun body => ∃ depth, body = .blockComment depth)
    (.blockComment 1) _ rfl
    ⟨?_, ⟨1, rfl⟩, ?_, rfl, blockComment_ends Nat.one_pos, walk⟩
  · rintro _ ⟨depth, rfl⟩
    simp
  · rintro - _ ⟨depth, rfl⟩
    rfl

theorem dollarDelimiter_eq_some {delimiter : Bytes}
    (found : dollarDelimiter rest = some delimiter) : ∃ name more, rest = name ++ code '$' :: more ∧
      delimiter = code '$' :: (name ++ [code '$']) := by
  by_cases present : code '$' ∈ rest
  · obtain ⟨name, more, rfl, free⟩ := eq_append_cons_of_mem present
    rw [dollarDelimiter_name free] at found
    split at found
    · exact ⟨name, more, rfl, (Option.some.inj found).symm⟩
    · cases found
  · rw [dollarDelimiter_of_notMem present] at found
    cases found

theorem skipped_dollar : skipped before (code '$') rest = dollarEnd before (code '$' :: rest) := by
  have notComment : opensComment (code '$' :: rest) = false := by
    rw [Bool.eq_false_iff, Ne, opensComment_iff]
    rintro (⟨isDash, -⟩ | ⟨isSlash, -⟩)
    · exact absurd isDash (by decide)
    · exact absurd isSlash (by decide)
  have notQuote : (code '$' = 39 || code '$' = code '"') = false := by decide
  simp only [skipped, notQuote, notComment, dollarEnd]
  cases dollarTagAt before (code '$' :: rest) <;> simp

/-- What the marker scanner does at a dollar sign of ordinary text. -/
theorem nextLexeme_dollar : nextLexeme .normal before (code '$') rest =
    if !(before.head?.any isIdentifierContinue) then
      match dollarDelimiter rest with
      | some delimiter => ⟨delimiter.length, false, .dollarQuote delimiter⟩
      | none => ⟨1, false, .normal⟩
    else ⟨1, false, .normal⟩ := by
  simp only [nextLexeme, normalLexeme]
  rw [if_neg (by decide), if_neg (by decide), if_neg fun isLine => absurd isLine.1 (by decide),
    if_neg fun isBlock => absurd isBlock.1 (by decide),
    if_neg (show ¬code '$' = code '?' by decide)]
  exact if_congr (by rw [true_and]) rfl rfl

theorem meets_dollar : Meets before (code '$') rest := by
  have lexeme := @nextLexeme_dollar before rest
  have walk := @skipped_dollar before rest
  rw [dollarEnd, dollarTagAt_eq] at walk
  cases joined : before.head?.any isIdentifierContinue with
  | true => exact .plain (by simpa [joined] using lexeme) (by simpa [joined] using walk)
  | false =>
    cases isDelimiter : dollarDelimiter rest with
    | none =>
      exact .plain (by simpa [joined, isDelimiter] using lexeme)
        (by simpa [joined, isDelimiter] using walk)
    | some delimiter =>
      obtain ⟨name, more, rfl, rfl⟩ := dollarDelimiter_eq_some isDelimiter
      rw [isDelimiter] at lexeme walk
      simp only [joined, Bool.not_false, if_true, Bool.false_eq_true, if_false] at lexeme walk
      refine @Meets.opens _ _ _ (name ++ [code '$']) more
        (· = .dollarQuote (code '$' :: (name ++ [code '$'])))
        (.dollarQuote (code '$' :: (name ++ [code '$'])))
        ((find (code '$' :: (name ++ [code '$'])) more).map
          (· + (code '$' :: (name ++ [code '$'])).length)) (by simp)
        ⟨by simp, rfl, ?_, by simpa using lexeme, dollarQuote_ends (by simp), ?_⟩
      · rintro - _ rfl
        rfl
      have dropped : (code '$' :: (name ++ code '$' :: more)).drop
          (code '$' :: (name ++ [code '$'])).length = more := by
        have isText : code '$' :: (name ++ code '$' :: more) =
          code '$' :: (name ++ [code '$']) ++ more := by simp
        rw [isText, List.drop_left]
      rw [Option.bind_some, dropped] at walk
      rw [List.append_assoc, List.singleton_append, walk, Option.map_map]
      congr 1
      funext size
      simp
      omega

theorem meets (before : Bytes) (ch : UInt8) (rest : Bytes) : Meets before ch rest := by
  by_cases isSingle : ch = 39
  · exact isSingle ▸ meets_single
  by_cases isDouble : ch = code '"'
  · exact isDouble ▸ meets_double
  by_cases isComment : opensComment (ch :: rest) = true
  · rcases opensComment_iff.mp isComment with ⟨rfl, isNext⟩ | ⟨rfl, isNext⟩
    · obtain ⟨more, rfl⟩ := List.head?_eq_some_iff.mp isNext
      exact meets_line
    · obtain ⟨more, rfl⟩ := List.head?_eq_some_iff.mp isNext
      exact meets_block
  by_cases isDollar : ch = code '$'
  · exact isDollar ▸ meets_dollar
  have noComment := isComment
  rw [opensComment_iff, not_or] at noComment
  refine @Meets.plain _ _ _ (ch = code '?') ?_ ?_
  · simp only [nextLexeme, normalLexeme, isSingle, isDouble, isDollar, noComment, if_false,
      false_and]
    split <;> simp_all
  · simp [skipped, isSingle, isDouble, isComment, isDollar]

/-! ## Whole texts -/

/-- The bytes of iterations within bodies are inside. -/
theorem positions_within {tokens}
    (inBody : ∀ token ∈ tokens, token.start ≠ .normal) :
    positions tokens = List.replicate (tokens.flatMap Token.taken).length true := by
  induction tokens with
  | nil => rfl
  | cons token tokens ih =>
    have isInside : inside token = true := by simp [inside, inBody token mem_cons_self]
    have rest := ih fun other present => inBody other (mem_cons_of_mem _ present)
    rw [positions_cons, isInside, rest, flatMap_cons, length_append, replicate_add]

theorem Opening.reads {closed found}
    (opening : Opening before ch extra (closed ++ rest) kind body found)
    (closes : Closes kind body ((ch :: extra).reverse ++ before) closed rest) :
    ∃ tokens, markerScanner.Reads .normal before (ch :: extra ++ closed ++ rest) tokens .normal
      ((ch :: extra ++ closed).reverse ++ before) rest ∧
      positions tokens = List.replicate (ch :: extra ++ closed).length true := by
  obtain ⟨tokens, reads, inBody⟩ := closes
  have first := markerScanner_piece opening.lexeme
  obtain ⟨isClosed, -⟩ := reads.text_eq
  refine ⟨_, by simpa using first.trans reads, ?_⟩
  have isInside : inside ⟨.normal, ch :: extra, ⟨extra.length + 1, false, body⟩⟩ = true := by
    simp [inside, opening.within opening.isKind]
  have within := fun token present => opening.within (inBody token present)
  rw [positions_cons, positions_within within, ← append_cancel_right isClosed, isInside,
    length_append, replicate_add]

/-- No opening brace stands outside of the lexical bodies. -/
def escapeFree (text : Bytes) (positions : List Bool) : Bool :=
  (text.zip positions).all fun (letter, isInside) => letter ≠ code '\x7b' || isInside

theorem escapeFree_append {first second ahead behind}
    (same : first.length = ahead.length) (free : escapeFree (first ++ second) (ahead ++ behind)) :
    escapeFree second behind = true := by
  rw [escapeFree, zip_append same, all_append, Bool.and_eq_true] at free
  exact free.2

theorem skippedFrom_skip {skipped : Bytes}
    (isStep : fragmentStep before ch (skipped ++ rest) = .skip (skipped.length + 1)) :
    skippedFrom before (ch :: (skipped ++ rest)) =
      List.replicate (skipped.length + 1) true ++
        skippedFrom ((ch :: skipped).reverse ++ before) rest := by
  have reads := @Scanner.Reads.piece _ _ _ fragmentScanner () _ _ _ _ _ isStep
    (by simp [fragmentScanner])
  rw [skippedFrom, reads.tokens_eq, flatMap_append, flatMap_singleton]
  rfl

theorem skippedFrom_copy (isStep : fragmentStep before ch rest = .copy) :
    skippedFrom before (ch :: rest) = false :: skippedFrom (ch :: before) rest := by
  have reads := @Scanner.Reads.piece _ _ _ fragmentScanner () before ch .copy [] rest isStep rfl
  rw [nil_append] at reads
  rw [skippedFrom, reads.tokens_eq]
  rfl

/-- From a place in ordinary text on, both lexers agree. -/
def Agree (before text : Bytes) : Prop :=
  (markerScanner.final .normal (markerScanner.tokens .normal before text)).mayEnd = true →
    escapeFree text (positions (markerScanner.tokens .normal before text)) = true →
    skippedFrom before text = positions (markerScanner.tokens .normal before text)

/-- A body that both lexers leave at the same place. -/
theorem Opening.agree {closed : Bytes}
    (opening : Opening before ch extra (closed ++ rest) kind body (some closed.length))
    (closes : Closes kind body ((ch :: extra).reverse ++ before) closed rest)
    (later : Agree ((ch :: extra ++ closed).reverse ++ before) rest) :
    Agree before (ch :: (extra ++ (closed ++ rest))) := by
  intro isTerminated free
  obtain ⟨tokens, reads, isInside⟩ := opening.reads closes
  have isStep : fragmentStep before ch ((extra ++ closed) ++ rest) =
      .skip ((extra ++ closed).length + 1) := by
    simp only [fragmentStep, append_assoc, opening.walk]
    simp
    omega
  have isText : ch :: (extra ++ (closed ++ rest)) = ch :: extra ++ closed ++ rest := by simp
  rw [isText] at isTerminated free
  rw [isText, reads.tokens_eq, positions_append, isInside]
  rw [reads.tokens_eq, positions_append, isInside] at free
  rw [reads.final_eq] at isTerminated
  rw [← later isTerminated (escapeFree_append (by simp) free)]
  simpa using skippedFrom_skip isStep

theorem Opening.agree_open (opening : Opening before ch extra rest kind body none) :
    Agree before (ch :: (extra ++ rest)) := by
  intro isTerminated
  obtain ⟨tokens, last, reads, -, isKind⟩ := opening.ends
  have whole := (markerScanner_piece opening.lexeme).trans reads
  rw [whole.final_eq] at isTerminated
  simp [Scanner.final, opening.isOpen rfl isKind] at isTerminated

theorem agree_comment
    (lexeme : nextLexeme .normal before ch (code '-' :: rest) = ⟨2, false, .lineComment⟩)
    (stays : Stays (· = .lineComment) .lineComment (code '-' :: ch :: before) rest)
    (walk : skipped before ch (code '-' :: rest) = some ((code '-' :: rest).length + 1)) :
    Agree before (ch :: code '-' :: rest) := by
  intro _ _
  obtain ⟨tokens, last, reads, inBody, -⟩ := stays
  have whole := (@markerScanner_piece _ _ _ _ [code '-'] _ _ lexeme).trans reads
  have isTokens : markerScanner.tokens .normal before (ch :: code '-' :: rest) = _ :=
    whole.tokens_eq
  have isStep : fragmentStep before ch ((code '-' :: rest) ++ []) =
      .skip ((code '-' :: rest).length + 1) := by
    simp [fragmentStep, walk]
  have skips := skippedFrom_skip isStep
  obtain ⟨isRest, -⟩ := reads.text_eq
  rw [append_nil] at skips isRest
  have within : ∀ token ∈ tokens, token.start ≠ .normal := fun token present => by
    simp [inBody token present]
  rw [skips, isTokens, positions_append, positions_append, positions_within within, ← isRest]
  simp [positions_cons, inside, replicate_succ, skippedFrom]

/-- A byte of ordinary text. -/
theorem agree_plain {marker : Bool}
    (lexeme : nextLexeme .normal before ch rest = ⟨1, marker, .normal⟩)
    (walk : skipped before ch rest = none) (later : Agree (ch :: before) rest) :
    Agree before (ch :: rest) := by
  intro isTerminated free
  have reads := @markerScanner_piece _ _ rest _ [] _ _ lexeme
  rw [nil_append] at reads
  rw [reads.tokens_eq, positions_append]
  rw [reads.tokens_eq, positions_append] at free
  rw [reads.final_eq] at isTerminated
  have notBrace : ch ≠ code '\x7b' := by
    rintro rfl
    simp [escapeFree, positions, inside] at free
  have isStep : fragmentStep before ch rest = .copy := by simp [fragmentStep, walk, notBrace]
  rw [skippedFrom_copy isStep]
  simpa [positions_cons, inside] using
    later isTerminated (@escapeFree_append [ch] _ [_] _ rfl free)

theorem agree (before text : Bytes) : Agree before text := by
  induction size : text.length using Nat.strong_induction_on generalizing before text with
  | _ size ih =>
    rcases text with _ | ⟨ch, rest⟩
    · exact fun _ _ => rfl
    cases meets before ch rest with
    | @opens extra more kind body found isRest opening =>
      subst isRest
      rcases found with _ | n
      · exact opening.agree_open
      obtain ⟨closed, rest, rfl, rfl, closes⟩ := opening.ends
      refine opening.agree closes (ih rest.length ?_ _ rest rfl)
      rw [← size]
      simp
      omega
    | comment isRest lexeme stays walk =>
      subst isRest
      exact agree_comment lexeme stays walk
    | plain lexeme walk =>
      exact agree_plain lexeme walk (ih rest.length (by simp [← size]) _ rest rfl)

/-- In a text whose lexical bodies are terminated and without an opening brace outside of them,
`translate_fragment` skips exactly the bytes that the marker scanner takes for parts of lexical
bodies. -/
theorem lexers_agree (sql : Bytes) (isTerminated : terminated sql = true)
    (free : escapeFree sql (bodyPositions sql) = true) : skippedPositions sql = bodyPositions sql :=
  agree [] sql isTerminated free

theorem lexers_agree_nested : skippedPositions (ascii "E'\\'\x7b'$x$\x7b$$x$/*/**/*/-\"?\"--\x7b") =
      bodyPositions (ascii "E'\\'\x7b'$x$\x7b$$x$/*/**/*/-\"?\"--\x7b") :=
  lexers_agree _ (by decide) (by decide)

end Odbcpp.Postgres
