import Odbcpp.Postgres.LexerAgreement

/-!
# Eligibility for cancellation

`cancellation_single_statement`: whether a text is one statement with at most a trailing
semicolon. Its lexer reads a text as the marker scanner does, except that it lets a byte from
0x80 on stand in the tag of a dollar quote.
-/

namespace Odbcpp.Postgres.Cancel

open Foundation Util Dialect List
open Bool (and_eq_true eq_false_iff not_eq_true not_eq_true' or_comm or_eq_true)

/-- The rest of a block comment; none if the text ends before the comment. -/
def commentLoop : Nat → Bytes → Option Nat
  | 0, _ => some 0
  | _ + 1, [] | _ + 1, [_] => none
  | depth + 1, ch :: next :: rest =>
    if ch = code '/' && next = code '*' then (commentLoop (depth + 2) rest).map (· + 2)
    else if ch = code '*' && next = code '/' then (commentLoop depth rest).map (· + 2)
    else (commentLoop (depth + 1) (next :: rest)).map (· + 1)

/-- The rest of a quoted body; none if the text ends before it, or if a string other than an
escape string has a backslash. -/
def quoteLoop (escape : Bool) (quote : UInt8) : Bytes → Option Nat
  | [] => none
  | [last] => if last = quote then some 1 else none
  | ch :: next :: rest =>
    if ch = quote then
      if next = quote then (quoteLoop escape quote rest).map (· + 2) else some 1
    else if ch = code '\\' && quote = 39 then
      if !escape then none else (quoteLoop escape quote rest).map (· + 2)
    else (quoteLoop escape quote (next :: rest)).map (· + 1)

def identifier (letter : UInt8) : Bool :=
  (code 'a' ≤ letter && letter ≤ code 'z') || (code 'A' ≤ letter && letter ≤ code 'Z') ||
    (code '0' ≤ letter && letter ≤ code '9') || letter = code '_' || letter = code '$' ||
    128 ≤ letter

def tagStart (letter : UInt8) : Bool :=
  (code 'a' ≤ letter && letter ≤ code 'z') || (code 'A' ≤ letter && letter ≤ code 'Z') ||
    letter = code '_'

/-- The delimiter that starts at a dollar sign followed by `rest`, if any. -/
def delimiter (rest : Bytes) : Option Bytes :=
  let tag := if rest.head?.any tagStart then
    rest.takeWhile fun letter => identifier letter && letter ≠ code '$' else []
  if (rest.drop tag.length).head? = some (code '$') then some (code '$' :: tag ++ [code '$'])
  else none

def escapeAt : Bytes → Bool
  | [] => false
  | [last] => last = code 'e' || last = code 'E'
  | last :: earlier :: _ => (last = code 'e' || last = code 'E') && !identifier earlier

def isBlank (letter : UInt8) : Bool :=
  letter = 32 || letter = 9 || letter = 10 || letter = 13 || letter = 12 || letter = 11

/-- What an iteration of the loop does: it refuses the text, or goes on after some bytes. -/
inductive Stride where
  | refuse
  | go (size : Nat) (content terminated : Bool)
deriving DecidableEq

def stride (content terminated : Bool) (before : Bytes) (ch : UInt8) (rest : Bytes) : Stride :=
  if isBlank ch then .go 1 content terminated
  else if ch = code '-' && rest.head? = some (code '-') then
    .go ((rest.drop 1).takeWhile (fun letter => letter ≠ 13 && letter ≠ 10) |>.length |> (· + 2))
      content terminated
  else if ch = code '/' && rest.head? = some (code '*') then
    match commentLoop 1 (rest.drop 1) with
    | none => .refuse
    | some size => .go (size + 2) content terminated
  else if terminated then .refuse
  else if ch = code ';' then if !content then .refuse else .go 1 content true
  else if ch = 39 || ch = code '"' then
    match quoteLoop (ch = 39 && escapeAt before) ch rest with
    | none => .refuse
    | some size => .go (size + 1) true terminated
  else if ch = code '$' && !(before.head?.any identifier) then
    match delimiter rest with
    | none => .go 1 true terminated
    | some delimiter =>
      match Dialect.find delimiter (rest.drop (delimiter.length - 1)) with
      | none => .refuse
      | some size => .go (size + 2 * delimiter.length) true terminated
  else .go 1 true terminated

def singleStatementWithin : Nat → Bool → Bool → Bytes → Bytes → Bool
  | _, content, _, _, [] => content
  | 0, _, _, _, _ :: _ => false
  | steps + 1, content, terminated, before, ch :: rest =>
    match stride content terminated before ch rest with
    | .refuse => false
    | .go size content terminated =>
      singleStatementWithin steps content terminated
        (((ch :: rest).take size).reverse ++ before) ((ch :: rest).drop size)

/-- Every iteration takes a byte, so the length bounds their number. -/
def cancellationSingleStatement (sql : Bytes) : Bool :=
  singleStatementWithin sql.length false false [] sql

/-! ## What the marker scanner says -/

def isComment (token : MarkerToken) : Bool :=
  match token.start, token.iteration.body with
  | .lineComment, _ | .blockComment _, _ | .normal, .lineComment | .normal, .blockComment _ => true
  | _, _ => false

/-- Whitespace outside of the bodies, or a part of a comment. -/
def isTrivia (token : MarkerToken) : Bool :=
  isComment token || !inside token && token.taken.all isBlank

def isSemicolon (token : MarkerToken) : Bool := !inside token && token.taken = [code ';']

/-- After a semicolon there is only trivia. -/
def semicolonsTrail : List MarkerToken → Bool
  | [] => true
  | token :: tokens => (!isSemicolon token || tokens.all isTrivia) && semicolonsTrail tokens

/-- The text has content, its bodies are terminated, and a semicolon is the end of the statement. -/
def isSingleStatement (tokens : List MarkerToken) : Bool :=
  tokens.any (!isTrivia ·) && (markerScanner.final .normal tokens).mayEnd && semicolonsTrail tokens

/-- A dollar sign that opens a dollar quote for the cancellation only, since its tag has a byte from
0x80 on. -/
def opensForeign (before : Bytes) (token : MarkerToken) (rest : Bytes) : Bool :=
  !inside token && token.taken = [code '$'] && !(before.head?.any identifier) &&
    (delimiter rest).any (·.any (128 ≤ ·))

/-- No dollar sign of ordinary text opens such a quote. -/
def noForeignTags : Bytes → List MarkerToken → Bool
  | _, [] => true
  | before, token :: tokens => !opensForeign before token (tokens.flatMap Token.taken) &&
      noForeignTags (token.taken.reverse ++ before) tokens

/-! ## Lists of tokens -/

section Tokens

variable {token : MarkerToken} {tokens more : List MarkerToken} {before : Bytes}

theorem inside_of_isComment (comment : isComment token = true) : inside token = true := by
  obtain ⟨start, taken, size, marker, body⟩ := token
  unfold isComment at comment
  split at comment <;> simp_all [inside]

theorem isSemicolon_of_inside (isInside : inside token = true) : isSemicolon token = false := by
  simp [isSemicolon, isInside]

theorem isSemicolon_of_isTrivia (trivia : isTrivia token = true) : isSemicolon token = false := by
  simp only [isTrivia, or_eq_true, and_eq_true] at trivia
  rcases trivia with comment | ⟨-, blank⟩
  · exact isSemicolon_of_inside (inside_of_isComment comment)
  rw [isSemicolon, Bool.and_eq_false_iff, decide_eq_false_iff_not]
  refine .inr fun isTaken => ?_
  rw [isTaken] at blank
  exact absurd blank (by decide)

theorem semicolonsTrail_append (none : ∀ token ∈ tokens, isSemicolon token = false) :
    semicolonsTrail (tokens ++ more) = semicolonsTrail more := by
  induction tokens with
  | nil => rfl
  | cons token tokens ih =>
    have first := none token List.mem_cons_self
    have later := ih fun other present => none other (List.mem_cons_of_mem _ present)
    simp [semicolonsTrail, first, later]

theorem noForeignTags_append (native : noForeignTags before (tokens ++ more) = true) :
    noForeignTags ((tokens.flatMap Token.taken).reverse ++ before) more = true := by
  induction tokens generalizing before with
  | nil => exact native
  | cons token tokens ih =>
    rw [List.cons_append, noForeignTags, and_eq_true] at native
    simpa using ih native.2

end Tokens

/-! ## The bodies -/

section Bodies

variable {before rest : Bytes} {letter : UInt8}

theorem commentLoop_eq {depth : Nat} (positive : 0 < depth) (text : Bytes) :
    commentLoop depth text = Dialect.blockBody depth text := by
  fun_induction blockBody depth text with
  | case1 depth | case2 depth last =>
    obtain ⟨depth, rfl⟩ := Nat.exists_eq_succ_of_ne_zero positive.ne'
    rfl
  | case3 depth ch next rest opens ih =>
    obtain ⟨depth, rfl⟩ := Nat.exists_eq_succ_of_ne_zero positive.ne'
    rw [commentLoop, if_pos opens, ih (by omega)]
  | case4 depth ch next rest unopened closes isLast =>
    obtain ⟨depth, rfl⟩ := Nat.exists_eq_succ_of_ne_zero positive.ne'
    obtain rfl : depth = 0 := by simpa using isLast
    rw [commentLoop, if_neg unopened, if_pos closes, commentLoop]
    rfl
  | case5 depth ch next rest unopened closes isInner ih =>
    obtain ⟨depth, rfl⟩ := Nat.exists_eq_succ_of_ne_zero positive.ne'
    rw [commentLoop, if_neg unopened, if_pos closes]
    rw [Nat.succ_sub_one] at ih isInner
    rw [ih (by omega), Nat.succ_sub_one]
  | case6 depth ch next rest unopened unclosed ih =>
    obtain ⟨depth, rfl⟩ := Nat.exists_eq_succ_of_ne_zero positive.ne'
    rw [commentLoop, if_neg unopened, if_neg unclosed, ih positive]

theorem quotedBody_of_quoteLoop {escape : Bool} {quote : UInt8} {text : Bytes} {size : Nat}
    (single : escape = true → quote = 39) (plain : code '\\' ≠ quote)
    (found : quoteLoop escape quote text = some size) :
    Dialect.quotedBody escape quote text = some size := by
  fun_induction quoteLoop escape quote text generalizing size with
  | case1 | case3 => cases found
  | case2 => simpa [quotedBody] using found
  | case4 rest ih =>
    obtain ⟨size, isSize, rfl⟩ := Option.map_eq_some_iff.mp found
    simp [quotedBody, ih isSize, plain.symm]
  | case5 next rest differs => simpa [quotedBody, differs, plain.symm] using found
  | case6 => cases found
  | case7 ch next rest differs isEscape isRefused ih =>
    obtain ⟨size, isSize, rfl⟩ := Option.map_eq_some_iff.mp found
    simp only [and_eq_true, decide_eq_true_eq] at isEscape
    have escapes : escape = true := by simpa using isRefused
    simp [quotedBody, escapes, isEscape.1, ← ih isSize]
  | case8 ch next rest differs unescaped ih =>
    obtain ⟨size, isSize, rfl⟩ := Option.map_eq_some_iff.mp found
    have unescaped : (escape && ch = code '\\') = false := by
      rw [eq_false_iff]
      intro both
      simp only [and_eq_true, decide_eq_true_eq] at both
      exact unescaped (by simp [both.2, single both.1])
    simp [quotedBody, unescaped, differs, ih isSize]

theorem identifier_eq : identifier = isIdentifierContinue := rfl

theorem escapeAt_eq (before : Bytes) : escapeAt before = opensEscapeString before := by
  rcases before with - | ⟨last, - | ⟨earlier, before⟩⟩
  · rfl
  · exact or_comm _ _
  · exact congrArg (· && _) (or_comm _ _)

/-- What the cancellation lets stand within a tag. -/
def tagContinue (letter : UInt8) : Bool := identifier letter && letter ≠ code '$'

theorem delimiter_name {name more : Bytes} (free : code '$' ∉ name) :
    delimiter (name ++ code '$' :: more) =
      if name.head?.all isDollarTagStart && name.all tagContinue then
        some (code '$' :: name ++ [code '$'])
      else none :=
  @delimiterOf_name tagStart tagContinue _ _ (by decide) (by decide) free

theorem tagContinue_of_isDollarTagContinue
    (continues : isDollarTagContinue letter = true) : tagContinue letter = true := by
  have differs : letter ≠ code '$' := by
    rintro rfl
    exact absurd continues (by decide)
  simp [tagContinue, identifier_eq, isIdentifierContinue, continues, differs]

theorem isDollarTagContinue_or_foreign (continues : tagContinue letter = true) :
    isDollarTagContinue letter = true ∨ 128 ≤ letter := by
  simp only [tagContinue, identifier_eq, isIdentifierContinue, and_eq_true, or_eq_true,
    decide_eq_true_eq] at continues
  obtain ⟨(isTag | isDollar) | foreign, differs⟩ := continues
  · exact .inl isTag
  · exact absurd isDollar differs
  · exact .inr foreign

/-- Both lexers find the same delimiter, or that of the cancellation has a foreign byte. -/
theorem dollarDelimiter_or_foreign (rest : Bytes) : dollarDelimiter rest = delimiter rest ∨
      dollarDelimiter rest = none ∧ (delimiter rest).any (·.any (128 ≤ ·)) = true := by
  by_cases present : code '$' ∈ rest
  · obtain ⟨name, more, rfl, free⟩ := List.eq_append_cons_of_mem present
    rw [dollarDelimiter_name free, delimiter_name free]
    cases starts : name.head?.all isDollarTagStart with
    | false => exact .inl (by simp [isTag, starts])
    | true =>
      cases continues : name.all tagContinue with
      | false =>
        have notTag : name.all isDollarTagContinue = false := by
          rw [eq_false_iff] at continues ⊢
          refine fun all => continues ?_
          rw [List.all_eq_true] at all ⊢
          exact fun letter isLetter => tagContinue_of_isDollarTagContinue (all letter isLetter)
        exact .inl (by simp [isTag, notTag])
      | true =>
        cases all : name.all isDollarTagContinue with
        | true => exact .inl (by simp [isTag, starts, all])
        | false =>
          refine .inr ⟨by simp [isTag, all], ?_⟩
          obtain ⟨letter, isLetter, other⟩ := List.all_eq_false.mp all
          have foreign := (isDollarTagContinue_or_foreign
            (List.all_eq_true.mp continues letter isLetter)).resolve_left other
          simp only [Bool.and_self, if_true, Option.any_some, List.any_eq_true, decide_eq_true_eq]
          exact ⟨letter, by simp [isLetter], foreign⟩
  · left
    rw [dollarDelimiter_of_notMem present]
    exact (@delimiterOf_of_notMem _ tagStart tagContinue present).symm

theorem lineComment_reads {line : Bytes} (within : ∀ letter ∈ line, letter ≠ 13 ∧ letter ≠ 10) :
    ∃ tokens, markerScanner.Reads .lineComment before (line ++ rest) tokens .lineComment
      (line.reverse ++ before) rest ∧ ∀ token ∈ tokens, token.start = .lineComment := by
  induction line generalizing before with
  | nil => exact ⟨[], .done, by simp⟩
  | cons ch line ih =>
    obtain ⟨notReturn, notFeed⟩ := within ch List.mem_cons_self
    have lexeme : nextLexeme .lineComment before ch (line ++ rest) =
        ⟨1, false, .lineComment⟩ := by simp [nextLexeme, notReturn, notFeed]
    have first := @markerScanner_piece _ _ _ _ [] _ _ lexeme
    obtain ⟨tokens, reads, inComment⟩ := @ih (ch :: before) fun letter present =>
      within letter (List.mem_cons_of_mem _ present)
    exact ⟨_, by simpa using first.trans reads, by simpa using inComment⟩

theorem closes_reads {kind : LexicalBody → Prop} {body : LexicalBody} {ch : UInt8}
    {extra closed : Bytes} (lexeme : nextLexeme .normal before ch (extra ++ (closed ++ rest)) =
      ⟨extra.length + 1, false, body⟩)
    (closes : Closes kind body ((ch :: extra).reverse ++ before) closed rest) :
    ∃ tokens, markerScanner.Reads .normal before (ch :: extra ++ closed ++ rest)
        (⟨.normal, ch :: extra, ⟨extra.length + 1, false, body⟩⟩ :: tokens) .normal
        ((ch :: extra ++ closed).reverse ++ before) rest ∧ ∀ token ∈ tokens, kind token.start := by
  obtain ⟨tokens, reads, within⟩ := closes
  exact ⟨tokens, by simpa using (markerScanner_piece lexeme).trans reads, within⟩

end Bodies

/-! ## An iteration and the marker scanner -/

def Resumes (body : LexicalBody) (text : Bytes) : Prop :=
  body = .normal ∨ body = .lineComment ∧ ∀ letter ∈ text.head?, letter = 13 ∨ letter = 10

/-- An iteration, with the tokens of the marker scanner. -/
inductive Strides (content terminated : Bool) (body : LexicalBody) (before text : Bytes) :
    Stride → Prop where
  | refuse : Strides content terminated body before text .refuse
  | trivia {closed rest tokens next}
      (isText : text = closed ++ rest)
      (reads : markerScanner.Reads body before text tokens next (closed.reverse ++ before) rest)
      (resumes : Resumes next rest) (areTrivia : ∀ token ∈ tokens, isTrivia token = true) :
      Strides content terminated body before text (.go closed.length content terminated)
  | semicolon {rest token} (isText : text = code ';' :: rest)
      (reads : markerScanner.Reads body before text [token] .normal (code ';' :: before) rest)
      (hasContent : content = true) (notTerminated : terminated = false) :
      Strides content terminated body before text (.go 1 content true)
  | contents {closed rest tokens}
      (isText : text = closed ++ rest)
      (reads : markerScanner.Reads body before text tokens .normal (closed.reverse ++ before) rest)
      (noSemicolon : ∀ token ∈ tokens, isSemicolon token = false)
      (hasContent : tokens.any (!isTrivia ·) = true) (notTerminated : terminated = false) :
      Strides content terminated body before text (.go closed.length true terminated)
  /-- A dollar quote that is none for the marker scanner. -/
  | foreign {size rest token} (isText : text = code '$' :: rest)
      (reads : markerScanner.Reads body before text [token] .normal (code '$' :: before) rest)
      (opens : opensForeign before token rest = true) (notTerminated : terminated = false) :
      Strides content terminated body before text (.go size true terminated)

section Iterations

variable {content terminated : Bool} {before rest : Bytes} {ch : UInt8} {body : LexicalBody}

/-- A single byte of ordinary text, for both lexers. -/
theorem reads_byte {body next : LexicalBody} {marker : Bool}
    (lexeme : nextLexeme body before ch rest = ⟨1, marker, next⟩) :
    markerScanner.Reads body before ([ch] ++ rest) [⟨body, [ch], ⟨1, marker, next⟩⟩] next
      ([ch].reverse ++ before) rest :=
  @markerScanner_piece _ _ _ _ [] _ _ lexeme

theorem nextLexeme_byte (notSingle : ch ≠ 39) (notDouble : ch ≠ code '"')
    (notLine : ¬(ch = code '-' ∧ rest.head? = some (code '-')))
    (notBlock : ¬(ch = code '/' ∧ rest.head? = some (code '*')))
    (notDollar : ch = code '$' → before.head?.any isIdentifierContinue = false →
      dollarDelimiter rest = none) :
    ∃ marker, nextLexeme .normal before ch rest = ⟨1, marker, .normal⟩ := by
  simp only [nextLexeme, normalLexeme, if_neg notDouble, if_neg notSingle, if_neg notLine,
    if_neg notBlock]
  split_ifs with isDollar isMarker
  · simp only [not_eq_true'] at isDollar
    rw [notDollar isDollar.1 isDollar.2]
    exact ⟨false, rfl⟩
  · exact ⟨true, rfl⟩
  · exact ⟨false, rfl⟩

theorem strides_blank (resumes : Resumes body (ch :: rest)) (isBlank : isBlank ch = true) :
    Strides content terminated body before (ch :: rest) (.go 1 content terminated) := by
  rcases resumes with rfl | ⟨rfl, isBreak⟩
  · have other (letter : UInt8) (blank : Cancel.isBlank letter = false) : ch ≠ letter :=
      fun same => absurd isBlank (by simp [same, blank])
    obtain ⟨marker, lexeme⟩ := @nextLexeme_byte before rest ch (other _ (by decide))
      (other _ (by decide)) (fun line => other _ (by decide) line.1)
      (fun block => other _ (by decide) block.1)
      (fun isDollar => absurd isDollar (other _ (by decide)))
    exact .trivia rfl (reads_byte lexeme) (.inl rfl) (by simp [isTrivia, inside, isBlank])
  · have lexeme : nextLexeme .lineComment before ch rest = ⟨1, false, .normal⟩ := by
      rcases isBreak ch rfl with rfl | rfl <;> rfl
    exact .trivia rfl (reads_byte lexeme) (.inl rfl) (by simp [isTrivia, isComment])

theorem strides_line {line : Bytes} (within : ∀ letter ∈ line, letter ≠ 13 ∧ letter ≠ 10)
    (resumes : ∀ letter ∈ rest.head?, letter = 13 ∨ letter = 10) :
    Strides content terminated .normal before (code '-' :: code '-' :: (line ++ rest))
      (.go (line.length + 2) content terminated) := by
  obtain ⟨tokens, reads, inComment⟩ := @lineComment_reads (code '-' :: code '-' :: before) rest
    line within
  have first := @markerScanner_piece .normal before (line ++ rest) (code '-') [code '-'] false
    .lineComment rfl
  have whole := first.trans reads
  refine @Strides.trivia _ _ _ _ _ (code '-' :: code '-' :: line) rest _ .lineComment rfl
    (by simpa using whole) (.inr ⟨rfl, resumes⟩) ?_
  simp only [mem_cons]
  rintro token (rfl | present)
  · rfl
  · simp [isTrivia, isComment, inComment token present]

theorem strides_block {size : Nat} (found : commentLoop 1 rest = some size) :
    Strides content terminated .normal before (code '/' :: code '*' :: rest)
      (.go (size + 2) content terminated) := by
  have ends := @blockComment_ends (code '*' :: code '/' :: before) rest 1 Nat.one_pos
  rw [← commentLoop_eq Nat.one_pos, found] at ends
  obtain ⟨closed, more, rfl, rfl, closes⟩ := ends
  obtain ⟨tokens, reads, within⟩ := @closes_reads before more _ _ (code '/') [code '*'] closed rfl
    closes
  refine @Strides.trivia _ _ _ _ _ (code '/' :: code '*' :: closed) more _ .normal (by simp)
    reads (.inl rfl) ?_
  simp only [mem_cons]
  rintro token (rfl | present)
  · rfl
  · obtain ⟨depth, isDepth⟩ := within token present
    simp [isTrivia, isComment, isDepth]

theorem strides_body {extra closed : Bytes}
    (isOpen : body.mayEnd = false) (notComment : ∀ depth, body ≠ .blockComment depth)
    (lexeme : nextLexeme .normal before ch (extra ++ (closed ++ rest)) =
      ⟨extra.length + 1, false, body⟩)
    (closes : Closes (· = body) body ((ch :: extra).reverse ++ before) closed rest) :
    Strides content false .normal before (ch :: extra ++ closed ++ rest)
      (.go (ch :: extra ++ closed).length true false) := by
  obtain ⟨tokens, reads, within⟩ := closes_reads lexeme closes
  have notNormal : body ≠ .normal := by
    rintro rfl
    cases isOpen
  refine .contents rfl reads ?_ ?_ rfl
  · simp only [mem_cons]
    rintro token (rfl | present)
    · exact isSemicolon_of_inside (by simp [inside, notNormal])
    · exact isSemicolon_of_inside (by simp [inside, within token present, notNormal])
  have first : isTrivia ⟨.normal, ch :: extra, ⟨extra.length + 1, false, body⟩⟩ = false := by
    cases body <;> simp_all [isTrivia, isComment, inside, LexicalBody.mayEnd]
  simp [first]

theorem strides_quote {escape size}
    (quoting : Quoting body ch escape) (single : escape = true → ch = 39)
    (isOpen : body.mayEnd = false) (notComment : ∀ depth, body ≠ .blockComment depth)
    (lexeme : nextLexeme .normal before ch rest = ⟨1, false, body⟩)
    (found : quoteLoop escape ch rest = some size) :
    Strides content false .normal before (ch :: rest) (.go (size + 1) true false) := by
  have ends := @Quoting.ends body (ch :: before) rest ch escape quoting
  rw [quotedBody_of_quoteLoop single quoting.plain found] at ends
  obtain ⟨closed, more, rfl, rfl, closes⟩ := ends
  exact @strides_body _ _ _ _ _ [] _ isOpen notComment lexeme closes

/-- A byte that neither lexer takes for the beginning of something. -/
theorem strides_byte {marker : Bool} (notBlank : isBlank ch = false) (notSemicolon : ch ≠ code ';')
    (lexeme : nextLexeme .normal before ch rest = ⟨1, marker, .normal⟩) :
    Strides content false .normal before (ch :: rest) (.go 1 true false) := by
  refine .contents rfl (reads_byte lexeme) ?_ ?_ rfl
  · simp [isSemicolon, notSemicolon]
  · simp [isTrivia, isComment, inside, notBlank]

theorem strides_dollar (apart : before.head?.any identifier = false) :
    Strides content false .normal before (code '$' :: rest) (match delimiter rest with
      | none => .go 1 true false
      | some delimiter =>
        match Dialect.find delimiter (rest.drop (delimiter.length - 1)) with
        | none => .refuse
        | some size => .go (size + 2 * delimiter.length) true false) := by
  have plain (none : dollarDelimiter rest = none) :
      ∃ marker, nextLexeme .normal before (code '$') rest = ⟨1, marker, .normal⟩ :=
    nextLexeme_byte (by decide) (by decide) (fun line => absurd line.1 (by decide))
      (fun block => absurd block.1 (by decide)) fun _ _ => none
  rcases dollarDelimiter_or_foreign rest with same | ⟨none, foreign⟩
  · cases isDelimiter : delimiter rest with
    | none =>
      obtain ⟨marker, lexeme⟩ := plain (same.trans isDelimiter)
      exact strides_byte (by decide) (by decide) lexeme
    | some found =>
      rw [isDelimiter] at same
      obtain ⟨name, more, rfl, rfl⟩ := dollarDelimiter_eq_some same
      have dropped : (name ++ code '$' :: more).drop
          ((code '$' :: (name ++ [code '$'])).length - 1) = more := by
        have isText : name ++ code '$' :: more = (name ++ [code '$']) ++ more := by simp
        rw [isText, length_cons, Nat.add_sub_cancel, drop_left]
      have ends := @dollarQuote_ends ((code '$' :: (name ++ [code '$'])).reverse ++ before) more
        (code '$' :: (name ++ [code '$'])) (by simp)
      simp only [dropped]
      rcases isEnd : find (code '$' :: (name ++ [code '$'])) more with _ | size
      · exact .refuse
      rw [isEnd] at ends
      obtain ⟨closed, rest, rfl, isSize, closes⟩ := ends
      have lexeme : nextLexeme .normal before (code '$')
          ((name ++ [code '$']) ++ (closed ++ rest)) =
          ⟨(name ++ [code '$']).length + 1, false,
            .dollarQuote (code '$' :: (name ++ [code '$']))⟩ := by
        have isText : (name ++ [code '$']) ++ (closed ++ rest) =
          name ++ code '$' :: (closed ++ rest) := by simp
        rw [identifier_eq] at apart
        rw [isText, nextLexeme_dollar, same, apart]
        simp
      have strides := @strides_body content _ _ _ _ _ closed rfl (by simp) lexeme closes
      have isLength : (code '$' :: (name ++ [code '$']) ++ closed).length =
          size + 2 * (code '$' :: (name ++ [code '$'])).length := by
        rw [length_append, isSize]
        simp
        omega
      simp only [← isLength]
      simpa using strides
  · obtain ⟨marker, lexeme⟩ := plain none
    have opens : opensForeign before ⟨.normal, [code '$'], ⟨1, marker, .normal⟩⟩ rest = true := by
      simp [opensForeign, inside, apart, foreign]
    split
    · rename_i isNone
      rw [isNone] at foreign
      cases foreign
    split
    · exact .refuse
    · exact .foreign rfl (reads_byte lexeme) opens rfl

theorem takeWhile_line (text : Bytes) :
    ∃ line rest, text = line ++ rest ∧ line = text.takeWhile (fun ch => ch ≠ 13 && ch ≠ 10) ∧
      (∀ letter ∈ line, letter ≠ 13 ∧ letter ≠ 10) ∧
      ∀ letter ∈ rest.head?, letter = 13 ∨ letter = 10 := by
  refine ⟨_, _, (takeWhile_append_dropWhile).symm, rfl, fun letter present => ?_,
    fun letter isHead => ?_⟩
  · simpa using mem_takeWhile_imp present
  have stops := List.head?_dropWhile_not (fun ch : UInt8 => ch ≠ 13 && ch ≠ 10) text
  rw [Option.mem_def.mp isHead] at stops
  by_contra neither
  simp only [not_or] at neither
  simp [neither] at stops

theorem strides (resumes : Resumes body (ch :: rest)) :
    Strides content terminated body before (ch :: rest)
      (stride content terminated before ch rest) := by
  unfold stride
  cases blank : isBlank ch with
  | true => exact strides_blank resumes blank
  | false =>
    obtain rfl : body = .normal := by
      rcases resumes with isNormal | ⟨-, isBreak⟩
      · exact isNormal
      · rcases isBreak ch rfl with rfl | rfl <;> cases blank
    simp only [Bool.false_eq_true, if_false, and_eq_true, or_eq_true,
      decide_eq_true_eq, not_eq_true']
    split_ifs with isLine isBlock isTerminated isSemicolon noContent isQuote isDollar
    · obtain ⟨rfl, isNext⟩ := isLine
      obtain ⟨more, rfl⟩ := List.head?_eq_some_iff.mp isNext
      obtain ⟨line, rest, rfl, isTaken, within, isBreak⟩ := takeWhile_line more
      simp only [drop_succ_cons, drop_zero, ← isTaken]
      exact strides_line within isBreak
    · obtain ⟨rfl, isNext⟩ := isBlock
      obtain ⟨more, rfl⟩ := List.head?_eq_some_iff.mp isNext
      split
      · exact .refuse
      · exact strides_block ‹_›
    · exact .refuse
    · exact .refuse
    · subst isSemicolon
      exact .semicolon rfl (@reads_byte before rest _ .normal .normal false rfl)
        (by simpa using noContent) (by simpa using isTerminated)
    · rw [not_eq_true] at isTerminated
      subst isTerminated
      split
      · exact .refuse
      rename_i size found
      rcases isQuote with rfl | rfl
      · simp only [decide_true, Bool.true_and, escapeAt_eq] at found
        cases isEscape : opensEscapeString before with
        | true =>
          rw [isEscape] at found
          refine strides_quote quoting_escape (by simp) rfl (by simp) ?_ found
          simp [nextLexeme, normalLexeme, isEscape]
          decide
        | false =>
          rw [isEscape] at found
          refine strides_quote quoting_single (by simp) rfl (by simp) ?_ found
          simp [nextLexeme, normalLexeme, isEscape]
          decide
      · exact strides_quote quoting_double (by simp) rfl (by simp) rfl found
    · rw [not_eq_true] at isTerminated
      obtain ⟨rfl, apart⟩ := isDollar
      subst isTerminated
      exact strides_dollar apart
    · rw [not_eq_true] at isTerminated
      subst isTerminated
      obtain ⟨notSingle, notDouble⟩ := not_or.mp isQuote
      obtain ⟨marker, lexeme⟩ := @nextLexeme_byte before rest ch notSingle notDouble isLine
        isBlock fun dollar apart => absurd ⟨dollar, apart⟩ isDollar
      exact strides_byte blank isSemicolon lexeme

end Iterations

/-! ## Whole texts -/

/-- What a single statement still needs of the tokens ahead. -/
structure Accepted (content terminated : Bool) (body : LexicalBody) (tokens : List MarkerToken) :
    Prop where
  hasContent : content = true ∨ tokens.any (!isTrivia ·) = true
  ends : (markerScanner.final body tokens).mayEnd = true
  trail : semicolonsTrail tokens = true
  onlyTrivia : terminated = true → tokens.all isTrivia = true

variable {content terminated : Bool} {body next : LexicalBody} {before text rest behind : Bytes}
  {tokens : List MarkerToken}

theorem Resumes.mayEnd (resumes : Resumes body text) : body.mayEnd = true := by
  rcases resumes with rfl | ⟨rfl, -⟩ <;> rfl

theorem Accepted.after {content' terminated' : Bool}
    (reads : markerScanner.Reads body before text tokens next behind rest)
    (later : Accepted content' terminated' next (markerScanner.tokens next behind rest))
    (hasContent : content' = true → content = true ∨ tokens.any (!isTrivia ·) = true)
    (trail : semicolonsTrail (markerScanner.tokens next behind rest) = true →
      semicolonsTrail (tokens ++ markerScanner.tokens next behind rest) = true)
    (onlyTrivia : terminated = true → tokens.all isTrivia = true ∧ terminated' = true) :
    Accepted content terminated body (markerScanner.tokens body before text) := by
  have isFinal := reads.final_eq
  rw [reads.tokens_eq] at isFinal ⊢
  refine ⟨?_, isFinal ▸ later.ends, trail later.trail, fun isTerminated => ?_⟩
  · rw [any_append, or_eq_true]
    rcases later.hasContent with earlier | found
    · exact (hasContent earlier).imp id .inl
    · exact .inr (.inr found)
  obtain ⟨first, still⟩ := onlyTrivia isTerminated
  rw [all_append, first, later.onlyTrivia still]
  rfl

theorem accepted_of_within {steps : Nat} (resumes : Resumes body text)
    (accepts : singleStatementWithin steps content terminated before text = true)
    (native : noForeignTags before (markerScanner.tokens body before text) = true) :
    Accepted content terminated body (markerScanner.tokens body before text) := by
  induction steps generalizing content terminated body before text with
  | zero =>
    cases text with
    | nil => exact ⟨.inl accepts, resumes.mayEnd, rfl, fun _ => rfl⟩
    | cons ch rest => cases accepts
  | succ steps ih =>
    rcases text with _ | ⟨ch, rest⟩
    · exact ⟨.inl accepts, resumes.mayEnd, rfl, fun _ => rfl⟩
    have read := @strides content terminated before rest ch body resumes
    rw [singleStatementWithin] at accepts
    generalize stride content terminated before ch rest = does at read accepts
    have onward {tokens : List MarkerToken} {next : LexicalBody} {behind ahead : Bytes}
        (reads : markerScanner.Reads body before (ch :: rest) tokens next behind ahead) :
        noForeignTags behind (markerScanner.tokens next behind ahead) = true := by
      rw [reads.tokens_eq] at native
      rw [reads.text_eq.2] at native ⊢
      exact noForeignTags_append native
    cases read with
    | refuse => cases accepts
    | @trivia closed more tokens next isText reads resumes areTrivia =>
      simp only [isText, take_left, drop_left] at accepts
      refine (ih resumes accepts (onward reads)).after reads .inl (fun trail => ?_)
        fun isTerminated => ⟨by simpa using areTrivia, isTerminated⟩
      rwa [semicolonsTrail_append fun token present =>
        isSemicolon_of_isTrivia (areTrivia token present)]
    | @semicolon more token isText reads hasContent notTerminated =>
      simp only [isText, take_succ_cons, drop_succ_cons, take_zero,
        drop_zero, reverse_singleton, singleton_append] at accepts
      have later := ih (.inl rfl) accepts (onward reads)
      refine later.after reads (fun _ => .inl hasContent) (fun trail => ?_) (by simp
        [notTerminated])
      simp [semicolonsTrail, trail, later.onlyTrivia rfl]
    | @contents closed more tokens isText reads noSemicolon hasContent notTerminated =>
      simp only [isText, take_left, drop_left] at accepts
      refine (ih (.inl rfl) accepts (onward reads)).after reads (fun _ => .inr hasContent)
        (fun trail => ?_) (by simp [notTerminated])
      rwa [semicolonsTrail_append noSemicolon]
    | @foreign size more token isText reads opens notTerminated =>
      rw [reads.tokens_eq, singleton_append, noForeignTags, Scanner.flatMap_taken_tokens,
        opens] at native
      cases native

/-- An accepted text is one statement for the marker scanner, unless one of its dollar signs opens a
dollar quote for the cancellation alone. -/
theorem isSingleStatement_of_accepted (sql : Bytes)
    (accepts : cancellationSingleStatement sql = true)
    (native : noForeignTags [] (markerTokens sql) = true) :
    isSingleStatement (markerTokens sql) = true := by
  obtain ⟨hasContent, ends, trail, -⟩ := accepted_of_within (.inl rfl) accepts native
  rw [isSingleStatement, and_eq_true, and_eq_true]
  exact ⟨⟨hasContent.resolve_left (by simp), ends⟩, trail⟩

theorem isSingleStatement_of_accepted_quoted :
    isSingleStatement (markerTokens ([0xc3, 0xa9] ++ ascii "$a $t$;x$t$ '$';--y")) = true :=
  isSingleStatement_of_accepted _ (by decide) (by decide)

/-- A semicolon in a dollar quote with a foreign byte in its tag, and text after it. -/
theorem compound_accepted :
    let sql := ascii "$a" ++ [0xc3, 0xa9] ++ ascii "$;x$a" ++ [0xc3, 0xa9] ++ ascii "$"
    cancellationSingleStatement sql = true ∧ isSingleStatement (markerTokens sql) = false := by
  decide

end Odbcpp.Postgres.Cancel
