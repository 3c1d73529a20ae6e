import Odbcpp.Postgres.LexerAgreement

/-!
# The grammar of lexical bodies

What a lexical body of a SQL text is, by the grammar: quoted strings and identifiers, comments
and dollar-quoted strings, each closed or extending to the end of the text. The scanning
functions find the body that stands at a place, and there is at most one.
-/

namespace Odbcpp.Postgres

open Foundation Util Dialect List
open List (append_inj append_nil cons cons_append length nil_append)

/-! ## The grammar -/

/-- What stands between quotes: a quote is doubled, and in an escape string a backslash takes the
next byte along. -/
inductive QuotedContent (quote : UInt8) (escapes : Bool) : Bytes → Prop where
  | nil : QuotedContent quote escapes []
  | letter {ch rest} (notQuote : ch ≠ quote)
      (notEscape : escapes = true → ch ≠ code '\\') (later : QuotedContent quote escapes rest) :
      QuotedContent quote escapes (ch :: rest)
  | doubled {rest} (later : QuotedContent quote escapes rest) :
      QuotedContent quote escapes (quote :: quote :: rest)
  | escaped {ch rest} (isEscape : escapes = true)
      (later : QuotedContent quote escapes rest) :
      QuotedContent quote escapes (code '\\' :: ch :: rest)

/-- A part of nested comments, with the number of open ones before and after it. -/
inductive CommentText : Nat → Bytes → Nat → Prop where
  | nil {depth} : CommentText depth [] depth
  | opens {depth final rest} (later : CommentText (depth + 2) rest final) :
      CommentText (depth + 1) (code '/' :: code '*' :: rest) final
  | closes {depth final rest} (later : CommentText depth rest final) :
      CommentText (depth + 1) (code '*' :: code '/' :: rest) final
  | letter {depth final ch rest}
      (notOpening : ¬(ch = code '/' ∧ rest.head? = some (code '*')))
      (notClosing : ¬(ch = code '*' ∧ rest.head? = some (code '/')))
      (later : CommentText (depth + 1) rest final) : CommentText (depth + 1) (ch :: rest) final

/-- An `E` that does not end a longer identifier. -/
def EscapePrefix (before : Bytes) : Prop :=
  ∃ letter earlier, before = letter :: earlier ∧ (letter = code 'E' ∨ letter = code 'e') ∧
    ∀ previous ∈ earlier.head?, isIdentifierContinue previous = false

/-- What a quote opens, and whether backslashes escape in it. -/
inductive Quotes (before : Bytes) : UInt8 → Bool → Prop where
  | string (plain : ¬EscapePrefix before) : Quotes before 39 false
  | escapeString (escape : EscapePrefix before) : Quotes before 39 true
  | identifier : Quotes before (code '"') false

def delimiterOfTag (tag : Bytes) : Bytes := code '$' :: tag ++ [code '$']

/-- The lexical bodies at the front of a text, and the rest. -/
inductive Body (before : Bytes) : Bytes → Bytes → Prop where
  | quoted {quote escapes content rest}
      (quotes : Quotes before quote escapes) (isContent : QuotedContent quote escapes content)
      (single : rest.head? ≠ some quote) : Body before (quote :: (content ++ [quote])) rest
  | openQuoted {quote escapes content}
      (quotes : Quotes before quote escapes) (isContent : QuotedContent quote escapes content) :
      Body before (quote :: content) []
  /-- An escape string that ends with a backslash. -/
  | danglingEscape {quote content} (quotes : Quotes before quote true)
      (isContent : QuotedContent quote true content) :
      Body before (quote :: (content ++ [code '\\'])) []
  | line {content rest lineBreak}
      (within : ∀ letter ∈ content, letter ≠ 13 ∧ letter ≠ 10)
      (isBreak : lineBreak = 13 ∨ lineBreak = 10) :
      Body before (code '-' :: code '-' :: (content ++ [lineBreak])) rest
  | lastLine {content} (within : ∀ letter ∈ content, letter ≠ 13 ∧ letter ≠ 10) :
      Body before (code '-' :: code '-' :: content) []
  | comment {content rest} (isContent : CommentText 1 content 0) :
      Body before (code '/' :: code '*' :: content) rest
  | openComment {content depth} (isContent : CommentText 1 content (depth + 1)) :
      Body before (code '/' :: code '*' :: content) []
  | dollar {tag content rest} (apart : before.head?.any isIdentifierContinue = false)
      (tagged : isTag tag = true)
      (first : ∀ earlier later, content ++ delimiterOfTag tag =
        earlier ++ delimiterOfTag tag ++ later → later = []) :
      Body before (delimiterOfTag tag ++ (content ++ delimiterOfTag tag)) rest
  | openDollar {tag content} (apart : before.head?.any isIdentifierContinue = false)
      (tagged : isTag tag = true) (free : ¬delimiterOfTag tag <:+: content) :
      Body before (delimiterOfTag tag ++ content) []

/-! ## The body at a place -/

def bodyLength (before : Bytes) (ch : UInt8) (rest : Bytes) : Option Nat :=
  if ch = 39 then
    some ((quotedBody (opensEscapeString before) 39 rest).getD rest.length + 1)
  else if ch = code '"' then some ((quotedBody false (code '"') rest).getD rest.length + 1)
  else if ch = code '-' ∧ rest.head? = some (code '-') then some (lineBody rest.tail + 2)
  else if ch = code '/' ∧ rest.head? = some (code '*') then
    some ((blockBody 1 rest.tail).getD rest.tail.length + 2)
  else if ch = code '$' ∧ !(before.head?.any isIdentifierContinue) then
    (dollarDelimiter rest).map fun delimiter =>
      let after := rest.drop (delimiter.length - 1)
      ((find delimiter after).map (· + delimiter.length)).getD after.length + delimiter.length
  else none

section Quoted

variable {quote : UInt8} {escapes : Bool} {content rest text : Bytes}

theorem opensEscapeString_iff (before : Bytes) :
    opensEscapeString before = true ↔ EscapePrefix before := by
  rcases before with - | ⟨last, - | ⟨earlier, before⟩⟩
  · simp [opensEscapeString, EscapePrefix]
  · simp [opensEscapeString, EscapePrefix]
  · simp [opensEscapeString, EscapePrefix]

theorem quotedBody_letter {ch : UInt8} (notQuote : ch ≠ quote)
    (notEscape : escapes = true → ch ≠ code '\\') :
    quotedBody escapes quote (ch :: rest) = (quotedBody escapes quote rest).map (· + 1) := by
  rcases rest with _ | ⟨next, rest⟩
  · simp [quotedBody, notQuote]
  have unescaped : (escapes && ch = code '\\') = false := by
    cases escapes with
    | false => rfl
    | true => simpa using notEscape rfl
  simp [quotedBody, unescaped, notQuote]

theorem quotedBody_doubled (plain : code '\\' ≠ quote) :
    quotedBody escapes quote (quote :: quote :: rest) =
      (quotedBody escapes quote rest).map (· + 2) := by
  simp [quotedBody, plain.symm]

theorem quotedBody_escaped {ch : UInt8} (isEscape : escapes = true) :
    quotedBody escapes quote (code '\\' :: ch :: rest) =
      (quotedBody escapes quote rest).map (· + 2) := by
  simp [quotedBody, isEscape]

/-- A content before a part of the text. -/
theorem quotedBody_append (isContent : QuotedContent quote escapes content)
    (plain : code '\\' ≠ quote) : quotedBody escapes quote (content ++ rest) =
      (quotedBody escapes quote rest).map (· + content.length) := by
  induction isContent with
  | nil => simp
  | letter notQuote notEscape _ ih =>
    rw [cons_append, quotedBody_letter notQuote notEscape, ih, Option.map_map]
    rfl
  | doubled _ ih =>
    rw [cons_append, cons_append, quotedBody_doubled plain, ih, Option.map_map]
    rfl
  | escaped isEscape _ ih =>
    rw [cons_append, cons_append, quotedBody_escaped isEscape, ih, Option.map_map]
    rfl

theorem quotedBody_close (plain : code '\\' ≠ quote) (single : rest.head? ≠ some quote) :
    quotedBody escapes quote (quote :: rest) = some 1 := by
  cases rest with
  | nil => simp [quotedBody]
  | cons next rest =>
    have differs : next ≠ quote := by simpa using single
    simp [quotedBody, differs, plain.symm]

theorem quotedBody_cases (escapes : Bool) (quote : UInt8) (text : Bytes) :
    (∃ content rest, text = content ++ quote :: rest ∧ QuotedContent quote escapes content ∧
      rest.head? ≠ some quote ∧ quotedBody escapes quote text = some (content.length + 1)) ∨
    (quotedBody escapes quote text = none ∧ (QuotedContent quote escapes text ∨ escapes = true ∧
        ∃ content, text = content ++ [code '\\'] ∧ QuotedContent quote true content)) := by
  fun_induction quotedBody escapes quote text with
  | case1 => exact .inr ⟨rfl, .inl .nil⟩
  | case2 => exact .inl ⟨[], [], rfl, .nil, by simp, rfl⟩
  | case3 last differs =>
    by_cases dangling : escapes = true ∧ last = code '\\'
    · obtain ⟨isEscape, rfl⟩ := dangling
      exact .inr ⟨rfl, .inr ⟨isEscape, [], rfl, .nil⟩⟩
    · exact .inr ⟨rfl, .inl (.letter differs (fun isEscape isLast =>
        dangling ⟨isEscape, isLast⟩) .nil)⟩
  | case4 ch next rest isEscape ih =>
    simp only [Bool.and_eq_true, decide_eq_true_eq] at isEscape
    obtain ⟨isEscape, rfl⟩ := isEscape
    rcases ih with ⟨content, more, rfl, isContent, single, isEnd⟩ | ⟨isOpen, isContent⟩
    · exact .inl ⟨_, more, rfl, .escaped isEscape isContent, single, by rw [isEnd]; rfl⟩
    refine .inr ⟨by rw [isOpen]; rfl, isContent.imp (.escaped isEscape) ?_⟩
    rintro ⟨_, content, rfl, isInner⟩
    exact ⟨isEscape, _, rfl, .escaped rfl isInner⟩
  | case5 ch next rest unescaped differs ih =>
    have notEscape : escapes = true → ch ≠ code '\\' := by
      rintro rfl rfl
      exact unescaped (by simp)
    rcases ih with ⟨content, more, isText, isContent, single, isEnd⟩ | ⟨isOpen, isContent⟩
    · rw [isText] at isEnd ⊢
      exact .inl ⟨ch :: content, more, rfl, .letter differs notEscape isContent, single, by
        rw [isEnd]; rfl⟩
    refine .inr ⟨by rw [isOpen]; rfl, isContent.imp (.letter differs notEscape) ?_⟩
    rintro ⟨isEscape, content, isText, isContent⟩
    rw [isText]
    exact ⟨isEscape, ch :: content, rfl,
      .letter differs (fun _ => notEscape isEscape) isContent⟩
  | case6 ch rest unescaped same ih =>
    obtain rfl := not_not.mp same
    rcases ih with ⟨content, more, rfl, isContent, single, isEnd⟩ | ⟨isOpen, isContent⟩
    · exact .inl ⟨_, more, rfl, .doubled isContent, single, by rw [isEnd]; rfl⟩
    refine .inr ⟨by rw [isOpen]; rfl, isContent.imp .doubled ?_⟩
    rintro ⟨isEscape, content, rfl, isInner⟩
    exact ⟨isEscape, _, rfl, .doubled isInner⟩
  | case7 ch next rest unescaped same differs =>
    obtain rfl := not_not.mp same
    exact .inl ⟨[], next :: rest, rfl, .nil, by simpa using differs, rfl⟩

end Quoted

section Comments

variable {depth final : Nat} {content rest text : Bytes}

theorem blockBody_opens : blockBody depth (code '/' :: code '*' :: rest) =
    (blockBody (depth + 1) rest).map (· + 2) := by
  simp [blockBody]

theorem blockBody_closes : blockBody (depth + 1) (code '*' :: code '/' :: rest) =
    if depth = 0 then some 2 else (blockBody depth rest).map (· + 2) := by
  simp [blockBody, show code '*' ≠ code '/' from by decide]

theorem blockBody_letter {ch : UInt8} (notOpening : ¬(ch = code '/' ∧ rest.head? = some (code '*')))
    (notClosing : ¬(ch = code '*' ∧ rest.head? = some (code '/'))) :
    blockBody depth (ch :: rest) = (blockBody depth rest).map (· + 1) := by
  cases rest with
  | nil => rfl
  | cons next rest =>
    simp only [List.head?_cons, Option.some.injEq] at notOpening notClosing
    simp [blockBody, if_neg notOpening, if_neg notClosing]

theorem CommentText.eq_nil (isText : CommentText 0 content final) : content = [] ∧ final = 0 := by
  cases isText
  exact ⟨rfl, rfl⟩

theorem blockBody_closed (isText : CommentText depth content final) (closed : final = 0)
    (within : depth ≠ 0) (rest : Bytes) :
    blockBody depth (content ++ rest) = some content.length := by
  induction isText with
  | nil => exact absurd closed within
  | opens _ ih =>
    rw [cons_append, cons_append, blockBody_opens, ih closed (by omega)]
    rfl
  | @closes depth final content later ih =>
    rw [cons_append, cons_append, blockBody_closes]
    by_cases isLast : depth = 0
    · subst isLast
      rw [if_pos rfl, later.eq_nil.1]
      rfl
    · rw [if_neg isLast, ih closed isLast]
      rfl
  | @letter depth final ch content notOpening notClosing later ih =>
    have nonempty : content ≠ [] := by
      rintro rfl
      subst closed
      cases later
    have sameHead : (content ++ rest).head? = content.head? := by
      cases content with
      | nil => exact absurd rfl nonempty
      | cons => rfl
    rw [cons_append, blockBody_letter (by rwa [sameHead]) (by rwa [sameHead]),
      ih closed (by omega)]
    rfl

theorem blockBody_open (isText : CommentText depth content final) (unclosed : final ≠ 0) :
    blockBody depth content = none := by
  induction isText with
  | nil => rfl
  | opens _ ih =>
    rw [blockBody_opens, ih unclosed]
    rfl
  | @closes depth final content later ih =>
    have inner : depth ≠ 0 := by
      rintro rfl
      exact unclosed later.eq_nil.2
    rw [blockBody_closes, if_neg inner, ih unclosed]
    rfl
  | letter notOpening notClosing _ ih =>
    rw [blockBody_letter notOpening notClosing, ih unclosed]
    rfl

theorem blockBody_cases (depth : Nat) (text : Bytes) (within : depth ≠ 0) :
    (∃ content rest, text = content ++ rest ∧ CommentText depth content 0 ∧
      blockBody depth text = some content.length) ∨
    (blockBody depth text = none ∧ ∃ final, CommentText depth text (final + 1)) := by
  fun_induction blockBody depth text with
  | case1 depth =>
    obtain ⟨fewer, rfl⟩ := Nat.exists_eq_succ_of_ne_zero within
    exact .inr ⟨rfl, fewer, .nil⟩
  | case2 depth last =>
    obtain ⟨fewer, rfl⟩ := Nat.exists_eq_succ_of_ne_zero within
    exact .inr ⟨rfl, fewer, .letter (by simp) (by simp) .nil⟩
  | case3 depth ch next rest opens ih =>
    obtain ⟨fewer, rfl⟩ := Nat.exists_eq_succ_of_ne_zero within
    simp only [Bool.and_eq_true, decide_eq_true_eq] at opens
    obtain ⟨rfl, rfl⟩ := opens
    rcases ih (by omega) with ⟨content, more, rfl, isText, isEnd⟩ | ⟨isOpen, final, isText⟩
    · exact .inl ⟨_, more, rfl, .opens isText, by rw [isEnd]; rfl⟩
    · exact .inr ⟨by rw [isOpen]; rfl, final, .opens isText⟩
  | case4 depth ch next rest unopened closes isLast =>
    obtain ⟨fewer, rfl⟩ := Nat.exists_eq_succ_of_ne_zero within
    simp only [Bool.and_eq_true, decide_eq_true_eq] at closes
    obtain ⟨rfl, rfl⟩ := closes
    obtain rfl : fewer = 0 := by simpa using isLast
    exact .inl ⟨[code '*', code '/'], rest, rfl, .closes .nil, rfl⟩
  | case5 depth ch next rest unopened closes isInner ih =>
    obtain ⟨fewer, rfl⟩ := Nat.exists_eq_succ_of_ne_zero within
    simp only [Bool.and_eq_true, decide_eq_true_eq] at closes
    obtain ⟨rfl, rfl⟩ := closes
    rcases ih isInner with ⟨content, more, rfl, isText, isEnd⟩ | ⟨isOpen, final, isText⟩
    · exact .inl ⟨_, more, rfl, .closes isText, by rw [isEnd]; rfl⟩
    · exact .inr ⟨by rw [isOpen]; rfl, final, .closes isText⟩
  | case6 depth ch next rest unopened unclosed ih =>
    obtain ⟨fewer, rfl⟩ := Nat.exists_eq_succ_of_ne_zero within
    simp only [Bool.and_eq_true, decide_eq_true_eq] at unopened unclosed
    rcases ih within with ⟨content, more, isRest, isText, isEnd⟩ | ⟨isOpen, final, isText⟩
    · have sameHead : content.head? = some next := by
        cases content with
        | nil => cases isText
        | cons first content => rw [(cons.inj isRest).1, List.head?_cons]
      refine .inl ⟨ch :: content, more, by rw [isRest]; rfl, .letter ?_ ?_ isText, by
        rw [isEnd]; rfl⟩
      · simpa [sameHead] using unopened
      · simpa [sameHead] using unclosed
    · exact .inr ⟨by rw [isOpen]; rfl, final, .letter (by simpa using unopened)
        (by simpa using unclosed) isText⟩

end Comments

section Lines

variable {content rest : Bytes}

theorem lineBody_break {lineBreak : UInt8} (within : ∀ letter ∈ content, letter ≠ 13 ∧ letter ≠ 10)
    (isBreak : lineBreak = 13 ∨ lineBreak = 10) :
    lineBody (content ++ lineBreak :: rest) = content.length + 1 := by
  have line : (content ++ lineBreak :: rest).takeWhile (fun letter => letter ≠ 13 && letter ≠ 10) =
      content := by
    rw [List.takeWhile_append_of_pos (by simpa using within)]
    rcases isBreak with rfl | rfl <;> simp
  rw [lineBody, line, if_neg (by simp)]

theorem lineBody_last (within : ∀ letter ∈ content, letter ≠ 13 ∧ letter ≠ 10) :
    lineBody content = content.length := by
  have line : content.takeWhile (fun letter => letter ≠ 13 && letter ≠ 10) = content :=
    List.takeWhile_eq_self_iff.mpr (by simpa using within)
  rw [lineBody, line, if_pos rfl]

end Lines

section Dollars

variable {needle content rest text : Bytes}

/-- The first place where a delimiter stands is the one before which it does not. -/
theorem find_first (nonempty : needle ≠ []) (rest : Bytes)
    (first : ∀ earlier later, content ++ needle = earlier ++ needle ++ later → later = []) :
    find needle (content ++ (needle ++ rest)) = some content.length := by
  induction content with
  | nil =>
    cases needle with
    | nil => exact absurd rfl nonempty
    | cons letter needle =>
      rw [nil_append, cons_append, find, if_pos (by simp)]
      rfl
  | cons letter content ih =>
    have notPrefix : ¬needle.isPrefixOf (letter :: (content ++ (needle ++ rest))) = true := by
      rw [List.isPrefixOf_iff_prefix]
      intro isPrefix
      have shorter : needle <+: letter :: content ++ needle :=
        List.prefix_of_prefix_length_le isPrefix ⟨rest, by simp⟩ (by simp; omega)
      obtain ⟨later, isText⟩ := shorter
      obtain rfl := first [] later (by simpa using isText.symm)
      have lengths := congrArg length isText
      simp at lengths
      omega
    rw [cons_append, find, if_neg notPrefix, ih]
    · rfl
    · intro earlier later isText
      exact first (letter :: earlier) later (by simp [isText])

theorem find_eq_some {place : Nat} (nonempty : needle ≠ [])
    (found : find needle text = some place) :
    ∃ content rest, text = content ++ (needle ++ rest) ∧ content.length = place ∧
      ∀ earlier later, content ++ needle = earlier ++ needle ++ later → later = [] := by
  induction text generalizing place with
  | nil => simp [find, nonempty] at found
  | cons letter text ih =>
    rw [find] at found
    split at found
    · rename_i isPrefix
      obtain ⟨rest, isText⟩ := List.isPrefixOf_iff_prefix.mp isPrefix
      obtain rfl := Option.some.inj found
      refine ⟨[], rest, by simpa using isText.symm, rfl, fun earlier later same => ?_⟩
      have lengths := congrArg length same
      simp only [nil_append, List.length_append] at lengths
      exact List.length_eq_zero_iff.mp (by omega)
    rename_i notPrefix
    obtain ⟨place, isPlace, rfl⟩ := Option.map_eq_some_iff.mp found
    obtain ⟨content, rest, rfl, rfl, first⟩ := ih isPlace
    refine ⟨letter :: content, rest, rfl, rfl, fun earlier later same => ?_⟩
    cases earlier with
    | nil =>
      refine absurd (List.isPrefixOf_iff_prefix.mpr ⟨later ++ rest, ?_⟩) notPrefix
      rw [← List.append_assoc, ← nil_append needle, ← same]
      simp
    | cons other earlier => exact first earlier later (by simpa using (cons.inj same).2)

theorem find_eq_none_iff (nonempty : needle ≠ []) :
    find needle text = none ↔ ¬needle <:+: text := by
  induction text with
  | nil => simp [find, nonempty]
  | cons letter rest ih =>
    rw [find]
    split
    · rename_i isPrefix
      simp [(List.isPrefixOf_iff_prefix.mp isPrefix).isInfix]
    rename_i notPrefix
    rw [Option.map_eq_none_iff, ih, List.infix_cons_iff, not_or, ← List.isPrefixOf_iff_prefix]
    simp [notPrefix]

end Dollars

/-! ## The body and the marker scanner -/

/-- The scanner copies a body: it comes to its end without a marker, in ordinary text unless the
text ends there. -/
def Copied (before body rest : Bytes) : Prop :=
  ∃ tokens last, markerScanner.Reads .normal before (body ++ rest) tokens last
    (body.reverse ++ before) rest ∧ (∀ token ∈ tokens, token.iteration.marker = false) ∧
    (last = .normal ∨ rest = [])

section Copies

variable {before rest text behind ahead extra : Bytes} {ch : UInt8} {body last : LexicalBody}
  {tokens : List MarkerToken} {kind : LexicalBody → Prop} {found : Option Nat}

theorem quotedLexeme_marker (body : LexicalBody) (quote ch : UInt8) (rest : Bytes) :
    (quotedLexeme body quote ch rest).marker = false := by
  unfold quotedLexeme
  split
  · split <;> rfl
  · split <;> rfl

theorem nextLexeme_marker (within : body ≠ .normal) (before : Bytes) (ch : UInt8) (rest : Bytes) :
    (nextLexeme body before ch rest).marker = false := by
  cases body with
  | normal => exact absurd rfl within
  | singleQuote | escapeString | doubleQuote => exact quotedLexeme_marker _ _ _ _
  | lineComment => rfl
  | blockComment depth =>
    simp only [nextLexeme]
    split
    · rfl
    · split <;> rfl
  | dollarQuote delimiter =>
    simp only [nextLexeme]
    split <;> rfl

theorem marker_of_reads (reads : markerScanner.Reads body before text tokens last behind ahead) :
    ∀ token ∈ tokens, token.start ≠ .normal → token.iteration.marker = false := by
  induction reads with
  | done => simp
  | @step body last before rest behind ahead ch tokens _ ih =>
    refine List.forall_mem_cons.mpr ⟨fun within => ?_, ih⟩
    exact nextLexeme_marker within before ch rest

theorem copied_of_ends (lexeme : nextLexeme .normal before ch (extra ++ rest) =
      ⟨extra.length + 1, false, body⟩)
    (ends : Ends kind body ((ch :: extra).reverse ++ before) rest found)
    (within : ∀ {body}, kind body → body ≠ .normal) :
    ∃ closed more, rest = closed ++ more ∧ closed.length = found.getD rest.length ∧
      (found = none → more = []) ∧ Copied before (ch :: extra ++ closed) more := by
  have opening := markerScanner_piece lexeme
  cases found with
  | none =>
    obtain ⟨tokens, last, reads, inBody, -⟩ := ends
    refine ⟨rest, [], by simp, rfl, fun _ => rfl,
      ⟨.normal, ch :: extra, ⟨extra.length + 1, false, body⟩⟩ :: tokens, last, ?_, ?_, .inr rfl⟩
    · simpa using opening.trans reads
    · exact List.forall_mem_cons.mpr ⟨rfl, fun token isToken =>
        marker_of_reads reads token isToken (within (inBody token isToken))⟩
  | some size =>
    obtain ⟨closed, more, rfl, rfl, tokens, reads, inBody⟩ := ends
    refine ⟨closed, more, rfl, rfl, by simp,
      ⟨.normal, ch :: extra, ⟨extra.length + 1, false, body⟩⟩ :: tokens, .normal, ?_, ?_,
      .inl rfl⟩
    · simpa using opening.trans reads
    · exact List.forall_mem_cons.mpr ⟨rfl, fun token isToken =>
        marker_of_reads reads token isToken (within (inBody token isToken))⟩

end Copies

/-- A body at a place: by the grammar, by its length, and as the scanner reads it. -/
structure BodyAt (before : Bytes) (ch : UInt8) (rest body more : Bytes) : Prop where
  text : ch :: rest = body ++ more
  isBody : Body before body more
  length : bodyLength before ch rest = some body.length
  copied : Copied before body more

variable {before rest delimiter body more : Bytes} {ch : UInt8}

theorem bodyAt_quote {quote : UInt8} {escapes : Bool} {body : LexicalBody}
    (quoting : Quoting body quote escapes) (quotes : Quotes before quote escapes)
    (isOpen : body.mayEnd = false)
    (lexeme : nextLexeme .normal before quote rest = ⟨1, false, body⟩)
    (length : bodyLength before quote rest =
      some ((quotedBody escapes quote rest).getD rest.length + 1)) :
    ∃ body more, BodyAt before quote rest body more := by
  have within : ∀ {other}, other = body → other ≠ .normal := by
    rintro _ rfl rfl
    cases isOpen
  obtain ⟨closed, more, isRest, isCount, isLast, copied⟩ := @copied_of_ends before rest [] quote
    body (· = body) _ lexeme quoting.ends within
  have isLength : bodyLength before quote rest = some (quote :: closed).length := by
    rw [length, ← isCount]
    rfl
  refine ⟨quote :: closed, more, by rw [isRest]; rfl, ?_, isLength, copied⟩
  rcases quotedBody_cases escapes quote rest with ⟨content, others, same, isContent, single, isEnd⟩ |
    ⟨isNone, isContent⟩
  · rw [isEnd, Option.getD_some] at isCount
    obtain ⟨rfl, rfl⟩ : closed = content ++ [quote] ∧ more = others :=
      append_inj (by rw [← isRest, same]; simp) (by simpa using isCount)
    exact .quoted quotes isContent single
  obtain rfl := isLast isNone
  rw [append_nil] at isRest
  subst isRest
  rcases isContent with isContent | ⟨rfl, content, rfl, isContent⟩
  · exact .openQuoted quotes isContent
  · exact .danglingEscape quotes isContent

theorem bodyAt_single : ∃ body more, BodyAt before 39 rest body more := by
  cases isEscape : opensEscapeString before with
  | true =>
    refine bodyAt_quote quoting_escape (.escapeString ((opensEscapeString_iff before).mp isEscape))
      rfl ?_ (by rw [bodyLength, if_pos rfl, isEscape])
    simp [nextLexeme, normalLexeme, isEscape]
    decide
  | false =>
    refine bodyAt_quote quoting_single (.string ?_) rfl ?_
      (by rw [bodyLength, if_pos rfl, isEscape])
    · rw [← opensEscapeString_iff, isEscape]
      simp
    · simp [nextLexeme, normalLexeme, isEscape]
      decide

theorem bodyAt_double : ∃ body more, BodyAt before (code '"') rest body more :=
  bodyAt_quote quoting_double .identifier rfl rfl rfl

theorem bodyAt_line : ∃ body more, BodyAt before (code '-') (code '-' :: rest) body more := by
  have length : bodyLength before (code '-') (code '-' :: rest) = some (lineBody rest + 2) := rfl
  have lexeme : nextLexeme .normal before (code '-') ([code '-'] ++ rest) =
      ⟨2, false, .lineComment⟩ := rfl
  rcases line_cases rest with ⟨line, lineBreak, more, rfl, within, isBreak, isBody⟩ |
    ⟨within, isBody⟩
  · obtain ⟨closed, others, isRest, isCount, -, copied⟩ := copied_of_ends lexeme
      (lineComment_closes within isBreak) (by rintro _ rfl; simp)
    obtain ⟨rfl, rfl⟩ : closed = line ++ [lineBreak] ∧ others = more :=
      append_inj (by rw [← isRest]; simp) (by simpa using isCount)
    refine ⟨_, _, by simp, .line within isBreak, ?_, copied⟩
    rw [length, isBody]
    simp
  obtain ⟨closed, others, isRest, -, isLast, copied⟩ := copied_of_ends lexeme
    (lineComment_stays within) (by rintro _ rfl; simp)
  obtain rfl := isLast rfl
  rw [append_nil] at isRest
  subst isRest
  refine ⟨_, _, by simp, .lastLine within, ?_, copied⟩
  rw [length, isBody]
  rfl

theorem bodyAt_block : ∃ body more, BodyAt before (code '/') (code '*' :: rest) body more := by
  have length : bodyLength before (code '/') (code '*' :: rest) =
      some ((blockBody 1 rest).getD rest.length + 2) := rfl
  have lexeme : nextLexeme .normal before (code '/') ([code '*'] ++ rest) =
      ⟨2, false, .blockComment 1⟩ := rfl
  obtain ⟨closed, more, isRest, isCount, isLast, copied⟩ := copied_of_ends lexeme
    (blockComment_ends Nat.one_pos) (by rintro _ ⟨depth, rfl⟩; simp)
  refine ⟨code '/' :: code '*' :: closed, more, by simp [isRest], ?_, ?_, copied⟩
  · rcases blockBody_cases 1 rest (by omega) with ⟨content, others, same, isText, isEnd⟩ |
      ⟨isNone, final, isText⟩
    · rw [isEnd, Option.getD_some] at isCount
      obtain ⟨rfl, rfl⟩ : closed = content ∧ more = others :=
        append_inj (by rw [← isRest, same]) isCount
      exact .comment isText
    obtain rfl := isLast isNone
    rw [append_nil] at isRest
    exact .openComment (isRest ▸ isText)
  · rw [length, ← isCount]
    rfl

theorem dollar_notMem_of_isTag {tag : Bytes} (tagged : isTag tag = true) : code '$' ∉ tag := by
  intro present
  rw [isTag, Bool.and_eq_true, all_eq_true] at tagged
  exact absurd (tagged.2 _ present) (by decide)

theorem dollarDelimiter_eq_some_iff :
    dollarDelimiter rest = some delimiter ↔ ∃ tag more, rest = tag ++ code '$' :: more ∧
      isTag tag = true ∧ delimiter = delimiterOfTag tag := by
  constructor
  · intro found
    by_cases present : code '$' ∈ rest
    · obtain ⟨tag, more, rfl, free⟩ := eq_append_cons_of_mem present
      rw [dollarDelimiter_name free] at found
      split at found
      · exact ⟨tag, more, rfl, ‹_›, (Option.some.inj found).symm⟩
      · cases found
    · rw [dollarDelimiter_of_notMem present] at found
      cases found
  · rintro ⟨tag, more, rfl, tagged, rfl⟩
    rw [dollarDelimiter_name (dollar_notMem_of_isTag tagged), if_pos tagged]
    rfl

theorem bodyLength_dollar {tag more : Bytes}
    (apart : before.head?.any isIdentifierContinue = false) (tagged : isTag tag = true) :
    bodyLength before (code '$') (tag ++ code '$' :: more) =
      some (((find (delimiterOfTag tag) more).map (· + (delimiterOfTag tag).length)).getD
        more.length + (delimiterOfTag tag).length) := by
  have isDelimiter := dollarDelimiter_eq_some_iff.mpr ⟨tag, more, rfl, tagged, rfl⟩
  have dropped : (tag ++ code '$' :: more).drop ((delimiterOfTag tag).length - 1) = more := by
    have isText : tag ++ code '$' :: more = (tag ++ [code '$']) ++ more := by simp
    have isLength : (delimiterOfTag tag).length - 1 = (tag ++ [code '$']).length := by
      simp [delimiterOfTag]
    rw [isText, isLength, drop_left]
  rw [bodyLength, if_neg (by decide), if_neg (by decide),
    if_neg fun isLine => absurd isLine.1 (by decide),
    if_neg fun isBlock => absurd isBlock.1 (by decide), if_pos ⟨rfl, by rw [apart]; rfl⟩,
    isDelimiter, Option.map_some, dropped]

theorem bodyAt_dollar (apart : before.head?.any isIdentifierContinue = false)
    (isDelimiter : dollarDelimiter rest = some delimiter) :
    ∃ body more, BodyAt before (code '$') rest body more := by
  obtain ⟨tag, more, rfl, tagged, rfl⟩ := dollarDelimiter_eq_some_iff.mp isDelimiter
  have isText : tag ++ code '$' :: more = (tag ++ [code '$']) ++ more := by simp
  have lexeme : nextLexeme .normal before (code '$') ((tag ++ [code '$']) ++ more) =
      ⟨(tag ++ [code '$']).length + 1, false, .dollarQuote (delimiterOfTag tag)⟩ := by
    rw [← isText, nextLexeme_dollar, apart, isDelimiter]
    simp [delimiterOfTag]
  obtain ⟨closed, others, isRest, isCount, isLast, copied⟩ := copied_of_ends lexeme
    (dollarQuote_ends (by simp [delimiterOfTag])) (by rintro _ rfl; simp)
  refine ⟨delimiterOfTag tag ++ closed, others, by simp [delimiterOfTag, isRest], ?_, ?_, copied⟩
  · cases isFound : find (delimiterOfTag tag) more with
    | none =>
      obtain rfl := isLast (by rw [isFound]; rfl)
      rw [append_nil] at isRest
      refine .openDollar apart tagged (isRest ▸ ?_)
      exact (find_eq_none_iff (by simp [delimiterOfTag])).mp isFound
    | some place =>
      obtain ⟨content, after, same, rfl, first⟩ :=
        find_eq_some (by simp [delimiterOfTag]) isFound
      rw [isFound] at isCount
      obtain ⟨rfl, rfl⟩ : closed = content ++ delimiterOfTag tag ∧ others = after :=
        append_inj (by rw [← isRest, same]; simp) (by simpa using isCount)
      exact .dollar apart tagged first
  · rw [bodyLength_dollar apart tagged, ← isCount, length_append, Nat.add_comm]

theorem place_cases (before : Bytes) (ch : UInt8) (rest : Bytes) :
    (∃ body more, BodyAt before ch rest body more) ∨ (bodyLength before ch rest = none ∧
        nextLexeme .normal before ch rest = ⟨1, ch = code '?', .normal⟩) := by
  by_cases isSingle : ch = 39
  · exact .inl (isSingle ▸ bodyAt_single)
  by_cases isDouble : ch = code '"'
  · exact .inl (isDouble ▸ bodyAt_double)
  by_cases isLine : ch = code '-' ∧ rest.head? = some (code '-')
  · obtain ⟨rfl, isNext⟩ := isLine
    obtain ⟨more, rfl⟩ := List.head?_eq_some_iff.mp isNext
    exact .inl bodyAt_line
  by_cases isBlock : ch = code '/' ∧ rest.head? = some (code '*')
  · obtain ⟨rfl, isNext⟩ := isBlock
    obtain ⟨more, rfl⟩ := List.head?_eq_some_iff.mp isNext
    exact .inl bodyAt_block
  have isLength : bodyLength before ch rest =
      if ch = code '$' ∧ !(before.head?.any isIdentifierContinue) then
        (dollarDelimiter rest).map fun delimiter =>
          let after := rest.drop (delimiter.length - 1)
          ((find delimiter after).map (· + delimiter.length)).getD after.length + delimiter.length
      else none := by
    rw [bodyLength, if_neg isSingle, if_neg isDouble, if_neg isLine, if_neg isBlock]
  by_cases isDollar : ch = code '$' ∧ !(before.head?.any isIdentifierContinue)
  · obtain ⟨rfl, apart⟩ := isDollar
    rw [Bool.not_eq_true'] at apart
    cases isDelimiter : dollarDelimiter rest with
    | some delimiter => exact .inl (bodyAt_dollar apart isDelimiter)
    | none =>
      refine .inr ⟨by simp [isLength, isDelimiter], ?_⟩
      rw [nextLexeme_dollar, apart, isDelimiter]
      rfl
  refine .inr ⟨by rw [isLength, if_neg isDollar], ?_⟩
  simp only [nextLexeme, normalLexeme, if_neg isDouble, if_neg isSingle, if_neg isLine,
    if_neg isBlock, if_neg isDollar]
  split <;> simp [*]

/-- A body is as long as the scanning functions say. -/
theorem Body.length_eq (isBody : Body before body more) :
    ∃ ch rest, body ++ more = ch :: rest ∧ bodyLength before ch rest = some body.length := by
  have quoted {quote : UInt8} {escapes : Bool} (quotes : Quotes before quote escapes)
      (rest : Bytes) : code '\\' ≠ quote ∧ bodyLength before quote rest =
        some ((quotedBody escapes quote rest).getD rest.length + 1) := by
    cases quotes with
    | string plain =>
      rw [← opensEscapeString_iff, Bool.not_eq_true] at plain
      exact ⟨by decide, by rw [bodyLength, if_pos rfl, plain]⟩
    | escapeString escape =>
      rw [← opensEscapeString_iff] at escape
      exact ⟨by decide, by rw [bodyLength, if_pos rfl, escape]⟩
    | identifier => exact ⟨by decide, rfl⟩
  cases isBody with
  | @quoted quote escapes content _ quotes isContent single =>
    obtain ⟨plain, isLength⟩ := quoted quotes (content ++ quote :: more)
    refine ⟨quote, content ++ quote :: more, by simp, ?_⟩
    rw [isLength, quotedBody_append isContent plain, quotedBody_close plain single]
    simp
    omega
  | @openQuoted quote escapes content quotes isContent =>
    obtain ⟨plain, isLength⟩ := quoted quotes content
    have isOpen := @quotedBody_append quote escapes content [] isContent plain
    rw [append_nil] at isOpen
    refine ⟨quote, content, by simp, ?_⟩
    rw [isLength, isOpen]
    rfl
  | @danglingEscape quote content quotes isContent =>
    obtain ⟨plain, isLength⟩ := quoted quotes (content ++ [code '\\'])
    refine ⟨quote, content ++ [code '\\'], by simp, ?_⟩
    rw [isLength, quotedBody_append isContent plain, quotedBody, if_neg plain]
    rfl
  | @line content _ lineBreak within isBreak =>
    refine ⟨code '-', code '-' :: (content ++ lineBreak :: more), by simp, ?_⟩
    have isLength : bodyLength before (code '-') (code '-' :: (content ++ lineBreak :: more)) =
        some (lineBody (content ++ lineBreak :: more) + 2) := rfl
    rw [isLength, lineBody_break within isBreak]
    simp
  | @lastLine content within =>
    refine ⟨code '-', code '-' :: content, by simp, ?_⟩
    have isLength : bodyLength before (code '-') (code '-' :: content) =
        some (lineBody content + 2) := rfl
    rw [isLength, lineBody_last within]
    rfl
  | @comment content _ isContent =>
    refine ⟨code '/', code '*' :: (content ++ more), rfl, ?_⟩
    have isLength : bodyLength before (code '/') (code '*' :: (content ++ more)) =
        some ((blockBody 1 (content ++ more)).getD (content ++ more).length + 2) := rfl
    rw [isLength, blockBody_closed isContent rfl (by omega)]
    rfl
  | @openComment content depth isContent =>
    refine ⟨code '/', code '*' :: content, by simp, ?_⟩
    have isLength : bodyLength before (code '/') (code '*' :: content) =
        some ((blockBody 1 content).getD content.length + 2) := rfl
    rw [isLength, blockBody_open isContent (by omega)]
    rfl
  | @dollar tag content _ apart tagged first =>
    refine ⟨code '$', tag ++ code '$' :: (content ++ (delimiterOfTag tag ++ more)),
      by simp [delimiterOfTag], ?_⟩
    rw [bodyLength_dollar apart tagged, find_first (by simp [delimiterOfTag]) more first]
    simp
    omega
  | @openDollar tag content apart tagged free =>
    refine ⟨code '$', tag ++ code '$' :: content, by simp [delimiterOfTag], ?_⟩
    rw [bodyLength_dollar apart tagged, (find_eq_none_iff (by simp [delimiterOfTag])).mpr free]
    simp
    omega

theorem Body.ne_nil (isBody : Body before body more) : body ≠ [] := by
  cases isBody <;> simp [delimiterOfTag]

theorem Body.unique {body more other others : Bytes} (first : Body before body more)
    (second : Body before other others) (same : body ++ more = other ++ others) :
    body = other ∧ more = others := by
  obtain ⟨ch, rest, isText, isLength⟩ := first.length_eq
  obtain ⟨ch', rest', isOther, isLength'⟩ := second.length_eq
  obtain ⟨rfl, rfl⟩ := cons.inj (isText.symm.trans (same.trans isOther))
  exact append_inj same (Option.some.inj (isLength.symm.trans isLength'))

end Odbcpp.Postgres
