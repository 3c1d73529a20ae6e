import Mathlib.Data.List.TakeWhile
import Odbcpp.Postgres.Segments
import Odbcpp.Postgres.FragmentWalk

/-!
# Lexical bodies

Where the marker scanner leaves a lexical body: at the place that `quoted_end`,
`comment_end` and `dollar_end` compute, or, where they find none, nowhere.
-/

namespace Odbcpp.Postgres

open Foundation Util Dialect List

variable {body : LexicalBody} {before text rest : Bytes} {ch : UInt8} {found : Option Nat}
  {starts continues : UInt8 → Bool}

/-! ## Leaving a body -/

theorem markerScanner_piece {extra : Bytes} {marker : Bool} {next : LexicalBody}
    (isNext : nextLexeme body before ch (extra ++ rest) = ⟨extra.length + 1, marker, next⟩) :
    markerScanner.Reads body before (ch :: (extra ++ rest))
      [⟨body, ch :: extra, ⟨extra.length + 1, marker, next⟩⟩] next
      ((ch :: extra).reverse ++ before) rest :=
  @Scanner.Reads.piece _ _ _ markerScanner _ _ _ _ _ _ isNext (by simp [markerScanner])

variable (kind : LexicalBody → Prop)

/-- The scanner is in bodies of a kind up to the end of `closed`, and in ordinary text then. -/
def Closes (body : LexicalBody) (before closed rest : Bytes) : Prop :=
  ∃ tokens, markerScanner.Reads body before (closed ++ rest) tokens .normal
    (closed.reverse ++ before) rest ∧ ∀ token ∈ tokens, kind token.start

def Stays (body : LexicalBody) (before text : Bytes) : Prop :=
  ∃ tokens last, markerScanner.Reads body before text tokens last (text.reverse ++ before) [] ∧
    (∀ token ∈ tokens, kind token.start) ∧ kind last

/-- The number of bytes after which the scanner leaves a body, if it does. -/
def Ends (body : LexicalBody) (before text : Bytes) : Option Nat → Prop
  | some n => ∃ closed rest, text = closed ++ rest ∧ closed.length = n ∧
      Closes kind body before closed rest
  | none => Stays kind body before text

namespace Ends

variable {kind : LexicalBody → Prop}

theorem nil (isKind : kind body) : Ends kind body before [] none :=
  ⟨[], body, .done, by simp, isKind⟩

theorem last (extra : Bytes) (within : kind body)
    (isNext : nextLexeme body before ch (extra ++ rest) = ⟨extra.length + 1, false, .normal⟩) :
    Ends kind body before (ch :: (extra ++ rest)) (some (extra.length + 1)) :=
  ⟨ch :: extra, rest, rfl, rfl, _, markerScanner_piece isNext, by simpa using within⟩

theorem step (extra : Bytes) {next} (within : kind body)
    (isNext : nextLexeme body before ch (extra ++ rest) = ⟨extra.length + 1, false, next⟩)
    (ends : Ends kind next ((ch :: extra).reverse ++ before) rest found) :
    Ends kind body before (ch :: (extra ++ rest)) (found.map (· + (extra.length + 1))) := by
  have first := markerScanner_piece isNext
  cases found with
  | none =>
    obtain ⟨tokens, last, reads, inBody, isKind⟩ := ends
    refine ⟨_, last, by simpa using first.trans reads, ?_, isKind⟩
    simpa using ⟨within, inBody⟩
  | some n =>
    obtain ⟨closed, rest, rfl, rfl, tokens, reads, inBody⟩ := ends
    refine ⟨ch :: extra ++ closed, rest, by simp, by simp; omega, _,
      by simpa using first.trans reads, ?_⟩
    simpa using ⟨within, inBody⟩

end Ends

/-! ## Quoted bodies -/

/-- A body that ends with a quote of its kind. -/
structure Quoting (body : LexicalBody) (quote : UInt8) (escapeString : Bool) : Prop where
  next : ∀ before ch rest, nextLexeme body before ch rest = quotedLexeme body quote ch rest
  escape : body = .escapeString ↔ escapeString = true
  plain : code '\\' ≠ quote

theorem quoting_single : Quoting .singleQuote 39 false :=
  ⟨fun _ _ _ => rfl, by simp, by decide⟩

theorem quoting_escape : Quoting .escapeString 39 true :=
  ⟨fun _ _ _ => rfl, by simp, by decide⟩

theorem quoting_double : Quoting .doubleQuote (code '"') false :=
  ⟨fun _ _ _ => rfl, by simp, by decide⟩

theorem Quoting.ends {quote : UInt8} {escapeString : Bool}
    (quoting : Quoting body quote escapeString) :
    Ends (· = body) body before text (quotedBody escapeString quote text) := by
  fun_induction quotedBody escapeString quote text generalizing before with
  | case1 => exact .nil rfl
  | case2 =>
    refine .last [] rfl ?_
    simp [quoting.next, quotedLexeme]
  | case3 last differs =>
    have isNext : nextLexeme body before last [] = ⟨1, false, body⟩ := by
      rw [quoting.next, quotedLexeme, if_neg differs, if_neg (by simp)]
    exact @Ends.step _ _ _ _ none _ [] _ rfl isNext (.nil rfl)
  | case4 ch next rest isEscape ih =>
    simp only [Bool.and_eq_true, decide_eq_true_eq] at isEscape
    obtain ⟨escape, rfl⟩ := isEscape
    refine .step [next] rfl ?_ ih
    rw [quoting.next, quotedLexeme, if_neg quoting.plain,
      if_pos ⟨quoting.escape.mpr escape, rfl, by simp⟩]
    rfl
  | case5 ch next rest unescaped differs ih =>
    refine .step [] rfl ?_ ih
    rw [quoting.next, quotedLexeme, if_neg differs, if_neg]
    · rfl
    · rintro ⟨isEscape, isBackslash, -⟩
      exact unescaped (by simp [quoting.escape.mp isEscape, isBackslash])
  | case6 ch rest unescaped same ih =>
    obtain rfl := not_not.mp same
    refine .step [ch] rfl ?_ ih
    rw [quoting.next, quotedLexeme, if_pos rfl, if_pos (by simp)]
    rfl
  | case7 ch next rest unescaped same differs =>
    obtain rfl := not_not.mp same
    refine .last [] rfl ?_
    rw [quoting.next, quotedLexeme, if_pos rfl, if_neg (by simpa using differs)]
    rfl

/-! ## Comments -/

theorem lineComment_closes {line : Bytes} {lineBreak : UInt8}
    (within : ∀ letter ∈ line, letter ≠ 13 ∧ letter ≠ 10)
    (isBreak : lineBreak = 13 ∨ lineBreak = 10) :
    Ends (· = .lineComment) .lineComment before (line ++ lineBreak :: rest)
      (some (line.length + 1)) := by
  induction line generalizing before with
  | nil =>
    refine .last [] rfl ?_
    rcases isBreak with rfl | rfl <;> simp [nextLexeme]
  | cons ch line ih =>
    obtain ⟨notReturn, notFeed⟩ := within ch mem_cons_self
    refine @Ends.step _ _ _ _ (some _) _ [] .lineComment rfl ?_
      (ih fun letter present => within letter (mem_cons_of_mem _ present))
    simp [nextLexeme, notReturn, notFeed]

theorem lineComment_stays (within : ∀ letter ∈ text, letter ≠ 13 ∧ letter ≠ 10) :
    Ends (· = .lineComment) .lineComment before text none := by
  induction text generalizing before with
  | nil => exact .nil rfl
  | cons ch text ih =>
    obtain ⟨notReturn, notFeed⟩ := within ch mem_cons_self
    refine @Ends.step _ _ _ _ none _ [] .lineComment rfl ?_
      (ih fun letter present => within letter (mem_cons_of_mem _ present))
    simp [nextLexeme, notReturn, notFeed]

theorem line_cases (text : Bytes) : (∃ line lineBreak rest, text = line ++ lineBreak :: rest ∧
      (∀ letter ∈ line, letter ≠ 13 ∧ letter ≠ 10) ∧ (lineBreak = 13 ∨ lineBreak = 10) ∧
      lineBody text = line.length + 1) ∨
    ((∀ letter ∈ text, letter ≠ 13 ∧ letter ≠ 10) ∧ lineBody text = text.length) := by
  induction text with
  | nil => exact .inr ⟨by simp, rfl⟩
  | cons ch text ih =>
    by_cases isBreak : ch = 13 ∨ ch = 10
    · refine .inl ⟨[], ch, text, rfl, by simp, isBreak, ?_⟩
      rcases isBreak with rfl | rfl <;> simp [lineBody]
    obtain ⟨notReturn, notFeed⟩ := not_or.mp isBreak
    have longer : lineBody (ch :: text) = lineBody text + 1 := by
      simp [lineBody, notReturn, notFeed]
      split <;> rfl
    rcases ih with ⟨line, lineBreak, rest, rfl, within, isBreak, isBody⟩ | ⟨within, isBody⟩
    · refine .inl ⟨ch :: line, lineBreak, rest, rfl, ?_, isBreak, ?_⟩
      · simpa [notReturn, notFeed] using within
      · simp [longer, isBody]
    · refine .inr ⟨?_, by simp [longer, isBody]⟩
      simpa [notReturn, notFeed] using within

theorem blockComment_ends {depth : Nat} (positive : 0 < depth) :
    Ends (fun last => ∃ depth, last = .blockComment depth) (.blockComment depth) before text
      (blockBody depth text) := by
  fun_induction blockBody depth text generalizing before with
  | case1 depth => exact .nil ⟨depth, rfl⟩
  | case2 depth last =>
    have isNext : nextLexeme (.blockComment depth) before last [] =
        ⟨1, false, .blockComment depth⟩ := by simp [nextLexeme]
    exact @Ends.step _ _ _ _ none _ [] _ ⟨depth, rfl⟩ isNext (.nil ⟨depth, rfl⟩)
  | case3 depth ch next rest opens ih =>
    simp only [Bool.and_eq_true, decide_eq_true_eq] at opens
    refine .step [next] ⟨depth, rfl⟩ ?_ (ih (by omega))
    simp [nextLexeme, opens]
  | case4 depth ch next rest unopened closes isLast =>
    simp only [Bool.and_eq_true, decide_eq_true_eq] at closes
    obtain ⟨rfl, rfl⟩ := closes
    refine .last [code '/'] ⟨depth, rfl⟩ ?_
    simp [nextLexeme, isLast, show code '*' ≠ code '/' from by decide]
  | case5 depth ch next rest unopened closes isInner ih =>
    simp only [Bool.and_eq_true, decide_eq_true_eq] at closes
    obtain ⟨rfl, rfl⟩ := closes
    refine .step [code '/'] ⟨depth, rfl⟩ ?_ (ih (by omega))
    simp [nextLexeme, isInner, show code '*' ≠ code '/' from by decide]
  | case6 depth ch next rest unopened unclosed ih =>
    simp only [Bool.and_eq_true, decide_eq_true_eq] at unopened unclosed
    refine .step [] ⟨depth, rfl⟩ ?_ (ih positive)
    simp [nextLexeme, unopened, unclosed]

/-! ## Dollar-quoted bodies -/

theorem dollarQuote_ends {delimiter : Bytes} (nonempty : delimiter ≠ []) :
    Ends (· = .dollarQuote delimiter) (.dollarQuote delimiter) before text
      ((find delimiter text).map (· + delimiter.length)) := by
  induction text generalizing before with
  | nil =>
    rw [find, if_neg nonempty]
    exact .nil rfl
  | cons ch rest ih =>
    rw [find]
    by_cases isPrefix : delimiter.isPrefixOf (ch :: rest) = true
    · obtain ⟨more, isText⟩ := isPrefixOf_iff_prefix.mp isPrefix
      rcases delimiter with _ | ⟨first, tag⟩
      · exact absurd rfl nonempty
      obtain ⟨rfl, rfl⟩ := List.cons.inj isText
      rw [if_pos isPrefix]
      have ends := @Ends.last _ _ more _ (· = .dollarQuote (first :: tag)) tag
        rfl (show nextLexeme _ before first (tag ++ more) = _ from if_pos isPrefix)
      simpa using ends
    · rw [if_neg isPrefix, Option.map_map]
      have ends := @Ends.step _ _ _ _ _ (· = .dollarQuote delimiter) [] _ rfl
        (show nextLexeme (.dollarQuote delimiter) before ch rest = ⟨1, false, _⟩ from
          if_neg isPrefix) (@ih (ch :: before))
      simpa [Function.comp_def, Nat.add_right_comm] using ends

theorem identifierContinue_eq : identifierContinue = isIdentifierContinue := rfl

theorem escapeStringAt_eq (before : Bytes) : escapeStringAt before = opensEscapeString before := by
  rcases before with - | ⟨last, - | ⟨earlier, before⟩⟩ <;> rfl

/-- What may stand between the dollar signs of a delimiter. -/
def isTag (name : Bytes) : Bool :=
  name.head?.all isDollarTagStart && name.all isDollarTagContinue

variable {name more : Bytes}

theorem takeWhile_name (free : code '$' ∉ name) :
    (name ++ code '$' :: more).takeWhile (· ≠ code '$') = name := by
  rw [takeWhile_append_of_pos]
  · simp
  intro letter present
  have differs : letter ≠ code '$' := fun same => free (same ▸ present)
  simpa using differs

theorem dollarTagAt_name (free : code '$' ∉ name)
    (apart : before.head?.any isIdentifierContinue = false) :
    dollarTagAt before (code '$' :: (name ++ code '$' :: more)) =
      if isTag name then some (code '$' :: name ++ [code '$']) else none := by
  have starts : (name.head?.any fun start => !isAlpha start && start ≠ code '_') =
      !name.head?.all isDollarTagStart := by
    cases name <;> simp [isDollarTagStart]
  have continues : (name.all fun letter => isAlpha letter || isDigit letter || letter = code '_') =
      name.all isDollarTagContinue := rfl
  have shorter : name.length ≠ (name ++ code '$' :: more).length := by simp
  simp only [dollarTagAt, identifierContinue_eq, apart, takeWhile_name free, starts, continues,
    isTag, ne_eq, not_true_eq_false, decide_false, Bool.or_self, Bool.false_eq_true, if_false,
    if_neg shorter]
  by_cases isStart : name.head?.all isDollarTagStart = true <;>
    by_cases isContinue : name.all isDollarTagContinue = true <;>
    simp [isStart, isContinue]

theorem exists_first_of_all_eq_false {p : UInt8 → Bool} {list : Bytes}
    (fails : list.all p = false) :
    ∃ good bad rest, list = good ++ bad :: rest ∧ good.all p = true ∧ p bad = false := by
  induction list with
  | nil => cases fails
  | cons letter list ih =>
    cases isGood : p letter with
    | false => exact ⟨[], letter, list, rfl, rfl, isGood⟩
    | true =>
      obtain ⟨good, bad, rest, rfl, goods, isBad⟩ := ih (by simpa [isGood] using fails)
      exact ⟨letter :: good, bad, rest, rfl, by simpa [isGood] using goods, isBad⟩

/-- The delimiter of a name between dollar signs, where `starts` and `continues` say what a
tag is. -/
def delimiterOf (starts continues : UInt8 → Bool) (rest : Bytes) : Option Bytes :=
  let tag := if rest.head?.any starts then rest.takeWhile continues else []
  if (rest.drop tag.length).head? = some (code '$') then some (code '$' :: tag ++ [code '$'])
  else none

theorem delimiterOf_name
    (notStart : starts (code '$') = false) (isStop : continues (code '$') = false)
    (free : code '$' ∉ name) : delimiterOf starts continues (name ++ code '$' :: more) =
      if name.head?.all starts && name.all continues then some (code '$' :: name ++ [code '$'])
      else none := by
  rcases name with _ | ⟨first, name⟩
  · simp [delimiterOf, notStart]
  have differs : first ≠ code '$' := fun same => free (by simp [same])
  by_cases isStart : starts first = true
  · by_cases isName : (first :: name).all continues = true
    · have whole : ((first :: name) ++ code '$' :: more).takeWhile continues =
          first :: name := by
        rw [takeWhile_append_of_pos (by simpa using isName)]
        simp [isStop]
      simp only [delimiterOf, whole, isName]
      simp [isStart]
    rw [Bool.not_eq_true] at isName
    obtain ⟨tag, bad, rest, split, isTag, isBad⟩ := exists_first_of_all_eq_false isName
    have other : bad ≠ code '$' := fun same => free (by simp [split, same])
    have part : ((first :: name) ++ code '$' :: more).takeWhile continues = tag := by
      rw [split, append_assoc, takeWhile_append_of_pos (by simpa using isTag)]
      simp [isBad]
    have dropped : (((first :: name) ++ code '$' :: more).drop tag.length).head? =
        some bad := by simp [split]
    have isHead : ((first :: name) ++ code '$' :: more).head?.any starts = true := by
      simp [isStart]
    simp only [delimiterOf, isHead, if_true, part, dropped, Option.some.injEq, other,
      if_false, isName, Bool.and_false, Bool.false_eq_true]
  · simp [delimiterOf, isStart, differs]

theorem delimiterOf_of_notMem (free : code '$' ∉ rest) :
    delimiterOf starts continues rest = none := by
  unfold delimiterOf
  extract_lets tag
  refine if_neg fun isDollar => free ?_
  exact mem_of_mem_drop (mem_of_head? isDollar)

theorem dollarDelimiter_name (free : code '$' ∉ name) : dollarDelimiter (name ++ code '$' :: more) =
      if isTag name then some (code '$' :: name ++ [code '$']) else none :=
  @delimiterOf_name isDollarTagStart isDollarTagContinue _ _ (by decide) (by decide) free

theorem dollarDelimiter_of_notMem (free : code '$' ∉ rest) : dollarDelimiter rest = none :=
  @delimiterOf_of_notMem _ isDollarTagStart isDollarTagContinue free

/-- Both scanners find the same delimiters. -/
theorem dollarTagAt_eq (before rest : Bytes) : dollarTagAt before (code '$' :: rest) =
      if before.head?.any isIdentifierContinue then none else dollarDelimiter rest := by
  cases apart : before.head?.any isIdentifierContinue with
  | true => simp [dollarTagAt, identifierContinue_eq, apart]
  | false =>
    by_cases present : code '$' ∈ rest
    · obtain ⟨name, more, rfl, free⟩ := eq_append_cons_of_mem present
      rw [dollarTagAt_name free apart, dollarDelimiter_name free]
      rfl
    rw [dollarDelimiter_of_notMem present]
    have whole : rest.takeWhile (· ≠ code '$') = rest := by
      rw [takeWhile_eq_self_iff]
      intro letter isLetter
      have differs : letter ≠ code '$' := fun same => present (same ▸ isLetter)
      simpa using differs
    simp only [dollarTagAt, whole, if_true]
    split <;> rfl

end Odbcpp.Postgres
