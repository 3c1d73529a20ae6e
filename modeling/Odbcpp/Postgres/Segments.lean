import Odbcpp.Foundation.Scanning
import Odbcpp.Postgres.Markers

/-!
# Segments of a SQL text

The iterations of `replace_parameter_markers` as the tokens of a scanner, and which bytes of
a text they take for parts of lexical bodies.
-/

namespace Odbcpp.Postgres

open Foundation Util List

/-- The loop of `replace_parameter_markers`. -/
def markerScanner : Scanner UInt8 LexicalBody Lexeme where
  next := nextLexeme
  extra lexeme := lexeme.size - 1
  state := Lexeme.body

abbrev MarkerToken := Token UInt8 LexicalBody Lexeme

/-- The iterations of `replace_parameter_markers` over a text. -/
def markerTokens (sql : Bytes) : List MarkerToken := markerScanner.tokens .normal [] sql

/-- The bytes of an iteration belong to a lexical body, its delimiters included. -/
def inside (token : MarkerToken) : Bool :=
  token.start ≠ .normal || token.iteration.body ≠ .normal

/-- For each byte of the iterations, whether it belongs to a lexical body. -/
def positions (tokens : List MarkerToken) : List Bool :=
  tokens.flatMap fun token => List.replicate token.taken.length (inside token)

@[simp] theorem positions_nil : positions [] = [] := rfl

theorem positions_cons (token : MarkerToken) (tokens : List MarkerToken) :
    positions (token :: tokens) =
      List.replicate token.taken.length (inside token) ++ positions tokens := rfl

@[simp] theorem positions_append (first second : List MarkerToken) :
    positions (first ++ second) = positions first ++ positions second := by
  simp [positions]

/-- For each byte of a text, whether the marker scanner takes it for a part of a lexical
body. -/
def bodyPositions (sql : Bytes) : List Bool := positions (markerTokens sql)

def LexicalBody.mayEnd (body : LexicalBody) : Bool := body = .normal || body = .lineComment

def terminated (sql : Bytes) : Bool :=
  (markerScanner.final .normal (markerTokens sql)).mayEnd

/-! ## The rewriting reads these tokens -/

/-- The text that a list of iterations emits, after a number of markers. -/
def rewriteTokens : Nat → List MarkerToken → ParameterMarkerRewrite
  | markers, [] => ⟨[], markers⟩
  | markers, token :: tokens =>
    let markers := if token.iteration.marker then markers + 1 else markers
    let rewritten := rewriteTokens markers tokens
    { rewritten with
      sql := (if token.iteration.marker then code '$' :: decimal markers else token.taken) ++
        rewritten.sql }

def LexicalBody.Delimited : LexicalBody → Prop
  | .dollarQuote delimiter => delimiter ≠ []
  | _ => True

theorem dollarDelimiter_ne_nil {rest delimiter : Bytes}
    (found : dollarDelimiter rest = some delimiter) : delimiter ≠ [] := by
  unfold dollarDelimiter at found
  extract_lets tag at found
  split at found
  · cases found
    simp
  · cases found

theorem quotedLexeme_size_pos (body : LexicalBody) (quote ch : UInt8) (rest : Bytes) :
    0 < (quotedLexeme body quote ch rest).size := by
  unfold quotedLexeme
  split
  · split <;> simp
  · split <;> simp

theorem quotedLexeme_delimited {body} (delimited : body.Delimited)
    (quote ch : UInt8) (rest : Bytes) : (quotedLexeme body quote ch rest).body.Delimited := by
  unfold quotedLexeme
  split
  · split
    · exact delimited
    · trivial
  · split <;> exact delimited

/-- Every iteration takes a byte, and no dollar delimiter is empty. -/
theorem nextLexeme_advances {body} (delimited : body.Delimited)
    (before : Bytes) (ch : UInt8) (rest : Bytes) :
    0 < (nextLexeme body before ch rest).size ∧ (nextLexeme body before ch rest).body.Delimited := by
  cases body with
  | normal =>
    simp only [nextLexeme, normalLexeme]
    split_ifs
    · exact ⟨by simp, trivial⟩
    · exact ⟨by simp, trivial⟩
    · exact ⟨by simp, trivial⟩
    · exact ⟨by simp, trivial⟩
    · exact ⟨by simp, trivial⟩
    · split
      · rename_i delimiter found
        have nonempty := dollarDelimiter_ne_nil found
        exact ⟨length_pos_iff.mpr nonempty, nonempty⟩
      · exact ⟨by simp, trivial⟩
    · exact ⟨by simp, trivial⟩
    · exact ⟨by simp, trivial⟩
  | singleQuote | escapeString | doubleQuote =>
    exact ⟨quotedLexeme_size_pos _ _ _ _, quotedLexeme_delimited delimited _ _ _⟩
  | lineComment =>
    simp only [nextLexeme]
    split <;> exact ⟨by simp, trivial⟩
  | blockComment depth =>
    simp only [nextLexeme]
    split_ifs <;> exact ⟨by simp, trivial⟩
  | dollarQuote delimiter =>
    simp only [nextLexeme]
    split
    · exact ⟨length_pos_iff.mpr delimited, trivial⟩
    · exact ⟨by simp, delimited⟩

theorem rewriteMarkersWithin_eq {steps body} (delimited : body.Delimited)
    (before : Bytes) (markers : Nat) (text : Bytes) :
    rewriteMarkersWithin steps body before markers text =
      rewriteTokens markers (markerScanner.tokensWithin steps body before text) := by
  induction steps generalizing body before markers text with
  | zero => rfl
  | succ steps ih =>
    rcases text with _ | ⟨ch, rest⟩
    · rfl
    obtain ⟨positive, still⟩ := nextLexeme_advances delimited before ch rest
    obtain ⟨extra, isSize⟩ := Nat.exists_eq_succ_of_ne_zero positive.ne'
    simp only [rewriteMarkersWithin, Scanner.tokensWithin, Scanner.token, Scanner.unread,
      rewriteTokens, markerScanner, isSize, take_succ_cons, drop_succ_cons,
      Nat.succ_sub_one] at ih ⊢
    rw [ih still]

theorem replaceParameterMarkers_eq (sql : Bytes) :
    replaceParameterMarkers sql = rewriteTokens 0 (markerTokens sql) :=
  @rewriteMarkersWithin_eq _ .normal trivial [] 0 sql

end Odbcpp.Postgres
