import Odbcpp.Util.Text

/-!
# Parameter markers

`replace_parameter_markers`: one pass over a SQL text that tells lexical bodies from ordinary text
and rewrites each `?` of the latter to `$1`, `$2`, .... An iteration is described by the number of
bytes it takes, whether they are a marker, and the body it continues in.
-/

namespace Odbcpp.Postgres

open Foundation Util List

/-- Where the scanner is. The source keeps a dollar delimiter beside its state, set only in
`Normal`; here it is a body of its own. -/
inductive LexicalBody where
  | normal
  | singleQuote
  | escapeString
  | doubleQuote
  | lineComment
  | blockComment (depth : Nat)
  | dollarQuote (delimiter : Bytes)
deriving DecidableEq

def isDollarTagStart (letter : UInt8) : Bool := isAlpha letter || letter = code '_'

def isDollarTagContinue (letter : UInt8) : Bool :=
  isAlpha letter || isDigit letter || letter = code '_'

def isIdentifierContinue (letter : UInt8) : Bool :=
  isDollarTagContinue letter || letter = code '$' || 0x80 ≤ letter

/-- Whether the quote after `before` (consumed text, last byte first) opens an
escape string: an `E` that does not end a longer identifier. -/
def opensEscapeString : Bytes → Bool
  | [] => false
  | [last] => last = code 'E' || last = code 'e'
  | last :: earlier :: _ => (last = code 'E' || last = code 'e') && !isIdentifierContinue earlier

/-- The delimiter that starts at a dollar sign followed by `rest`, if any. -/
def dollarDelimiter (rest : Bytes) : Option Bytes :=
  let tag := if (rest.head?.any isDollarTagStart) then rest.takeWhile isDollarTagContinue else []
  if (rest.drop tag.length).head? = some (code '$') then some (code '$' :: tag ++ [code '$'])
  else none

/-- One iteration of the scanner: the number of bytes taken, whether they are a
parameter marker, and where the scan continues. -/
structure Lexeme where
  size : Nat
  marker : Bool := false
  body : LexicalBody
deriving DecidableEq

/-- A quoted body: the quote ends it unless it is doubled, and a backslash of an
escape string takes the next byte along. -/
def quotedLexeme (body : LexicalBody) (quote ch : UInt8) (rest : Bytes) : Lexeme :=
  if ch = quote then
    if rest.head? = some quote then ⟨2, false, body⟩ else ⟨1, false, .normal⟩
  else if body = .escapeString ∧ ch = code '\\' ∧ rest ≠ [] then ⟨2, false, body⟩
  else ⟨1, false, body⟩

/-- Ordinary SQL text. -/
def normalLexeme (before : Bytes) (ch : UInt8) (rest : Bytes) : Lexeme :=
  if ch = code '"' then ⟨1, false, .doubleQuote⟩
  else if ch = 39 then
    ⟨1, false, if opensEscapeString before then .escapeString else .singleQuote⟩
  else if ch = code '-' ∧ rest.head? = some (code '-') then ⟨2, false, .lineComment⟩
  else if ch = code '/' ∧ rest.head? = some (code '*') then ⟨2, false, .blockComment 1⟩
  else if ch = code '$' ∧ !(before.head?.any isIdentifierContinue) then
    match dollarDelimiter rest with
    | some delimiter => ⟨delimiter.length, false, .dollarQuote delimiter⟩
    | none => ⟨1, false, .normal⟩
  else if ch = code '?' then ⟨1, true, .normal⟩
  else ⟨1, false, .normal⟩

/-- The iteration at the byte `ch`, with `before` consumed and `rest` to come. -/
def nextLexeme (body : LexicalBody) (before : Bytes) (ch : UInt8) (rest : Bytes) : Lexeme :=
  match body with
  | .dollarQuote delimiter =>
    if delimiter.isPrefixOf (ch :: rest) then ⟨delimiter.length, false, .normal⟩
    else ⟨1, false, body⟩
  | .lineComment => ⟨1, false, if ch = 10 ∨ ch = 13 then .normal else .lineComment⟩
  | .blockComment depth =>
    if ch = code '/' ∧ rest.head? = some (code '*') then ⟨2, false, .blockComment (depth + 1)⟩
    else if ch = code '*' ∧ rest.head? = some (code '/') then
      ⟨2, false, if depth - 1 = 0 then .normal else .blockComment (depth - 1)⟩
    else ⟨1, false, body⟩
  | .singleQuote | .escapeString => quotedLexeme body 39 ch rest
  | .doubleQuote => quotedLexeme body (code '"') ch rest
  | .normal => normalLexeme before ch rest

structure ParameterMarkerRewrite where
  sql : Bytes
  markerCount : Nat
deriving DecidableEq

/-- The rewritten text of `text` and the final marker count, within `steps`
iterations. -/
def rewriteMarkersWithin : Nat → LexicalBody → Bytes → Nat → Bytes → ParameterMarkerRewrite
  | 0, _, _, markers, _ => ⟨[], markers⟩
  | _ + 1, _, _, markers, [] => ⟨[], markers⟩
  | steps + 1, body, before, markers, ch :: rest =>
    let lexeme := nextLexeme body before ch rest
    let taken := (ch :: rest).take lexeme.size
    let unread := (ch :: rest).drop lexeme.size
    let markers := if lexeme.marker then markers + 1 else markers
    let rewritten :=
      rewriteMarkersWithin steps lexeme.body (taken.reverse ++ before) markers unread
    { rewritten with
      sql := (if lexeme.marker then code '$' :: decimal markers else taken) ++ rewritten.sql }

/-- Every iteration takes at least one byte, so the length bounds their number. -/
def replaceParameterMarkers (sql : Bytes) : ParameterMarkerRewrite :=
  rewriteMarkersWithin sql.length .normal [] 0 sql

/-- Rewriting introduces no NUL: copied pieces are parts of the text, and a
marker becomes a dollar sign and digits. -/
theorem zero_notMem_rewriteMarkersWithin {steps body before text markers} (clean : 0 ∉ text) :
    0 ∉ (rewriteMarkersWithin steps body before markers text).sql := by
  induction steps generalizing body before text markers with
  | zero => simp [rewriteMarkersWithin]
  | succ steps ih =>
    rcases text with _ | ⟨ch, rest⟩
    · simp [rewriteMarkersWithin]
    intro member
    rw [rewriteMarkersWithin] at member
    rcases mem_append.mp member with emitted | later
    · split at emitted
      · rcases mem_cons.mp emitted with dollar | digits
        · exact absurd dollar (by decide)
        · exact zero_notMem_decimal _ digits
      · exact clean (mem_of_mem_take emitted)
    · exact ih (fun unread => clean (mem_of_mem_drop unread)) later

theorem zero_notMem_replaceParameterMarkers {sql : Bytes} (clean : 0 ∉ sql) :
    0 ∉ (replaceParameterMarkers sql).sql :=
  zero_notMem_rewriteMarkersWithin clean

example : replaceParameterMarkers (ascii "a=? '?' E'\\'?' $x$?$x$ -- ?\n?") =
    ⟨ascii "a=$1 '?' E'\\'?' $x$?$x$ -- ?\n$2", 2⟩ := by
  decide

end Odbcpp.Postgres
