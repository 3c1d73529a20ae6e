import Odbcpp.Foundation.Scanning
import Odbcpp.Util.Text

/-!
# The walk over a fragment

How `translate_fragment` of the PostgreSQL dialect goes over a SQL text: where a lexical body or an
escape clause ends, and what is copied byte by byte. A place in a text is given by the bytes before
it, last first, and the bytes from it on; an end by the number of bytes up to it.
-/

namespace Odbcpp.Postgres.Dialect

open Foundation Util

def identifierContinue (letter : UInt8) : Bool :=
  isAlpha letter || isDigit letter || letter = code '_' || letter = code '$' || 0x80 ≤ letter

/-- The delimiter of a dollar-quoted string that begins here. -/
def dollarTagAt (before : Bytes) : Bytes → Option Bytes
  | [] => none
  | first :: rest =>
    if first ≠ code '$' || before.head?.any identifierContinue then none
    else
      let name := rest.takeWhile (· ≠ code '$')
      if name.length = rest.length then none
      else if name.head?.any fun start => !isAlpha start && start ≠ code '_' then none
      else if !name.all fun letter => isAlpha letter || isDigit letter || letter = code '_' then
        none
      else some (first :: name ++ [code '$'])

/-- The loop of `quoted_end`, after the opening quote. -/
def quotedBody (escapeString : Bool) (quote : UInt8) : Bytes → Option Nat
  | [] => none
  | [last] => if last = quote then some 1 else none
  | ch :: next :: rest =>
    if escapeString && ch = code '\\' then (quotedBody escapeString quote rest).map (· + 2)
    else if ch ≠ quote then (quotedBody escapeString quote (next :: rest)).map (· + 1)
    else if next = quote then (quotedBody escapeString quote rest).map (· + 2)
    else some 1

/-- An `E` that does not end a longer identifier stands before the quote. -/
def escapeStringAt : Bytes → Bool
  | [] => false
  | [last] => last = code 'E' || last = code 'e'
  | last :: earlier :: _ => (last = code 'E' || last = code 'e') && !identifierContinue earlier

def quotedEnd (before : Bytes) : Bytes → Option Nat
  | [] => none
  | quote :: rest =>
    (quotedBody (quote = 39 && escapeStringAt before) quote rest).map (· + 1)

/-- The loop of `comment_end` over a block comment, after its opening. -/
def blockBody : Nat → Bytes → Option Nat
  | _, [] | _, [_] => none
  | depth, ch :: next :: rest =>
    if ch = code '/' && next = code '*' then (blockBody (depth + 1) rest).map (· + 2)
    else if ch = code '*' && next = code '/' then
      if depth - 1 = 0 then some 2 else (blockBody (depth - 1) rest).map (· + 2)
    else (blockBody depth (next :: rest)).map (· + 1)

/-- The rest of a line comment: the line break belongs to it, and the end of the text ends
it too. -/
def lineBody (text : Bytes) : Nat :=
  let line := text.takeWhile fun letter => letter ≠ 13 && letter ≠ 10
  if line.length = text.length then line.length else line.length + 1

def opensComment (text : Bytes) : Bool := text.take 2 = ascii "--" || text.take 2 = ascii "/*"

def commentEnd (text : Bytes) : Option Nat :=
  if text.take 2 = ascii "--" then some (lineBody (text.drop 2) + 2)
  else if text.take 2 = ascii "/*" then (blockBody 1 (text.drop 2)).map (· + 2)
  else none

/-- `std::string_view::find`. -/
def find (needle : Bytes) : Bytes → Option Nat
  | [] => if needle = [] then some 0 else none
  | letter :: rest =>
    if needle.isPrefixOf (letter :: rest) then some 0 else (find needle rest).map (· + 1)

def dollarEnd (before text : Bytes) : Option Nat :=
  (dollarTagAt before text).bind fun tag =>
    (find tag (text.drop tag.length)).map (· + 2 * tag.length)

/-- The matching brace of an escape clause, after its opening one, within a number of
iterations. -/
def escapeEndWithin : Nat → Nat → Bytes → Bytes → Option Nat
  | 0, _, _, _ | _ + 1, _, _, [] => none
  | steps + 1, depth, before, ch :: rest =>
    let text := ch :: rest
    let past (size : Nat) (depth : Nat) : Option Nat :=
      (escapeEndWithin steps depth ((text.take size).reverse ++ before) (text.drop size)).map
        (· + size)
    if ch = 39 || ch = code '"' then (quotedEnd before text).bind (past · depth)
    else if opensComment text then (commentEnd text).bind (past · depth)
    else if ch = code '$' && (dollarTagAt before text).isSome then
      (dollarEnd before text).bind (past · depth)
    else if ch = code '\x7b' then past 1 (depth + 1)
    else if ch = code '\x7d' then if depth - 1 = 0 then some 0 else past 1 (depth - 1)
    else past 1 depth

/-- The number of bytes between the braces of an escape clause. -/
def escapeEnd (before text : Bytes) : Option Nat := escapeEndWithin text.length 1 before text

inductive FragmentStep where
  /-- A lexical body is copied. -/
  | skip (size : Nat)
  | copy
  /-- An escape clause with a body of this size is translated. -/
  | escape (size : Nat)
  /-- An escape clause has no closing brace. -/
  | unclosed
deriving DecidableEq

/-- Where the lexical body that begins here ends, if it does. -/
def skipped (before : Bytes) (ch : UInt8) (rest : Bytes) : Option Nat :=
  let text := ch :: rest
  let quoted := if ch = 39 || ch = code '"' then quotedEnd before text else none
  let comment := quoted.orElse fun _ => if opensComment text then commentEnd text else none
  comment.orElse fun _ =>
    if ch = code '$' && (dollarTagAt before text).isSome then dollarEnd before text else none

def fragmentStep (before : Bytes) (ch : UInt8) (rest : Bytes) : FragmentStep :=
  match skipped before ch rest with
  | some size => .skip size
  | none =>
    if ch ≠ code '\x7b' then .copy
    else
      match escapeEnd (ch :: before) rest with
      | some size => .escape size
      | none => .unclosed

/-- The loop of `translate_fragment`. -/
def fragmentScanner : Scanner UInt8 Unit FragmentStep where
  next _ := fragmentStep
  extra
    | .skip size => size - 1
    | .copy | .unclosed => 0
    | .escape size => size + 1
  state _ := ()

def FragmentStep.isSkip : FragmentStep → Bool
  | .skip _ => true
  | _ => false

/-- For each byte from a place on, whether the walk skips it as a part of a lexical body. -/
def skippedFrom (before text : Bytes) : List Bool :=
  (fragmentScanner.tokens () before text).flatMap fun token =>
    List.replicate token.taken.length token.iteration.isSkip

def skippedPositions (sql : Bytes) : List Bool := skippedFrom [] sql

end Odbcpp.Postgres.Dialect
