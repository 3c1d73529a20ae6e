import Odbcpp.Postgres.FragmentWalk

/-!
# The arguments of a call

How the PostgreSQL dialect takes an escaped function call apart: `skip_trivia` goes over blank
space and comments, and `call_arguments` cuts the argument list of the outer call into raw
slices.
-/

namespace Odbcpp.Postgres.Dialect

open Foundation Util

/-- The loop of `skip_trivia`, within a number of iterations: how many bytes it goes over. -/
def skipTriviaWithin : Nat → Bytes → Option Nat
  | 0, _ | _ + 1, [] => some 0
  | steps + 1, ch :: rest =>
    let text := ch :: rest
    if ch = code ' ' || ch = 9 || ch = 13 || ch = 10 || ch = 12 || ch = 11 then
      (skipTriviaWithin steps rest).map (· + 1)
    else if opensComment text then
      (commentEnd text).bind fun size =>
        (skipTriviaWithin steps (text.drop size)).map (· + size)
    else some 0

/-- How many bytes of trivia a text begins with; a comment that is not closed is an error. -/
def skipTrivia (text : Bytes) : Option Nat := skipTriviaWithin text.length text

/-- Whether a lexical body opens at a byte, and where it ends if it is closed. -/
def lexicalBody (before : Bytes) (ch : UInt8) (rest : Bytes) : Option (Option Nat) :=
  let text := ch :: rest
  if ch = 39 || ch = code '"' then some (quotedEnd before text)
  else if opensComment text then some (commentEnd text)
  else if ch = code '$' && (dollarTagAt before text).isSome then some (dollarEnd before text)
  else none

/-- A part of the function text, with its place. -/
structure Slice where
  start : Nat
  bytes : Bytes
deriving DecidableEq

/-- The loop of `call_arguments<Count>`, within a number of iterations. `closers` are the closing
brackets to come, top first; the argument begins at `start`. -/
def callArgumentsWithin (count : Nat) :
    Nat → List Slice → Nat → Bytes → Bytes → Bytes → Option (List Slice)
  | 0, _, _, _, _, _ | _ + 1, _, _, _, _, [] => none
  | steps + 1, arguments, start, closers, before, ch :: rest =>
    let text := ch :: rest
    let past (size : Nat) (arguments : List Slice) (start : Nat) (closers : Bytes) :=
      callArgumentsWithin count steps arguments start closers
        ((text.take size).reverse ++ before) (text.drop size)
    match lexicalBody before ch rest with
    | some none => none
    | some (some size) => past size arguments start closers
    | none =>
      if ch = code '(' || ch = code '[' then
        past 1 arguments start ((if ch = code '(' then code ')' else code ']') :: closers)
      else
        let close := ch = code ')' && closers.length = 1
        if ch = code ',' && closers.length = 1 || close then
          let argument := (before.take (before.length - start)).reverse
          if skipTrivia argument = none || skipTrivia argument = some argument.length ||
              arguments.length = count then none
          else
            let arguments := arguments ++ [⟨start, argument⟩]
            if close then
              if skipTrivia rest ≠ some rest.length || arguments.length ≠ count then none
              else some arguments
            else past 1 arguments (before.length + 1) closers
        else if ch = code ')' || ch = code ']' then
          if closers.head? ≠ some ch then none else past 1 arguments start closers.tail
        else past 1 arguments start closers

def callArguments (count : Nat) (function : Bytes) (nameEnd : Nat) : Option (List Slice) :=
  (skipTrivia (function.drop nameEnd)).bind fun trivia =>
    match function.drop (nameEnd + trivia) with
    | [] => none
    | ch :: rest =>
      if ch ≠ code '(' then none
      else
        callArgumentsWithin count rest.length [] (nameEnd + trivia + 1) [code ')']
          (function.take (nameEnd + trivia + 1)).reverse rest

end Odbcpp.Postgres.Dialect
