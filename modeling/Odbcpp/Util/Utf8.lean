import Odbcpp.Foundation.Bytes

/-!
# UTF-8 scanning

The decoder of `sdk/src/util/utf8.cpp`. The source advances an offset into a
string view; here the unread suffix plays that part, so a decoded code point
comes with the input that follows it. The loops over a whole text recurse on a
bound for the number of steps, its length in bytes.
-/

namespace Odbcpp.Util

open Foundation List

variable {input unread : Bytes} {codePoint : Nat}

/-- The continuation count, payload bits and least code point announced by a
lead byte above the ASCII range. -/
def leadByte (first : UInt8) : Option (Nat × Nat × Nat) :=
  if first &&& 0xe0 = 0xc0 then some (1, (first &&& 0x1f).toNat, 0x80)
  else if first &&& 0xf0 = 0xe0 then some (2, (first &&& 0x0f).toNat, 0x800)
  else if first &&& 0xf8 = 0xf0 then some (3, (first &&& 0x07).toNat, 0x10000)
  else none

def continueCodePoint : Nat → Bytes → Option Nat
  | codePoint, [] => some codePoint
  | codePoint, byte :: rest =>
    if byte &&& 0xc0 = 0x80 then
      continueCodePoint (codePoint * 64 + (byte &&& 0x3f).toNat) rest
    else none

/-- Decode one code point, returning the input after it. Overlong forms,
surrogates and values above U+10FFFF are refused. -/
def nextUtf8CodePoint : Bytes → Option (Nat × Bytes)
  | [] => none
  | first :: rest =>
    if first ≤ 0x7f then some (first.toNat, rest)
    else match leadByte first with
      | none => none
      | some (continuationCount, bits, minimum) =>
        if rest.length < continuationCount then none
        else match continueCodePoint bits (rest.take continuationCount) with
          | none => none
          | some codePoint =>
            if codePoint < minimum ∨ 0x10ffff < codePoint ∨
                (0xd800 ≤ codePoint ∧ codePoint ≤ 0xdfff) then none
            else some (codePoint, rest.drop continuationCount)

theorem nextUtf8CodePoint_unread (decoded : nextUtf8CodePoint input = some (codePoint, unread)) :
    ∃ first rest count, input = first :: rest ∧ unread = rest.drop count := by
  rcases input with _ | ⟨first, rest⟩
  · simp [nextUtf8CodePoint] at decoded
  simp only [nextUtf8CodePoint] at decoded
  split at decoded
  · cases decoded
    exact ⟨first, _, 0, rfl, rfl⟩
  split at decoded
  · cases decoded
  split at decoded
  · cases decoded
  split at decoded
  · cases decoded
  split at decoded
  · cases decoded
  · cases decoded
    exact ⟨first, _, _, rfl, rfl⟩

theorem nextUtf8CodePoint_shorter (decoded : nextUtf8CodePoint input = some (codePoint, unread)) :
    unread.length < input.length := by
  obtain ⟨first, rest, count, rfl, rfl⟩ := nextUtf8CodePoint_unread decoded
  simp only [length_drop, length_cons]
  omega

theorem nextUtf8CodePoint_suffix
    (decoded : nextUtf8CodePoint input = some (codePoint, unread)) : unread <:+ input := by
  obtain ⟨first, rest, count, rfl, rfl⟩ := nextUtf8CodePoint_unread decoded
  exact (drop_suffix count rest).trans (suffix_cons first rest)

theorem nextUtf8CodePoint_ascii {first : UInt8} (plain : first ≤ 0x7f) (rest : Bytes) :
    nextUtf8CodePoint (first :: rest) = some (first.toNat, rest) := by
  rw [nextUtf8CodePoint, if_pos plain]

/-- The code points of a text, decoded in order within `steps` iterations. -/
def utf8CodePointsWithin : Nat → Bytes → Option (List Nat)
  | _, [] => some []
  | 0, _ :: _ => none
  | steps + 1, byte :: rest =>
    match nextUtf8CodePoint (byte :: rest) with
    | none => none
    | some (codePoint, unread) => (utf8CodePointsWithin steps unread).map (codePoint :: ·)

def utf8CodePoints (input : Bytes) : Option (List Nat) :=
  utf8CodePointsWithin input.length input

theorem utf8CodePointsWithin_of_le {steps : Nat} (enough : input.length ≤ steps) :
    utf8CodePointsWithin steps input = utf8CodePoints input := by
  suffices any : ∀ more, input.length ≤ more →
      utf8CodePointsWithin steps input = utf8CodePointsWithin more input from any _ le_rfl
  induction steps generalizing input with
  | zero =>
    intro more _
    obtain rfl := length_eq_zero_iff.1 (Nat.le_zero.1 enough)
    simp [utf8CodePointsWithin]
  | succ steps ih =>
    intro more enoughToo
    match input, more with
    | [], _ => simp [utf8CodePointsWithin]
    | byte :: rest, 0 => simp at enoughToo
    | byte :: rest, more + 1 =>
      simp only [utf8CodePointsWithin]
      split
      · rfl
      rename_i codePoint unread decoded
      have shorter := nextUtf8CodePoint_shorter decoded
      rw [length_cons] at *
      rw [ih (by omega) more (by omega)]

@[simp] theorem utf8CodePoints_nil : utf8CodePoints [] = some [] := rfl

theorem utf8CodePoints_eq_next (nonempty : input ≠ []) :
    utf8CodePoints input = (nextUtf8CodePoint input).bind fun (codePoint, unread) =>
      (utf8CodePoints unread).map (codePoint :: ·) := by
  rcases input with _ | ⟨byte, rest⟩
  · exact absurd rfl nonempty
  rw [utf8CodePoints, length_cons, utf8CodePointsWithin]
  split
  · rename_i invalid
    rw [invalid, Option.bind_none]
  rename_i codePoint unread decoded
  have shorter := nextUtf8CodePoint_shorter decoded
  rw [length_cons] at shorter
  rw [decoded, Option.bind_some, utf8CodePointsWithin_of_le (by omega)]

/-- The number of code points, absent when the text is not well formed. -/
def utf8CodePointCount (input : Bytes) : Option Nat :=
  (utf8CodePoints input).map List.length

/-- One step of the repair loop per byte or code point; a byte that starts no
code point is replaced by the three bytes of U+FFFD. -/
def replaceInvalidUtf8Within : Nat → Bytes → Bytes
  | _, [] => []
  | 0, _ :: _ => []
  | steps + 1, byte :: rest =>
    match nextUtf8CodePoint (byte :: rest) with
    | some (_, unread) =>
      (byte :: rest).take ((byte :: rest).length - unread.length) ++
        replaceInvalidUtf8Within steps unread
    | none => [0xef, 0xbf, 0xbd] ++ replaceInvalidUtf8Within steps rest

def replaceInvalidUtf8 (input : Bytes) : Bytes :=
  replaceInvalidUtf8Within input.length input

end Odbcpp.Util
