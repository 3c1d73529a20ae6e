import Odbcpp.Foundation.Bytes

/-!
# Plain text

The character classes of the C locale and the decimal conversions of
`<charconv>`, over the bytes of a `std::string`.
-/

namespace Odbcpp.Util

open Foundation

variable (letter : UInt8)

/-- `std::isalpha` in the C locale. -/
def isAlpha : Bool :=
  (code 'a' ≤ letter && letter ≤ code 'z') || (code 'A' ≤ letter && letter ≤ code 'Z')

/-- `std::isdigit` in the C locale. -/
def isDigit : Bool := code '0' ≤ letter && letter ≤ code '9'

/-- `std::isspace` in the C locale. -/
def isSpace : Bool :=
  letter = 32 || (9 ≤ letter && letter ≤ 13)

/-- `std::toupper` in the C locale. -/
def toUpper : UInt8 :=
  if code 'a' ≤ letter ∧ letter ≤ code 'z' then letter - 32 else letter

/-- The bytes of a text as the characters of the same numbers, for messages that
quote them. -/
def quoted (bytes : Bytes) : String := String.ofList (bytes.map fun byte => Char.ofNat byte.toNat)

/-- `std::to_string`. -/
def decimal (value : Nat) : Bytes := (Nat.toDigits 10 value).map code

/-- `std::from_chars` over a whole text, for an unsigned number of `bits` bits. -/
def parseUnsigned (bits : Nat) (text : Bytes) : Option Nat :=
  if text = [] ∨ !text.all isDigit then none
  else
    let value := text.foldl (fun value digit => value * 10 + (digit.toNat - 48)) 0
    if value < 2 ^ bits then some value else none

/-- `std::from_chars` over a whole text, for a signed 32-bit number. -/
def parseSigned32 (text : Bytes) : Option Int :=
  match text with
  | 45 :: magnitude => (parseUnsigned 32 magnitude).bind fun value =>
    if value ≤ 2 ^ 31 then some (-value) else none
  | _ => (parseUnsigned 32 text).bind fun value => if value < 2 ^ 31 then some value else none

theorem toNat_code_of_mem_toDigits {value digit}
    (member : digit ∈ Nat.toDigits 10 value) :
    (code digit).toNat = digit.toNat ∧ 48 ≤ digit.toNat ∧ digit.toNat ≤ 57 := by
  have isDigit := Nat.isDigit_of_mem_toDigits (by decide) (by decide) member
  simp only [Char.isDigit, Bool.and_eq_true, decide_eq_true_eq, ge_iff_le] at isDigit
  have bounds : 48 ≤ digit.toNat ∧ digit.toNat ≤ 57 := by
    simpa [UInt32.le_iff_toNat_le] using isDigit
  refine ⟨?_, bounds⟩
  simp [code]
  omega

theorem zero_notMem_decimal (value : Nat) : 0 ∉ decimal value := by
  intro member
  obtain ⟨digit, digits, isZero⟩ := List.mem_map.mp member
  have number := toNat_code_of_mem_toDigits digits
  rw [isZero] at number
  simp at number
  omega

end Odbcpp.Util
