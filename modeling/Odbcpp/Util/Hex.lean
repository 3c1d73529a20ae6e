import Odbcpp.Util.Text

/-!
# Plain hexadecimal

`encode_hex` and `decode_hex` of `util/hex.h`: two digits for each byte, written in lower case and
read in either. The size check of the encoder, which a value in memory cannot fail, is left out.
-/

namespace Odbcpp.Util

open Foundation List

def hexDigit (value : UInt8) : UInt8 :=
  if value < 10 then code '0' + value else code 'a' + (value - 10)

def encodeHex (value : Bytes) : Bytes :=
  value.flatMap fun (byte : UInt8) => [hexDigit (byte >>> 4), hexDigit (byte &&& 15)]

@[simp] theorem length_encodeHex (value : Bytes) : (encodeHex value).length = 2 * value.length := by
  induction value with
  | nil => rfl
  | cons byte rest ih =>
    simp only [encodeHex, flatMap_cons, length_append] at ih ⊢
    simp only [ih, length_cons, length_nil]
    omega

/-- The value of a digit in either case; the source has -1 for any other letter. -/
def hexValue (ch : UInt8) : Option UInt8 :=
  if code '0' ≤ ch ∧ ch ≤ code '9' then some (ch - code '0')
  else if code 'a' ≤ ch ∧ ch ≤ code 'f' then some (ch - code 'a' + 10)
  else if code 'A' ≤ ch ∧ ch ≤ code 'F' then some (ch - code 'A' + 10)
  else none

def decodeHex : Bytes → Option Bytes
  | [] => some []
  | [_] => none
  | high :: low :: rest => do
    let high ← hexValue high
    let low ← hexValue low
    return (high <<< 4 ||| low) :: (← decodeHex rest)

/-- The texts of a byte string in hexadecimal, each digit in either case. -/
inductive HexSpelling : Bytes → Bytes → Prop
  | nil : HexSpelling [] []
  | cons {byte high low : UInt8} {text value : Bytes}
    (upper : high = hexDigit (byte >>> 4) ∨ high = toUpper (hexDigit (byte >>> 4)))
    (lower : low = hexDigit (byte &&& 15) ∨ low = toUpper (hexDigit (byte &&& 15)))
    (rest : HexSpelling text value) : HexSpelling (high :: low :: text) (byte :: value)

theorem hexValue_hexDigit {value : UInt8} (small : value.toNat < 16) :
    hexValue (hexDigit value) = some value ∧ hexValue (toUpper (hexDigit value)) = some value := by
  have digits : ∀ number < 16, hexValue (hexDigit (.ofNat number)) = some (.ofNat number) ∧
      hexValue (toUpper (hexDigit (.ofNat number))) = some (.ofNat number) := by
    decide
  simpa using digits _ small

theorem digit_of_hexValue {ch value : UInt8} (read : hexValue ch = some value) :
    value.toNat < 16 ∧ (ch = hexDigit value ∨ ch = toUpper (hexDigit value)) := by
  have letters : ∀ ch : UInt8, (match hexValue ch with
      | some value => value.toNat < 16 && (ch = hexDigit value || ch = toUpper (hexDigit value))
      | none => true) = true :=
    forall_byte (by decide +kernel)
  simpa [read] using letters ch

-- These compare the numbers of bytes, which the kernel evaluates much faster than the bytes.
theorem halves : ∀ byte : UInt8, (byte >>> 4).toNat < 16 ∧ (byte &&& 15).toNat < 16 ∧
    (byte >>> 4 <<< 4 ||| (byte &&& 15)).toNat = byte.toNat :=
  forall_byte (by decide +kernel)

theorem halves_join : ∀ high < 16, ∀ low < 16,
    ((UInt8.ofNat high <<< 4 ||| .ofNat low) >>> 4).toNat = high ∧
      ((UInt8.ofNat high <<< 4 ||| .ofNat low) &&& 15).toNat = low := by
  decide +kernel

theorem decodeHex_eq_some_iff {text value : Bytes} :
    decodeHex text = some value ↔ HexSpelling text value := by
  constructor
  · intro decoded
    fun_induction decodeHex text generalizing value with
    | case1 =>
      cases decoded
      exact .nil
    | case2 => cases decoded
    | case3 high low rest ih =>
      simp only [bind, Option.bind_eq_some_iff, pure, Option.some.injEq] at decoded
      obtain ⟨upper, isUpper, lower, isLower, tail, isTail, rfl⟩ := decoded
      obtain ⟨small, isHigh⟩ := digit_of_hexValue isUpper
      obtain ⟨smaller, isLow⟩ := digit_of_hexValue isLower
      have join := halves_join _ small _ smaller
      simp only [UInt8.ofNat_toNat, UInt8.toNat_inj] at join
      exact .cons (by rwa [join.1]) (by rwa [join.2]) (ih isTail)
  · intro spelling
    induction spelling with
    | nil => rfl
    | @cons byte high low text value upper lower _ ih =>
      obtain ⟨small, smaller, whole⟩ := halves byte
      have isHigh : hexValue high = some (byte >>> 4) := by
        rcases upper with rfl | rfl
        · exact (hexValue_hexDigit small).1
        · exact (hexValue_hexDigit small).2
      have isLow : hexValue low = some (byte &&& 15) := by
        rcases lower with rfl | rfl
        · exact (hexValue_hexDigit smaller).1
        · exact (hexValue_hexDigit smaller).2
      rw [UInt8.toNat_inj] at whole
      simp [decodeHex, isHigh, isLow, ih, whole]

theorem hexSpelling_encodeHex (value : Bytes) : HexSpelling (encodeHex value) value := by
  induction value with
  | nil => exact .nil
  | cons byte rest ih => exact .cons (.inl rfl) (.inl rfl) ih

end Odbcpp.Util
