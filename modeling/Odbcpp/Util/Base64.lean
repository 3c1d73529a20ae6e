import Odbcpp.Database.BackendResult
import Odbcpp.Foundation.Except

/-!
# Base64

`base64_encode` and `base64_decode` of `util/base64.cpp`, block by block: three
bytes are four digits, and only the last block may be padded. The size check of
the encoder is left out; a value in memory cannot fail it.
-/

namespace Odbcpp.Util

open Foundation Database

def base64Alphabet : Bytes :=
  ascii "ABCDEFGHIJKLMNOPQRSTUVWXYZabcdefghijklmnopqrstuvwxyz0123456789+/"

def base64Digit (value : Nat) : UInt8 := base64Alphabet.getD (value % 64) 0

def base64Value (letter : UInt8) : Option Nat := base64Alphabet.idxOf? letter

/-- The 24 bits of a block, missing bytes read as zero. -/
def base64Block (first second third : UInt8) : Nat :=
  first.toNat * 2 ^ 16 + second.toNat * 2 ^ 8 + third.toNat

def base64Encode : Bytes → Bytes
  | [] => []
  | [first] =>
    let block := base64Block first 0 0
    [base64Digit (block / 2 ^ 18), base64Digit (block / 2 ^ 12), code '=', code '=']
  | [first, second] =>
    let block := base64Block first second 0
    [base64Digit (block / 2 ^ 18), base64Digit (block / 2 ^ 12), base64Digit (block / 2 ^ 6),
     code '=']
  | first :: second :: third :: rest =>
    let block := base64Block first second third
    [base64Digit (block / 2 ^ 18), base64Digit (block / 2 ^ 12), base64Digit (block / 2 ^ 6),
     base64Digit block] ++ base64Encode rest

/-- Decode the blocks of a text whose length is a multiple of four. -/
def base64Blocks : Bytes → Except Thrown Bytes
  | first :: second :: third :: fourth :: rest => do
    let padded := third = code '='
    if (rest ≠ [] ∧ (padded ∨ fourth = code '=')) ∨ (padded ∧ fourth ≠ code '=') then
      throw (.runtimeError "invalid base64 padding")
    match base64Value first, base64Value second,
        (if padded then some 0 else base64Value third),
        (if fourth = code '=' then some 0 else base64Value fourth) with
    | some a, some b, some c, some d =>
      if (padded ∧ b % 16 ≠ 0) ∨ (fourth = code '=' ∧ ¬ padded ∧ c % 4 ≠ 0) then
        throw (.runtimeError "non-canonical base64 value")
      let block := a * 2 ^ 18 + b * 2 ^ 12 + c * 2 ^ 6 + d
      let decoded ← base64Blocks rest
      return UInt8.ofNat (block / 2 ^ 16) ::
        ((if padded then [] else [UInt8.ofNat (block / 2 ^ 8)]) ++
          (if fourth = code '=' then [] else [UInt8.ofNat block]) ++ decoded)
    | _, _, _, _ => throw (.runtimeError "invalid base64 value")
  | _ => return []

def base64Decode (input : Bytes) : Except Thrown Bytes :=
  if input.length % 4 ≠ 0 then .error (.runtimeError "invalid base64 value") else base64Blocks input

/-! ## Canonical text -/

theorem base64Alphabet_distinct : ∀ digit < 64,
    base64Value (base64Alphabet.getD digit 0) = some digit ∧
      base64Alphabet.getD digit 0 ≠ code '=' := by
  decide +kernel

@[simp] theorem base64Value_digit (value : Nat) :
    base64Value (base64Digit value) = some (value % 64) :=
  (base64Alphabet_distinct _ (Nat.mod_lt _ (by decide))).1

@[simp] theorem base64Digit_ne_pad (value : Nat) : base64Digit value ≠ code '=' :=
  (base64Alphabet_distinct _ (Nat.mod_lt _ (by decide))).2

theorem base64Digit_of_value {letter : UInt8} {value : Nat}
    (found : base64Value letter = some value) : value < 64 ∧ base64Digit value = letter := by
  obtain ⟨inside, isLetter, -⟩ := List.findIdx?_eq_some_iff_getElem.mp found
  have small : value < 64 := inside
  refine ⟨small, ?_⟩
  rw [base64Digit, Nat.mod_eq_of_lt small, List.getD_eq_getElem?_getD,
    List.getElem?_eq_getElem inside]
  simpa using isLetter

theorem ofNat_eq_of_mod {byte : UInt8} {value : Nat} (same : value % 256 = byte.toNat) :
    UInt8.ofNat value = byte := by
  rw [← UInt8.toNat_inj, UInt8.toNat_ofNat', same]

theorem length_base64Encode (bytes : Bytes) : (base64Encode bytes).length % 4 = 0 := by
  fun_induction base64Encode bytes with
  | case4 first second third rest block ih =>
    rw [List.length_append]
    simp
    omega
  | _ => simp

def base64Bits (a b c d : Nat) : Nat := a * 2 ^ 18 + b * 2 ^ 12 + c * 2 ^ 6 + d

section

variable {first second third fourth : UInt8} {rest decoded : Bytes}

theorem base64Blocks_double :
    base64Blocks (first :: second :: code '=' :: fourth :: rest) = .ok decoded ↔
      fourth = code '=' ∧ rest = [] ∧ ∃ a b, base64Value first = some a ∧
        base64Value second = some b ∧ b % 16 = 0 ∧
        decoded = [UInt8.ofNat (base64Bits a b 0 0 / 2 ^ 16)] := by
  rw [base64Blocks]
  simp only [guard_eq_ok]
  by_cases last : fourth = code '='
  · by_cases final : rest = []
    · subst last final
      cases base64Value first <;> cases base64Value second <;>
        simp only [guard_eq_ok, bind_eq_ok, pure_eq_ok, base64Blocks, if_true] <;>
        simp [base64Bits, @eq_comm _ decoded]
    · simp [final]
  · simp [last]

theorem base64Blocks_single (unpadded : third ≠ code '=') :
    base64Blocks (first :: second :: third :: code '=' :: rest) = .ok decoded ↔
      rest = [] ∧ ∃ a b c, base64Value first = some a ∧ base64Value second = some b ∧
        base64Value third = some c ∧ c % 4 = 0 ∧
        decoded = [UInt8.ofNat (base64Bits a b c 0 / 2 ^ 16),
          UInt8.ofNat (base64Bits a b c 0 / 2 ^ 8)] := by
  rw [base64Blocks]
  simp only [guard_eq_ok, if_neg unpadded]
  by_cases final : rest = []
  · subst final
    cases base64Value first <;> cases base64Value second <;> cases base64Value third <;>
      simp only [guard_eq_ok, bind_eq_ok, pure_eq_ok, base64Blocks, if_true] <;>
      simp [unpadded, base64Bits, @eq_comm _ decoded]
  · simp [final]

theorem base64Blocks_full (unpadded : third ≠ code '=') (unpaddedToo : fourth ≠ code '=') :
    base64Blocks (first :: second :: third :: fourth :: rest) = .ok decoded ↔
      ∃ a b c d more, base64Value first = some a ∧ base64Value second = some b ∧
        base64Value third = some c ∧ base64Value fourth = some d ∧ base64Blocks rest = .ok more ∧
        decoded = UInt8.ofNat (base64Bits a b c d / 2 ^ 16) ::
          UInt8.ofNat (base64Bits a b c d / 2 ^ 8) :: UInt8.ofNat (base64Bits a b c d) :: more := by
  rw [base64Blocks]
  simp only [guard_eq_ok, if_neg unpadded, if_neg unpaddedToo]
  cases base64Value first <;> cases base64Value second <;> cases base64Value third <;>
    cases base64Value fourth <;>
    simp only [guard_eq_ok, bind_eq_ok, pure_eq_ok] <;>
    simp [unpadded, unpaddedToo, base64Bits, @eq_comm _ decoded]

end

theorem base64Blocks_encode (bytes : Bytes) : base64Blocks (base64Encode bytes) = .ok bytes := by
  fun_induction base64Encode bytes with
  | case1 => rfl
  | case2 first block =>
    have bounded := first.toNat_lt
    have isBlock : block = first.toNat * 2 ^ 16 := by simp [block, base64Block]
    refine base64Blocks_double.mpr ⟨rfl, rfl, _, _, base64Value_digit _, base64Value_digit _,
      by omega, ?_⟩
    rw [@ofNat_eq_of_mod first _ (by unfold base64Bits; omega)]
  | case3 first second block =>
    have bounded := first.toNat_lt
    have boundedToo := second.toNat_lt
    have isBlock : block = first.toNat * 2 ^ 16 + second.toNat * 2 ^ 8 := by
      simp [block, base64Block]
    refine (base64Blocks_single (base64Digit_ne_pad _)).mpr ⟨rfl, _, _, _, base64Value_digit _,
      base64Value_digit _, base64Value_digit _, by omega, ?_⟩
    unfold base64Bits
    rw [@ofNat_eq_of_mod first _ (by omega), @ofNat_eq_of_mod second _ (by omega)]
  | case4 first second third rest block ih =>
    have bounded := first.toNat_lt
    have boundedToo := second.toNat_lt
    have boundedLast := third.toNat_lt
    have isBlock : block = first.toNat * 2 ^ 16 + second.toNat * 2 ^ 8 + third.toNat := rfl
    refine (base64Blocks_full (base64Digit_ne_pad _) (base64Digit_ne_pad _)).mpr ⟨_, _, _, _, _,
      base64Value_digit _, base64Value_digit _, base64Value_digit _, base64Value_digit _, ih, ?_⟩
    unfold base64Bits
    rw [@ofNat_eq_of_mod first _ (by omega), @ofNat_eq_of_mod second _ (by omega),
      @ofNat_eq_of_mod third _ (by omega)]

theorem base64Digit_bits {a b c d : Nat} (smallB : b < 64) (smallC : c < 64) (smallD : d < 64) :
    base64Digit (base64Bits a b c d / 2 ^ 18) = base64Digit a ∧
      base64Digit (base64Bits a b c d / 2 ^ 12) = base64Digit b ∧
      base64Digit (base64Bits a b c d / 2 ^ 6) = base64Digit c ∧
      base64Digit (base64Bits a b c d) = base64Digit d := by
  have congr {value other : Nat} (same : value % 64 = other % 64) :
      base64Digit value = base64Digit other := by
    rw [base64Digit, same, base64Digit]
  unfold base64Bits
  exact ⟨congr (by omega), congr (by omega), congr (by omega), congr (by omega)⟩

theorem base64Block_ofNat {bits : Nat} (small : bits < 2 ^ 24) :
    base64Block (.ofNat (bits / 2 ^ 16)) (.ofNat (bits / 2 ^ 8)) (.ofNat bits) = bits := by
  simp only [base64Block, UInt8.toNat_ofNat']
  omega

theorem base64Encode_blocks {text decoded : Bytes} (blocks : text.length % 4 = 0)
    (decodes : base64Blocks text = .ok decoded) : base64Encode decoded = text := by
  induction isLength : text.length using Nat.strong_induction_on generalizing text decoded with
  | _ size ih =>
    rcases text with - | ⟨first, - | ⟨second, - | ⟨third, - | ⟨fourth, rest⟩⟩⟩⟩
    · cases decodes
      rfl
    · simp at blocks
    · simp at blocks
    · simp at blocks
    by_cases padded : third = code '='
    · subst padded
      obtain ⟨rfl, rfl, a, b, isA, isB, canonical, rfl⟩ := base64Blocks_double.mp decodes
      obtain ⟨smallA, rfl⟩ := base64Digit_of_value isA
      obtain ⟨smallB, rfl⟩ := base64Digit_of_value isB
      have isBlock : base64Block (.ofNat (base64Bits a b 0 0 / 2 ^ 16)) 0 0 =
          base64Bits a b 0 0 := by
        simp only [base64Block, base64Bits, UInt8.toNat_ofNat', UInt8.toNat_zero]
        omega
      simp only [base64Encode, isBlock, @base64Digit_bits a b 0 0 smallB (by decide) (by decide)]
    by_cases last : fourth = code '='
    · subst last
      obtain ⟨rfl, a, b, c, isA, isB, isC, canonical, rfl⟩ :=
        (base64Blocks_single padded).mp decodes
      obtain ⟨smallA, rfl⟩ := base64Digit_of_value isA
      obtain ⟨smallB, rfl⟩ := base64Digit_of_value isB
      obtain ⟨smallC, rfl⟩ := base64Digit_of_value isC
      have isBlock : base64Block (.ofNat (base64Bits a b c 0 / 2 ^ 16))
          (.ofNat (base64Bits a b c 0 / 2 ^ 8)) 0 = base64Bits a b c 0 := by
        simp only [base64Block, base64Bits, UInt8.toNat_ofNat', UInt8.toNat_zero]
        omega
      simp only [base64Encode, isBlock, @base64Digit_bits a b c 0 smallB smallC (by decide)]
    · obtain ⟨a, b, c, d, more, isA, isB, isC, isD, isMore, rfl⟩ :=
        (base64Blocks_full padded last).mp decodes
      obtain ⟨smallA, rfl⟩ := base64Digit_of_value isA
      obtain ⟨smallB, rfl⟩ := base64Digit_of_value isB
      obtain ⟨smallC, rfl⟩ := base64Digit_of_value isC
      obtain ⟨smallD, rfl⟩ := base64Digit_of_value isD
      have isBlock := base64Block_ofNat (show base64Bits a b c d < 2 ^ 24 by
        unfold base64Bits
        omega)
      simp only [List.length_cons] at blocks isLength
      simp only [base64Encode, isBlock, ih rest.length (by omega) (by omega) isMore rfl,
        @base64Digit_bits a b c d smallB smallC smallD]
      rfl

/-- A text decodes exactly when it is the encoding of what it decodes to. -/
theorem base64Decode_eq_ok_iff (text bytes : Bytes) :
    base64Decode text = .ok bytes ↔ text = base64Encode bytes := by
  unfold base64Decode
  constructor
  · intro decodes
    split at decodes
    · cases decodes
    · exact (base64Encode_blocks (not_not.mp ‹_›) decodes).symm
  rintro rfl
  have blocks := length_base64Encode bytes
  simp [blocks, base64Blocks_encode]

end Odbcpp.Util
