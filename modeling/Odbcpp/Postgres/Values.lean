import Odbcpp.Connection.QueryResult
import Odbcpp.Util.Hex

/-!
# Binary values of the text protocol

`normalize_pg_result_value` of `pg_value.h`. The server writes a `bytea` value in hexadecimal,
behind a backslash and an x, or in the older escape format. Each format is described by the texts
a value can have in it.
-/

namespace Odbcpp.Postgres

open Foundation Util Connection UInt8

/-- The loop over the escape format. -/
def decodeEscapes : Bytes → Option Bytes
  | [] => some []
  | ch :: rest =>
    if ch ≠ code '\\' then (decodeEscapes rest).map (ch :: ·)
    else
      match rest with
      | [] => none
      | first :: more =>
        if first = code '\\' then (decodeEscapes more).map (code '\\' :: ·)
        else
          match more with
          | second :: third :: tail =>
            if first < code '0' ∨ first > code '3' ∨ second < code '0' ∨ second > code '7' ∨
                third < code '0' ∨ third > code '7' then none
            else
              let octet := (first - code '0') * 64 + (second - code '0') * 8 + (third - code '0')
              (decodeEscapes tail).map (octet :: ·)
          | _ => none

def normalizePgResultValue (type : ScalarType) (value : Bytes) : Option Bytes :=
  if type = .boolean then
    if value = ascii "t" ∨ value = ascii "true" ∨ value = ascii "1" then some (ascii "1")
    else if value = ascii "f" ∨ value = ascii "false" ∨ value = ascii "0" then some (ascii "0")
    else none
  else if type ≠ .binary then some value
  else if ascii "\\x" <+: value then decodeHex (value.drop 2)
  else decodeEscapes value

/-! ## The two formats -/

def octalDigit (value : Nat) : UInt8 := code '0' + .ofNat value

/-- The texts of a byte string in the escape format; a byte in octal has digits up to 377. -/
inductive EscapeSpelling : Bytes → Bytes → Prop
  | nil : EscapeSpelling [] []
  | plain {byte text value} (other : byte ≠ code '\\')
    (rest : EscapeSpelling text value) : EscapeSpelling (byte :: text) (byte :: value)
  | backslash {text value} (rest : EscapeSpelling text value) :
    EscapeSpelling (code '\\' :: code '\\' :: text) (code '\\' :: value)
  | octal {first second third text value} (high : first < 4) (middle : second < 8)
    (low : third < 8) (rest : EscapeSpelling text value) :
    EscapeSpelling (code '\\' :: octalDigit first :: octalDigit second :: octalDigit third :: text)
      (.ofNat (first * 64 + second * 8 + third) :: value)

theorem octalDigit_toNat {value : Nat} (small : value < 8) :
    (octalDigit value).toNat = 48 + value := by
  simp [octalDigit, code]
  omega

theorem octalDigit_sub (value : Nat) : octalDigit value - code '0' = .ofNat value := by
  rw [octalDigit, UInt8.add_comm, UInt8.add_sub_cancel]

theorem octalDigit_range {value limit : Nat} (small : value < limit + 1) (fits : limit < 8) :
    ¬octalDigit value < code '0' ∧ ¬octalDigit value > octalDigit limit := by
  have zero : (code '0').toNat = 48 := rfl
  have digit := octalDigit_toNat (show value < 8 by omega)
  have most := octalDigit_toNat fits
  simp [UInt8.not_lt, UInt8.le_iff_toNat_le]
  omega

theorem exists_octalDigit {digit : UInt8} {limit : Nat} (fits : limit < 8)
    (above : ¬digit < code '0') (below : ¬digit > octalDigit limit) :
    ∃ value < limit + 1, digit = octalDigit value := by
  have zero : (code '0').toNat = 48 := rfl
  simp only [UInt8.not_lt, gt_iff_lt, UInt8.le_iff_toNat_le, octalDigit_toNat fits] at above below
  refine ⟨digit.toNat - 48, by omega, ?_⟩
  rw [← UInt8.toNat_inj, octalDigit_toNat (by omega)]
  omega

theorem decodeEscapes_eq_some_iff {text value : Bytes} :
    decodeEscapes text = some value ↔ EscapeSpelling text value := by
  constructor
  · intro decoded
    fun_induction decodeEscapes text generalizing value with
    | case1 =>
      cases decoded
      exact .nil
    | case2 ch rest other ih =>
      obtain ⟨tail, found, rfl⟩ := Option.map_eq_some_iff.mp decoded
      exact .plain other (ih found)
    | case4 ch isEscape more ih =>
      obtain ⟨tail, found, rfl⟩ := Option.map_eq_some_iff.mp decoded
      obtain rfl := not_not.mp isEscape
      exact .backslash (ih found)
    | case6 ch isEscape first _ second third rest digits =>
      rename_i octet ih
      obtain ⟨tail, found, rfl⟩ := Option.map_eq_some_iff.mp decoded
      obtain rfl := not_not.mp isEscape
      simp only [not_or] at digits
      obtain ⟨above, below, aboveToo, belowToo, aboveLast, belowLast⟩ := digits
      obtain ⟨first, high, rfl⟩ := @exists_octalDigit first 3 (by decide) above below
      obtain ⟨second, middle, rfl⟩ := @exists_octalDigit second 7 (by decide) aboveToo belowToo
      obtain ⟨third, low, rfl⟩ := @exists_octalDigit third 7 (by decide) aboveLast belowLast
      have isOctet : octet = .ofNat (first * 64 + second * 8 + third) := by
        simp [octet, octalDigit_sub, ofNat_add, ofNat_mul]
      rw [isOctet]
      exact .octal high middle low (ih found)
    | case3 | case5 | case7 => cases decoded
  · intro spelling
    induction spelling with
    | nil => rfl
    | plain other _ ih => simp [decodeEscapes.eq_def (_ :: _), other, ih]
    | backslash _ ih => simp [decodeEscapes.eq_def (_ :: _), ih]
    | @octal first second third text value high middle low _ ih =>
      have one := octalDigit_range high (by decide)
      have two := octalDigit_range middle (by decide)
      have three := octalDigit_range low (by decide)
      have other : octalDigit first ≠ code '\\' := fun same => one.2 (by rw [same]; decide)
      have digits : ¬(octalDigit first < code '0' ∨ octalDigit first > code '3' ∨
          octalDigit second < code '0' ∨ octalDigit second > code '7' ∨
          octalDigit third < code '0' ∨ octalDigit third > code '7') := by
        simp only [not_or]
        exact ⟨one.1, one.2, two.1, two.2, three⟩
      simp only [decodeEscapes.eq_def (code '\\' :: _), ne_eq, not_true_eq_false, if_false,
        if_neg other, if_neg digits, ih, Option.map_some, octalDigit_sub, ofNat_add,
        ofNat_mul]
      rfl

/-! ## Decoding -/

theorem EscapeSpelling.not_hex {digits value : Bytes} :
    ¬EscapeSpelling (ascii "\\x" ++ digits) value := by
  generalize isText : ascii "\\x" ++ digits = text
  intro spelling
  cases spelling with
  | nil => cases isText
  | plain other => exact other (List.cons.inj isText).1.symm
  | backslash => exact absurd (List.cons.inj (List.cons.inj isText).2).1 (by decide)
  | octal high =>
    have digit := (List.cons.inj (List.cons.inj isText).2).1
    exact (octalDigit_range high (by decide)).2 (by rw [← digit]; decide)

theorem normalizePgResultValue_binary {text value : Bytes} :
    normalizePgResultValue .binary text = some value ↔
      (∃ digits, text = ascii "\\x" ++ digits ∧ HexSpelling digits value) ∨
        EscapeSpelling text value := by
  have unfolded : normalizePgResultValue .binary text =
      if ascii "\\x" <+: text then decodeHex (text.drop 2) else decodeEscapes text := rfl
  rw [unfolded]
  split
  · rename_i isHex
    obtain ⟨digits, rfl⟩ := isHex
    simp [decodeHex_eq_some_iff, EscapeSpelling.not_hex, show (ascii "\\x").length = 2 from rfl]
  rename_i noHex
  rw [decodeEscapes_eq_some_iff]
  refine ⟨.inr, ?_⟩
  rintro (⟨digits, rfl, -⟩ | spelling)
  · exact absurd (List.prefix_append ..) noHex
  · exact spelling

/-- A binary value is read back from every text it has in hexadecimal or in the escape format, and
nothing else is read. -/
theorem binary_value_read_back : (∀ value digits, HexSpelling digits value →
      normalizePgResultValue .binary (ascii "\\x" ++ digits) = some value) ∧
    (∀ value text, EscapeSpelling text value → ¬ascii "\\x" <+: text →
      normalizePgResultValue .binary text = some value) ∧
    (∀ text, normalizePgResultValue .binary text = none ↔
      ∀ value, ¬EscapeSpelling text value ∧
        ∀ digits, text = ascii "\\x" ++ digits → ¬HexSpelling digits value) ∧
    ∀ value, decodeHex (encodeHex value) = some value := by
  refine ⟨fun value digits spelling => ?_, fun value text spelling _ => ?_, fun text => ?_,
    fun value => decodeHex_eq_some_iff.mpr (hexSpelling_encodeHex value)⟩
  · exact normalizePgResultValue_binary.mpr (.inl ⟨digits, rfl, spelling⟩)
  · exact normalizePgResultValue_binary.mpr (.inr spelling)
  rw [Option.eq_none_iff_forall_ne_some]
  refine forall_congr' fun value => ?_
  rw [Ne, normalizePgResultValue_binary]
  grind

end Odbcpp.Postgres
