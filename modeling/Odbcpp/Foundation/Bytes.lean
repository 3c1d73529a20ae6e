import Mathlib.Tactic

/-!
# Byte strings and big-endian integers

Wire formats are lists of bytes. `bigEndian` writes the low-order digits of a
natural number in base 256, most significant first, and `ofBigEndian` reads
them back; `ofBigEndian_bigEndian` is the only arithmetic a codec over this
module needs.
-/

namespace Odbcpp.Foundation

/-- A byte string: wire data, or the bytes of a C++ `std::string`. -/
abbrev Bytes := List UInt8

def ascii (text : String) : Bytes :=
  text.toList.map fun letter => UInt8.ofNat letter.toNat

def code (letter : Char) : UInt8 := UInt8.ofNat letter.toNat

theorem forall_byte {property : UInt8 → Prop}
    (every : ∀ value : Fin 256, property (.ofNat value)) (byte : UInt8) : property byte := by
  simpa using every ⟨byte.toNat, byte.toNat_lt⟩

/-- The `width` low-order bytes of `value`, most significant first. -/
def bigEndian : Nat → Nat → Bytes
  | 0, _ => []
  | width + 1, value => bigEndian width (value / 256) ++ [UInt8.ofNat value]

def ofBigEndian (bytes : Bytes) : Nat :=
  bytes.foldl (fun value byte => value * 256 + byte.toNat) 0

@[simp] theorem length_bigEndian (width value : Nat) : (bigEndian width value).length = width := by
  induction width generalizing value with
  | zero => rfl
  | succ width ih => simp [bigEndian, ih]

@[simp] theorem ofBigEndian_snoc (bytes : Bytes) (byte : UInt8) :
    ofBigEndian (bytes ++ [byte]) = ofBigEndian bytes * 256 + byte.toNat := by
  simp [ofBigEndian]

/-- Reading back what was written yields the value modulo the field's range. -/
theorem ofBigEndian_bigEndian (width value : Nat) :
    ofBigEndian (bigEndian width value) = value % 256 ^ width := by
  induction width generalizing value with
  | zero => simp [bigEndian, ofBigEndian, Nat.mod_one]
  | succ width ih =>
    rw [bigEndian, ofBigEndian_snoc, ih, Nat.pow_succ', Nat.mod_mul]
    simp only [UInt8.toNat_ofNat']
    omega

theorem ofBigEndian_bigEndian_of_lt {width value : Nat} (fits : value < 256 ^ width) :
    ofBigEndian (bigEndian width value) = value := by
  rw [ofBigEndian_bigEndian, Nat.mod_eq_of_lt fits]

end Odbcpp.Foundation
