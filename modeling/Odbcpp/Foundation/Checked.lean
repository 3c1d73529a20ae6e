import Mathlib.Tactic

/-!
# Arithmetic that must not overflow

Operations of fixed-width unsigned and signed integers on unbounded numbers, absent where the
machine operation would wrap or overflow. A function written with them has a result exactly on the
inputs for which none of its steps overflows.
-/

namespace Odbcpp.Foundation

/-- Unsigned subtraction. -/
def checkedSub (left right : Nat) : Option Nat :=
  if right ≤ left then some (left - right) else none

/-- Unsigned subtraction of `width`-bit numbers, which wraps below zero. -/
def wrappingSub (width left right : Nat) : Nat :=
  if right ≤ left then left - right else 2 ^ width + left - right

/-- A value that must fit an unsigned type with the greatest value `limit`. -/
def checkedNat (limit value : Nat) : Option Nat :=
  if value ≤ limit then some value else none

/-- A value that must fit a two's complement type with the greatest value `limit`. -/
def checkedInt (limit : Nat) (value : Int) : Option Int :=
  if -(limit + 1 : Int) ≤ value ∧ value ≤ limit then some value else none

@[simp] theorem checkedSub_of_le {left right : Nat} (ordered : right ≤ left) :
    checkedSub left right = some (left - right) :=
  if_pos ordered

@[simp] theorem wrappingSub_of_le {width left right : Nat} (ordered : right ≤ left) :
    wrappingSub width left right = left - right :=
  if_pos ordered

@[simp] theorem checkedNat_of_le {limit value : Nat} (fits : value ≤ limit) :
    checkedNat limit value = some value :=
  if_pos fits

@[simp] theorem checkedInt_of_fits {limit : Nat} {value : Int} (above : -(limit + 1 : Int) ≤ value)
    (below : value ≤ limit) : checkedInt limit value = some value :=
  if_pos ⟨above, below⟩

/-! ### Spans checked by division -/

variable {limit base stride extent count slot : Nat}

theorem element_le_of_count_le (inside : slot < count)
    (checked : count ≤ (limit - base) / extent) (nonempty : 0 < extent) :
    base + slot * extent + extent ≤ limit := by
  have room : (slot + 1) * extent ≤ limit - base :=
    le_trans (Nat.mul_le_mul_right _ (inside.trans_le checked)) (Nat.div_mul_le_self _ _)
  rw [Nat.succ_mul] at room
  omega

theorem field_le_of_count_le (inside : slot < count) (fits : extent ≤ limit - base)
    (checked : count - 1 ≤ (limit - base - extent) / stride) (nonempty : 0 < extent) :
    base + slot * stride + extent ≤ limit := by
  have room : slot * stride ≤ limit - base - extent :=
    le_trans (Nat.mul_le_mul_right _ (by omega)) (Nat.div_mul_le_self _ _)
  omega

end Odbcpp.Foundation
