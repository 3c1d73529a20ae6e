import Mathlib.Tactic

/-!
# Delivering a sequence in pieces

A producer holds a list of groups of units and hands out as many as a bounded buffer takes, never
part of a group. `takeWhole` is that choice: nothing is lost or repeated, and the buffer is not
overrun. `takeWhole_uniform` computes it when all groups have one width.
-/

namespace Odbcpp.Foundation

open List

variable {α : Type*} {groups : List (List α)} {width : Nat}

/-- The longest run of whole groups that fits `capacity`, and the groups after it. -/
def takeWhole : Nat → List (List α) → List (List α) × List (List α)
  | _, [] => ([], [])
  | capacity, group :: rest =>
    if group.length ≤ capacity then
      let (taken, left) := takeWhole (capacity - group.length) rest
      (group :: taken, left)
    else ([], group :: rest)

theorem takeWhole_append (capacity : Nat) (groups : List (List α)) :
    (takeWhole capacity groups).1 ++ (takeWhole capacity groups).2 = groups := by
  induction groups generalizing capacity with
  | nil => rfl
  | cons group rest ih =>
    simp only [takeWhole]
    split
    · simp [ih]
    · rfl

/-- The taken units fit the buffer. -/
theorem length_takeWhole_le (capacity : Nat) (groups : List (List α)) :
    (takeWhole capacity groups).1.flatten.length ≤ capacity := by
  induction groups generalizing capacity with
  | nil => simp [takeWhole]
  | cons group rest ih =>
    simp only [takeWhole]
    split
    · have bound := ih (capacity - group.length)
      simp only [flatten_cons, length_append]
      omega
    · simp

/-- A buffer that holds every unit takes every group. -/
theorem takeWhole_of_fits {capacity : Nat}
    (fits : groups.flatten.length ≤ capacity) : takeWhole capacity groups = (groups, []) := by
  induction groups generalizing capacity with
  | nil => rfl
  | cons group rest ih =>
    simp only [flatten_cons, length_append] at fits
    rw [takeWhole, if_pos (by omega), ih (by omega)]

/-- No unit is left exactly when all of them fit. -/
theorem takeWhole_left_eq_nil_iff (capacity : Nat) (groups : List (List α)) :
    (takeWhole capacity groups).2.flatten = [] ↔ groups.flatten.length ≤ capacity := by
  constructor
  · intro nothingLeft
    have whole := congrArg List.flatten (takeWhole_append capacity groups)
    rw [flatten_append, nothingLeft, append_nil] at whole
    rw [← whole]
    exact length_takeWhole_le capacity groups
  intro fits
  rw [takeWhole_of_fits fits]
  rfl

theorem takeWhole_uniform (positive : 0 < width) (capacity : Nat)
    (uniform : ∀ group ∈ groups, group.length = width) :
    takeWhole capacity groups =
      (groups.take (capacity / width), groups.drop (capacity / width)) := by
  induction groups generalizing capacity with
  | nil => simp [takeWhole]
  | cons group rest ih =>
    have groupWidth := uniform group mem_cons_self
    have restUniform := fun other member => uniform other (mem_cons_of_mem _ member)
    rw [takeWhole, groupWidth, ih _ restUniform]
    split
    · rename_i fits
      rw [Nat.div_eq_sub_div positive fits]
      simp
    rename_i tooSmall
    rw [Nat.div_eq_of_lt (by omega)]
    rfl

theorem length_flatten_uniform (uniform : ∀ group ∈ groups, group.length = width) :
    groups.flatten.length = width * groups.length := by
  induction groups with
  | nil => simp
  | cons group rest ih =>
    rw [flatten_cons, length_append, uniform group mem_cons_self,
      ih fun other member => uniform other (mem_cons_of_mem _ member), length_cons]
    ring

/-- With groups of one width the unit count is the capacity rounded down to the width, or all there
is. -/
theorem flatten_takeWhole_uniform (positive : 0 < width) (capacity : Nat)
    (uniform : ∀ group ∈ groups, group.length = width) :
    (takeWhole capacity groups).1.flatten =
      groups.flatten.take (if capacity < groups.flatten.length then capacity - capacity % width
        else groups.flatten.length) := by
  split
  · rename_i short
    have count : capacity / width ≤ groups.length := by
      rw [length_flatten_uniform uniform] at short
      exact Nat.le_of_lt (Nat.div_lt_of_lt_mul short)
    have taken : (groups.take (capacity / width)).flatten.length = capacity - capacity % width := by
      rw [length_flatten_uniform fun group member => uniform group (mem_of_mem_take member),
        length_take, Nat.min_eq_left count, ← Nat.mul_div_self_eq_mod_sub_self]
    have whole : groups.flatten =
        (groups.take (capacity / width)).flatten ++ (groups.drop (capacity / width)).flatten := by
      rw [← flatten_append, take_append_drop]
    rw [takeWhole_uniform positive capacity uniform, whole, ← taken]
    simp
  · rename_i fits
    rw [takeWhole_of_fits (by omega), take_length]

end Odbcpp.Foundation
