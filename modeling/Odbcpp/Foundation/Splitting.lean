import Mathlib.Tactic

/-!
# Cutting a list at an element

The first occurrence of an element cuts a list into the part before it, which is free of
the element, and the part after it; and a list has only one such cut.
-/

namespace Odbcpp.Foundation

open List

variable {α : Type} [DecidableEq α] {element : α} {list before after : List α} {place : Nat}

theorem eq_append_of_idxOf? (found : list.idxOf? element = some place) :
    list = list.take place ++ element :: list.drop (place + 1) ∧ element ∉ list.take place := by
  obtain ⟨inside, isElement, earlier⟩ := List.idxOf?_eq_some_iff.mp found
  constructor
  · conv_lhs => rw [← take_append_drop place list, drop_eq_getElem_cons inside, isElement]
  intro member
  obtain ⟨index, bound, isIt⟩ := mem_iff_getElem.mp member
  have within : index < place := by
    rw [length_take] at bound
    omega
  exact earlier index within (by rw [← isIt, getElem_take])

theorem idxOf?_append_cons (free : element ∉ before) :
    (before ++ element :: after).idxOf? element = some before.length := by
  induction before with
  | nil => simp [List.idxOf?_cons]
  | cons first rest ih =>
    have differs : first ≠ element := fun same => free (by simp [same])
    have restFree : element ∉ rest := fun member => free (mem_cons_of_mem _ member)
    simp [List.idxOf?_cons, differs, ih restFree]

/-- An element that occurs later than another first occurrence. -/
theorem lt_idxOf?_of_append {other : α} (free : other ∉ before) (differs : other ≠ element)
    (found : (before ++ element :: after).idxOf? other = some place) : before.length < place := by
  obtain ⟨inside, isOther, -⟩ := List.idxOf?_eq_some_iff.mp found
  by_contra notLater
  rcases Nat.lt_or_eq_of_le (not_lt.mp notLater) with earlier | rfl
  · rw [getElem_append_left earlier] at isOther
    exact free (isOther ▸ getElem_mem earlier)
  · simp at isOther
    exact differs isOther.symm

end Odbcpp.Foundation
