import Mathlib.Tactic

/-!
# Reachable states

A concurrent program is a set of initial states and a step relation that holds
every atomic step of every thread. What holds initially and is kept by each step
holds in every reachable state. Steps may also record events in a history that
only grows.
-/

namespace Odbcpp.Foundation

open Relation

variable {State : Type} {initial : State → Prop} {step narrow : State → State → Prop}

def Reachable (initial : State → Prop) (step : State → State → Prop) (state : State) : Prop :=
  ∃ start, initial start ∧ ReflTransGen step start state

namespace Reachable

theorem start {state : State} (begins : initial state) : Reachable initial step state :=
  ⟨state, begins, .refl⟩

theorem next {state after : State} (reached : Reachable initial step state)
    (taken : step state after) : Reachable initial step after := by
  obtain ⟨start, begins, steps⟩ := reached
  exact ⟨start, begins, steps.tail taken⟩

theorem invariant {Holds : State → Prop} (begins : ∀ state, initial state → Holds state)
    (keeps : ∀ {state after}, Reachable initial step state → Holds state → step state after →
      Holds after) {state : State} (reached : Reachable initial step state) : Holds state := by
  obtain ⟨start, isInitial, steps⟩ := reached
  induction steps with
  | refl => exact begins start isInitial
  | tail earlier taken ih => exact keeps ⟨start, isInitial, earlier⟩ ih taken

theorem mono (included : ∀ {state after}, narrow state after → step state after) {state : State}
    (reached : Reachable initial narrow state) : Reachable initial step state := by
  obtain ⟨start, begins, steps⟩ := reached
  exact ⟨start, begins, steps.lift id fun _ _ => included⟩

/-- Steps of a kind that decrease a rank cannot go on for ever. -/
theorem ends {progress : State → State → Prop} {Rank : Type} {less : Rank → Rank → Prop}
    (founded : WellFounded less) (rank : State → Rank)
    (included : ∀ {state after}, progress state after → step state after)
    (decreases : ∀ {state after}, Reachable initial step state → progress state after →
      less (rank after) (rank state)) {state : State} (reached : Reachable initial step state) :
    Acc (fun after before => progress before after) state := by
  generalize isRank : rank state = value
  induction value using founded.induction generalizing state with
  | h value ih =>
    subst isRank
    exact ⟨state, fun after taken =>
      ih (rank after) (decreases reached taken) (reached.next (included taken)) rfl⟩

end Reachable

theorem split_append {α : Type} {event : α} {added history later earlier : List α}
    (split : added ++ history = later ++ event :: earlier) :
    (∃ since, later = added ++ since ∧ history = since ++ event :: earlier) ∨
      ∃ before, added = later ++ event :: before := by
  rcases List.append_eq_append_iff.mp split with old | ⟨new, isAdded, rest⟩
  · exact .inl old
  cases new with
  | nil => exact .inl ⟨[], by simpa using isAdded.symm, by simpa using rest.symm⟩
  | cons first new =>
    obtain ⟨rfl, -⟩ := List.cons.inj rest
    exact .inr ⟨new, isAdded⟩

theorem split_of_notMem {α : Type} {event : α} {added history later earlier : List α}
    (absent : event ∉ added) (split : added ++ history = later ++ event :: earlier) :
    ∃ since, later = added ++ since ∧ history = since ++ event :: earlier :=
  (split_append split).resolve_right fun ⟨before, isAdded⟩ => absent (by simp [isAdded])

end Odbcpp.Foundation
