import Mathlib.Tactic

/-!
# Fallible folds

Facts about `Except` computations that succeed: how a bind succeeds, and the
induction rule for a fallible fold, whose invariant may speak about the items
already consumed.
-/

namespace Odbcpp.Foundation

variable {ε α β σ : Type} {items : List α}

/-- A bind succeeds exactly when both of its parts do. -/
theorem bind_eq_ok {first : Except ε α} {second : α → Except ε β} {value : β} :
    (first >>= second) = .ok value ↔ ∃ middle, first = .ok middle ∧ second middle = .ok value := by
  cases first with
  | error failure | ok middle => simp [bind, Except.bind]

@[simp] theorem pure_eq_ok {value other : α} :
    (pure value : Except ε α) = .ok other ↔ value = other := by
  simp [pure, Except.pure]

@[simp] theorem throw_ne_ok {failure value} :
    ¬ (throw failure : Except ε α) = .ok value := by
  simp [throw, throwThe, MonadExceptOf.throw]

/-- A throwing guard in front of a computation succeeds exactly when it does
not fire; `skipped` is the continuation the guard cuts off. -/
theorem guard_eq_ok {condition : Prop} [Decidable condition] {failure : ε}
    {skipped : β → Except ε α} {rest : Except ε α} {value : α} :
    (if condition then throw failure >>= skipped else rest) = .ok value ↔
      ¬ condition ∧ rest = .ok value := by
  by_cases fires : condition
  · simp [fires, bind_eq_ok]
  · simp [fires]

/-- What holds of the items already consumed and of the next one. -/
theorem forall_mem_concat {p : α → Prop} {seen : List α} {next : α}
    (earlier : ∀ item ∈ seen, p item) (last : p next) : ∀ item ∈ seen ++ [next], p item :=
  List.forall_mem_append.mpr ⟨earlier, List.forall_mem_singleton.mpr last⟩

theorem mapM_eq_ok {f : α → Except ε β} {values : List β} :
    items.mapM f = .ok values ↔ List.Forall₂ (fun item value => f item = .ok value) items values := by
  induction items generalizing values with
  | nil =>
    rw [List.mapM_nil, pure_eq_ok, List.forall₂_nil_left_iff, eq_comm]
  | cons item rest ih =>
    rw [List.mapM_cons, List.forall₂_cons_left_iff]
    simp only [bind_eq_ok, pure_eq_ok, ih]
    constructor
    · rintro ⟨value, here, values, there, rfl⟩
      exact ⟨value, values, here, there, rfl⟩
    · rintro ⟨value, values, here, there, rfl⟩
      exact ⟨value, here, values, there, rfl⟩

/-- Induction over a successful fallible fold: what every successful step preserves holds of the
final state. -/
theorem foldlM_invariant {step : σ → α → Except ε σ} (Invariant : List α → σ → Prop)
    (preserved : ∀ {seen state item next}, Invariant seen state → step state item = .ok next →
      Invariant (seen ++ [item]) next)
    {start final : σ} (initial : Invariant [] start)
    (folds : items.foldlM step start = .ok final) : Invariant items final := by
  -- The induction generalizes the empty prefix to an arbitrary consumed one.
  suffices general : ∀ (items seen : List α) (start : σ), Invariant seen start →
      items.foldlM step start = .ok final → Invariant (seen ++ items) final by
    simpa using general items [] start initial folds
  intro items
  induction items with
  | nil =>
    intro seen start holds folds
    have same : start = final := by simpa using folds
    simpa [same] using holds
  | cons item rest ih =>
    intro seen start holds folds
    rw [List.foldlM_cons, bind_eq_ok] at folds
    obtain ⟨next, stepped, folds⟩ := folds
    have result := ih (seen ++ [item]) next (preserved holds stepped) folds
    simpa using result

end Odbcpp.Foundation
