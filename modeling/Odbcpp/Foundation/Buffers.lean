import Odbcpp.Foundation.Bytes
import Odbcpp.Foundation.Checked

/-!
# Buffers written by offset

A buffer is filled with zeros and then written piece by piece at computed offsets. A write that
would leave the buffer has no result, as an unsigned subtraction that would wrap has none, so a
computation over `ExceptT ε Option` is absent exactly where one of its steps is undefined. `exactly`
is one all of whose steps are defined.
-/

namespace Odbcpp.Foundation

section Defined

variable {ε α β σ : Type} {left right : Except ε α}

/-- A computation without an undefined step. -/
def exactly (outcome : Except ε α) : ExceptT ε Option α := ExceptT.mk (some outcome)

theorem exactly_inj (same : exactly left = exactly right) :
    left = right :=
  Option.some.inj same

@[simp] theorem exactly_inj_iff :
    exactly left = exactly right ↔ left = right :=
  ⟨exactly_inj, congrArg exactly⟩

@[simp] theorem exactly_ok_bind (value : α) (rest : α → ExceptT ε Option β) :
    (exactly (.ok value) >>= rest) = rest value :=
  rfl

@[simp] theorem exactly_error_bind (failure : ε) (rest : α → ExceptT ε Option β) :
    (exactly (.error failure) >>= rest) = exactly (.error failure) :=
  rfl

theorem pure_eq_exactly (value : α) : (pure value : ExceptT ε Option α) = exactly (.ok value) :=
  rfl

theorem throw_eq_exactly (failure : ε) :
    (throw failure : ExceptT ε Option α) = exactly (.error failure) :=
  rfl

/-- A defined step of partial arithmetic, or a write inside its buffer. -/
theorem liftM_some (value : α) : (liftM (some value) : ExceptT ε Option α) = exactly (.ok value) :=
  rfl

/-- What follows needs to be defined only behind a success. -/
theorem exactly_bind {first : Except ε α} {rest : α → ExceptT ε Option β} {plain : α → Except ε β}
    (defined : ∀ value, first = .ok value → rest value = exactly (plain value)) :
    (exactly first >>= rest) = exactly (first >>= plain) := by
  cases first with
  | error failure => rfl
  | ok value => exact defined value rfl

theorem foldlM_exactly {step : σ → α → ExceptT ε Option σ} {plain : σ → α → Except ε σ}
    (Invariant : σ → Prop)
    (defined : ∀ {state} item, Invariant state → step state item = exactly (plain state item))
    (preserved : ∀ {state item next}, Invariant state → plain state item = .ok next →
      Invariant next) {start : σ} (initial : Invariant start) (items : List α) :
    items.foldlM step start = exactly (items.foldlM plain start) := by
  induction items generalizing start with
  | nil => rfl
  | cons item rest ih =>
    rw [List.foldlM_cons, List.foldlM_cons, defined item initial]
    exact exactly_bind fun next stepped => ih (preserved initial stepped)

end Defined

def writeAt (buffer : Bytes) (offset : Nat) (piece : Bytes) : Option Bytes :=
  if offset + piece.length ≤ buffer.length then
    some (buffer.take offset ++ piece ++ buffer.drop (offset + piece.length))
  else none

/-- The buffer of `room` further bytes behind the written ones. -/
def partFilled (written : Bytes) (room : Nat) : Bytes := written ++ List.replicate room 0

theorem partFilled_nil (room : Nat) : partFilled [] room = List.replicate room 0 := rfl

@[simp] theorem partFilled_zero (written : Bytes) : partFilled written 0 = written := by
  simp [partFilled]

theorem writeAt_partFilled (written piece : Bytes) {offset room : Nat}
    (behind : offset = written.length) :
    writeAt (partFilled written (piece.length + room)) offset piece =
      some (partFilled (written ++ piece) room) := by
  subst behind
  have inside : written.length + piece.length ≤
      (partFilled written (piece.length + room)).length := by
    simp [partFilled]
  rw [writeAt, if_pos inside]
  simp [partFilled, List.drop_append]

end Odbcpp.Foundation
