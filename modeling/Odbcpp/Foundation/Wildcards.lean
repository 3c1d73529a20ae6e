import Mathlib.Data.List.Forall2
import Mathlib.Data.List.Infix

/-!
# Wildcard patterns

Patterns of letters, single-letter wildcards and wildcards for any sequence, the texts they
match, and a matcher that goes back to its last wildcard only.
-/

namespace Odbcpp.Foundation.Wildcards

open List

universe u

inductive Element (α : Type u) where
  | anything
  | one
  | literal (letter : α)
deriving DecidableEq

variable {α : Type u}

def Element.Accepts : Element α → List α → Prop
  | .anything, _ => True
  | .one, piece => ∃ letter, piece = [letter]
  | .literal letter, piece => piece = [letter]

/-- A text is made of pieces that the elements accept in turn. -/
inductive Matches : List (Element α) → List α → Prop where
  | nil : Matches [] []
  | cons {element pattern piece rest}
      (accepts : element.Accepts piece) (later : Matches pattern rest) :
      Matches (element :: pattern) (piece ++ rest)

/-! ## The texts that match -/

variable {element : Element α} {pattern : List (Element α)} {text rest : List α} {letter : α}

theorem matches_nil_iff : Matches [] text ↔ text = [] := by
  constructor
  · intro isMatch
    cases isMatch
    rfl
  · rintro rfl
    exact .nil

theorem matches_cons_iff : Matches (element :: pattern) text ↔
    ∃ piece rest, text = piece ++ rest ∧ element.Accepts piece ∧ Matches pattern rest := by
  constructor
  · rintro (_ | ⟨accepts, later⟩)
    exact ⟨_, _, rfl, accepts, later⟩
  · rintro ⟨piece, rest, rfl, accepts, later⟩
    exact .cons accepts later

theorem matches_anything_iff : Matches (.anything :: pattern) text ↔
    ∃ rest, rest <:+ text ∧ Matches pattern rest := by
  rw [matches_cons_iff]
  constructor
  · rintro ⟨piece, rest, rfl, -, later⟩
    exact ⟨rest, suffix_append piece rest, later⟩
  · rintro ⟨rest, ⟨piece, rfl⟩, later⟩
    exact ⟨piece, rest, rfl, trivial, later⟩

theorem Matches.of_suffix (isSuffix : rest <:+ text)
    (isMatch : Matches (.anything :: pattern) rest) : Matches (.anything :: pattern) text := by
  obtain ⟨last, isLast, later⟩ := matches_anything_iff.mp isMatch
  exact matches_anything_iff.mpr ⟨last, isLast.trans isSuffix, later⟩

theorem matches_nil_right : Matches pattern ([] : List α) ↔ ∀ element ∈ pattern,
    element = .anything := by
  induction pattern with
  | nil => simp [matches_nil_iff]
  | cons element pattern ih =>
    rw [matches_cons_iff]
    constructor
    · rintro ⟨piece, rest, isText, accepts, later⟩
      obtain ⟨rfl, rfl⟩ := append_eq_nil_iff.mp isText.symm
      cases element with
      | anything => simpa using ih.mp later
      | one | literal letter => simp [Element.Accepts] at accepts
    intro all
    obtain ⟨rfl, others⟩ := forall_mem_cons.mp all
    exact ⟨[], [], rfl, trivial, ih.mpr others⟩

/-- An element other than the wildcard for any sequence stands for a letter. -/
def Element.fits [DecidableEq α] : Element α → α → Bool
  | .anything, _ => false
  | .one, _ => true
  | .literal expected, letter => expected = letter

section Fits

variable [DecidableEq α]

theorem matches_cons_of_fits (fits : element.fits letter = true) :
    Matches (element :: pattern) (letter :: rest) ↔ Matches pattern rest := by
  rw [matches_cons_iff]
  constructor
  · rintro ⟨piece, later, isText, accepts, isMatch⟩
    cases element with
    | anything => cases fits
    | one =>
      obtain ⟨other, rfl⟩ := accepts
      obtain ⟨-, rfl⟩ := List.cons.inj isText
      exact isMatch
    | literal expected =>
      obtain rfl := accepts
      obtain ⟨-, rfl⟩ := List.cons.inj isText
      exact isMatch
  · intro isMatch
    refine ⟨[letter], rest, rfl, ?_, isMatch⟩
    cases element with
    | anything => cases fits
    | one => exact ⟨letter, rfl⟩
    | literal expected => simpa [Element.Accepts, Element.fits, eq_comm] using fits

theorem not_matches_cons (nonFitting : element.fits letter = false)
    (single : element ≠ .anything) : ¬Matches (element :: pattern) (letter :: rest) := by
  rw [matches_cons_iff]
  rintro ⟨piece, later, isText, accepts, -⟩
  cases element with
  | anything => exact single rfl
  | one => cases nonFitting
  | literal expected =>
    obtain rfl := accepts
    obtain ⟨rfl, -⟩ := List.cons.inj isText
    simp [Element.fits] at nonFitting

variable {consumed : List (Element α)} {taken : List α}

theorem matches_append_of_fits
    (fits : List.Forall₂ (fun element letter => Element.fits element letter = true) consumed taken) :
    Matches (consumed ++ pattern) (taken ++ rest) ↔ Matches pattern rest := by
  induction fits with
  | nil => rfl
  | cons first _ ih => exact (matches_cons_of_fits first).trans ih

theorem exists_rest_of_matches_append
    (fits : List.Forall₂ (fun element letter => Element.fits element letter = true) consumed taken)
    (isMatch : Matches (consumed ++ pattern) text) :
    ∃ rest, rest <:+ text ∧ text.length = taken.length + rest.length ∧ Matches pattern rest := by
  induction fits generalizing text with
  | nil => exact ⟨text, suffix_refl text, by simp, isMatch⟩
  | @cons element letter consumed taken first _ ih =>
    obtain ⟨piece, later, rfl, accepts, isMatch⟩ := matches_cons_iff.mp isMatch
    obtain ⟨rest, isSuffix, isLength, isMatch⟩ := ih isMatch
    have single : piece.length = 1 := by
      cases element with
      | anything => cases first
      | one =>
        obtain ⟨other, rfl⟩ := accepts
        rfl
      | literal expected =>
        obtain rfl := accepts
        rfl
    refine ⟨rest, isSuffix.trans (suffix_append piece later), ?_, isMatch⟩
    simp
    omega

end Fits

/-! ## The matcher -/

/-- The place to go back to: the pattern after the last wildcard for any sequence, and the
text from which it is tried. -/
abbrev Retry (α : Type u) := Option (List (Element α) × List α)

/-- Match a text within a number of steps. -/
def greedy [DecidableEq α] : Nat → List (Element α) → List α → Retry α → Option Bool
  | _, pattern, [], _ => some (pattern.all (· = .anything))
  | 0, _, _ :: _, _ => none
  | steps + 1, .anything :: pattern, letter :: text, _ =>
    greedy steps pattern (letter :: text) (some (pattern, letter :: text))
  | steps + 1, pattern, letter :: text, retry =>
    if pattern.head?.any (·.fits letter) then greedy steps pattern.tail text retry
    else
      match retry with
      | none => some false
      | some (after, start) => greedy steps after start.tail (some (after, start.tail))

section Greedy

variable [DecidableEq α]

/-- From the place to go back to, the matcher came here by elements that fit. -/
def Resumable (pattern : List (Element α)) (text : List α) : Retry α → Prop
  | none => True
  | some (after, start) => ∃ consumed taken, after = consumed ++ pattern ∧ start = taken ++ text ∧
      List.Forall₂ (fun element letter => Element.fits element letter = true) consumed taken

/-- What remains to be decided. -/
def Goal (pattern : List (Element α)) (text : List α) : Retry α → Prop
  | none => Matches pattern text
  | some (after, start) => Matches (.anything :: after) start

variable {retry : Retry α} {steps : Nat}

theorem Resumable.step (resumable : Resumable (element :: pattern) (letter :: text) retry)
    (fits : element.fits letter = true) : Resumable pattern text retry := by
  cases retry with
  | none => trivial
  | some place =>
    obtain ⟨consumed, taken, isAfter, isStart, fitting⟩ := resumable
    exact ⟨consumed ++ [element], taken ++ [letter], by simpa using isAfter,
      by simpa using isStart, rel_append fitting (.cons fits .nil)⟩

/-- At the end of the text no earlier choice can do better: from each later place the pattern
would have fewer letters. -/
theorem goal_nil (resumable : Resumable pattern [] retry) :
    Goal pattern [] retry ↔ Matches pattern [] := by
  rcases retry with _ | place
  · rfl
  obtain ⟨after, start⟩ := place
  obtain ⟨consumed, taken, rfl, rfl, fitting⟩ := resumable
  rw [Goal, append_nil]
  constructor
  · intro isMatch
    obtain ⟨last, isLast, later⟩ := matches_anything_iff.mp isMatch
    obtain ⟨rest, -, isLength, isMatch⟩ := exists_rest_of_matches_append fitting later
    have atMost := isLast.length_le
    obtain rfl : rest = [] := length_eq_zero_iff.mp (by omega)
    exact isMatch
  intro isMatch
  refine matches_anything_iff.mpr ⟨taken, suffix_refl taken, ?_⟩
  simpa using (matches_append_of_fits fitting).mpr isMatch

/-- A further wildcard makes the earlier one superfluous. -/
theorem goal_anything (resumable : Resumable (.anything :: pattern) text retry) :
    Goal (.anything :: pattern) text retry ↔ Matches (.anything :: pattern) text := by
  rcases retry with _ | place
  · rfl
  obtain ⟨after, start⟩ := place
  obtain ⟨consumed, taken, rfl, rfl, fitting⟩ := resumable
  rw [Goal]
  constructor
  · intro isMatch
    obtain ⟨last, isLast, later⟩ := matches_anything_iff.mp isMatch
    obtain ⟨rest, isRest, isLength, isMatch⟩ := exists_rest_of_matches_append fitting later
    have atMost := isLast.length_le
    rw [length_append] at atMost
    refine isMatch.of_suffix ?_
    exact suffix_of_suffix_length_le (isRest.trans isLast)
      (suffix_append taken text) (by omega)
  · intro isMatch
    exact matches_anything_iff.mpr ⟨taken ++ text, suffix_refl _,
      (matches_append_of_fits fitting).mpr isMatch⟩

theorem goal_fits (fits : element.fits letter = true) :
    Goal (element :: pattern) (letter :: text) retry ↔ Goal pattern text retry := by
  cases retry with
  | none => exact matches_cons_of_fits fits
  | some place => rfl

theorem goal_retry {after start}
    (resumable : Resumable pattern (letter :: text) (some (after, start)))
    (stuck : ¬Matches pattern (letter :: text)) :
    Goal pattern (letter :: text) (some (after, start)) ↔
      Matches (.anything :: after) start.tail := by
  obtain ⟨consumed, taken, rfl, rfl, fitting⟩ := resumable
  rw [Goal]
  constructor
  · intro isMatch
    obtain ⟨last, isLast, later⟩ := matches_anything_iff.mp isMatch
    refine matches_anything_iff.mpr ⟨last, ?_, later⟩
    have differs : last ≠ taken ++ letter :: text := by
      rintro rfl
      exact stuck ((matches_append_of_fits fitting).mp later)
    obtain ⟨piece, isText⟩ := isLast
    cases piece with
    | nil => exact absurd isText differs
    | cons first piece =>
      rw [← isText]
      exact suffix_append piece last
  · intro isMatch
    exact isMatch.of_suffix (tail_suffix _)

def Stuck (pattern : List (Element α)) (letter : α) : Prop :=
  pattern.head? ≠ some .anything ∧ pattern.head?.any (·.fits letter) = false

theorem Stuck.not_matches (stuck : Stuck pattern letter) : ¬Matches pattern (letter :: text) := by
  obtain ⟨single, nonFitting⟩ := stuck
  cases pattern with
  | nil => simp [matches_nil_iff]
  | cons element pattern =>
    exact not_matches_cons (by simpa using nonFitting) (by simpa using single)

theorem pattern_cases (pattern : List (Element α)) (letter : α) :
    (∃ rest, pattern = .anything :: rest) ∨
      (∃ element rest, pattern = element :: rest ∧ element.fits letter = true) ∨
      Stuck pattern letter := by
  rcases pattern with - | ⟨element, pattern⟩
  · exact .inr (.inr ⟨by simp, rfl⟩)
  by_cases isWild : element = .anything
  · exact .inl ⟨pattern, by rw [isWild]⟩
  cases fits : element.fits letter with
  | true => exact .inr (.inl ⟨element, pattern, rfl, fits⟩)
  | false => exact .inr (.inr ⟨by simpa using isWild, by simpa using fits⟩)

theorem greedy_fits (fits : element.fits letter = true) :
    greedy (steps + 1) (element :: pattern) (letter :: text) retry =
      greedy steps pattern text retry := by
  cases element with
  | anything => cases fits
  | one => rfl
  | literal expected => simp [greedy, fits]

theorem greedy_stuck (stuck : Stuck pattern letter) :
    greedy (steps + 1) pattern (letter :: text) retry =
      retry.elim (some false) fun place =>
        greedy steps place.1 place.2.tail (some (place.1, place.2.tail)) := by
  obtain ⟨single, nonFitting⟩ := stuck
  rcases pattern with - | ⟨_ | _ | expected, pattern⟩
  · cases retry <;> rfl
  · exact absurd rfl single
  · cases nonFitting
  · have nonFitting : (Element.literal expected).fits letter = false := by simpa using nonFitting
    cases retry <;> simp [greedy, nonFitting]

theorem Resumable.start : Resumable pattern text (some (pattern, text)) :=
  ⟨[], [], rfl, rfl, .nil⟩

/-- The matcher decides whether the text matches. -/
theorem greedy_eq_some {answer : Bool} (resumable : Resumable pattern text retry)
    (returns : greedy steps pattern text retry = some answer) :
    answer = true ↔ Goal pattern text retry := by
  induction steps generalizing pattern text retry with
  | zero =>
    cases text with
    | nil =>
      rw [goal_nil resumable, matches_nil_right, ← Option.some.inj returns]
      simp
    | cons letter text => cases returns
  | succ steps ih =>
    cases text with
    | nil =>
      rw [goal_nil resumable, matches_nil_right, ← Option.some.inj returns]
      simp
    | cons letter text =>
      rcases pattern_cases pattern letter with ⟨rest, rfl⟩ | ⟨element, rest, rfl, fits⟩ | stuck
      · rw [goal_anything resumable]
        exact ih .start returns
      · rw [goal_fits fits]
        rw [greedy_fits fits] at returns
        exact ih (resumable.step fits) returns
      rw [greedy_stuck stuck] at returns
      cases retry with
      | none =>
        obtain rfl := Option.some.inj returns
        simpa [Goal] using stuck.not_matches
      | some place =>
        rw [goal_retry resumable stuck.not_matches]
        exact ih .start returns

/-! ## Its steps -/

/-- How far the place to go back to can still move. -/
def remaining (text : List α) : Retry α → Nat
  | none => text.length + 1
  | some (_, start) => start.length

theorem length_le_remaining (resumable : Resumable pattern text retry) :
    text.length ≤ remaining text retry := by
  cases retry with
  | none => exact Nat.le_succ _
  | some place =>
    obtain ⟨consumed, taken, -, isStart, -⟩ := resumable
    simp [remaining, isStart]

theorem greedy_isSome {steps bound : Nat} (resumable : Resumable pattern text retry)
    (isBound : pattern.length ≤ bound ∧ ∀ place ∈ retry, place.1.length ≤ bound)
    (enough : remaining text retry * (bound + 1) + pattern.length ≤ steps) :
    ∃ answer, greedy steps pattern text retry = some answer := by
  induction steps generalizing pattern text retry with
  | zero =>
    have atMost := length_le_remaining resumable
    cases text with
    | nil => exact ⟨_, rfl⟩
    | cons letter text =>
      have positive := Nat.mul_le_mul_right (bound + 1) atMost
      rw [length_cons, Nat.succ_mul] at positive
      omega
  | succ steps ih =>
    rcases text with _ | ⟨letter, text⟩
    · exact ⟨_, rfl⟩
    have atMost := length_le_remaining resumable
    rcases pattern_cases pattern letter with ⟨rest, rfl⟩ | ⟨element, rest, rfl, fits⟩ | stuck
    · rw [length_cons] at isBound enough
      have fewer := Nat.mul_le_mul_right (bound + 1) atMost
      refine ih .start ⟨by omega, by simpa using (by omega : rest.length ≤ bound)⟩ ?_
      rw [remaining]
      omega
    · rw [length_cons] at isBound enough
      rw [greedy_fits fits]
      refine ih (resumable.step fits) ⟨by omega, isBound.2⟩ ?_
      have fewer : remaining text retry ≤ remaining (letter :: text) retry := by
        cases retry with
        | none => simp [remaining]
        | some place => exact le_rfl
      have product := Nat.mul_le_mul_right (bound + 1) fewer
      omega
    · rw [greedy_stuck stuck]
      rcases retry with _ | place
      · exact ⟨false, rfl⟩
      obtain ⟨after, start⟩ := place
      have isAfter : after.length ≤ bound := isBound.2 _ rfl
      refine ih .start ⟨isAfter, by simpa using isAfter⟩ ?_
      cases start with
      | nil => simp [remaining] at atMost
      | cons first start =>
        simp only [remaining, length_cons, Nat.succ_mul, tail_cons]
          at enough ⊢
        omega

end Greedy

/-- A number of steps within which the matcher decides. -/
def greedySteps (patternLength textLength : Nat) : Nat := (textLength + 2) * (patternLength + 1)

theorem greedy_decides [DecidableEq α] {steps : Nat}
    (enough : greedySteps pattern.length text.length ≤ steps) :
    ∃ answer, greedy steps pattern text none = some answer ∧
      (answer = true ↔ Matches pattern text) := by
  have resumable : Resumable pattern text none := trivial
  have isBound : pattern.length ≤ pattern.length ∧
      ∀ place ∈ (none : Retry α), place.1.length ≤ pattern.length := ⟨le_rfl, by simp⟩
  have covered : remaining text none * (pattern.length + 1) + pattern.length ≤ steps := by
    refine le_trans ?_ enough
    rw [remaining, greedySteps, Nat.succ_mul (text.length + 1)]
    omega
  obtain ⟨answer, returns⟩ := greedy_isSome resumable isBound covered
  exact ⟨answer, returns, greedy_eq_some resumable returns⟩

end Odbcpp.Foundation.Wildcards
