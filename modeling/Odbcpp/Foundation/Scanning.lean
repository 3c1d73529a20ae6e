import Mathlib.Tactic

/-!
# Scanning

A scanner goes over a text in iterations. An iteration sees its state, the letters before
it and those to come, takes some of them, and says in which state the next one begins. The
tokens of a scan are its iterations with the letters that each of them took.
-/

namespace Odbcpp.Foundation

open List

/-- A scanner; the letters before an iteration are given last first. Every iteration takes
its letter, and a number of letters more. -/
structure Scanner (α σ ι : Type) where
  next : σ → List α → α → List α → ι
  extra : ι → Nat
  state : ι → σ

/-- An iteration with the state in which it began and the letters it took. -/
structure Token (α σ ι : Type) where
  start : σ
  taken : List α
  iteration : ι
deriving DecidableEq

namespace Scanner

variable {α σ ι : Type} (scanner : Scanner α σ ι)

def token (state : σ) (before : List α) (letter : α) (rest : List α) : Token α σ ι :=
  let iteration := scanner.next state before letter rest
  ⟨state, letter :: rest.take (scanner.extra iteration), iteration⟩

def unread (state : σ) (before : List α) (letter : α) (rest : List α) : List α :=
  rest.drop (scanner.extra (scanner.next state before letter rest))

def tokensWithin : Nat → σ → List α → List α → List (Token α σ ι)
  | 0, _, _, _ | _ + 1, _, _, [] => []
  | steps + 1, state, before, letter :: rest =>
    let token := scanner.token state before letter rest
    token :: tokensWithin steps (scanner.state token.iteration) (token.taken.reverse ++ before)
      (scanner.unread state before letter rest)

def tokens (state : σ) (before text : List α) : List (Token α σ ι) :=
  scanner.tokensWithin text.length state before text

def final : σ → List (Token α σ ι) → σ
  | state, [] => state
  | _, token :: tokens => final (scanner.state token.iteration) tokens

variable {scanner} {state : σ} {before text rest : List α} {letter : α}

theorem unread_length_lt :
    (scanner.unread state before letter rest).length < (letter :: rest).length := by
  simp only [unread, length_drop, length_cons]
  omega

theorem taken_append_unread :
    (scanner.token state before letter rest).taken ++ scanner.unread state before letter rest =
      letter :: rest := by
  simp [token, unread]

theorem tokensWithin_of_length_le {steps : Nat} (enough : text.length ≤ steps) :
    scanner.tokensWithin steps state before text = scanner.tokens state before text := by
  -- The induction is on the iterations, for every text that they are enough for.
  induction steps using Nat.strong_induction_on generalizing state before text with
  | _ steps ih =>
    rcases text with _ | ⟨letter, rest⟩
    · cases steps <;> simp [tokensWithin, tokens]
    cases steps with
    | zero => simp at enough
    | succ steps =>
      have shorter := @unread_length_lt α σ ι scanner state before rest letter
      simp only [length_cons] at enough shorter
      simp only [tokens, length_cons, tokensWithin, List.cons.injEq, true_and]
      rw [ih steps (by omega) (by omega), ih rest.length (by omega) (by omega)]

@[simp] theorem tokens_nil : scanner.tokens state before [] = [] := rfl

theorem tokens_cons : scanner.tokens state before (letter :: rest) =
      scanner.token state before letter rest ::
        scanner.tokens (scanner.state (scanner.token state before letter rest).iteration)
          ((scanner.token state before letter rest).taken.reverse ++ before)
          (scanner.unread state before letter rest) := by
  have shorter := @unread_length_lt α σ ι scanner state before rest letter
  simp only [length_cons] at shorter
  rw [tokens, length_cons, tokensWithin, tokensWithin_of_length_le (by omega)]

/-! ## Reading a part of a text -/

variable (scanner) in
/-- A run of the scanner over a text, with the tokens it reads. -/
inductive Reads : σ → List α → List α → List (Token α σ ι) → σ → List α → List α → Prop where
  | done {state : σ} {before text : List α} : Reads state before text [] state before text
  | step {state last : σ} {before rest behind ahead : List α} {letter : α}
      {tokens : List (Token α σ ι)}
      (reads : Reads (scanner.state (scanner.token state before letter rest).iteration)
        ((scanner.token state before letter rest).taken.reverse ++ before)
        (scanner.unread state before letter rest) tokens last behind ahead) :
      Reads state before (letter :: rest) (scanner.token state before letter rest :: tokens)
        last behind ahead

namespace Reads

variable {last final : σ} {behind ahead behind' ahead' : List α} {tokens more : List (Token α σ ι)}

theorem trans (first : scanner.Reads state before text tokens last behind ahead)
    (second : scanner.Reads last behind ahead more final behind' ahead') :
    scanner.Reads state before text (tokens ++ more) final behind' ahead' := by
  induction first with
  | done => exact second
  | step _ ih => exact .step (ih second)

theorem tokens_eq (reads : scanner.Reads state before text tokens last behind ahead) :
    scanner.tokens state before text = tokens ++ scanner.tokens last behind ahead := by
  induction reads with
  | done => rfl
  | step _ ih => rw [tokens_cons, ih, cons_append]

theorem final_eq (reads : scanner.Reads state before text tokens last behind ahead) :
    scanner.final state (scanner.tokens state before text) =
      scanner.final last (scanner.tokens last behind ahead) := by
  induction reads with
  | done => rfl
  | step _ ih => rw [tokens_cons, final, ih]

theorem text_eq (reads : scanner.Reads state before text tokens last behind ahead) :
    text = tokens.flatMap Token.taken ++ ahead ∧
      behind = (tokens.flatMap Token.taken).reverse ++ before := by
  induction reads with
  | done => simp
  | step _ ih =>
    obtain ⟨isText, isBehind⟩ := ih
    constructor
    · rw [← taken_append_unread, isText]
      simp
    · rw [isBehind]
      simp

theorem piece {iteration : ι} {extra more : List α}
    (isNext : scanner.next state before letter (extra ++ more) = iteration)
    (size : scanner.extra iteration = extra.length) :
    scanner.Reads state before (letter :: (extra ++ more)) [⟨state, letter :: extra, iteration⟩]
      (scanner.state iteration) ((letter :: extra).reverse ++ before) more := by
  subst isNext
  have step : scanner.Reads state before (letter :: (extra ++ more))
      [scanner.token state before letter (extra ++ more)] _ _ _ := .step .done
  simpa [token, unread, size] using step

end Reads

theorem reads_tokens (state : σ) (before text : List α) :
    ∃ last, scanner.Reads state before text (scanner.tokens state before text) last
      (text.reverse ++ before) [] := by
  induction size : text.length using Nat.strong_induction_on generalizing state before text with
  | _ size ih =>
    rcases text with _ | ⟨letter, rest⟩
    · exact ⟨state, .done⟩
    obtain ⟨last, reads⟩ := ih _ (size ▸ unread_length_lt)
      (scanner.state (scanner.token state before letter rest).iteration)
      ((scanner.token state before letter rest).taken.reverse ++ before)
      (scanner.unread state before letter rest) rfl
    refine ⟨last, ?_⟩
    rw [tokens_cons]
    have whole := @taken_append_unread α σ ι scanner state before rest letter
    have step := Reads.step reads
    rwa [← append_assoc, ← reverse_append, whole] at step

theorem flatMap_taken_tokens (state : σ) (before text : List α) :
    (scanner.tokens state before text).flatMap Token.taken = text := by
  obtain ⟨last, reads⟩ := @reads_tokens α σ ι scanner state before text
  simpa using reads.text_eq.1.symm

end Scanner

end Odbcpp.Foundation
