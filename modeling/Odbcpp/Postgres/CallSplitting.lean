import Odbcpp.Postgres.CallTrivia

/-!
# Splitting a call

What an argument list is, by the grammar: the text from the name of a function on consists of
trivia, an opening parenthesis, arguments with balanced brackets separated by commas, a closing
parenthesis and trivia. `call_arguments` finds the arguments exactly when the text has this form.
-/

namespace Odbcpp.Postgres

open Foundation Util Dialect List
open List (cons cons_append forall_mem_cons)

/-! ## Brackets -/

/-- The pairs of brackets. -/
inductive Brackets : UInt8 → UInt8 → Prop where
  | round : Brackets (code '(') (code ')')
  | square : Brackets (code '[') (code ']')

def SqlSegment.isBracket : SqlSegment → Bool
  | .plain byte =>
    byte = code '(' || byte = code '[' || byte = code ')' || byte = code ']'
  | .body _ => false

/-- Every bracket outside of bodies is closed by its own kind. -/
inductive Balanced : List SqlSegment → Prop where
  | nil : Balanced []
  | other {segment rest} (free : segment.isBracket = false)
      (later : Balanced rest) : Balanced (segment :: rest)
  | group {opening closing inner rest}
      (pair : Brackets opening closing) (within : Balanced inner) (later : Balanced rest) :
      Balanced (.plain opening :: (inner ++ .plain closing :: rest))

/-- Balanced segments with no comma but inside of brackets. -/
inductive Argument : List SqlSegment → Prop where
  | nil : Argument []
  | other {segment rest} (free : segment.isBracket = false)
      (notComma : segment ≠ .plain (code ',')) (later : Argument rest) :
      Argument (segment :: rest)
  | group {opening closing inner rest}
      (pair : Brackets opening closing) (within : Balanced inner) (later : Argument rest) :
      Argument (.plain opening :: (inner ++ .plain closing :: rest))

/-- Whether segments pair their brackets and those to be closed, top first, without a comma
outside of brackets. -/
def closes : Bytes → List SqlSegment → Bool
  | stack, [] => stack.isEmpty
  | stack, .body _ :: rest => closes stack rest
  | stack, .plain ch :: rest =>
    if ch = code '(' then closes (code ')' :: stack) rest
    else if ch = code '[' then closes (code ']' :: stack) rest
    else if ch = code ')' || ch = code ']' then stack.head? = some ch && closes stack.tail rest
    else if ch = code ',' && stack.isEmpty then false
    else closes stack rest

section Closes

variable {stack : Bytes} {segment : SqlSegment} {inner rest segments : List SqlSegment}
  {opening closing : UInt8}

theorem closes_other (free : segment.isBracket = false)
    (inside : segment ≠ .plain (code ',') ∨ stack ≠ []) :
    closes stack (segment :: rest) = closes stack rest := by
  cases segment with
  | body bytes => rfl
  | plain ch =>
    simp only [SqlSegment.isBracket, Bool.or_eq_false_iff, decide_eq_false_iff_not] at free
    obtain ⟨⟨⟨notRound, notSquare⟩, notRoundEnd⟩, notSquareEnd⟩ := free
    have notSeparator : (ch = code ',' && stack.isEmpty) = false := by
      rcases inside with notComma | nonempty
      · simp [show ch ≠ code ',' from fun isComma => notComma (isComma ▸ rfl)]
      · simp [nonempty]
    simp [closes, notRound, notSquare, notRoundEnd, notSquareEnd, notSeparator]

variable (pair : Brackets opening closing)

include pair

theorem closes_opening :
    closes stack (.plain opening :: rest) = closes (closing :: stack) rest := by
  cases pair <;> rfl

theorem closes_closing_iff : closes stack (.plain closing :: rest) = true ↔
      ∃ lower, stack = closing :: lower ∧ closes lower rest = true := by
  have isClosing : closes stack (.plain closing :: rest) =
      (stack.head? = some closing && closes stack.tail rest) := by
    cases pair <;> rfl
  rw [isClosing]
  rcases stack with _ | ⟨top, lower⟩
  · simp
  simp only [List.head?_cons, tail_cons, Bool.and_eq_true, decide_eq_true_eq,
    Option.some.injEq, cons.injEq]
  constructor
  · rintro ⟨rfl, closed⟩
    exact ⟨lower, ⟨rfl, rfl⟩, closed⟩
  · rintro ⟨_, ⟨rfl, rfl⟩, closed⟩
    exact ⟨rfl, closed⟩

theorem closes_closing :
    closes (closing :: stack) (.plain closing :: rest) = closes stack rest := by
  rw [Bool.eq_iff_iff, closes_closing_iff pair]
  simp

omit pair

theorem bracket_cases (segment : SqlSegment) : segment.isBracket = false ∨
    ∃ opening closing, Brackets opening closing ∧
      (segment = .plain opening ∨ segment = .plain closing) := by
  cases segment with
  | body bytes => exact .inl rfl
  | plain ch =>
    by_cases isRound : ch = code '(' ∨ ch = code ')'
    · exact .inr ⟨_, _, .round, by rcases isRound with rfl | rfl <;> simp⟩
    by_cases isSquare : ch = code '[' ∨ ch = code ']'
    · exact .inr ⟨_, _, .square, by rcases isSquare with rfl | rfl <;> simp⟩
    rw [not_or] at isRound isSquare
    exact .inl (by simp [SqlSegment.isBracket, isRound, isSquare])

theorem Balanced.closes_append (balanced : Balanced inner) (inside : stack ≠ []) :
    closes stack (inner ++ rest) = closes stack rest := by
  induction balanced generalizing stack rest with
  | nil => rfl
  | other free _ ih =>
    rw [cons_append, closes_other free (.inr inside), ih inside]
  | group pair _ _ ihWithin ihLater =>
    rw [cons_append, append_assoc, closes_opening pair, ihWithin (by simp),
      cons_append, closes_closing pair, ihLater inside]

theorem Argument.closes (isArgument : Argument segments) : closes [] segments = true := by
  induction isArgument with
  | nil => rfl
  | other free notComma _ ih => rw [closes_other free (.inl notComma), ih]
  | group pair within _ ih =>
    rw [closes_opening pair, within.closes_append (by simp), closes_closing pair, ih]

/-- What the stack accepts is an argument, after the balanced segments before each bracket to be
closed. -/
theorem exists_balanced_of_closes (size : Nat) : ∀ {segments},
    segments.length ≤ size → (closes [] segments = true → Argument segments) ∧
    ∀ {closing : UInt8} {stack : Bytes}, closes (closing :: stack) segments = true →
      ∃ inner rest, segments = inner ++ .plain closing :: rest ∧ Balanced inner ∧
        closes stack rest = true := by
  induction size with
  | zero =>
    intro segments short
    obtain rfl := length_eq_zero_iff.mp (Nat.le_zero.mp short)
    exact ⟨fun _ => .nil, fun closed => by cases closed⟩
  | succ size ih =>
    intro segments short
    rcases segments with _ | ⟨segment, rest⟩
    · exact ⟨fun _ => .nil, fun closed => by cases closed⟩
    have fewer : rest.length ≤ size := by simpa using short
    rcases bracket_cases segment with free | ⟨opening, closing, pair, rfl | rfl⟩
    · refine ⟨fun closed => ?_, fun closed => ?_⟩
      · by_cases isComma : segment = .plain (code ',')
        · subst isComma
          cases closed
        · rw [closes_other free (.inl isComma)] at closed
          exact .other free isComma ((ih fewer).1 closed)
      rw [closes_other free (.inr (by simp))] at closed
      obtain ⟨inner, after, rfl, balanced, closed⟩ := (ih fewer).2 closed
      exact ⟨segment :: inner, after, rfl, .other free balanced, closed⟩
    · refine ⟨fun closed => ?_, fun closed => ?_⟩
      · rw [closes_opening pair] at closed
        obtain ⟨inner, after, rfl, balanced, closed⟩ := (ih fewer).2 closed
        refine .group pair balanced ((ih ?_).1 closed)
        simp at fewer
        omega
      rw [closes_opening pair] at closed
      obtain ⟨inner, after, rfl, balanced, closed⟩ := (ih fewer).2 closed
      have shorter : after.length ≤ size := by
        simp at fewer
        omega
      obtain ⟨others, more, rfl, balancedOthers, closed⟩ := (ih shorter).2 closed
      exact ⟨_, more, by simp, .group pair balanced balancedOthers, closed⟩
    · refine ⟨fun closed => ?_, fun closed => ?_⟩
      · obtain ⟨_, isStack, -⟩ := (closes_closing_iff pair).mp closed
        cases isStack
      obtain ⟨_, isStack, closed⟩ := (closes_closing_iff pair).mp closed
      obtain ⟨rfl, rfl⟩ := cons.inj isStack
      exact ⟨[], rest, rfl, .nil, closed⟩

theorem closes_nil_iff : closes [] segments = true ↔ Argument segments :=
  ⟨(exists_balanced_of_closes _ le_rfl).1, Argument.closes⟩

end Closes

/-! ## Calls -/

def argumentList (arguments : List (List SqlSegment)) : List SqlSegment :=
  List.intercalate [.plain (code ',')] arguments

/-- The text from a function name on is a call with these arguments, none blank, between trivia. -/
structure Call (before text : Bytes) (lead : List SqlSegment)
    (arguments : List (List SqlSegment)) (trail : List SqlSegment) : Prop where
  divided : SqlSegments before text (lead ++ .plain (code '(') ::
    (argumentList arguments ++ .plain (code ')') :: trail))
  leading : ∀ segment ∈ lead, Trivia segment
  nonempty : arguments ≠ []
  areArguments : ∀ argument ∈ arguments, Argument argument
  notBlank : ∀ argument ∈ arguments, ¬∀ segment ∈ argument, Trivia segment
  trailing : ∀ segment ∈ trail, Trivia segment

/-- Slices one behind the other, with one byte between them. -/
def placed : Nat → List Bytes → List Slice
  | _, [] => []
  | start, bytes :: rest => ⟨start, bytes⟩ :: placed (start + bytes.length + 1) rest

/-- The rest of a call, inside of its first argument, of which `current` has been read and
`stack` remains to be closed; `arguments` are the whole arguments. -/
def Completes (stack : Bytes) (current rest : List SqlSegment)
    (arguments : List (List SqlSegment)) : Prop :=
  ∃ first others trail,
    rest = argumentList (first :: others) ++ .plain (code ')') :: trail ∧
    arguments = (current ++ first) :: others ∧ closes stack first = true ∧
    (∀ argument ∈ others, Argument argument) ∧
    (∀ argument ∈ arguments, ¬∀ segment ∈ argument, Trivia segment) ∧
    ∀ segment ∈ trail, Trivia segment

section Completes

variable {stack lower : Bytes} {current rest : List SqlSegment}
  {arguments : List (List SqlSegment)} {segment : SqlSegment}

theorem argumentList_cons_head (segment : SqlSegment) (first : List SqlSegment)
    (others : List (List SqlSegment)) :
    argumentList ((segment :: first) :: others) = segment :: argumentList (first :: others) := by
  cases others <;> simp [argumentList]

theorem argumentList_cases {first others trail}
    (isRest : segment :: rest = argumentList (first :: others) ++ .plain (code ')') :: trail) :
    (∃ tail, first = segment :: tail ∧
      rest = argumentList (tail :: others) ++ .plain (code ')') :: trail) ∨
    (first = [] ∧ segment = .plain (code ')') ∧ others = [] ∧ rest = trail) ∨
    (first = [] ∧ segment = .plain (code ',') ∧ ∃ second more, others = second :: more ∧
      rest = argumentList (second :: more) ++ .plain (code ')') :: trail) := by
  cases first with
  | cons head tail =>
    rw [argumentList_cons_head, cons_append] at isRest
    obtain ⟨rfl, rfl⟩ := List.cons.inj isRest
    exact .inl ⟨tail, rfl, rfl⟩
  | nil =>
    cases others with
    | nil =>
      obtain ⟨rfl, rfl⟩ := List.cons.inj isRest
      exact .inr (.inl ⟨rfl, rfl, rfl, rfl⟩)
    | cons second more =>
      have isList : argumentList ([] :: second :: more) =
          .plain (code ',') :: argumentList (second :: more) := by simp [argumentList]
      rw [isList, cons_append] at isRest
      obtain ⟨rfl, rfl⟩ := List.cons.inj isRest
      exact .inr (.inr ⟨rfl, rfl, second, more, rfl, rfl⟩)

theorem not_completes_nil : ¬Completes stack current [] arguments := by
  rintro ⟨first, others, trail, isRest, -⟩
  simp at isRest

theorem completes_cons
    (inside : stack = [] → segment ≠ .plain (code ')') ∧ segment ≠ .plain (code ','))
    (passes : ∀ tail, closes stack (segment :: tail) = closes lower tail) :
    Completes stack current (segment :: rest) arguments ↔
      Completes lower (current ++ [segment]) rest arguments := by
  constructor
  · rintro ⟨first, others, trail, isRest, isArguments, closed, areArguments, notBlank, trailing⟩
    rcases argumentList_cases isRest with ⟨tail, rfl, isTail⟩ | ⟨rfl, isSegment, -⟩ |
      ⟨rfl, isSegment, -⟩
    · exact ⟨tail, others, trail, isTail, by simp [isArguments], passes tail ▸ closed,
        areArguments, notBlank, trailing⟩
    · exact absurd isSegment (inside (isEmpty_iff.mp closed)).1
    · exact absurd isSegment (inside (isEmpty_iff.mp closed)).2
  rintro ⟨tail, others, trail, isRest, isArguments, closed, areArguments, notBlank, trailing⟩
  refine ⟨segment :: tail, others, trail, ?_, by simp [isArguments], (passes tail).trans closed,
    areArguments, notBlank, trailing⟩
  rw [argumentList_cons_head, cons_append, isRest]

theorem not_completes_cons
    (inside : stack = [] → segment ≠ .plain (code ')') ∧ segment ≠ .plain (code ','))
    (fails : ∀ tail, closes stack (segment :: tail) = false) :
    ¬Completes stack current (segment :: rest) arguments := by
  rintro ⟨first, others, trail, isRest, -, closed, -⟩
  rcases argumentList_cases isRest with ⟨tail, rfl, -⟩ | ⟨rfl, isSegment, -⟩ | ⟨rfl, isSegment, -⟩
  · rw [fails tail] at closed
    cases closed
  · exact absurd isSegment (inside (isEmpty_iff.mp closed)).1
  · exact absurd isSegment (inside (isEmpty_iff.mp closed)).2

theorem completes_comma : Completes [] current (.plain (code ',') :: rest) arguments ↔
      (¬∀ segment ∈ current, Trivia segment) ∧
        ∃ later, Completes [] [] rest later ∧ arguments = current :: later := by
  constructor
  · rintro ⟨first, others, trail, isRest, isArguments, closed, areArguments, notBlank, trailing⟩
    rcases argumentList_cases isRest with ⟨tail, rfl, -⟩ | ⟨-, isSegment, -⟩ |
      ⟨rfl, -, second, more, rfl, isTail⟩
    · cases closed
    · cases isSegment
    subst isArguments
    rw [append_nil] at notBlank
    obtain ⟨currentNotBlank, laterNotBlank⟩ := forall_mem_cons.mp notBlank
    obtain ⟨isArgument, areMore⟩ := forall_mem_cons.mp areArguments
    exact ⟨currentNotBlank, second :: more,
      ⟨second, more, trail, isTail, rfl, closes_nil_iff.mpr isArgument, areMore, laterNotBlank,
        trailing⟩, by simp⟩
  · rintro ⟨currentNotBlank, later, ⟨second, more, trail, rfl, rfl, closed, areMore, notBlank,
      trailing⟩, rfl⟩
    refine ⟨[], second :: more, trail, by simp [argumentList], by simp, rfl,
      forall_mem_cons.mpr ⟨closes_nil_iff.mp closed, areMore⟩,
      forall_mem_cons.mpr ⟨currentNotBlank, notBlank⟩, trailing⟩

theorem completes_close : Completes [] current (.plain (code ')') :: rest) arguments ↔
      (¬∀ segment ∈ current, Trivia segment) ∧ (∀ segment ∈ rest, Trivia segment) ∧
        arguments = [current] := by
  constructor
  · rintro ⟨first, others, trail, isRest, isArguments, closed, -, notBlank, trailing⟩
    rcases argumentList_cases isRest with ⟨tail, rfl, -⟩ | ⟨rfl, -, rfl, rfl⟩ |
      ⟨-, isSegment, -⟩
    · cases closed
    · subst isArguments
      rw [append_nil] at notBlank
      exact ⟨notBlank _ (by simp), trailing, by simp⟩
    · cases isSegment
  · rintro ⟨notBlank, trailing, rfl⟩
    exact ⟨[], [], rest, rfl, by simp, rfl, by simp, by simpa using notBlank, trailing⟩

end Completes

/-! ## The loop -/

section Steps

variable {count steps start : Nat} {slices : List Slice} {closers before rest bytes : Bytes}
  {ch opening closing : UInt8}

theorem callArgumentsWithin_body {tail : Bytes} (same : bytes ++ rest = ch :: tail)
    (closed : lexicalBody before ch tail = some (some bytes.length)) :
    callArgumentsWithin count (steps + 1) slices start closers before (bytes ++ rest) =
      callArgumentsWithin count steps slices start closers (bytes.reverse ++ before) rest := by
  rw [same, callArgumentsWithin, closed]
  simp [← same]

theorem callArgumentsWithin_unclosed {tail : Bytes} (same : bytes ++ rest = ch :: tail)
    (unclosed : lexicalBody before ch tail = some none) :
    callArgumentsWithin count (steps + 1) slices start closers before (bytes ++ rest) = none := by
  rw [same, callArgumentsWithin, unclosed]

theorem callArgumentsWithin_opening (pair : Brackets opening closing)
    (isPlain : lexicalBody before opening rest = none) :
    callArgumentsWithin count (steps + 1) slices start closers before (opening :: rest) =
      callArgumentsWithin count steps slices start (closing :: closers) (opening :: before)
        rest := by
  rw [callArgumentsWithin, isPlain]
  cases pair <;> rfl

theorem callArgumentsWithin_closing (pair : Brackets opening closing)
    (isPlain : lexicalBody before closing rest = none) (inner : closing = code ')' →
      closers.length ≠ 1) :
    callArgumentsWithin count (steps + 1) slices start closers before (closing :: rest) =
      if closers.head? = some closing then
        callArgumentsWithin count steps slices start closers.tail (closing :: before) rest
      else none := by
  rw [callArgumentsWithin, isPlain]
  cases pair with
  | round =>
    simp [code, inner rfl]
    exact if_congr Iff.rfl rfl rfl
  | square =>
    simp [code]
    exact if_congr Iff.rfl rfl rfl

theorem callArgumentsWithin_other (isPlain : lexicalBody before ch rest = none)
    (free : (SqlSegment.plain ch).isBracket = false) (inside : ch = code ',' → closers.length ≠ 1) :
    callArgumentsWithin count (steps + 1) slices start closers before (ch :: rest) =
      callArgumentsWithin count steps slices start closers (ch :: before) rest := by
  simp only [SqlSegment.isBracket, Bool.or_eq_false_iff, decide_eq_false_iff_not] at free
  obtain ⟨⟨⟨notRound, notSquare⟩, notRoundEnd⟩, notSquareEnd⟩ := free
  have notComma : (ch = code ',' && closers.length = 1) = false := by
    by_cases isComma : ch = code ','
    · simp [inside isComma]
    · simp [isComma]
  rw [callArgumentsWithin, isPlain]
  simp [notRound, notSquare, notRoundEnd, notSquareEnd, notComma]

theorem callArgumentsWithin_comma (isPlain : lexicalBody before (code ',') rest = none)
    {argument : Bytes} (isArgument : (before.take (before.length - start)).reverse = argument) :
    callArgumentsWithin count (steps + 1) slices start [code ')'] before (code ',' :: rest) =
      if skipTrivia argument = none ∨ skipTrivia argument = some argument.length ∨
        slices.length = count then none
      else callArgumentsWithin count steps (slices ++ [⟨start, argument⟩]) (before.length + 1)
        [code ')'] (code ',' :: before) rest := by
  rw [callArgumentsWithin, isPlain]
  simp [code, isArgument, or_assoc]

theorem callArgumentsWithin_close (isPlain : lexicalBody before (code ')') rest = none)
    {argument : Bytes} (isArgument : (before.take (before.length - start)).reverse = argument) :
    callArgumentsWithin count (steps + 1) slices start [code ')'] before (code ')' :: rest) =
      if skipTrivia argument = none ∨ skipTrivia argument = some argument.length ∨
        slices.length = count then none
      else if skipTrivia rest = some rest.length → slices.length + 1 ≠ count then none
      else some (slices ++ [⟨start, argument⟩]) := by
  rw [callArgumentsWithin, isPlain]
  simp [code, isArgument, or_iff_not_imp_left]

end Steps

section Loop

variable {count : Nat} {result : List Slice}

section Ends

variable {steps : Nat} {slices : List Slice} {earlier text : Bytes}
  {current rest : List SqlSegment} {ch : UInt8}

theorem take_argument : (((spell current).reverse ++ earlier).take
    (((spell current).reverse ++ earlier).length - earlier.length)).reverse = spell current := by
  simp

/-- An argument is refused that holds nothing but trivia, or is one too many. -/
theorem refusal_iff (divided : SqlSegments earlier text (current ++ .plain ch :: rest)) :
    (skipTrivia (spell current) = none ∨
      skipTrivia (spell current) = some (spell current).length ∨ slices.length = count) ↔
      (∀ segment ∈ current, Trivia segment) ∨ slices.length = count := by
  simp [skipTrivia_ne_none divided (by simp), skipTrivia_eq_length_iff divided]

theorem callArgumentsWithin_comma_iff
    (divided : SqlSegments earlier text (current ++ .plain (code ',') :: rest))
    (next : callArgumentsWithin count steps (slices ++ [⟨earlier.length, spell current⟩])
        (code ',' :: ((spell current).reverse ++ earlier)).length [code ')']
        (code ',' :: ((spell current).reverse ++ earlier)) (spell rest) = some result ↔
      ∃ arguments, Completes [] [] rest arguments ∧
        (slices ++ [(⟨earlier.length, spell current⟩ : Slice)]).length + arguments.length = count ∧
        result = slices ++ [⟨earlier.length, spell current⟩] ++
          placed (code ',' :: ((spell current).reverse ++ earlier)).length (arguments.map spell)) :
    callArgumentsWithin count (steps + 1) slices earlier.length [code ')']
        ((spell current).reverse ++ earlier) (code ',' :: spell rest) = some result ↔
      ∃ arguments, Completes [] current (.plain (code ',') :: rest) arguments ∧
        slices.length + arguments.length = count ∧
        result = slices ++ placed earlier.length (arguments.map spell) := by
  rw [callArgumentsWithin_comma (lexicalBody_eq_none divided.drop.outside) take_argument]
  simp only [completes_comma]
  by_cases refused : (∀ segment ∈ current, Trivia segment) ∨ slices.length = count
  · rw [if_pos ((refusal_iff divided).mpr refused)]
    refine ⟨fun found => (nomatch found), ?_⟩
    rintro ⟨_, ⟨notBlank, later, -, rfl⟩, isCount, -⟩
    rcases refused with isBlank | isFull
    · exact absurd isBlank notBlank
    · rw [length_cons] at isCount
      omega
  rw [if_neg ((refusal_iff divided).not.mpr refused)]
  refine next.trans ?_
  have place : (code ',' :: ((spell current).reverse ++ earlier)).length =
      earlier.length + (spell current).length + 1 := by
    simp [Nat.add_comm]
  rw [place]
  constructor
  · rintro ⟨later, completes, isCount, rfl⟩
    refine ⟨current :: later, ⟨(not_or.mp refused).1, later, completes, rfl⟩, ?_, ?_⟩
    · simpa [Nat.add_assoc, Nat.add_comm 1] using isCount
    · simp [placed]
  rintro ⟨_, ⟨-, later, completes, rfl⟩, isCount, rfl⟩
  refine ⟨later, completes, ?_, ?_⟩
  · simpa [Nat.add_assoc, Nat.add_comm 1] using isCount
  · simp [placed]

/-- The closing parenthesis ends the last argument; only trivia may follow it. -/
theorem callArgumentsWithin_close_iff
    (divided : SqlSegments earlier text (current ++ .plain (code ')') :: rest)) :
    callArgumentsWithin count (steps + 1) slices earlier.length [code ')']
        ((spell current).reverse ++ earlier) (code ')' :: spell rest) = some result ↔
      ∃ arguments, Completes [] current (.plain (code ')') :: rest) arguments ∧
        slices.length + arguments.length = count ∧
        result = slices ++ placed earlier.length (arguments.map spell) := by
  rw [callArgumentsWithin_close (lexicalBody_eq_none divided.drop.outside) take_argument]
  have trailing : skipTrivia (spell rest) = some (spell rest).length ↔
      ∀ segment ∈ rest, Trivia segment :=
    @skipTrivia_eq_length_iff (spell rest) (code ')' :: ((spell current).reverse ++ earlier))
      rest [] (by rw [append_nil]; exact divided.drop.tail)
  simp only [completes_close]
  by_cases refused : (∀ segment ∈ current, Trivia segment) ∨ slices.length = count
  · rw [if_pos ((refusal_iff divided).mpr refused)]
    refine ⟨fun found => (nomatch found), ?_⟩
    rintro ⟨_, ⟨notBlank, -, rfl⟩, isCount, -⟩
    rcases refused with isBlank | isFull
    · exact absurd isBlank notBlank
    · rw [length_singleton] at isCount
      omega
  rw [if_neg ((refusal_iff divided).not.mpr refused)]
  by_cases ends : (∀ segment ∈ rest, Trivia segment) ∧ slices.length + 1 = count
  · rw [if_neg (by simp [trailing.mpr ends.1, ends.2])]
    constructor
    · rintro ⟨⟩
      exact ⟨[current], ⟨(not_or.mp refused).1, ends.1, rfl⟩, ends.2, rfl⟩
    · rintro ⟨_, ⟨-, -, rfl⟩, -, rfl⟩
      rfl
  rw [if_pos fun isTrivia isCount => ends ⟨trailing.mp isTrivia, isCount⟩]
  refine ⟨fun found => (nomatch found), ?_⟩
  rintro ⟨_, ⟨-, isTrivia, rfl⟩, isCount, -⟩
  exact absurd ⟨isTrivia, isCount⟩ ends

end Ends

theorem callArgumentsWithin_eq_some_iff {steps slices stack earlier text current rest}
    (divided : SqlSegments earlier text (current ++ rest)) (enough : (spell rest).length ≤ steps) :
    callArgumentsWithin count steps slices earlier.length (stack ++ [code ')'])
        ((spell current).reverse ++ earlier) (spell rest) = some result ↔
      ∃ arguments, Completes stack current rest arguments ∧
        slices.length + arguments.length = count ∧
        result = slices ++ placed earlier.length (arguments.map spell) := by
  induction rest generalizing steps slices stack earlier text current with
  | nil =>
    simp only [not_completes_nil, false_and, exists_false, iff_false]
    cases steps <;> simp [callArgumentsWithin]
  | cons segment rest ih =>
    have here := divided.drop
    have inArgument : SqlSegments earlier text ((current ++ [segment]) ++ rest) := by
      simpa using divided
    have shorter : (spell rest).length < (spell (segment :: rest)).length := by
      have nonempty := here.bytes_ne_nil
      simpa [spell, length_pos_iff] using nonempty
    obtain ⟨steps, rfl⟩ : ∃ fewer, steps = fewer + 1 := ⟨steps - 1, by omega⟩
    have onward {slices : List Slice} {stack : Bytes} :=
      @ih steps slices stack earlier text (current ++ [segment]) inArgument (by omega)
    have behind : (spell (current ++ [segment])).reverse ++ earlier =
        segment.bytes.reverse ++ ((spell current).reverse ++ earlier) := by
      simp [spell]
    rw [behind] at onward
    cases segment with
    | body bytes =>
      obtain ⟨ch, tail, same, lexical⟩ := lexicalBody_of_body here.isBody
      have passes : ∀ arguments, Completes stack current (.body bytes :: rest) arguments ↔
          Completes stack (current ++ [.body bytes]) rest arguments :=
        fun _ => completes_cons (by simp) fun _ => rfl
      simp only [passes]
      rcases lexical with closed | ⟨unclosed, isEnd⟩
      · rw [spell_body, callArgumentsWithin_body same closed]
        exact onward
      obtain rfl : rest = [] := by
        have empty := here.tail
        rw [isEnd] at empty
        exact empty.eq_nil
      simp only [not_completes_nil, false_and, exists_false, iff_false]
      rw [spell_body, callArgumentsWithin_unclosed same unclosed]
      simp
    | plain ch =>
      have isPlain := lexicalBody_eq_none here.outside
      rw [spell_plain]
      rcases bracket_cases (.plain ch) with free | ⟨opening, closing, pair, same | same⟩
      · by_cases isSeparator : ch = code ',' ∧ stack = []
        · obtain ⟨rfl, rfl⟩ := isSeparator
          have next := @ih steps (slices ++ [⟨earlier.length, spell current⟩]) []
            (code ',' :: ((spell current).reverse ++ earlier)) (spell rest) []
            here.tail (by omega)
          exact callArgumentsWithin_comma_iff divided next
        have passes : ∀ arguments, Completes stack current (.plain ch :: rest) arguments ↔
            Completes stack (current ++ [.plain ch]) rest arguments := by
          refine fun _ => completes_cons ?_ fun _ => closes_other free ?_
          · rintro rfl
            refine ⟨?_, by simpa using isSeparator⟩
            rintro ⟨⟩
            cases free
          · rw [← not_and_or]
            simpa using isSeparator
        simp only [passes]
        rw [callArgumentsWithin_other isPlain free]
        · exact onward
        · intro isComma
          simpa [isComma] using isSeparator
      · obtain rfl := SqlSegment.plain.inj same
        have passes : ∀ arguments, Completes stack current (.plain ch :: rest) arguments ↔
            Completes (closing :: stack) (current ++ [.plain ch]) rest arguments :=
          fun _ => completes_cons (by cases pair <;> simp [code]) fun _ => closes_opening pair
        simp only [passes]
        rw [callArgumentsWithin_opening pair isPlain]
        exact @onward slices (closing :: stack)
      · obtain rfl := SqlSegment.plain.inj same
        by_cases isClose : ch = code ')' ∧ stack = []
        · obtain ⟨rfl, rfl⟩ := isClose
          exact callArgumentsWithin_close_iff divided
        have inside : stack = [] → SqlSegment.plain ch ≠ .plain (code ')') ∧
            SqlSegment.plain ch ≠ .plain (code ',') := by
          rintro rfl
          refine ⟨by simpa using isClose, ?_⟩
          cases pair <;> simp [code]
        rw [callArgumentsWithin_closing pair isPlain (by
          intro isRound
          simpa [isRound] using isClose)]
        by_cases isTop : (stack ++ [code ')']).head? = some ch
        · obtain ⟨lower, rfl⟩ : ∃ lower, stack = ch :: lower := by
            cases stack with
            | nil => exact absurd ⟨by simpa using isTop.symm, rfl⟩ isClose
            | cons top lower => exact ⟨lower, by simpa using isTop⟩
          have passes : ∀ arguments,
              Completes (ch :: lower) current (.plain ch :: rest) arguments ↔
                Completes lower (current ++ [.plain ch]) rest arguments :=
            fun _ => completes_cons inside fun _ => closes_closing pair
          rw [if_pos isTop]
          simp only [passes]
          exact @onward slices lower
        · have fails : ∀ tail, closes stack (.plain ch :: tail) = false := by
            intro tail
            rw [Bool.eq_false_iff, Ne, closes_closing_iff pair]
            rintro ⟨lower, rfl, -⟩
            exact isTop rfl
          simp only [not_completes_cons inside fails, false_and, exists_false, iff_false]
          rw [if_neg isTop]
          simp

end Loop

variable {before text : Bytes} {lead more segments : List SqlSegment} {segment : SqlSegment}

theorem exists_lead (segments : List SqlSegment) :
    (∀ segment ∈ segments, Trivia segment) ∨ ∃ lead segment more,
      segments = lead ++ segment :: more ∧ (∀ segment ∈ lead, Trivia segment) ∧
        ¬Trivia segment := by
  induction segments with
  | nil => exact .inl (by simp)
  | cons segment segments ih =>
    by_cases isTrivia : Trivia segment
    · rcases ih with allTrivia | ⟨lead, other, more, rfl, leading, notTrivia⟩
      · exact .inl (forall_mem_cons.mpr ⟨isTrivia, allTrivia⟩)
      · exact .inr ⟨segment :: lead, other, more, rfl,
          forall_mem_cons.mpr ⟨isTrivia, leading⟩, notTrivia⟩
    · exact .inr ⟨[], segment, segments, rfl, by simp, isTrivia⟩

theorem lead_unique {other lead' more'}
    (leading : ∀ segment ∈ lead, Trivia segment) (leading' : ∀ segment ∈ lead', Trivia segment)
    (notTrivia : ¬Trivia segment) (notTrivia' : ¬Trivia other)
    (same : lead ++ segment :: more = lead' ++ other :: more') :
    lead = lead' ∧ segment = other ∧ more = more' := by
  induction lead generalizing lead' with
  | nil =>
    cases lead' with
    | nil => exact ⟨rfl, cons.inj same⟩
    | cons first lead' =>
      obtain ⟨rfl, -⟩ := cons.inj same
      exact absurd (leading' _ (by simp)) notTrivia
  | cons first lead ih =>
    obtain ⟨isFirst, leadingRest⟩ := forall_mem_cons.mp leading
    cases lead' with
    | nil =>
      obtain ⟨rfl, -⟩ := cons.inj same
      exact absurd isFirst notTrivia'
    | cons first' lead' =>
      obtain ⟨rfl, later⟩ := cons.inj same
      obtain ⟨rfl, rfl, rfl⟩ := ih leadingRest (forall_mem_cons.mp leading').2 later
      exact ⟨rfl, rfl, rfl⟩

theorem skipTrivia_lead {follows : Bytes} (divided : SqlSegments before text (lead ++ more))
    (leading : ∀ segment ∈ lead, Trivia segment) (within : follows <+: spell more) :
    skipTrivia (spell lead ++ follows) = (skipTrivia follows).map (· + (spell lead).length) := by
  induction lead generalizing before text with
  | nil => simp
  | cons segment lead ih =>
    obtain ⟨isTrivia, leadingRest⟩ := forall_mem_cons.mp leading
    have bytes : spell (segment :: lead) = segment.bytes ++ spell lead := rfl
    have longer : spell lead ++ follows <+: spell (lead ++ more) := by
      rw [spell_append]
      exact (prefix_append_right_inj _).mpr within
    rw [bytes, append_assoc, skipTrivia_trivia divided isTrivia longer,
      ih divided.tail leadingRest, Option.map_map]
    congr 1
    funext size
    simp
    omega

theorem not_trivia_opening : ¬Trivia (.plain (code '(')) := by
  rintro ⟨isBlank⟩
  cases isBlank

/-- No body begins with a parenthesis. -/
theorem opening_of_spell {rest : Bytes} (divided : SqlSegments before text (segment :: more))
    (isText : spell (segment :: more) = code '(' :: rest) :
    segment = .plain (code '(') ∧ spell more = rest := by
  cases segment with
  | plain byte =>
    obtain ⟨rfl, rfl⟩ := List.cons.inj isText
    exact ⟨rfl, rfl⟩
  | body bytes =>
    obtain ⟨ch, tail, same, lexical⟩ := lexicalBody_of_body divided.isBody
    obtain ⟨rfl, rfl⟩ := List.cons.inj (same.symm.trans isText)
    have isNone : lexicalBody before (code '(') tail = none := by
      have notComment : opensComment (code '(' :: tail) = false := by
        rw [Bool.eq_false_iff, Ne, opensComment_iff]
        simp [code]
      simp only [lexicalBody, notComment]
      rfl
    rw [isNone] at lexical
    simp at lexical

/-- What is left of a call at its opening parenthesis. -/
theorem completes_nil_iff {rest arguments} :
    Completes [] [] rest arguments ↔ ∃ trail,
      rest = argumentList arguments ++ .plain (code ')') :: trail ∧ arguments ≠ [] ∧
      (∀ argument ∈ arguments, Argument argument) ∧
      (∀ argument ∈ arguments, ¬∀ segment ∈ argument, Trivia segment) ∧
      ∀ segment ∈ trail, Trivia segment := by
  constructor
  · rintro ⟨first, others, trail, isRest, rfl, closed, areArguments, notBlank, trailing⟩
    exact ⟨trail, isRest, by simp,
      forall_mem_cons.mpr ⟨closes_nil_iff.mp closed, areArguments⟩, notBlank, trailing⟩
  rintro ⟨trail, isRest, nonempty, areArguments, notBlank, trailing⟩
  obtain ⟨first, others, rfl⟩ := exists_cons_of_ne_nil nonempty
  obtain ⟨isFirst, areOthers⟩ := forall_mem_cons.mp areArguments
  exact ⟨first, others, trail, isRest, rfl, closes_nil_iff.mpr isFirst, areOthers, notBlank,
    trailing⟩

theorem callArguments_opening {count nameEnd function slices}
    (divided : SqlSegments (function.take nameEnd).reverse (function.drop nameEnd)
      (lead ++ .plain (code '(') :: more)) (leading : ∀ segment ∈ lead, Trivia segment) :
    callArguments count function nameEnd = some slices ↔
      ∃ arguments, Completes [] [] more arguments ∧ arguments.length = count ∧
        slices = placed (nameEnd + (spell lead).length + 1) (arguments.map spell) := by
  have isText := divided.text_eq
  rw [spell_append, spell_plain] at isText
  have skips : skipTrivia (function.drop nameEnd) = some (spell lead).length := by
    have stops : skipTrivia (code '(' :: spell more) = some 0 := by
      refine skipTrivia_other (by decide) ?_
      rw [Bool.eq_false_iff, Ne, opensComment_iff]
      simp [code]
    rw [isText, ← spell_plain, skipTrivia_lead divided leading (prefix_refl _), spell_plain,
      stops]
    simp
  have within : nameEnd ≤ function.length := by
    by_contra beyond
    rw [drop_eq_nil_of_le (by omega)] at isText
    simp at isText
  have dropped : function.drop (nameEnd + (spell lead).length) = code '(' :: spell more := by
    rw [← drop_drop, isText, drop_left]
  have taken : (function.take (nameEnd + (spell lead).length + 1)).reverse =
      code '(' :: ((spell lead).reverse ++ (function.take nameEnd).reverse) := by
    rw [Nat.add_assoc, take_add, isText, take_length_add_append]
    simp
  have place : nameEnd + (spell lead).length + 1 =
      (code '(' :: ((spell lead).reverse ++ (function.take nameEnd).reverse)).length := by
    simp [Nat.min_eq_left within]
    omega
  have inside : SqlSegments (code '(' :: ((spell lead).reverse ++ (function.take nameEnd).reverse))
      (spell more) ([] ++ more) :=
    divided.drop.tail
  have loop := @callArgumentsWithin_eq_some_iff count slices (spell more).length [] [] _ _ [] more
    inside le_rfl
  have unfolded : callArguments count function nameEnd =
      callArgumentsWithin count (spell more).length [] (nameEnd + (spell lead).length + 1)
        [code ')'] (code '(' :: ((spell lead).reverse ++ (function.take nameEnd).reverse))
        (spell more) := by
    rw [callArguments, skips, Option.bind_some, dropped, ← taken]
    rfl
  rw [unfolded, place]
  simpa using loop

/-- `call_arguments` finds arguments exactly when the text from the name on is a call with that
many of them, and they are its arguments, each in its place. -/
theorem callArguments_eq_some_iff (count : Nat) (function : Bytes) (nameEnd : Nat)
    (slices : List Slice) : callArguments count function nameEnd = some slices ↔
      ∃ lead arguments trail,
        Call (function.take nameEnd).reverse (function.drop nameEnd) lead arguments trail ∧
        arguments.length = count ∧
        slices = placed (nameEnd + (spell lead).length + 1) (arguments.map spell) := by
  obtain ⟨segments, divided, -⟩ :=
    exists_segments (function.take nameEnd).reverse (function.drop nameEnd) 0
  have isText := divided.text_eq
  have absent (notOpening : ∀ lead more, (∀ segment ∈ lead, Trivia segment) →
        segments ≠ lead ++ .plain (code '(') :: more)
      (fails : callArguments count function nameEnd = none) :
      callArguments count function nameEnd = some slices ↔ ∃ lead arguments trail,
        Call (function.take nameEnd).reverse (function.drop nameEnd) lead arguments trail ∧
        arguments.length = count ∧
        slices = placed (nameEnd + (spell lead).length + 1) (arguments.map spell) := by
    rw [fails]
    refine ⟨fun found => (nomatch found), ?_⟩
    rintro ⟨lead, arguments, trail, call, -⟩
    exact absurd (divided.unique call.divided) (notOpening _ _ call.leading)
  rcases exists_lead segments with allTrivia | ⟨lead, segment, more, rfl, leading, notTrivia⟩
  · refine absent ?_ ?_
    · rintro lead more - rfl
      exact not_trivia_opening (allTrivia _ (by simp))
    have skips := (@skipTrivia_eq_length_iff _ _ segments []
      (by rw [append_nil]; exact divided)).mpr allTrivia
    rw [← isText] at skips
    have nothing : function.drop (nameEnd + (function.drop nameEnd).length) = [] :=
      drop_eq_nil_of_le (by rw [length_drop]; omega)
    rw [callArguments, skips, Option.bind_some, nothing]
  by_cases isOpening : segment = .plain (code '(')
  · subst isOpening
    rw [callArguments_opening divided leading]
    constructor
    · rintro ⟨arguments, completes, isCount, isPlaced⟩
      obtain ⟨trail, rfl, nonempty, areArguments, notBlank, trailing⟩ :=
        completes_nil_iff.mp completes
      exact ⟨lead, arguments, trail,
        ⟨divided, leading, nonempty, areArguments, notBlank, trailing⟩, isCount, isPlaced⟩
    rintro ⟨lead', arguments, trail, call, isCount, isPlaced⟩
    obtain ⟨rfl, -, rfl⟩ := lead_unique leading call.leading not_trivia_opening
      not_trivia_opening (divided.unique call.divided)
    exact ⟨arguments, completes_nil_iff.mpr ⟨trail, rfl, call.nonempty, call.areArguments,
      call.notBlank, call.trailing⟩, isCount, isPlaced⟩
  · refine absent ?_ ?_
    · intro lead' more' leading' same
      exact isOpening (lead_unique leading leading' notTrivia not_trivia_opening same).2.1
    have skips := skipTrivia_lead divided leading (prefix_refl _)
    rw [← spell_append, ← isText] at skips
    have here := divided.drop
    rcases @skipTrivia_stops _ _ (spell more) _ _ here notTrivia (prefix_refl _) with
      stops | ⟨fails, -⟩
    · have bytes : spell (segment :: more) = segment.bytes ++ spell more := rfl
      rw [bytes, stops] at skips
      have dropped : function.drop (nameEnd + (spell lead).length) = spell (segment :: more) := by
        rw [← drop_drop, isText, spell_append, drop_left]
      rw [callArguments, skips]
      simp only [Option.map_some, Option.bind_some, Nat.zero_add, dropped]
      cases isBytes : spell (segment :: more) with
      | nil => rfl
      | cons ch rest =>
        refine if_pos ?_
        rintro rfl
        exact isOpening (opening_of_spell here isBytes).1
    · have bytes : spell (segment :: more) = segment.bytes ++ spell more := rfl
      rw [bytes, fails] at skips
      rw [callArguments, skips]
      rfl

theorem spell_argumentList (arguments : List (List SqlSegment)) :
    spell (argumentList arguments) = List.intercalate [code ','] (arguments.map spell) := by
  induction arguments with
  | nil => rfl
  | cons first others ih =>
    cases others with
    | nil => simp [argumentList]
    | cons second more => simpa [argumentList] using ih

/-- `call_arguments` returns slices exactly when the text from the name on is a call with that many
arguments, none blank, each with balanced brackets and with commas only inside of them; the slices
are the arguments in their places, and with the commas and parentheses they spell the text. -/
theorem callArguments_splits (count : Nat) (function : Bytes) (nameEnd : Nat) :
    (∀ slices, callArguments count function nameEnd = some slices ↔
      ∃ lead arguments trail,
        Call (function.take nameEnd).reverse (function.drop nameEnd) lead arguments trail ∧
        arguments.length = count ∧
        slices = placed (nameEnd + (spell lead).length + 1) (arguments.map spell)) ∧
    (∀ lead arguments trail,
      Call (function.take nameEnd).reverse (function.drop nameEnd) lead arguments trail →
      function.drop nameEnd = spell lead ++ code '(' ::
        (List.intercalate [code ','] (arguments.map spell) ++ code ')' :: spell trail)) ∧
    (callArguments count function nameEnd = none ↔ ∀ lead arguments trail,
      Call (function.take nameEnd).reverse (function.drop nameEnd) lead arguments trail →
      arguments.length ≠ count) := by
  refine ⟨callArguments_eq_some_iff count function nameEnd, ?_, ?_⟩
  · intro lead arguments trail call
    rw [call.divided.text_eq]
    simp [spell_argumentList]
  rw [Option.eq_none_iff_forall_ne_some]
  simp only [ne_eq, callArguments_eq_some_iff]
  constructor
  · intro fails lead arguments trail call isCount
    exact fails _ ⟨lead, arguments, trail, call, isCount, rfl⟩
  · rintro refuses slices ⟨lead, arguments, trail, call, isCount, -⟩
    exact refuses lead arguments trail call isCount

end Odbcpp.Postgres
