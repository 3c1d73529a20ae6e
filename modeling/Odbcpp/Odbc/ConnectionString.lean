import Mathlib.Data.List.DropRight
import Odbcpp.Foundation.Splitting
import Odbcpp.Util.Text
import Odbcpp.Database.BackendResult

/-!
# Connection strings

`ConnectionString::parse` of `odbc/connection_string.cpp`. A connection string is a sequence of
segments separated by semicolons; a segment with an equals sign is a keyword and its value, which
may be braced. The unread suffix stands for the position of the source, and the loops recurse on a
bound for the number of segments.
-/

namespace Odbcpp.Odbc

open Foundation Database Util List

/-- The characters that `trim` removes. -/
def isBlank (letter : UInt8) : Bool := letter = 32 || letter = 9 || letter = 13 || letter = 10

variable (text : Bytes)

/-- `ConnectionString::trim`. -/
def trim : Bytes := (text.dropWhile isBlank).rdropWhile isBlank

/-- `ConnectionString::to_upper`. -/
def upper : Bytes := text.map toUpper

/-- The keyword of a segment and what follows its equals sign, if the equals sign comes
before any semicolon. -/
def splitKey (input : Bytes) : Option (Bytes × Bytes) :=
  match input.idxOf? (code '='), input.idxOf? (code ';') with
  | none, _ => none
  | some equals, none => some (input.take equals, input.drop (equals + 1))
  | some equals, some separator =>
    if separator < equals then none else some (input.take equals, input.drop (equals + 1))

/-- What follows the next semicolon. -/
def nextSegment (input : Bytes) : Option Bytes :=
  (input.idxOf? (code ';')).map fun separator => input.drop (separator + 1)

/-- The value of an opened brace and what follows the closing one. -/
def readBraced : Bytes → Option (Bytes × Bytes)
  | [] => none
  | current :: rest =>
    if current ≠ code '\x7d' then
      (readBraced rest).map fun (value, unread) => (current :: value, unread)
    else
      match rest with
      | [] => some ([], [])
      | next :: later =>
        if next = code '\x7d' then
          (readBraced later).map fun (value, unread) => (code '\x7d' :: value, unread)
        else some ([], rest)

/-- The value after an equals sign, and the unread text from its semicolon on. -/
def readValue (input : Bytes) : Except Thrown (Bytes × Bytes) :=
  let value := input.dropWhile isSpace
  match value with
  | 123 :: braced =>
    match readBraced braced with
    | none => .error (.invalidArgument "Unterminated braced connection string value")
    | some (content, unread) =>
      let unread := unread.dropWhile isSpace
      if unread = [] ∨ unread.head? = some (code ';') then .ok (content, unread)
      else .error (.invalidArgument "Unexpected text after braced connection string value")
  | _ => .ok (trim (value.takeWhile (· ≠ code ';')), value.dropWhile (· ≠ code ';'))

/-- The parameters in the order of their first occurrence. -/
abbrev Parameters := List (Bytes × Bytes)

/-- `std::map::try_emplace`: the first value of a keyword is kept. A segment without a
keyword is dropped. -/
def Parameters.enter (parameters : Parameters) (key value : Bytes) : Parameters :=
  if key = [] ∨ upper key ∈ parameters.map Prod.fst then parameters
  else parameters ++ [(upper key, value)]

def parseWithin : Nat → Parameters → Bytes → Except Thrown Parameters
  | _, parameters, [] => .ok parameters
  | 0, parameters, _ :: _ => .ok parameters
  | segments + 1, parameters, input =>
    match splitKey input with
    | none =>
      match nextSegment input with
      | none => .ok parameters
      | some rest => parseWithin segments parameters rest
    | some (key, rest) => do
      let (value, unread) ← readValue rest
      parseWithin segments (parameters.enter (trim key) value) (unread.drop 1)

/-- `ConnectionString::parse`. Every segment takes a byte, so the length bounds their
number. -/
def parse : Except Thrown Parameters :=
  if 0 ∈ text then .error (.invalidArgument "Connection string contains an embedded NUL byte")
  else parseWithin text.length [] text

example : parse (ascii "Server=h;;pwd=\x7ba;\x7d\x7db\x7d ;x") =
    .ok [(ascii "SERVER", ascii "h"), (ascii "PWD", ascii "a;\x7db")] := by
  decide +kernel

/-! ## Segments -/

variable {input key rest value unread tail : Bytes}

def Plain : Prop := code '=' ∉ text ∧ code ';' ∉ text

theorem splitKey_of_plain (plain : Plain key) :
    splitKey (key ++ code '=' :: rest) = some (key, rest) := by
  unfold splitKey
  rw [idxOf?_append_cons plain.1]
  split
  · contradiction
  · rename_i equals isEquals _
    cases isEquals
    simp
  rename_i equals separator isEquals isSeparator
  cases isEquals
  have later := lt_idxOf?_of_append plain.2 (by decide) isSeparator
  rw [if_neg (by omega)]
  simp

theorem plain_of_splitKey (split : splitKey input = some (key, rest)) :
    input = key ++ code '=' :: rest ∧ Plain key := by
  unfold splitKey at split
  split at split
  · cases split
  · rename_i equals isEquals noSeparator
    obtain ⟨parts, free⟩ := eq_append_of_idxOf? isEquals
    cases split
    exact ⟨parts, free, fun member => List.idxOf?_eq_none_iff.mp noSeparator
      (mem_of_mem_take member)⟩
  rename_i equals separator isEquals isSeparator
  split at split
  · cases split
  rename_i notBefore
  obtain ⟨parts, free⟩ := eq_append_of_idxOf? isEquals
  obtain ⟨_, _, earlier⟩ := List.idxOf?_eq_some_iff.mp isSeparator
  cases split
  refine ⟨parts, free, fun member => ?_⟩
  obtain ⟨index, bound, isIt⟩ := mem_iff_getElem.mp member
  rw [length_take] at bound
  exact earlier index (by omega) (by rw [← isIt, getElem_take])

theorem splitKey_bare (plain : Plain key) : splitKey (key ++ code ';' :: rest) = none := by
  unfold splitKey
  rw [idxOf?_append_cons plain.2]
  split
  · rfl
  · contradiction
  rename_i equals separator isEquals isSeparator
  cases isSeparator
  have later := lt_idxOf?_of_append plain.1 (by decide) isEquals
  rw [if_pos later]

theorem nextSegment_bare (plain : Plain key) : nextSegment (key ++ code ';' :: rest) = some rest := by
  unfold nextSegment
  rw [idxOf?_append_cons plain.2]
  simp

theorem bare_of_splitKey (split : splitKey input = none) :
    (nextSegment input = none ∧ Plain input) ∨
      ∃ bare rest, input = bare ++ code ';' :: rest ∧ Plain bare ∧ nextSegment input = some rest := by
  cases found : input.idxOf? (code ';') with
  | none =>
    left
    have noSeparator := List.idxOf?_eq_none_iff.mp found
    refine ⟨by simp [nextSegment, found], fun equals => ?_, noSeparator⟩
    unfold splitKey at split
    rw [found] at split
    split at split
    · rename_i noEquals
      exact List.idxOf?_eq_none_iff.mp noEquals equals
    · cases split
    · contradiction
  | some separator =>
    right
    obtain ⟨parts, free⟩ := eq_append_of_idxOf? found
    refine ⟨_, _, parts, ⟨fun equals => ?_, free⟩, by simp [nextSegment, found]⟩
    unfold splitKey at split
    rw [found] at split
    split at split
    · rename_i noEquals
      exact List.idxOf?_eq_none_iff.mp noEquals (mem_of_mem_take equals)
    · contradiction
    rename_i place separator' isEquals isSeparator
    cases isSeparator
    split at split
    · rename_i before
      obtain ⟨_, _, earlier⟩ := List.idxOf?_eq_some_iff.mp isEquals
      obtain ⟨index, bound, isIt⟩ := mem_iff_getElem.mp equals
      rw [length_take] at bound
      exact earlier index (by omega) (by rw [← isIt, getElem_take])
    · cases split

/-! ## Values -/

/-- Where a value ends: at the end of the text or at a semicolon. -/
def Ends (tail : Bytes) : Prop := tail = [] ∨ ∃ rest, tail = code ';' :: rest

def ReadsAs (raw value : Bytes) : Prop :=
  ∀ tail, Ends tail → readValue (raw ++ tail) = .ok (value, tail)

theorem ends_dropWhile : Ends (text.dropWhile (· ≠ code ';')) := by
  induction text with
  | nil => exact .inl rfl
  | cons first rest ih =>
    by_cases separator : first = code ';'
    · exact .inr ⟨rest, by simp [separator]⟩
    · rw [dropWhile_cons_of_pos (by simpa using separator)]
      exact ih

theorem Ends.dropWhile_space (ends : Ends tail) : tail.dropWhile isSpace = tail := by
  rcases ends with rfl | ⟨rest, rfl⟩
  · rfl
  · exact dropWhile_cons_of_neg (by decide)

theorem Ends.dropWhile (ends : Ends tail) :
    tail.dropWhile (· ≠ code ';') = tail := by
  rcases ends with rfl | ⟨rest, rfl⟩
  · rfl
  · exact dropWhile_cons_of_neg (by simp)

theorem Ends.takeWhile (ends : Ends tail) : tail.takeWhile (· ≠ code ';') = [] := by
  rcases ends with rfl | ⟨rest, rfl⟩
  · rfl
  · exact takeWhile_cons_of_neg (by simp)

theorem readBraced_other {current : UInt8} (notBrace : current ≠ code '\x7d') :
    readBraced (current :: rest) =
      (readBraced rest).map fun (value, unread) => (current :: value, unread) := by
  cases rest <;> simp [readBraced, notBrace]

theorem readBraced_doubled : readBraced (code '\x7d' :: code '\x7d' :: rest) =
      (readBraced rest).map fun (value, unread) => (code '\x7d' :: value, unread) := by
  simp [readBraced]

theorem readBraced_closed (stops : tail.head? ≠ some (code '\x7d')) :
    readBraced (code '\x7d' :: tail) = some ([], tail) := by
  cases tail with
  | nil => simp [readBraced]
  | cons next later =>
    have notBrace : next ≠ code '\x7d' := by simpa using stops
    simp [readBraced, notBrace]

theorem readBraced_parts (read : readBraced input = some (value, unread)) :
    ∃ text, input = text ++ unread ∧ ∀ tail : Bytes, tail.head? ≠ some (code '\x7d') →
      readBraced (text ++ tail) = some (value, tail) := by
  induction input using readBraced.induct generalizing value with
  | case1 => cases read
  | case2 current rest notBrace ih =>
    rw [readBraced_other notBrace, Option.map_eq_some_iff] at read
    obtain ⟨⟨inner, left⟩, isInner, same⟩ := read
    cases same
    obtain ⟨text, parts, whole⟩ := ih isInner
    refine ⟨current :: text, by rw [parts]; rfl, fun tail stops => ?_⟩
    rw [cons_append, readBraced_other notBrace, whole tail stops]
    rfl
  | case3 current isBrace =>
    obtain rfl := not_not.mp isBrace
    rw [readBraced_closed (by simp)] at read
    cases read
    exact ⟨[code '\x7d'], rfl, fun tail stops => readBraced_closed stops⟩
  | case4 current isBrace later ih =>
    obtain rfl := not_not.mp isBrace
    rw [readBraced_doubled, Option.map_eq_some_iff] at read
    obtain ⟨⟨inner, left⟩, isInner, same⟩ := read
    cases same
    obtain ⟨text, parts, whole⟩ := ih isInner
    refine ⟨code '\x7d' :: code '\x7d' :: text, by rw [parts]; rfl, fun tail stops => ?_⟩
    rw [cons_append, cons_append, readBraced_doubled, whole tail stops]
    rfl
  | case5 current isBrace next later notBrace =>
    obtain rfl := not_not.mp isBrace
    rw [readBraced_closed (by simpa using notBrace)] at read
    cases read
    exact ⟨[code '\x7d'], rfl, fun tail stops => readBraced_closed stops⟩

theorem readValue_braced {blanks braced : Bytes} (spaces : ∀ letter ∈ blanks, isSpace letter) :
    readValue (blanks ++ code '\x7b' :: braced) =
      match readBraced braced with
      | none => .error (.invalidArgument "Unterminated braced connection string value")
      | some (content, unread) =>
        let unread := unread.dropWhile isSpace
        if unread = [] ∨ unread.head? = some (code ';') then .ok (content, unread)
        else .error (.invalidArgument "Unexpected text after braced connection string value") := by
  unfold readValue
  rw [dropWhile_append_of_pos spaces, dropWhile_cons_of_neg (by decide)]
  rfl

theorem readValue_unbraced {blanks text : Bytes} (spaces : ∀ letter ∈ blanks, isSpace letter)
    (starts : ∀ first, text.head? = some first → isSpace first = false ∧ first ≠ code '\x7b') :
    readValue (blanks ++ text) =
      .ok (trim (text.takeWhile (· ≠ code ';')), text.dropWhile (· ≠ code ';')) := by
  unfold readValue
  rw [dropWhile_append_of_pos spaces]
  rcases text with _ | ⟨first, rest⟩
  · rfl
  obtain ⟨notSpace, notBrace⟩ := starts first rfl
  rw [dropWhile_cons_of_neg (by simp [notSpace])]
  dsimp only
  split
  · rename_i isBraced
    cases isBraced
    exact absurd rfl notBrace
  · rfl

theorem exists_blanks (input : Bytes) : ∃ blanks text, input = blanks ++ text ∧
    (∀ letter ∈ blanks, isSpace letter) ∧ ∀ first, text.head? = some first → isSpace first = false := by
  refine ⟨input.takeWhile isSpace, input.dropWhile isSpace, takeWhile_append_dropWhile.symm,
    fun letter member => mem_takeWhile_imp member, fun first isFirst => ?_⟩
  have notSpace := List.head?_dropWhile_not isSpace input
  rw [isFirst] at notSpace
  exact notSpace

theorem Ends.head_ne (ends : Ends tail) {blanks : Bytes} {letter : UInt8}
    (spaces : ∀ letter ∈ blanks, isSpace letter) (notSpace : isSpace letter = false)
    (notSeparator : letter ≠ code ';') : (blanks ++ tail).head? ≠ some letter := by
  cases blanks with
  | nil =>
    rcases ends with rfl | ⟨rest, rfl⟩
    · simp
    · simpa using notSeparator.symm
  | cons first rest =>
    intro same
    cases same
    rw [spaces letter (by simp)] at notSpace
    cases notSpace

theorem readsAs_braced {blanks text pad : Bytes} (spaces : ∀ letter ∈ blanks, isSpace letter)
    (padding : ∀ letter ∈ pad, isSpace letter)
    (whole : ∀ tail : Bytes, tail.head? ≠ some (code '\x7d') →
      readBraced (text ++ tail) = some (value, tail)) :
    ReadsAs (blanks ++ code '\x7b' :: (text ++ pad)) value := by
  intro tail ends
  rw [append_assoc, cons_append, append_assoc, readValue_braced spaces,
    whole _ (ends.head_ne padding (by decide) (by decide))]
  dsimp only
  rw [dropWhile_append_of_pos padding, ends.dropWhile_space, if_pos]
  rcases ends with rfl | ⟨rest, rfl⟩
  · exact .inl rfl
  · exact .inr rfl

/-- The text of any other value. -/
theorem readsAs_unbraced {blanks body : Bytes} (spaces : ∀ letter ∈ blanks, isSpace letter)
    (starts : ∀ first, body.head? = some first → isSpace first = false ∧ first ≠ code '\x7b')
    (whole : code ';' ∉ body) : ReadsAs (blanks ++ body) (trim body) := by
  intro tail ends
  have inside : ∀ letter ∈ body, decide (letter ≠ code ';') = true := fun letter member => by
    simpa using fun same : letter = code ';' => whole (same ▸ member)
  rw [append_assoc, readValue_unbraced spaces, takeWhile_append_of_pos inside,
    dropWhile_append_of_pos inside, ends.takeWhile, ends.dropWhile, append_nil]
  intro first isFirst
  cases body with
  | nil =>
    rcases ends with rfl | ⟨rest, rfl⟩
    · cases isFirst
    · cases isFirst
      decide
  | cons letter rest => exact starts first isFirst

/-- An accepted value is cut off its text, and its text is read alike before any end. -/
theorem readValue_parts (read : readValue input = .ok (value, unread)) :
    Ends unread ∧ ∃ raw, input = raw ++ unread ∧ ReadsAs raw value := by
  obtain ⟨blanks, text, rfl, spaces, notSpace⟩ := exists_blanks input
  by_cases braced : text.head? = some (code '\x7b')
  · obtain ⟨inner, rfl⟩ := List.head?_eq_some_iff.mp braced
    rw [readValue_braced spaces] at read
    split at read
    · cases read
    rename_i content left isBraced
    obtain ⟨body, rfl, whole⟩ := readBraced_parts isBraced
    dsimp only at read
    split at read
    · rename_i ends
      cases read
      have padding : ∀ letter ∈ left.takeWhile isSpace, isSpace letter := fun letter member =>
        mem_takeWhile_imp member
      refine ⟨?_, blanks ++ code '\x7b' :: (body ++ left.takeWhile isSpace), ?_,
        readsAs_braced spaces padding whole⟩
      · rcases ends with none | separator
        · exact .inl none
        · obtain ⟨rest, isRest⟩ := List.head?_eq_some_iff.mp separator
          exact .inr ⟨rest, isRest⟩
      · simp
    · cases read
  · rw [readValue_unbraced spaces fun first isFirst =>
      ⟨notSpace first isFirst, fun same => braced (same ▸ isFirst)⟩] at read
    cases read
    refine ⟨ends_dropWhile text, blanks ++ text.takeWhile (· ≠ code ';'), ?_,
      readsAs_unbraced spaces ?_ ?_⟩
    · rw [append_assoc, takeWhile_append_dropWhile]
    · intro first isFirst
      have starts : text.head? = some first := by
        cases text with
        | nil => cases isFirst
        | cons letter rest =>
          by_cases separator : letter = code ';'
          · simp [separator] at isFirst
          · simpa [separator] using isFirst
      exact ⟨notSpace first starts, fun same => braced (same ▸ starts)⟩
    · intro member
      simpa using mem_takeWhile_imp member

end Odbcpp.Odbc
