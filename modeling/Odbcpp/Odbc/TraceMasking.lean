import Odbcpp.Foundation.Except
import Odbcpp.Odbc.ConnectionString

/-!
# Masking of connection strings

`mask_connection_string` and `password_key` of `odbc/odbc_trace.cpp`. The masker finds the
ends of values on its own. On every text the parser accepts it finds the parser's ends, so
that a masked text parses to the same parameters with the secrets replaced, and secrets do
not show in it.
-/

namespace Odbcpp.Odbc

open Foundation Database Util List

/-- Whether an upper-case keyword names a secret. -/
def isSecret (normalized : Bytes) : Bool :=
  normalized = ascii "PWD" || ascii "PASSWORD" <:+: normalized || ascii "SECRET" <:+: normalized ||
    ascii "TOKEN" <:+: normalized

def passwordKey (key : Bytes) : Bool := isSecret (upper (trim key))

def stars : Bytes := ascii "***"

/-- What follows the brace that closes an opened one. -/
def bracedEnd : Bytes → Option Bytes
  | [] => none
  | current :: rest =>
    if current = code '\x7d' then
      match rest with
      | [] => some []
      | next :: later => if next = code '\x7d' then bracedEnd later else some rest
    else bracedEnd rest

/-- The text from the end of a value on, unless a brace stays open. -/
def valueEnd (input : Bytes) : Option Bytes :=
  let value := input.dropWhile isSpace
  let unread := match value with
    | 123 :: braced => bracedEnd braced
    | _ => some value
  unread.map (·.dropWhile (· ≠ code ';'))

def maskWithin : Nat → Bytes → Bytes
  | _, [] => []
  | 0, _ :: _ => []
  | segments + 1, input =>
    match splitKey input with
    | none =>
      match input.idxOf? (code ';') with
      | none => input
      | some separator =>
        input.take (separator + 1) ++ maskWithin segments (input.drop (separator + 1))
    | some (key, rest) =>
      match valueEnd rest with
      | none => key ++ code '=' :: stars
      | some unread =>
        key ++ code '=' ::
          ((if passwordKey key then stars else rest.take (rest.length - unread.length)) ++
            (unread.take 1 ++ maskWithin segments (unread.drop 1)))

def maskConnectionString (text : Bytes) : Bytes := maskWithin text.length text

example : maskConnectionString (ascii "Server=h; my Password = \x7ba;\x7d\x7db\x7d ;x") =
    ascii "Server=h; my Password =***;x" := by
  decide +kernel

/-! ## Ends of values -/

section

variable {input rest unread value : Bytes}

theorem bracedEnd_of_readBraced (read : readBraced input = some (value, unread)) :
    bracedEnd input = some unread := by
  induction input using readBraced.induct generalizing value with
  | case1 => cases read
  | case2 current rest notBrace ih =>
    rw [readBraced_other notBrace, Option.map_eq_some_iff] at read
    obtain ⟨⟨inner, left⟩, isInner, same⟩ := read
    cases same
    cases rest <;> simpa [bracedEnd, notBrace] using ih isInner
  | case3 current isBrace =>
    obtain rfl := not_not.mp isBrace
    rw [readBraced_closed (by simp)] at read
    cases read
    simp [bracedEnd]
  | case4 current isBrace later ih =>
    obtain rfl := not_not.mp isBrace
    rw [readBraced_doubled, Option.map_eq_some_iff] at read
    obtain ⟨⟨inner, left⟩, isInner, same⟩ := read
    cases same
    simpa [bracedEnd] using ih isInner
  | case5 current isBrace next later notBrace =>
    obtain rfl := not_not.mp isBrace
    rw [readBraced_closed (by simpa using notBrace)] at read
    cases read
    simp [bracedEnd, notBrace]

/-- After a closed brace only white space comes before the end. -/
theorem dropWhile_eq_of_ends (ends : Ends (input.dropWhile isSpace)) :
    input.dropWhile (· ≠ code ';') = input.dropWhile isSpace := by
  have spaces : ∀ letter ∈ input.takeWhile isSpace, decide (letter ≠ code ';') = true := by
    intro letter member
    have isSpace := mem_takeWhile_imp member
    simp only [ne_eq, decide_not, Bool.not_eq_eq_eq_not, Bool.not_true, decide_eq_false_iff_not]
    rintro rfl
    exact absurd isSpace (by decide)
  conv_lhs => rw [← takeWhile_append_dropWhile (p := isSpace) (l := input)]
  rw [dropWhile_append_of_pos spaces, ends.dropWhile]

theorem valueEnd_braced {blanks braced : Bytes} (spaces : ∀ letter ∈ blanks, isSpace letter) :
    valueEnd (blanks ++ code '\x7b' :: braced) =
      (bracedEnd braced).map (·.dropWhile (· ≠ code ';')) := by
  unfold valueEnd
  rw [dropWhile_append_of_pos spaces, dropWhile_cons_of_neg (by decide)]
  rfl

theorem valueEnd_unbraced {blanks text : Bytes} (spaces : ∀ letter ∈ blanks, isSpace letter)
    (starts : ∀ first, text.head? = some first → isSpace first = false ∧ first ≠ code '\x7b') :
    valueEnd (blanks ++ text) = some (text.dropWhile (· ≠ code ';')) := by
  unfold valueEnd
  rw [dropWhile_append_of_pos spaces]
  rcases text with _ | ⟨first, rest⟩
  · rfl
  obtain ⟨notSpace, notBrace⟩ := starts first rfl
  rw [dropWhile_cons_of_neg (by simp [notSpace])]
  dsimp only
  split
  · rename_i isBraced
    cases isBraced
    exact absurd rfl notBrace
  · rfl

theorem valueEnd_of_readValue (read : readValue input = .ok (value, unread)) :
    valueEnd input = some unread := by
  have ends := (readValue_parts read).1
  obtain ⟨blanks, text, rfl, spaces, notSpace⟩ := exists_blanks input
  by_cases braced : text.head? = some (code '\x7b')
  · obtain ⟨inner, rfl⟩ := List.head?_eq_some_iff.mp braced
    rw [readValue_braced spaces] at read
    rw [valueEnd_braced spaces]
    split at read
    · cases read
    rename_i content left isRead
    dsimp only at read
    split at read
    · cases read
      rw [bracedEnd_of_readBraced isRead, Option.map_some, dropWhile_eq_of_ends ends]
    · cases read
  · have starts : ∀ first, text.head? = some first → isSpace first = false ∧ first ≠ code '\x7b' :=
      fun first isFirst => ⟨notSpace first isFirst, fun same => braced (same ▸ isFirst)⟩
    rw [readValue_unbraced spaces starts] at read
    cases read
    exact valueEnd_unbraced spaces starts

end

/-! ## Masked texts -/

/-- A parameter as it parses from a masked text. -/
def hide (parameter : Bytes × Bytes) : Bytes × Bytes :=
  (parameter.1, if isSecret parameter.1 then stars else parameter.2)

theorem map_hide_enter (parameters : Parameters) (key value : Bytes) :
    (parameters.enter (trim key) value).map hide =
      Parameters.enter (parameters.map hide) (trim key) (if passwordKey key then stars else value) := by
  have keys : (parameters.map hide).map Prod.fst = parameters.map Prod.fst := by
    simp [hide, Function.comp_def]
  unfold Parameters.enter
  rw [keys]
  split
  · rfl
  · rw [map_append]
    rfl

theorem readsAs_stars : ReadsAs stars stars := by
  have read := @readsAs_unbraced [] stars (by simp) (by
    intro first isFirst
    cases isFirst
    decide) (by decide)
  exact read

variable {steps : Nat} {parameters result : Parameters}
  {input text key raw value tail unread bare rest : Bytes}

theorem parseWithin_keyed (plain : Plain key) (reads : ReadsAs raw value) (ends : Ends tail) :
    parseWithin (steps + 1) parameters (key ++ code '=' :: (raw ++ tail)) =
      parseWithin steps (parameters.enter (trim key) value) (tail.drop 1) := by
  rw [parseWithin, splitKey_of_plain plain]
  dsimp only
  · rw [reads tail ends]
    rfl
  · simp

theorem maskWithin_keyed (plain : Plain key) (reads : ReadsAs raw value) (ends : Ends tail) :
    maskWithin (steps + 1) (key ++ code '=' :: (raw ++ tail)) =
      key ++ code '=' :: ((if passwordKey key then stars else raw) ++
        (tail.take 1 ++ maskWithin steps (tail.drop 1))) := by
  rw [maskWithin, splitKey_of_plain plain]
  dsimp only
  · rw [valueEnd_of_readValue (reads tail ends)]
    simp
  · simp

/-- A segment without a keyword. -/
theorem parseWithin_bare
    (plain : Plain bare) : parseWithin (steps + 1) parameters (bare ++ code ';' :: rest) =
      parseWithin steps parameters rest := by
  rw [parseWithin, splitKey_bare plain, nextSegment_bare plain]
  simp

theorem maskWithin_bare (plain : Plain bare) :
    maskWithin (steps + 1) (bare ++ code ';' :: rest) = bare ++ code ';' :: maskWithin steps rest := by
  have parts : bare ++ code ';' :: rest = (bare ++ [code ';']) ++ rest := by simp
  have size : bare.length + 1 = (bare ++ [code ';']).length := by simp
  rw [maskWithin, splitKey_bare plain, idxOf?_append_cons plain.2]
  · dsimp only
    rw [parts, size, take_left, drop_left, append_assoc]
    rfl
  · simp

theorem splitKey_last (plain : Plain text) : splitKey text = none := by
  unfold splitKey
  rw [List.idxOf?_eq_none_iff.mpr plain.1]

theorem parseWithin_last (plain : Plain text) :
    parseWithin steps parameters text = .ok parameters := by
  rcases text with _ | ⟨first, rest⟩
  · simp [parseWithin]
  rcases steps with _ | steps
  · rfl
  have noSeparator : nextSegment (first :: rest) = none := by
    rw [nextSegment, List.idxOf?_eq_none_iff.mpr plain.2]
    rfl
  rw [parseWithin, splitKey_last plain]
  · dsimp only
    rw [noSeparator]
  · simp

theorem maskWithin_last (plain : Plain text)
    (bound : text.length ≤ steps) : maskWithin steps text = text := by
  rcases text with _ | ⟨first, rest⟩
  · simp [maskWithin]
  obtain ⟨steps, rfl⟩ : ∃ fewer, steps = fewer + 1 := by
    rw [length_cons] at bound
    exact ⟨steps - 1, by omega⟩
  rw [maskWithin, splitKey_last plain, List.idxOf?_eq_none_iff.mpr plain.2]
  simp

/-- How a connection string begins: an entry, or the last of it. -/
inductive Starts (steps : Nat) (parameters result : Parameters) : Bytes → Prop where
  | last {text : Bytes} (plain : Plain text) (ends : result = parameters) :
      Starts steps parameters result text
  | bare {bare rest : Bytes} (plain : Plain bare)
      (further : parseWithin steps parameters rest = .ok result) :
      Starts steps parameters result (bare ++ code ';' :: rest)
  | keyed {key raw value tail : Bytes} (plain : Plain key) (reads : ReadsAs raw value)
      (ends : Ends tail)
      (further : parseWithin steps (parameters.enter (trim key) value) (tail.drop 1) = .ok result) :
      Starts steps parameters result (key ++ code '=' :: (raw ++ tail))

theorem starts_of_parseWithin (accepted : parseWithin (steps + 1) parameters input = .ok result) :
    Starts steps parameters result input := by
  cases split : splitKey input with
  | none =>
    rcases bare_of_splitKey split with ⟨-, plain⟩ | ⟨bare, rest, rfl, plain, -⟩
    · rw [parseWithin_last plain] at accepted
      cases accepted
      exact .last plain rfl
    · rw [parseWithin_bare plain] at accepted
      exact .bare plain accepted
  | some parts =>
    obtain ⟨key, rest⟩ := parts
    obtain ⟨rfl, plain⟩ := plain_of_splitKey split
    rw [parseWithin, split] at accepted
    · dsimp only at accepted
      obtain ⟨⟨value, unread⟩, read, further⟩ := bind_eq_ok.mp accepted
      obtain ⟨ends, raw, rfl, reads⟩ := readValue_parts read
      exact .keyed plain reads ends further
    · simp

theorem Ends.masked {tail : Bytes} (ends : Ends tail) (steps : Nat) :
    Ends (tail.take 1 ++ maskWithin steps (tail.drop 1)) ∧
      (tail.take 1 ++ maskWithin steps (tail.drop 1)).drop 1 = maskWithin steps (tail.drop 1) := by
  rcases ends with rfl | ⟨rest, rfl⟩
  · simp [maskWithin, Ends]
  · exact ⟨.inr ⟨_, rfl⟩, rfl⟩

theorem readsAs_masked {key raw value : Bytes} (reads : ReadsAs raw value) :
    ReadsAs (if passwordKey key then stars else raw) (if passwordKey key then stars else value) := by
  split
  · exact readsAs_stars
  · exact reads

/-- A masked text parses like the text, with the secrets replaced. -/
theorem parseWithin_mask {steps more : Nat}
    (bound : input.length ≤ steps) (accepted : parseWithin steps parameters input = .ok result)
    (enough : (maskWithin steps input).length ≤ more) :
    parseWithin more (parameters.map hide) (maskWithin steps input) = .ok (result.map hide) := by
  induction steps generalizing parameters input more with
  | zero =>
    obtain rfl := eq_nil_of_length_eq_zero (Nat.le_zero.mp bound)
    cases accepted
    simp [maskWithin, parseWithin]
  | succ steps ih =>
    cases starts_of_parseWithin accepted with
    | last plain ends =>
      rw [maskWithin_last plain bound, parseWithin_last plain, ends]
    | @bare bare rest plain further =>
      rw [maskWithin_bare plain] at enough ⊢
      simp only [length_append, length_cons] at bound enough
      obtain ⟨fewer, rfl⟩ : ∃ fewer, more = fewer + 1 := ⟨more - 1, by omega⟩
      rw [parseWithin_bare plain]
      exact ih (by omega) further (by omega)
    | @keyed key raw value tail plain reads ends further =>
      obtain ⟨endsToo, dropped⟩ := ends.masked steps
      rw [maskWithin_keyed plain reads ends] at enough ⊢
      simp only [length_append, length_cons] at bound enough
      obtain ⟨fewer, rfl⟩ : ∃ fewer, more = fewer + 1 := ⟨more - 1, by omega⟩
      rw [parseWithin_keyed plain (readsAs_masked reads) endsToo, dropped, ← map_hide_enter]
      have shorter : (tail.drop 1).length ≤ steps := by
        rw [length_drop]
        omega
      exact ih shorter further (by omega)

theorem zero_notMem_maskWithin
    (bound : input.length ≤ steps) (accepted : parseWithin steps parameters input = .ok result)
    (clean : 0 ∉ input) : 0 ∉ maskWithin steps input := by
  induction steps generalizing parameters input with
  | zero =>
    obtain rfl := eq_nil_of_length_eq_zero (Nat.le_zero.mp bound)
    simp [maskWithin]
  | succ steps ih =>
    cases starts_of_parseWithin accepted with
    | last plain ends =>
      rw [maskWithin_last plain bound]
      exact clean
    | @bare bare rest plain further =>
      simp only [length_append, length_cons] at bound
      simp only [mem_append, mem_cons, not_or] at clean
      rw [maskWithin_bare plain]
      simp only [mem_append, mem_cons, not_or]
      exact ⟨clean.1, by decide, ih (by omega) further clean.2.2⟩
    | @keyed key raw value tail plain reads ends further =>
      simp only [length_append, length_cons] at bound
      simp only [mem_append, mem_cons, not_or] at clean
      have hidden : 0 ∉ if passwordKey key then stars else raw := by
        split
        · decide
        · exact clean.2.2.1
      have shorter : (tail.drop 1).length ≤ steps := by
        rw [length_drop]
        omega
      rw [maskWithin_keyed plain reads ends]
      simp only [mem_append, mem_cons, not_or]
      exact ⟨clean.1, by decide, hidden, fun first => clean.2.2.2 (mem_of_mem_take first),
        ih shorter further fun later => clean.2.2.2 (mem_of_mem_drop later)⟩

/-! ## Secrets do not show -/

theorem bracedEnd_length (found : bracedEnd input = some unread) :
    unread.length ≤ input.length := by
  fun_induction bracedEnd input with
  | case1 => cases found
  | case2 => simp_all
  | case3 later ih | case5 current rest notBrace ih =>
    have shorter := ih found
    simp
    omega
  | case4 next later notBrace =>
    cases found
    simp

theorem valueEnd_length (found : valueEnd input = some unread) :
    unread.length ≤ input.length := by
  obtain ⟨left, isLeft, rfl⟩ := Option.map_eq_some_iff.mp found
  have dropped : left.length ≤ (input.dropWhile isSpace).length := by
    split at isLeft
    · rename_i braced isBraced
      rw [isBraced]
      exact (bracedEnd_length isLeft).trans (Nat.le_succ _)
    · cases isLeft
      exact le_rfl
  exact ((dropWhile_sublist _).length_le.trans dropped).trans
    (dropWhile_sublist _).length_le

/-- The bound on the number of segments does not matter. -/
theorem maskWithin_bound {steps more : Nat} (bound : input.length ≤ steps)
    (boundToo : input.length ≤ more) : maskWithin steps input = maskWithin more input := by
  induction steps generalizing more input with
  | zero =>
    obtain rfl := eq_nil_of_length_eq_zero (Nat.le_zero.mp bound)
    simp [maskWithin]
  | succ steps ih =>
    rcases input with _ | ⟨first, rest⟩
    · simp [maskWithin]
    rw [length_cons] at bound boundToo
    obtain ⟨more, rfl⟩ : ∃ fewer, more = fewer + 1 := ⟨more - 1, by omega⟩
    rw [maskWithin, maskWithin]
    · split
      · split
        · rfl
        rw [ih]
        · simp
          omega
        · simp
          omega
      rename_i key after split
      split
      · rfl
      rename_i unread isEnd
      have shorter := valueEnd_length isEnd
      have size := congrArg List.length (plain_of_splitKey split).1
      simp only [length_append, length_cons] at size
      rw [ih]
      · rw [length_drop]
        omega
      · rw [length_drop]
        omega
    · simp
    · simp

/-- The text of a value, up to its end. -/
def IsValue (raw : Bytes) : Prop := ∃ value, readValue raw = .ok (value, [])

theorem IsValue.readsAs {raw : Bytes} (isValue : IsValue raw) : ∃ value, ReadsAs raw value := by
  obtain ⟨value, read⟩ := isValue
  obtain ⟨-, whole, isWhole, reads⟩ := readValue_parts read
  rw [append_nil] at isWhole
  exact ⟨value, isWhole ▸ reads⟩

/-- Two texts that differ only between the equals signs and the ends of the values of
secret keywords. -/
inductive SameButSecrets : Bytes → Bytes → Prop where
  | same (text : Bytes) : SameButSecrets text text
  | bare {bare left right} (plain : Plain bare) (rest : SameButSecrets left right) :
      SameButSecrets (bare ++ code ';' :: left) (bare ++ code ';' :: right)
  | value {key raw left right} (plain : Plain key) (isValue : IsValue raw)
      (rest : SameButSecrets left right) :
      SameButSecrets (key ++ code '=' :: (raw ++ code ';' :: left))
        (key ++ code '=' :: (raw ++ code ';' :: right))
  | secret {key raw other left right} (plain : Plain key) (secret : passwordKey key)
      (isValue : IsValue raw) (isValueToo : IsValue other) (rest : SameButSecrets left right) :
      SameButSecrets (key ++ code '=' :: (raw ++ code ';' :: left))
        (key ++ code '=' :: (other ++ code ';' :: right))
  | lastSecret {key raw other} (plain : Plain key) (secret : passwordKey key)
      (isValue : IsValue raw) (isValueToo : IsValue other) :
      SameButSecrets (key ++ code '=' :: raw) (key ++ code '=' :: other)

theorem SameButSecrets.masked {left right : Bytes} (same : SameButSecrets left right) {steps : Nat}
    (bound : left.length ≤ steps) (boundToo : right.length ≤ steps) :
    maskWithin steps left = maskWithin steps right := by
  induction same generalizing steps with
  | same text => rfl
  | bare plain rest ih =>
    simp only [length_append, length_cons] at bound boundToo
    obtain ⟨steps, rfl⟩ : ∃ fewer, steps = fewer + 1 := ⟨steps - 1, by omega⟩
    rw [maskWithin_bare plain, maskWithin_bare plain, ih (by omega) (by omega)]
  | @value key raw left right plain isValue rest ih =>
    obtain ⟨value, reads⟩ := isValue.readsAs
    simp only [length_append, length_cons] at bound boundToo
    obtain ⟨steps, rfl⟩ : ∃ fewer, steps = fewer + 1 := ⟨steps - 1, by omega⟩
    rw [maskWithin_keyed plain reads (.inr ⟨left, rfl⟩),
      maskWithin_keyed plain reads (.inr ⟨right, rfl⟩)]
    simp only [drop_succ_cons, drop_zero, take_succ_cons, take_zero]
    rw [ih (by omega) (by omega)]
  | @secret key raw other left right plain secret isValue isValueToo rest ih =>
    obtain ⟨value, reads⟩ := isValue.readsAs
    obtain ⟨otherValue, readsToo⟩ := isValueToo.readsAs
    simp only [length_append, length_cons] at bound boundToo
    obtain ⟨steps, rfl⟩ : ∃ fewer, steps = fewer + 1 := ⟨steps - 1, by omega⟩
    rw [maskWithin_keyed plain reads (.inr ⟨left, rfl⟩),
      maskWithin_keyed plain readsToo (.inr ⟨right, rfl⟩), if_pos secret, if_pos secret]
    simp only [drop_succ_cons, drop_zero, take_succ_cons, take_zero]
    rw [ih (by omega) (by omega)]
  | @lastSecret key raw other plain secret isValue isValueToo =>
    obtain ⟨value, reads⟩ := isValue.readsAs
    obtain ⟨otherValue, readsToo⟩ := isValueToo.readsAs
    simp only [length_append, length_cons] at bound boundToo
    obtain ⟨steps, rfl⟩ : ∃ fewer, steps = fewer + 1 := ⟨steps - 1, by omega⟩
    have masked := @maskWithin_keyed steps _ _ _ _ plain reads (.inl rfl)
    have maskedToo := @maskWithin_keyed steps _ _ _ _ plain readsToo (.inl rfl)
    rw [append_nil, if_pos secret] at masked maskedToo
    rw [masked, maskedToo]

/-- Masking hides every secret and nothing else: an accepted text parses after masking to the same
parameters with the secrets replaced, and texts that differ only in secrets are masked alike. -/
theorem maskConnectionString_hides (text : Bytes) (parameters : Parameters)
    (accepted : parse text = .ok parameters) :
    parse (maskConnectionString text) = .ok (parameters.map hide) ∧
      ∀ other otherParameters, parse other = .ok otherParameters → SameButSecrets text other →
        maskConnectionString text = maskConnectionString other := by
  unfold parse at accepted
  split at accepted
  · cases accepted
  rename_i clean
  refine ⟨?_, fun other _ _ same => ?_⟩
  · unfold parse maskConnectionString
    rw [if_neg (zero_notMem_maskWithin le_rfl accepted clean)]
    exact parseWithin_mask le_rfl accepted le_rfl
  unfold maskConnectionString
  rw [maskWithin_bound le_rfl (Nat.le_max_left _ _),
    same.masked (Nat.le_max_left _ _) (Nat.le_max_right _ _),
    maskWithin_bound (Nat.le_max_right _ _) le_rfl]

theorem maskConnectionString_hides_login : parse (ascii "UID=u;Pwd=\x7ba;\x7d\x7db\x7d;x=1") =
        .ok [(ascii "UID", ascii "u"), (ascii "PWD", ascii "a;\x7db"), (ascii "X", ascii "1")] ∧
      parse (maskConnectionString (ascii "UID=u;Pwd=\x7ba;\x7d\x7db\x7d;x=1")) =
        .ok [(ascii "UID", ascii "u"), (ascii "PWD", ascii "***"), (ascii "X", ascii "1")] := by
  have accepted : parse (ascii "UID=u;Pwd=\x7ba;\x7d\x7db\x7d;x=1") =
      .ok [(ascii "UID", ascii "u"), (ascii "PWD", ascii "a;\x7db"), (ascii "X", ascii "1")] := by
    decide +kernel
  have masked := (maskConnectionString_hides _ _ accepted).1
  exact ⟨accepted, masked⟩

end Odbcpp.Odbc
