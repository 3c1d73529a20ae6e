import Odbcpp.Util.Text

/-!
# Cursor names

`ODBCStatement::get_cursor_name` and `set_cursor_name` of `odbc/odbc_handles.cpp`, with the checks
of names and of conflicts between them. An unquoted name is the identifier of its upper-case form,
a quoted one that of its contents; over every history of calls the names of the statements of a
connection are different identifiers.
-/

namespace Odbcpp.Odbc

open Foundation Util List

/-- A statement and the cursor name set for it. -/
structure CursorStatement where
  statementId : Nat
  cursorName : Bytes := []
deriving DecidableEq

def madeName (statementId : Nat) : Bytes := ascii "SQL_CUR" ++ decimal statementId

variable (statement : CursorStatement)

def CursorStatement.getCursorName : Bytes :=
  if statement.cursorName ≠ [] then statement.cursorName
  else madeName statement.statementId

variable (name : Bytes)

def isQuotedCursorName : Bool :=
  2 ≤ name.length && name.head? = some (code '"') && name.getLast? = some (code '"')

def inside : Bytes := (name.drop 1).dropLast

/-- The loop of `unescape_quoted_cursor_name`. -/
def unescape : Bytes → Bytes
  | first :: second :: rest =>
    if first = code '"' ∧ second = code '"' then code '"' :: unescape rest
    else first :: unescape (second :: rest)
  | rest => rest

def unescapeQuotedCursorName : Bytes :=
  if !isQuotedCursorName name then name else unescape (inside name)

/-- The loop of `is_valid_cursor_name` over a quoted name. -/
def readQuoted : Bytes → Option Bytes
  | [] => some []
  | ch :: rest =>
    if ch = code '"' then
      match rest with
      | [] => none
      | next :: later =>
        if next = code '"' then (readQuoted later).map (code '"' :: ·) else none
    else (readQuoted rest).map (ch :: ·)

/-- A name that the driver keeps for itself. -/
def reserved : Prop :=
  ascii "SQLCUR" <+: name.map toUpper ∨ ascii "SQL_CUR" <+: name.map toUpper

instance (name : Bytes) : Decidable (reserved name) := inferInstanceAs (Decidable (_ ∨ _))

def isValidCursorName : Bool :=
  match name with
  | [] => false
  | first :: _ =>
    if 128 < name.length then false
    else if first = code '"' then
      if name.length < 2 ∨ name.getLast? ≠ some (code '"') then false
      else match readQuoted (inside name) with
        | none => false
        | some unescaped => unescaped ≠ [] && !decide (reserved unescaped)
    else (isAlpha first || first = code '_') &&
      name.all (fun ch => isAlpha ch || isDigit ch || ch = code '_') && !decide (reserved name)

def cursorNamesConflict (a b : Bytes) : Bool :=
  match isQuotedCursorName a, isQuotedCursorName b with
  | true, true => a = b
  | false, false => a.map toUpper = b.map toUpper
  | true, false => b.map toUpper = unescapeQuotedCursorName a
  | false, true => a.map toUpper = unescapeQuotedCursorName b

/-- The SQLSTATE and the message of a refusal, or the statement with its name. -/
def CursorStatement.setCursorName (executed : Bool)
    (siblings : List CursorStatement) (name : Bytes) :
    Except (Bytes × Bytes) CursorStatement :=
  if !isValidCursorName name then .error (ascii "34000", ascii
    "Cursor name contains invalid characters, reserved prefix, or is empty/too long")
  else if executed then .error (ascii "24000", ascii
    "Cursor name cannot be set while the statement is in an executed or cursor-positioned state")
  else if siblings.any fun sibling => sibling.statementId ≠ statement.statementId &&
      cursorNamesConflict name sibling.getCursorName then
    .error (ascii "3C000", ascii "Cursor name is already in use by another statement")
  else .ok { statement with cursorName := name }

/-- The calls that concern cursor names. -/
inductive CursorCall where
  | allocate (statementId : Nat)
  | free (statementId : Nat)
  | setCursorName (statementId : Nat) (executed : Bool) (name : Bytes)

def CursorCall.statementId : CursorCall → Nat
  | .allocate statementId | .free statementId | .setCursorName statementId _ _ => statementId

/-- The live statements after a call; an id in use is not given out again. -/
def CursorCall.apply (live : List CursorStatement) : CursorCall → List CursorStatement
  | .allocate statementId =>
    if live.any (·.statementId = statementId) then live else { statementId } :: live
  | .free statementId => live.filter (·.statementId ≠ statementId)
  | .setCursorName statementId executed name => live.map fun statement =>
    if statement.statementId = statementId then
      (statement.setCursorName executed live name).toOption.getD statement
    else statement

/-! ## Identifiers -/

/-- A letter of a quoted name. -/
def doubled (ch : UInt8) : Bytes := if ch = code '"' then [ch, ch] else [ch]

variable (contents : Bytes)

def quotedName : Bytes :=
  code '"' :: contents.flatMap doubled ++ [code '"']

/-- The identifier that a written name stands for. -/
inductive Identifies : Bytes → Bytes → Prop
  | unquoted {name : Bytes} (plain : name.head? ≠ some (code '"')) :
    Identifies name (name.map toUpper)
  | quoted (contents : Bytes) : Identifies (quotedName contents) contents

theorem unescape_doubled : unescape (contents.flatMap doubled) = contents := by
  induction contents with
  | nil => rfl
  | cons ch rest ih =>
    by_cases isQuote : ch = code '"'
    · simp [doubled, isQuote, unescape, ih]
    rw [List.flatMap_cons, doubled, if_neg isQuote]
    refine Eq.trans ?_ (congrArg (ch :: ·) ih)
    cases rest.flatMap doubled with
    | nil => rfl
    | cons => simp [unescape, isQuote]

theorem eq_doubled_of_readQuoted {text contents : Bytes} (read : readQuoted text = some contents) :
    text = contents.flatMap doubled := by
  fun_induction readQuoted text generalizing contents with
  | case1 =>
    cases read
    rfl
  | case2 | case4 => cases read
  | case3 later ih =>
    obtain ⟨rest, found, rfl⟩ := Option.map_eq_some_iff.mp read
    simp [doubled, ← ih found]
  | case5 ch rest other ih =>
    obtain ⟨tail, found, rfl⟩ := Option.map_eq_some_iff.mp read
    simp [doubled, other, ← ih found]

section Names

variable {a b i j : Bytes}

theorem isQuotedCursorName_of_plain (plain : a.head? ≠ some (code '"')) :
    isQuotedCursorName a = false := by
  simp [isQuotedCursorName, plain]

@[simp] theorem isQuotedCursorName_quotedName :
    isQuotedCursorName (quotedName contents) = true := by
  simp [isQuotedCursorName, quotedName, List.getLast?_cons]

@[simp] theorem unescape_quotedName :
    unescapeQuotedCursorName (quotedName contents) = contents := by
  rw [unescapeQuotedCursorName, isQuotedCursorName_quotedName]
  simpa [inside, quotedName] using unescape_doubled contents

theorem cursorNamesConflict_iff (left : Identifies a i) (right : Identifies b j) :
    cursorNamesConflict a b = true ↔ i = j := by
  cases left with
  | unquoted plain =>
    have isPlain := isQuotedCursorName_of_plain plain
    cases right with
    | unquoted plain' =>
      simp [cursorNamesConflict, isPlain, isQuotedCursorName_of_plain plain']
    | quoted => simp [cursorNamesConflict, isPlain]
  | quoted =>
    cases right with
    | unquoted plain => simp [cursorNamesConflict, isQuotedCursorName_of_plain plain, eq_comm]
    | quoted =>
      simp only [cursorNamesConflict, isQuotedCursorName_quotedName, decide_eq_true_eq]
      refine ⟨fun same => ?_, fun same => same ▸ rfl⟩
      rw [← unescape_quotedName i, same, unescape_quotedName]

theorem toUpper_toUpper : ∀ ch : UInt8, toUpper (toUpper ch) = toUpper ch :=
  forall_byte (by decide +kernel)

theorem reserved_map_toUpper : reserved (a.map toUpper) ↔ reserved a := by
  simp [reserved, Function.comp_def, toUpper_toUpper]

theorem identifies_of_valid (valid : isValidCursorName a = true) :
    ∃ i, Identifies a i ∧ ¬reserved i := by
  match a with
  | [] => cases valid
  | first :: rest =>
    simp only [isValidCursorName] at valid
    split at valid
    · cases valid
    split at valid
    · rename_i isQuote
      subst isQuote
      rcases eq_nil_or_concat rest with rfl | ⟨text, last, rfl⟩
      · cases valid
      split at valid
      · cases valid
      split at valid
      · cases valid
      rename_i ends _ contents read
      simp [inside, List.getLast?_cons] at ends read valid
      rw [eq_doubled_of_readQuoted read, ends, concat_eq_append]
      exact ⟨contents, .quoted contents, valid.2⟩
    · rename_i other
      refine ⟨_, .unquoted (by simpa using other), ?_⟩
      rw [reserved_map_toUpper]
      simpa using (Bool.and_eq_true_iff.mp valid).2

theorem decimal_digits (value : Nat) : ∀ digit ∈ Nat.toDigits 10 value,
    Char.ofNat (code digit).toNat = digit ∧ toUpper (code digit) = code digit := by
  intro digit member
  have number := toNat_code_of_mem_toDigits member
  refine ⟨by rw [number.1, Char.ofNat_toNat], if_neg fun lower => ?_⟩
  have above := UInt8.le_iff_toNat_le.mp lower.1
  rw [number.1] at above
  simp [code] at above
  omega

theorem madeName_injective : Function.Injective madeName := by
  intro left right same
  have digits (value : Nat) :
      (decimal value).map (fun byte => Char.ofNat byte.toNat) = Nat.toDigits 10 value := by
    rw [decimal, map_map]
    exact (map_congr_left fun digit member => (decimal_digits value digit member).1).trans
      (map_id _)
  have same := congrArg (List.map fun byte => Char.ofNat byte.toNat) (append_cancel_left same)
  rw [digits, digits] at same
  rw [← @Nat.ofDigitChars_ten_toDigits left, same, Nat.ofDigitChars_ten_toDigits]

variable (statementId : Nat)

theorem map_toUpper_madeName : (madeName statementId).map toUpper = madeName statementId := by
  rw [madeName, map_append, decimal, map_map]
  exact congrArg _ (map_congr_left fun digit member => (decimal_digits _ digit member).2)

theorem identifies_madeName : Identifies (madeName statementId) (madeName statementId) := by
  have identifies := @Identifies.unquoted (madeName statementId)
    (show some (code 'S') ≠ some (code '"') by decide)
  rwa [map_toUpper_madeName] at identifies

theorem reserved_madeName : reserved (madeName statementId) := by
  rw [reserved, map_toUpper_madeName]
  exact .inr (List.prefix_append ..)

theorem Identifies.unique (left : Identifies a i) (right : Identifies a j) : i = j :=
  (cursorNamesConflict_iff left right).mp ((cursorNamesConflict_iff left left).mpr rfl)

end Names

/-! ## Histories -/

/-- The effective name stands for an identifier, a reserved one only if it was made up. -/
def CursorStatement.Named : Prop :=
  ∃ i, Identifies statement.getCursorName i ∧ (reserved i → i = madeName statement.statementId)

def CursorStatement.Apart (left right : CursorStatement) : Prop :=
  ∀ i, Identifies left.getCursorName i → ¬Identifies right.getCursorName i

/-- What every history keeps. -/
structure Distinct (live : List CursorStatement) : Prop where
  named : ∀ statement ∈ live, statement.Named
  apart : ∀ left ∈ live, ∀ right ∈ live, left.statementId ≠ right.statementId → left.Apart right

namespace Distinct

variable {live : List CursorStatement} {statement named : CursorStatement}

theorem checked {executed name}
    (sets : statement.setCursorName executed live name = .ok named) :
    named = { statement with cursorName := name } ∧ isValidCursorName name = true ∧
      ∀ sibling ∈ live, sibling.statementId ≠ statement.statementId →
        cursorNamesConflict name sibling.getCursorName = false := by
  unfold CursorStatement.setCursorName at sets
  split_ifs at sets with invalid _ conflicts
  cases sets
  exact ⟨rfl, by simpa using invalid, by simpa using conflicts⟩

/-- A statement that a call adds or renames is apart from all others. -/
theorem renamed (distinct : Distinct live) {call : CursorCall} (member : named ∈ call.apply live) :
    named ∈ live ∨ named.statementId = call.statementId ∧ named.Named ∧
      ∀ other ∈ live, other.statementId ≠ named.statementId → named.Apart other := by
  cases call with
  | allocate statementId =>
    rw [CursorCall.apply] at member
    split at member
    · exact .inl member
    rcases List.mem_cons.mp member with rfl | isLive
    · have made := identifies_madeName statementId
      refine .inr ⟨rfl, ⟨_, made, fun _ => rfl⟩, fun other isLive differs i first second => ?_⟩
      obtain ⟨j, identifies, known⟩ := distinct.named other isLive
      obtain rfl := identifies.unique second
      obtain rfl := made.unique first
      exact differs (madeName_injective (known (reserved_madeName statementId))).symm
    · exact .inl isLive
  | free statementId => exact .inl (List.mem_of_mem_filter member)
  | setCursorName statementId executed name =>
    obtain ⟨statement, isLive, rfl⟩ := List.mem_map.mp member
    by_cases isOne : statement.statementId = statementId
    · rw [if_pos isOne]
      rcases sets : statement.setCursorName executed live name with _ | named
      · exact .inl isLive
      rw [Except.toOption, Option.getD_some]
      obtain ⟨rfl, valid, free⟩ := checked sets
      obtain ⟨i, identifies, notReserved⟩ := identifies_of_valid valid
      have effective : ({ statement with cursorName := name } : CursorStatement).getCursorName =
          name := if_pos (by rintro rfl; cases valid)
      refine .inr ⟨isOne, ⟨i, effective.symm ▸ identifies, fun isReserved =>
        absurd isReserved notReserved⟩, fun other isLive differs i first second => ?_⟩
      have conflict := (cursorNamesConflict_iff (effective ▸ first) second).mpr rfl
      rw [free other isLive differs] at conflict
      cases conflict
    · rw [if_neg isOne]
      exact .inl isLive

theorem apply (distinct : Distinct live) (call : CursorCall) : Distinct (call.apply live) := by
  refine ⟨fun statement member => ?_, fun left isLeft right isRight differs i first second => ?_⟩
  · exact (distinct.renamed member).elim (distinct.named statement) fun isNew => isNew.2.1
  rcases distinct.renamed isLeft with wasLeft | ⟨isOne, -, free⟩
  · rcases distinct.renamed isRight with wasRight | ⟨-, -, free⟩
    · exact distinct.apart left wasLeft right wasRight differs i first second
    · exact free left wasLeft differs i second first
  rcases distinct.renamed isRight with wasRight | ⟨isOther, -⟩
  · exact free right wasRight differs.symm i first second
  · exact differs (isOne.trans isOther.symm)

end Distinct

/-- Over every history the effective names of two live statements are different identifiers, and a
valid name is refused as a duplicate only for the identifier of another live statement. -/
theorem cursor_names_distinct (calls : List CursorCall) :
    let live := calls.foldl CursorCall.apply []
    (∀ left ∈ live, ∀ right ∈ live, left.statementId ≠ right.statementId →
      ∃ i j, Identifies left.getCursorName i ∧ Identifies right.getCursorName j ∧ i ≠ j) ∧
    ∀ statement ∈ live, ∀ executed name, isValidCursorName name = true →
      statement.setCursorName executed live name = .error (ascii "3C000",
        ascii "Cursor name is already in use by another statement") →
      ∃ other ∈ live, other.statementId ≠ statement.statementId ∧
        ∃ i, Identifies name i ∧ Identifies other.getCursorName i := by
  have kept (live : List CursorStatement) (distinct : Distinct live) :
      Distinct (calls.foldl CursorCall.apply live) := by
    induction calls generalizing live with
    | nil => exact distinct
    | cons call calls ih => exact ih _ (distinct.apply call)
  have distinct := kept [] ⟨nofun, nofun⟩
  refine ⟨fun left isLeft right isRight other => ?_,
    fun statement member executed name valid refused => ?_⟩
  · obtain ⟨i, first, -⟩ := distinct.named left isLeft
    obtain ⟨j, second, -⟩ := distinct.named right isRight
    refine ⟨i, j, first, second, ?_⟩
    rintro rfl
    exact distinct.apart left isLeft right isRight other i first second
  unfold CursorStatement.setCursorName at refused
  split_ifs at refused with invalid _ conflicts
  · exact absurd valid (by simpa using invalid)
  · exact absurd refused (by decide)
  obtain ⟨sibling, isLive, conflict⟩ := List.any_eq_true.mp conflicts
  rw [Bool.and_eq_true, decide_eq_true_eq] at conflict
  obtain ⟨i, identifies, -⟩ := identifies_of_valid valid
  obtain ⟨j, effective, -⟩ := distinct.named sibling isLive
  obtain rfl := (cursorNamesConflict_iff identifies effective).mp conflict.2
  exact ⟨sibling, isLive, conflict.1, i, identifies, effective⟩

end Odbcpp.Odbc
