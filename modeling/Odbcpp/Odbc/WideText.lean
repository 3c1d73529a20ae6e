import Odbcpp.Odbc.Unicode
import Odbcpp.Util.CodePoints

/-!
# Wide text

`wide_to_utf8` of `odbc/unicode.cpp` and the readers of wide arguments. A wide text decodes code
point by code point until a unit starts none; how far that goes and how many bytes it takes
decides what every reader answers.
-/

namespace Odbcpp.Odbc

open Foundation Util
open List hiding map_map utf8Encode
open Option (any_none any_some bind_some map_map some)

/-- `append_utf8`, which refuses what is no scalar value. -/
def appendUtf8 (output : Bytes) (codePoint : Nat) : Option Bytes :=
  if codePoint ≤ 0x7f then some (output ++ [.ofNat codePoint])
  else if codePoint ≤ 0x7ff then
    some (output ++ [.ofNat (0xc0 + codePoint / 64), .ofNat (0x80 + codePoint % 64)])
  else if codePoint ≤ 0xffff then
    if 0xd800 ≤ codePoint ∧ codePoint ≤ 0xdfff then none
    else some (output ++ [.ofNat (0xe0 + codePoint / 4096), .ofNat (0x80 + codePoint / 64 % 64),
      .ofNat (0x80 + codePoint % 64)])
  else if codePoint ≤ 0x10ffff then
    some (output ++ [.ofNat (0xf0 + codePoint / 262144), .ofNat (0x80 + codePoint / 4096 % 64),
      .ofNat (0x80 + codePoint / 64 % 64), .ofNat (0x80 + codePoint % 64)])
  else none

def bytesNeeded (codePoint : Nat) : Nat :=
  if codePoint ≤ 0x7f then 1
  else if codePoint ≤ 0x7ff then 2
  else if codePoint ≤ 0xffff then 3
  else 4

structure WideDecoding where
  text : Option Bytes
  exceeded : Bool
deriving DecidableEq

namespace Platform

variable (platform : Platform)

/-- The first unit, or the two units of a surrogate pair where units are UTF-16. -/
def combineSurrogates : List Nat → Option (Nat × List Nat)
  | [] => none
  | unit :: rest =>
    if platform.wcharSize = 2 then
      if 0xd800 ≤ unit ∧ unit ≤ 0xdbff then
        match rest with
        | [] => none
        | low :: unread =>
          if low < 0xdc00 ∨ 0xdfff < low then none
          else some (0x10000 + (unit - 0xd800) * 1024 + (low - 0xdc00), unread)
      else if 0xdc00 ≤ unit ∧ unit ≤ 0xdfff then none
      else some (unit, rest)
    else some (unit, rest)

def nextWideCodePoint (units : List Nat) : Option (Nat × List Nat) :=
  match platform.combineSurrogates units with
  | none => none
  | some (codePoint, unread) =>
    if 0x10ffff < codePoint ∨ (0xd800 ≤ codePoint ∧ codePoint ≤ 0xdfff) then none
    else some (codePoint, unread)

/-- The loop of `decode_wide_bytes`, within a number of steps. The default bound of the source, the
largest size, is no bound here. -/
def decodeWideWithin (maxBytes : Option Nat) : Nat → Bytes → List Nat → WideDecoding
  | _, output, [] => ⟨some output, false⟩
  | 0, _, _ :: _ => ⟨none, false⟩
  | steps + 1, output, unit :: rest =>
    match platform.nextWideCodePoint (unit :: rest) with
    | none => ⟨none, false⟩
    | some (codePoint, unread) =>
      if maxBytes.any (fun most => most - output.length < bytesNeeded codePoint) then ⟨none, true⟩
      else match appendUtf8 output codePoint with
        | none => ⟨none, false⟩
        | some output => decodeWideWithin maxBytes steps output unread

def decodeWideBytes (maxBytes : Option Nat) (units : List Nat) : WideDecoding :=
  platform.decodeWideWithin maxBytes units.length [] units

def wideToUtf8 (input : List Nat) : Option Bytes := (platform.decodeWideBytes none input).text

/-- `SQL_NTS`, the length of a text that ends at a NUL. -/
def sqlNts : Int := -3

/-- `sqlwchar_to_utf8`, where `input` is what can be read from the pointer on. -/
def sqlwcharToUtf8 (input : Option (List Nat)) (length : Int) : Option Bytes :=
  match input with
  | none => some []
  | some memory =>
    if length = sqlNts then (platform.decodeWideBytes none (memory.takeWhile (· ≠ 0))).text
    else if length < 0 then none
    else (platform.decodeWideBytes none (memory.take length.toNat)).text

/-- The scan for the terminator, which gives up after `maxUnits` units. -/
def countUnits (maxUnits : Nat) : Nat → List Nat → Option Nat
  | units, [] => some units
  | units, unit :: rest =>
    if unit = 0 then some units
    else if units = maxUnits then none
    else countUnits maxUnits (units + 1) rest

def sqlwcharToUtf8Bounded (input : Option (List Nat)) (length : Int) (maxBytes : Nat) :
    WideDecoding :=
  match input with
  | none => ⟨some [], false⟩
  | some memory =>
    if length = sqlNts then
      match countUnits maxBytes 0 memory with
      | none => ⟨none, true⟩
      | some units => platform.decodeWideBytes (some maxBytes) (memory.take units)
    else if length < 0 then ⟨none, false⟩
    else if maxBytes < length.toNat then ⟨none, true⟩
    else platform.decodeWideBytes (some maxBytes) (memory.take length.toNat)

/-! ## Well-formed wide text -/

def encodeWide (points : List Nat) : List Nat := points.flatMap platform.wideUnits

def WellFormedWide (units : List Nat) : Prop :=
  ∃ points, units = platform.encodeWide points ∧ ∀ point ∈ points, IsScalar point

/-- The units of a text are values of `SQLWCHAR`. -/
def Narrow (units : List Nat) : Prop := ∀ unit ∈ units, unit < 256 ^ platform.wcharSize

@[simp] theorem encodeWide_cons (point : Nat) (points : List Nat) :
    platform.encodeWide (point :: points) =
      platform.wideUnits point ++ platform.encodeWide points :=
  rfl

end Platform

theorem appendUtf8_scalar {codePoint : Nat} (scalar : IsScalar codePoint) (output : Bytes) :
    appendUtf8 output codePoint = some (output ++ utf8Encode codePoint) := by
  unfold IsScalar at scalar
  unfold appendUtf8 utf8Encode
  split_ifs <;> first | rfl | omega

theorem length_utf8Encode (codePoint : Nat) :
    (utf8Encode codePoint).length = bytesNeeded codePoint := by
  unfold utf8Encode bytesNeeded
  split_ifs <;> first | rfl | omega

namespace Platform

variable {platform : Platform}

variable {points : List Nat} {codePoint steps : Nat} {text : Bytes}

/-- A code point takes no more units than bytes. -/
theorem length_encodeWide_le (points : List Nat) :
    (platform.encodeWide points).length ≤ (encodeText points).length := by
  induction points with
  | nil => exact Nat.le_refl 0
  | cons point points ih =>
    have narrower : platform.wideWidth point ≤ bytesNeeded point := by
      unfold wideWidth bytesNeeded
      split_ifs <;> omega
    simp [encodeWide_cons, encodeText_cons, length_wideUnits, length_utf8Encode]
    omega

theorem nextWideCodePoint_wideUnits (scalar : IsScalar codePoint) (rest : List Nat) :
    platform.nextWideCodePoint (platform.wideUnits codePoint ++ rest) = some (codePoint, rest) := by
  unfold IsScalar at scalar
  have allowed : ¬(0x10ffff < codePoint ∨ (0xd800 ≤ codePoint ∧ codePoint ≤ 0xdfff)) := by omega
  have combined : platform.combineSurrogates (platform.wideUnits codePoint ++ rest) =
      some (codePoint, rest) := by
    unfold wideUnits
    split_ifs with pair
    · simp only [cons_append, nil_append, combineSurrogates, if_pos pair.1]
      have same : 0x10000 + (0xd800 + (codePoint - 0x10000) / 1024 - 0xd800) * 1024 +
          (0xdc00 + (codePoint - 0x10000) % 1024 - 0xdc00) = codePoint := by omega
      rw [if_pos (by omega), if_neg (by omega), same]
    simp only [cons_append, nil_append, combineSurrogates]
    split_ifs with size high low
    · omega
    · omega
    · rfl
    · rfl
  simp only [nextWideCodePoint, combined, if_neg allowed]

theorem nextWideCodePoint_eq_some {units unread} (narrow : platform.Narrow units)
    (next : platform.nextWideCodePoint units = some (codePoint, unread)) :
    units = platform.wideUnits codePoint ++ unread ∧ IsScalar codePoint := by
  unfold nextWideCodePoint at next
  split at next
  · cases next
  rename_i value left combined
  split at next
  · cases next
  rename_i allowed
  obtain ⟨rfl, rfl⟩ := Prod.mk.inj (some.inj next)
  refine ⟨?_, by unfold IsScalar; omega⟩
  rcases units with _ | ⟨unit, rest⟩
  · cases combined
  have small := narrow unit mem_cons_self
  unfold combineSurrogates at combined
  dsimp only at combined
  by_cases size : platform.wcharSize = 2
  · rw [if_pos size] at combined
    rw [size] at small
    split at combined
    · rename_i high
      rcases rest with - | ⟨low, rest⟩
      · cases combined
      dsimp only at combined
      split at combined
      · cases combined
      rename_i isLow
      obtain ⟨rfl, rfl⟩ := Prod.mk.inj (some.inj combined)
      have back : 0xd800 + (0x10000 + (unit - 0xd800) * 1024 + (low - 0xdc00) - 0x10000) / 1024 =
          unit ∧ 0xdc00 + (0x10000 + (unit - 0xd800) * 1024 + (low - 0xdc00) - 0x10000) % 1024 =
          low := by omega
      rw [wideUnits, if_pos ⟨size, by omega⟩, back.1, back.2]
      rfl
    · split at combined
      · cases combined
      obtain ⟨rfl, rfl⟩ := Prod.mk.inj (some.inj combined)
      rw [wideUnits, if_neg (by omega)]
      rfl
  · rw [if_neg size] at combined
    obtain ⟨rfl, rfl⟩ := Prod.mk.inj (some.inj combined)
    rw [wideUnits, if_neg fun pair => size pair.1]
    rfl

theorem exists_encodeWide_append {units} (narrow : platform.Narrow units) :
    ∃ points left, units = platform.encodeWide points ++ left ∧
      (∀ point ∈ points, IsScalar point) ∧ platform.nextWideCodePoint left = none := by
  induction isLength : units.length using Nat.strong_induction_on generalizing units with
  | _ size ih =>
    rcases next : platform.nextWideCodePoint units with _ | found
    · exact ⟨[], units, rfl, by simp, next⟩
    obtain ⟨point, unread⟩ := found
    obtain ⟨rfl, scalar⟩ := nextWideCodePoint_eq_some narrow next
    have nonempty := platform.wideWidth_pos point
    have shorter : unread.length < size := by
      rw [← isLength, length_append, length_wideUnits]
      omega
    obtain ⟨points, left, rfl, scalars, ends⟩ := ih _ shorter
      (fun unit member => narrow unit (mem_append_right _ member)) rfl
    exact ⟨point :: points, left, by simp, forall_mem_cons.mpr ⟨scalar, scalars⟩, ends⟩

theorem decodeWideWithin_encodeWide {maxBytes output left}
    (scalars : ∀ point ∈ points, IsScalar point) (ends : platform.nextWideCodePoint left = none)
    (enough : (platform.encodeWide points ++ left).length ≤ steps)
    (within : ¬maxBytes.any (fun most => most < output.length)) :
    platform.decodeWideWithin maxBytes steps output (platform.encodeWide points ++ left) =
      if maxBytes.any (fun most => most < (output ++ encodeText points).length) then ⟨none, true⟩
      else if left = [] then ⟨some (output ++ encodeText points), false⟩
      else ⟨none, false⟩ := by
  induction points generalizing steps output with
  | nil =>
    simp only [encodeText_nil, append_nil, if_neg within, encodeWide, flatMap_nil,
      nil_append] at enough ⊢
    rcases left with _ | ⟨unit, rest⟩
    · cases steps <;> rfl
    obtain ⟨steps, rfl⟩ := Nat.exists_eq_succ_of_ne_zero (Nat.ne_of_gt (Nat.lt_of_lt_of_le
      (Nat.succ_pos _) enough))
    simp only [decodeWideWithin, ends]
    rfl
  | cons point points ih =>
    obtain ⟨scalar, scalars⟩ := forall_mem_cons.mp scalars
    have wide := platform.wideWidth_pos point
    simp only [encodeWide_cons, append_assoc, length_append, length_wideUnits] at enough
    obtain ⟨steps, rfl⟩ : ∃ fewer, steps = fewer + 1 := ⟨steps - 1, by omega⟩
    have next : platform.nextWideCodePoint _ = _ :=
      nextWideCodePoint_wideUnits scalar (platform.encodeWide points ++ left)
    obtain ⟨unit, rest, isCons⟩ : ∃ unit rest, platform.wideUnits point = unit :: rest :=
      exists_cons_of_ne_nil (ne_nil_of_length_pos (by rwa [length_wideUnits]))
    rw [encodeWide_cons, append_assoc]
    rw [isCons, cons_append] at next ⊢
    simp only [decodeWideWithin, next, appendUtf8_scalar scalar]
    -- The room left is compared with what is needed; together they are the new length.
    have compared : maxBytes.any (fun most => most - output.length < bytesNeeded point) =
        maxBytes.any (fun most => most < (output ++ utf8Encode point).length) := by
      cases maxBytes with
      | none => rfl
      | some most =>
        simp only [any_some, decide_eq_true_eq, Nat.not_lt] at within
        simp [length_utf8Encode]
        omega
    rw [compared, encodeText_cons, ← append_assoc output]
    split
    · rename_i exceeds
      rw [if_pos]
      revert exceeds
      cases maxBytes with
      | none => exact id
      | some most =>
        simp
        omega
    rename_i fits
    refine ih scalars ?_ fits
    rw [length_append]
    omega

theorem decodeWideBytes_eq {units} (narrow : platform.Narrow units) :
    ∃ points left, units = platform.encodeWide points ++ left ∧
      (∀ point ∈ points, IsScalar point) ∧ ∀ maxBytes, platform.decodeWideBytes maxBytes units =
        if maxBytes.any (fun most => most < (encodeText points).length) then ⟨none, true⟩
        else if left = [] then ⟨some (encodeText points), false⟩
        else ⟨none, false⟩ := by
  obtain ⟨points, left, rfl, scalars, ends⟩ := exists_encodeWide_append narrow
  refine ⟨points, left, rfl, scalars, fun maxBytes => ?_⟩
  exact decodeWideWithin_encodeWide scalars ends (Nat.le_refl _) (by cases maxBytes <;> simp)

/-! ## Inverse encodings -/

theorem wideToUtf8_encodeWide (scalars : ∀ point ∈ points, IsScalar point) :
    platform.wideToUtf8 (platform.encodeWide points) = some (encodeText points) := by
  have decoded : platform.decodeWideWithin none _ [] (platform.encodeWide points ++ []) = _ :=
    decodeWideWithin_encodeWide scalars rfl (Nat.le_refl _) (by simp)
  simpa [wideToUtf8, decodeWideBytes] using congrArg WideDecoding.text decoded

theorem wideToUtf8_eq_some {units} (narrow : platform.Narrow units)
    (decoded : platform.wideToUtf8 units = some text) :
    ∃ points, units = platform.encodeWide points ∧ (∀ point ∈ points, IsScalar point) ∧
      text = encodeText points := by
  obtain ⟨points, left, rfl, scalars, decodes⟩ := decodeWideBytes_eq narrow
  rw [wideToUtf8, decodes none, any_none, if_neg Bool.false_ne_true] at decoded
  split at decoded
  · rename_i complete
    exact ⟨points, by rw [complete, append_nil], scalars, (some.inj decoded).symm⟩
  · cases decoded

theorem utf8ToWideWithin_eq (enough : text.length ≤ steps) :
    platform.utf8ToWideWithin steps text = (utf8CodePoints text).map platform.encodeWide := by
  induction steps generalizing text with
  | zero =>
    obtain rfl := length_eq_zero_iff.1 (Nat.le_zero.1 enough)
    rfl
  | succ steps ih =>
    rcases text with _ | ⟨byte, rest⟩
    · rfl
    rw [utf8CodePoints_eq_next (cons_ne_nil byte rest), utf8ToWideWithin]
    rcases next : nextUtf8CodePoint (byte :: rest) with _ | found
    · rfl
    obtain ⟨point, unread⟩ := found
    have shorter := nextUtf8CodePoint_shorter next
    have scalar := (nextUtf8CodePoint_eq_some next).2.1
    have representable : ¬(platform.wcharSize ≠ 2 ∧ 256 ^ platform.wcharSize ≤ point) := by
      rcases platform.wcharSize_cases with size | size <;> rw [size] <;> omega
    simp only [if_neg representable, bind_some, map_map]
    rw [ih (by simp only [length_cons] at *; omega), map_map]
    rfl

theorem utf8ToWide_eq_some_iff {units} :
    platform.utf8ToWide text = some units ↔ ∃ points, text = encodeText points ∧
      (∀ point ∈ points, IsScalar point) ∧ units = platform.encodeWide points := by
  rw [utf8ToWide, utf8ToWideWithin_eq (Nat.le_refl _), Option.map_eq_some_iff]
  simp only [utf8CodePoints_eq_some_iff, and_assoc]
  exact exists_congr fun points => and_congr_right fun _ => and_congr_right fun _ => eq_comm

/-- UTF-8 and wide text are inverse encodings of the same texts. -/
theorem utf8_wide_inverse (platform : Platform) :
    (∀ text, (platform.utf8ToWide text).isSome = true ↔ WellFormedUtf8 text) ∧
    (∀ text units, platform.utf8ToWide text = some units →
      platform.wideToUtf8 units = some text) ∧
    ∀ units, platform.Narrow units →
      ((platform.wideToUtf8 units).isSome = true ↔ platform.WellFormedWide units) ∧
      ∀ text, platform.wideToUtf8 units = some text → platform.utf8ToWide text = some units := by
  refine ⟨fun text => ?_, fun text units encoded => ?_, fun units narrow => ⟨?_, ?_⟩⟩
  · rw [Option.isSome_iff_exists]
    simp only [utf8ToWide_eq_some_iff]
    constructor
    · rintro ⟨_, points, isText, scalars, -⟩
      exact ⟨points, isText, scalars⟩
    · rintro ⟨points, isText, scalars⟩
      exact ⟨_, points, isText, scalars, rfl⟩
  · obtain ⟨points, rfl, scalars, rfl⟩ := utf8ToWide_eq_some_iff.mp encoded
    exact wideToUtf8_encodeWide scalars
  · rw [Option.isSome_iff_exists]
    constructor
    · rintro ⟨text, decoded⟩
      obtain ⟨points, isWide, scalars, -⟩ := wideToUtf8_eq_some narrow decoded
      exact ⟨points, isWide, scalars⟩
    · rintro ⟨points, rfl, scalars⟩
      exact ⟨_, wideToUtf8_encodeWide scalars⟩
  · intro text decoded
    obtain ⟨points, rfl, scalars, rfl⟩ := wideToUtf8_eq_some narrow decoded
    exact utf8ToWide_eq_some_iff.mpr ⟨points, rfl, scalars, rfl⟩

/-! ## Bounded decoding -/

/-- An argument of wide text: a null pointer, or a pointer to units that can be read as far as
its length says. -/
structure WideArgument (platform : Platform) where
  input : Option (List Nat)
  length : Int
  narrow : ∀ memory ∈ input, platform.Narrow memory
  counted : ∀ memory ∈ input, length ≤ memory.length
  terminated : ∀ memory ∈ input, length = sqlNts → 0 ∈ memory

def WideArgument.units (argument : WideArgument platform) : Option (List Nat) :=
  argument.input.bind fun memory =>
    if argument.length = sqlNts then some (memory.takeWhile (· ≠ 0))
    else if argument.length < 0 then none
    else some (memory.take argument.length.toNat)

theorem countUnits_eq (maxUnits units : Nat) (memory : List Nat) (few : units ≤ maxUnits) :
    countUnits maxUnits units memory =
      if units + (memory.takeWhile (· ≠ 0)).length ≤ maxUnits then
        some (units + (memory.takeWhile (· ≠ 0)).length)
      else none := by
  induction memory generalizing units with
  | nil => simp [countUnits, few]
  | cons unit rest ih =>
    rw [countUnits]
    by_cases isNul : unit = 0
    · simp [isNul, few]
    rw [if_neg isNul, takeWhile_cons_of_pos (by simpa using isNul), length_cons]
    by_cases full : units = maxUnits
    · rw [if_pos full, if_neg (by omega)]
    · rw [if_neg full, ih (units + 1) (by omega), Nat.add_assoc, Nat.add_comm 1]

theorem countUnits_take {maxUnits units memory}
    (counted : countUnits maxUnits 0 memory = some units) :
    memory.take units = memory.takeWhile (· ≠ 0) ∧
      (memory.takeWhile (· ≠ 0)).length ≤ maxUnits := by
  rw [countUnits_eq _ _ _ (Nat.zero_le _), Nat.zero_add] at counted
  split at counted
  · rename_i few
    obtain rfl := some.inj counted
    exact ⟨(prefix_iff_eq_take.mp (List.takeWhile_prefix _)).symm, few⟩
  · cases counted

theorem sqlwcharToUtf8_units (argument : WideArgument platform) (maxBytes : Nat) :
    match argument.units with
    | none => platform.sqlwcharToUtf8 argument.input argument.length =
          (platform.sqlwcharToUtf8Bounded argument.input argument.length maxBytes).text ∧
        (∀ text, platform.sqlwcharToUtf8 argument.input argument.length = some text → text = []) ∧
        (platform.sqlwcharToUtf8Bounded argument.input argument.length maxBytes).exceeded = false
    | some units => platform.Narrow units ∧
        platform.sqlwcharToUtf8 argument.input argument.length = platform.wideToUtf8 units ∧
        platform.sqlwcharToUtf8Bounded argument.input argument.length maxBytes =
          if maxBytes < units.length then ⟨none, true⟩
          else platform.decodeWideBytes (some maxBytes) units := by
  obtain ⟨input, length, narrow, counted, -⟩ := argument
  rcases input with _ | memory
  · simp [WideArgument.units, sqlwcharToUtf8, sqlwcharToUtf8Bounded]
  have isNarrow := narrow memory rfl
  have isCounted := counted memory rfl
  simp only [WideArgument.units, bind_some, sqlwcharToUtf8, sqlwcharToUtf8Bounded]
  split_ifs with terminated negative many
  · refine ⟨fun unit member => isNarrow unit (takeWhile_subset _ member), rfl, ?_⟩
    cases scanned : countUnits maxBytes 0 memory with
    | none =>
      rw [countUnits_eq _ _ _ (Nat.zero_le _), Nat.zero_add] at scanned
      split at scanned
      · cases scanned
      · rw [if_pos (by omega)]
    | some units =>
      obtain ⟨taken, few⟩ := countUnits_take scanned
      rw [if_neg (by omega)]
      simp only [taken]
  · simp
  all_goals
    have whole : (memory.take length.toNat).length = length.toNat := by
      rw [length_take]
      omega
    refine ⟨fun unit member => isNarrow unit (mem_of_mem_take member), rfl, ?_⟩
    rw [whole]
  · rw [if_pos many]
  · rw [if_neg many]

/-- The bounded reader agrees with the unbounded one wherever the text fits, and its flag is raised
only where not. -/
theorem sqlwcharToUtf8Bounded_agrees (argument : WideArgument platform) (maxBytes : Nat) :
    (∀ text, (platform.sqlwcharToUtf8Bounded argument.input argument.length maxBytes).text =
        some text ↔ platform.sqlwcharToUtf8 argument.input argument.length = some text ∧
          text.length ≤ maxBytes) ∧
    (∀ text, platform.sqlwcharToUtf8 argument.input argument.length = some text →
      maxBytes < text.length →
      platform.sqlwcharToUtf8Bounded argument.input argument.length maxBytes = ⟨none, true⟩) ∧
    ((platform.sqlwcharToUtf8Bounded argument.input argument.length maxBytes).exceeded = true →
      ∃ units, argument.units = some units ∧ (maxBytes < units.length ∨
        ∃ points left, units = platform.encodeWide points ++ left ∧
          (∀ point ∈ points, IsScalar point) ∧ maxBytes < (encodeText points).length)) := by
  have readers := sqlwcharToUtf8_units argument maxBytes
  cases isUnits : argument.units with
  | none =>
    rw [isUnits] at readers
    obtain ⟨same, isEmpty, fits⟩ := readers
    refine ⟨fun text => ?_, fun text decoded long => ?_, fun exceeded => ?_⟩
    · rw [← same]
      exact ⟨fun decoded => ⟨decoded, by simp [isEmpty text decoded]⟩, And.left⟩
    · simp [isEmpty text decoded] at long
    · rw [fits] at exceeded
      cases exceeded
  | some units =>
    rw [isUnits] at readers
    obtain ⟨narrow, unbounded, bounded⟩ := readers
    obtain ⟨points, left, rfl, scalars, decodes⟩ := decodeWideBytes_eq narrow
    have narrower : (platform.encodeWide points).length ≤ (encodeText points).length :=
      length_encodeWide_le points
    rw [unbounded, bounded, wideToUtf8, decodes, decodes]
    simp only [any_none, any_some, decide_eq_true_eq, Bool.false_eq_true, if_false]
    by_cases complete : left = []
    · subst complete
      simp only [List.append_nil, if_true, some.injEq]
      refine ⟨fun text => ?_, ?_, fun exceeded => ⟨_, rfl, ?_⟩⟩
      · split_ifs with long exceeds
        · simp only [false_iff, not_and]
          rintro rfl
          omega
        · simp only [false_iff, not_and]
          rintro rfl
          omega
        simp only [some.injEq]
        constructor
        · rintro rfl
          exact ⟨rfl, by omega⟩
        · exact And.left
      · rintro text rfl long
        simp [if_pos long]
      · split_ifs at exceeded with long exceeds
        · exact .inl long
        · exact .inr ⟨points, [], (List.append_nil _).symm, scalars, exceeds⟩
    · simp only [if_neg complete]
      refine ⟨fun text => ?_, fun text decoded => ?_, fun exceeded => ⟨_, rfl, ?_⟩⟩
      · split_ifs <;> simp
      · cases decoded
      split_ifs at exceeded with long exceeds
      · exact .inl long
      · exact .inr ⟨points, left, rfl, scalars, exceeds⟩

/-- A surrogate pair and its terminator, with a unit behind it that is not read. -/
def WideArgument.pair : WideArgument .lp64 where
  input := some [0xD83D, 0xDE00, 0, 65]
  length := sqlNts
  narrow := by simp [Narrow, lp64]
  counted := by decide
  terminated := by decide

example : WideArgument.pair.units = some [0xD83D, 0xDE00] ∧
    sqlwcharToUtf8Bounded .lp64 WideArgument.pair.input WideArgument.pair.length 4 =
      ⟨some [0xF0, 0x9F, 0x98, 0x80], false⟩ ∧
    sqlwcharToUtf8Bounded .lp64 WideArgument.pair.input WideArgument.pair.length 3 =
      ⟨none, true⟩ := by decide

end Platform

/-! ## Texts of diagnostics -/

/-- `ODBCHandle::valid_diagnostic_text`, which every posted text goes through. -/
def validDiagnosticText (message : Bytes) : Bytes := replaceInvalidUtf8 message

/-- Whatever bytes a server sends as a message, the posted text has a wide form, from which it comes
back: the scalar values of the message, with U+FFFD for each stray byte. -/
theorem validDiagnosticText_wide (platform : Platform) (message : Bytes) :
    ∃ marks, Scans message marks ∧
      platform.utf8ToWide (validDiagnosticText message) =
        some (platform.encodeWide (repairedPoints marks)) ∧
      platform.wideToUtf8 (platform.encodeWide (repairedPoints marks)) =
        some (validDiagnosticText message) := by
  obtain ⟨marks, scans⟩ := exists_scans message
  have repaired : validDiagnosticText message = encodeText (repairedPoints marks) :=
    replaceInvalidUtf8Within_eq scans (Nat.le_refl _)
  refine ⟨marks, scans, ?_, ?_⟩
  · exact Platform.utf8ToWide_eq_some_iff.mpr ⟨_, repaired, scans.scalars, rfl⟩
  · rw [repaired]
    exact Platform.wideToUtf8_encodeWide scans.scalars

end Odbcpp.Odbc
