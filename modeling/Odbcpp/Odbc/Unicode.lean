import Odbcpp.Util.Utf8
import Odbcpp.Util.Hex
import Odbcpp.Foundation.Pieces

/-!
# Wide characters

`SQLWCHAR` holds UTF-16 or UTF-32 units, depending on its size on the platform.
`utf8_to_wide` of `odbc/unicode.cpp` converts a whole text. The two loops of
`get_data` over a text column are here as well: one counts the units of the cell,
the other copies code points while they fit.
-/

namespace Odbcpp.Odbc

open Foundation Util List

/-- The sizes the driver is compiled for. -/
structure Platform where
  /-- `sizeof(SQLWCHAR)`. -/
  wcharSize : Nat
  wcharSize_cases : wcharSize = 2 ∨ wcharSize = 4
  /-- The largest `SQLLEN`. -/
  sqllenMax : Nat
  sqllenMax_large : 2 ^ 31 - 1 ≤ sqllenMax
  /-- `sizeof(BOOKMARK)`. -/
  bookmarkSize : Nat
  bookmarkSize_cases : bookmarkSize = 4 ∨ bookmarkSize = 8
  /-- The largest `uintptr_t`. -/
  addressMax : Nat

namespace Platform

/-- A 64-bit host whose wide characters are UTF-16. -/
def lp64 : Platform where
  wcharSize := 2
  wcharSize_cases := .inl rfl
  sqllenMax := 2 ^ 63 - 1
  sqllenMax_large := by decide
  bookmarkSize := 8
  bookmarkSize_cases := .inr rfl
  addressMax := 2 ^ 64 - 1

variable (platform : Platform)

theorem wcharSize_pos : 0 < platform.wcharSize := by
  rcases platform.wcharSize_cases with size | size <;> omega

variable (codePoint : Nat)

def wideUnits : List Nat :=
  if platform.wcharSize = 2 ∧ 0xffff < codePoint then
    [0xd800 + (codePoint - 0x10000) / 1024, 0xdc00 + (codePoint - 0x10000) % 1024]
  else [codePoint]

def wideWidth : Nat :=
  if platform.wcharSize = 2 ∧ 0xffff < codePoint then 2 else 1

@[simp] theorem length_wideUnits :
    (platform.wideUnits codePoint).length = platform.wideWidth codePoint := by
  unfold wideUnits wideWidth
  split <;> rfl

theorem wideWidth_pos : 0 < platform.wideWidth codePoint := by
  unfold wideWidth
  split <;> omega

def maxWideUnits : Nat := platform.sqllenMax / platform.wcharSize

/-- The conversion loop, within a number of steps. -/
def utf8ToWideWithin : Nat → Bytes → Option (List Nat)
  | _, [] => some []
  | 0, _ :: _ => none
  | steps + 1, byte :: rest =>
    match nextUtf8CodePoint (byte :: rest) with
    | none => none
    | some (codePoint, unread) =>
      if platform.wcharSize ≠ 2 ∧ 256 ^ platform.wcharSize ≤ codePoint then none
      else (utf8ToWideWithin steps unread).map (platform.wideUnits codePoint ++ ·)

/-- `utf8_to_wide`: the units of a well-formed text. -/
def utf8ToWide (input : Bytes) : Option (List Nat) :=
  platform.utf8ToWideWithin input.length input

theorem utf8ToWide_ascii {text : Bytes} (plain : ∀ byte ∈ text, byte ≤ 0x7f) :
    platform.utf8ToWide text = some (text.map UInt8.toNat) := by
  unfold utf8ToWide
  induction text with
  | nil => rfl
  | cons byte rest ih =>
    have bytePlain := plain byte mem_cons_self
    have small : byte.toNat ≤ 0x7f := UInt8.le_iff_toNat_le.1 bytePlain
    have single : platform.wideUnits byte.toNat = [byte.toNat] := if_neg (by omega)
    have representable : ¬(platform.wcharSize ≠ 2 ∧ 256 ^ platform.wcharSize ≤ byte.toNat) := by
      rcases platform.wcharSize_cases with size | size <;> rw [size] <;> omega
    rw [length_cons, utf8ToWideWithin, nextUtf8CodePoint_ascii bytePlain]
    simp only [if_neg representable, single,
      ih fun other member => plain other (mem_cons_of_mem _ member)]
    rfl

inductive WideScan where
  | units (count : Nat)
  | invalid
  | tooLong
deriving DecidableEq

/-- The scan of a text cell: every code point must decode and the units counted so
far must stay within what an indicator can report. -/
def countWideUnits : Nat → Nat → Bytes → WideScan
  | _, units, [] => .units units
  | 0, _, _ :: _ => .invalid
  | steps + 1, units, byte :: rest =>
    match nextUtf8CodePoint (byte :: rest) with
    | none => .invalid
    | some (codePoint, unread) =>
      let width := platform.wideWidth codePoint
      if platform.maxWideUnits - width < units then .tooLong
      else countWideUnits steps (units + width) unread

/-- The copy loop: the units copied, what is still unread, and whether every code point met decoded.
`capacity` counts the units that still fit. -/
def copyWideUnits : Nat → Nat → Bytes → List Nat × Bytes × Bool
  | _, _, [] => ([], [], true)
  | 0, _, byte :: rest => ([], byte :: rest, true)
  | steps + 1, capacity, byte :: rest =>
    if capacity = 0 then ([], byte :: rest, true)
    else match nextUtf8CodePoint (byte :: rest) with
      | none => ([], byte :: rest, false)
      | some (codePoint, unread) =>
        let width := platform.wideWidth codePoint
        if capacity < width then ([], byte :: rest, true)
        else
          let (units, left, decoded) := copyWideUnits steps (capacity - width) unread
          (platform.wideUnits codePoint ++ units, left, decoded)

def wideGroups (codePoints : List Nat) : List (List Nat) := codePoints.map platform.wideUnits

/-- A well-formed text within the limit is counted. -/
theorem countWideUnits_of_decoded {steps units input codePoints}
    (enough : input.length ≤ steps) (decoded : utf8CodePoints input = some codePoints)
    (fits : units + (platform.wideGroups codePoints).flatten.length ≤ platform.maxWideUnits) :
    platform.countWideUnits steps units input =
      .units (units + (platform.wideGroups codePoints).flatten.length) := by
  induction steps generalizing units input codePoints with
  | zero =>
    obtain rfl := length_eq_zero_iff.1 (Nat.le_zero.1 enough)
    cases decoded
    rfl
  | succ steps ih =>
    match input with
    | [] =>
      cases decoded
      rfl
    | byte :: rest =>
      rw [utf8CodePoints_eq_next (cons_ne_nil byte rest), Option.bind_eq_some_iff] at decoded
      obtain ⟨⟨codePoint, unread⟩, next, others⟩ := decoded
      obtain ⟨laterPoints, laterDecoded, rfl⟩ := Option.map_eq_some_iff.1 others
      have shorter := nextUtf8CodePoint_shorter next
      simp only [wideGroups, map_cons, flatten_cons, length_append,
        length_wideUnits] at fits ⊢
      simp only [countWideUnits, next]
      rw [if_neg (by omega), ih (by simp only [length_cons] at *; omega) laterDecoded
        (by simp only [wideGroups]; omega), wideGroups, Nat.add_assoc]

theorem decoded_of_countWideUnits {steps units count input}
    (counted : platform.countWideUnits steps units input = .units count) :
    ∃ codePoints, utf8CodePoints input = some codePoints := by
  induction steps generalizing units input with
  | zero =>
    match input with
    | [] => exact ⟨[], rfl⟩
    | _ :: _ => simp [countWideUnits] at counted
  | succ steps ih =>
    match input with
    | [] => exact ⟨[], rfl⟩
    | byte :: rest =>
      rw [utf8CodePoints_eq_next (cons_ne_nil byte rest)]
      simp only [countWideUnits] at counted
      split at counted
      · cases counted
      rename_i codePoint unread next
      split at counted
      · cases counted
      · obtain ⟨laterPoints, laterDecoded⟩ := ih counted
        exact ⟨codePoint :: laterPoints, by rw [next]; simp [laterDecoded]⟩

/-- The copy loop takes the whole code points that fit, and stops where the rest of
the text starts. -/
theorem copyWideUnits_of_decoded {steps capacity input codePoints}
    (enough : input.length ≤ steps) (decoded : utf8CodePoints input = some codePoints) :
    ∃ unread later, platform.copyWideUnits steps capacity input =
        ((takeWhole capacity (platform.wideGroups codePoints)).1.flatten, unread, true) ∧
      unread <:+ input ∧ utf8CodePoints unread = some later ∧
      platform.wideGroups later = (takeWhole capacity (platform.wideGroups codePoints)).2 := by
  induction steps generalizing capacity input codePoints with
  | zero =>
    obtain rfl := length_eq_zero_iff.1 (Nat.le_zero.1 enough)
    cases decoded
    exact ⟨[], [], rfl, suffix_rfl, rfl, rfl⟩
  | succ steps ih =>
    match input with
    | [] =>
      cases decoded
      exact ⟨[], [], rfl, suffix_rfl, rfl, rfl⟩
    | byte :: rest =>
      have whole := decoded
      rw [utf8CodePoints_eq_next (cons_ne_nil byte rest), Option.bind_eq_some_iff] at decoded
      obtain ⟨⟨codePoint, unread⟩, next, others⟩ := decoded
      obtain ⟨laterPoints, laterDecoded, rfl⟩ := Option.map_eq_some_iff.1 others
      have shorter := nextUtf8CodePoint_shorter next
      have wide := platform.wideWidth_pos codePoint
      by_cases fits : platform.wideWidth codePoint ≤ capacity
      · obtain ⟨left, later, copied, suffix, leftDecoded, leftGroups⟩ :=
          @ih (capacity - platform.wideWidth codePoint) unread laterPoints
            (by simp only [length_cons] at *; omega) laterDecoded
        refine ⟨left, later, ?_, suffix.trans (nextUtf8CodePoint_suffix next), leftDecoded, ?_⟩
        · simp only [copyWideUnits, next, if_neg (show ¬capacity = 0 by omega),
            if_neg (show ¬capacity < platform.wideWidth codePoint by omega), copied]
          simp [wideGroups, takeWhole, fits]
        · simpa [wideGroups, takeWhole, fits] using leftGroups
      refine ⟨byte :: rest, codePoint :: laterPoints, ?_, suffix_rfl, whole, ?_⟩
      · simp only [copyWideUnits, next,
          if_pos (show capacity < platform.wideWidth codePoint by omega)]
        simp [wideGroups, takeWhole, fits]
      · simp [wideGroups, takeWhole, fits]

end Platform

theorem hexDigit_le {value : UInt8} (small : value.toNat < 16) : hexDigit value ≤ 0x7f := by
  have digits : ∀ number < 16, hexDigit (.ofNat number) ≤ 0x7f := by decide
  simpa using digits value.toNat small

variable (value : Bytes)

theorem encodeHex_ascii : ∀ byte ∈ encodeHex value, byte ≤ 0x7f := by
  intro byte member
  obtain ⟨source, _, member⟩ := mem_flatMap.1 member
  have high : (source >>> 4).toNat < 16 := by
    have bounded := source.toNat_lt
    have shifted : (source >>> 4).toNat = source.toNat / 16 := by
      simp [UInt8.toNat_shiftRight, Nat.shiftRight_eq_div_pow]
    omega
  have low : (source &&& 15).toNat < 16 := by
    rw [UInt8.toNat_and]
    exact Nat.and_lt_two_pow source.toNat (show (15 : UInt8).toNat < 2 ^ 4 by decide)
  rcases mem_pair.1 member with rfl | rfl
  · exact hexDigit_le high
  · exact hexDigit_le low

def hexGroups : List (List Nat) :=
  value.map fun (byte : UInt8) => [(hexDigit (byte >>> 4)).toNat, (hexDigit (byte &&& 15)).toNat]

def byteGroups : List (List Nat) := value.map fun (byte : UInt8) => [byte.toNat]

theorem flatten_byteGroups : (byteGroups value).flatten = value.map UInt8.toNat := by
  rw [byteGroups, ← flatMap_def, ← map_eq_flatMap]

theorem length_of_mem_hexGroups {value group}
    (member : group ∈ hexGroups value) : group.length = 2 := by
  obtain ⟨byte, _, rfl⟩ := mem_map.1 member
  rfl

theorem length_of_mem_byteGroups {value group}
    (member : group ∈ byteGroups value) : group.length = 1 := by
  obtain ⟨byte, _, rfl⟩ := mem_map.1 member
  rfl

theorem flatten_hexGroups : (hexGroups value).flatten = (encodeHex value).map UInt8.toNat := by
  simp [hexGroups, encodeHex, List.flatMap, map_flatten, Function.comp_def]

end Odbcpp.Odbc
