import Odbcpp.Odbc.GetData

/-!
# The abstract delivery of a cell

What a piecewise read is for: the undelivered part of the cell is a list of indivisible groups of
units, and a call takes as many whole groups as its buffer holds. Each branch of `get_data` for
character and binary columns makes exactly this delivery, whichever offset it keeps.
-/

namespace Odbcpp.Odbc

open Foundation Util List

namespace Piece

variable (platform : Platform) (piece : Piece) {left : List (List Nat)}

def unitSize : Nat := if piece.target = .wchar then platform.wcharSize else 1

def terminatorUnits : Nat := if piece.target = .binary then 0 else 1

def bufferUnits : Nat := piece.length / piece.unitSize platform

def capacity : Nat := piece.bufferUnits platform - piece.terminatorUnits

def fits (left : List (List Nat)) : Bool :=
  left.flatten.length + piece.terminatorUnits ≤ piece.bufferUnits platform

/-- The whole groups that fit, and the terminator if there is room for one. -/
def expectedOutput (left : List (List Nat)) : Output where
  units := (takeWhole (piece.capacity platform) left).1.flatten
  unitSize := piece.unitSize platform
  terminated := piece.target ≠ .binary && 0 < piece.bufferUnits platform

def message : String := if piece.target = .binary then binaryTruncatedMessage else truncatedMessage

/-- The reply that delivers the next groups of `left`. -/
def expected (left : List (List Nat)) : Reply where
  ret := if piece.fits platform left then .success else .successWithInfo
  output := piece.expectedOutput platform left
  indicator := piece.storeIndicator (left.flatten.length * piece.unitSize platform)
  diagnostic := if piece.fits platform left then none else some ⟨"01004", piece.message⟩

variable (progress : GetDataState)

/-- The delivery as the branches end it: with the part of the value that was left. -/
def deliverGroups (left : List (List Nat)) : Reply × GetDataState :=
  piece.finish progress (piece.expectedOutput platform left) left.flatten.length
    (!piece.fits platform left) piece.message

theorem unitSize_pos : 0 < piece.unitSize platform := by
  unfold unitSize
  split
  · exact platform.wcharSize_pos
  · exact Nat.one_pos

theorem fits_iff : piece.fits platform left = true ↔
      left.flatten.length + piece.terminatorUnits ≤ piece.bufferUnits platform := by
  simp [fits]

theorem takeWhole_of_piece_fits (enough : piece.fits platform left = true) :
    takeWhole (piece.capacity platform) left = (left, []) := by
  have room := (piece.fits_iff platform).1 enough
  exact takeWhole_of_fits (by unfold capacity; omega)

variable (left : List (List Nat))

/-- A delivery stays within the buffer. -/
theorem size_expectedOutput_le : (piece.expectedOutput platform left).size ≤ piece.length := by
  have taken := length_takeWhole_le (piece.capacity platform) left
  have buffer : piece.bufferUnits platform * piece.unitSize platform ≤ piece.length :=
    Nat.div_mul_le_self _ _
  refine le_trans (Nat.mul_le_mul_right _ ?_) buffer
  simp only [expectedOutput, capacity, terminatorUnits] at taken ⊢
  by_cases binary : piece.target = .binary
  · simp [binary] at taken ⊢
    omega
  simp only [binary, ne_eq, not_false_eq_true, decide_true, Bool.true_and, decide_eq_true_eq,
    if_false] at taken ⊢
  split <;> omega

theorem fst_deliverGroups :
    (piece.deliverGroups platform progress left).1 = piece.expected platform left := by
  simp only [deliverGroups, finish, expected]
  cases piece.fits platform left <;> rfl

theorem snd_deliverGroups : (piece.deliverGroups platform progress left).2 =
      progress.saveOffset piece
        (if piece.fits platform left then .complete
        else .delivered (piece.offset + (piece.expectedOutput platform left).units.length)) := by
  simp only [deliverGroups, finish]
  cases piece.fits platform left <;> rfl

end Piece

/-- The number of units a branch copies from an offset, as one rounding. -/
theorem copyLength_eq (pairs : Bool) (capacity remaining : Nat) :
    copyLength pairs capacity remaining =
      if capacity < remaining then capacity - capacity % (if pairs then 2 else 1)
      else remaining := by
  cases pairs <;> simp only [copyLength, Bool.false_and, Bool.true_and, decide_eq_true_eq,
    Bool.false_eq_true, if_true, if_false] <;> split_ifs <;> omega

/-- Everything is copied exactly when it fits. -/
theorem copyLength_lt_iff (pairs : Bool) (capacity remaining : Nat) :
    copyLength pairs capacity remaining < remaining ↔ capacity < remaining := by
  rw [copyLength_eq]
  split <;> omega

/-- The units an offset and a rounded count select are the whole groups that fit. -/
theorem take_copyLength {pairs : Bool} {left : List (List Nat)}
    (uniform : ∀ group ∈ left, group.length = if pairs then 2 else 1) (capacity : Nat) :
    left.flatten.take (copyLength pairs capacity left.flatten.length) =
      (takeWhole capacity left).1.flatten := by
  rw [copyLength_eq, flatten_takeWhole_uniform (by split <;> omega) capacity uniform]

namespace Piece

variable {platform : Platform} {piece : Piece} {progress : GetDataState}
  {cell : Bytes} {delivered left : List (List Nat)}

/-- A byte offset selects from the numbers of the bytes. -/
theorem map_toNat_take_drop (count : Nat)
    (whole : cell.map UInt8.toNat = delivered.flatten ++ left.flatten) :
    ((cell.drop delivered.flatten.length).take count).map UInt8.toNat =
      left.flatten.take count := by
  rw [map_take, map_drop, whole, drop_left]

/-- More is to come when the copy stopped early or the terminator had no room. -/
theorem not_fits_iff (pairs : Bool) : (!piece.fits platform left) = true ↔
      copyLength pairs (piece.capacity platform) left.flatten.length < left.flatten.length ∨
        piece.bufferUnits platform < piece.terminatorUnits := by
  rw [copyLength_lt_iff, Bool.not_eq_eq_eq_not, Bool.not_true, ← Bool.not_eq_true, fits_iff,
    capacity]
  omega

variable (whole : cell.map UInt8.toNat = delivered.flatten ++ left.flatten)
  (offset : piece.offset = delivered.flatten.length)

include whole offset

theorem length_eq : cell.length = piece.offset + left.flatten.length := by
  rw [offset, ← length_append, ← whole, length_map]

theorem character_eq (target : piece.target = .char)
    (uniform : ∀ group ∈ left, group.length = if piece.sqlType.isBinary then 2 else 1) :
    piece.character progress cell = piece.deliverGroups platform progress left := by
  have size := length_eq whole offset
  have units : piece.bufferUnits platform = piece.length := by
    simp [bufferUnits, unitSize, target]
  have reserved : piece.terminatorUnits = 1 := by simp [terminatorUnits, target]
  have remaining : cell.length - piece.offset = left.flatten.length := by omega
  rw [character, if_neg (by omega)]
  simp only [deliverGroups, remaining]
  congr 1
  · simp only [expectedOutput, capacity, units, reserved, offset, map_toNat_take_drop _ whole,
      take_copyLength uniform]
    simp [unitSize, target]
  · rw [Bool.eq_iff_iff, not_fits_iff piece.sqlType.isBinary, capacity, units, reserved,
      Bool.or_eq_true, decide_eq_true_iff, decide_eq_true_iff]
    omega
  · simp [message, target]

theorem bytes_eq (target : piece.target = .binary) (uniform : ∀ group ∈ left, group.length = 1) :
    piece.bytes progress cell = piece.deliverGroups platform progress left := by
  have size := length_eq whole offset
  have units : piece.bufferUnits platform = piece.length := by
    simp [bufferUnits, unitSize, target]
  have reserved : piece.terminatorUnits = 0 := by simp [terminatorUnits, target]
  have remaining : cell.length - piece.offset = left.flatten.length := by omega
  have count : min piece.length left.flatten.length =
      copyLength false piece.length left.flatten.length := by simp [copyLength]
  rw [bytes, if_neg (by omega)]
  simp only [deliverGroups, remaining, count]
  congr 1
  · simp only [expectedOutput, capacity, units, reserved, offset, map_toNat_take_drop _ whole,
      @take_copyLength false left uniform, Nat.sub_zero]
    simp [unitSize, target]
  · rw [Bool.eq_iff_iff, not_fits_iff false, capacity, units, reserved, decide_eq_true_iff,
      Nat.sub_zero]
    omega
  · simp [message, target]

/-- The text of a binary cell as wide characters: a copy never stops at a surrogate,
because there are none. -/
theorem wideFormatted_eq (target : piece.target = .wchar) (plain : ∀ byte ∈ cell, byte ≤ 0x7f)
    (uniform : ∀ group ∈ left, group.length = if piece.sqlType.isBinary then 2 else 1) :
    piece.wideFormatted platform progress cell = piece.deliverGroups platform progress left := by
  have size : (cell.map UInt8.toNat).length = piece.offset + left.flatten.length := by
    rw [length_map, length_eq whole offset]
  have units : piece.length / platform.wcharSize = piece.bufferUnits platform := by
    simp [bufferUnits, unitSize, target]
  have reserved : piece.terminatorUnits = 1 := by simp [terminatorUnits, target]
  have remaining : (cell.map UInt8.toNat).length - piece.offset = left.flatten.length := by omega
  have small : ∀ index, (cell.map UInt8.toNat).getD index 0 < 0xd800 := by
    intro index
    rw [getD_eq_getElem?_getD, List.getElem?_map]
    cases found : cell[index]? with
    | none => simp
    | some byte =>
      have bytePlain := UInt8.le_iff_toNat_le.1 (plain byte (mem_of_getElem? found))
      simp only [Option.map_some, Option.getD_some]
      exact lt_of_le_of_lt bytePlain (by decide)
  simp only [wideFormatted, platform.utf8ToWide_ascii plain, remaining, units]
  rw [if_neg (by omega), if_neg (by have := small; grind)]
  simp only [deliverGroups]
  congr 1
  · simp only [expectedOutput, capacity, reserved, offset, whole, drop_left,
      take_copyLength uniform]
    simp [unitSize, target]
  · rw [Bool.eq_iff_iff, not_fits_iff piece.sqlType.isBinary, capacity, reserved,
      Bool.or_eq_true, decide_eq_true_iff, decide_eq_true_iff]
    omega
  · simp [message, target]

omit whole offset

end Piece

/-- The code points of the cell from here on are left. -/
structure WideGetDataState.Holds (platform : Platform) (cell : Bytes) (left : List (List Nat))
    (wide : WideGetDataState) : Prop where
  valid : wide.valid = true
  remaining : wide.remainingUnits = left.flatten.length
  unread : ∃ codePoints, utf8CodePoints (cell.drop wide.bytePosition) = some codePoints ∧
    platform.wideGroups codePoints = left

namespace Piece

variable {platform : Platform} {piece : Piece} {progress : GetDataState}
  {cell : Bytes} {left : List (List Nat)}

theorem scanWide_first {codePoints}
    (elsewhere : progress.column ≠ piece.column) (decoded : utf8CodePoints cell = some codePoints)
    (reportable : (platform.wideGroups codePoints).flatten.length ≤ platform.maxWideUnits) :
    ∃ wide, piece.scanWide platform progress cell = .ok wide ∧
      wide.Holds platform cell (platform.wideGroups codePoints) := by
  have counted := @platform.countWideUnits_of_decoded cell.length 0 cell codePoints le_rfl decoded
    (by omega)
  refine ⟨⟨0, (platform.wideGroups codePoints).flatten.length, true⟩, ?_, rfl, rfl, codePoints,
    decoded, rfl⟩
  simp [scanWide, elsewhere, counted]

/-- A later read goes on from the place kept. -/
theorem scanWide_again (here : progress.column = piece.column)
    (sameType : progress.targetType = piece.target)
    (holds : progress.wide.Holds platform cell left) :
    piece.scanWide platform progress cell = .ok progress.wide := by
  simp [scanWide, here, sameType, holds.valid]

/-- `SQL_C_WCHAR` delivers whole code points of the text and keeps the new place. -/
theorem wideText_eq {wide} (target : piece.target = .wchar)
    (scanned : piece.scanWide platform progress cell = .ok wide)
    (holds : wide.Holds platform cell left) : ∃ advanced : WideGetDataState,
      piece.wideText platform progress cell =
        piece.deliverGroups platform { progress with wide := advanced } left ∧
      advanced.Holds platform cell (takeWhole (piece.capacity platform) left).2 := by
  obtain ⟨codePoints, decoded, groups⟩ := holds.unread
  obtain ⟨unread, later, copied, suffix, laterDecoded, laterGroups⟩ :=
    @platform.copyWideUnits_of_decoded cell.length (piece.capacity platform) _ _
      (by simp) decoded
  rw [groups] at copied laterGroups
  have units : piece.length / platform.wcharSize = piece.bufferUnits platform := by
    simp [bufferUnits, unitSize, target]
  have capacity : piece.bufferUnits platform - 1 = piece.capacity platform := by
    simp [Piece.capacity, terminatorUnits, target]
  have split := congrArg (fun groups => groups.flatten.length)
    (takeWhole_append (piece.capacity platform) left)
  simp only [flatten_append, length_append] at split
  have place : cell.drop (cell.length - unread.length) = unread :=
    (suffix_iff_eq_drop.1 (suffix.trans (drop_suffix _ _))).symm
  refine ⟨⟨cell.length - unread.length,
    wide.remainingUnits - (takeWhole (piece.capacity platform) left).1.flatten.length, wide.valid⟩,
    ?_, holds.valid, ?_, later, ?_, laterGroups⟩
  · simp only [wideText, scanned, units, capacity, copied, Bool.not_true, Bool.false_eq_true,
      if_false, deliverGroups, holds.remaining]
    congr 1
    · simp [expectedOutput, unitSize, target]
    · have nothingLeft := takeWhole_left_eq_nil_iff (piece.capacity platform) left
      rw [← length_eq_zero_iff] at nothingLeft
      rw [Bool.eq_iff_iff, Bool.not_eq_eq_eq_not, Bool.not_true, ← Bool.not_eq_true, fits_iff,
        Bool.or_eq_true, decide_eq_true_iff, decide_eq_true_iff]
      simp only [Piece.capacity, terminatorUnits, target] at *
      simp only [reduceCtorEq, if_false] at *
      omega
    · simp [message, target]
  · simp only [holds.remaining]
    omega
  · rw [place]
    exact laterDecoded

end Piece
end Odbcpp.Odbc
