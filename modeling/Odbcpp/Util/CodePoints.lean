import Odbcpp.Util.Utf8

/-!
# Texts and code points

A well-formed text is the encoding of its code points: the decoder accepts exactly the shortest
encodings of Unicode scalar values, one after another.
-/

namespace Odbcpp.Util

open Foundation List

variable {input : Bytes} {marks : List (Option Nat)} {points : List Nat}
  {bits codePoint minimum : Nat} {first : UInt8}

def IsScalar (codePoint : Nat) : Prop :=
  codePoint ≤ 0x10ffff ∧ ¬(0xd800 ≤ codePoint ∧ codePoint ≤ 0xdfff)

def utf8Encode (codePoint : Nat) : Bytes :=
  if codePoint < 0x80 then [.ofNat codePoint]
  else if codePoint < 0x800 then
    [.ofNat (0xc0 + codePoint / 64), .ofNat (0x80 + codePoint % 64)]
  else if codePoint < 0x10000 then
    [.ofNat (0xe0 + codePoint / 4096), .ofNat (0x80 + codePoint / 64 % 64),
      .ofNat (0x80 + codePoint % 64)]
  else
    [.ofNat (0xf0 + codePoint / 262144), .ofNat (0x80 + codePoint / 4096 % 64),
      .ofNat (0x80 + codePoint / 64 % 64), .ofNat (0x80 + codePoint % 64)]

def encodeText (points : List Nat) : Bytes := points.flatMap utf8Encode

def WellFormedUtf8 (text : Bytes) : Prop :=
  ∃ points, text = encodeText points ∧ ∀ point ∈ points, IsScalar point

@[simp] theorem encodeText_nil : encodeText [] = [] := rfl

@[simp] theorem encodeText_cons (point : Nat) (points : List Nat) :
    encodeText (point :: points) = utf8Encode point ++ encodeText points := rfl

@[simp] theorem encodeText_append (first second : List Nat) :
    encodeText (first ++ second) = encodeText first ++ encodeText second := by
  simp [encodeText]

/-! ## The bits of a byte -/

theorem toNat_marked : ∀ byte : UInt8,
    (byte &&& 0xe0 = 0xc0 →
      byte.toNat = 0xc0 + (byte &&& 0x1f).toNat ∧ (byte &&& 0x1f).toNat < 32) ∧
    (byte &&& 0xf0 = 0xe0 →
      byte.toNat = 0xe0 + (byte &&& 0x0f).toNat ∧ (byte &&& 0x0f).toNat < 16) ∧
    (byte &&& 0xf8 = 0xf0 →
      byte.toNat = 0xf0 + (byte &&& 0x07).toNat ∧ (byte &&& 0x07).toNat < 8) ∧
    (byte &&& 0xc0 = 0x80 →
      byte.toNat = 0x80 + (byte &&& 0x3f).toNat ∧ (byte &&& 0x3f).toNat < 64) :=
  forall_byte (by decide +kernel)

/-- A payload behind its marker is read back. -/
theorem marked_ofNat : (∀ bits < 32, leadByte (.ofNat (0xc0 + bits)) = some (1, bits, 0x80)) ∧
    (∀ bits < 16, leadByte (.ofNat (0xe0 + bits)) = some (2, bits, 0x800)) ∧
    (∀ bits < 8, leadByte (.ofNat (0xf0 + bits)) = some (3, bits, 0x10000)) ∧
    ∀ bits < 64, UInt8.ofNat (0x80 + bits) &&& 0xc0 = 0x80 ∧
      (UInt8.ofNat (0x80 + bits) &&& 0x3f).toNat = bits := by
  decide +kernel

theorem ofNat_eq_byte (byte : UInt8) {value : Nat} (same : byte.toNat = value) :
    UInt8.ofNat value = byte := by
  rw [← same, UInt8.ofNat_toNat]

/-! ## Decoding and encoding -/

theorem continueCodePoint_cons_eq_some {value : Nat} {byte : UInt8} {rest : Bytes}
    (continued : continueCodePoint bits (byte :: rest) = some value) :
    ∃ low, byte.toNat = 0x80 + low ∧ low < 64 ∧
      continueCodePoint (bits * 64 + low) rest = some value := by
  rw [continueCodePoint] at continued
  split at continued
  · rename_i isContinuation
    obtain ⟨isByte, small⟩ := (toNat_marked byte).2.2.2 isContinuation
    exact ⟨_, isByte, small, continued⟩
  · cases continued

theorem continueCodePoint_ofNat {low : Nat} (small : low < 64) (rest : Bytes) :
    continueCodePoint bits (.ofNat (0x80 + low) :: rest) =
      continueCodePoint (bits * 64 + low) rest := by
  obtain ⟨isContinuation, isLow⟩ := marked_ofNat.2.2.2 low small
  rw [continueCodePoint, if_pos isContinuation, isLow]

theorem leadByte_eq_some {count : Nat} (found : leadByte first = some (count, bits, minimum)) :
    (count = 1 ∧ minimum = 0x80 ∧ first.toNat = 0xc0 + bits ∧ bits < 32) ∨
      (count = 2 ∧ minimum = 0x800 ∧ first.toNat = 0xe0 + bits ∧ bits < 16) ∨
      (count = 3 ∧ minimum = 0x10000 ∧ first.toNat = 0xf0 + bits ∧ bits < 8) := by
  unfold leadByte at found
  split_ifs at found with two three four
  · cases found
    exact .inl ⟨rfl, rfl, (toNat_marked first).1 two⟩
  · cases found
    exact .inr (.inl ⟨rfl, rfl, (toNat_marked first).2.1 three⟩)
  · cases found
    exact .inr (.inr ⟨rfl, rfl, (toNat_marked first).2.2.1 four⟩)

theorem nextUtf8CodePoint_eq_some {unread : Bytes}
    (decoded : nextUtf8CodePoint input = some (codePoint, unread)) :
    input = utf8Encode codePoint ++ unread ∧ IsScalar codePoint := by
  rcases input with _ | ⟨first, rest⟩
  · cases decoded
  rw [nextUtf8CodePoint] at decoded
  split at decoded
  · rename_i plain
    obtain ⟨rfl, rfl⟩ := Prod.mk.inj (Option.some.inj decoded)
    have small : first.toNat < 0x80 := by
      have := UInt8.le_iff_toNat_le.mp plain
      simp at this
      omega
    exact ⟨by simp [utf8Encode, small], by unfold IsScalar; omega⟩
  split at decoded
  · cases decoded
  rename_i count bits minimum found
  split at decoded
  · cases decoded
  rename_i long
  split at decoded
  · cases decoded
  rename_i value continued
  split at decoded
  · cases decoded
  rename_i allowed
  obtain ⟨rfl, rfl⟩ := Prod.mk.inj (Option.some.inj decoded)
  simp only [not_or, Nat.not_lt] at allowed
  refine ⟨?_, allowed.2⟩
  -- The number of continuation bytes decides the shape of the encoding.
  rcases leadByte_eq_some found with ⟨rfl, rfl, isFirst, small⟩ |
    ⟨rfl, rfl, isFirst, small⟩ | ⟨rfl, rfl, isFirst, small⟩
  · rcases rest with - | ⟨second, rest⟩
    · simp at long
    obtain ⟨low, isSecond, isLow, isValue⟩ := continueCodePoint_cons_eq_some continued
    obtain rfl := Option.some.inj isValue
    rw [utf8Encode, if_neg (by omega), if_pos (by omega),
      ofNat_eq_byte first (by omega), ofNat_eq_byte second (by omega)]
    rfl
  · rcases rest with - | ⟨second, - | ⟨third, rest⟩⟩
    · simp at long
    · simp at long
    obtain ⟨high, isSecond, isHigh, continued⟩ :=
      continueCodePoint_cons_eq_some continued
    obtain ⟨low, isThird, isLow, isValue⟩ := continueCodePoint_cons_eq_some continued
    obtain rfl := Option.some.inj isValue
    rw [utf8Encode, if_neg (by omega), if_neg (by omega), if_pos (by omega),
      ofNat_eq_byte first (by omega), ofNat_eq_byte second (by omega),
      ofNat_eq_byte third (by omega)]
    rfl
  · rcases rest with - | ⟨second, - | ⟨third, - | ⟨fourth, rest⟩⟩⟩
    · simp at long
    · simp at long
    · simp at long
    obtain ⟨high, isSecond, isHigh, continued⟩ :=
      continueCodePoint_cons_eq_some continued
    obtain ⟨middle, isThird, isMiddle, continued⟩ :=
      continueCodePoint_cons_eq_some continued
    obtain ⟨low, isFourth, isLow, isValue⟩ := continueCodePoint_cons_eq_some continued
    obtain rfl := Option.some.inj isValue
    rw [utf8Encode, if_neg (by omega), if_neg (by omega), if_neg (by omega),
      ofNat_eq_byte first (by omega), ofNat_eq_byte second (by omega),
      ofNat_eq_byte third (by omega), ofNat_eq_byte fourth (by omega)]
    rfl

theorem nextUtf8CodePoint_lead {following rest : Bytes}
    (found : leadByte first = some (following.length, bits, minimum))
    (beyond : 0x7f < first.toNat) (continued : continueCodePoint bits following = some codePoint)
    (scalar : IsScalar codePoint) (shortest : minimum ≤ codePoint) :
    nextUtf8CodePoint (first :: following ++ rest) = some (codePoint, rest) := by
  have notPlain : ¬first ≤ 0x7f := by
    rw [UInt8.le_iff_toNat_le]
    simp
    omega
  have long : ¬(following ++ rest).length < following.length := by simp
  have allowed : ¬(codePoint < minimum ∨ 0x10ffff < codePoint ∨
      (0xd800 ≤ codePoint ∧ codePoint ≤ 0xdfff)) := by
    unfold IsScalar at scalar
    omega
  simp only [cons_append, nextUtf8CodePoint, if_neg notPlain, found, if_neg long,
    take_left, continued, if_neg allowed, drop_left]

theorem nextUtf8CodePoint_encode (scalar : IsScalar codePoint) (rest : Bytes) :
    nextUtf8CodePoint (utf8Encode codePoint ++ rest) = some (codePoint, rest) := by
  obtain ⟨atMost, -⟩ := id scalar
  unfold utf8Encode
  split_ifs with one two three
  · have isByte : (UInt8.ofNat codePoint).toNat = codePoint := by
      rw [UInt8.toNat_ofNat']
      omega
    rw [singleton_append, nextUtf8CodePoint_ascii, isByte]
    rw [UInt8.le_iff_toNat_le, isByte]
    simp
    omega
  · refine nextUtf8CodePoint_lead (marked_ofNat.1 _ (by omega)) ?_ ?_ scalar (by omega)
    · rw [UInt8.toNat_ofNat']
      omega
    rw [continueCodePoint_ofNat (by omega), continueCodePoint]
    congr 1
    omega
  · refine nextUtf8CodePoint_lead (marked_ofNat.2.1 _ (by omega)) ?_ ?_ scalar (by omega)
    · rw [UInt8.toNat_ofNat']
      omega
    rw [continueCodePoint_ofNat (by omega), continueCodePoint_ofNat (by omega), continueCodePoint]
    congr 1
    omega
  · refine nextUtf8CodePoint_lead (marked_ofNat.2.2.1 _ (by omega)) ?_ ?_ scalar (by omega)
    · rw [UInt8.toNat_ofNat']
      omega
    rw [continueCodePoint_ofNat (by omega), continueCodePoint_ofNat (by omega),
      continueCodePoint_ofNat (by omega), continueCodePoint]
    congr 1
    omega

theorem utf8Encode_ne_nil (codePoint : Nat) : utf8Encode codePoint ≠ [] := by
  unfold utf8Encode
  split_ifs <;> simp

theorem utf8CodePoints_eq_some_iff : utf8CodePoints input = some points ↔
      input = encodeText points ∧ ∀ point ∈ points, IsScalar point := by
  constructor
  · intro decoded
    induction points generalizing input with
    | nil =>
      by_cases isEmpty : input = []
      · exact ⟨isEmpty, by simp⟩
      rw [utf8CodePoints_eq_next isEmpty] at decoded
      obtain ⟨_, -, isNil⟩ := Option.bind_eq_some_iff.mp decoded
      simp at isNil
    | cons point points ih =>
      have nonempty : input ≠ [] := by
        rintro rfl
        cases decoded
      rw [utf8CodePoints_eq_next nonempty] at decoded
      obtain ⟨⟨first, unread⟩, isFirst, isRest⟩ := Option.bind_eq_some_iff.mp decoded
      obtain ⟨others, isOthers, isPoints⟩ := Option.map_eq_some_iff.mp isRest
      obtain ⟨rfl, rfl⟩ := List.cons.inj isPoints
      obtain ⟨rfl, scalar⟩ := nextUtf8CodePoint_eq_some isFirst
      obtain ⟨rfl, scalars⟩ := ih isOthers
      exact ⟨rfl, by simpa using ⟨scalar, scalars⟩⟩
  · rintro ⟨rfl, scalars⟩
    induction points with
    | nil => rfl
    | cons point points ih =>
      obtain ⟨scalar, others⟩ := forall_mem_cons.mp scalars
      rw [encodeText_cons, utf8CodePoints_eq_next (by simp [utf8Encode_ne_nil]),
        nextUtf8CodePoint_encode scalar, Option.bind_some]
      exact congrArg (Option.map (point :: ·)) (ih others)

theorem utf8CodePointCount_isSome : (utf8CodePointCount input).isSome = true ↔
    ∃ points, input = encodeText points ∧ ∀ point ∈ points, IsScalar point := by
  rw [utf8CodePointCount, Option.isSome_map, Option.isSome_iff_exists]
  simp only [utf8CodePoints_eq_some_iff]

/-! ## Repair -/

/-- What a scan finds from the start of a text on: the scalar value encoded there, or a byte
that begins none and is passed over. -/
inductive Scans : Bytes → List (Option Nat) → Prop where
  | done : Scans [] []
  | scalar {point rest marks} (scalar : IsScalar point)
      (scans : Scans rest marks) : Scans (utf8Encode point ++ rest) (some point :: marks)
  | stray {byte rest marks}
      (begins : ∀ point more, IsScalar point → byte :: rest ≠ utf8Encode point ++ more)
      (scans : Scans rest marks) : Scans (byte :: rest) (none :: marks)

/-- The code points of the repaired text: U+FFFD for each stray byte. -/
def repairedPoints (marks : List (Option Nat)) : List Nat := marks.map (·.getD 0xfffd)

theorem nextUtf8CodePoint_eq_none_iff : nextUtf8CodePoint input = none ↔
    ∀ point more, IsScalar point → input ≠ utf8Encode point ++ more := by
  constructor
  · rintro undecoded point more scalar rfl
    rw [nextUtf8CodePoint_encode scalar] at undecoded
    cases undecoded
  intro begins
  cases next : nextUtf8CodePoint input with
  | none => rfl
  | some found =>
    obtain ⟨isInput, scalar⟩ := nextUtf8CodePoint_eq_some next
    exact absurd isInput (begins found.1 found.2 scalar)

theorem exists_scans (input : Bytes) : ∃ marks, Scans input marks := by
  induction isLength : input.length using Nat.strong_induction_on generalizing input with
  | _ size ih =>
    rcases input with _ | ⟨byte, rest⟩
    · exact ⟨[], .done⟩
    cases next : nextUtf8CodePoint (byte :: rest) with
    | none =>
      have shorter : rest.length < size := by rw [← isLength, length_cons]; omega
      obtain ⟨marks, scans⟩ := ih rest.length shorter rest rfl
      exact ⟨_, .stray (nextUtf8CodePoint_eq_none_iff.mp next) scans⟩
    | some found =>
      obtain ⟨point, unread⟩ := found
      have shorter := nextUtf8CodePoint_shorter next
      obtain ⟨isInput, scalar⟩ := nextUtf8CodePoint_eq_some next
      obtain ⟨marks, scans⟩ := ih unread.length (by omega) unread rfl
      exact ⟨some point :: marks, isInput ▸ .scalar scalar scans⟩

/-- The repair loop replaces exactly the stray bytes. -/
theorem replaceInvalidUtf8Within_eq {steps : Nat} (scans : Scans input marks)
    (enough : input.length ≤ steps) :
    replaceInvalidUtf8Within steps input = encodeText (repairedPoints marks) := by
  induction scans generalizing steps with
  | done => cases steps <;> rfl
  | @scalar point rest marks scalar scans ih =>
    have next := nextUtf8CodePoint_encode scalar rest
    obtain ⟨byte, more, isCons⟩ := exists_cons_of_ne_nil (utf8Encode_ne_nil point)
    have taken : (utf8Encode point ++ rest).take
        ((utf8Encode point ++ rest).length - rest.length) = utf8Encode point := by simp
    rw [isCons, cons_append] at next enough taken ⊢
    obtain ⟨steps, rfl⟩ : ∃ fewer, steps = fewer + 1 :=
      ⟨steps - 1, by rw [length_cons] at enough; omega⟩
    simp only [replaceInvalidUtf8Within, next]
    rw [taken, ih (by simp only [length_cons, length_append] at enough; omega), ← isCons]
    rfl
  | @stray byte rest marks begins scans ih =>
    obtain ⟨steps, rfl⟩ : ∃ fewer, steps = fewer + 1 :=
      ⟨steps - 1, by rw [length_cons] at enough; omega⟩
    simp only [replaceInvalidUtf8Within, nextUtf8CodePoint_eq_none_iff.mpr begins]
    rw [ih (by rw [length_cons] at enough; omega)]
    rfl

theorem Scans.scalars (scans : Scans input marks) :
    ∀ point ∈ repairedPoints marks, IsScalar point := by
  induction scans with
  | done => simp [repairedPoints]
  | scalar scalar scans ih => exact forall_mem_cons.mpr ⟨scalar, ih⟩
  | stray begins scans ih => exact forall_mem_cons.mpr ⟨by unfold IsScalar; decide, ih⟩

theorem Scans.unique {input marks others}
    (scans : Scans input marks) (scansToo : Scans input others) : others = marks := by
  induction scans generalizing others with
  | done =>
    generalize isInput : ([] : Bytes) = input at scansToo
    cases scansToo with
    | done => rfl
    | scalar => exact absurd (append_eq_nil_iff.mp isInput.symm).1 (utf8Encode_ne_nil _)
    | stray => cases isInput
  | @scalar point rest marks scalar scans ih =>
    generalize isInput : utf8Encode point ++ rest = input at scansToo
    cases scansToo with
    | done => exact absurd (append_eq_nil_iff.mp isInput).1 (utf8Encode_ne_nil _)
    | @scalar other unread others isScalar scansToo =>
      have next := nextUtf8CodePoint_encode scalar rest
      rw [isInput, nextUtf8CodePoint_encode isScalar] at next
      obtain ⟨rfl, rfl⟩ := Prod.mk.inj (Option.some.inj next)
      rw [ih scansToo]
    | stray begins => exact absurd isInput.symm (begins _ _ scalar)
  | @stray byte rest marks begins scans ih =>
    generalize isInput : byte :: rest = input at scansToo begins
    cases scansToo with
    | done => cases isInput
    | scalar isScalar => exact absurd rfl (begins _ _ isScalar)
    | stray _ scansToo =>
      obtain ⟨-, rfl⟩ := List.cons.inj isInput
      rw [ih scansToo]

/-- A well-formed text has no stray byte. -/
theorem scans_encodeText (scalars : ∀ point ∈ points, IsScalar point) :
    Scans (encodeText points) (points.map some) := by
  induction points with
  | nil => exact .done
  | cons point points ih =>
    obtain ⟨scalar, others⟩ := forall_mem_cons.mp scalars
    exact .scalar scalar (ih others)

theorem replaceInvalidUtf8_wellFormed (wellFormed : WellFormedUtf8 input) :
    replaceInvalidUtf8 input = input := by
  obtain ⟨points, rfl, scalars⟩ := wellFormed
  rw [replaceInvalidUtf8, replaceInvalidUtf8Within_eq (scans_encodeText scalars) (Nat.le_refl _)]
  simp [repairedPoints]

/-- The output of the repair is well formed, keeps every scalar value the scan finds and has one
U+FFFD for each stray byte; it is the input exactly when that is well formed, and repairing again
changes nothing. -/
theorem replaceInvalidUtf8_repairs (input : Bytes) :
    (∃ marks, Scans input marks ∧ (∀ others, Scans input others → others = marks) ∧
      utf8CodePoints (replaceInvalidUtf8 input) = some (repairedPoints marks)) ∧
    (∀ steps, input.length ≤ steps →
      replaceInvalidUtf8Within steps input = replaceInvalidUtf8 input) ∧
    WellFormedUtf8 (replaceInvalidUtf8 input) ∧
    (replaceInvalidUtf8 input = input ↔ WellFormedUtf8 input) ∧
    replaceInvalidUtf8 (replaceInvalidUtf8 input) = replaceInvalidUtf8 input := by
  obtain ⟨marks, scans⟩ := exists_scans input
  have repaired : replaceInvalidUtf8 input = encodeText (repairedPoints marks) :=
    replaceInvalidUtf8Within_eq scans (Nat.le_refl _)
  have wellFormed : WellFormedUtf8 (replaceInvalidUtf8 input) := ⟨_, repaired, scans.scalars⟩
  refine ⟨⟨marks, scans, fun others => scans.unique, ?_⟩, fun steps enough => ?_, wellFormed,
    ⟨fun same => same ▸ wellFormed, replaceInvalidUtf8_wellFormed⟩,
    replaceInvalidUtf8_wellFormed wellFormed⟩
  · exact utf8CodePoints_eq_some_iff.mpr ⟨repaired, scans.scalars⟩
  · rw [repaired, replaceInvalidUtf8Within_eq scans enough]

end Odbcpp.Util
