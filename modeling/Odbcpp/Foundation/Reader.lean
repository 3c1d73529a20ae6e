import Odbcpp.Foundation.Bytes

/-!
# Sequential readers over byte strings

A `Reader` consumes a prefix of its input and fails or returns a value and the unread suffix. `Reads
reader bytes value` says that the reader, started on `bytes` followed by anything, consumes exactly
`bytes` and returns `value`; the rules build such facts the way readers are built.
-/

namespace Odbcpp.Foundation

open List

/-- A reader with errors in `ε`: the state is the unread input. -/
abbrev Reader (ε α : Type) := StateT Bytes (Except ε) α

namespace Reader

variable {ε α β : Type}

variable {pieces : List Bytes} {values : List α} {first item reader : Reader ε α} {middle : α}
  {second : α → Reader ε β} {bytes : Bytes}

variable (failure : ε)

/-- Consume exactly `count` bytes. -/
def take (count : Nat) : Reader ε Bytes := fun input =>
  if count ≤ input.length then .ok (input.take count, input.drop count) else .error failure

def unsigned (width : Nat) : Reader ε Nat := do
  return ofBigEndian (← take failure width)

def byte : Reader ε UInt8
  | [] => .error failure
  | head :: rest => .ok (head, rest)

/-- The bytes before the first NUL; the NUL is consumed and not returned. -/
def cstring : Reader ε Bytes := fun input =>
  match input.span (· != 0) with
  | (text, _ :: rest) => .ok (text, rest)
  | (_, []) => .error failure

def many (item : Reader ε α) : Nat → Reader ε (List α)
  | 0 => pure []
  | count + 1 => do
    let head ← item
    let tail ← many item count
    return head :: tail

/-- Items up to the end of the input, at most `bound` of them. -/
def untilEnd (item : Reader ε α) (failure : ε) : Nat → Bytes → Except ε (List α)
  | _, [] => .ok []
  | 0, _ :: _ => .error failure
  | bound + 1, head :: tail => do
    let (value, rest) ← item.run (head :: tail)
    let values ← untilEnd item failure bound rest
    return value :: values

def runAll (reader : Reader ε α) (failure : ε) (input : Bytes) : Except ε α :=
  match reader.run input with
  | .ok (value, []) => .ok value
  | .ok (_, _ :: _) => .error failure
  | .error error => .error error

/-- `reader` consumes exactly `bytes` and yields `value`, whatever follows. -/
def Reads (reader : Reader ε α) (bytes : Bytes) (value : α) : Prop :=
  ∀ rest, reader.run (bytes ++ rest) = .ok (value, rest)

theorem Reads.pure (value : α) : Reads (Pure.pure value : Reader ε α) [] value :=
  fun _ => rfl

/-- Readers compose on concatenated inputs. -/
theorem Reads.bind {front back value} (reads : Reads first front middle)
    (reads' : Reads (second middle) back value) :
    Reads (first >>= second) (front ++ back) value := by
  intro rest
  rw [append_assoc, StateT.run_bind, reads (back ++ rest)]
  exact reads' rest

theorem Reads.lift {computation : Except ε α} {value : α} (succeeds : computation = .ok value) :
    Reads (liftM computation : Reader ε α) [] value := by
  intro rest
  rw [succeeds]
  rfl

/-- A reader followed by one that consumes nothing. -/
theorem Reads.bindLast {value : β} (reads : Reads first bytes middle)
    (finishes : Reads (second middle) [] value) : Reads (first >>= second) bytes value := by
  have composed := reads.bind finishes
  rwa [append_nil] at composed

theorem Reads.map {bytes value} (f : α → β) (reads : Reads reader bytes value) :
    Reads (f <$> reader) bytes (f value) := by
  intro rest
  rw [StateT.run_map, reads rest]
  rfl

theorem reads_take (bytes : Bytes) : Reads (take failure bytes.length) bytes bytes := by
  intro rest
  simp [take, StateT.run]

theorem reads_byte (head : UInt8) : Reads (byte failure) [head] head :=
  fun _ => rfl

theorem reads_unsigned {width value : Nat} (fits : value < 256 ^ width) :
    Reads (unsigned failure width) (bigEndian width value) value := by
  have reads := (reads_take failure (bigEndian width value)).map ofBigEndian
  rw [length_bigEndian, ofBigEndian_bigEndian_of_lt fits] at reads
  exact reads

theorem reads_cstring {text : Bytes} (clean : 0 ∉ text) :
    Reads (cstring failure) (text ++ [0]) text := by
  intro rest
  have splits : (text ++ [0] ++ rest).span (· != 0) = (text, 0 :: rest) := by
    have passes : ∀ byte ∈ text, (byte != 0) = true := by
      intro byte member
      simpa using fun isZero : byte = 0 => clean (isZero ▸ member)
    rw [append_assoc, span_eq_takeWhile_dropWhile,
      takeWhile_append_of_pos passes, dropWhile_append_of_pos passes]
    simp
  simp only [StateT.run, cstring, splits]

/-- A counted sequence is read back when each of its pieces is. -/
theorem reads_many (reads : List.Forall₂ (Reads item) pieces values) :
    Reads (many item values.length) pieces.flatten values := by
  induction reads with
  | nil => exact Reads.pure []
  | @cons piece value pieces values headReads _ ih =>
    have consReads : Reads (many item values.length >>= fun rest => Pure.pure (value :: rest))
        (pieces.flatten ++ []) (value :: values) :=
      ih.bind (Reads.pure _)
    rw [append_nil] at consReads
    exact headReads.bind consReads

theorem reads_manyEncoded {encode decode} (values : List β)
    (reads : ∀ value ∈ values, Reads item (encode value) (decode value)) :
    Reads (many item values.length) (values.flatMap encode) (values.map decode) := by
  have pieces : List.Forall₂ (Reads item) (values.map encode) (values.map decode) := by
    rw [forall₂_map_left_iff, forall₂_map_right_iff]
    exact forall₂_same.mpr reads
  simpa [List.flatMap] using reads_many pieces

theorem untilEnd_eq_ok
    (reads : List.Forall₂ (fun piece value => piece ≠ [] ∧ Reads item piece value) pieces values)
    {bound : Nat} (enough : pieces.length ≤ bound) :
    untilEnd item failure bound pieces.flatten = .ok values := by
  induction reads generalizing bound with
  | nil => cases bound <;> rfl
  | @cons piece value pieces values here _ ih =>
    obtain ⟨nonempty, readsPiece⟩ := here
    obtain ⟨head, tail, rfl⟩ := exists_cons_of_ne_nil nonempty
    rcases bound with _ | bound
    · simp at enough
    have restEnough : pieces.length ≤ bound := by simpa using enough
    have first := readsPiece pieces.flatten
    rw [cons_append] at first
    rw [flatten_cons, cons_append, untilEnd, first]
    simp only [bind, Except.bind, ih restEnough]
    rfl

/-- Nonempty pieces are at most as many as their bytes. -/
theorem length_le_length_flatten
    (reads : List.Forall₂ (fun piece value => piece ≠ [] ∧ Reads item piece value) pieces values) :
    pieces.length ≤ pieces.flatten.length := by
  induction reads with
  | nil => simp
  | cons here _ ih =>
    have positive := length_pos_of_ne_nil here.1
    simp only [length_cons, flatten_cons, length_append]
    omega

theorem Reads.runAll {value : α} (failure : ε) (reads : Reads reader bytes value) :
    reader.runAll failure bytes = .ok value := by
  have full := reads []
  rw [append_nil] at full
  simp only [Reader.runAll, full]

end Reader

end Odbcpp.Foundation
