import Odbcpp.Database.BackendResult

/-!
# MySQL connection packets

`ConnectionPacketDecoder` of `core/database/mysql/handshake_wire.h` takes one packet out of a
stream that arrives in chunks. Feeding two chunks is feeding their concatenation, from any state.
-/

namespace Odbcpp.Mysql

open Foundation Database List

/-- The limit `connection_packet_limit`. -/
def connectionPacketLimit : Nat := 65536

structure PacketProgress where
  consumed : Nat
  payload : Option Bytes
deriving DecidableEq

/-- The decoder; `header` are the bytes of the header that have arrived. -/
structure ConnectionPacketDecoder where
  sequence : UInt8
  limit : Nat
  header : Bytes := []
  length : Option Nat := none
  payload : Bytes := []
  terminal : Bool := false
deriving DecidableEq

namespace ConnectionPacketDecoder

abbrev Fed := Except (DbErrorCode × Bytes) PacketProgress × ConnectionPacketDecoder

def failure (decoder : ConnectionPacketDecoder) (code : DbErrorCode) : Fed :=
  (.error (code, ascii "MySQL connection packet rejected"),
    { decoder with terminal := true, payload := [] })

def announced (header : Bytes) : Nat :=
  header[0]!.toNat ||| header[1]!.toNat <<< 8 ||| header[2]!.toNat <<< 16

/-- The payload's part of `feed`, of which `consumed` bytes are read and `rest` are left. -/
def collect (decoder : ConnectionPacketDecoder) (length consumed : Nat) (rest : Bytes) : Fed :=
  let amount := min (length - decoder.payload.length) rest.length
  let payload := decoder.payload ++ rest.take amount
  if payload.length ≠ length then
    (.ok ⟨consumed + amount, none⟩, { decoder with length := some length, payload })
  else
    (.ok ⟨consumed + amount, some payload⟩,
      { decoder with length := some length, payload := [], terminal := true })

/-- What `feed` does once it has read what it can of the header. -/
def proceed (decoder : ConnectionPacketDecoder) (consumed : Nat) (rest : Bytes) : Fed :=
  if decoder.header.length ≠ 4 then (.ok ⟨consumed, none⟩, decoder)
  else
    match decoder.length with
    | some length => decoder.collect length consumed rest
    | none =>
      if decoder.header[3]! ≠ decoder.sequence then decoder.failure .protocolError
      else if decoder.limit < announced decoder.header then decoder.failure .resourceLimit
      else decoder.collect (announced decoder.header) consumed rest

def feed (decoder : ConnectionPacketDecoder) (input : Bytes) : Fed :=
  if decoder.terminal then decoder.failure .protocolError
  else if connectionPacketLimit < decoder.limit then decoder.failure .invalidParameter
  else
    let consumed := min (4 - decoder.header.length) input.length
    { decoder with header := decoder.header ++ input.take consumed }.proceed consumed
      (input.drop consumed)

/-- Feed chunks until one of them ends the packet. What a chunk leaves is supplied again. -/
def feedAll (decoder : ConnectionPacketDecoder) (consumed : Nat) (left : Bytes) :
    List Bytes → Fed
  | [] => (.ok ⟨consumed, none⟩, decoder)
  | chunk :: chunks =>
    match decoder.feed (left ++ chunk) with
    | (.error failure, decoder) => (.error failure, decoder)
    | (.ok ⟨more, some payload⟩, decoder) => (.ok ⟨consumed + more, some payload⟩, decoder)
    | (.ok ⟨more, none⟩, decoder) =>
      decoder.feedAll (consumed + more) ((left ++ chunk).drop more) chunks

/-! ## Two feeds are one -/

/-- The outcome of a feed that follows `before` consumed bytes. -/
def counting (before : Nat) : Fed → Fed
  | (.ok ⟨consumed, payload⟩, decoder) => (.ok ⟨before + consumed, payload⟩, decoder)
  | (.error failure, decoder) => (.error failure, decoder)

/-- A feed of `first` is followed by one of what it left and `next`. -/
def continued (first next : Bytes) : Fed → Fed
  | (.ok ⟨consumed, none⟩, decoder) =>
    counting consumed (decoder.feed (first.drop consumed ++ next))
  | ended => ended

theorem counting_zero (fed : Fed) : counting 0 fed = fed := by
  rcases fed with ⟨_ | _, _⟩ <;> simp [counting]

theorem counting_add (before more : Nat) (fed : Fed) :
    counting (before + more) fed = counting before (counting more fed) := by
  rcases fed with ⟨_ | _, _⟩ <;> simp [counting, Nat.add_assoc]

theorem read_append {room read first} (reads : min room first.length = read)
    (next : Bytes) :
    let later := min (room - read) (first.drop read ++ next).length
    min room (first ++ next).length = read + later ∧
      (first ++ next).take (read + later) =
        first.take read ++ (first.drop read ++ next).take later ∧
      (first ++ next).drop (read + later) = (first.drop read ++ next).drop later := by
  intro later
  have within : read ≤ first.length := reads ▸ Nat.min_le_right ..
  refine ⟨?_, ?_, ?_⟩
  · simp only [later, length_append, length_drop]
    omega
  · rw [take_add, take_append_of_le_length within, drop_append_of_le_length within]
  · rw [← drop_drop, drop_append_of_le_length within]

variable (decoder : ConnectionPacketDecoder)

theorem counting_collect (length before consumed : Nat) (rest : Bytes) :
    counting before (decoder.collect length consumed rest) =
      decoder.collect length (before + consumed) rest := by
  unfold collect
  dsimp only
  split_ifs <;> simp [counting, Nat.add_assoc]

theorem counting_proceed (before consumed : Nat) (rest : Bytes) :
    counting before (decoder.proceed consumed rest) =
      decoder.proceed (before + consumed) rest := by
  unfold proceed
  split
  · rfl
  split
  · exact counting_collect ..
  split_ifs
  · rfl
  · rfl
  · exact counting_collect ..

theorem feed_full {decoder : ConnectionPacketDecoder} (running : ¬decoder.terminal)
    (bounded : ¬connectionPacketLimit < decoder.limit) (full : decoder.header.length = 4)
    {length : Nat} (known : decoder.length = some length) (input : Bytes) :
    decoder.feed input = decoder.collect length 0 input := by
  have resumed : decoder.feed input = decoder.proceed 0 input := by
    rw [feed, if_neg running, if_neg bounded, full, Nat.sub_self, Nat.zero_min]
    dsimp only
    rw [take_zero, append_nil, drop_zero]
  rw [resumed, proceed, if_neg (not_not.mpr full), known]

/-- The payload goes on where the last feed left it. -/
theorem collect_append {decoder : ConnectionPacketDecoder} (running : ¬decoder.terminal)
    (bounded : ¬connectionPacketLimit < decoder.limit) (full : decoder.header.length = 4)
    (length consumed : Nat) (first next : Bytes) :
    continued first next (decoder.collect length consumed (first.drop consumed)) =
      decoder.collect length consumed (first.drop consumed ++ next) := by
  generalize reads : min (length - decoder.payload.length) (first.drop consumed).length = read
  obtain ⟨amount, taken, -⟩ := read_append reads next
  have size : (decoder.payload ++ (first.drop consumed).take read).length =
      decoder.payload.length + read := by
    rw [length_append, length_take]
    omega
  rw [collect, collect, amount, taken, reads]
  by_cases short : (decoder.payload ++ (first.drop consumed).take read).length ≠ length
  · rw [if_pos short, continued, @feed_full { decoder with
      length := some length, payload := decoder.payload ++ (first.drop consumed).take read }
      running bounded full length rfl, counting_collect, collect]
    rw [size, ← Nat.sub_sub, ← drop_drop, append_assoc, Nat.add_zero, Nat.add_assoc]
  have all : length - decoder.payload.length - read = 0 := by omega
  rw [if_neg short, all, Nat.zero_min, take_zero, append_nil, if_neg short]
  rfl

theorem feed_append (first next : Bytes) :
    continued first next (decoder.feed first) = decoder.feed (first ++ next) := by
  by_cases ended : decoder.terminal
  · rw [feed, feed, if_pos ended, if_pos ended]
    rfl
  by_cases bounded : connectionPacketLimit < decoder.limit
  · rw [feed, feed, if_neg ended, if_neg ended, if_pos bounded, if_pos bounded]
    rfl
  generalize reads : min (4 - decoder.header.length) first.length = read
  obtain ⟨amount, header, left⟩ := read_append reads next
  rw [feed, feed, if_neg ended, if_neg ended, if_neg bounded, if_neg bounded]
  dsimp only
  rw [amount, header, left, reads]
  by_cases full : (decoder.header ++ first.take read).length = 4
  · have all : 4 - decoder.header.length - read = 0 := by
      rw [length_append, length_take] at full
      omega
    rw [all]
    simp only [Nat.zero_min, Nat.add_zero, take_zero, append_nil, drop_zero]
    have goesOn (length : Nat) := @collect_append
      { decoder with header := decoder.header ++ first.take read } ended bounded full length read
      first next
    unfold proceed
    rw [if_neg (not_not.mpr full), if_neg (not_not.mpr full)]
    dsimp only
    split
    · exact goesOn _
    split_ifs
    · rfl
    · rfl
    · exact goesOn _
  · have size : (decoder.header ++ first.take read).length = decoder.header.length + read := by
      rw [length_append, length_take]
      omega
    rw [proceed, if_pos full, continued, feed, if_neg ended, if_neg bounded, counting_proceed]
    dsimp only
    rw [size, ← Nat.sub_sub, append_assoc]

theorem feedAll_eq (consumed : Nat) (left first : Bytes) (chunks : List Bytes) :
    decoder.feedAll consumed left (first :: chunks) =
      counting consumed (decoder.feed (left ++ first ++ chunks.flatten)) := by
  induction chunks generalizing decoder consumed left first with
  | nil =>
    rw [flatten_nil, append_nil, feedAll]
    rcases decoder.feed (left ++ first) with ⟨_ | ⟨more, _ | _⟩, _⟩ <;> rfl
  | cons chunk chunks ih =>
    rw [feedAll, ← feed_append decoder (left ++ first), flatten_cons]
    rcases decoder.feed (left ++ first) with ⟨_ | ⟨more, _ | _⟩, next⟩
    · rfl
    · simp only [continued, ih, counting_add, append_assoc]
    · rfl

/-! ## The end of the packet -/

/-- A feed that fails or that ends the packet is the last one. -/
theorem feed_terminal (input : Bytes) : (decoder.feed input).2.terminal = true ∨
      ∃ consumed, (decoder.feed input).1 = .ok ⟨consumed, none⟩ := by
  unfold feed proceed collect
  dsimp only
  repeat' split
  all_goals first | exact .inl rfl | exact .inr ⟨_, rfl⟩

theorem terminal_feed {decoder : ConnectionPacketDecoder} (ended : decoder.terminal = true)
    (input : Bytes) : decoder.feed input = decoder.failure .protocolError := if_pos ended

theorem terminal_foldl {decoder : ConnectionPacketDecoder} (ended : decoder.terminal = true)
    (later : List Bytes) :
    (later.foldl (fun decoder input => (decoder.feed input).2) decoder).terminal = true := by
  induction later generalizing decoder with
  | nil => exact ended
  | cons input later ih =>
    exact ih (congrArg (fun fed : Fed => fed.2.terminal) (terminal_feed ended input))

/-- Packet decoding does not depend on the chunks: the outcome, the bytes consumed and the state
are those of the whole stream. Nothing is consumed beyond the packet, and nothing is read after
a packet or a failure. -/
theorem feed_chunks (sequence : UInt8) (limit : Nat) :
    let fresh : ConnectionPacketDecoder := { sequence, limit }
    (∀ first chunks, fresh.feedAll 0 [] (first :: chunks) = fresh.feed (first ++ chunks.flatten)) ∧
    (∀ stream progress, (fresh.feed stream).1 = .ok progress →
      progress.consumed ≤ stream.length ∧
      progress.consumed ≤ 4 + announced (stream.take 4) ∧
      (progress.payload.isSome → progress.consumed = 4 + announced (stream.take 4))) ∧
    ∀ (decoder : ConnectionPacketDecoder) (input : Bytes),
      (∀ consumed, (decoder.feed input).1 ≠ .ok ⟨consumed, none⟩) →
      ∀ (later : List Bytes) (more : Bytes),
        ((later.foldl (fun decoder input => (decoder.feed input).2)
          (decoder.feed input).2).feed more).1 =
          .error (.protocolError, ascii "MySQL connection packet rejected") := by
  refine ⟨fun first chunks => ?_, fun stream progress taken => ?_,
    fun decoder input ends later more => ?_⟩
  · rw [feedAll_eq, counting_zero, List.nil_append]
  · have header : stream.take (min 4 stream.length) = stream.take 4 := by
      rw [← List.take_take, List.take_length]
    simp only [feed, proceed, collect, failure, List.nil_append, List.length_nil, Nat.sub_zero,
      header, List.length_take, List.length_drop, min_assoc, min_self, Bool.false_eq_true,
      if_false] at taken
    split_ifs at taken <;> cases taken <;> simp <;> omega
  · have ended := (feed_terminal decoder input).resolve_right fun ⟨consumed, goesOn⟩ =>
      ends consumed goesOn
    exact congrArg Prod.fst (terminal_feed (terminal_foldl ended later) more)

end ConnectionPacketDecoder

end Odbcpp.Mysql
