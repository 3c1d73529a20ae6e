import Mathlib.Data.Nat.Bitwise
import Odbcpp.Foundation.Threads

/-!
# The storage of the tracer

`Tracer::active`, `configure` and `shutdown` of `odbc/odbc_trace.cpp` on any number of
threads, one atomic operation or plain access at a time. One word holds the number of admitted
uses and the bit that closes the storage: whoever closes it over no use deletes the storage, and
nobody touches it afterwards.
-/

namespace Odbcpp.Odbc.Trace

open Foundation

/-- Whether tracing is on, once that is known. -/
inductive TracerState where
  | unresolved | disabled | enabled
deriving DecidableEq

/-- The initialization of the static in `tracer_storage`. -/
inductive Guard where
  | unset | initialising | initialised

/-- What a shutdown found. -/
inductive ShutdownResult where
  | unused | retired | busy | alreadyStopped

/-- What the threads share. -/
structure Shared where
  storageUses : Nat := 0
  tracerState : TracerState := .unresolved
  guarded : Guard := .unset
  /-- Whether `allocated_storage` points to a storage. -/
  allocatedStorage : Bool := false
  locked : Bool := false
  tracer : Bool := false
  /-- Ghost: how often the storage was deleted. -/
  deletions : Nat := 0
  /-- Ghost: whether the storage was touched or given to a use after a deletion. -/
  late : Bool := false

/-- What a use of the storage is for. -/
inductive Use where
  | active
  | configure (options : Option Bool)

/-- What a call does with the lock held. -/
inductive Operation where
  | reset | make | copy
  | store (state : TracerState)

def installLocked (enabled : Bool) : List Operation :=
  [.reset, .store .disabled] ++ if enabled then [.make, .store .enabled] else []

/-- Where a call stands. An option says whether it enables the tracer. -/
inductive Point where
  | check | load (use : Use) | exchange (use : Use) (observed : Nat) | enter (use : Use)
  | allocate (use : Use) | initialise (use : Use) | lock (use : Use) | read (use : Use)
  | perform (operations : List Operation) | leave
  | close | retire | tryLock | inspect | giveUp | drop | release | delete | forget
  | stopped (result : ShutdownResult)

/-- What the machine and other code decide: whether a step fails (the exchange or `try_lock` without
a cause, a lock, an allocation, the opening of a sink, a snapshot of the tracer in use), and what
the resolved options enable. -/
structure Choice where
  fails : Bool := false
  enabled : Bool := false

namespace Shared

def touch (shared : Shared) : Shared :=
  { shared with late := shared.late || 0 < shared.deletions }

/-- The next step of a call, with what takes its place. The word has `bits + 1` digits and
`kStorageClosed` is the highest; a call that waits has no step or comes back to its place. -/
def advance (bits : Nat) (choice : Choice) (shared : Shared) : Point → Option (Shared × List Point)
  | .check => some (shared, if shared.tracerState = .disabled then [] else [.load .active])
  | .load use => some (shared, [.exchange use shared.storageUses])
  | .exchange use observed =>
    if observed &&& 2 ^ bits ≠ 0 ∨ observed = 2 ^ bits - 1 then some (shared, [])
    else if shared.storageUses = observed ∧ !choice.fails then
      some ({ shared.touch with storageUses := (observed + 1) % 2 ^ (bits + 1) }, [.enter use])
    else some (shared, [.exchange use shared.storageUses])
  | .enter use =>
    match shared.guarded with
    | .unset => some ({ shared with guarded := .initialising }, [.allocate use])
    | .initialising => none
    | .initialised => some (shared, [.lock use])
  | .allocate use =>
    if choice.fails then some ({ shared with guarded := .unset }, [.leave])
    else some ({ shared with allocatedStorage := true }, [.initialise use])
  | .initialise use => some ({ shared with guarded := .initialised }, [.lock use])
  | .lock use =>
    if choice.fails then some (shared.touch, [.leave])
    else if shared.locked then some (shared.touch, [.lock use])
    else some ({ shared.touch with locked := true }, [.read use])
  | .read use =>
    some (shared, [.perform (match use with
      | .active =>
        (if shared.tracerState = .unresolved then installLocked choice.enabled else []) ++ [.copy]
      | .configure none => [.reset, .store .unresolved]
      | .configure (some enabled) => installLocked enabled)])
  | .perform operations =>
    match operations with
    | [] => some ({ shared.touch with locked := false }, [.leave])
    | .reset :: rest => some ({ shared.touch with tracer := false }, [.perform rest])
    | .make :: rest =>
      -- An exception leaves the section, and the guard of the lock releases it.
      if choice.fails then some (shared, [.perform []])
      else some ({ shared.touch with tracer := true }, [.perform rest])
    | .copy :: rest => some (shared.touch, [.perform rest])
    | .store state :: rest => some ({ shared with tracerState := state }, [.perform rest])
  | .leave =>
    some ({ shared with
      storageUses := (shared.storageUses + (2 ^ (bits + 1) - 1)) % 2 ^ (bits + 1) }, [])
  | .close =>
    let previous := shared.storageUses
    some ({ shared with storageUses := previous ||| 2 ^ bits },
      [if previous &&& 2 ^ bits ≠ 0 then .stopped .alreadyStopped
      else if previous ≠ 0 then .stopped .busy else .retire])
  | .retire => some (shared, [if shared.allocatedStorage then .tryLock else .stopped .unused])
  | .tryLock =>
    if shared.locked ∨ choice.fails then some (shared.touch, [.stopped .busy])
    else some ({ shared.touch with locked := true }, [.inspect])
  | .inspect => some (shared.touch, [if shared.tracer ∧ choice.fails then .giveUp else .drop])
  | .giveUp => some ({ shared.touch with locked := false }, [.stopped .busy])
  | .drop => some ({ shared.touch with tracer := false }, [.release])
  | .release => some ({ shared.touch with locked := false }, [.delete])
  | .delete => some ({ shared with deletions := shared.deletions + 1 }, [.forget])
  | .forget => some ({ shared with allocatedStorage := false }, [.stopped .retired])
  | .stopped _ => some (shared, [])

end Shared

/-- The entry points of the tracer. -/
inductive Call where
  | active | configure (options : Option Bool) | shutdown

def Call.entry : Call → Point
  | .active => .check
  | .configure options => .load (.configure options)
  | .shutdown => .close

/-- The tracer, and the threads with their calls. -/
structure World where
  shared : Shared := {}
  threads : List (List Point)

/-- A thread starts a call or runs a step of it. -/
inductive Move where
  | start (thread : Nat) (call : Call)
  | run (thread : Nat) (choice : Choice)

namespace World

def move (bits : Nat) : Move → World → Option World
  | .start thread call, world =>
    match world.threads[thread]? with
    | some [] => some { world with threads := world.threads.set thread [call.entry] }
    | _ => none
  | .run thread choice, world =>
    match world.threads[thread]? with
    | some (point :: callers) =>
      (world.shared.advance bits choice point).map fun (shared, next) =>
        ⟨shared, world.threads.set thread (next ++ callers)⟩
    | _ => none

def Initial (world : World) : Prop := ∃ count, world = { threads := List.replicate count [] }

def Step (bits : Nat) (world after : World) : Prop := ∃ chosen, move bits chosen world = some after

end World

/-! ## The word -/

section

variable {bits count : Nat} (small : count < 2 ^ bits)

include small

theorem open_word : count &&& 2 ^ bits = 0 ∧ count ||| 2 ^ bits = count + 2 ^ bits := by
  constructor
  · simp [Nat.and_two_pow, Nat.testBit_lt_two_pow small]
  have joined := Nat.two_pow_add_eq_or_of_lt small 1
  rw [Nat.mul_one] at joined
  rw [Nat.or_comm, ← joined, Nat.add_comm]

theorem closed_word :
    (count + 2 ^ bits) &&& 2 ^ bits ≠ 0 ∧ (count + 2 ^ bits) ||| 2 ^ bits = count + 2 ^ bits := by
  rw [← (open_word small).2, Nat.or_assoc, Nat.or_self]
  exact ⟨by simp [Nat.and_two_pow], rfl⟩

end

/-! ## What holds in every state -/

namespace Point

/-- Whether the call is between its admission and its leave. -/
def admits : Point → Nat
  | .enter _ | .allocate _ | .initialise _ | .lock _ | .read _ | .perform _ | .leave => 1
  | _ => 0

/-- Whether the call may still touch or delete the storage that it has closed. -/
def retires : Point → Nat
  | .retire | .tryLock | .inspect | .giveUp | .drop | .release | .delete => 1
  | _ => 0

end Point

/-- The word of uses counts the threads inside; only the last one deletes. -/
structure World.Sound (bits : Nat) (world : World) : Prop where
  word : world.shared.storageUses = tally Point.admits world.threads ∨
    world.shared.storageUses = tally Point.admits world.threads + 2 ^ bits
  unwrapped : tally Point.admits world.threads < 2 ^ bits
  once : tally Point.retires world.threads + world.shared.deletions ≤ 1
  unused : 0 < tally Point.retires world.threads + world.shared.deletions →
    world.shared.storageUses = 2 ^ bits
  punctual : world.shared.late = false

namespace World.Sound

variable {bits thread : Nat} {world after : World} {point : Point} {callers next : List Point}
  {shared : Shared}

theorem initial (begins : Initial world) : Sound bits world := by
  obtain ⟨count, rfl⟩ := begins
  exact ⟨by simp, by simp, by simp, by simp, rfl⟩

theorem unused_of_deleted (sound : Sound bits world) (deleted : 0 < world.shared.deletions) :
    tally Point.admits world.threads = 0 := by
  have closed := sound.unused (by omega)
  have := sound.unwrapped
  rcases sound.word with isOpen | isClosed <;> omega

theorem start (call : Call) (sound : Sound bits world)
    (found : world.threads[thread]? = some []) :
    Sound bits { world with threads := world.threads.set thread [call.entry] } := by
  have weightless : call.entry.admits = 0 ∧ call.entry.retires = 0 := by
    cases call <;> exact ⟨rfl, rfl⟩
  have admits := tally_start Point.admits found call.entry
  have retires := tally_start Point.retires found call.entry
  rw [weightless.1] at admits
  rw [weightless.2] at retires
  constructor <;> simp only [admits, retires, Nat.add_zero]
  exacts [sound.word, sound.unwrapped, sound.once, sound.unused, sound.punctual]

section

variable (sound : Sound bits world) (found : world.threads[thread]? = some (point :: callers))

include sound found

theorem keep (word : shared.storageUses = world.shared.storageUses)
    (deletions : shared.deletions = world.shared.deletions)
    (late : shared.late = true → world.shared.late = true ∨
      0 < point.admits + point.retires ∧ 0 < world.shared.deletions)
    (admits : (next.map Point.admits).sum = point.admits)
    (retires : (next.map Point.retires).sum ≤ point.retires) :
    Sound bits ⟨shared, world.threads.set thread (next ++ callers)⟩ := by
  have admitted := tally_advance Point.admits found next
  have retired := tally_advance Point.retires found next
  have own := tally_pos Point.admits (innermost_mem found)
  have ownToo := tally_pos Point.retires (innermost_mem found)
  have unadmitted := sound.unused_of_deleted
  obtain ⟨oldWord, unwrapped, once, unused, punctual⟩ := sound
  constructor <;> simp only [word, deletions]
  · omega
  · omega
  · omega
  · exact fun some => unused (by omega)
  by_contra isLate
  rcases late (by simpa using isLate) with before | ⟨holds, deleted⟩
  · simp [punctual] at before
  · have := unadmitted deleted
    omega

theorem run {choice : Choice}
    (advanced : world.shared.advance bits choice point = some (shared, next)) :
    Sound bits ⟨shared, world.threads.set thread (next ++ callers)⟩ := by
  have admitted := tally_advance Point.admits found next
  have retired := tally_advance Point.retires found next
  have own := tally_pos Point.admits (innermost_mem found)
  have ⟨word, unwrapped, once, unused, punctual⟩ := sound
  cases point with
  | exchange use observed =>
    simp only [Shared.advance] at advanced
    split_ifs at advanced with refused current
    · cases advanced
      exact sound.keep found rfl rfl .inl rfl le_rfl
    · obtain ⟨rfl, -⟩ := current
      cases advanced
      simp only [not_or, not_not] at refused
      have isOpen := word.resolve_right fun isClosed =>
        (closed_word unwrapped).1 (isClosed ▸ refused.1)
      have unretired : ¬0 < tally Point.retires world.threads + world.shared.deletions := by
        intro retiring
        have := unused retiring
        omega
      have within : world.shared.storageUses + 1 < 2 ^ (bits + 1) := by
        rw [pow_succ]
        omega
      have more : tally Point.admits _ = tally Point.admits world.threads + 1 := admitted
      have same : tally Point.retires _ = tally Point.retires world.threads := retired
      constructor <;> simp only [Nat.mod_eq_of_lt within, Shared.touch, more, same] <;> grind
    · cases advanced
      exact sound.keep found rfl rfl .inl rfl le_rfl
  | leave =>
    cases advanced
    have present : 0 < tally Point.admits world.threads := own
    -- Adding the largest word is the `fetch_sub` of one.
    have less : (world.shared.storageUses + (2 ^ (bits + 1) - 1)) % 2 ^ (bits + 1) =
        world.shared.storageUses - 1 := by
      rw [show world.shared.storageUses + (2 ^ (bits + 1) - 1) =
        world.shared.storageUses - 1 + 2 ^ (bits + 1) by omega, Nat.add_mod_right,
        Nat.mod_eq_of_lt (by rw [pow_succ]; omega)]
    have fewer : tally Point.admits _ + 1 = tally Point.admits world.threads := admitted
    have same : tally Point.retires _ = tally Point.retires world.threads := retired
    constructor <;> simp only [less, same] <;> grind
  | close =>
    have admits : (next.map Point.admits).sum = 0 := by
      cases advanced
      split_ifs <;> rfl
    have retires : (next.map Point.retires).sum =
        if world.shared.storageUses = 0 then 1 else 0 := by
      cases advanced
      by_cases none : world.shared.storageUses = 0
      · simp [none, Point.retires]
      · split_ifs <;> rfl
    obtain ⟨rfl, -⟩ := Prod.mk.inj (Option.some.inj advanced)
    have same : tally Point.admits _ = tally Point.admits world.threads + _ := admitted
    have more : tally Point.retires _ = tally Point.retires world.threads + _ := retired
    rcases word with isOpen | isClosed
    · constructor <;> simp only [isOpen, open_word unwrapped, same, admits] <;> grind
    · constructor <;> simp only [isClosed, closed_word unwrapped, same, admits] <;> grind
  | delete =>
    cases advanced
    have same : tally Point.admits _ = tally Point.admits world.threads := admitted
    have fewer : tally Point.retires _ + 1 = tally Point.retires world.threads := retired
    constructor <;> simp only [same] <;> grind
  | check | load use | enter use | allocate use | initialise use | lock use | read use
  | perform operations | retire | tryLock | inspect | giveUp | drop | release | forget
  | stopped result =>
    simp only [Shared.advance] at advanced
    repeat' split at advanced
    all_goals cases advanced
    all_goals
      first
      | exact sound.keep found rfl rfl .inl rfl (by simp [Point.retires])
      | exact sound.keep found rfl rfl (by simp [Shared.touch, Point.admits, Point.retires]) rfl
          (by simp [Point.retires])

end

theorem step (sound : Sound bits world) (steps : Step bits world after) : Sound bits after := by
  obtain ⟨chosen, moved⟩ := steps
  cases chosen with
  | start thread call =>
    simp only [move] at moved
    split at moved
    · cases moved
      exact sound.start call ‹_›
    · cases moved
  | run thread choice =>
    simp only [move] at moved
    split at moved
    · obtain ⟨⟨shared, next⟩, advanced, rfl⟩ := Option.map_eq_some_iff.1 moved
      exact sound.run ‹_› advanced
    · cases moved

end World.Sound

/-- In every run the word is the number of admitted uses, with the closed bit added or not, and the
number never reaches that bit; the storage is deleted at most once, over no use, and neither
touched nor given to a use afterwards. -/
theorem storage_unused_after_deletion {bits : Nat} {world : World}
    (reached : Reachable World.Initial (World.Step bits) world) :
    (world.shared.storageUses = tally Point.admits world.threads ∨
        world.shared.storageUses = tally Point.admits world.threads + 2 ^ bits) ∧
      tally Point.admits world.threads < 2 ^ bits ∧ world.shared.deletions ≤ 1 ∧
      (0 < world.shared.deletions → tally Point.admits world.threads = 0) ∧
      world.shared.late = false := by
  have sound : World.Sound bits world :=
    reached.invariant (fun _ => .initial) fun _ => .step
  have once := sound.once
  exact ⟨sound.word, sound.unwrapped, by omega, sound.unused_of_deleted, sound.punctual⟩

/-- A call finds tracing off, and then the image is unloaded. -/
def unloadMoves : List Move :=
  .start 0 .active :: List.replicate 13 (.run 0 {}) ++
    .start 1 .shutdown :: List.replicate 7 (.run 1 {})

theorem storage_unused_after_unload : ∃ world, Reachable World.Initial (World.Step 31) world ∧
    0 < world.shared.deletions ∧ tally Point.admits world.threads = 0 := by
  have performed : (performs (World.move 31) unloadMoves { threads := [[], []] }).map
      (·.shared.deletions) = some 1 := by decide
  obtain ⟨world, reaches, deletions⟩ := Option.map_eq_some_iff.mp performed
  have reached : Reachable World.Initial (World.Step 31) world :=
    Reachable.performs (.start ⟨2, rfl⟩) reaches
  have deleted : 0 < world.shared.deletions := by simp [deletions]
  exact ⟨world, reached, deleted, (storage_unused_after_deletion reached).2.2.2.1 deleted⟩

end Odbcpp.Odbc.Trace
