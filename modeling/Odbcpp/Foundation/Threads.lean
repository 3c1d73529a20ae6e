import Odbcpp.Foundation.Reachability

/-!
# Threads

A thread is a stack of frames with the innermost call first; only the innermost
frame of a thread acts, and what it leaves takes its place. Quantities are counted
over the frames of all threads.
-/

namespace Odbcpp.Foundation

open List

variable {Frame : Type} {threads : List (List Frame)} {thread : Nat}

variable {callers stack next : List Frame} {frame other : Frame} (weight : Frame → Nat)

/-- A quantity of the frames, added up over all threads. -/
def tally (threads : List (List Frame)) : Nat :=
  (threads.flatten.map weight).sum

@[simp] theorem tally_replicate (count : Nat) : tally weight (List.replicate count []) = 0 := by
  simp [tally]

theorem threads_split (found : threads[thread]? = some stack) :
    ∃ before after, threads = before ++ stack :: after ∧
      ∀ other, threads.set thread other = before ++ other :: after := by
  obtain ⟨within, rfl⟩ := List.getElem?_eq_some_iff.mp found
  refine ⟨threads.take thread, threads.drop (thread + 1), ?_, fun other => ?_⟩
  · simp
  · exact set_eq_take_append_cons_drop.trans (by simp [within])

theorem tally_set (found : threads[thread]? = some stack)
    (other : List Frame) : tally weight (threads.set thread other) + (stack.map weight).sum =
      tally weight threads + (other.map weight).sum := by
  obtain ⟨before, after, isSplit, replaced⟩ := threads_split found
  rw [replaced other, isSplit]
  simp [tally]
  omega

/-- The innermost frame gives way to others. -/
theorem tally_advance (found : threads[thread]? = some (frame :: callers)) (next : List Frame) :
    tally weight (threads.set thread (next ++ callers)) + weight frame =
      tally weight threads + (next.map weight).sum := by
  have changed := tally_set weight found (next ++ callers)
  simp at changed
  omega

theorem tally_start (found : threads[thread]? = some callers) (frame : Frame) :
    tally weight (threads.set thread (frame :: callers)) = tally weight threads + weight frame := by
  have changed := tally_set weight found (frame :: callers)
  simp at changed
  omega

theorem tally_pos (present : frame ∈ threads.flatten) : weight frame ≤ tally weight threads :=
  single_le_sum (by simp) _ (mem_map_of_mem present)

theorem mem_flatten_of_getElem? (found : threads[thread]? = some stack)
    (present : frame ∈ stack) : frame ∈ threads.flatten :=
  mem_flatten.mpr ⟨stack, mem_of_getElem? found, present⟩

theorem innermost_mem (found : threads[thread]? = some (frame :: callers)) :
    frame ∈ threads.flatten :=
  mem_flatten_of_getElem? found mem_cons_self

theorem stack_of_set {index top} (found : threads[thread]? = some stack)
    (isTop : (threads.set thread next)[index]? = some top) :
    thread = index ∧ next = top ∨ threads[index]? = some top := by
  by_cases same : thread = index
  · subst same
    rw [List.getElem?_set_self (List.getElem?_eq_some_iff.mp found).1] at isTop
    exact .inl ⟨rfl, Option.some.inj isTop⟩
  · rw [List.getElem?_set_ne same] at isTop
    exact .inr isTop

/-- After the innermost frame gave way, every frame is one of the new ones or was there. -/
theorem frames_advance (found : threads[thread]? = some (frame :: callers))
    (present : other ∈ (threads.set thread (next ++ callers)).flatten) :
    other ∈ next ∨ other ∈ threads.flatten := by
  obtain ⟨before, after, isSplit, replaced⟩ := threads_split found
  rw [replaced] at present
  rw [isSplit]
  simp only [flatten_append, flatten_cons, mem_append, mem_cons] at present ⊢
  tauto

theorem frames_remain (found : threads[thread]? = some (frame :: callers))
    (present : other ∈ next ∨ other ≠ frame ∧ other ∈ threads.flatten) :
    other ∈ (threads.set thread (next ++ callers)).flatten := by
  obtain ⟨before, after, isSplit, replaced⟩ := threads_split found
  rw [replaced]
  rw [isSplit] at present
  simp only [flatten_append, flatten_cons, mem_append, mem_cons] at present ⊢
  tauto

theorem frames_start (found : threads[thread]? = some callers) :
    other ∈ (threads.set thread (frame :: callers)).flatten ↔
      other = frame ∨ other ∈ threads.flatten := by
  obtain ⟨before, after, isSplit, replaced⟩ := threads_split found
  rw [replaced, isSplit]
  simp only [flatten_append, flatten_cons, mem_append, mem_cons]
  tauto

/-! ## Runs of chosen moves -/

variable {State Move : Type} {initial : State → Prop} {move : Move → State → Option State}

/-- Perform moves one after the other, as long as each is possible. -/
def performs (move : Move → State → Option State) : List Move → State → Option State
  | [], state => some state
  | first :: rest, state => (move first state).bind (performs move rest)

theorem Reachable.performs {moves state after}
    (reached : Reachable initial (fun state after => ∃ chosen, move chosen state = some after)
      state) (performed : Foundation.performs move moves state = some after) :
    Reachable initial (fun state after => ∃ chosen, move chosen state = some after) after := by
  induction moves generalizing state with
  | nil =>
    obtain rfl : state = after := by simpa [Foundation.performs] using performed
    exact reached
  | cons first rest ih =>
    obtain ⟨middle, moved, remaining⟩ := Option.bind_eq_some_iff.mp performed
    exact ih (reached.next ⟨first, moved⟩) remaining

end Odbcpp.Foundation
