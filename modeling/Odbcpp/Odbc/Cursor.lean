import Odbcpp.Odbc.GetData
import Odbcpp.Foundation.Checked

/-!
# The cursor and its positioning

The fields of `ODBCStatement` that a fetch moves and the part of `fetch_impl` of
`odbc/odbc_handles.cpp` that computes the next position. Rows are counted from zero in `start` and
from one in `currentRow`. A step that would wrap a `size_t` or overflow a `SQLLEN` leaves no result.
-/

namespace Odbcpp.Odbc

open Foundation
open Option (bind_eq_bind bind_some)

/-- The integer types besides those of `Platform`. A `SQLULEN` is as wide as a `SQLLEN`. -/
structure Machine extends Platform where
  /-- The largest `size_t`. -/
  sizeMax : Nat
  /-- The largest `uintmax_t`. -/
  uintmaxMax : Nat
  /-- `sizeof(BoundResultField)`. -/
  boundResultFieldSize : Nat
  sizeMax_le : sizeMax ≤ uintmaxMax
  sqllenMax_lt : sqllenMax < uintmaxMax
  addressMax_le : addressMax ≤ sizeMax

def Machine.lp64 : Machine where
  toPlatform := .lp64
  sizeMax := 2 ^ 64 - 1
  uintmaxMax := 2 ^ 64 - 1
  boundResultFieldSize := 40
  sizeMax_le := le_rfl
  sqllenMax_lt := by decide
  addressMax_le := le_rfl

def Machine.sqlulenMax (machine : Machine) : Nat := 2 * machine.sqllenMax + 1

/-- The offsets an application can pass. -/
def Machine.IsLength (machine : Machine) (value : Int) : Prop :=
  -(machine.sqllenMax + 1 : Int) ≤ value ∧ value ≤ machine.sqllenMax

/-- Where a static cursor stands. -/
inductive StaticPosition where
  | beforeStart
  | onRowset
  | afterEnd
deriving DecidableEq

/-- A fetch orientation; a bookmark stands for the row it names, counted from zero. -/
inductive Orientation where
  | next
  | first
  | last
  | prior
  | absolute
  | relative
  | bookmark (row : Nat)
deriving DecidableEq

/-- The fields of a statement that a fetch changes. -/
structure Cursor where
  staticPosition : StaticPosition := .beforeStart
  currentRow : Nat := 0
  fetchedRowsetSize : Nat := 1
  actualFetchedRows : Nat := 0
  selectedRowSlot : Nat := 0
  rowsetExhausted : Bool := false
  rowPositioned : Bool := false
  fetchFailed : Bool := false
  bulkUnpositioned : Bool := false
  getData : GetDataState := {}
deriving DecidableEq

/-- Where a static cursor goes: a position, the first row of a rowset and whether the
rowset overlaps the start of the result. -/
structure StaticTarget where
  position : StaticPosition
  start : Nat := 0
  overlap : Bool := false
deriving DecidableEq

namespace Machine

variable (machine : Machine)

/-- The absolute value of an offset, computed so that the least `SQLLEN` has one. -/
def magnitude (offset : Int) : Option Nat :=
  if offset < 0 then do
    let next ← checkedInt machine.sqllenMax (offset + 1)
    let negated ← checkedInt machine.sqllenMax (-next)
    checkedNat machine.uintmaxMax (negated.toNat + 1)
  else some offset.toNat

/-- The `absolute` case, which a relative fetch from either end shares. -/
def absoluteTarget (total size : Nat) (offset : Int) (magnitude : Nat) : Option StaticTarget :=
  if offset = 0 then some { position := .beforeStart }
  else if 0 < offset then
    if total < magnitude then some { position := .afterEnd }
    else do
      let start ← checkedSub magnitude 1
      some { position := .onRowset, start := ← checkedNat machine.sizeMax start }
  else if magnitude ≤ total then do
    let rows ← checkedNat machine.sizeMax magnitude
    some { position := .onRowset, start := ← checkedSub total rows }
  else if magnitude ≤ size ∧ total ≠ 0 then
    some { position := .onRowset, start := 0, overlap := true }
  else some { position := .beforeStart }

/-- The `bookmark` case. -/
def bookmarkTarget (total row : Nat) (offset : Int) (magnitude : Nat) : Option StaticTarget :=
  if offset < 0 then
    if row < magnitude then some { position := .beforeStart }
    else do
      let rows ← checkedNat machine.sizeMax magnitude
      some { position := .onRowset, start := ← checkedSub row rows }
  else do
    if (← checkedSub total row) ≤ magnitude then some { position := .afterEnd }
    else
      let rows ← checkedNat machine.sizeMax magnitude
      some { position := .onRowset, start := ← checkedNat machine.sizeMax (row + rows) }

/-- The `relative` case. -/
def relativeTarget (position : StaticPosition) (total size prior : Nat) (offset : Int)
    (magnitude : Nat) : Option StaticTarget :=
  match position with
  | .beforeStart =>
    if 0 < offset then machine.absoluteTarget total size offset magnitude
    else some { position := .beforeStart }
  | .afterEnd =>
    if offset < 0 then machine.absoluteTarget total size offset magnitude
    else some { position := .afterEnd }
  | .onRowset =>
    if 0 ≤ offset then
      if total ≤ prior then some { position := .afterEnd }
      else do
        if (← checkedSub total prior) ≤ magnitude then some { position := .afterEnd }
        else
          let rows ← checkedNat machine.sizeMax magnitude
          some { position := .onRowset, start := ← checkedNat machine.sizeMax (prior + rows) }
    else if magnitude ≤ prior then do
      let rows ← checkedNat machine.sizeMax magnitude
      some { position := .onRowset, start := ← checkedSub prior rows }
    else if prior ≠ 0 ∧ magnitude ≤ size then
      some { position := .onRowset, start := 0, overlap := true }
    else some { position := .beforeStart }

/-- The `prior` case. -/
def priorTarget (position : StaticPosition) (total size prior : Nat) : Option StaticTarget :=
  match position with
  | .beforeStart => some { position := .beforeStart }
  | .afterEnd => do
    let start ← if size ≤ total then checkedSub total size else some 0
    some { position := .onRowset, start := start, overlap := total < size ∧ total ≠ 0 }
  | .onRowset =>
    if prior = 0 then some { position := .beforeStart }
    else if prior < size then some { position := .onRowset, start := 0, overlap := true }
    else do some { position := .onRowset, start := ← checkedSub prior size }

/-- The `next` case, which advances by the size of the rowset fetched before. -/
def nextTarget (position : StaticPosition) (total prior fetchedRowsetSize : Nat) :
    Option StaticTarget :=
  match position with
  | .beforeStart => some { position := .onRowset }
  | .afterEnd => some { position := .afterEnd }
  | .onRowset =>
    if total ≤ prior then some { position := .afterEnd }
    else do
      if (← checkedSub total prior) ≤ fetchedRowsetSize then some { position := .afterEnd }
      else
        let start ← checkedNat machine.sizeMax (prior + fetchedRowsetSize)
        some { position := .onRowset, start := start }

/-- The `last` case. -/
def lastTarget (total size : Nat) : Option StaticTarget :=
  if size < total then (checkedSub total size).map fun start => { position := .onRowset, start }
  else some { position := .onRowset }

/-- The choice of case. The source has zero for the row before the first. -/
def orientedTarget (cursor : Cursor) (total size : Nat) (orientation : Orientation) (offset : Int)
    (magnitude : Nat) : Option StaticTarget :=
  let prior := cursor.currentRow - 1
  match orientation with
  | .bookmark row => machine.bookmarkTarget total row offset magnitude
  | .first => some { position := .onRowset }
  | .last => lastTarget total size
  | .absolute => machine.absoluteTarget total size offset magnitude
  | .relative => machine.relativeTarget cursor.staticPosition total size prior offset magnitude
  | .prior => priorTarget cursor.staticPosition total size prior
  | .next => machine.nextTarget cursor.staticPosition total prior cursor.fetchedRowsetSize

/-- The position a static cursor over `total` rows moves to. -/
def staticTarget (cursor : Cursor) (total size : Nat) (orientation : Orientation) (offset : Int) :
    Option StaticTarget := do
  let magnitude ← machine.magnitude offset
  let target ← machine.orientedTarget cursor total size orientation offset magnitude
  some (if target.position = .onRowset ∧ total = 0 then { target with position := .afterEnd }
    else target)

end Machine

/-- Where a fetch goes: the position a static cursor records, the first row and whether
there is none. -/
structure FetchTarget where
  position : StaticPosition
  start : Nat
  exhausted : Bool
  overlap : Bool
deriving DecidableEq

/-- The position of either kind of cursor. A forward-only cursor advances by the new
size and stops at the end. -/
def Machine.fetchTarget (machine : Machine) (staticCursor : Bool) (cursor : Cursor)
    (total size : Nat) (orientation : Orientation) (offset : Int) : Option FetchTarget :=
  if staticCursor then do
    let target ← machine.staticTarget cursor total size orientation offset
    some ⟨target.position, target.start, target.position ≠ .onRowset, target.overlap⟩
  else if cursor.currentRow ≠ 0 && !cursor.rowsetExhausted then do
    let priorStart ← checkedSub cursor.currentRow 1
    if total ≤ priorStart then some ⟨cursor.staticPosition, 0, true, false⟩
    else if (← checkedSub total priorStart) ≤ cursor.fetchedRowsetSize then
      some ⟨cursor.staticPosition, 0, true, false⟩
    else if (← checkedSub machine.sizeMax priorStart) < size then
      some ⟨cursor.staticPosition, 0, true, false⟩
    else
      some ⟨cursor.staticPosition, ← checkedNat machine.sizeMax (priorStart + size), false, false⟩
  else some ⟨cursor.staticPosition, 0, cursor.rowsetExhausted, false⟩

def Cursor.leaveRowset (staticCursor : Bool) (position : StaticPosition) (cursor : Cursor) :
    Cursor :=
  { cursor with
    staticPosition := position, bulkUnpositioned := false, actualFetchedRows := 0
    selectedRowSlot := 0, getData := {}, rowsetExhausted := true, rowPositioned := false
    fetchFailed := false, currentRow := if staticCursor then 0 else cursor.currentRow }

def Cursor.enterRowset (position : StaticPosition) (currentRow size count : Nat) : Cursor :=
  { staticPosition := position, bulkUnpositioned := false, actualFetchedRows := count
    selectedRowSlot := 0, getData := {}, rowsetExhausted := false, rowPositioned := true
    fetchFailed := false, currentRow := currentRow, fetchedRowsetSize := size }

def Machine.move (machine : Machine) (staticCursor : Bool) (cursor : Cursor) (target : FetchTarget)
    (total size : Nat) : Option (Cursor × List Nat) :=
  if target.exhausted ∨ total ≤ target.start then
    some (cursor.leaveRowset staticCursor target.position, [])
  else do
    let count := min size (← checkedSub total target.start)
    let currentRow ← checkedNat machine.sizeMax (target.start + 1)
    some (.enterRowset target.position currentRow size count, List.range' target.start count)

/-! ### No step overflows -/

namespace Machine

variable {machine : Machine} {cursor : Cursor} {total size : Nat} {orientation : Orientation}
  {offset : Int}

theorem magnitude_of_isLength (isLength : machine.IsLength offset) :
    machine.magnitude offset = some offset.natAbs := by
  have room := machine.sqllenMax_lt
  obtain ⟨low, high⟩ := isLength
  unfold magnitude
  split_ifs with negative
  · simp (disch := omega) only [checkedInt_of_fits, bind_eq_bind, bind_some]
    rw [checkedNat_of_le (by omega)]
    congr 1
    omega
  · congr 1
    omega

variable (fits : total ≤ machine.sizeMax) {position : StaticPosition}

include fits

theorem absoluteTarget_isSome :
    (machine.absoluteTarget total size offset offset.natAbs).isSome := by
  unfold absoluteTarget
  split_ifs
  all_goals
    first
    | rfl
    | simp (disch := omega)

theorem relativeTarget_isSome {prior : Nat} (counted : prior ≤ machine.sizeMax) :
    (machine.relativeTarget position total size prior offset offset.natAbs).isSome := by
  cases position with
  | beforeStart | afterEnd =>
    dsimp only [relativeTarget]
    split_ifs
    · exact absoluteTarget_isSome fits
    · rfl
  | onRowset =>
    dsimp only [relativeTarget]
    split_ifs with forward past within overlaps
    · rfl
    · simp (disch := omega) only [checkedSub_of_le, bind_eq_bind, bind_some]
      split_ifs
      · rfl
      · simp (disch := omega)
    · simp (disch := omega)
    · rfl
    · rfl

omit fits in
theorem priorTarget_isSome {prior : Nat} :
    (priorTarget position total size prior).isSome := by
  cases position with
  | beforeStart => rfl
  | afterEnd =>
    dsimp only [priorTarget]
    split_ifs
    · simp (disch := omega)
    · rfl
  | onRowset =>
    dsimp only [priorTarget]
    split_ifs
    · rfl
    · rfl
    · simp (disch := omega)

theorem nextTarget_isSome {prior fetchedRowsetSize : Nat} :
    (machine.nextTarget position total prior fetchedRowsetSize).isSome := by
  cases position with
  | beforeStart => rfl
  | afterEnd => rfl
  | onRowset =>
    dsimp only [nextTarget]
    split_ifs
    · rfl
    simp (disch := omega) only [checkedSub_of_le, bind_eq_bind, bind_some]
    split_ifs
    · rfl
    · simp (disch := omega)

theorem bookmarkTarget_isSome {row : Nat} (inside : row < total) :
    (machine.bookmarkTarget total row offset offset.natAbs).isSome := by
  unfold bookmarkTarget
  split_ifs
  · rfl
  · simp (disch := omega)
  simp (disch := omega) only [checkedSub_of_le, bind_eq_bind, bind_some]
  split_ifs
  · rfl
  · simp (disch := omega)

omit fits in
theorem lastTarget_isSome : (lastTarget total size).isSome := by
  unfold lastTarget
  split_ifs
  · simp (disch := omega)
  · rfl

variable (counted : cursor.currentRow ≤ machine.sizeMax) (isLength : machine.IsLength offset)
  (named : ∀ row, orientation = .bookmark row → row < total)

include counted isLength named

theorem exists_staticTarget :
    ∃ target, machine.staticTarget cursor total size orientation offset = some target ∧
      (total = 0 → target.position ≠ .onRowset) := by
  have oriented :
      (machine.orientedTarget cursor total size orientation offset offset.natAbs).isSome := by
    have prior : cursor.currentRow - 1 ≤ machine.sizeMax := by omega
    cases orientation with
    | next => exact nextTarget_isSome fits
    | first => rfl
    | last => exact lastTarget_isSome
    | prior => exact priorTarget_isSome
    | absolute => exact absoluteTarget_isSome fits
    | relative => exact relativeTarget_isSome fits prior
    | bookmark row => exact bookmarkTarget_isSome fits (named row rfl)
  obtain ⟨target, found⟩ := Option.isSome_iff_exists.mp oriented
  simp only [staticTarget, magnitude_of_isLength isLength, found, bind_eq_bind,
    bind_some]
  refine ⟨_, rfl, ?_⟩
  intro empty
  split_ifs with onRowset
  · exact nofun
  · exact fun position => onRowset ⟨position, empty⟩

theorem exists_fetchTarget (staticCursor : Bool) :
    ∃ target, machine.fetchTarget staticCursor cursor total size orientation offset =
      some target := by
  unfold fetchTarget
  split_ifs with isStatic continues
  · obtain ⟨target, found, -⟩ := @exists_staticTarget machine cursor total size orientation offset
      fits counted isLength named
    simp only [found, bind_eq_bind, bind_some]
    exact ⟨_, rfl⟩
  · have started : cursor.currentRow ≠ 0 := by
      simp only [Bool.and_eq_true, decide_eq_true_eq] at continues
      exact continues.1
    rw [checkedSub_of_le (by omega), bind_eq_bind, bind_some]
    split_ifs with past
    · exact ⟨_, rfl⟩
    rw [checkedSub_of_le (by omega), bind_some]
    split_ifs with last
    · exact ⟨_, rfl⟩
    rw [checkedSub_of_le (by omega), bind_some]
    split_ifs with wraps
    · exact ⟨_, rfl⟩
    · rw [checkedNat_of_le (by omega)]
      exact ⟨_, rfl⟩
  · exact ⟨_, rfl⟩

omit counted isLength named in
theorem exists_move (staticCursor : Bool) (target : FetchTarget) :
    ∃ moved, machine.move staticCursor cursor target total size = some moved := by
  unfold move
  split_ifs with nowhere
  · exact ⟨_, rfl⟩
  have inside : target.start < total := not_le.mp fun past => nowhere (.inr past)
  rw [checkedSub_of_le (by omega), checkedNat_of_le (by omega)]
  exact ⟨_, rfl⟩

end Machine
end Odbcpp.Odbc
