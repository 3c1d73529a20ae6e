import Odbcpp.Odbc.Cursor

/-!
# The positioning tables of `SQLFetchScroll`

The cursor positioning tables of ODBC 3, written as the tables are: rows count from
one, positions are compared with `LastResultRow` and sizes are unbounded. The targets
that the source computes for a static cursor over at least one row are those of the
tables.
-/

namespace Odbcpp.Odbc

open Foundation
open Option (bind_eq_bind bind_some)

/-- Where a scrollable cursor stands; the first row of a rowset is counted from one. -/
inductive Position where
  | beforeStart
  | rowset (first : Nat)
  | afterEnd
deriving DecidableEq

/-- A position of the tables, and whether it comes with the warning 01S06. -/
structure Landing where
  position : Position
  overlaps : Bool := false
deriving DecidableEq

/-- What the tables depend on: the position, and the size of the rowset fetched last. -/
structure Scroll where
  position : Position
  previousSize : Nat
deriving DecidableEq

namespace Scroll

variable (lastResultRow rowsetSize : Nat)

/-- `SQL_FETCH_ABSOLUTE`. -/
def absolute (offset : Int) : Landing :=
  if offset < 0 then
    if -offset ≤ lastResultRow then { position := .rowset (lastResultRow + offset + 1).toNat }
    else if rowsetSize < -offset then { position := .beforeStart }
    else { position := .rowset 1, overlaps := true }
  else if offset = 0 then { position := .beforeStart }
  else if offset ≤ lastResultRow then { position := .rowset offset.toNat }
  else { position := .afterEnd }

/-- `SQL_FETCH_RELATIVE`. -/
def relative (offset : Int) : Position → Landing
  | .beforeStart =>
    if 0 < offset then absolute lastResultRow rowsetSize offset else { position := .beforeStart }
  | .afterEnd =>
    if offset < 0 then absolute lastResultRow rowsetSize offset else { position := .afterEnd }
  | .rowset current =>
    if current = 1 ∧ offset < 0 then { position := .beforeStart }
    else if current + offset < 1 then
      if rowsetSize < -offset then { position := .beforeStart }
      else { position := .rowset 1, overlaps := true }
    else if current + offset ≤ lastResultRow then
      { position := .rowset (current + offset).toNat }
    else { position := .afterEnd }

/-- `SQL_FETCH_PRIOR`. -/
def prior : Position → Landing
  | .beforeStart => { position := .beforeStart }
  | .rowset current =>
    if current = 1 then { position := .beforeStart }
    else if current ≤ rowsetSize then { position := .rowset 1, overlaps := true }
    else { position := .rowset (current - rowsetSize) }
  | .afterEnd =>
    if lastResultRow < rowsetSize then { position := .rowset 1, overlaps := true }
    else { position := .rowset (lastResultRow - rowsetSize + 1) }

/-- `SQL_FETCH_NEXT`, the one rule that looks at the size fetched before. -/
def next (scroll : Scroll) : Landing :=
  match scroll.position with
  | .beforeStart => { position := .rowset 1 }
  | .rowset current =>
    if current + scroll.previousSize ≤ lastResultRow then
      { position := .rowset (current + scroll.previousSize) }
    else { position := .afterEnd }
  | .afterEnd => { position := .afterEnd }

/-- `SQL_FETCH_LAST`. -/
def last : Landing :=
  if rowsetSize ≤ lastResultRow then { position := .rowset (lastResultRow - rowsetSize + 1) }
  else { position := .rowset 1 }

/-- `SQL_FETCH_BOOKMARK`, for the bookmark of a row counted from one. -/
def bookmark (row : Nat) (offset : Int) : Landing :=
  if row + offset < 1 then { position := .beforeStart }
  else if row + offset ≤ lastResultRow then { position := .rowset (row + offset).toNat }
  else { position := .afterEnd }

/-- The tables. -/
def land (scroll : Scroll) (orientation : Orientation) (offset : Int) : Landing :=
  match orientation with
  | .next => scroll.next lastResultRow
  | .first => { position := .rowset 1 }
  | .last => last lastResultRow rowsetSize
  | .prior => prior lastResultRow rowsetSize scroll.position
  | .absolute => absolute lastResultRow rowsetSize offset
  | .relative => relative lastResultRow rowsetSize offset scroll.position
  | .bookmark row => bookmark lastResultRow (row + 1) offset

/-- The state after a fetch: a fetch that finds no rowset keeps the size. -/
def after (scroll : Scroll) (landing : Landing) : Scroll :=
  match landing.position with
  | .rowset _ => { position := landing.position, previousSize := rowsetSize }
  | _ => { scroll with position := landing.position }

@[simp] theorem after_rowset (scroll : Scroll) (first : Nat) (overlaps : Bool) :
    scroll.after rowsetSize ⟨.rowset first, overlaps⟩ = ⟨.rowset first, rowsetSize⟩ := rfl

@[simp] theorem next_rowset (first previousSize : Nat) :
    next lastResultRow ⟨.rowset first, previousSize⟩ =
      if first + previousSize ≤ lastResultRow then { position := .rowset (first + previousSize) }
      else { position := .afterEnd } := rfl

end Scroll

def Position.rows (total size : Nat) : Position → List Nat
  | .rowset first => List.range' (first - 1) (min size (total - (first - 1)))
  | _ => []

/-! ### The targets of the source are those of the tables -/

def StaticPosition.at (start : Nat) : StaticPosition → Position
  | .beforeStart => .beforeStart
  | .onRowset => .rowset (start + 1)
  | .afterEnd => .afterEnd

def StaticTarget.landing (target : StaticTarget) : Landing :=
  ⟨target.position.at target.start, target.overlap⟩

/-- The state of the tables a cursor stands for. -/
def Cursor.scroll (cursor : Cursor) : Scroll :=
  ⟨cursor.staticPosition.at (cursor.currentRow - 1), cursor.fetchedRowsetSize⟩

/-- The row of a cursor agrees with its position. -/
structure Cursor.Placed (total : Nat) (cursor : Cursor) : Prop where
  onRowset : cursor.staticPosition = .onRowset → 0 < cursor.currentRow ∧ cursor.currentRow ≤ total
  offRowset : cursor.staticPosition ≠ .onRowset → cursor.currentRow = 0
  positioned : cursor.bulkUnpositioned = false

theorem Cursor.placed_initial (total : Nat) : ({} : Cursor).Placed total where
  onRowset := nofun
  offRowset _ := rfl
  positioned := rfl

namespace Machine

variable {machine : Machine} {total size : Nat} {offset : Int}

/-- A target was computed, it is the one of the tables, its rowset has a first row and
only a rowset overlaps the start. -/
def Lands (total : Nat) (found : Option StaticTarget) (landing : Landing) : Prop :=
  ∃ target, found = some target ∧ target.landing = landing ∧
    (target.position = .onRowset → target.start < total) ∧
    (target.position ≠ .onRowset → target.overlap = false)

theorem lands_beforeStart :
    Lands total (some { position := .beforeStart }) { position := .beforeStart } :=
  ⟨_, rfl, rfl, nofun, fun _ => rfl⟩

theorem lands_afterEnd : Lands total (some { position := .afterEnd }) { position := .afterEnd } :=
  ⟨_, rfl, rfl, nofun, fun _ => rfl⟩

theorem lands_rowset {start first overlap} (inside : start < total)
    (row : first = start + 1) :
    Lands total (some ⟨.onRowset, start, overlap⟩) ⟨.rowset first, overlap⟩ := by
  subst row
  exact ⟨_, rfl, rfl, fun _ => inside, fun off => absurd rfl off⟩

section Cases

variable (rows : 0 < total) (fits : total ≤ machine.sizeMax) {position : StaticPosition}

include rows fits

theorem absoluteTarget_lands : Lands total (machine.absoluteTarget total size offset offset.natAbs)
      (Scroll.absolute total size offset) := by
  unfold absoluteTarget Scroll.absolute
  rcases lt_trichotomy offset 0 with negative | zero | positive
  · rw [if_neg (by omega), if_neg (by omega), if_pos negative]
    by_cases within : -offset ≤ total
    · rw [if_pos (by omega), if_pos within]
      simp (disch := omega) only [checkedNat_of_le, checkedSub_of_le, bind_eq_bind,
        bind_some]
      exact lands_rowset (by omega) (by omega)
    rw [if_neg (by omega), if_neg within]
    by_cases large : size < -offset
    · rw [if_neg (by omega), if_pos large]
      exact lands_beforeStart
    · rw [if_pos (by omega), if_neg large]
      exact lands_rowset rows rfl
  · rw [if_pos zero, if_neg (by omega), if_pos zero]
    exact lands_beforeStart
  · rw [if_neg (by omega), if_pos positive]
    by_cases within : offset ≤ total
    · rw [if_neg (by omega), if_neg (by omega), if_neg (by omega), if_pos within]
      simp (disch := omega) only [checkedNat_of_le, checkedSub_of_le, bind_eq_bind,
        bind_some]
      exact lands_rowset (by omega) (by omega)
    · rw [if_pos (by omega), if_neg (by omega), if_neg (by omega), if_neg within]
      exact lands_afterEnd

omit rows in
theorem bookmarkTarget_lands {row : Nat} (inside : row < total) :
    Lands total (machine.bookmarkTarget total row offset offset.natAbs)
      (Scroll.bookmark total (row + 1) offset) := by
  unfold bookmarkTarget Scroll.bookmark
  push_cast
  by_cases before : row + 1 + offset < 1
  · rw [if_pos (by omega), if_pos (by omega), if_pos before]
    exact lands_beforeStart
  rw [if_neg before]
  by_cases negative : offset < 0
  · rw [if_pos negative, if_neg (by omega), if_pos (by omega)]
    simp (disch := omega) only [checkedNat_of_le, checkedSub_of_le, bind_eq_bind,
      bind_some]
    exact lands_rowset (by omega) (by omega)
  rw [if_neg negative]
  simp (disch := omega) only [checkedSub_of_le, bind_eq_bind, bind_some]
  by_cases within : row + 1 + offset ≤ total
  · rw [if_neg (by omega), if_pos within]
    simp (disch := omega) only [checkedNat_of_le, bind_some]
    exact lands_rowset (by omega) (by omega)
  · rw [if_pos (by omega), if_neg within]
    exact lands_afterEnd

theorem relativeTarget_lands {prior : Nat} (placed : position = .onRowset → prior < total) :
    Lands total (machine.relativeTarget position total size prior offset offset.natAbs)
      (Scroll.relative total size offset (position.at prior)) := by
  cases position with
  | beforeStart =>
    dsimp only [relativeTarget, Scroll.relative, StaticPosition.at]
    split_ifs
    · exact absoluteTarget_lands rows fits
    · exact lands_beforeStart
  | afterEnd =>
    dsimp only [relativeTarget, Scroll.relative, StaticPosition.at]
    split_ifs
    · exact absoluteTarget_lands rows fits
    · exact lands_afterEnd
  | onRowset =>
    have inside := placed rfl
    dsimp only [relativeTarget, Scroll.relative, StaticPosition.at]
    push_cast
    by_cases forward : 0 ≤ offset
    · rw [if_pos forward, if_neg (by omega), if_neg (by omega), if_neg (by omega)]
      simp (disch := omega) only [checkedSub_of_le, bind_eq_bind, bind_some]
      by_cases within : prior + 1 + offset ≤ total
      · rw [if_neg (by omega), if_pos within]
        simp (disch := omega) only [checkedNat_of_le, bind_some]
        exact lands_rowset (by omega) (by omega)
      · rw [if_pos (by omega), if_neg within]
        exact lands_afterEnd
    rw [if_neg forward]
    by_cases inFront : offset.natAbs ≤ prior
    · rw [if_pos inFront, if_neg (by omega), if_neg (by omega), if_pos (by omega)]
      simp (disch := omega) only [checkedNat_of_le, checkedSub_of_le, bind_eq_bind,
        bind_some]
      exact lands_rowset (by omega) (by omega)
    rw [if_neg inFront]
    by_cases overlaps : prior ≠ 0 ∧ offset.natAbs ≤ size
    · rw [if_pos overlaps, if_neg (by omega), if_pos (by omega), if_neg (by omega)]
      exact lands_rowset rows rfl
    rw [if_neg overlaps]
    by_cases first : prior = 0
    · rw [if_pos (by omega)]
      exact lands_beforeStart
    · rw [if_neg (by omega), if_pos (by omega), if_pos (by omega)]
      exact lands_beforeStart

omit fits in
theorem priorTarget_lands {prior : Nat} (sized : 0 < size)
    (placed : position = .onRowset → prior < total) :
    Lands total (priorTarget position total size prior)
      (Scroll.prior total size (position.at prior)) := by
  cases position with
  | beforeStart => exact lands_beforeStart
  | afterEnd =>
    dsimp only [priorTarget, Scroll.prior, StaticPosition.at]
    by_cases small : total < size
    · have overlaps : decide (total < size ∧ total ≠ 0) = true := by
        simp
        omega
      rw [if_neg (by omega), if_pos small, overlaps]
      exact lands_rowset rows rfl
    have apart : decide (total < size ∧ total ≠ 0) = false := by
      simp
      omega
    rw [if_pos (by omega), if_neg small, apart]
    simp (disch := omega) only [checkedSub_of_le, bind_eq_bind, bind_some]
    exact lands_rowset (by omega) (by omega)
  | onRowset =>
    have inside := placed rfl
    dsimp only [priorTarget, Scroll.prior, StaticPosition.at]
    by_cases first : prior = 0
    · rw [if_pos first, if_pos (by omega)]
      exact lands_beforeStart
    rw [if_neg first]
    by_cases small : prior < size
    · rw [if_pos small, if_neg (by omega), if_pos (by omega)]
      exact lands_rowset rows rfl
    rw [if_neg small, if_neg (by omega), if_neg (by omega)]
    simp (disch := omega) only [checkedSub_of_le, bind_eq_bind, bind_some]
    exact lands_rowset (by omega) (by omega)

theorem nextTarget_lands {prior previousSize : Nat}
    (placed : position = .onRowset → prior < total) :
    Lands total (machine.nextTarget position total prior previousSize)
      (Scroll.next total ⟨position.at prior, previousSize⟩) := by
  cases position with
  | beforeStart => exact lands_rowset rows rfl
  | afterEnd => exact lands_afterEnd
  | onRowset =>
    have inside := placed rfl
    dsimp only [nextTarget, Scroll.next, StaticPosition.at]
    rw [if_neg (by omega)]
    simp (disch := omega) only [checkedSub_of_le, bind_eq_bind, bind_some]
    by_cases within : prior + 1 + previousSize ≤ total
    · rw [if_neg (by omega), if_pos within]
      simp (disch := omega) only [checkedNat_of_le, bind_some]
      exact lands_rowset (by omega) (by omega)
    · rw [if_pos (by omega), if_neg within]
      exact lands_afterEnd

omit fits in
theorem lastTarget_lands (sized : 0 < size) :
    Lands total (lastTarget total size) (Scroll.last total size) := by
  unfold lastTarget Scroll.last
  by_cases small : size < total
  · rw [if_pos small, if_pos (by omega), checkedSub_of_le (by omega), Option.map_some]
    exact lands_rowset (by omega) (by omega)
  rw [if_neg small]
  by_cases same : size ≤ total
  · rw [if_pos same]
    exact lands_rowset rows (by omega)
  · rw [if_neg same]
    exact lands_rowset rows rfl

end Cases

/-- Over at least one row the source and the tables agree. -/
theorem staticTarget_lands {cursor orientation} (rows : 0 < total)
    (fits : total ≤ machine.sizeMax) (sized : 0 < size) (isLength : machine.IsLength offset)
    (placed : cursor.Placed total) (named : ∀ row, orientation = .bookmark row → row < total) :
    Lands total (machine.staticTarget cursor total size orientation offset)
      (cursor.scroll.land total size orientation offset) := by
  have inside : cursor.staticPosition = .onRowset → cursor.currentRow - 1 < total := by
    intro onRowset
    have := placed.onRowset onRowset
    omega
  have oriented : Lands total
      (machine.orientedTarget cursor total size orientation offset offset.natAbs)
      (cursor.scroll.land total size orientation offset) := by
    cases orientation with
    | next => exact nextTarget_lands rows fits inside
    | first => exact lands_rowset rows rfl
    | last => exact lastTarget_lands rows sized
    | prior => exact priorTarget_lands rows sized inside
    | absolute => exact absoluteTarget_lands rows fits
    | relative => exact relativeTarget_lands rows fits inside
    | bookmark row => exact bookmarkTarget_lands fits (named row rfl)
  obtain ⟨target, found, lands⟩ := oriented
  refine ⟨target, ?_, lands⟩
  simp only [staticTarget, magnitude_of_isLength isLength, bind_eq_bind, bind_some,
    found]
  rw [if_neg (by omega)]

end Machine

end Odbcpp.Odbc
