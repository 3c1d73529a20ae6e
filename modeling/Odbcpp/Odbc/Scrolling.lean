import Odbcpp.Odbc.Rowset
import Odbcpp.Odbc.ScrollTables
import Odbcpp.Foundation.Reachability

/-!
# Fetches of a static cursor

`fetch_scroll` and `fetch_impl` follow the positioning tables from every cursor that
fetches can reach, for every orientation, offset and rowset size. Over no rows the
source departs from the tables on purpose: every fetch finds nothing.
-/

namespace Odbcpp.Odbc

open Foundation List

variable {target : CType} {diagnostic : Diagnostic} {platform : Platform}
  {binding : BoundResultField} {sqlType : SqlType} {value : Bytes}

/-! ### The rows of a rowset do not warn about its position -/

theorem RowBindings.diagnostic_diagnose (bindings : RowBindings) (place : RowPlace) (column : Nat)
    (diagnostic : Diagnostic) :
    (bindings.diagnose place column diagnostic).diagnostic = diagnostic := by
  unfold RowBindings.diagnose
  split_ifs <;> rfl

theorem conversionDiagnostic_state {ret issue}
    (reported : conversionDiagnostic ret issue = some diagnostic) : diagnostic.state ≠ "01S06" := by
  cases ret with
  | success => cases reported
  | successWithInfo =>
    simp only [conversionDiagnostic] at reported
    split_ifs at reported <;> cases reported <;> decide
  | error => cases issue <;> cases reported <;> decide

theorem formattedText_state {length : Nat}
    (failed : formattedText platform sqlType target length value = .error diagnostic) :
    diagnostic.state ≠ "01S06" := by
  unfold formattedText at failed
  split at failed
  · cases failed
  split at failed
  · split at failed
    · cases failed
      decide
    dsimp only at failed
    generalize (if target = CType.wchar then 2 * platform.wcharSize else 2) = required at failed
    split at failed <;> cases failed
    decide
  · cases failed

theorem BoundResultField.convert_state {parsers info}
    (failed : binding.convert platform parsers info sqlType target value = .error diagnostic) :
    diagnostic.state ≠ "01S06" := by
  unfold BoundResultField.convert at failed
  split at failed
  · unfold BoundResultField.convertData at failed
    split at failed
    · cases failed
    split at failed
    · cases failed
    split at failed
    · rename_i text
      cases failed
      exact formattedText_state text
    · split at failed <;> cases failed
      decide
  · cases failed

namespace Machine

variable {machine : Machine} {parsers : Parsers} {result : ResultSet} {layout : RowLayout}
  {settings : FetchSettings} {bindings : RowBindings} {place : RowPlace}

variable {index : Nat} {entry : RowDiagnostic}

theorem fetchBoundColumn_state {cell} (reported : entry ∈
      (machine.fetchBoundColumn parsers result layout bindings place index binding cell).diagnostics) :
    entry.diagnostic.state ≠ "01S06" := by
  have attributed : ∀ {diagnostic : Diagnostic}, diagnostic.state ≠ "01S06" →
      entry = bindings.diagnose place (index + 1) diagnostic →
      entry.diagnostic.state ≠ "01S06" := by
    rintro diagnostic other rfl
    rwa [bindings.diagnostic_diagnose]
  unfold fetchBoundColumn at reported
  dsimp only at reported
  split at reported
  · exact attributed (by decide) (mem_singleton.mp reported)
  split at reported
  · split at reported
    · exact attributed (by decide) (mem_singleton.mp reported)
    · cases reported
  split at reported
  · exact attributed (by decide) (mem_singleton.mp reported)
  split at reported
  · rename_i failed
    exact attributed (BoundResultField.convert_state failed) (mem_singleton.mp reported)
  rename_i conversion _
  have inList : entry ∈ (conversionDiagnostic conversion.ret conversion.issue).toList.map
      (bindings.diagnose place (index + 1)) := by
    split at reported <;> exact reported
  obtain ⟨diagnostic, isReported, rfl⟩ := mem_map.mp inList
  exact attributed (conversionDiagnostic_state (Option.mem_toList.mp isReported)) rfl

theorem mem_diagnostics_andThen {first rest : RowFetch}
    (reported : entry ∈ (first.andThen rest).diagnostics) :
    entry ∈ first.diagnostics ∨ entry ∈ rest.diagnostics := by
  unfold RowFetch.andThen at reported
  split_ifs at reported
  · exact .inl reported
  · exact mem_append.mp reported

theorem fetchBoundColumns_state {columns}
    (reported : entry ∈
      (machine.fetchBoundColumns parsers result layout bindings place index columns).diagnostics) :
    entry.diagnostic.state ≠ "01S06" := by
  induction columns generalizing index with
  | nil => cases reported
  | cons column rest ih =>
    unfold fetchBoundColumns at reported
    split_ifs at reported
    · exact ih reported
    rcases mem_diagnostics_andThen reported with here | later
    · exact fetchBoundColumn_state here
    · exact ih later

theorem fetchBoundRow_state (reported : entry ∈
      (machine.fetchBoundRow parsers result layout settings bindings place).diagnostics) :
    entry.diagnostic.state ≠ "01S06" := by
  rcases mem_diagnostics_andThen reported with bookmark | column
  · cases bookmark
  · exact fetchBoundColumns_state column

end Machine

/-! ### A fetch follows the tables -/

/-- The arguments of a fetch. -/
structure FetchCall where
  memory : Memory
  settings : FetchSettings
  orientation : FetchOrientation
  offset : Int

def Machine.fetchCall (machine : Machine) (parsers : Parsers) (result : ResultSet)
    (cursor : Cursor) (call : FetchCall) : Option FetchOutcome :=
  machine.fetchScroll parsers call.memory call.settings result cursor call.orientation call.offset

/-- The orientation and the size a call asks for, if it passes the checks on the
statement and the application's layout. -/
def FetchCall.request (machine : Machine) (result : ResultSet) (call : FetchCall) :
    Option (Orientation × Nat) :=
  if call.orientation = .bookmark && call.settings.bookmarkMode = .off then none
  else
    match machine.admitFetch call.memory call.settings result {} call.orientation,
        machine.checkLayout call.memory call.settings result with
    | .ok orientation, .ok layout => some (orientation, layout.size)
    | _, _ => none

theorem FetchOutcome.Refused.placed {cursor : Cursor} {outcome : FetchOutcome} {total : Nat}
    (refused : outcome.Refused cursor) (placed : cursor.Placed total) :
    outcome.cursor.Placed total := by
  obtain ⟨failed, same⟩ := refused.cursor
  rw [same]
  exact ⟨placed.onRowset, placed.offRowset, placed.positioned⟩

/-- The fetch did what the landing says. -/
structure FetchOutcome.Follows (before : Cursor) (total size : Nat) (landing : Landing)
    (outcome : FetchOutcome) : Prop where
  scroll : outcome.cursor.scroll = before.scroll.after size landing
  rows : outcome.rows = landing.position.rows total size
  warning : (∃ entry ∈ outcome.diagnostics, entry.diagnostic.state = "01S06") ↔
    landing.overlaps = true
  noData : outcome.ret = .noData ↔ ∀ first, landing.position ≠ .rowset first

namespace Machine

variable {machine : Machine} {parsers : Parsers} {result : ResultSet} {layout : RowLayout}
  {settings : FetchSettings} {cursor : Cursor} {memory : Memory}

theorem rowsetReturn_ne_noData (warning : Bool) (rows : List RowFetch) :
    rowsetReturn warning rows ≠ .noData := by
  unfold rowsetReturn
  dsimp only
  split_ifs <;> exact nofun

section FetchRows

variable (overlap : Bool) (rows : List Nat)

theorem fetchRows_cursor :
    (machine.fetchRows parsers settings result layout overlap cursor rows).cursor = cursor := by
  unfold fetchRows
  split_ifs <;> rfl

theorem fetchRows_rows :
    (machine.fetchRows parsers settings result layout overlap cursor rows).rows = rows := by
  unfold fetchRows
  dsimp only
  split_ifs with empty
  · exact (isEmpty_iff.mp empty).symm
  all_goals rfl

theorem fetchRows_noData :
    (machine.fetchRows parsers settings result layout overlap cursor rows).ret = .noData ↔
      rows = [] := by
  unfold fetchRows
  by_cases empty : rows.isEmpty
  · rw [if_pos empty]
    simpa using empty
  have notEmpty : rows ≠ [] := by simpa using empty
  rw [if_neg empty]
  split
  · cases overlap <;> simp [notEmpty]
  · simp [rowsetReturn_ne_noData, notEmpty]

theorem fetchRows_warning (some : rows ≠ []) :
    (∃ entry ∈ (machine.fetchRows parsers settings result layout overlap cursor rows).diagnostics,
      entry.diagnostic.state = "01S06") ↔ overlap = true := by
  have notEmpty : ¬ rows.isEmpty = true := by simpa using some
  have warns : (∃ entry ∈ (if overlap then [overlapWarning] else []),
      entry.diagnostic.state = "01S06") ↔ overlap = true := by
    cases overlap <;> simp [overlapWarning]
  unfold fetchRows
  rw [if_neg notEmpty]
  split
  · exact warns
  constructor
  · rintro ⟨entry, reported, isWarning⟩
    rcases mem_append.mp reported with row | warning
    · obtain ⟨fetched, isRow, inRow⟩ := mem_flatMap.mp row
      obtain ⟨place, -, rfl⟩ := mem_map.mp isRow
      exact absurd isWarning (fetchBoundRow_state inRow)
    · exact warns.mp ⟨entry, warning, isWarning⟩
  intro overlaps
  obtain ⟨entry, reported, isWarning⟩ := warns.mpr overlaps
  exact ⟨entry, mem_append_right _ reported, isWarning⟩

theorem fetchRows_warning_nil :
    (machine.fetchRows parsers settings result layout overlap cursor []).diagnostics = [] := rfl

end FetchRows

/-! ### One call -/

theorem admitFetch_positioned {orientation}
    (positioned : cursor.bulkUnpositioned = false) :
    machine.admitFetch memory settings result cursor orientation =
      machine.admitFetch memory settings result {} orientation := by
  simp only [admitFetch, positioned]

section Step

variable {call : FetchCall} {orientation : Orientation} {size : Nat} {offset : Int}

theorem fetchCall_static (isStatic : call.settings.staticCursor) :
    machine.fetchCall parsers result cursor call =
      if call.orientation = .bookmark && call.settings.bookmarkMode = .off then
        some (.refuse cursor
          ⟨"HYC00", "Bookmark fetch is not supported when bookmarks are disabled"⟩)
      else
        machine.fetchImpl parsers call.memory call.settings result cursor call.orientation
          call.offset := by
  unfold fetchCall fetchScroll
  by_cases isBookmark : call.orientation = .bookmark
  · by_cases isOff : call.settings.bookmarkMode = .off <;> simp [isBookmark, isOff, isStatic]
  · simp [isBookmark, isStatic]

theorem fetchCall_refused (isStatic : call.settings.staticCursor)
    (positioned : cursor.bulkUnpositioned = false) (none : call.request machine result = none) :
    ∃ outcome, machine.fetchCall parsers result cursor call = some outcome ∧
      outcome.Refused cursor := by
  rw [fetchCall_static isStatic]
  unfold FetchCall.request at none
  split_ifs at none ⊢
  · exact ⟨_, rfl, FetchOutcome.refused_refuse cursor cursor.fetchFailed _⟩
  unfold fetchImpl
  rw [admitFetch_positioned positioned]
  split at none
  · cases none
  rename_i rejected
  split
  · exact ⟨_, rfl, FetchOutcome.refused_refuse cursor _ _⟩
  rename_i admitted
  split
  · exact ⟨_, rfl, FetchOutcome.refused_refuse cursor cursor.fetchFailed _⟩
  · rename_i passed
    exact absurd passed (rejected _ _ admitted)

theorem fetchCall_requested (isStatic : call.settings.staticCursor)
    (positioned : cursor.bulkUnpositioned = false)
    (requested : call.request machine result = some (orientation, size)) :
    ∃ layout : RowLayout, layout.size = size ∧ 0 < size ∧
      (∀ row, orientation = .bookmark row → row < result.total) ∧
      machine.fetchCall parsers result cursor call =
        machine.fetchRowset parsers call.settings result layout cursor orientation call.offset := by
  rw [fetchCall_static isStatic]
  unfold FetchCall.request at requested
  split_ifs at requested ⊢
  unfold fetchImpl
  rw [admitFetch_positioned positioned]
  split at requested
  · rename_i admitted passed
    cases requested
    refine ⟨_, rfl, (layoutChecked_of_ok passed).sized, ?_, ?_⟩
    · exact fun row isBookmark => admitFetch_named admitted isBookmark
    · rw [admitted, passed]
  · cases requested

theorem fetchRowset_of_onRowset {start overlap}
    (fits : result.total ≤ machine.sizeMax) (isStatic : settings.staticCursor)
    (inside : start < result.total)
    (found : machine.staticTarget cursor result.total layout.size orientation offset =
      some ⟨.onRowset, start, overlap⟩) :
    machine.fetchRowset parsers settings result layout cursor orientation offset =
      if machine.sqlulenMax < start + 1 then
        some (.refuse cursor ⟨"HY024", "Static cursor row number is out of range"⟩)
      else
        some (machine.fetchRows parsers settings result layout overlap
          (.enterRowset .onRowset (start + 1) layout.size (min layout.size (result.total - start)))
          (List.range' start (min layout.size (result.total - start)))) := by
  simp [fetchRowset, fetchTarget, move, isStatic, found, not_le.mpr inside, inside.le,
    inside.trans_le fits]

theorem fetchRowset_of_offRowset {target} (isStatic : settings.staticCursor)
    (off : target.position ≠ .onRowset)
    (found : machine.staticTarget cursor result.total layout.size orientation offset =
      some target) : machine.fetchRowset parsers settings result layout cursor orientation offset =
      some (machine.fetchRows parsers settings result layout target.overlap
        (cursor.leaveRowset true target.position) []) := by
  simp [fetchRowset, fetchTarget, move, isStatic, found, off]

theorem placed_leaveRowset {position : StaticPosition} (off : position ≠ .onRowset) :
    (cursor.leaveRowset true position).Placed result.total :=
  ⟨fun on => absurd on off, fun _ => rfl, rfl⟩

variable (fits : result.total ≤ machine.sizeMax) (isStatic : settings.staticCursor)
  (placed : cursor.Placed result.total) (isLength : machine.IsLength offset)
  (named : ∀ row, orientation = .bookmark row → row < result.total)

include fits isStatic placed isLength named

/-- Over no rows every fetch ends after the last row, or before the first, with nothing. -/
theorem fetchRowset_empty (empty : result.total = 0) :
    ∃ outcome, machine.fetchRowset parsers settings result layout cursor orientation offset =
        some outcome ∧ outcome.ret = .noData ∧ outcome.rows = [] ∧ outcome.diagnostics = [] ∧
        outcome.cursor.Placed result.total := by
  have counted : cursor.currentRow ≤ machine.sizeMax := by
    by_cases onRowset : cursor.staticPosition = .onRowset
    · have := placed.onRowset onRowset
      omega
    · have := placed.offRowset onRowset
      omega
  obtain ⟨target, found, offRowset⟩ := @exists_staticTarget machine cursor result.total layout.size
    orientation offset fits counted isLength named
  have off := offRowset empty
  refine ⟨_, fetchRowset_of_offRowset isStatic off found, rfl, rfl, rfl, ?_⟩
  rw [fetchRows_cursor]
  exact placed_leaveRowset off

/-- Over at least one row a fetch follows the tables, unless the number of its first
row is no `SQLULEN`. -/
theorem fetchRowset_follows (sized : 0 < layout.size) (rows : 0 < result.total) :
    ∃ outcome, machine.fetchRowset parsers settings result layout cursor orientation offset =
        some outcome ∧
      ((∃ first, (cursor.scroll.land result.total layout.size orientation offset).position =
          .rowset first ∧ machine.sqlulenMax < first) ∧ outcome.Refused cursor ∨
        (∀ first, (cursor.scroll.land result.total layout.size orientation offset).position =
          .rowset first → first ≤ machine.sqlulenMax) ∧
        outcome.Follows cursor result.total layout.size
          (cursor.scroll.land result.total layout.size orientation offset) ∧
        outcome.cursor.Placed result.total) := by
  obtain ⟨⟨position, start, overlap⟩, found, lands, inside, apart⟩ :=
    staticTarget_lands rows fits sized isLength placed named
  rw [← lands]
  by_cases onRowset : position = .onRowset
  · subst onRowset
    have inside : start < result.total := inside rfl
    rw [fetchRowset_of_onRowset fits isStatic inside found]
    by_cases numbered : machine.sqlulenMax < start + 1
    · rw [if_pos numbered]
      exact ⟨_, rfl, .inl ⟨⟨start + 1, rfl, numbered⟩,
        FetchOutcome.refused_refuse cursor cursor.fetchFailed _⟩⟩
    rw [if_neg numbered]
    have notEmpty : List.range' start (min layout.size (result.total - start)) ≠ [] := by
      rw [Ne, List.range'_eq_nil_iff]
      omega
    refine ⟨_, rfl, .inr ⟨?_, ?_, ?_⟩⟩
    · rintro first ⟨⟩
      exact not_lt.mp numbered
    · exact {
        scroll := by rw [fetchRows_cursor]; rfl
        rows := fetchRows_rows _ _
        warning := fetchRows_warning _ _ notEmpty
        noData := by
          rw [fetchRows_noData]
          exact iff_of_false notEmpty fun none => none (start + 1) rfl }
    · rw [fetchRows_cursor]
      exact ⟨fun _ => ⟨Nat.succ_pos start, inside⟩, fun off => absurd rfl off, rfl⟩
  · have none : ∀ first, position.at start ≠ .rowset first := by
      cases position with
      | onRowset => exact absurd rfl onRowset
      | beforeStart => exact nofun
      | afterEnd => exact nofun
    refine ⟨_, fetchRowset_of_offRowset isStatic onRowset found, .inr ⟨?_, ?_, ?_⟩⟩
    · exact fun first isFirst => absurd isFirst (none first)
    · exact {
        scroll := by
          rw [fetchRows_cursor]
          cases position with
          | onRowset => exact absurd rfl onRowset
          | beforeStart => rfl
          | afterEnd => rfl
        rows := by
          rw [fetchRows_rows]
          cases position with
          | onRowset => exact absurd rfl onRowset
          | beforeStart => rfl
          | afterEnd => rfl
        warning := by
          rw [fetchRows_warning_nil]
          simpa [StaticTarget.landing] using apart onRowset
        noData := by
          rw [fetchRows_noData]
          exact iff_of_true rfl none }
    · rw [fetchRows_cursor]
      exact placed_leaveRowset onRowset

end Step

/-! ### Histories of fetches -/

variable (machine parsers result)

def StaticFetch (before after : Cursor) : Prop :=
  ∃ call outcome, call.settings.staticCursor ∧ machine.IsLength call.offset ∧
    machine.fetchCall parsers result before call = some outcome ∧ after = outcome.cursor

def fetchCalls : Cursor → List FetchCall → Option (List FetchOutcome)
  | _, [] => some []
  | cursor, call :: rest => do
    let outcome ← machine.fetchCall parsers result cursor call
    let later ← fetchCalls outcome.cursor rest
    some (outcome :: later)

variable {machine parsers result}

section Run

variable {call : FetchCall} {orientation : Orientation} {size : Nat}
  (fits : result.total ≤ machine.sizeMax) {consumed : Nat}

include fits

theorem fetchCall_placed (isStatic : call.settings.staticCursor)
    (isLength : machine.IsLength call.offset) (placed : cursor.Placed result.total) :
    ∃ outcome, machine.fetchCall parsers result cursor call = some outcome ∧
      outcome.cursor.Placed result.total := by
  cases requested : call.request machine result with
  | none =>
    obtain ⟨outcome, called, refused⟩ := fetchCall_refused isStatic placed.positioned requested
    exact ⟨outcome, called, refused.placed placed⟩
  | some request =>
    obtain ⟨orientation, size⟩ := request
    obtain ⟨layout, rfl, sized, named, called⟩ :=
      @fetchCall_requested machine parsers result cursor call orientation size isStatic
        placed.positioned requested
    rw [called]
    rcases Nat.eq_zero_or_pos result.total with empty | rows
    · obtain ⟨outcome, fetched, -, -, -, kept⟩ :=
        fetchRowset_empty fits isStatic placed isLength named empty
      exact ⟨outcome, fetched, kept⟩
    obtain ⟨outcome, fetched, ⟨-, refused⟩ | ⟨-, -, kept⟩⟩ :=
      fetchRowset_follows fits isStatic placed isLength named sized rows
    · exact ⟨outcome, fetched, refused.placed placed⟩
    · exact ⟨outcome, fetched, kept⟩

theorem placed_of_reachable
    (reached : Reachable (· = {}) (machine.StaticFetch parsers result) cursor) :
    cursor.Placed result.total := by
  refine Reachable.invariant ?_ ?_ reached
  · rintro _ rfl
    exact Cursor.placed_initial _
  rintro before after - placed ⟨call, outcome, isStatic, isLength, called, rfl⟩
  obtain ⟨other, same, kept⟩ := @fetchCall_placed machine parsers result before call fits isStatic
    isLength placed
  cases called.symm.trans same
  exact kept

/-- The rows before `consumed` were fetched: the next fetch starts there or finds the end. -/
def Upcoming (total consumed : Nat) (scroll : Scroll) : Prop :=
  total = 0 ∨ scroll.next total =
    if consumed < total then { position := .rowset (consumed + 1) } else { position := .afterEnd }

omit fits in
theorem upcoming_initial (total : Nat) : Upcoming total 0 ({} : Cursor).scroll := by
  rcases Nat.eq_zero_or_pos total with empty | rows
  · exact .inl empty
  refine .inr ?_
  rw [if_pos rows]
  rfl

omit fits in
theorem upcoming_after {total consumed scroll}
    (upcoming : Upcoming total consumed scroll) :
    Upcoming total (consumed + size) (scroll.after size (scroll.next total)) := by
  rcases upcoming with empty | lands
  · exact .inl empty
  refine .inr ?_
  rw [lands]
  by_cases inside : consumed < total
  · rw [if_pos inside, Scroll.after_rowset, Scroll.next_rowset]
    by_cases more : consumed + size < total
    · rw [if_pos (by omega), if_pos more, add_right_comm]
    · rw [if_neg (by omega), if_neg more]
  · rw [if_neg inside, if_neg (by omega)]
    rfl

/-- One `SQL_FETCH_NEXT` delivers the following rows, and reports the end when there
are none. -/
theorem fetchCall_next (numbered : result.total ≤ machine.sqlulenMax)
    (isStatic : call.settings.staticCursor) (isLength : machine.IsLength call.offset)
    (requested : call.request machine result = some (.next, size))
    (placed : cursor.Placed result.total) (upcoming : Upcoming result.total consumed cursor.scroll) :
    ∃ outcome, machine.fetchCall parsers result cursor call = some outcome ∧
      outcome.rows = List.range' consumed (min size (result.total - consumed)) ∧
      (outcome.ret = .noData ↔ result.total ≤ consumed) ∧ outcome.cursor.Placed result.total ∧
      Upcoming result.total (consumed + size) outcome.cursor.scroll := by
  obtain ⟨layout, rfl, sized, named, called⟩ :=
    @fetchCall_requested machine parsers result cursor call .next size isStatic
      placed.positioned requested
  rw [called]
  rcases Nat.eq_zero_or_pos result.total with empty | rows
  · obtain ⟨outcome, fetched, noData, none, -, kept⟩ :=
      fetchRowset_empty fits isStatic placed isLength named empty
    refine ⟨outcome, fetched, ?_, ?_, kept, .inl empty⟩
    · simp [none, empty]
    · simp [noData, empty]
  have landing : cursor.scroll.land result.total layout.size .next call.offset =
      if consumed < result.total then { position := .rowset (consumed + 1) }
      else { position := .afterEnd } := upcoming.resolve_left rows.ne'
  obtain ⟨outcome, fetched, ⟨⟨first, isFirst, beyond⟩, -⟩ | ⟨-, follows, kept⟩⟩ :=
    fetchRowset_follows fits isStatic placed isLength named sized rows
  · rw [landing] at isFirst
    split_ifs at isFirst
    cases isFirst
    omega
  have scroll := follows.scroll
  have ahead := @upcoming_after layout.size _ _ _ upcoming
  have isRows := follows.rows
  have noData := follows.noData
  rw [landing] at isRows noData
  refine ⟨outcome, fetched, ?_, ?_, kept, ?_⟩
  · rw [isRows]
    split_ifs with inside
    · rfl
    · simp [Position.rows, Nat.sub_eq_zero_of_le (not_lt.mp inside)]
  · rw [noData]
    split_ifs with inside
    · exact iff_of_false (fun none => none _ rfl) (not_le.mpr inside)
    · exact iff_of_true nofun (not_lt.mp inside)
  · rw [scroll]
    exact ahead

omit fits in
/-- Consecutive pieces of a range, cut at the end of the result. -/
theorem range'_append_min (start first rest total : Nat) :
    List.range' start (min first (total - start)) ++
        List.range' (start + first) (min rest (total - (start + first))) =
      List.range' start (min (first + rest) (total - start)) := by
  by_cases within : first ≤ total - start
  · have split : min (first + rest) (total - start) =
        first + min rest (total - (start + first)) := by omega
    rw [min_eq_left within, split, ← List.range'_append_1]
  have none : min rest (total - (start + first)) = 0 := by omega
  have all : min (first + rest) (total - start) = min first (total - start) := by omega
  rw [none, all, List.range'_zero, append_nil]

theorem fetchCalls_next (numbered : result.total ≤ machine.sqlulenMax) {calls sizes}
    (requested : List.Forall₂ (fun (call : FetchCall) size => call.settings.staticCursor ∧
      machine.IsLength call.offset ∧ call.request machine result = some (.next, size)) calls sizes)
    (placed : cursor.Placed result.total)
    (upcoming : Upcoming result.total consumed cursor.scroll) :
    ∃ outcomes, machine.fetchCalls parsers result cursor calls = some outcomes ∧
      outcomes.flatMap FetchOutcome.rows =
        List.range' consumed (min sizes.sum (result.total - consumed)) ∧
      ∀ index outcome, outcomes[index]? = some outcome →
        (outcome.ret = .noData ↔ result.total ≤ consumed + (sizes.take index).sum) := by
  induction requested generalizing cursor consumed with
  | nil => exact ⟨[], rfl, by simp, by simp⟩
  | @cons call size calls sizes request _ ih =>
    obtain ⟨isStatic, isLength, request⟩ := request
    obtain ⟨outcome, called, rows, noData, kept, ahead⟩ := @fetchCall_next machine parsers result
      cursor call size fits consumed numbered isStatic isLength request placed upcoming
    obtain ⟨later, calledLater, laterRows, laterNoData⟩ := ih kept ahead
    refine ⟨outcome :: later, ?_, ?_, ?_⟩
    · simp [fetchCalls, called, calledLater]
    · rw [flatMap_cons, rows, laterRows, sum_cons]
      exact range'_append_min _ _ _ _
    intro index found isFound
    cases index with
    | zero =>
      cases isFound
      simpa using noData
    | succ index =>
      rw [laterNoData index found isFound, take_succ_cons, sum_cons, add_assoc]

end Run

/-- A static cursor follows the positioning tables. From every cursor that calls reach, a call
without a request is refused; over at least one row every other call goes where the tables say or is
refused because the row number is no `SQLULEN`; over no rows it finds no data. Repeated
`SQL_FETCH_NEXT` delivers every row once, in order. No arithmetic step overflows. -/
theorem fetchScroll_follows_tables (fits : result.total ≤ machine.sizeMax) :
    (∀ cursor, Reachable (· = {}) (machine.StaticFetch parsers result) cursor →
      ∀ call : FetchCall, call.settings.staticCursor → machine.IsLength call.offset →
        ∃ outcome, machine.fetchCall parsers result cursor call = some outcome ∧
          (call.request machine result = none → outcome.Refused cursor) ∧
          ∀ orientation size, call.request machine result = some (orientation, size) →
            0 < size ∧
            (result.total = 0 →
              outcome.ret = .noData ∧ outcome.rows = [] ∧ outcome.diagnostics = []) ∧
            (0 < result.total →
              (∃ first, (cursor.scroll.land result.total size orientation call.offset).position =
                .rowset first ∧ machine.sqlulenMax < first) ∧ outcome.Refused cursor ∨
              (∀ first, (cursor.scroll.land result.total size orientation call.offset).position =
                .rowset first → first ≤ machine.sqlulenMax) ∧
              outcome.Follows cursor result.total size
                (cursor.scroll.land result.total size orientation call.offset))) ∧
    (result.total ≤ machine.sqlulenMax → ∀ calls sizes,
      List.Forall₂ (fun (call : FetchCall) size => call.settings.staticCursor ∧
        machine.IsLength call.offset ∧ call.request machine result = some (.next, size))
        calls sizes →
      ∃ outcomes, machine.fetchCalls parsers result {} calls = some outcomes ∧
        outcomes.flatMap FetchOutcome.rows = List.range (min sizes.sum result.total) ∧
        ∀ index outcome, outcomes[index]? = some outcome →
          (outcome.ret = .noData ↔ result.total ≤ (sizes.take index).sum)) := by
  constructor
  · intro cursor reached call isStatic isLength
    have placed := placed_of_reachable fits reached
    cases requested : call.request machine result with
    | none =>
      obtain ⟨outcome, called, refused⟩ := fetchCall_refused isStatic placed.positioned requested
      exact ⟨outcome, called, fun _ => refused, nofun⟩
    | some request =>
      obtain ⟨orientation, size⟩ := request
      obtain ⟨layout, rfl, sized, named, called⟩ :=
        @fetchCall_requested machine parsers result cursor call orientation size isStatic
          placed.positioned requested
      rw [called]
      rcases Nat.eq_zero_or_pos result.total with empty | rows
      · obtain ⟨outcome, fetched, noData, none, quiet, -⟩ :=
          fetchRowset_empty fits isStatic placed isLength named empty
        refine ⟨outcome, fetched, nofun, ?_⟩
        rintro _ _ ⟨⟩
        exact ⟨sized, fun _ => ⟨noData, none, quiet⟩, fun rows => absurd empty rows.ne'⟩
      obtain ⟨outcome, fetched, follows⟩ :=
        fetchRowset_follows fits isStatic placed isLength named sized rows
      refine ⟨outcome, fetched, nofun, ?_⟩
      rintro _ _ ⟨⟩
      refine ⟨sized, fun empty => absurd empty rows.ne', fun _ => ?_⟩
      exact follows.imp_right fun ⟨numbered, follows, _⟩ => ⟨numbered, follows⟩
  · intro numbered calls sizes requested
    obtain ⟨outcomes, called, rows, noData⟩ := fetchCalls_next fits numbered requested
      (Cursor.placed_initial _) (upcoming_initial _)
    refine ⟨outcomes, called, ?_, ?_⟩
    · rw [rows, List.range_eq_range', Nat.sub_zero]
    · simpa using noData

def nullRows (count : Nat) : ResultSet :=
  { columnInfo := [{ sqlType := .varchar }], resultRows := List.replicate count [none] }

def nextCall (size : Nat) : FetchCall :=
  { memory := .zero, settings := { ard := { arraySize := size } }, orientation := .next, offset := 0 }

/-- Three rows fetched by twos and then by threes: the second fetch has one row left. -/
theorem fetchScroll_follows_tables_threeRows : (nullRows 3).total ≤ lp64.sizeMax ∧
      ∃ outcomes, lp64.fetchCalls .refusing (nullRows 3) {} [nextCall 2, nextCall 3, nextCall 1] =
          some outcomes ∧
        outcomes.flatMap FetchOutcome.rows = [0, 1, 2] ∧
        outcomes.map FetchOutcome.ret = [.success, .success, .noData] := by
  refine ⟨by decide, ?_⟩
  have requested : ∀ size, size = 2 ∨ size = 3 ∨ size = 1 →
      (nextCall size).settings.staticCursor ∧ lp64.IsLength (nextCall size).offset ∧
        (nextCall size).request lp64 (nullRows 3) = some (.next, size) := by
    rintro size (rfl | rfl | rfl) <;>
      exact ⟨rfl, ⟨by decide, by decide⟩, by decide +kernel⟩
  obtain ⟨outcomes, called, rows, -⟩ :=
    (@fetchScroll_follows_tables lp64 .refusing (nullRows 3) (by decide)).2 (by decide)
      [nextCall 2, nextCall 3, nextCall 1] [2, 3, 1]
      (.cons (requested 2 (by decide)) (.cons (requested 3 (by decide))
        (.cons (requested 1 (by decide)) .nil)))
  refine ⟨outcomes, called, rows, ?_⟩
  have evaluated : (lp64.fetchCalls .refusing (nullRows 3) {}
      [nextCall 2, nextCall 3, nextCall 1]).map (List.map FetchOutcome.ret) =
        some [.success, .success, .noData] := by decide +kernel
  simpa [called] using evaluated

/-- Over no rows the source leaves the tables: one row back from the end is before the start for the
source, and the first row with a warning for the tables. -/
theorem absolute_empty_departs_from_tables :
    Scroll.land 0 1 ({} : Cursor).scroll .absolute (-1) = ⟨.rowset 1, true⟩ ∧
      (lp64.fetchCall .refusing (nullRows 0) {}
          { nextCall 1 with orientation := .absolute, offset := -1 }).map
        (fun outcome => (outcome.ret, outcome.cursor.scroll.position, outcome.diagnostics)) =
        some (.noData, .beforeStart, []) := by
  decide +kernel

end Machine
end Odbcpp.Odbc
