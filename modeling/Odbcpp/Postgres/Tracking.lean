import Odbcpp.Postgres.Exchange

/-!
# The extractor follows the phases of the exchange

For each frame tag, what an accepted step of the extraction loop requires and does. One invariant
relates the locals of the loop to the exchange so far: the completed results are those of the
publishing phases, and the result under construction holds the rows no phase has published yet.
-/

namespace Odbcpp.Postgres

open Foundation Database Tag Exchange List Extraction

namespace Extraction

variable {profile : PgCatalogProfile} {idle : Bool} {state next : Extraction} {message : Message}

/-! ## One accepted step -/

variable (stepped : state.step profile idle message = .ok next)
include stepped

theorem step_parseComplete (tag : message.tag = .parseComplete) :
    state.sawBindComplete = false ∧ next = { state with extendedExecution := true } := by
  simp only [step, tag, guard_eq_ok, pure_eq_ok] at stepped
  obtain ⟨unbound, -, same⟩ := stepped
  exact ⟨by simpa using unbound, same.symm⟩

theorem step_rowDescription (tag : message.tag = .rowDescription) :
    (state.hasRowDescription = true → state.current.rows = []) ∧
      ∃ columns, parseRowDescription message.payload = .ok columns ∧ next = { state with
        current := { state.current with columns }
        hasRowDescription := true
        phaseShape := some .resultSet
        bindCompleteSinceDescription := false } := by
  simp only [step, tag, guard_eq_ok, bind_eq_ok, pure_eq_ok] at stepped
  obtain ⟨fresh, columns, parsed, same⟩ := stepped
  refine ⟨fun described => ?_, columns, parsed, same.symm⟩
  by_contra rows
  exact fresh ⟨described, .inr rows⟩

theorem step_dataRow (tag : message.tag = .dataRow) :
    state.hasRowDescription = true ∧ ∃ row, parseDataRow message.payload = .ok row ∧
      row.length = state.current.columns.length ∧
      next = { state with
        current := { state.current with rows := state.current.rows ++ [row] } } := by
  simp only [step, tag, guard_eq_ok, bind_eq_ok, pure_eq_ok] at stepped
  obtain ⟨described, row, parsed, arity, same⟩ := stepped
  exact ⟨by simpa using described, row, parsed, not_not.mp arity, same.symm⟩

theorem step_noData (tag : message.tag = .noData) :
    state.current.rows = [] ∧ next = { state with
      current := { state.current with columns := [] }
      hasRowDescription := false
      phaseShape := some .noResultSet
      bindCompleteSinceDescription := false } := by
  simp only [step, tag, guard_eq_ok, pure_eq_ok] at stepped
  obtain ⟨allowed, same⟩ := stepped
  push Not at allowed
  exact ⟨allowed.2.1, same.symm⟩

theorem step_bindComplete (tag : message.tag = .bindComplete) : next = { state with
      extendedExecution := true
      sawBindComplete := true
      phaseShape := none
      bindCompleteSinceDescription := true } := by
  simp only [step, tag, guard_eq_ok, pure_eq_ok] at stepped
  exact stepped.2.symm

theorem step_parameterDescription (tag : message.tag = .parameterDescription) :
    state.sawBindComplete = false ∧ ∃ parameterTypeIds,
      parseParameterDescription message.payload = .ok parameterTypeIds ∧ next = { state with
        extendedExecution := true
        current := { state.current with parameterTypeIds } } := by
  simp only [step, tag, guard_eq_ok, bind_eq_ok, pure_eq_ok] at stepped
  obtain ⟨unbound, parameterTypeIds, parsed, same⟩ := stepped
  exact ⟨by simpa using unbound, parameterTypeIds, parsed, same.symm⟩

theorem step_commandComplete (tag : message.tag = .commandComplete) :
    ∃ commandTag, next = state.complete (state.commandResult profile idle commandTag) := by
  simp only [step, tag, bind_eq_ok, pure_eq_ok] at stepped
  obtain ⟨commandTag, -, same⟩ := stepped
  exact ⟨commandTag, same.symm⟩

/-- An EmptyQueryResponse changes nothing in a simple exchange, and completes a portal without rows
in an extended one. -/
theorem step_emptyQueryResponse (tag : message.tag = .emptyQueryResponse) :
    (state.extendedExecution = false ∧ next = state) ∨
    (state.extendedExecution = true ∧ state.sawBindComplete = true ∧
      state.phaseShape = some .noResultSet ∧ state.current.rows = [] ∧
      next = state.complete { state.current with
        preparedExecutionAuthority := true
        executionResultShape := some .noResultSet }) := by
  simp only [step, tag, guard_eq_ok] at stepped
  obtain ⟨-, stepped⟩ := stepped
  cases extended : state.extendedExecution with
  | false => simp_all
  | true =>
    simp only [extended, Bool.not_true, Bool.false_eq_true, if_false, guard_eq_ok,
      pure_eq_ok] at stepped
    obtain ⟨authorized, same⟩ := stepped
    push Not at authorized
    obtain ⟨bound, shape, -, -, rows, -⟩ := authorized
    exact .inr ⟨rfl, by simpa using bound, shape, rows, same.symm⟩

theorem step_errorResponse (tag : message.tag = .errorResponse) :
    ∃ fields, next = state.complete (errorResult fields) := by
  simp only [step, tag, bind_eq_ok, pure_eq_ok] at stepped
  obtain ⟨fields, -, same⟩ := stepped
  exact ⟨fields, same.symm⟩

/-- Any other frame leaves the locals as they are. -/
theorem step_ignored (ignored : message.tag.completes = false)
    (unextended : message.tag.marksExtended = false) (undescribed : message.tag.describes = none)
    (noRow : message.tag ≠ .dataRow) : next = state := by
  cases tag : message.tag <;> simp_all [step, completes, marksExtended, describes]

end Extraction

/-! ## The invariant of the loop -/

/-- A result has the authority that its phase announced. -/
structure Authorized (phase : Phase) (result : ParsedResult) : Prop where
  authority : phase.closing ≠ .errorResponse →
    result.preparedExecutionAuthority = (portalShape phase.frames).isSome
  shape : phase.closing ≠ .errorResponse → ∀ {announced}, portalShape phase.frames = some announced →
    result.executionResultShape = some announced

def ParsedResult.rectangular (result : ParsedResult) : Prop :=
  ∀ row ∈ result.rows, row.length = result.columns.length

/-- The state of the extraction is that of the exchange so far. -/
structure Tracks (exchange : Exchange) (state : Extraction) : Prop where
  extended : state.extendedExecution = exchange.extended
  delivered : state.completed.map (·.rows) = (deliveryOf exchange.phases).segments.map Segment.kept
  collected : state.current.rows = (deliveryOf exchange.phases).waiting ++ rowsOf exchange.pending
  described : state.current.rows ≠ [] → state.hasRowDescription = true
  rectangular : state.current.rectangular
  completedRectangular : ∀ result ∈ state.completed, result.rectangular
  authorized : List.Forall₂ Authorized (exchange.phases.filter Phase.publishes) state.completed
  bound : state.sawBindComplete = (afterLastBind exchange.pending).isSome
  portal : state.sawBindComplete = true → state.phaseShape = portalShape exchange.pending
  unboundSimple : exchange.extended = false → state.sawBindComplete = false

namespace Tracks

variable {profile : PgCatalogProfile} {idle : Bool} {exchange : Exchange}
  {state next : Extraction} {message : Message}

theorem initial : Tracks {} {} := by
  constructor <;> simp [deliveryOf, ParsedResult.rectangular, afterLastBind]

theorem complete (tracks : Tracks exchange state) {result}
    (completes : message.tag.completes = true)
    (publishes : (exchange.closedBy message.tag).publishes = true)
    (rows : result.rows = Segment.kept ⟨state.current.rows, message.tag⟩)
    (rectangular : result.rectangular)
    (authorized : Authorized (exchange.closedBy message.tag) result) :
    Tracks (exchange.next message) (state.complete result) := by
  rw [exchange.next_of_completes completes]
  refine {
    extended := tracks.extended
    delivered := ?_
    collected := ?_
    described := by simp [Extraction.complete]
    rectangular := by simp [Extraction.complete, ParsedResult.rectangular]
    completedRectangular := ?_
    authorized := ?_
    bound := by simp [Extraction.complete, afterLastBind]
    portal := by simp [Extraction.complete]
    unboundSimple := by simp [Extraction.complete] }
  · have segment : Segment.mk ((deliveryOf exchange.phases).waiting ++
        (exchange.closedBy message.tag).rows) (exchange.closedBy message.tag).closing =
        ⟨state.current.rows, message.tag⟩ := by
      rw [tracks.collected]
      rfl
    simp [Extraction.complete, Delivery.next, publishes, tracks.delivered, rows, segment]
  · simp [Extraction.complete, Delivery.next, publishes]
  · exact forall_mem_concat tracks.completedRectangular rectangular
  · rw [filter_append]
    simpa [Extraction.complete, publishes] using
      rel_append tracks.authorized (.cons authorized .nil)

/-- A description frame, or a frame that says nothing about rows and portals,
with the locals it may change. -/
theorem pending (tracks : Tracks exchange state) (completes : message.tag.completes = false)
    (noRow : message.tag ≠ .dataRow) (completed : next.completed = state.completed)
    (rows : next.current.rows = state.current.rows)
    (extended : next.extendedExecution = (state.extendedExecution || message.tag.marksExtended))
    (described : state.current.rows ≠ [] → next.hasRowDescription = true)
    (columns : state.current.rows ≠ [] → next.current.columns = state.current.columns)
    (bound : next.sawBindComplete = (state.sawBindComplete || message.tag = .bindComplete))
    (portal : next.sawBindComplete = true → next.phaseShape =
      if message.tag = .bindComplete then none else message.tag.describes.or state.phaseShape) :
    Tracks (exchange.next message) next := by
  have boundHere : next.sawBindComplete =
      (afterLastBind (exchange.pending ++ [message])).isSome := by
    rw [bound, tracks.bound, afterLastBind_snoc]
    by_cases binds : message.tag = .bindComplete <;> simp [binds]
  rw [exchange.next_of_pending completes]
  refine {
    extended := by rw [extended, tracks.extended]
    delivered := by rw [completed, tracks.delivered]
    collected := ?_
    described := fun collected => described (rows ▸ collected)
    rectangular := ?_
    completedRectangular := by rw [completed]; exact tracks.completedRectangular
    authorized := by rw [completed]; exact tracks.authorized
    bound := boundHere
    portal := ?_
    unboundSimple := ?_ }
  · simp [rows, tracks.collected, rowsOf_eq_nil noRow]
  · intro row member
    rw [rows] at member
    rw [columns (ne_nil_of_mem member)]
    exact tracks.rectangular row member
  · intro isBound
    rw [portal isBound, portalShape_snoc]
    by_cases binds : message.tag = .bindComplete
    · simp [binds]
    have already : state.sawBindComplete = true := by simpa [bound, binds] using isBound
    have present : afterLastBind exchange.pending ≠ none := by
      rw [tracks.bound] at already
      exact Option.isSome_iff_ne_none.mp already
    simp [binds, present, tracks.portal already]
  · intro simple
    obtain ⟨earlier, unmarked⟩ : exchange.extended = false ∧ message.tag.marksExtended = false := by
      simpa using simple
    have notBind : message.tag ≠ .bindComplete := by
      intro binds
      simp [binds, marksExtended] at unmarked
    simp [bound, tracks.unboundSimple earlier, notBind]

theorem dataRow (tracks : Tracks exchange state) (tag : message.tag = .dataRow) {row}
    (hasDescription : state.hasRowDescription = true)
    (parsed : parseDataRow message.payload = .ok row)
    (arity : row.length = state.current.columns.length) : Tracks (exchange.next message)
      { state with current := { state.current with rows := state.current.rows ++ [row] } } := by
  rw [exchange.next_of_pending (by simp [tag, completes])]
  refine {
    extended := by simp [tracks.extended, tag, marksExtended]
    delivered := tracks.delivered
    collected := by simp [tracks.collected, rowsOf_eq_singleton tag parsed]
    described := fun _ => hasDescription
    rectangular := ?_
    completedRectangular := tracks.completedRectangular
    authorized := tracks.authorized
    bound := by simp [tracks.bound, afterLastBind_snoc, tag]
    portal := ?_
    unboundSimple := fun simple =>
      tracks.unboundSimple (by simpa [tag, marksExtended] using simple) }
  · exact forall_mem_concat tracks.rectangular arity
  intro isBound
  have present : afterLastBind exchange.pending ≠ none := by
    rw [tracks.bound] at isBound
    exact Option.isSome_iff_ne_none.mp isBound
  simp [portalShape_snoc, tag, present, describes, tracks.portal isBound]

/-- The EmptyQueryResponse of a simple exchange publishes nothing: the collected
rows stay with the result under construction. -/
theorem simpleEmpty (tracks : Tracks exchange state) (tag : message.tag = .emptyQueryResponse)
    (simple : state.extendedExecution = false) : Tracks (exchange.next message) state := by
  have exchangeSimple : exchange.extended = false := by rw [← tracks.extended, simple]
  have silent : (exchange.closedBy message.tag).publishes = false := by
    simp [closedBy, Phase.publishes, tag, exchangeSimple]
  have unbound := tracks.unboundSimple exchangeSimple
  have own : (exchange.closedBy message.tag).rows = rowsOf exchange.pending := rfl
  rw [exchange.next_of_completes (by simp [tag, completes])]
  exact {
    extended := tracks.extended
    delivered := by simp [Delivery.next, silent, tracks.delivered]
    collected := by simp [Delivery.next, silent, tracks.collected, own]
    described := tracks.described
    rectangular := tracks.rectangular
    completedRectangular := tracks.completedRectangular
    authorized := by simpa [filter_append, silent] using tracks.authorized
    bound := by simp [unbound, afterLastBind]
    portal := by simp [unbound]
    unboundSimple := tracks.unboundSimple }

theorem commandAuthorized (tracks : Tracks exchange state) (commandTag : Bytes) :
    Authorized (exchange.closedBy .commandComplete)
      (state.commandResult profile idle commandTag) := by
  have frames : (exchange.closedBy .commandComplete).frames = exchange.pending := rfl
  have authority : (state.sawBindComplete && state.phaseShape.isSome) =
      (portalShape exchange.pending).isSome := by
    cases bound : state.sawBindComplete with
    | true => simp [tracks.portal bound]
    | false =>
      have absent : afterLastBind exchange.pending = none := by
        simpa [bound] using tracks.bound.symm
      simp [portalShape, absent]
  refine ⟨fun _ => ?_, fun _ => ?_⟩
  · simp [Extraction.commandResult, frames, authority]
  intro announced portal
  rw [frames] at portal
  have bound : state.sawBindComplete = true := by
    have both : (state.sawBindComplete && state.phaseShape.isSome) = true := by
      rw [authority, portal]
      rfl
    exact (Bool.and_eq_true_iff.mp both).1
  have shape : state.phaseShape = some announced := by rw [tracks.portal bound, portal]
  simp [Extraction.commandResult, bound, shape]

/-- Every accepted frame keeps the invariant. -/
theorem step (tracks : Tracks exchange state)
    (stepped : state.step profile idle message = .ok next) : Tracks (exchange.next message) next := by
  cases tag : message.tag with
  | parseComplete =>
    obtain ⟨unbound, rfl⟩ := step_parseComplete stepped tag
    apply tracks.pending <;> simp_all [completes, marksExtended, tracks.described]
  | rowDescription =>
    obtain ⟨fresh, columns, -, rfl⟩ := step_rowDescription stepped tag
    have noRows : state.current.rows = [] := by
      by_contra rows
      exact rows (fresh (tracks.described rows))
    apply tracks.pending <;> simp_all [completes, marksExtended, describes]
  | dataRow =>
    obtain ⟨hasDescription, row, parsed, arity, rfl⟩ := step_dataRow stepped tag
    exact tracks.dataRow tag hasDescription parsed arity
  | noData =>
    obtain ⟨noRows, rfl⟩ := step_noData stepped tag
    apply tracks.pending <;> simp_all [completes, marksExtended, describes]
  | bindComplete =>
    obtain rfl := step_bindComplete stepped tag
    apply tracks.pending <;> simp_all [completes, marksExtended, tracks.described]
  | parameterDescription =>
    obtain ⟨unbound, parameterTypeIds, -, rfl⟩ := step_parameterDescription stepped tag
    apply tracks.pending <;> simp_all [completes, marksExtended, tracks.described]
  | commandComplete =>
    obtain ⟨commandTag, rfl⟩ := step_commandComplete stepped tag
    refine tracks.complete (by simp [tag, completes]) ?_ ?_ tracks.rectangular ?_
    · simp [tag, closedBy, Phase.publishes]
    · simp [tag, Segment.kept, Extraction.commandResult]
    · rw [tag]
      exact tracks.commandAuthorized commandTag
  | emptyQueryResponse =>
    rcases step_emptyQueryResponse stepped tag with
      ⟨simple, rfl⟩ | ⟨isExtended, bound, shape, noRows, rfl⟩
    · exact tracks.simpleEmpty tag simple
    have portal := tracks.portal bound
    refine tracks.complete (by simp [tag, completes]) ?_ ?_ tracks.rectangular ⟨?_, ?_⟩
    · simp [tag, closedBy, Phase.publishes, ← tracks.extended, isExtended]
    · simp [tag, Segment.kept]
    · simp [closedBy, ← portal, shape]
    · simp [closedBy, ← portal, shape]
  | errorResponse =>
    obtain ⟨fields, rfl⟩ := step_errorResponse stepped tag
    refine tracks.complete (by simp [tag, completes]) ?_ ?_ ?_ ⟨?_, ?_⟩
    · simp [tag, closedBy, Phase.publishes]
    · simp [tag, Segment.kept, Extraction.errorResult]
    · simp [ParsedResult.rectangular, Extraction.errorResult]
    · simp [tag, closedBy]
    · simp [tag, closedBy]
  | _ =>
    obtain rfl := step_ignored stepped (by simp [tag, completes])
      (by simp [tag, marksExtended]) (by simp [tag, describes]) (by simp [tag])
    apply tracks.pending <;>
      simp_all [completes, marksExtended, describes, tracks.described]

/-- The invariant holds after the whole loop. -/
theorem run {messages}
    (folds : messages.foldlM (Extraction.step profile idle) {} = .ok state) :
    Tracks (exchangeOf messages) state := by
  refine foldlM_invariant (fun seen state => Tracks (exchangeOf seen) state) ?_ initial folds
  intro seen state message next tracks stepped
  rw [exchangeOf_snoc]
  exact tracks.step stepped

end Tracks
end Odbcpp.Postgres
