import Odbcpp.Postgres.Tracking

/-!
# Where the rows of a response go, and what a result may claim

The results `extract_query_result` returns, against the phases of the response:
every row is in the result completed by the first result-completing frame after
it, and a result carries execution authority exactly when its phase bound a
portal and then described it.
-/

namespace Odbcpp.Postgres

open Foundation Database

variable {profile : PgCatalogProfile} {messages : List Message} {result : ParsedQueryResult}

/-- The returned results are those the loop completed, or the unfinished one when it completed none.
-/
theorem extractQueryResult_results (accepted : extractQueryResult profile messages = .ok result) :
    ∃ state, Tracks (exchangeOf messages) state ∧
      result.results = if state.completed = [] then [state.current] else state.completed := by
  rw [extractQueryResult, bind_eq_ok] at accepted
  obtain ⟨state, folds, returned⟩ := accepted
  refine ⟨state, Tracks.run folds, ?_⟩
  cases completed : state.completed with
  | nil | cons primary rest =>
    simp only [completed, pure_eq_ok] at returned
    subst returned
    rfl

theorem extractQueryResult_parsesRows (accepted : extractQueryResult profile messages = .ok result)
    {message : Message} (member : message ∈ messages) (tag : message.tag = .dataRow) :
    ∃ row, parseDataRow message.payload = .ok row := by
  rw [extractQueryResult, bind_eq_ok] at accepted
  obtain ⟨state, folds, -⟩ := accepted
  refine foldlM_invariant (fun seen _ => ∀ message ∈ seen, message.tag = .dataRow →
    ∃ row, parseDataRow message.payload = .ok row) ?_ (by simp) folds message member tag
  intro seen state message next parsed stepped other member tag
  rcases List.mem_append.mp member with earlier | last
  · exact parsed other earlier tag
  obtain rfl := List.mem_singleton.mp last
  obtain ⟨-, row, rowParsed, -⟩ := Extraction.step_dataRow stepped tag
  exact ⟨row, rowParsed⟩

/-! ## Rows -/

/-- Each completion frame completed at most one of the results, in order, which holds the rows of
its phase; no row follows the last completion. -/
def PlacedByFirstCompletion (messages : List Message) (results : List ParsedResult) : Prop :=
  rowsOf (exchangeOf messages).pending = [] ∧
    ∃ owners : List (Option ParsedResult), owners.reduceOption = results ∧
      List.Forall₂ (fun (phase : Phase) owner =>
          (owner.elim [] fun result : ParsedResult => result.rows) =
            Segment.kept ⟨phase.rows, phase.closing⟩)
        (exchangeOf messages).phases owners

namespace Sample

/-- A RowDescription of one text column. -/
def description : Message :=
  ⟨.rowDescription, bigEndian 2 1 ++ ascii "a" ++ [0] ++ bigEndian 4 0 ++ bigEndian 2 0 ++
    bigEndian 4 25 ++ bigEndian 2 65535 ++ bigEndian 4 4294967295 ++ bigEndian 2 0⟩

/-- A DataRow of one one-byte cell. -/
def row (letter : Char) : Message :=
  ⟨.dataRow, bigEndian 2 1 ++ bigEndian 4 1 ++ [code letter]⟩

def parsed : Message := ⟨.parseComplete, []⟩
def bound : Message := ⟨.bindComplete, []⟩
def selected : Message := ⟨.commandComplete, ascii "SELECT 1" ++ [0]⟩
def empty : Message := ⟨.emptyQueryResponse, []⟩
def failed : Message :=
  ⟨.errorResponse, ascii "SERROR" ++ [0] ++ ascii "C22012" ++ [0] ++ ascii "Mx" ++ [0, 0]⟩
def ready : Message := ⟨.readyForQuery, [code 'I']⟩

def emptyBetweenRows : List Message :=
  [description, row 'x', empty, row 'y', selected, ready]

/-- Both rows end up in the one result, which the CommandComplete completes. -/
theorem emptyBetweenRows_notPlaced :
    ∃ result, extractQueryResult .postgreSQL emptyBetweenRows = .ok result ∧
      ¬ PlacedByFirstCompletion emptyBetweenRows result.results := by
  obtain ⟨result, accepted, single⟩ : ∃ result,
      extractQueryResult .postgreSQL emptyBetweenRows = .ok result ∧ result.results.length = 1 :=
    ⟨_, rfl, rfl⟩
  refine ⟨result, accepted, ?_⟩
  rintro ⟨-, owners, owned, placed⟩
  have phases : (exchangeOf emptyBetweenRows).phases =
      [⟨[description, row 'x'], .emptyQueryResponse, false⟩,
       ⟨[row 'y'], .commandComplete, false⟩] := rfl
  rw [phases] at placed
  obtain ⟨first, _, firstRows, rest, rfl⟩ := List.forall₂_cons_left_iff.mp placed
  obtain ⟨second, _, secondRows, ends, rfl⟩ := List.forall₂_cons_left_iff.mp rest
  obtain rfl := List.forall₂_nil_left_iff.mp ends
  -- Both phases have a row, so each must own a result, and there is only one.
  rcases first with _ | firstResult
  · exact absurd firstRows (by decide)
  cases second with
  | none => exact absurd secondRows (by decide)
  | some secondResult =>
    have two : result.results.length = 2 := by rw [← owned]; rfl
    omega

end Sample

/-- Every row is delivered once, in wire order, in the result of the first result-completing frame
after it, unless that frame is an error; without such a frame all rows are in the one result. Every
returned row has one cell for each column. -/
theorem extractQueryResult_placesRows
    (accepted : extractQueryResult profile messages = .ok result) :
    (∀ message ∈ messages, message.tag = .dataRow →
        ∃ row, parseDataRow message.payload = .ok row) ∧
      (segmentsOf messages).flatMap (·.rows) ++ trailingRows messages = rowsOf messages ∧
      (segmentsOf messages = [] → result.results.map (·.rows) = [rowsOf messages]) ∧
      (segmentsOf messages ≠ [] →
        (segmentsOf messages).map Segment.kept <+: result.results.map (·.rows) ∧
        (trailingRows messages = [] →
          result.results.map (·.rows) = (segmentsOf messages).map Segment.kept)) ∧
      ∀ returned ∈ result.results, returned.rectangular := by
  obtain ⟨state, tracks, results⟩ := extractQueryResult_results accepted
  have delivered : state.completed.map (·.rows) = (segmentsOf messages).map Segment.kept :=
    tracks.delivered
  have partition := segmentsOf_partition messages
  refine ⟨fun _ => extractQueryResult_parsesRows accepted, partition, ?_, ?_, ?_⟩
  · intro none
    have noneCompleted : state.completed = [] := by simpa [none] using delivered
    have collected : state.current.rows = trailingRows messages := tracks.collected
    rw [results, if_pos noneCompleted, ← partition, none]
    simp [collected]
  · intro some
    have someCompleted : state.completed ≠ [] := by
      intro completed
      rw [completed] at delivered
      exact some (List.map_eq_nil_iff.mp delivered.symm)
    have equal : result.results.map (·.rows) = (segmentsOf messages).map Segment.kept := by
      rw [results, if_neg someCompleted, delivered]
    exact ⟨equal ▸ List.prefix_refl _, fun _ => equal⟩
  · intro returned member
    rw [results] at member
    split at member
    · obtain rfl := List.mem_singleton.mp member
      exact tracks.rectangular
    · exact tracks.completedRectangular returned member

open Sample in
/-- Two statements, the second of which fails after its first row. -/
theorem extractQueryResult_placesRows_failed : ∃ result, extractQueryResult .postgreSQL
        [description, row 'x', selected, description, row 'y', failed, ready] = .ok result ∧
      result.results.map (·.rows) = [[[some [code 'x']]], []] := by
  obtain ⟨result, accepted⟩ : ∃ result, extractQueryResult .postgreSQL
      [description, row 'x', selected, description, row 'y', failed, ready] = .ok result :=
    ⟨_, rfl⟩
  obtain ⟨-, -, -, placed, -⟩ := extractQueryResult_placesRows accepted
  exact ⟨result, accepted, ((placed (by decide)).2 (by decide)).trans (by decide)⟩

/-! ## Authority -/

/-- A result completed by a CommandComplete, or by the EmptyQueryResponse of an extended exchange,
has execution authority exactly when a portal was bound and then described since the previous
completion; it then has the shape last announced. -/
theorem extractQueryResult_portalAuthority
    (accepted : extractQueryResult profile messages = .ok result)
    (published : (exchangeOf messages).phases.any Phase.publishes = true) :
    List.Forall₂ Authorized ((exchangeOf messages).phases.filter Phase.publishes)
      result.results := by
  obtain ⟨state, tracks, results⟩ := extractQueryResult_results accepted
  have authorized := tracks.authorized
  have someCompleted : state.completed ≠ [] := by
    intro completed
    rw [completed, List.forall₂_nil_right_iff, List.filter_eq_nil_iff] at authorized
    obtain ⟨phase, member, publishes⟩ := List.any_eq_true.mp published
    exact authorized phase member publishes
  rw [results, if_neg someCompleted]
  exact authorized

open Sample in
/-- A statement described before the bind, and its portal after it. -/
theorem extractQueryResult_portalAuthority_prepared : ∃ result, extractQueryResult .postgreSQL
        [parsed, description, bound, description, row 'x', selected, ready] = .ok result ∧
      List.Forall₂ Authorized
        [⟨[parsed, description, bound, description, row 'x'], .commandComplete, true⟩]
        result.results := by
  obtain ⟨result, accepted⟩ : ∃ result, extractQueryResult .postgreSQL
      [parsed, description, bound, description, row 'x', selected, ready] = .ok result :=
    ⟨_, rfl⟩
  exact ⟨result, accepted, extractQueryResult_portalAuthority accepted (by decide)⟩

end Odbcpp.Postgres
