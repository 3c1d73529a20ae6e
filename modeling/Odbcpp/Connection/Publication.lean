import Odbcpp.Connection.Response

/-!
# From parsed to published results

Normalization changes the values and the types of a result, never its shape: every
published item has the rows, the cells, the column names and the error of the parsed
result it comes from, and no more parameters.
-/

namespace Odbcpp.Connection

open Foundation Database Postgres

def QueryResult.items (result : QueryResult) : List QueryItem :=
  result.toQueryItem :: result.additionalResults

/-- A published item has the shape of the parsed result. -/
structure Mirrors (parsed : ParsedResult) (item : QueryItem) : Prop where
  error : item.error = parsed.error
  cells : item.rows.map List.length = parsed.rows.map List.length
  names : item.columns.map (·.name) = parsed.columns.map (·.name)
  parameters : item.normalizedParameterTypes.length ≤ parsed.parameterTypeIds.length

theorem length_normalizeRow (backend : Backend) (row column : Nat)
    (columns : List (Nat × NativeTypeInfo)) (cells : ResultRow) :
    (normalizeRow backend row column columns cells).1.length = cells.length := by
  induction columns generalizing column cells with
  | nil => rfl
  | cons head columns ih =>
    rcases cells with _ | ⟨cell, cells⟩
    · rfl
    unfold normalizeRow
    cases cell with
    | none => simp [ih]
    | some value =>
      dsimp only
      split <;> simp [ih]

theorem normalizeCells_cells (backend : Backend) (parsed : ParsedResult) (item : QueryItem) :
    (normalizeCells backend parsed item).rows.map List.length = item.rows.map List.length := by
  apply List.ext_getElem
  · simp [normalizeCells]
  · intro index left right
    simp [normalizeCells, length_normalizeRow]

variable {parsed : ParsedResult}

theorem mirrors_normalizeCells {backend : Backend} {item : QueryItem}
    (mirrors : Mirrors parsed item) : Mirrors parsed (normalizeCells backend parsed item) :=
  ⟨mirrors.error, (normalizeCells_cells backend parsed item).trans mirrors.cells, mirrors.names,
    mirrors.parameters⟩

variable {σ α : Type} {env : Environment σ} {settings : Settings} {backend : Backend}
  {resolve : List Nat → Io σ (BackendResult ResolvedTypeMap)} {kind : ResponseKind}

variable {before : Link → Prop} {deadline : Nat} {normalized : QueryResult} {progress : Progress}

/-- Nothing is said about any program. -/
theorem Ensures.anything (program : Io σ α) :
    Ensures before program (fun _ _ => True) fun _ _ => True := by
  intro session _
  rcases program.outcome session with ⟨result, final⟩
  cases result <;> trivial

/-- Nothing need be known of the first part of a program whose exceptions are
caught. -/
theorem Ensures.after {β : Type} {before : Link → Prop} {first : Io σ α} {second : α → Io σ β}
    {normal : β → Link → Prop}
    (tail : ∀ value, Ensures (fun _ => True) (second value) normal fun _ _ => True) :
    Ensures before (first >>= second) normal fun _ _ => True :=
  (Ensures.anything first).bind tail

theorem length_of_mapM_lookup {types : ResolvedTypeMap} {ids : List Nat}
    {normalized : List NativeTypeInfo}
    (found : (ids.mapM fun id => types.lookup id) = some normalized) :
    normalized.length = ids.length := by
  induction ids generalizing normalized with
  | nil =>
    rw [List.mapM_nil, Option.pure_def, Option.some.injEq] at found
    simp [← found]
  | cons id ids ih =>
    simp only [List.mapM_cons, Option.bind_eq_bind, Option.pure_def, Option.bind_eq_some_iff,
      Option.some.injEq] at found
    obtain ⟨type, -, types, rest, rfl⟩ := found
    simp [ih rest]

theorem normalizeParameterTypes_bounded :
    Ensures before (normalizeParameterTypes resolve kind parsed)
      (fun result _ => ∀ types, result = .ok types →
        types.length ≤ parsed.parameterTypeIds.length) (fun _ _ => True) := by
  unfold normalizeParameterTypes
  split
  · refine .pure _ fun _ _ types isOk => ?_
    cases isOk
    exact Nat.zero_le _
  refine .after fun result => ?_
  cases result with
  | error failure => exact .pure _ fun _ _ _ isOk => by cases isOk
  | value types session =>
    dsimp only
    split
    · rename_i normalized found
      refine .pure _ fun _ _ types isOk => ?_
      cases isOk
      exact (length_of_mapM_lookup found).le
    · exact .after fun _ => .pure _ fun _ _ _ isOk => by cases isOk

theorem normalizeItem_mirrors :
    Ensures before (normalizeItem env settings backend resolve kind parsed)
      (fun result _ => ∀ item, result = .ok item → Mirrors parsed item) (fun _ _ => True) := by
  unfold normalizeItem
  refine .after fun session => .after fun _ => .after fun _ => .after fun _ => ?_
  refine normalizeParameterTypes_bounded.bind fun result => ?_
  cases result with
  | error failure => exact .pure _ fun _ _ _ isOk => by cases isOk
  | ok types =>
    refine .pure _ fun _ bounded item isOk => ?_
    cases isOk
    exact mirrors_normalizeCells ⟨rfl, rfl, by simp [normalizeColumn], bounded _ rfl⟩

theorem normalizeItems_mirror {items} :
    Ensures before (normalizeItems env settings backend resolve kind items)
      (fun result _ => ∀ published, result = .ok published →
        List.Forall₂ Mirrors items published) (fun _ _ => True) := by
  induction items generalizing before with
  | nil =>
    refine .pure _ fun _ _ published isOk => ?_
    cases isOk
    exact .nil
  | cons parsed rest ih =>
    refine normalizeItem_mirrors.bind fun result => ?_
    rcases result with failure | item
    · exact .pure _ fun _ _ _ isOk => by cases isOk
    refine Ensures.knowing (fun _ mirrors => mirrors item rfl) fun mirrors => ?_
    refine ih.bind fun result => ?_
    cases result with
    | error failure => exact .pure _ fun _ _ _ isOk => by cases isOk
    | ok published =>
      refine .pure _ fun _ mirror all isOk => ?_
      cases isOk
      exact .cons mirrors (mirror published rfl)

def Publishes (profile : PgCatalogProfile) (messages : List Message) (value : QueryResult) : Prop :=
  ∃ parsed, extractQueryResult profile messages = .ok parsed ∧
    List.Forall₂ Mirrors parsed.results value.items ∧ value.error = none

theorem publishNormalized_structure :
    Ensures before (publishNormalized env deadline kind progress normalized)
      (fun result _ => ∀ value session, result = .value value session →
        value = withDescribedShape kind progress normalized ∧ value.error = none)
      (fun _ _ => True) := by
  unfold publishNormalized
  dsimp only
  split
  · exact .pure _ fun _ _ _ _ isValue => by cases isValue
  rename_i valid
  refine .after fun instant => ?_
  split
  · exact .after fun _ => .pure _ fun _ _ _ _ isValue => by cases isValue
  refine .pure _ fun _ _ value session isValue => ?_
  cases isValue
  refine ⟨rfl, ?_⟩
  simp only [not_or, Bool.not_eq_true', Bool.not_eq_false] at valid
  have structured := valid.1
  simp only [validExecutionStructure, Bool.and_eq_true, Option.isNone_iff_eq_none] at structured
  exact structured.1

theorem mirrors_withDescribedShape {parsed}
    (mirrors : List.Forall₂ Mirrors parsed normalized.items) :
    List.Forall₂ Mirrors parsed (withDescribedShape kind progress normalized).items := by
  unfold withDescribedShape
  split
  · cases mirrors with
    | cons first rest => exact .cons ⟨first.error, first.cells, first.names, first.parameters⟩ rest
  · exact mirrors

theorem declineDescription_fails {parameters parsed} :
    Ensures before (declineDescription env deadline parameters parsed)
      (fun result _ => result.hasError = true) (fun _ _ => True) := by
  unfold declineDescription
  split
  · exact .after fun _ => .pure _ fun _ _ => rfl
  refine .after fun instant => ?_
  split
  · exact .after fun _ => .pure _ fun _ _ => rfl
  · exact .pure _ fun _ _ => rfl

theorem publishResponse_publishes :
    Ensures before (publishResponse env settings backend resolve deadline kind progress)
      (fun result _ => ∀ value session, result = .value value session →
        Publishes settings.profile progress.messages value) (fun _ _ => True) := by
  unfold publishResponse
  refine .after fun _ => ?_
  have extracted : Ensures (fun _ => True)
      (Program.ofExcept (extractQueryResult settings.profile progress.messages) : Io σ _)
      (fun parsed _ => extractQueryResult settings.profile progress.messages = .ok parsed)
      (fun _ _ => True) :=
    Program.Triple.ofExcept (fun _ isOk _ _ => isOk) fun _ _ _ _ => trivial
  refine extracted.bind fun parsed => Ensures.knowing (fun _ => id) fun isParsed => ?_
  split
  · exact .pure _ fun _ _ _ _ isValue => by cases isValue
  split
  · exact .pure _ fun _ _ _ _ isValue => by cases isValue
  split
  · exact .after fun _ => .pure _ fun _ _ _ _ isValue => by cases isValue
  split
  · exact .pure _ fun _ _ _ _ isValue => by cases isValue
  split
  · refine declineDescription_fails.concluding ?_
    rintro _ _ failed value session rfl
    cases failed
  refine normalizeItem_mirrors.bind fun primary => ?_
  rcases primary with failure | primary
  · exact .pure _ fun _ _ _ _ isValue => by cases isValue
  refine Ensures.knowing (fun _ mirrors => mirrors primary rfl) fun first => ?_
  refine normalizeItems_mirror.bind fun items => ?_
  rcases items with failure | additional
  · exact .pure _ fun _ _ _ _ isValue => by cases isValue
  refine Ensures.knowing (fun _ mirrors => mirrors additional rfl) fun rest => ?_
  refine publishNormalized_structure.concluding ?_
  intro result _ structured value session isValue
  obtain ⟨rfl, errorless⟩ := structured value session isValue
  exact ⟨parsed, isParsed, mirrors_withDescribedShape (.cons first rest), errorless⟩

end Odbcpp.Connection
