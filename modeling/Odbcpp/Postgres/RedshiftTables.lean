import Mathlib.Data.List.Lex
import Mathlib.Data.List.Sort
import Mathlib.Order.WithBot
import Odbcpp.Connection.QueryResult
import Odbcpp.Postgres.RedshiftMatching

/-!
# Redshift table metadata

`normalize_redshift_tables`: the rows of a `SHOW TABLES` result are validated, filtered by the
request and sorted. Of the further results of a source only their errors are kept; a request
never sees more of them.
-/

namespace Odbcpp.Postgres.Redshift

open Foundation Util Database Connection List

variable {indexes : List Nat} {source : SourceResult} {done columns : List SourceColumn}

/-! ## Sources -/

structure SourceColumn where
  name : Bytes
  normalizedType : Option NativeTypeInfo := none
deriving DecidableEq

structure SourceResult where
  rows : List ResultRow := []
  columns : List SourceColumn := []
  error : Option BackendError := none
  affectedRows : Nat := 0
  additionalErrors : List (Option BackendError) := []
  statementKind : Option StatementKind := none
  normalizedParameterTypes : List NativeTypeInfo := []
  cellErrors : List CellEncodingError := []
deriving DecidableEq

def invalidTableMetadata (reason : String) : BackendError :=
  { BackendError.make .protocolError ("Invalid Redshift table metadata: " ++ reason) with
    errorClass := .invalidMetadata
    operation := .executeCatalog }

def schemaText (column : SourceColumn) : Bool :=
  column.normalizedType.any fun type =>
    type.known && (type.type = .char || type.type = .varChar || type.type = .longVarChar)

def cleanSchemaResult (source : SourceResult) : Bool :=
  source.columns.all (fun column => validColumnName column.name) &&
    source.rows.all (fun row => row.length = source.columns.length) &&
    source.additionalErrors.isEmpty && source.cellErrors.isEmpty &&
    source.normalizedParameterTypes.isEmpty

/-- The native dimensions, before presentation changed the family. -/
def declaredCharacterMetadata (native : NativeTypeInfo) : NativeTypeInfo :=
  match native.declaredType, native.declaredColumnSize with
  | some type, some size =>
    { native with
      type := type
      columnSize := size
      declaredType := none
      declaredColumnSize := none }
  | _, _ => native

-- The same instance for every test of membership below.
local instance : LawfulBEq Bytes := inferInstance

def catalogTableTypes : List Bytes :=
  ["EXTERNAL TABLE", "LOCAL TEMPORARY", "SYSTEM TABLE", "SYSTEM VIEW", "TABLE", "VIEW"].map ascii

def catalogTableType (normalized : Bytes) (detailed : Bool) : Option Bytes :=
  if normalized ∈ catalogTableTypes then
    if detailed then some normalized
    else if normalized = ascii "VIEW" || normalized = ascii "SYSTEM VIEW" then some (ascii "VIEW")
    else some (ascii "TABLE")
  else none

def cell (row : ResultRow) (index : Nat) : ResultCell := (row[index]?).join

/-! ## The layout -/

/-- The documented fields; the first five are read. -/
def tableFields : List Bytes :=
  ["database_name", "schema_name", "table_name", "table_type", "remarks", "table_acl", "owner",
    "last_altered_time", "last_modified_time", "dist_style", "table_subtype"].map ascii

def outNames : List Bytes :=
  ["TABLE_CAT", "TABLE_SCHEM", "TABLE_NAME", "TABLE_TYPE", "REMARKS"].map ascii

/-- The loop over the headers: the names seen, and where the five fields are. -/
def readHeaders : Nat → List SourceColumn → List Bytes → List Nat → Option (List Bytes × List Nat)
  | _, [], headers, indexes => some (headers, indexes)
  | position, column :: columns, headers, indexes =>
    let index := tableFields.idxOf column.name
    if index = tableFields.length ∨ column.name ∈ headers then none
    else
      readHeaders (position + 1) columns (column.name :: headers)
        (if index < 5 then indexes.set index position else indexes)

def readLayout (source : SourceResult) : Except BackendError (List Nat) :=
  if source.columns.length < 5 ∨ tableFields.length < source.columns.length then
    .error (invalidTableMetadata "columns")
  else
    match readHeaders 0 source.columns [] (List.replicate 5 0) with
    | none => .error (invalidTableMetadata "layout")
    | some (headers, indexes) =>
      if (List.range 5).all fun i =>
          (tableFields.getD i []) ∈ headers &&
            (source.columns[indexes.getD i 0]?).any schemaText then .ok indexes
      else .error (invalidTableMetadata "type")

/-! ## The rows -/

/-- The checks of one row, after rows with the names `identities`, and the row it becomes. -/
def checkRow (indexes : List Nat) (database schema : Bytes) (detailedTypes : Bool)
    (identities : List Bytes) (row : ResultRow) : Except BackendError ResultRow :=
  let field (i : Nat) : ResultCell := cell row (indexes.getD i 0)
  if !((List.range 4).all fun i => (field i).any schemaIdentifier) then
    .error (invalidTableMetadata "row-identity")
  else if field 0 ≠ some database ∨ field 1 ≠ some schema then
    .error (invalidTableMetadata "foreign-identity")
  else if (field 2).getD [] ∈ identities then .error (invalidTableMetadata "duplicate")
  else if (field 3).getD [] ∉ catalogTableTypes then .error (invalidTableMetadata "table-type")
  else if (field 4).any fun remarks =>
      remarks.contains 0 || (utf8CodePointCount remarks).isNone then
    .error (invalidTableMetadata "remarks")
  else
    match catalogTableType ((field 3).getD []) detailedTypes with
    | none => .error (invalidTableMetadata "table-type")
    | some presented => .ok [field 0, field 1, field 2, some presented, field 4]

def wanted (database : Bytes) (request : TablesCatalogRequest) (row : ResultRow) : Bool :=
  tableLike database request.catalog && tableLike ((cell row 2).getD []) request.table &&
    request.types.all ((cell row 3).getD [] ∈ ·)

def readRows (indexes : List Nat) (database schema : Bytes) (detailedTypes : Bool)
    (request : TablesCatalogRequest) : List Bytes → List ResultRow →
    Except BackendError (List ResultRow)
  | _, [] => .ok []
  | identities, row :: rows => do
    let presented ← checkRow indexes database schema detailedTypes identities row
    let later ← readRows indexes database schema detailedTypes request
      ((cell presented 2).getD [] :: identities) rows
    return if wanted database request presented then presented :: later else later

/-- The bytes of a cell as `std::optional<std::string>` orders them: NULL first. -/
def cellKey (value : ResultCell) : WithBot (List Nat) := value.map (·.map UInt8.toNat)

/-- What the rows are sorted by: type, catalog, schema, name. -/
def rowKey (row : ResultRow) : List (WithBot (List Nat)) :=
  [cellKey (cell row 3), cellKey (cell row 0), cellKey (cell row 1), cellKey (cell row 2)]

def sortRows (rows : List ResultRow) : List ResultRow :=
  rows.insertionSort fun first second => rowKey first ≤ rowKey second

def outColumns (source : SourceResult) (indexes : List Nat) : List SourceColumn :=
  (List.range 5).map fun i =>
    { name := outNames.getD i []
      normalizedType := ((source.columns[indexes.getD i 0]?).bind (·.normalizedType)).map
        fun type => { declaredCharacterMetadata type with type := .varChar } }

/-- What is checked before the layout of a source is read, `patterns` being whether those of the
request are valid. -/
def checkSource (database schema : Bytes) (patterns : Bool) (input : BackendResult SourceResult) :
    Except BackendError (SourceResult × SessionSnapshot) :=
  match input with
  | .error failure => .error failure
  | .value source session =>
    match source.error with
    | some failure => .error failure
    | none =>
      match source.additionalErrors.findSome? id with
      | some failure => .error failure
      | none =>
        if !schemaIdentifier database || !schemaIdentifier schema then
          .error (invalidTableMetadata "identity")
        else if !patterns then .error (invalidTableMetadata "pattern")
        else if !cleanSchemaResult source then .error (invalidTableMetadata "structure")
        else if 10000 < source.rows.length then .error (invalidTableMetadata "rows")
        else if (source.statementKind ≠ some .unknown ∧
              source.statementKind ≠ some .selectCursor) ∨
            (source.affectedRows ≠ 0 ∧ source.affectedRows ≠ source.rows.length) then
          .error (invalidTableMetadata "completion")
        else if session.disposition = .retire then .error (invalidTableMetadata "snapshot")
        else .ok (source, session)

def normalizeRedshiftTables (database schema : Bytes) (request : TablesCatalogRequest)
    (input : BackendResult SourceResult) (detailedTypes : Bool) : BackendResult SourceResult :=
  match checkSource database schema
      (tablePatternValid request.catalog && tablePatternValid request.table) input with
  | .error failure => .error failure
  | .ok (source, session) =>
    match readLayout source with
    | .error failure => .error failure
    | .ok indexes =>
      match readRows indexes database schema detailedTypes request [] source.rows with
      | .error failure => .error failure
      | .ok rows =>
        .value { rows := sortRows rows, columns := outColumns source indexes } session

/-! ## Filtering after validation -/

def presentRow (indexes : List Nat) (detailedTypes : Bool) (row : ResultRow) : ResultRow :=
  let field (i : Nat) : ResultCell := cell row (indexes.getD i 0)
  [field 0, field 1, field 2, catalogTableType ((field 3).getD []) detailedTypes, field 4]

/-- The rows of the output, were there no filter. -/
def presentRows (indexes : List Nat) (database schema : Bytes) (detailedTypes : Bool) :
    List Bytes → List ResultRow → Except BackendError (List ResultRow)
  | _, [] => .ok []
  | identities, row :: rows => do
    let presented ← checkRow indexes database schema detailedTypes identities row
    let later ← presentRows indexes database schema detailedTypes
      ((cell presented 2).getD [] :: identities) rows
    return presented :: later

section Rows

variable {database schema : Bytes} {detailedTypes : Bool} {identities : List Bytes}
  {rows presented : List ResultRow} {row output : ResultRow}

theorem readRows_eq (request : TablesCatalogRequest) (identities : List Bytes)
    (rows : List ResultRow) :
    readRows indexes database schema detailedTypes request identities rows =
      (presentRows indexes database schema detailedTypes identities rows).map
        (·.filter (wanted database request)) := by
  induction rows generalizing identities with
  | nil => rfl
  | cons row rows ih =>
    rw [readRows, presentRows]
    rcases checkRow indexes database schema detailedTypes identities row with failure | output
    · rfl
    change (readRows _ _ _ _ _ _ rows >>= _) = Except.map _ (presentRows _ _ _ _ _ rows >>= _)
    rw [ih]
    cases presentRows indexes database schema detailedTypes
        ((cell output 2).getD [] :: identities) rows with
    | error failure => rfl
    | ok later =>
      exact congrArg Except.ok filter_cons.symm

theorem checkRow_eq_ok
    (passes : checkRow indexes database schema detailedTypes identities row = .ok output) :
    output = presentRow indexes detailedTypes row ∧
      cell row (indexes.getD 0 0) = some database ∧ cell row (indexes.getD 1 0) = some schema ∧
      (∃ name, cell row (indexes.getD 2 0) = some name ∧ schemaIdentifier name = true ∧
        name ∉ identities) ∧
      ∃ type, cell row (indexes.getD 3 0) = some type ∧ type ∈ catalogTableTypes := by
  simp only [checkRow] at passes
  split_ifs at passes with identified foreign duplicate unknown remarks
  split at passes
  · cases passes
  rename_i presented isPresented
  simp only [Bool.not_eq_true', Bool.not_eq_false, all_eq_true, mem_range]
    at identified
  simp only [not_or, not_not] at foreign
  have named := identified 2 (by omega)
  have typed := identified 3 (by omega)
  rw [Option.any_eq_true] at named typed
  obtain ⟨name, isName, isIdentifier⟩ := named
  obtain ⟨type, isType, -⟩ := typed
  rw [isName] at duplicate
  rw [isType] at unknown
  refine ⟨?_, foreign.1, foreign.2, ⟨name, isName, isIdentifier, duplicate⟩, type, isType,
    unknown⟩
  rw [← Except.ok.inj passes, presentRow, isPresented]

def nameOf (row : ResultRow) : Bytes := (cell row 2).getD []

theorem presentRows_eq_ok
    (passes : presentRows indexes database schema detailedTypes identities rows = .ok presented) :
    presented = rows.map (presentRow indexes detailedTypes) ∧
      (presented.map nameOf).Nodup ∧ (∀ output ∈ presented, nameOf output ∉ identities) ∧
      ∀ row ∈ rows, cell row (indexes.getD 0 0) = some database ∧
        (∃ name, cell row (indexes.getD 2 0) = some name ∧ schemaIdentifier name = true) ∧
        ∃ type, cell row (indexes.getD 3 0) = some type ∧ type ∈ catalogTableTypes := by
  induction rows generalizing identities presented with
  | nil =>
    obtain rfl := Except.ok.inj passes
    simp
  | cons row rows ih =>
    rw [presentRows, bind_eq_ok] at passes
    obtain ⟨output, checked, passes⟩ := passes
    obtain ⟨later, isLater, isPresented⟩ := bind_eq_ok.mp passes
    obtain rfl := Except.ok.inj isPresented
    obtain ⟨rfl, isDatabase, -, ⟨name, isName, isIdentifier, fresh⟩, isType⟩ :=
      checkRow_eq_ok checked
    obtain ⟨rfl, distinct, others, areRows⟩ := ih isLater
    have named : nameOf (presentRow indexes detailedTypes row) = name := by
      simp [nameOf, presentRow, cell] at isName ⊢
      simp [isName]
    have isNext : (cell (presentRow indexes detailedTypes row) 2).getD [] = name := named
    rw [isNext] at others
    refine ⟨rfl, ?_, ?_, ?_⟩
    · rw [map_cons, nodup_cons]
      refine ⟨fun present => ?_, distinct⟩
      obtain ⟨output, isOutput, same⟩ := mem_map.mp present
      exact others output isOutput (by rw [same, named]; exact mem_cons_self)
    · refine forall_mem_cons.mpr ⟨named ▸ fresh, fun output isOutput present => ?_⟩
      exact others output isOutput (mem_cons_of_mem _ present)
    · exact forall_mem_cons.mpr ⟨⟨isDatabase, ⟨name, isName, isIdentifier⟩, isType⟩,
        areRows⟩

end Rows

/-! ## Sorting -/

theorem cellKey_injective : Function.Injective cellKey := by
  intro first second same
  have bytes : Function.Injective fun text : Bytes => text.map UInt8.toNat :=
    map_injective_iff.mpr fun _ _ => UInt8.toNat_inj.mp
  exact Option.map_injective bytes same

theorem sortRows_pairwise {rows : List ResultRow} (distinct : (rows.map nameOf).Nodup) :
    (sortRows rows).Pairwise fun first second => rowKey first < rowKey second := by
  have total : Std.Total fun first second : ResultRow => rowKey first ≤ rowKey second :=
    ⟨fun first second => le_total (rowKey first) (rowKey second)⟩
  have trans : IsTrans ResultRow fun first second => rowKey first ≤ rowKey second :=
    ⟨fun _ _ _ => le_trans⟩
  have sorted := pairwise_insertionSort
    (fun first second : ResultRow => rowKey first ≤ rowKey second) rows
  have isPerm := (perm_insertionSort
    (fun first second : ResultRow => rowKey first ≤ rowKey second) rows).map nameOf
  have apart := pairwise_map.mp (isPerm.nodup_iff.mpr distinct)
  refine (sorted.and apart).imp fun {first second} ⟨atMost, differ⟩ =>
    lt_of_le_of_ne atMost fun same => differ ?_
  simp only [rowKey, List.cons.injEq] at same
  rw [nameOf, cellKey_injective same.2.2.2.1, nameOf]

/-! ## The fields by their names -/

def fieldIndex (source : SourceResult) (field : Bytes) : Nat :=
  source.columns.findIdx (·.name = field)

theorem findIdx_name {column : SourceColumn} (fresh : column.name ∉ done.map SourceColumn.name) :
    (done ++ column :: columns).findIdx (·.name = column.name) = done.length := by
  rw [findIdx_append, if_neg]
  · simp [findIdx_cons]
  rw [findIdx_lt_length]
  rintro ⟨other, isOther, same⟩
  exact fresh (mem_map.mpr ⟨other, isOther, by simpa using same⟩)

theorem idxOf_tableFields : ∀ i < 5, tableFields.idxOf (tableFields.getD i []) = i := by
  decide

/-- The loop over the headers finds the places of the fields. -/
theorem readHeaders_eq_some {indexes final headers}
    (reads : readHeaders done.length columns (done.map SourceColumn.name).reverse indexes =
      some (headers, final)) (size : indexes.length = 5)
    (located : ∀ i < 5, tableFields.getD i [] ∈ done.map SourceColumn.name →
      indexes.getD i 0 = (done ++ columns).findIdx (·.name = tableFields.getD i [])) :
    ∀ i < 5, tableFields.getD i [] ∈ headers →
      final.getD i 0 = (done ++ columns).findIdx (·.name = tableFields.getD i []) := by
  induction columns generalizing done indexes with
  | nil =>
    obtain ⟨rfl, rfl⟩ := Prod.mk.inj (Option.some.inj reads)
    simpa using located
  | cons column columns ih =>
    rw [readHeaders] at reads
    split at reads
    · cases reads
    rename_i known
    obtain ⟨known, fresh⟩ := not_or.mp known
    rw [mem_reverse] at fresh
    have whole : done ++ column :: columns = (done ++ [column]) ++ columns := by simp
    rw [whole]
    refine @ih (done ++ [column]) _ (by simpa using reads) ?_ ?_
    · split
      · rw [length_set, size]
      · exact size
    intro i small present
    rw [← whole]
    by_cases here : column.name = tableFields.getD i []
    · have isIndex : tableFields.idxOf column.name = i := by
        rw [here]
        exact idxOf_tableFields i small
      rw [isIndex, if_pos small, ← here, findIdx_name fresh]
      simp [List.getD, size, small]
    have elsewhere : tableFields.idxOf column.name ≠ i := by
      rintro rfl
      exact here (by simp [List.getD, List.getElem?_idxOf (idxOf_lt_length_iff.mp
        (lt_of_le_of_ne idxOf_le_length known))])
    have earlier : tableFields.getD i [] ∈ done.map SourceColumn.name := by
      rw [map_append, mem_append] at present
      exact present.resolve_right fun isHere =>
        here (by simpa [eq_comm] using isHere)
    rw [← located i small earlier]
    split
    · simp [List.getD, elsewhere]
    · rfl

theorem readLayout_eq_ok (reads : readLayout source = .ok indexes) :
    ∀ i < 5, indexes.getD i 0 = fieldIndex source (tableFields.getD i []) := by
  unfold readLayout at reads
  split at reads
  · cases reads
  split at reads
  · cases reads
  rename_i headers found isFound
  split at reads
  · rename_i present
    obtain rfl := Except.ok.inj reads
    simp only [all_eq_true, mem_range, Bool.and_eq_true, decide_eq_true_eq] at present
    intro i small
    exact @readHeaders_eq_some [] _ _ _ _ isFound (by simp) (by simp) i small
      (present i small).1
  · cases reads

/-! ## What is returned -/

def namedCell (source : SourceResult) (row : ResultRow) (field : String) : ResultCell :=
  cell row (fieldIndex source (ascii field))

def presentedType (source : SourceResult) (detailedTypes : Bool) (row : ResultRow) : ResultCell :=
  catalogTableType ((namedCell source row "table_type").getD []) detailedTypes

def presentedRow (source : SourceResult) (detailedTypes : Bool) (row : ResultRow) : ResultRow :=
  [namedCell source row "database_name", namedCell source row "schema_name",
    namedCell source row "table_name", presentedType source detailedTypes row,
    namedCell source row "remarks"]

/-- The database, the name and the presented type of a row are those asked for. -/
structure Satisfies (source : SourceResult) (detailedTypes : Bool) (request : TablesCatalogRequest)
    (row : ResultRow) : Prop where
  database : ∃ name, namedCell source row "database_name" = some name ∧ Like name request.catalog
  table : ∃ name, namedCell source row "table_name" = some name ∧ Like name request.table
  type : ∀ types ∈ request.types, ∃ type ∈ types,
    presentedType source detailedTypes row = some type

open scoped Classical in
/-- The output has the rows that satisfy the request, sorted. -/
structure Selected (source : SourceResult) (detailedTypes : Bool) (request : TablesCatalogRequest)
    (output : SourceResult) : Prop where
  rows : output.rows.Perm ((source.rows.filter fun row =>
    decide (Satisfies source detailedTypes request row)).map (presentedRow source detailedTypes))
  sorted : output.rows.Pairwise fun first second => rowKey first < rowKey second

theorem presentRow_eq
    (located : ∀ i < 5, indexes.getD i 0 = fieldIndex source (tableFields.getD i []))
    (detailedTypes : Bool) (row : ResultRow) :
    presentRow indexes detailedTypes row = presentedRow source detailedTypes row := by
  simp only [presentRow, located 0 (by omega), located 1 (by omega), located 2 (by omega),
    located 3 (by omega), located 4 (by omega)]
  rfl

/-- What a source passes before any row is filtered: the places of its fields, and its rows as they
are presented. -/
def validated (database schema : Bytes) (input : BackendResult SourceResult)
    (detailedTypes : Bool) :
    Except BackendError (SourceResult × SessionSnapshot × List Nat × List ResultRow) := do
  let (source, session) ← checkSource database schema true input
  let indexes ← readLayout source
  let presented ← presentRows indexes database schema detailedTypes [] source.rows
  return (source, session, indexes, presented)

variable {database schema : Bytes} {request : TablesCatalogRequest} {detailedTypes : Bool}
  {input : BackendResult SourceResult}

variable {presented : List ResultRow} {session : SessionSnapshot}

/-- Filtering and sorting come after everything that can fail. -/
theorem normalizeRedshiftTables_eq (validCatalog : tablePatternValid request.catalog = true)
    (validTable : tablePatternValid request.table = true) :
    normalizeRedshiftTables database schema request input detailedTypes =
      match validated database schema input detailedTypes with
      | .error failure => .error failure
      | .ok (source, session, indexes, presented) =>
        .value { rows := sortRows (presented.filter (wanted database request))
                 columns := outColumns source indexes } session := by
  simp only [normalizeRedshiftTables, validated, validCatalog, validTable, Bool.and_self]
  rcases checkSource database schema true input with failure | checked
  · rfl
  obtain ⟨source, session⟩ := checked
  simp only [readRows_eq, Except.map, bind, Except.bind]
  cases readLayout source with
  | error failure => rfl
  | ok indexes =>
    dsimp only
    cases presentRows indexes database schema detailedTypes [] source.rows with
    | error failure => rfl
    | ok presented => rfl

theorem checkSource_eq_ok {patterns : Bool}
    (passes : checkSource database schema patterns input = .ok (source, session)) :
    input = .value source session ∧ schemaIdentifier database = true := by
  unfold checkSource at passes
  cases input with
  | error failure => cases passes
  | value given given' =>
    simp only at passes
    split at passes
    · cases passes
    split at passes
    · cases passes
    split_ifs at passes with identified
    cases passes
    rw [Bool.or_eq_true, not_or] at identified
    exact ⟨rfl, by simpa using identified.1⟩

theorem validated_eq_ok (passes : validated database schema input detailedTypes = .ok
      (source, session, indexes, presented)) :
    input = .value source session ∧ schemaIdentifier database = true ∧
      readLayout source = .ok indexes ∧
      presentRows indexes database schema detailedTypes [] source.rows = .ok presented := by
  obtain ⟨⟨given, given'⟩, checked, passes⟩ := bind_eq_ok.mp passes
  obtain ⟨layout, isLayout, passes⟩ := bind_eq_ok.mp passes
  obtain ⟨rows, areRows, isResult⟩ := bind_eq_ok.mp passes
  cases isResult
  obtain ⟨isInput, identified⟩ := checkSource_eq_ok checked
  exact ⟨isInput, identified, isLayout, areRows⟩

theorem utf8_of_schemaIdentifier {value : Bytes} (identifier : schemaIdentifier value = true) :
    (utf8CodePointCount value).isSome = true := by
  rw [schemaIdentifier, Bool.and_eq_true] at identifier
  exact identifier.2

theorem wanted_iff {source row name type}
    (validCatalog : tablePatternValid request.catalog = true)
    (validTable : tablePatternValid request.table = true)
    (isDatabase : schemaIdentifier database = true) (isName : schemaIdentifier name = true)
    (databaseCell : namedCell source row "database_name" = some database)
    (nameCell : namedCell source row "table_name" = some name)
    (typeCell : presentedType source detailedTypes row = some type) :
    wanted database request (presentedRow source detailedTypes row) = true ↔
      Satisfies source detailedTypes request row := by
  have second : cell (presentedRow source detailedTypes row) 2 = some name := nameCell
  have third : cell (presentedRow source detailedTypes row) 3 = some type := typeCell
  rw [wanted, second, third, Bool.and_eq_true, Bool.and_eq_true, Option.getD_some,
    tableLike_eq_true_iff (utf8_of_schemaIdentifier isDatabase) validCatalog,
    tableLike_eq_true_iff (utf8_of_schemaIdentifier isName) validTable]
  constructor
  · rintro ⟨⟨ofCatalog, ofTable⟩, ofTypes⟩
    refine ⟨⟨database, databaseCell, ofCatalog⟩, ⟨name, nameCell, ofTable⟩, fun types isTypes => ?_⟩
    rw [Option.mem_def.mp isTypes] at ofTypes
    exact ⟨type, by simpa using ofTypes, typeCell⟩
  rintro ⟨⟨first, isFirst, ofCatalog⟩, ⟨second, isSecond, ofTable⟩, ofTypes⟩
  obtain rfl := Option.some.inj (databaseCell.symm.trans isFirst)
  obtain rfl := Option.some.inj (nameCell.symm.trans isSecond)
  refine ⟨⟨ofCatalog, ofTable⟩, ?_⟩
  cases isTypes : request.types with
  | none => rfl
  | some types =>
    obtain ⟨other, isOther, same⟩ := ofTypes types isTypes
    obtain rfl := Option.some.inj (typeCell.symm.trans same)
    simpa using isOther

theorem catalogTableType_isSome {type : Bytes} (known : type ∈ catalogTableTypes)
    (detailedTypes : Bool) : ∃ presented, catalogTableType type detailedTypes = some presented := by
  unfold catalogTableType
  rw [if_pos known]
  split_ifs <;> exact ⟨_, rfl⟩

theorem selected_of_validated
    (passes : validated database schema input detailedTypes = .ok (source, session, indexes, presented))
    (validCatalog : tablePatternValid request.catalog = true)
    (validTable : tablePatternValid request.table = true) (columns : List SourceColumn) :
    Selected source detailedTypes request
      { rows := sortRows (presented.filter (wanted database request)), columns := columns } := by
  obtain ⟨-, isDatabase, isLayout, areRows⟩ := validated_eq_ok passes
  have located := readLayout_eq_ok isLayout
  obtain ⟨rfl, distinct, -, checked⟩ := presentRows_eq_ok areRows
  constructor
  · refine (perm_insertionSort _ _).trans ?_
    rw [filter_map]
    have same : presentRow indexes detailedTypes = presentedRow source detailedTypes :=
      funext fun row => presentRow_eq located detailedTypes row
    rw [same]
    refine List.Perm.of_eq (congrArg _ (filter_congr fun row isRow => ?_))
    obtain ⟨databaseCell, ⟨name, nameCell, isName⟩, type, typeCell, known⟩ := checked row isRow
    rw [located 0 (by omega)] at databaseCell
    rw [located 2 (by omega)] at nameCell
    rw [located 3 (by omega)] at typeCell
    obtain ⟨shown, isShown⟩ := catalogTableType_isSome known detailedTypes
    have shownCell : presentedType source detailedTypes row = some shown := by
      have isType : namedCell source row "table_type" = some type := typeCell
      rw [presentedType, isType]
      exact isShown
    rw [Bool.eq_iff_iff]
    have asked := @wanted_iff database request detailedTypes source row name shown validCatalog
      validTable isDatabase isName databaseCell nameCell shownCell
    exact asked.trans (@decide_eq_true_iff _ (Classical.propDecidable _)).symm
  · refine sortRows_pairwise (distinct.sublist ?_)
    exact (filter_sublist).map nameOf

/-- For every two requests with valid patterns, a source is refused with one error, or each gets the
rows that satisfy it. -/
theorem filters_hide_nothing (database schema : Bytes) (first second : TablesCatalogRequest)
    (input : BackendResult SourceResult) (detailedTypes : Bool)
    (firstCatalog : tablePatternValid first.catalog = true)
    (firstTable : tablePatternValid first.table = true)
    (secondCatalog : tablePatternValid second.catalog = true)
    (secondTable : tablePatternValid second.table = true) :
    (∃ failure, normalizeRedshiftTables database schema first input detailedTypes =
        .error failure ∧
      normalizeRedshiftTables database schema second input detailedTypes = .error failure) ∨
    ∃ source session firstOutput secondOutput, input = .value source session ∧
      normalizeRedshiftTables database schema first input detailedTypes =
        .value firstOutput session ∧
      normalizeRedshiftTables database schema second input detailedTypes =
        .value secondOutput session ∧
      Selected source detailedTypes first firstOutput ∧
      Selected source detailedTypes second secondOutput := by
  rw [normalizeRedshiftTables_eq firstCatalog firstTable,
    normalizeRedshiftTables_eq secondCatalog secondTable]
  cases passes : validated database schema input detailedTypes with
  | error failure => exact .inl ⟨failure, rfl, rfl⟩
  | ok result =>
    obtain ⟨source, session, indexes, presented⟩ := result
    exact .inr ⟨source, session, _, _, (validated_eq_ok passes).1, rfl, rfl,
      selected_of_validated passes firstCatalog firstTable _,
      selected_of_validated passes secondCatalog secondTable _⟩

def sampleSource : SourceResult where
  columns := (tableFields.take 5).map fun name =>
    { name := name, normalizedType := some { type := .varChar, known := true } }
  rows := [[some (ascii "d"), some (ascii "s"), some (ascii "b"), some (ascii "VIEW"), none],
    [some (ascii "d"), some (ascii "s"), some (ascii "a"), some (ascii "TABLE"), none]]
  statementKind := some .unknown

theorem filters_hide_nothing_sample : ∃ source session firstOutput secondOutput,
      BackendResult.value sampleSource ⟨.idle, .reusable⟩ = .value source session ∧
      normalizeRedshiftTables (ascii "d") (ascii "s") { table := some (ascii "_") }
        (.value sampleSource ⟨.idle, .reusable⟩) true = .value firstOutput session ∧
      normalizeRedshiftTables (ascii "d") (ascii "s") { types := some [ascii "VIEW"] }
        (.value sampleSource ⟨.idle, .reusable⟩) true = .value secondOutput session ∧
      Selected source true { table := some (ascii "_") } firstOutput ∧
      Selected source true { types := some [ascii "VIEW"] } secondOutput := by
  have accepted : (normalizeRedshiftTables (ascii "d") (ascii "s") { table := some (ascii "_") }
      (.value sampleSource ⟨.idle, .reusable⟩) true).hasError = false := by decide
  refine (filters_hide_nothing (ascii "d") (ascii "s") { table := some (ascii "_") }
    { types := some [ascii "VIEW"] } (.value sampleSource ⟨.idle, .reusable⟩) true (by decide)
    (by decide) (by decide) (by decide)).resolve_left ?_
  rintro ⟨failure, refused, -⟩
  rw [refused] at accepted
  cases accepted

end Odbcpp.Postgres.Redshift
