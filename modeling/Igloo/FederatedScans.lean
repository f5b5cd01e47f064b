import Igloo.DecodedScans
import Igloo.EngineStartup
import Igloo.ScanAgreement

/-!
# Scans through a started engine

A reference of a started engine leads to a provider that was built from what
the information schema of a source says.  When the engine scans this provider,
the source answers the generated statement from what its tables hold.  Taken
together, a scan reads the rows of the very table that was discovered, in the
database of its own source, and converts every value by the type of its column.
-/

namespace Igloo

namespace PostgresTable

open Arrow Catalog Pushdown SqlLexer SqlSyntax SqlSemantics

/-- The null that is sent for a column of the type. -/
def SourceType.null : SourceType → SourceCell
  | int2 => .int2 none
  | int4 => .int4 none
  | int8 => .int8 none
  | float4 => .float4 none
  | float8 => .float8 none
  | text => .text none
  | varchar => .varchar none
  | bpchar => .bpchar none
  | bool => .bool none
  | bytea => .bytea none
  | date => .date none
  | timestamp => .timestamp none
  | timestamptz => .timestamptz none
  | json => .json none
  | jsonb => .jsonb none
  | uuid => .uuid none

/-- The cell that is sent for a value of a column of the type. -/
def SourceType.sent (type : SourceType) (value : Option SourceCell) :
    SourceCell :=
  value.getD type.null

/-- A table holds a column as `information_schema` describes it. -/
structure HoldsColumn (held : Table SourceCell) (type : SourceType)
    (column : ColumnRow) : Prop where
  valid : ValidName column.columnName
  reports : Reports type column.info
  typed : ∀ row ∈ held.rows, ∀ value, row column.columnName = some value →
    value.sourceType = type ∧ value.isNull = false
  nullable : ∀ row ∈ held.rows, row column.columnName = none →
    column.info.isNullable = true

/-- A database: what its information schema says, and what its tables hold. -/
structure SourceDatabase where
  information : InformationSchema
  content : Database SourceCell
  /-- The type of a column by the owner and the name of the column. -/
  columnType : String × String → String → SourceType
  base_tables : ∀ table ∈ information.tables, table.tableType = "BASE TABLE" →
    ValidName table.tableSchema ∧ ValidName table.tableName ∧
      ∃ held, content table.tableSchema table.tableName = some held ∧
        ∀ column ∈ information.columns, column.owner = table.owner →
          mappable column.info = true →
            HoldsColumn held (columnType column.owner column.columnName) column

namespace SourceDatabase

/-- The cells that are sent for a row under the given fields. -/
def cells (database : SourceDatabase) (table : TableSchema) (fields : Schema)
    (row : Row SourceCell) : List SourceCell :=
  fields.map fun field =>
    (database.columnType (qualifiedName table) field.name).sent
      (row field.name)

/-- The rows that the database may send as the answer to a text. -/
inductive Sends (database : SourceDatabase) (text : String) : Answer → Prop
  | rows {columns : List String} {scan : Scan}
      {values : List (List (Option SourceCell))}
      (parsed : parse text = some (.select columns scan))
      (returned : Returns database.content (.select columns scan)
        (.rows values)) :
      Sends database text (values.map (List.zipWith (fun column =>
        (database.columnType (scan.schema, scan.table) column).sent) columns))
  | count {scan : Scan} {number : Nat}
      (parsed : parse text = some (.count scan))
      (returned : Returns database.content (.count scan) (.count number))
      (inRange : number < 2 ^ 63) :
      Sends database text [[.int8 (some (Int64.ofNat number))]]

end SourceDatabase

/-- `table_provider`. -/
def tableProvider (table : TableSchema) (filterPushdown : Bool) : Provider :=
  ⟨table.schema, table.name, table.fields, filterPushdown⟩

/-- What a scan of a table comes to: the values of the rows that the pushed
conditions keep, up to the pushed limit, or the error of the first cell that
has no value. -/
def ReadsTable (libraries : ScanLibraries) (database : SourceDatabase)
    (held : Table SourceCell) (table : TableSchema) (filterPushdown : Bool)
    (fields : Schema) (filters : List Expr) (limit : Option Nat)
    (result : ScanResult RecordBatch) : Prop :=
  ∃ conditions kept,
    ((tableProvider table filterPushdown).pushed filters).map conditionOf =
      conditions.map some ∧
    Yields held conditions
      ((tableProvider table filterPushdown).effectiveLimit filters limit)
        kept ∧
    (∀ batch, result = .ok batch ↔
      HoldsValues libraries fields
        (kept.map (database.cells table fields)) batch) ∧
    ∀ error, result = .error error ↔
      firstError libraries fields (kept.map (database.cells table fields)) =
        some error

/-! ## The table of a provider -/

/-- A field presents a column that the table holds. -/
structure HoldsField (held : Table SourceCell) (type : SourceType)
    (field : Field) : Prop where
  valid : ValidName field.name
  introspected : IntrospectedAs field type
  typed : ∀ row ∈ held.rows, ∀ value, row field.name = some value →
    value.sourceType = type ∧ value.isNull = false
  nullable : ∀ row ∈ held.rows, row field.name = none → field.nullable = true

/-- A discovered table presents the table that the database holds. -/
structure Presents (database : SourceDatabase) (table : TableSchema)
    (held : Table SourceCell) : Prop where
  schemaValid : ValidName table.schema
  nameValid : ValidName table.name
  stored : database.content table.schema table.name = some held
  holdsField : ∀ field ∈ table.fields, HoldsField held
    (database.columnType (qualifiedName table) field.name) field

theorem fieldOf_of_describesColumn {column : ColumnInfo} {field : Field}
    (describes : Catalog.DescribesColumn column field) :
    fieldOf column = some field := by
  obtain ⟨nameEq, mapped, nullableEq, stampEq⟩ := describes
  rw [fieldOf, mapped, Option.map_some, ← nameEq, ← nullableEq, ← stampEq]

theorem HoldsColumn.holdsField {held : Table SourceCell} {type : SourceType}
    {column : ColumnRow} (holds : HoldsColumn held type column) {field : Field}
    (describes : Catalog.DescribesColumn column.info field) :
    HoldsField held type field := by
  have nameEq : field.name = column.columnName := describes.name_eq
  refine ⟨nameEq ▸ holds.valid,
    ⟨column.info, holds.reports, fieldOf_of_describesColumn describes⟩,
    nameEq ▸ holds.typed, ?_⟩
  intro row rowMem isNone
  rw [describes.nullable_eq]
  exact holds.nullable row rowMem (nameEq ▸ isNone)

theorem exists_presents_of_discovered {database : SourceDatabase}
    {schemas : List String} {allowlist : Option (List String)}
    {tables : List TableSchema}
    (discovered : Discovered database.information schemas allowlist tables)
    {table : TableSchema} (tableMem : table ∈ tables) :
    ∃ held, Presents database table held := by
  obtain ⟨admitted, -⟩ := (discovered.mem_iff _).mp
    (List.mem_map_of_mem (f := qualifiedName) tableMem)
  obtain ⟨listed, listedMem, ownerEq, isBase⟩ := admitted.isBaseTable
  obtain ⟨schemaValid, nameValid, held, stored, holds⟩ :=
    database.base_tables listed listedMem isBase
  obtain ⟨schemaEq, nameEq⟩ := Prod.mk.inj ownerEq
  rw [schemaEq] at schemaValid stored
  rw [nameEq] at nameValid stored
  refine ⟨held, schemaValid, nameValid, stored, ?_⟩
  intro field fieldMem
  obtain ⟨columns, perm, -, describe⟩ :=
    discovered.fields_describe table tableMem
  obtain ⟨column, columnMem, describes⟩ :=
    RelatedResults.exists_related_of_mem describe.flip fieldMem
  obtain ⟨inDatabase, passes⟩ := List.mem_filter.mp (perm.subset columnMem)
  obtain ⟨sameOwner, isMappable⟩ := of_decide_eq_true passes
  have nameEq : field.name = column.columnName := describes.name_eq
  have holdsColumn :=
    holds column inDatabase (sameOwner.trans ownerEq.symm) isMappable
  rw [sameOwner, ← nameEq] at holdsColumn
  exact holdsColumn.holdsField describes

/-! ## The cells of a row -/

section Cells

variable {database : SourceDatabase} {table : TableSchema}
  {held : Table SourceCell} {fields : Schema} {kept : List (Row SourceCell)}

theorem sourceType_sent {type : SourceType} {value : Option SourceCell}
    (typed : ∀ cell, value = some cell → cell.sourceType = type) :
    (type.sent value).sourceType = type := by
  cases value with
  | none => cases type <;> rfl
  | some cell => exact typed cell rfl

theorem eq_none_of_isNull_sent {type : SourceType} {value : Option SourceCell}
    (notNull : ∀ cell, value = some cell → cell.isNull = false)
    (isNull : (type.sent value).isNull = true) : value = none := by
  cases value with
  | none => rfl
  | some cell =>
      rw [SourceType.sent, Option.getD_some, notNull cell rfl] at isNull
      cases isNull

theorem answersFields_cells
    (holds : ∀ field ∈ fields, HoldsField held
      (database.columnType (qualifiedName table) field.name) field)
    (keptMem : ∀ row ∈ kept, row ∈ held.rows) :
    AnswersFields fields
      (fields.map fun field =>
        database.columnType (qualifiedName table) field.name)
      (kept.map (database.cells table fields)) where
  introspected := by
    rw [List.forall₂_map_right_iff]
    exact List.forall₂_same.mpr fun field fieldMem =>
      (holds field fieldMem).introspected
  typed := by
    intro cells cellsMem
    obtain ⟨row, rowMem, rfl⟩ := List.mem_map.mp cellsMem
    rw [SourceDatabase.cells, List.map_map]
    refine List.map_congr_left fun field fieldMem => ?_
    exact sourceType_sent fun cell isCell =>
      ((holds field fieldMem).typed row (keptMem row rowMem) cell isCell).1
  notNull := by
    intro cells cellsMem
    obtain ⟨row, rowMem, rfl⟩ := List.mem_map.mp cellsMem
    rw [SourceDatabase.cells, List.forall₂_map_right_iff]
    refine List.forall₂_same.mpr fun field fieldMem isNull => ?_
    have inTable := keptMem row rowMem
    exact (holds field fieldMem).nullable row inTable
      (eq_none_of_isNull_sent (fun cell isCell =>
        ((holds field fieldMem).typed row inTable cell isCell).2) isNull)

theorem countBatch_outcome (libraries : ScanLibraries) {rows : Answer}
    (noCells : ∀ row ∈ rows, row = []) (inRange : rows.length < 2 ^ 63) :
    (∀ batch,
      countBatch [] [[.int8 (some (Int64.ofNat rows.length))]] = .ok batch ↔
        HoldsValues libraries [] rows batch) ∧
      ∀ error,
        countBatch [] [[.int8 (some (Int64.ofNat rows.length))]] =
            .error error ↔
          firstError libraries [] rows = some error := by
  let counted : RecordBatch := ⟨[], [], rows.length, rfl, List.forall_mem_nil _⟩
  have below : rows.length < 18446744073709551616 := by omega
  have isCounted :
      countBatch [] [[.int8 (some (Int64.ofNat rows.length))]] =
        .ok counted := by
    simp [countBatch, tryGetAs, asI64, PostgresTable.fromSql, tryNewBatch,
      Except.mapError, counted, below]
  have holds : HoldsValues libraries [] rows counted := by
    refine ⟨rfl, ?_⟩
    have noValues : counted.rows = List.replicate rows.length [] :=
      (List.map_const' ..).trans (by rw [List.length_range])
    rw [noValues, List.forall₂_iff_zip]
    refine ⟨by rw [List.length_replicate], fun {row values} pairMem => ?_⟩
    obtain ⟨rowMem, valuesMem⟩ := List.of_mem_zip pairMem
    rw [noCells row rowMem, List.eq_of_mem_replicate valuesMem]
    exact .nil
  rw [isCounted]
  refine ⟨fun batch => ⟨?_, ?_⟩, fun error => ⟨?_, ?_⟩⟩
  · rintro ⟨⟩
    exact holds
  · intro holdsOther
    rw [holdsValues_unique holds holdsOther]
  · rintro ⟨⟩
  · rintro ⟨⟩

end Cells

/-! ## The answer to a scan -/

section Scans

variable {database : SourceDatabase} {table : TableSchema}
  {held : Table SourceCell} {filterPushdown : Bool} {fields : Schema}
  {filters : List Expr} {limit : Option Nat} {rows : Answer}

theorem exists_pushedConditions {provider : Provider}
    (valid : ∀ field ∈ provider.schema, ValidName field.name)
    (filters : List Expr) :
    ∃ conditions,
      (provider.pushed filters).map conditionOf = conditions.map some ∧
        List.Forall₂
          (fun text condition => RendersCondition text.toList condition)
          (provider.whereConjuncts filters) conditions := by
  unfold Provider.pushed Provider.whereConjuncts
  split
  · exact exists_conditions valid filters
  · exact ⟨[], rfl, .nil⟩

theorem exists_parse_scanSql (presents : Presents database table held)
    (fieldsMem : ∀ field ∈ fields, field ∈ table.fields)
    (filters : List Expr) (limit : Option Nat) :
    ∃ conditions,
      ((tableProvider table filterPushdown).pushed filters).map conditionOf =
        conditions.map some ∧
      parse ((tableProvider table filterPushdown).scanSql fields filters
          limit) =
        some (scanStatement table.schema table.name fields conditions
          ((tableProvider table filterPushdown).effectiveLimit filters
            limit)) := by
  have valid : ∀ field ∈ table.fields, ValidName field.name :=
    fun field fieldMem => (presents.holdsField field fieldMem).valid
  obtain ⟨conditions, conditionsEq, renders⟩ :=
    @exists_pushedConditions (tableProvider table filterPushdown) valid filters
  obtain ⟨tokens, lexed, spells⟩ := exists_spells_buildScanSql
    presents.schemaValid presents.nameValid
    (fun field fieldMem => valid field (fieldsMem field fieldMem)) renders
    ((tableProvider table filterPushdown).effectiveLimit filters limit)
  exact ⟨conditions, conditionsEq, parse_of_lex lexed spells⟩

/-- The answer to the statement of a scan presents rows of the table, or
counts them. -/
theorem exists_kept_of_sends (presents : Presents database table held)
    (fieldsMem : ∀ field ∈ fields, field ∈ table.fields)
    (sends : database.Sends
      ((tableProvider table filterPushdown).scanSql fields filters limit)
      rows) :
    ∃ conditions kept,
      ((tableProvider table filterPushdown).pushed filters).map conditionOf =
        conditions.map some ∧
      Yields held conditions
        ((tableProvider table filterPushdown).effectiveLimit filters limit)
          kept ∧
      (fields = [] ∧ kept.length < 2 ^ 63 ∧
          rows = [[.int8 (some (Int64.ofNat kept.length))]] ∨
        fields ≠ [] ∧ rows = kept.map (database.cells table fields)) := by
  obtain ⟨conditions, conditionsEq, isStatement⟩ :=
    @exists_parse_scanSql _ _ _ filterPushdown _ presents fieldsMem filters
      limit
  unfold scanStatement at isStatement
  cases sends with
  | rows parsed returned =>
      rw [isStatement] at parsed
      split at parsed
      · cases parsed
      · rename_i notEmpty
        cases parsed
        obtain ⟨found, kept, ⟨stored, -, yields⟩, -, valuesEq⟩ := returned
        cases stored.symm.trans presents.stored
        cases valuesEq
        refine ⟨conditions, kept, conditionsEq, yields, .inr ⟨?_, ?_⟩⟩
        · simpa using notEmpty
        · rw [List.map_map]
          refine List.map_congr_left fun row _ => ?_
          simp only [Function.comp_apply, List.map_map, List.zipWith_map,
            List.zipWith_self]
          rfl
  | count parsed returned inRange =>
      rw [isStatement] at parsed
      split at parsed
      · rename_i isEmpty
        cases parsed
        obtain ⟨found, kept, ⟨stored, -, yields⟩, numberEq⟩ := returned
        cases stored.symm.trans presents.stored
        cases numberEq
        refine ⟨conditions, kept, conditionsEq, yields, .inl ⟨?_, inRange, rfl⟩⟩
        simpa using isEmpty
      · cases parsed

theorem readsTable_of_sends (libraries : ScanLibraries)
    (presents : Presents database table held)
    {projection : Option (List Nat)}
    (projected : (tableProvider table filterPushdown).projectedSchema
      projection = .ok fields)
    {query : String → Except String Answer}
    (answered : query ((tableProvider table filterPushdown).scanSql fields
      filters limit) = .ok rows)
    (sends : database.Sends
      ((tableProvider table filterPushdown).scanSql fields filters limit)
      rows) :
    ReadsTable libraries database held table filterPushdown fields filters
      limit ((tableProvider table filterPushdown).scanBatch libraries query
        projection filters limit) := by
  have fieldsMem : ∀ field ∈ fields, field ∈ table.fields :=
    Provider.mem_of_projectedSchema projected
  obtain ⟨conditions, kept, conditionsEq, yields, outcome⟩ :=
    exists_kept_of_sends presents fieldsMem sends
  refine ⟨conditions, kept, conditionsEq, yields, ?_⟩
  rcases outcome with ⟨rfl, inRange, rfl⟩ | ⟨nonempty, rfl⟩
  · have isCount : (tableProvider table filterPushdown).scanBatch libraries
        query projection filters limit =
          countBatch [] [[.int8 (some (Int64.ofNat kept.length))]] := by
      rw [Provider.scanBatch, projected]
      change ((query _).mapError ScanError.query >>= fun rows =>
        countBatch [] rows) = _
      rw [answered]
      rfl
    rw [isCount]
    have counted := @countBatch_outcome libraries
      (kept.map (database.cells table []))
    rw [List.length_map] at counted
    refine counted ?_ inRange
    intro cells cellsMem
    obtain ⟨row, -, rfl⟩ := List.mem_map.mp cellsMem
    rfl
  · rw [scanBatch_eq_rowsBatch libraries projected nonempty answered]
    refine rowsBatch_outcome libraries (answersFields_cells
      (fun field fieldMem => presents.holdsField field
        (fieldsMem field fieldMem)) ?_) nonempty
    exact fun row rowMem => List.mem_of_mem_filter
      (yields.subperm.subset rowMem)

end Scans

theorem scanBatch_of_query_error (libraries : ScanLibraries)
    {provider : Provider} {projection : Option (List Nat)} {fields : Schema}
    (projected : provider.projectedSchema projection = .ok fields)
    {query : String → Except String Answer} {filters : List Expr}
    {limit : Option Nat} {message : String}
    (failed : query (provider.scanSql fields filters limit) =
      .error message) :
    provider.scanBatch libraries query projection filters limit =
      .error (.query message) := by
  rw [Provider.scanBatch, projected]
  change ((query _).mapError ScanError.query >>= _) = _
  rw [failed]
  rfl

end PostgresTable

namespace DataFusionEngine

open Catalog Igloo.Configuration PostgresTable RelatedResults

/-- A provider that a started engine has registered is of a table of its own
source: every scan of it fails with the error of the source, or reads what the
table holds there. -/
theorem readsTable_of_engineNew {collate : String → String → Ordering}
    [Std.TransCmp collate] [Std.LawfulEqCmp collate]
    {parseRef : String → TableReference}
    (plain : parseRef icebergTable = .bare icebergTable)
    {platform : Platform} {file : FileConfig} {env : Environment}
    {config : Config} (accepted : fromSources platform file env = .ok config)
    {database : PostgresSource → SourceDatabase} {introspect : Introspect}
    (introspected : ∀ source ∈ config.postgresSources, ∃ rows,
      introspect source = .ok (rows.map ColumnRow.info) ∧
        AnswersIntrospection (database source).information source.schemas
          source.tables collate rows)
    {query : PostgresSource → String → Except String Answer}
    (answers : ∀ source ∈ config.postgresSources, ∀ text rows,
      query source text = .ok rows → (database source).Sends text rows)
    (libraries : ScanLibraries)
    {parseListingUrl : String → Except String Unit}
    {catalogs : SessionCatalogs}
    (started : engineNew parseRef parseListingUrl introspect
      config.parquetPath config.postgresSources = .ok catalogs)
    {ref : ResolvedRef} {name : String} {table : TableSchema}
    {filterPushdown : Bool}
    (leads : tableAt catalogs ref =
      some (.postgres name table filterPushdown)) :
    ∃ source ∈ config.postgresSources, source.name = name ∧
      ∃ held, (database source).content table.schema table.name = some held ∧
        ∀ projection filters limit fields,
          (tableProvider table filterPushdown).projectedSchema projection =
              .ok fields →
            (∃ message,
              query source ((tableProvider table filterPushdown).scanSql fields
                  filters limit) = .error message ∧
                (tableProvider table filterPushdown).scanBatch libraries
                    (query source) projection filters limit =
                  .error (.query message)) ∨
              ReadsTable libraries (database source) held table filterPushdown
                fields filters limit
                ((tableProvider table filterPushdown).scanBatch libraries
                  (query source) projection filters limit) := by
  obtain ⟨discovered, isDiscovered⟩ := @exists_discoveredIn
    (fun source => (database source).information) collate _ _ _
    fun source sourceMem =>
      (introspected source sourceMem).imp fun _ answered => answered.2
  have queryable := (queryable_of_engineNew plain accepted introspected
    isDiscovered started _ _).mp leads
  obtain ⟨found, foundMem, nameEq, tableMem⟩ :=
    exists_table_of_queryable queryable
  obtain ⟨source, sourceMem, sameName, isFound⟩ :=
    exists_related_of_mem isDiscovered.flip foundMem
  obtain ⟨held, presents⟩ := exists_presents_of_discovered isFound tableMem
  refine ⟨source, sourceMem, sameName.symm.trans nameEq, held,
    presents.stored, ?_⟩
  intro projection filters limit fields projected
  cases asked : query source ((tableProvider table filterPushdown).scanSql
      fields filters limit) with
  | error message =>
      exact .inl ⟨message, rfl,
        scanBatch_of_query_error libraries projected asked⟩
  | ok rows =>
      exact .inr (readsTable_of_sends libraries presents projected asked
        (answers source sourceMem _ rows asked))

section Shop

def orderRow (id : Int64) (note : Option String) :
    SqlSemantics.Row SourceCell :=
  fun column =>
    if column = "id" then some (.int8 (some id))
    else if column = "note" then note.map fun text => .text (some text)
    else none

/-- A table of orders. -/
def heldOrders (rows : List (Int64 × Option String)) :
    SqlSemantics.Table SourceCell where
  columns := fun column =>
    if column ∈ ["id", "total", "note"] then
      some ⟨fun _ => none, fun _ _ => .eq⟩
    else none
  rows := rows.map fun order => orderRow order.1 order.2

theorem holdsColumn_id (rows : List (Int64 × Option String)) :
    HoldsColumn (heldOrders rows) .int8
      ⟨"public", "orders", "id", 1, "bigint", "int8", "NO"⟩ where
  valid := by decide
  reports := ⟨by decide, .inl (by decide)⟩
  typed := by
    intro row rowMem value isValue
    obtain ⟨order, -, rfl⟩ := List.mem_map.mp rowMem
    cases isValue
    exact ⟨rfl, rfl⟩
  nullable := by
    intro row rowMem isNone
    obtain ⟨order, -, rfl⟩ := List.mem_map.mp rowMem
    cases isNone

theorem holdsColumn_note (rows : List (Int64 × Option String)) :
    HoldsColumn (heldOrders rows) .text
      ⟨"public", "orders", "note", 3, "text", "text", "YES"⟩ where
  valid := by decide
  reports := ⟨by decide, .inl (by decide)⟩
  typed := by
    intro row rowMem value isValue
    obtain ⟨order, -, rfl⟩ := List.mem_map.mp rowMem
    obtain ⟨text, -, rfl⟩ := Option.map_eq_some_iff.mp isValue
    exact ⟨rfl, rfl⟩
  nullable := fun _ _ _ => by decide

/-- Nothing is logged in the shop. -/
def shopContent : SqlSemantics.Database SourceCell := fun schema _ =>
  if schema = "public" then
    some (heldOrders [(1, some "gift"), (2, none)])
  else some ⟨fun _ => none, []⟩

def shopColumnType (owner : String × String) (column : String) : SourceType :=
  if column = "note" then .text
  else if owner.1 = "public" then .int8
  else .uuid

theorem base_tables_shop :
    ∀ table ∈ shop.tables, table.tableType = "BASE TABLE" →
      Pushdown.ValidName table.tableSchema ∧
        Pushdown.ValidName table.tableName ∧
        ∃ held, shopContent table.tableSchema table.tableName = some held ∧
          ∀ column ∈ shop.columns, column.owner = table.owner →
            mappable column.info = true →
              HoldsColumn held
                (shopColumnType column.owner column.columnName) column := by
  intro table tableMem isBase
  simp only [shop, List.mem_cons, List.not_mem_nil, or_false] at tableMem
  rcases tableMem with rfl | rfl | rfl
  · refine ⟨by decide, by decide, _, rfl, ?_⟩
    intro column columnMem sameOwner isMappable
    simp only [shop, List.mem_cons, List.not_mem_nil, or_false] at columnMem
    rcases columnMem with rfl | rfl | rfl | rfl | rfl
    · exact absurd isMappable (by decide)
    · exact holdsColumn_note _
    · exact absurd sameOwner (by decide)
    · exact holdsColumn_id _
    · exact absurd sameOwner (by decide)
  · exact absurd isBase (by decide)
  · refine ⟨by decide, by decide, _, rfl, ?_⟩
    intro column columnMem sameOwner isMappable
    simp only [shop, List.mem_cons, List.not_mem_nil, or_false] at columnMem
    rcases columnMem with rfl | rfl | rfl | rfl | rfl
    · exact absurd sameOwner (by decide)
    · exact absurd sameOwner (by decide)
    · exact absurd sameOwner (by decide)
    · exact absurd sameOwner (by decide)
    · exact ⟨by decide, ⟨by decide, .inl (by decide)⟩,
        List.forall_mem_nil _, List.forall_mem_nil _⟩

/-- The database of the shop. -/
def shopDatabase : SourceDatabase where
  information := shop
  content := shopContent
  columnType := shopColumnType
  base_tables := base_tables_shop

def ordersAnswer : Answer :=
  [[.int8 (some 2), .text none], [.int8 (some 1), .text (some "gift")]]

/-- The shop answers the scan of all orders, the later order first. -/
def shopQuery (_ : PostgresSource) (text : String) :
    Except String Answer :=
  if text = (tableProvider ordersTable true).scanSql ordersTable.fields []
      none then
    .ok ordersAnswer
  else .error "unexpected statement"

theorem engineNew_shop :
    ∃ catalogs, engineNew .bare plainUrl
        (fun _ => .ok (orderColumns.map ColumnRow.info))
        shopConfig.parquetPath shopConfig.postgresSources = .ok catalogs ∧
      tableAt catalogs ⟨"datafusion", "public", "orders"⟩ =
        some (.postgres "postgres" ordersTable true) := by
  have isNew : engineNew .bare plainUrl
      (fun _ => .ok (orderColumns.map ColumnRow.info))
      shopConfig.parquetPath shopConfig.postgresSources =
        newWithPushdown .bare true [⟨"postgres", [ordersTable]⟩] := by
    rw [← introspectTables_orderColumns]
    rfl
  rw [isNew]
  exact ⟨_, rfl, rfl⟩

theorem sends_orders : shopDatabase.Sends
    ((tableProvider ordersTable true).scanSql ordersTable.fields [] none)
    ordersAnswer := by
  have parsed : SqlSyntax.parse
      ((tableProvider ordersTable true).scanSql ordersTable.fields [] none) =
        some (.select ["id", "note"] ⟨"public", "orders", [], none⟩) := by
    decide +kernel
  refine @SourceDatabase.Sends.rows shopDatabase _ _ _
    [[some (.int8 (some 2)), none],
      [some (.int8 (some 1)), some (.text (some "gift"))]] parsed ?_
  refine ⟨_, [orderRow 2 none, orderRow 1 (some "gift")],
    ⟨rfl, List.forall_mem_nil _, ?_⟩, by decide, rfl⟩
  exact ⟨_, .swap .., rfl⟩

/-- The orders are read through their alias. -/
theorem readsTable_of_engineNew_shop :
    ∃ catalogs held,
      engineNew .bare plainUrl
          (fun _ => .ok (orderColumns.map ColumnRow.info))
          shopConfig.parquetPath shopConfig.postgresSources = .ok catalogs ∧
        tableAt catalogs ⟨"datafusion", "public", "orders"⟩ =
            some (.postgres "postgres" ordersTable true) ∧
          shopDatabase.content "public" "orders" = some held ∧
            ∃ source ∈ shopConfig.postgresSources,
              ReadsTable plainLibraries shopDatabase held ordersTable true
                ordersTable.fields [] none
                ((tableProvider ordersTable true).scanBatch plainLibraries
                  (shopQuery source) none [] none) := by
  have answers : ∀ source ∈ shopConfig.postgresSources, ∀ text rows,
      shopQuery source text = .ok rows → shopDatabase.Sends text rows := by
    intro source _ text rows answered
    unfold shopQuery at answered
    split at answered
    · rename_i isScan
      cases answered
      exact isScan ▸ sends_orders
    · cases answered
  obtain ⟨catalogs, started, leads⟩ := engineNew_shop
  obtain ⟨source, sourceMem, -, held, stored, reads⟩ :=
    readsTable_of_engineNew rfl fromSources_shopFile introspected_shop answers
      plainLibraries started leads
  rcases reads none [] none ordersTable.fields rfl with
    ⟨message, failed, -⟩ | readsOrders
  · cases failed
  · exact ⟨catalogs, held, started, leads, stored, source, sourceMem,
      readsOrders⟩

end Shop

end DataFusionEngine

end Igloo
