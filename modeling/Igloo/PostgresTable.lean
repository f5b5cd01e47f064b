import Igloo.Pushdown
import Igloo.SqlSemantics

/-!
# Scanning a PostgreSQL table

The statement that a scan sends, built from the projection, the translated
filters and the limit, and the batch made from the rows that come back.
-/

namespace Igloo

namespace PostgresTable

open Arrow Pushdown SqlSemantics

/-- `quote_relation`. -/
def quoteRelation (schemaName tableName : String) : String :=
  quoteIdent schemaName ++ "." ++ quoteIdent tableName

/-- The `where_clause` of `build_scan_sql`. -/
def whereClause (whereConjuncts : List String) : String :=
  if whereConjuncts.isEmpty then ""
  else " WHERE " ++ " AND ".intercalate whereConjuncts

/-- The `limit_clause` of `build_scan_sql`. -/
def limitClause (limit : Option Nat) : String :=
  match limit with
  | some n => " LIMIT " ++ toString n
  | none => ""

/-- `build_scan_sql`. -/
def buildScanSql (schemaName tableName : String) (projectedFields : Schema)
    (whereConjuncts : List String) (limit : Option Nat) : String :=
  let relation := quoteRelation schemaName tableName
  if projectedFields.isEmpty then
    "SELECT COUNT(*) FROM (SELECT 1 FROM " ++ relation ++
      whereClause whereConjuncts ++ limitClause limit ++ ") AS t"
  else
    let sqlSelectCols :=
      ", ".intercalate (projectedFields.map fun field => quoteIdent field.name)
    "SELECT " ++ sqlSelectCols ++ " FROM " ++ relation ++
      whereClause whereConjuncts ++ limitClause limit

/-- `pushed_limit`. -/
def pushedLimit (limit : Option Nat) (translated total : Nat) : Option Nat :=
  if translated = total then limit else none

/-- `PostgresTable`. -/
structure Provider where
  schemaName : String
  tableName : String
  schema : Schema
  filterPushdown : Bool
  deriving DecidableEq, Repr

/-- `TableProviderFilterPushDown`. -/
inductive FilterPushDown
  | unsupported
  | inexact
  deriving DecidableEq, Repr

namespace Provider

/-- `supports_filters_pushdown`. -/
def supportsFiltersPushdown (provider : Provider) (filters : List Expr) :
    List FilterPushDown :=
  filters.map fun filter =>
    if provider.filterPushdown &&
        (translateFilter provider.schema filter).isSome then .inexact
    else .unsupported

def projectField (schema : Schema) (index : Nat) : Except String Field :=
  match schema[index]? with
  | some field => .ok field
  | none =>
      .error ("Arrow error: Schema error: project index " ++ toString index ++
        " out of bounds, max field " ++ toString schema.length)

/-- `Schema::project`. -/
def project (schema : Schema) (indices : List Nat) : Except String Schema :=
  indices.mapM (projectField schema)

def projectedSchema (provider : Provider) (projection : Option (List Nat)) :
    Except String Schema :=
  match projection with
  | some indices => project provider.schema indices
  | none => .ok provider.schema

/-- The `where_conjuncts` of a scan. -/
def whereConjuncts (provider : Provider) (filters : List Expr) :
    List String :=
  if provider.filterPushdown then
    filters.filterMap (translateFilter provider.schema)
  else []

/-- The `effective_limit` of a scan. -/
def effectiveLimit (provider : Provider) (filters : List Expr)
    (limit : Option Nat) : Option Nat :=
  pushedLimit limit (provider.whereConjuncts filters).length filters.length

/-- The statement of a scan with the given projected fields. -/
def scanSql (provider : Provider) (projectedFields : Schema)
    (filters : List Expr) (limit : Option Nat) : String :=
  buildScanSql provider.schemaName provider.tableName projectedFields
    (provider.whereConjuncts filters) (provider.effectiveLimit filters limit)

end Provider

/-- The batch of a scan by columns, and what it adds to `rows_fetched`. -/
structure ScanBatch (Datum : Type) where
  columns : List (List (Option Datum))
  numRows : Nat
  rowsFetched : Nat
  deriving DecidableEq

/-- `try_get` of a row. -/
def tryGet {Datum : Type} (row : List (Option Datum)) (colIdx : Nat) :
    Except String (Option Datum) :=
  match row[colIdx]? with
  | some value => .ok value
  | none => .error "error retrieving column"

/-- `arrow_columns`: column `col_idx` of every row, for each field. -/
def arrowColumns {Datum : Type} (fields : Schema)
    (rows : List (List (Option Datum))) :
    Except String (List (List (Option Datum))) :=
  fields.zipIdx.mapM fun indexed =>
    rows.mapM fun row => tryGet row indexed.2

/-- `scan`, given what the server answers to a statement. -/
def Provider.scan {Datum : Type} (provider : Provider)
    (query : String → Except String (Result Datum))
    (projection : Option (List Nat)) (filters : List Expr)
    (limit : Option Nat) : Except String (ScanBatch Datum) := do
  let fields ← provider.projectedSchema projection
  let answer ← query (provider.scanSql fields filters limit)
  if fields.isEmpty then
    match answer with
    | .count number => .ok ⟨[], number, 0⟩
    | .rows _ => .error "query returned an unexpected number of rows"
  else
    match answer with
    | .rows rows => do
        let columns ← arrowColumns fields rows
        return ⟨columns, rows.length, rows.length⟩
    | .count _ => .error "error retrieving column"

end PostgresTable

end Igloo
