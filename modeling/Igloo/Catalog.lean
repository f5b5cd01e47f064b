import Igloo.ArrowTypes
import Igloo.RustText

/-!
# The introspected catalog

The tables discovered in the PostgreSQL sources, the mapping of their column
types to Arrow types, and the unqualified aliases the tables get.
-/

namespace Igloo

namespace Catalog

open Arrow RustText

/-- `str::to_ascii_lowercase`. -/
def asciiLowercase (text : String) : String :=
  String.ofList (text.toList.map toAsciiLowercase)

/-- `pg_type_to_arrow`. -/
def pgTypeToArrow (dataType udtName : String) : Option DataType :=
  match asciiLowercase dataType with
  | "smallint" => some .int16
  | "integer" => some .int32
  | "bigint" => some .int64
  | "real" => some .float32
  | "double precision" => some .float64
  | "text" | "character varying" | "character" => some .utf8
  | "boolean" => some .boolean
  | "bytea" => some .binary
  | "date" => some .date32
  | "timestamp without time zone" => some (.timestampNanosecond none)
  | "timestamp with time zone" => some (.timestampNanosecond (some "+00:00"))
  | "json" | "jsonb" | "uuid" => some .utf8
  | _ =>
      match asciiLowercase udtName with
      | "int2" => some .int16
      | "int4" => some .int32
      | "int8" => some .int64
      | "float4" => some .float32
      | "float8" => some .float64
      | "text" | "varchar" | "bpchar" => some .utf8
      | "bool" => some .boolean
      | "bytea" => some .binary
      | "date" => some .date32
      | "timestamp" => some (.timestampNanosecond none)
      | "timestamptz" => some (.timestampNanosecond (some "+00:00"))
      | "json" | "jsonb" | "uuid" => some .utf8
      | _ => none

/-- `ambiguous_pg_type`. -/
def ambiguousPgType (dataType udtName : String) : Option String :=
  let dt := asciiLowercase dataType
  let udt := asciiLowercase udtName
  if dt ∈ ["uuid", "json", "jsonb"] then some dt
  else if udt ∈ ["uuid", "json", "jsonb"] then some udt
  else none

/-- `ColumnInfo`. -/
structure ColumnInfo where
  schema : String
  table : String
  column : String
  dataType : String
  udtName : String
  isNullable : Bool
  deriving DecidableEq, Repr

/-- The field that `group_columns_into_tables` makes of a column. -/
def fieldOf (column : ColumnInfo) : Option Field :=
  (pgTypeToArrow column.dataType column.udtName).map fun dataType =>
    ⟨column.column, dataType, column.isNullable,
      ambiguousPgType column.dataType column.udtName⟩

/-- `TableSchema`. -/
structure TableSchema where
  schema : String
  name : String
  fields : List Field
  deriving DecidableEq, Repr

/-- `SourceTables`. -/
structure SourceTables where
  source : String
  tables : List TableSchema
  deriving DecidableEq, Repr

/-- `Alias`. -/
structure Alias where
  aliasName : String
  source : String
  table : TableSchema
  deriving DecidableEq, Repr

/-- The three aliases a table can get, the preferred one first. -/
def candidates (source : String) (table : TableSchema) : List String :=
  [table.name, table.schema ++ "__" ++ table.name,
    source ++ "__" ++ table.schema ++ "__" ++ table.name]

/-- One iteration over the tables: the names used so far and the aliases given
so far. -/
def resolveTable (source : String) (progress : List String × List Alias)
    (table : TableSchema) : List String × List Alias :=
  match (candidates source table).find? fun name => name ∉ progress.1 with
  | some chosen =>
      (chosen :: progress.1, progress.2 ++ [⟨chosen, source, table⟩])
  | none => progress

/-- `resolve_aliases`. -/
def resolveAliases (sources : List SourceTables) (reserved : List String) :
    List Alias :=
  (sources.foldl
    (fun progress source =>
      source.tables.foldl (resolveTable source.source) progress)
    (reserved, [])).2

/-- The names used so far are the reserved ones and the aliases given. -/
structure Greedy (reserved : List String)
    (progress : List String × List Alias) : Prop where
  used : ∀ name, name ∈ progress.1 ↔
    name ∈ reserved ∨ name ∈ progress.2.map Alias.aliasName
  nodup : (progress.2.map Alias.aliasName).Nodup
  unreserved : ∀ given ∈ progress.2, given.aliasName ∉ reserved
  candidate : ∀ given ∈ progress.2,
    given.aliasName ∈ candidates given.source given.table

end Catalog

end Igloo
