import Igloo.Catalog
import Igloo.ParameterAgreement
import Igloo.PostgresTable
import Igloo.ResponseChunking
import Igloo.Uuid

/-!
# Decoding the rows of a scan

The second half of a scan turns the rows that the source sends into one Arrow
array for each projected field.  It asks the connector for a Rust type that it
chooses by the Arrow type of the field and by its metadata.  On a table that
was introspected this is the type in which the source sends the column, so a
scan returns exactly the values of the rows, and fails only where a value has
no Arrow value.
-/

namespace Igloo

namespace PostgresTable

open Arrow Catalog RelatedResults
open Server (Calendar)
open Server.BoundValue (daysFrom1970 nanosFrom1970)

/-! ## What the source sends -/

/-- The types of the columns that the catalog can map. -/
inductive SourceType
  | int2
  | int4
  | int8
  | float4
  | float8
  | text
  | varchar
  | bpchar
  | bool
  | bytea
  | date
  | timestamp
  | timestamptz
  | json
  | jsonb
  | uuid
  deriving DecidableEq, Repr

namespace SourceType

/-- The name of a type, which `information_schema` has as `udt_name`. -/
def name : SourceType → String
  | int2 => "int2"
  | int4 => "int4"
  | int8 => "int8"
  | float4 => "float4"
  | float8 => "float8"
  | text => "text"
  | varchar => "varchar"
  | bpchar => "bpchar"
  | bool => "bool"
  | bytea => "bytea"
  | date => "date"
  | timestamp => "timestamp"
  | timestamptz => "timestamptz"
  | json => "json"
  | jsonb => "jsonb"
  | uuid => "uuid"

/-- The name of a type in the SQL standard, which `information_schema` has as
`data_type`. -/
def standardName : SourceType → String
  | int2 => "smallint"
  | int4 => "integer"
  | int8 => "bigint"
  | float4 => "real"
  | float8 => "double precision"
  | varchar => "character varying"
  | bpchar => "character"
  | bool => "boolean"
  | timestamp => "timestamp without time zone"
  | timestamptz => "timestamp with time zone"
  | other => other.name

end SourceType

/-- A cell by the type of its column; `none` is the SQL null.  A date counts
days and a timestamp microseconds from the first day of 2000. -/
inductive SourceCell
  | int2 (value : Option Int16)
  | int4 (value : Option Int32)
  | int8 (value : Option Int64)
  | float4 (value : Option F32)
  | float8 (value : Option F64)
  | text (value : Option String)
  | varchar (value : Option String)
  | bpchar (value : Option String)
  | bool (value : Option Bool)
  | bytea (value : Option (List UInt8))
  | date (days : Option Int32)
  | timestamp (micros : Option Int64)
  | timestamptz (micros : Option Int64)
  | json (document : Option String)
  | jsonb (document : Option String)
  | uuid (value : Option Uuid)
  deriving DecidableEq

namespace SourceCell

def sourceType : SourceCell → SourceType
  | int2 _ => .int2
  | int4 _ => .int4
  | int8 _ => .int8
  | float4 _ => .float4
  | float8 _ => .float8
  | text _ => .text
  | varchar _ => .varchar
  | bpchar _ => .bpchar
  | bool _ => .bool
  | bytea _ => .bytea
  | date _ => .date
  | timestamp _ => .timestamp
  | timestamptz _ => .timestamptz
  | json _ => .json
  | jsonb _ => .jsonb
  | uuid _ => .uuid

def isNull : SourceCell → Bool
  | int2 value => value.isNone
  | int4 value => value.isNone
  | int8 value => value.isNone
  | float4 value => value.isNone
  | float8 value => value.isNone
  | text value => value.isNone
  | varchar value => value.isNone
  | bpchar value => value.isNone
  | bool value => value.isNone
  | bytea value => value.isNone
  | date days => days.isNone
  | timestamp micros => micros.isNone
  | timestamptz micros => micros.isNone
  | json document => document.isNone
  | jsonb document => document.isNone
  | uuid value => value.isNone

end SourceCell

/-- The rows of an answer. -/
abbrev Answer :=
  List (List SourceCell)

/-- What the decoder takes from chrono and serde_json. -/
structure ScanLibraries where
  Json : Type
  parseJson : String → Except String Json
  printJson : Json → String
  calendar : Calendar
  /-- `Display` of a `DateTime<Utc>` and of a `NaiveDateTime`. -/
  displayUtc : Int → String
  displayNaive : Int → String

/-- What `RecordBatch::try_new` rejects. -/
inductive BatchError
  | columnCount
  | noRowCount
  | nullInColumn (name : String)
  | lengths
  | types
  deriving DecidableEq, Repr

/-- `DataFusionError`, as a scan raises it; `panicked` is the unwinding of
`row.get`. -/
inductive ScanError
  | schema (message : String)
  | query (message : String)
  | panicked
  | postgres (column : Nat) (cause : String)
  | execution (message : String)
  | unsupportedArrowType (dataType : DataType)
  | batch (error : BatchError)
  deriving DecidableEq, Repr

abbrev ScanResult :=
  Except ScanError

/-! ## Reading one cell -/

/-- The reading of a cell as a Rust type. -/
abbrev FromSql (Value : Type) :=
  SourceCell → Except String (Option Value)

/-- A type that is accepted for some columns only. -/
def fromSql {Value : Type} (rustName : String)
    (accepted : SourceCell → Option (Option Value)) : FromSql Value :=
  fun cell =>
    match accepted cell with
    | some value => .ok value
    | none => .error ("cannot convert between the Rust type " ++ "\x60" ++
        "core::option::Option<" ++ rustName ++ ">\x60 and the Postgres type " ++
        "\x60" ++ cell.sourceType.name ++ "\x60")

/-- A reading that can fail on the value itself. -/
def checkedFromSql {Value Result : Type} (read : FromSql Value)
    (check : Value → Except String Result) : FromSql Result :=
  fun cell => do
    match ← read cell with
    | some value => some <$> check value
    | none => return none

def asI16 : FromSql Int16 :=
  fromSql "i16" fun
    | .int2 value => some value
    | _ => none

def asI32 : FromSql Int32 :=
  fromSql "i32" fun
    | .int4 value => some value
    | _ => none

def asI64 : FromSql Int64 :=
  fromSql "i64" fun
    | .int8 value => some value
    | _ => none

def asF32 : FromSql F32 :=
  fromSql "f32" fun
    | .float4 value => some value
    | _ => none

def asF64 : FromSql F64 :=
  fromSql "f64" fun
    | .float8 value => some value
    | _ => none

def asBool : FromSql Bool :=
  fromSql "bool" fun
    | .bool value => some value
    | _ => none

def asUuid : FromSql Uuid :=
  fromSql "uuid::Uuid" fun
    | .uuid value => some value
    | _ => none

def asString : FromSql String :=
  fromSql "alloc::string::String" fun
    | .text value | .varchar value | .bpchar value => some value
    | _ => none

def asBytes : FromSql (List UInt8) :=
  fromSql "alloc::vec::Vec<u8>" fun
    | .bytea value => some value
    | _ => none

section Reading

variable (libraries : ScanLibraries)

def asJson : FromSql libraries.Json :=
  checkedFromSql
    (fromSql "serde_json::value::Value" fun
      | .json document | .jsonb document => some document
      | _ => none)
    libraries.parseJson

/-- A moment in nanoseconds from 1970, if the calendar has it. -/
def momentOf (micros : Int64) : Except String Int :=
  if libraries.calendar.hasDateTime (nanosFrom1970 micros) then
    .ok (nanosFrom1970 micros)
  else .error "value too large to decode"

def asDateTimeUtc : FromSql Int :=
  checkedFromSql
    (fromSql "chrono::datetime::DateTime<chrono::offset::utc::Utc>" fun
      | .timestamptz micros => some micros
      | _ => none)
    (momentOf libraries)

def asNaiveDateTime : FromSql Int :=
  checkedFromSql
    (fromSql "chrono::naive::datetime::NaiveDateTime" fun
      | .timestamp micros => some micros
      | _ => none)
    (momentOf libraries)

/-- A date in days from 1970, if the calendar has it. -/
def dayOf (days : Int32) : Except String Int :=
  if libraries.calendar.hasDate (daysFrom1970 days) then
    .ok (daysFrom1970 days)
  else .error "value too large to decode"

def asNaiveDate : FromSql Int :=
  checkedFromSql
    (fromSql "chrono::naive::date::NaiveDate" fun
      | .date days => some days
      | _ => none)
    (dayOf libraries)

end Reading

/-! ## Building the arrays -/

/-- `try_get` of a row. -/
def tryGetAs {Value : Type} (read : FromSql Value) (row : List SourceCell)
    (colIdx : Nat) : ScanResult (Option Value) :=
  match row[colIdx]? with
  | some cell => (read cell).mapError (.postgres colIdx)
  | none => .error (.postgres colIdx "invalid column")

/-- `build_array!`. -/
def buildArray {Raw Value : Type} (read : FromSql Raw)
    (convert : Raw → ScanResult Value) (colIdx : Nat)
    (rows : List (List SourceCell)) : ScanResult (List (Option Value)) :=
  rows.mapM fun row => do
    match ← tryGetAs read row colIdx with
    | some value => some <$> convert value
    | none => return none

/-- `timestamp_nanos_opt` with its error. -/
def nanosOrError (display : Int → String) (nanos : Int) : ScanResult Int64 :=
  match Server.timestampNanosOpt nanos with
  | some nanos => .ok nanos
  | none => .error (.execution ("timestamp " ++ display nanos ++
      " is out of range for nanosecond precision"))

section Building

variable (libraries : ScanLibraries)

/-- The array of one field. -/
def buildColumn (field : Field) (colIdx : Nat)
    (rows : List (List SourceCell)) : ScanResult ColumnArray :=
  match field.dataType, field.pgType with
  | .int16, _ => .int16 <$> buildArray asI16 pure colIdx rows
  | .int32, _ => .int32 <$> buildArray asI32 pure colIdx rows
  | .int64, _ => .int64 <$> buildArray asI64 pure colIdx rows
  | .float32, _ => .float32 <$> buildArray asF32 pure colIdx rows
  | .float64, _ => .float64 <$> buildArray asF64 pure colIdx rows
  | .boolean, _ => .boolean <$> buildArray asBool pure colIdx rows
  | .utf8, some "uuid" =>
      .utf8 <$> buildArray asUuid (fun value => pure value.display) colIdx rows
  | .utf8, some "json" | .utf8, some "jsonb" =>
      .utf8 <$> buildArray (asJson libraries)
        (fun value => pure (libraries.printJson value)) colIdx rows
  | .utf8, _ => .utf8 <$> buildArray asString pure colIdx rows
  | .binary, _ => .binary <$> buildArray asBytes pure colIdx rows
  | .timestampNanosecond (some _), _ =>
      .timestampNanosecond (some "+00:00") <$>
        buildArray (asDateTimeUtc libraries)
          (nanosOrError libraries.displayUtc) colIdx rows
  | .timestampNanosecond none, _ =>
      .timestampNanosecond none <$>
        buildArray (asNaiveDateTime libraries)
          (nanosOrError libraries.displayNaive) colIdx rows
  | .date32, _ =>
      .date32 <$> buildArray (asNaiveDate libraries)
        (fun days => pure (Int32.ofInt days)) colIdx rows
  | dataType, _ => .error (.unsupportedArrowType dataType)

/-- Whether an array holds a null. -/
def hasNull : ColumnArray → Bool
  | .boolean values => values.any Option.isNone
  | .int16 values => values.any Option.isNone
  | .int32 values => values.any Option.isNone
  | .int64 values => values.any Option.isNone
  | .float32 values => values.any Option.isNone
  | .float64 values => values.any Option.isNone
  | .utf8 values => values.any Option.isNone
  | .binary values => values.any Option.isNone
  | .date32 values => values.any Option.isNone
  | .timestampNanosecond _ values => values.any Option.isNone
  | .other _ _ => false

/-- `RecordBatch::try_new_with_options`. -/
def tryNewBatch (schema : Schema) (columns : List ColumnArray)
    (rowCount : Option Nat) : Except BatchError RecordBatch :=
  if columns.length ≠ schema.length then .error .columnCount
  else
    match rowCount.or (columns.head?.map ColumnArray.length) with
    | none => .error .noRowCount
    | some numRows =>
        match (columns.zip schema).find? fun (column, field) =>
            !field.nullable && hasNull column with
        | some (_, field) => .error (.nullInColumn field.name)
        | none =>
            if lengths_eq : ∀ column ∈ columns, column.length = numRows then
              if types_eq : columns.map ColumnArray.dataType =
                  schema.map Field.dataType then
                .ok ⟨schema, columns, numRows, types_eq, lengths_eq⟩
              else .error .types
            else .error .lengths

/-- The batch of a projection without columns: the number of rows only. -/
def countBatch (fields : Schema) (rows : Answer) :
    ScanResult RecordBatch :=
  match rows with
  | [row] =>
      match tryGetAs asI64 row 0 with
      | .ok (some number) =>
          (tryNewBatch fields [] (some number.toUInt64.toNat)).mapError .batch
      | _ => .error .panicked
  | _ => .error (.query "query returned an unexpected number of rows")

/-- The batch of a projection with columns. -/
def rowsBatch (fields : Schema) (rows : Answer) : ScanResult RecordBatch := do
  let columns ← fields.zipIdx.mapM fun indexed =>
    buildColumn libraries indexed.1 indexed.2 rows
  (tryNewBatch fields columns none).mapError .batch

/-- `scan`, down to the batch that it returns. -/
def Provider.scanBatch (provider : Provider)
    (query : String → Except String Answer)
    (projection : Option (List Nat)) (filters : List Pushdown.Expr)
    (limit : Option Nat) : ScanResult RecordBatch := do
  let fields ← (provider.projectedSchema projection).mapError .schema
  let rows ← (query (provider.scanSql fields filters limit)).mapError .query
  if fields.isEmpty then countBatch fields rows
  else rowsBatch libraries fields rows

end Building

end PostgresTable

end Igloo
