import Igloo.ArrowTypes

/-!
# Encoding results for the wire

How collected record batches become a protocol response.  What pgwire itself
does with one value (`encode_field`) and chrono's calendar range are
parameters, gathered in `Pgwire`.
-/

namespace Igloo

namespace Server

open Arrow

/-- The PostgreSQL types the server knows by name. -/
inductive PgType
  | unknown
  | bool
  | int2
  | int4
  | int8
  | float4
  | float8
  | text
  | varchar
  | bpchar
  | date
  | timestamp
  | bytea
  | other (oid : Nat)
  deriving DecidableEq, Repr

structure ErrorInfo where
  severity : String
  code : String
  message : String
  deriving DecidableEq, Repr

/-- `PgWireError`; `library` are the errors pgwire raises by itself. -/
inductive PgWireError
  | userError (info : ErrorInfo)
  | library (message : String)
  deriving DecidableEq, Repr

abbrev PgWireResult :=
  Except PgWireError

def userError (message : String) : PgWireError :=
  .userError ⟨"ERROR", "42000", message⟩

inductive FieldFormat
  | text
  | binary
  deriving DecidableEq, Repr

/-- A list of format codes, known by what `format_for` answers.  Two or more
codes that do not cover the columns, at which `format_for` panics, are outside
the model. -/
structure Format where
  formatFor : Nat → FieldFormat

/-- `Format::UnifiedText`. -/
def Format.unifiedText : Format :=
  ⟨fun _ => .text⟩

def Format.isText (format : Format) (index : Nat) : Bool :=
  format.formatFor index = .text

/-- `FieldInfo`, whose table and column identifiers are always absent. -/
structure FieldInfo where
  name : String
  dataType : PgType
  format : FieldFormat
  deriving DecidableEq, Repr

/-- The values handed to `encode_field`: a date is its number of days since
1970, a timestamp its number of nanoseconds. -/
inductive CellValue
  | int16 (value : Option Int16)
  | int32 (value : Option Int32)
  | int64 (value : Option Int64)
  | float32 (value : Option F32)
  | float64 (value : Option F64)
  | text (value : Option String)
  | boolean (value : Option Bool)
  | date (days : Option Int)
  | timestamp (nanos : Option Int)
  deriving DecidableEq, Repr

/-- One encoded value of a data row; `none` is the SQL null. -/
abbrev Cell :=
  Option (List UInt8)

abbrev DataRow :=
  List Cell

/-- `Response`. -/
inductive Response
  | execution (tag : String) (rows : Nat)
  | query (fields : List FieldInfo) (rows : List DataRow)
  deriving DecidableEq, Repr

/-- The third-party functions the encoder calls. -/
structure Pgwire where
  encodeField : FieldInfo → CellValue → PgWireResult Cell
  /-- Whether chrono has a date that many days from 1970. -/
  dateInRange : Int → Bool

/-- `map_arrow_type`. -/
def mapArrowType : DataType → PgWireResult PgType
  | .int16 => .ok .int2
  | .int32 => .ok .int4
  | .int64 => .ok .int8
  | .float32 => .ok .float4
  | .float64 => .ok .float8
  | .utf8 => .ok .varchar
  | .boolean => .ok .bool
  | .date32 => .ok .date
  | .timestampNanosecond _ => .ok .timestamp
  | .binary => unsupported "Binary"
  | .other debug => unsupported debug
where
  unsupported (debug : String) : PgWireResult PgType :=
    .error (userError ("column type " ++ debug ++
      " is not supported over the pgwire endpoint yet"))

/-- `schema_to_field_infos`. -/
def schemaToFieldInfos (schema : Schema) (resultFormat : Format) :
    PgWireResult (List FieldInfo) :=
  schema.zipIdx.mapM fun (field, index) => do
    let dataType ← mapArrowType field.dataType
    return ⟨field.name, dataType, resultFormat.formatFor index⟩

/-- `DataRowEncoder`: the fields of the row and the cells encoded so far. -/
structure DataRowEncoder where
  schema : List FieldInfo
  cells : List Cell

namespace DataRowEncoder

variable (pgwire : Pgwire)

/-- `encode_field`, which indexes the fields by the number of cells so far. -/
def encodeField (encoder : DataRowEncoder) (value : CellValue) :
    PgWireResult DataRowEncoder :=
  match encoder.schema[encoder.cells.length]? with
  | none => .error (.library "index out of bounds")
  | some field => do
      let cell ← pgwire.encodeField field value
      return { encoder with cells := encoder.cells ++ [cell] }

/-- `encode_cell`. -/
def encodeCell (encoder : DataRowEncoder) (column : ColumnArray)
    (row : Nat) : PgWireResult DataRowEncoder :=
  match column with
  | .int16 values => encoder.encodeField pgwire (.int16 (values[row]?.join))
  | .int32 values => encoder.encodeField pgwire (.int32 (values[row]?.join))
  | .int64 values => encoder.encodeField pgwire (.int64 (values[row]?.join))
  | .float32 values =>
      encoder.encodeField pgwire (.float32 (values[row]?.join))
  | .float64 values =>
      encoder.encodeField pgwire (.float64 (values[row]?.join))
  | .utf8 values => encoder.encodeField pgwire (.text (values[row]?.join))
  | .boolean values =>
      encoder.encodeField pgwire (.boolean (values[row]?.join))
  | .date32 values => do
      let value ← match values[row]?.join with
        | none => .ok none
        | some days =>
            if pgwire.dateInRange days.toInt then .ok (some days.toInt)
            else .error (userError "date out of range")
      encoder.encodeField pgwire (.date value)
  | .timestampNanosecond _ values =>
      encoder.encodeField pgwire
        (.timestamp (values[row]?.join.map Int64.toInt))
  | .binary _ => unhandled "Binary"
  | .other debug _ => unhandled debug
where
  unhandled (debug : String) : PgWireResult DataRowEncoder :=
    .error (userError ("internal: unhandled column type " ++ debug ++
      " during row encoding"))

/-- `finish`. -/
def finish (encoder : DataRowEncoder) : DataRow :=
  encoder.cells

end DataRowEncoder

variable (pgwire : Pgwire)

/-- `encode_batch_rows`. -/
def encodeBatchRows (fields : List FieldInfo) (batch : RecordBatch) :
    PgWireResult (List DataRow) :=
  (List.range batch.numRows).mapM fun row => do
    let encoder ← batch.columns.foldlM
      (fun (encoder : DataRowEncoder) column =>
        encoder.encodeCell pgwire column row)
      ⟨fields, []⟩
    return encoder.finish

/-- `batches_to_response_in_format`. -/
def batchesToResponseInFormat (batches : List RecordBatch)
    (resultFormat : Format) : PgWireResult Response :=
  match batches with
  | [] => .ok (.execution "SELECT" 0)
  | first :: _ => do
      let fields ← schemaToFieldInfos first.schema resultFormat
      let rows ← batches.mapM (encodeBatchRows pgwire fields)
      return .query fields rows.flatten

/-- `batches_to_response`. -/
def batchesToResponse (batches : List RecordBatch) : PgWireResult Response :=
  batchesToResponseInFormat pgwire batches .unifiedText

end Server

end Igloo
