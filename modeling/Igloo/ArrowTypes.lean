import Igloo.IeeeFloat

/-!
# Arrow types, scalars and record batches

The part of the Arrow data model that the repository reads or builds.  Every
variant the repository never names is collected in `other`, which keeps the
`Debug` text that error messages quote.
-/

namespace Igloo

namespace Arrow

/-- `DataType`; a timestamp of another unit is an `other`. -/
inductive DataType
  | boolean
  | int16
  | int32
  | int64
  | float32
  | float64
  | utf8
  | binary
  | date32
  | timestampNanosecond (timezone : Option String)
  | other (debug : String)
  deriving DecidableEq, Repr

/-- `ScalarValue`; `none` is the typed null. -/
inductive ScalarValue
  | boolean (value : Option Bool)
  | int8 (value : Option Int8)
  | int16 (value : Option Int16)
  | int32 (value : Option Int32)
  | int64 (value : Option Int64)
  | uint8 (value : Option UInt8)
  | uint16 (value : Option UInt16)
  | uint32 (value : Option UInt32)
  | uint64 (value : Option UInt64)
  | float32 (value : Option F32)
  | float64 (value : Option F64)
  | utf8 (value : Option String)
  | largeUtf8 (value : Option String)
  | utf8View (value : Option String)
  | binary (value : Option (List UInt8))
  | date32 (days : Option Int32)
  | timestampNanosecond (nanos : Option Int64) (timezone : Option String)
  | other (debug : String)
  deriving DecidableEq, Repr

/-- `Field`; of the metadata, only the value stored under `PG_TYPE_META_KEY`
is ever read. -/
structure Field where
  name : String
  dataType : DataType
  nullable : Bool
  pgType : Option String
  deriving DecidableEq, Repr

/-- The fields of a schema in order. -/
abbrev Schema :=
  List Field

/-- An array of nullable values. -/
inductive ColumnArray
  | boolean (values : List (Option Bool))
  | int16 (values : List (Option Int16))
  | int32 (values : List (Option Int32))
  | int64 (values : List (Option Int64))
  | float32 (values : List (Option F32))
  | float64 (values : List (Option F64))
  | utf8 (values : List (Option String))
  | binary (values : List (Option (List UInt8)))
  | date32 (values : List (Option Int32))
  | timestampNanosecond (timezone : Option String)
      (values : List (Option Int64))
  | other (debug : String) (length : Nat)
  deriving DecidableEq, Repr

namespace ColumnArray

def dataType : ColumnArray → DataType
  | boolean _ => .boolean
  | int16 _ => .int16
  | int32 _ => .int32
  | int64 _ => .int64
  | float32 _ => .float32
  | float64 _ => .float64
  | utf8 _ => .utf8
  | binary _ => .binary
  | date32 _ => .date32
  | timestampNanosecond timezone _ => .timestampNanosecond timezone
  | other debug _ => .other debug

def length : ColumnArray → Nat
  | boolean values => values.length
  | int16 values => values.length
  | int32 values => values.length
  | int64 values => values.length
  | float32 values => values.length
  | float64 values => values.length
  | utf8 values => values.length
  | binary values => values.length
  | date32 values => values.length
  | timestampNanosecond _ values => values.length
  | other _ length => length

end ColumnArray

/-- A record batch: one array for each field, all of one length. -/
structure RecordBatch where
  schema : Schema
  columns : List ColumnArray
  numRows : Nat
  types_eq : columns.map ColumnArray.dataType = schema.map Field.dataType
  lengths_eq : ∀ column ∈ columns, column.length = numRows
  deriving DecidableEq

end Arrow

end Igloo
