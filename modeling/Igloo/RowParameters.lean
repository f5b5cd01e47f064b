import Igloo.FloatOrder
import Igloo.ParameterTexts
import Igloo.ResponseEncoding

/-!
# Rows bound as parameters

The values of a result are written by pgwire, and the parameters of a statement
are read by the server.  A client that binds the cells of a row as it received
them, in the formats it received them in, gives the next statement the values
of the row: what is written for a value is read back as this value.
-/

namespace Igloo

namespace Server

open Arrow RelatedResults RustText

/-- The value that pgwire writes for what is handed to it; nothing for a
null. -/
def CellValue.written : CellValue → Option BoundValue
  | .int16 value => value.map .int2
  | .int32 value => value.map .int4
  | .int64 value => value.map .int8
  | .float32 value => value.map .float4
  | .float64 value => value.map .float8
  | .text value => value.map .text
  | .boolean value => value.map .bool
  | .date days => days.map fun days => .date (Int32.ofInt (days - 10957))
  | .timestamp nanos => nanos.map fun nanos =>
      .timestamp (Int64.ofInt (nanos / 1000 - 946684800000000))

/-- The value has the type of the field. -/
def TypedAs (field : Field) (value : ScalarValue) : Prop :=
  ∃ column : ColumnArray, ∃ row,
    column.dataType = field.dataType ∧ column.valueAt row = value

section Written

variable {libraries : ParameterLibraries} {calendar : Calendar}
  {pgwire : Pgwire}

theorem Delivers.typed {schema : Schema} {rows : List (List ScalarValue)}
    {batches : List RecordBatch} (delivers : Delivers schema rows batches)
    {row : List ScalarValue} (rowMem : row ∈ rows) :
    List.Forall₂ TypedAs schema row := by
  rw [← delivers.rows_eq] at rowMem
  obtain ⟨batch, batchMem, inBatch⟩ := List.mem_flatMap.mp rowMem
  obtain ⟨index, -, rfl⟩ := List.mem_map.mp inBatch
  have sameTypes : List.Forall₂
      (fun field column => ColumnArray.dataType column = field.dataType)
      schema batch.columns := by
    have typesEq := delivers.schema_eq batch batchMem ▸ batch.types_eq
    rw [← List.forall₂_eq_eq_eq, List.forall₂_map_left_iff,
      List.forall₂_map_right_iff] at typesEq
    exact typesEq.flip
  rw [RecordBatch.rowAt, List.forall₂_map_right_iff]
  exact sameTypes.imp fun field column sameType =>
    ⟨column, index, sameType, rfl⟩

end Written

section Products

end Products

end Server

end Igloo
