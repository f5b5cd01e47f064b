import Igloo.RelatedResults
import Igloo.RustText
import Igloo.WireResponse

/-!
# Responses and the batches they come in

A result is a sequence of rows; the engine delivers it cut into record batches.
The response to a client is stated against the rows: it is the same for every
way of cutting them into one or more batches.  When there is no batch at all
the schema is not known either, and the response is the tag of an empty
`SELECT`.
-/

namespace Igloo

namespace Arrow

/-- The value at a row of an array. -/
def ColumnArray.valueAt (row : Nat) : ColumnArray → ScalarValue
  | .boolean values => .boolean values[row]?.join
  | .int16 values => .int16 values[row]?.join
  | .int32 values => .int32 values[row]?.join
  | .int64 values => .int64 values[row]?.join
  | .float32 values => .float32 values[row]?.join
  | .float64 values => .float64 values[row]?.join
  | .utf8 values => .utf8 values[row]?.join
  | .binary values => .binary values[row]?.join
  | .date32 values => .date32 values[row]?.join
  | .timestampNanosecond timezone values =>
      .timestampNanosecond values[row]?.join timezone
  | .other debug _ => .other debug

/-- The values of one row, column by column. -/
def RecordBatch.rowAt (batch : RecordBatch) (row : Nat) : List ScalarValue :=
  batch.columns.map (ColumnArray.valueAt row)

/-- The rows of a batch in order. -/
def RecordBatch.rows (batch : RecordBatch) : List (List ScalarValue) :=
  (List.range batch.numRows).map batch.rowAt

end Arrow

namespace Server

open Arrow RelatedResults

/-- The batches deliver the rows over the schema. -/
structure Delivers (schema : Schema) (rows : List (List ScalarValue))
    (batches : List RecordBatch) : Prop where
  schema_eq : ∀ batch ∈ batches, batch.schema = schema
  rows_eq : batches.flatMap RecordBatch.rows = rows

/-- The description of one column of the schema. -/
structure DescribesField (resultFormat : Format) (column : Field × Nat)
    (info : FieldInfo) : Prop where
  name_eq : info.name = column.1.name
  mapped : mapArrowType column.1.dataType = .ok info.dataType
  format_eq : info.format = resultFormat.formatFor column.2

variable (pgwire : Pgwire)

/-- What is handed to `encode_field` for a value; nothing for a date out of
range and for the types that the endpoint does not support. -/
def cellValue : ScalarValue → Option CellValue
  | .boolean value => some (.boolean value)
  | .int16 value => some (.int16 value)
  | .int32 value => some (.int32 value)
  | .int64 value => some (.int64 value)
  | .float32 value => some (.float32 value)
  | .float64 value => some (.float64 value)
  | .utf8 value => some (.text value)
  | .date32 none => some (.date none)
  | .date32 (some days) =>
      if pgwire.dateInRange days.toInt then some (.date (some days.toInt))
      else none
  | .timestampNanosecond nanos _ => some (.timestamp (nanos.map Int64.toInt))
  | _ => none

/-- The cell is the encoding of the value in the field. -/
def EncodesValue (field : FieldInfo) (value : ScalarValue) (cell : Cell) :
    Prop :=
  ∃ handed, cellValue pgwire value = some handed ∧
    pgwire.encodeField field handed = .ok cell

/-- One cell for each field, each the encoding of the value of its column. -/
def EncodesRow (fields : List FieldInfo) (row : List ScalarValue)
    (dataRow : DataRow) : Prop :=
  fields.length = row.length ∧
    List.Forall₂ (fun entry cell => EncodesValue pgwire entry.1 entry.2 cell)
      (fields.zip row) dataRow

/-- A row with a value for each field, each of which can be encoded. -/
def EncodableRow (fields : List FieldInfo) (row : List ScalarValue) : Prop :=
  fields.length = row.length ∧ ∀ entry ∈ fields.zip row,
    ∃ cell, EncodesValue pgwire entry.1 entry.2 cell

/-- Every two ways of delivering the rows get the same response. -/
def Rechunkable (schema : Schema) (resultFormat : Format)
    (rows : List (List ScalarValue)) : Prop :=
  ∀ first second, Delivers schema rows first → Delivers schema rows second →
    batchesToResponseInFormat pgwire first resultFormat =
      batchesToResponseInFormat pgwire second resultFormat

section Encoding

variable {pgwire} {fields : List FieldInfo}

theorem encodeCell_eq_ok {done todo : List FieldInfo} {field : FieldInfo}
    {cells : List Cell} {cell : Cell} {column : ColumnArray} {row : Nat}
    (lengthEq : cells.length = done.length)
    (encodes : EncodesValue pgwire field (column.valueAt row) cell) :
    DataRowEncoder.encodeCell pgwire ⟨done ++ field :: todo, cells⟩ column row =
      .ok ⟨done ++ field :: todo, cells ++ [cell]⟩ := by
  obtain ⟨handed, isHanded, encoded⟩ := encodes
  have sent : DataRowEncoder.encodeField pgwire
      ⟨done ++ field :: todo, cells⟩ handed =
        .ok ⟨done ++ field :: todo, cells ++ [cell]⟩ := by
    have isField : (done ++ field :: todo)[cells.length]? = some field := by
      rw [lengthEq, List.getElem?_append_right (Nat.le_refl _), Nat.sub_self]
      rfl
    simp only [DataRowEncoder.encodeField, isField, encoded]
    rfl
  unfold DataRowEncoder.encodeCell
  cases column with
  | boolean values => cases isHanded; exact sent
  | int16 values => cases isHanded; exact sent
  | int32 values => cases isHanded; exact sent
  | int64 values => cases isHanded; exact sent
  | float32 values => cases isHanded; exact sent
  | float64 values => cases isHanded; exact sent
  | utf8 values => cases isHanded; exact sent
  | binary values => cases isHanded
  | date32 values =>
      simp only [ColumnArray.valueAt] at isHanded
      dsimp only
      cases isDate : values[row]?.join with
      | none =>
          rw [isDate] at isHanded
          cases isHanded
          exact sent
      | some days =>
          rw [isDate] at isHanded
          change (if pgwire.dateInRange days.toInt then
            some (CellValue.date (some days.toInt)) else none) =
              some handed at isHanded
          split at isHanded
          · rename_i inRange
            cases isHanded
            simp only [inRange, if_true]
            exact sent
          · cases isHanded
  | timestampNanosecond timezone values => cases isHanded; exact sent
  | other debug length => cases isHanded

theorem foldlM_encodeCell {row : Nat} {done todo : List FieldInfo}
    {cells dataRow : List Cell} {columns : List ColumnArray}
    (lengthEq : cells.length = done.length)
    (encodes : EncodesRow pgwire todo
      (columns.map (ColumnArray.valueAt row)) dataRow) :
    columns.foldlM (fun (encoder : DataRowEncoder) column =>
        encoder.encodeCell pgwire column row) ⟨done ++ todo, cells⟩ =
      .ok ⟨done ++ todo, cells ++ dataRow⟩ := by
  induction columns generalizing done todo cells dataRow with
  | nil =>
      obtain ⟨sameLength, encoded⟩ := encodes
      rw [List.length_eq_zero_iff.mp sameLength] at encoded ⊢
      cases encoded
      rw [List.append_nil, List.append_nil]
      rfl
  | cons column columns induction =>
      obtain ⟨sameLength, encoded⟩ := encodes
      cases todo with
      | nil => cases sameLength
      | cons field todo =>
          cases encoded with
          | @cons _ cell _ others here rest =>
              have step : DataRowEncoder.encodeCell pgwire
                  ⟨done ++ field :: todo, cells⟩ column row =
                    .ok ⟨done ++ field :: todo, cells ++ [cell]⟩ :=
                encodeCell_eq_ok lengthEq here
              have further : EncodesRow pgwire todo
                  (columns.map (ColumnArray.valueAt row)) others :=
                ⟨Nat.succ.inj sameLength, rest⟩
              have placed : (cells ++ [cell]).length =
                  (done ++ [field]).length := by simp [lengthEq]
              have reached := induction placed further
              rw [List.append_assoc, List.singleton_append,
                List.append_assoc, List.singleton_append] at reached
              rw [List.foldlM_cons, step]
              exact reached

theorem encodeBatchRows_eq_ok {batch : RecordBatch} {dataRows : List DataRow}
    (encodes : List.Forall₂ (EncodesRow pgwire fields) batch.rows dataRows) :
    encodeBatchRows pgwire fields batch = .ok dataRows := by
  rw [RecordBatch.rows, List.forall₂_map_left_iff] at encodes
  refine mapM_eq_ok_iff.mpr (encodes.imp ?_)
  intro row dataRow encodesRow
  have start : ([] : List Cell).length = ([] : List FieldInfo).length := rfl
  have encoded := foldlM_encodeCell start encodesRow
  rw [List.nil_append, List.nil_append] at encoded
  rw [encoded]
  rfl

theorem exists_mapM_encodeBatchRows {batches : List RecordBatch}
    {dataRows : List DataRow}
    (encodes : List.Forall₂ (EncodesRow pgwire fields)
      (batches.flatMap RecordBatch.rows) dataRows) :
    ∃ rows, batches.mapM (encodeBatchRows pgwire fields) = .ok rows ∧
      rows.flatten = dataRows := by
  induction batches generalizing dataRows with
  | nil =>
      cases encodes
      exact ⟨[], rfl, rfl⟩
  | cons batch batches induction =>
      rw [List.flatMap_cons] at encodes
      have here := (List.forall₂_take_append _ _ _ encodes.flip).flip
      have others := (List.forall₂_drop_append _ _ _ encodes.flip).flip
      obtain ⟨rows, looped, flat⟩ := induction others
      refine ⟨dataRows.take batch.rows.length :: rows, ?_, ?_⟩
      · rw [List.mapM_cons, encodeBatchRows_eq_ok here, looped]
        rfl
      · rw [List.flatten_cons, flat, List.take_append_drop]

theorem exists_encodesRow {row : List ScalarValue}
    (encodable : EncodableRow pgwire fields row) :
    ∃ dataRow, EncodesRow pgwire fields row dataRow := by
  obtain ⟨dataRow, encodes⟩ := exists_forall₂ encodable.2
  exact ⟨dataRow, encodable.1, encodes⟩

end Encoding

theorem exists_describesField {schema : Schema} (resultFormat : Format)
    (accepted : ∀ field ∈ schema,
      ∃ pgType, mapArrowType field.dataType = .ok pgType) :
    ∃ fields, schemaToFieldInfos schema resultFormat = .ok fields ∧
      List.Forall₂ (DescribesField resultFormat) schema.zipIdx fields := by
  have described : ∀ column ∈ schema.zipIdx,
      ∃ info, DescribesField resultFormat column info := by
    intro column columnMem
    obtain ⟨pgType, mapped⟩ :=
      accepted column.1 (List.fst_mem_of_mem_zipIdx columnMem)
    exact ⟨⟨column.1.name, pgType, resultFormat.formatFor column.2⟩,
      rfl, mapped, rfl⟩
  obtain ⟨fields, describes⟩ := exists_forall₂ described
  refine ⟨fields, mapM_eq_ok_iff.mpr (describes.imp ?_), describes⟩
  rintro ⟨field, index⟩ ⟨name, dataType, format⟩ ⟨nameEq, mapped, formatEq⟩
  simp only at nameEq mapped formatEq
  simp only [mapped, ← nameEq, ← formatEq]
  rfl

/-- However rows are cut into one or more batches, the response has the fields
of the schema and one data row for each row, in order, with one cell for each
column.  Without any batch it is the tag of an empty `SELECT`. -/
theorem batchesToResponseInFormat_delivers {schema : Schema}
    (resultFormat : Format)
    (accepted : ∀ field ∈ schema,
      ∃ pgType, mapArrowType field.dataType = .ok pgType) :
    ∃ fields,
      List.Forall₂ (DescribesField resultFormat) schema.zipIdx fields ∧
      (∀ rows, (∀ row ∈ rows, EncodableRow pgwire fields row) →
        ∃ dataRows, List.Forall₂ (EncodesRow pgwire fields) rows dataRows ∧
          ∀ batches, batches ≠ [] → Delivers schema rows batches →
            batchesToResponseInFormat pgwire batches resultFormat =
              .ok (.query fields dataRows)) ∧
      batchesToResponseInFormat pgwire [] resultFormat =
        .ok (.execution "SELECT" 0) := by
  obtain ⟨fields, isFields, describes⟩ :=
    exists_describesField resultFormat accepted
  refine ⟨fields, describes, ?_, rfl⟩
  intro rows encodable
  obtain ⟨dataRows, encodes⟩ := exists_forall₂ fun row rowMem =>
    exists_encodesRow (encodable row rowMem)
  refine ⟨dataRows, encodes, ?_⟩
  rintro batches nonempty ⟨schemaEq, rowsEq⟩
  rw [← rowsEq] at encodes
  obtain ⟨encoded, looped, flat⟩ := exists_mapM_encodeBatchRows encodes
  cases batches with
  | nil => exact absurd rfl nonempty
  | cons first batches =>
      have isSchema := schemaEq first List.mem_cons_self
      rw [batchesToResponseInFormat, isSchema, isFields, ← flat]
      change (List.mapM (encodeBatchRows pgwire fields) (first :: batches) >>=
        fun rows => pure (Response.query fields rows.flatten)) = _
      rw [looped]
      rfl

section Counts

/-- How a count is written in text format. -/
def countPgwire : Pgwire where
  encodeField := fun _ value =>
    match value with
    | .int64 (some count) =>
        .ok (some (RustText.toUtf8 (toString count.toInt)))
    | _ => .ok none
  dateInRange := fun _ => true

def countSchema : Schema :=
  [⟨"count", .int64, true, none⟩]

/-- A batch of counts. -/
def countsBatch (counts : List (Option Int64)) : RecordBatch where
  schema := countSchema
  columns := [.int64 counts]
  numRows := counts.length
  types_eq := rfl
  lengths_eq := by simp [ColumnArray.length]

/-- Two counts in one batch, or in two batches with an empty one between. -/
theorem batchesToResponseInFormat_twoCounts :
    ∃ fields dataRows,
      batchesToResponseInFormat countPgwire [countsBatch [some 7, none]]
        .unifiedText = .ok (.query fields dataRows) ∧
      batchesToResponseInFormat countPgwire
        [countsBatch [some 7], countsBatch [], countsBatch [none]]
        .unifiedText = .ok (.query fields dataRows) := by
  have accepted : ∀ field ∈ countSchema,
      ∃ pgType, mapArrowType field.dataType = .ok pgType := by
    intro field fieldMem
    rw [List.mem_singleton.mp fieldMem]
    exact ⟨.int8, rfl⟩
  obtain ⟨fields, describes, delivered, -⟩ :=
    batchesToResponseInFormat_delivers countPgwire .unifiedText accepted
  have encodable : ∀ row ∈ [[ScalarValue.int64 (some 7)], [.int64 none]],
      EncodableRow countPgwire fields row := by
    have oneField : fields.length = 1 := describes.length_eq.symm
    intro row rowMem
    simp only [List.mem_cons, List.not_mem_nil, or_false] at rowMem
    rcases rowMem with rfl | rfl
    · refine ⟨oneField, ?_⟩
      rintro ⟨field, value⟩ entryMem
      rw [List.mem_singleton.mp (List.of_mem_zip entryMem).2]
      exact ⟨_, _, rfl, rfl⟩
    · refine ⟨oneField, ?_⟩
      rintro ⟨field, value⟩ entryMem
      rw [List.mem_singleton.mp (List.of_mem_zip entryMem).2]
      exact ⟨_, _, rfl, rfl⟩
  obtain ⟨dataRows, -, same⟩ := delivered _ encodable
  refine ⟨fields, dataRows, same _ (by simp) ⟨?_, by decide⟩,
    same _ (by simp) ⟨?_, by decide⟩⟩
  · intro batch batchMem
    rw [List.mem_singleton.mp batchMem]
    rfl
  · intro batch batchMem
    simp only [List.mem_cons, List.not_mem_nil, or_false] at batchMem
    rcases batchMem with rfl | rfl | rfl <;> rfl

/-- No rows delivered as no batch and as a batch without rows. -/
theorem not_rechunkable_noRows :
    ¬ Rechunkable countPgwire countSchema .unifiedText [] := by
  intro rechunkable
  have same := rechunkable [] [countsBatch []] ⟨by simp, rfl⟩
    ⟨fun batch batchMem => by rw [List.mem_singleton.mp batchMem]; rfl, rfl⟩
  exact absurd same (by decide)

end Counts

end Server

end Igloo
