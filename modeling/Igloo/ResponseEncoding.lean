import Igloo.ResponseChunking

/-!
# The rows of a response

The response to a result is its rows, encoded one after the other and value by
value.  The only errors of the encoder itself are an unsupported column type,
found before any row, and a date out of range.
-/

namespace Igloo

namespace Server

open Arrow RelatedResults

variable (pgwire : Pgwire)

/-- One value encoded for its field. -/
def encodeValue (info : FieldInfo) (value : ScalarValue) : PgWireResult Cell :=
  match cellValue pgwire value with
  | some handed => pgwire.encodeField info handed
  | none => .error (userError "date out of range")

/-- One row encoded for its fields. -/
def encodeRow (infos : List FieldInfo) (row : List ScalarValue) :
    PgWireResult DataRow :=
  (infos.zip row).mapM fun entry => encodeValue pgwire entry.1 entry.2

/-- A column type that the endpoint supports. -/
def Supported (dataType : DataType) : Prop :=
  ∃ pgType, mapArrowType dataType = .ok pgType

section Encoding

variable {pgwire}

theorem cellValue_date (days : Int32) :
    cellValue pgwire (.date32 (some days)) =
      if pgwire.dateInRange days.toInt then some (.date (some days.toInt))
      else none :=
  rfl

theorem encodeCell_eq {done todo : List FieldInfo} {field : FieldInfo}
    {cells : List Cell} {column : ColumnArray} {row : Nat}
    (lengthEq : cells.length = done.length)
    (supported : Supported column.dataType) :
    DataRowEncoder.encodeCell pgwire ⟨done ++ field :: todo, cells⟩ column row =
      (fun cell => ⟨done ++ field :: todo, cells ++ [cell]⟩) <$>
        encodeValue pgwire field (column.valueAt row) := by
  have sent : ∀ handed, DataRowEncoder.encodeField pgwire
      ⟨done ++ field :: todo, cells⟩ handed =
        (fun cell => ⟨done ++ field :: todo, cells ++ [cell]⟩) <$>
          pgwire.encodeField field handed := by
    intro handed
    have isField : (done ++ field :: todo)[cells.length]? = some field := by
      rw [lengthEq, List.getElem?_append_right (Nat.le_refl _), Nat.sub_self]
      rfl
    simp only [DataRowEncoder.encodeField, isField]
    cases pgwire.encodeField field handed <;> rfl
  unfold DataRowEncoder.encodeCell
  cases column with
  | date32 values =>
      have isDate : ColumnArray.valueAt row (.date32 values) =
          .date32 values[row]?.join := rfl
      rw [isDate]
      dsimp only
      cases values[row]?.join with
      | none => exact sent _
      | some days =>
          rw [encodeValue, cellValue_date]
          by_cases inRange : pgwire.dateInRange days.toInt
          · simp only [inRange, if_true]
            exact sent _
          · simp only [inRange]
            rfl
  | binary values => obtain ⟨pgType, mapped⟩ := supported; cases mapped
  | other debug length => obtain ⟨pgType, mapped⟩ := supported; cases mapped
  | _ => exact sent _

theorem foldlM_encodeCell_eq {row : Nat} {done todo : List FieldInfo}
    {cells : List Cell} {columns : List ColumnArray}
    (lengthEq : cells.length = done.length)
    (width : todo.length = columns.length)
    (supported : ∀ column ∈ columns, Supported column.dataType) :
    columns.foldlM (fun (encoder : DataRowEncoder) column =>
        encoder.encodeCell pgwire column row) ⟨done ++ todo, cells⟩ =
      (fun dataRow => ⟨done ++ todo, cells ++ dataRow⟩) <$>
        encodeRow pgwire todo (columns.map (ColumnArray.valueAt row)) := by
  induction columns generalizing done todo cells with
  | nil =>
      rw [List.length_eq_zero_iff.mp width]
      simp [encodeRow]
  | cons column columns induction =>
      cases todo with
      | nil => cases width
      | cons field todo =>
          have placed : ∀ cell : Cell, (cells ++ [cell]).length =
              (done ++ [field]).length := by simp [lengthEq]
          rw [List.foldlM_cons, encodeCell_eq lengthEq
            (supported column List.mem_cons_self), encodeRow, List.map_cons,
            List.zip_cons_cons, List.mapM_cons]
          cases encodeValue pgwire field (column.valueAt row) with
          | error error => rfl
          | ok cell =>
              have further := induction (placed cell) (Nat.succ.inj width)
                fun other otherMem =>
                  supported other (List.mem_cons_of_mem _ otherMem)
              rw [List.append_assoc, List.singleton_append] at further
              change columns.foldlM _
                (⟨done ++ field :: todo, cells ++ [cell]⟩ : DataRowEncoder) = _
              rw [further, encodeRow]
              cases (todo.zip (columns.map (ColumnArray.valueAt row))).mapM
                  fun entry => encodeValue pgwire entry.1 entry.2 with
              | error error => rfl
              | ok rest =>
                  change Except.ok (DataRowEncoder.mk _
                    (cells ++ [cell] ++ rest)) = _
                  rw [List.append_assoc]
                  rfl

theorem encodeBatchRows_eq {infos : List FieldInfo} {batch : RecordBatch}
    {schema : Schema}
    (sameTypes : batch.schema.map Field.dataType = schema.map Field.dataType)
    (width : infos.length = schema.length)
    (supported : ∀ field ∈ schema, Supported field.dataType) :
    encodeBatchRows pgwire infos batch =
      batch.rows.mapM (encodeRow pgwire infos) := by
  have columnTypes := batch.types_eq.trans sameTypes
  have columnsWidth : infos.length = batch.columns.length := by
    have sameLength := congrArg List.length columnTypes
    rw [List.length_map, List.length_map] at sameLength
    rw [width, sameLength]
  have columnsSupported : ∀ column ∈ batch.columns,
      Supported column.dataType := by
    intro column columnMem
    have typeMem : column.dataType ∈ schema.map Field.dataType :=
      columnTypes ▸ List.mem_map_of_mem columnMem
    obtain ⟨field, fieldMem, typeEq⟩ := List.mem_map.mp typeMem
    exact typeEq ▸ supported field fieldMem
  rw [encodeBatchRows, RecordBatch.rows, List.mapM_map]
  congr 1
  funext row
  have start : ([] : List Cell).length = ([] : List FieldInfo).length := rfl
  have encoded : batch.columns.foldlM
      (fun (encoder : DataRowEncoder) column =>
        encoder.encodeCell pgwire column row) ⟨infos, []⟩ =
      (fun dataRow => ⟨infos, dataRow⟩) <$>
        encodeRow pgwire infos (batch.rowAt row) :=
    foldlM_encodeCell_eq start columnsWidth columnsSupported
  rw [encoded]
  change _ = encodeRow pgwire infos (batch.rowAt row)
  cases encodeRow pgwire infos (batch.rowAt row) <;> rfl

theorem supported_of_schemaToFieldInfos {schema : Schema}
    {resultFormat : Format} {infos : List FieldInfo}
    (isInfos : schemaToFieldInfos schema resultFormat = .ok infos) :
    infos.length = schema.length ∧
      ∀ field ∈ schema, Supported field.dataType := by
  have described := mapM_eq_ok_iff.mp isInfos
  constructor
  · simpa using described.length_eq.symm
  · intro field fieldMem
    obtain ⟨index, inSchema, rfl⟩ := List.mem_iff_getElem.mp fieldMem
    have indexedMem : (schema[index], index) ∈ schema.zipIdx :=
      List.mk_mem_zipIdx_iff_getElem?.mpr (List.getElem?_eq_getElem inSchema)
    obtain ⟨info, -, isInfo⟩ := exists_related_of_mem described indexedMem
    obtain ⟨pgType, mapped, -⟩ := bind_eq_ok_iff.mp isInfo
    exact ⟨pgType, mapped⟩

/-- The response to one or more batches has the rows of all of them, encoded
one after the other.  It fails where a column type is not supported, and else
with the first failure of a value. -/
theorem batchesToResponseInFormat_eq {first : RecordBatch}
    {batches : List RecordBatch}
    (sameTypes : ∀ batch ∈ first :: batches,
      batch.schema.map Field.dataType = first.schema.map Field.dataType)
    (resultFormat : Format) :
    batchesToResponseInFormat pgwire (first :: batches) resultFormat = (do
      let infos ← schemaToFieldInfos first.schema resultFormat
      let dataRows ← ((first :: batches).flatMap RecordBatch.rows).mapM
        (encodeRow pgwire infos)
      return .query infos dataRows) := by
  rw [batchesToResponseInFormat]
  cases isInfos : schemaToFieldInfos first.schema resultFormat with
  | error error => rfl
  | ok infos =>
      obtain ⟨width, supported⟩ := supported_of_schemaToFieldInfos isInfos
      have encoded : ∀ batch ∈ first :: batches,
          encodeBatchRows pgwire infos batch =
            batch.rows.mapM (encodeRow pgwire infos) :=
        fun batch batchMem =>
          encodeBatchRows_eq (sameTypes batch batchMem) width supported
      change (List.mapM (encodeBatchRows pgwire infos) (first :: batches) >>=
        fun rows => pure (Response.query infos rows.flatten)) = _
      rw [mapM_eq_of_forall₂ (List.forall₂_same.mpr encoded)]
      change _ = (((first :: batches).flatMap RecordBatch.rows).mapM
        (encodeRow pgwire infos) >>= fun dataRows =>
          pure (Response.query infos dataRows))
      rw [← flatten_mapM]
      cases (first :: batches).mapM fun batch =>
        batch.rows.mapM (encodeRow pgwire infos) <;> rfl

end Encoding

end Server

end Igloo
