import Igloo.DecodedScans
import Igloo.ResponseEncoding

/-!
# From the rows of a source to the wire

A scan turns the cells of the source into Arrow values, and a response hands
these to pgwire.  Both together transcode the rows: what is handed to pgwire
for a cell is known from the cell alone, and only `bytea` columns are rejected.
-/

namespace Igloo

namespace PostgresTable

open Arrow RelatedResults Server
open Server.BoundValue (daysFrom1970 nanosFrom1970)

/-- The type that clients are told for a column of the source. -/
def SourceType.wireType : SourceType → Option PgType
  | int2 => some .int2
  | int4 => some .int4
  | int8 => some .int8
  | float4 => some .float4
  | float8 => some .float8
  | text | varchar | bpchar | json | jsonb | uuid => some .varchar
  | bool => some .bool
  | bytea => none
  | date => some .date
  | timestamp | timestamptz => some .timestamp

section Transcoding

variable (libraries : ScanLibraries) (pgwire : Pgwire)

/-- What is handed to pgwire for a cell, unless there is no such value. -/
def SourceCell.handed : SourceCell → Option CellValue
  | int2 value => some (.int16 value)
  | int4 value => some (.int32 value)
  | int8 value => some (.int64 value)
  | float4 value => some (.float32 value)
  | float8 value => some (.float64 value)
  | text value | varchar value | bpchar value => some (.text value)
  | bool value => some (.boolean value)
  | bytea _ => none
  | date days => some (.date (days.map daysFrom1970))
  | timestamp micros | timestamptz micros =>
      some (.timestamp (micros.map nanosFrom1970))
  | json document | jsonb document =>
      (stored (storedDocument libraries) document).toOption.map .text
  | uuid value => some (.text (value.map Uuid.display))

def unsupportedBinary : PgWireError :=
  Server.userError
    "column type Binary is not supported over the pgwire endpoint yet"

/-- A row of the source encoded for the fields of a response. -/
def transcodeRow (infos : List FieldInfo) (row : List SourceCell) :
    PgWireResult DataRow :=
  (infos.zip row).mapM fun entry =>
    match entry.2.handed libraries with
    | some handed => pgwire.encodeField entry.1 handed
    | none => .error unsupportedBinary

/-- The description of a field for a column of the source. -/
structure DescribesColumn (resultFormat : Format)
    (column : (Field × SourceType) × Nat) (info : FieldInfo) : Prop where
  name_eq : info.name = column.1.1.name
  dataType_eq : column.1.2.wireType = some info.dataType
  format_eq : info.format = resultFormat.formatFor column.2

/-- The response to the rows of a source over the fields. -/
def TranscodesTo (fields : Schema) (types : List SourceType) (rows : Answer)
    (resultFormat : Format) (response : PgWireResult Response) : Prop :=
  if .bytea ∈ types then response = .error unsupportedBinary
  else ∃ infos,
    List.Forall₂ (DescribesColumn resultFormat) (fields.zip types).zipIdx
      infos ∧
    response = Response.query infos <$>
      rows.mapM (transcodeRow libraries pgwire infos)

end Transcoding

section Responses

variable {libraries : ScanLibraries} {pgwire : Pgwire}

theorem handed_of_storedMoment {display : Int → String}
    {micros nanos : Option Int64}
    (isStored : stored (storedMoment libraries display) micros = .ok nanos) :
    nanos.map Int64.toInt = micros.map nanosFrom1970 := by
  rcases exists_of_stored isStored with
    ⟨rfl, rfl⟩ | ⟨value, image, rfl, isImage, rfl⟩
  · rfl
  · exact congrArg some (toInt_of_storedMoment isImage)

theorem exists_handed_of_decode
    (sameDates : ∀ days, libraries.calendar.hasDate days = true →
      pgwire.dateInRange days = true)
    {cell : SourceCell} {value : ScalarValue}
    (decoded : cell.decode libraries = .ok value)
    (notBytea : cell.sourceType ≠ .bytea) :
    ∃ handed, cellValue pgwire value = some handed ∧
      cell.handed libraries = some handed := by
  have documents : ∀ document,
      ScalarValue.utf8 <$> stored (storedDocument libraries) document =
        .ok value →
      ∃ handed, cellValue pgwire value = some handed ∧
        (stored (storedDocument libraries) document).toOption.map
          CellValue.text = some handed := by
    intro document isDocument
    obtain ⟨text, isText, rfl⟩ := map_eq_ok_iff.mp isDocument
    rw [isText]
    exact ⟨_, rfl, rfl⟩
  have moments : ∀ {display : Int → String} {micros : Option Int64}
      (timezone : Option String),
      (ScalarValue.timestampNanosecond · timezone) <$>
          stored (storedMoment libraries display) micros = .ok value →
      ∃ handed, cellValue pgwire value = some handed ∧
        some (CellValue.timestamp (micros.map nanosFrom1970)) =
          some handed := by
    intro display micros timezone isMoment
    obtain ⟨kept, isKept, rfl⟩ := map_eq_ok_iff.mp isMoment
    rw [← handed_of_storedMoment isKept]
    exact ⟨_, rfl, rfl⟩
  cases cell with
  | bytea bytes => exact absurd rfl notBytea
  | date days =>
      obtain ⟨kept, isKept, rfl⟩ := map_eq_ok_iff.mp decoded
      rcases exists_of_stored isKept with
        ⟨rfl, rfl⟩ | ⟨value, image, rfl, isImage, rfl⟩
      · exact ⟨_, rfl, rfl⟩
      · obtain ⟨inCalendar, dayEq⟩ := toInt_of_storedDay isImage
        rw [cellValue_date, dayEq, if_pos (sameDates _ inCalendar)]
        exact ⟨_, rfl, rfl⟩
  | timestamp micros => exact moments none decoded
  | timestamptz micros => exact moments (some "+00:00") decoded
  | json document => exact documents document decoded
  | jsonb document => exact documents document decoded
  | _ => cases decoded; exact ⟨_, rfl, rfl⟩

theorem encodeRow_eq_transcodeRow
    (sameDates : ∀ days, libraries.calendar.hasDate days = true →
      pgwire.dateInRange days = true)
    {cells : List SourceCell} {values : List ScalarValue}
    (decoded : List.Forall₂ (fun cell value =>
      SourceCell.decode libraries cell = .ok value) cells values)
    (notBytea : ∀ cell ∈ cells, cell.sourceType ≠ .bytea)
    (infos : List FieldInfo) :
    encodeRow pgwire infos values = transcodeRow libraries pgwire infos cells := by
  unfold encodeRow transcodeRow
  induction decoded generalizing infos with
  | nil => rw [List.zip_nil_right, List.zip_nil_right]; rfl
  | @cons cell value cells values here decoded induction =>
      cases infos with
      | nil => rfl
      | cons info infos =>
          obtain ⟨handed, isHanded, cellHanded⟩ := exists_handed_of_decode
            sameDates here (notBytea cell List.mem_cons_self)
          have rest := induction (fun other otherMem =>
            notBytea other (List.mem_cons_of_mem _ otherMem)) infos
          have first : encodeValue pgwire info value =
              pgwire.encodeField info handed := by
            simp only [encodeValue, isHanded]
          rw [List.zip_cons_cons, List.zip_cons_cons, List.mapM_cons,
            List.mapM_cons, first, rest]
          simp only [cellHanded]

theorem mapArrowType_of_introspected {field : Field} {type : SourceType}
    (introspected : IntrospectedAs field type) :
    mapArrowType field.dataType =
      match type.wireType with
      | some pgType => .ok pgType
      | none => .error unsupportedBinary := by
  rw [introspected.eq.1]
  cases type <;> rfl

theorem wireType_eq_none_iff {type : SourceType} :
    type.wireType = none ↔ type = .bytea := by
  cases type <;> simp [SourceType.wireType]

theorem exists_schemaToFieldInfos {fields : Schema} {types : List SourceType}
    (introspected : List.Forall₂ IntrospectedAs fields types)
    (noBytea : .bytea ∉ types) (resultFormat : Format) :
    ∃ infos, schemaToFieldInfos fields resultFormat = .ok infos ∧
      List.Forall₂ (DescribesColumn resultFormat) (fields.zip types).zipIdx
        infos := by
  have described : ∀ column ∈ (fields.zip types).zipIdx, ∃ info,
      DescribesColumn resultFormat column info ∧
        mapArrowType column.1.1.dataType = .ok info.dataType := by
    rintro ⟨⟨field, type⟩, index⟩ columnMem
    have entryMem := List.fst_mem_of_mem_zipIdx columnMem
    have mapped := mapArrowType_of_introspected
      (List.forall₂_zip introspected entryMem)
    cases isWire : type.wireType with
    | none =>
        rw [wireType_eq_none_iff] at isWire
        exact absurd (isWire ▸ (List.of_mem_zip entryMem).2) noBytea
    | some pgType =>
        rw [isWire] at mapped
        exact ⟨⟨field.name, pgType, resultFormat.formatFor index⟩,
          ⟨rfl, isWire, rfl⟩, mapped⟩
  obtain ⟨infos, each⟩ := exists_forall₂ described
  refine ⟨infos, ?_, each.imp fun _ _ here => here.1⟩
  have fieldsEq : fields.zipIdx =
      (fields.zip types).zipIdx.map fun column => (column.1.1, column.2) := by
    have zipped := List.map_fst_zip introspected.length_eq.le
    conv_lhs => rw [← zipped, List.zipIdx_map]
    rfl
  rw [schemaToFieldInfos, fieldsEq, List.mapM_map]
  refine mapM_eq_ok_iff.mpr (each.imp ?_)
  rintro ⟨⟨field, type⟩, index⟩ ⟨name, dataType, format⟩
    ⟨⟨nameEq, -, formatEq⟩, mapped⟩
  simp only at nameEq formatEq mapped
  simp only [Function.comp_apply, mapped, nameEq, formatEq]
  rfl

/-- A `bytea` column is rejected before any row. -/
theorem schemaToFieldInfos_of_bytea {fields : Schema}
    {types : List SourceType}
    (introspected : List.Forall₂ IntrospectedAs fields types)
    (bytea : .bytea ∈ types) (resultFormat : Format) :
    schemaToFieldInfos fields resultFormat = .error unsupportedBinary := by
  rw [← errorOf_eq_some_iff, schemaToFieldInfos, errorOf_mapM]
  obtain ⟨field, fieldMem, isBytea⟩ :=
    exists_related_of_mem introspected.flip bytea
  obtain ⟨index, inFields, rfl⟩ := List.mem_iff_getElem.mp fieldMem
  have indexedMem : (fields[index], index) ∈ fields.zipIdx :=
    List.mk_mem_zipIdx_iff_getElem?.mpr (List.getElem?_eq_getElem inFields)
  have rejected := mapArrowType_of_introspected isBytea
  cases found : fields.zipIdx.findSome? fun column => errorOf (do
      let dataType ← mapArrowType column.1.dataType
      return (⟨column.1.name, dataType, resultFormat.formatFor column.2⟩ :
        FieldInfo)) with
  | none =>
      have accepted := List.findSome?_eq_none_iff.mp found _ indexedMem
      rw [rejected] at accepted
      cases accepted
  | some error =>
      obtain ⟨column, columnMem, isError⟩ :=
        List.exists_of_findSome?_eq_some found
      obtain ⟨type, -, introspectedAs⟩ := exists_related_of_mem introspected
        (List.fst_mem_of_mem_zipIdx columnMem)
      rw [mapArrowType_of_introspected introspectedAs] at isError
      cases isWire : type.wireType with
      | none =>
          rw [isWire] at isError
          exact isError.symm
      | some pgType =>
          rw [isWire] at isError
          cases isError

/-- The response to the batch of a scan is the transcoding of the rows that
the source sent. -/
theorem respond_scanBatch {provider : Provider}
    {query : String → Except String Answer} {projection : Option (List Nat)}
    {filters : List Pushdown.Expr} {limit : Option Nat} {fields : Schema}
    {types : List SourceType} {rows : Answer} {batch : RecordBatch}
    (sameDates : ∀ days, libraries.calendar.hasDate days = true →
      pgwire.dateInRange days = true)
    (projected : provider.projectedSchema projection = .ok fields)
    (nonempty : fields ≠ [])
    (answered : query (provider.scanSql fields filters limit) = .ok rows)
    (answers : AnswersFields fields types rows)
    (scanned : provider.scanBatch libraries query projection filters limit =
      .ok batch) (resultFormat : Format) :
    TranscodesTo libraries pgwire fields types rows resultFormat
      (batchesToResponseInFormat pgwire [batch] resultFormat) := by
  rw [scanBatch_eq_rowsBatch libraries projected nonempty answered] at scanned
  have holds := (rowsBatch_outcome libraries answers nonempty).1 batch |>.mp
    scanned
  have sameTypes : ∀ other ∈ [batch],
      other.schema.map Field.dataType = batch.schema.map Field.dataType := by
    simp
  rw [batchesToResponseInFormat_eq sameTypes, holds.schema_eq]
  unfold TranscodesTo
  split
  · rename_i bytea
    rw [schemaToFieldInfos_of_bytea answers.introspected bytea]
    rfl
  · rename_i noBytea
    obtain ⟨infos, isInfos, describes⟩ :=
      exists_schemaToFieldInfos answers.introspected noBytea resultFormat
    refine ⟨infos, describes, ?_⟩
    have rowsEq : (List.flatMap RecordBatch.rows [batch]).mapM
        (encodeRow pgwire infos) =
          rows.mapM (transcodeRow libraries pgwire infos) := by
      rw [List.flatMap_cons, List.flatMap_nil, List.append_nil]
      refine mapM_eq_of_forall₂ ?_
      have typed := (List.forall₂_and_left _ _).mpr
        ⟨answers.typed, holds.rows_eq⟩
      refine List.Forall₂.flip (typed.imp ?_)
      rintro cells values ⟨typesEq, decoded⟩
      refine encodeRow_eq_transcodeRow sameDates decoded ?_ infos
      intro cell cellMem isBytea
      rw [← typesEq, ← isBytea] at noBytea
      exact noBytea (List.mem_map_of_mem cellMem)
    rw [isInfos]
    change ((List.flatMap RecordBatch.rows [batch]).mapM
      (encodeRow pgwire infos) >>= fun dataRows =>
        pure (Response.query infos dataRows)) = _
    rw [rowsEq]
    cases rows.mapM (transcodeRow libraries pgwire infos) <;> rfl

end Responses

/-- The response to a scan of the first event. -/
theorem respond_scanBatch_firstEvent :
    ∃ batch, eventsProvider.scanBatch plainLibraries (eventQuery 1) none []
        none = .ok batch ∧
      TranscodesTo plainLibraries countPgwire eventFields eventTypes
        (eventRows.take 1) .unifiedText
        (batchesToResponseInFormat countPgwire [batch] .unifiedText) := by
  have projected : eventsProvider.projectedSchema none = .ok eventFields := rfl
  have nonempty : eventFields ≠ [] := List.cons_ne_nil _ _
  have answered : eventQuery 1 (eventsProvider.scanSql eventFields [] none) =
      .ok (eventRows.take 1) := rfl
  have answers : AnswersFields eventFields eventTypes (eventRows.take 1) :=
    answersFields_events fun _ => List.mem_of_mem_take
  have sameDates : ∀ days, plainLibraries.calendar.hasDate days = true →
      countPgwire.dateInRange days = true := fun _ _ => rfl
  have noError : firstError plainLibraries eventFields (eventRows.take 1) =
      none := by decide
  rcases rowsBatch_cases answers nonempty with
    ⟨batch, isBatch, -⟩ | ⟨error, -, isFirst⟩
  · have scanned : eventsProvider.scanBatch plainLibraries (eventQuery 1) none
        [] none = .ok batch := by
      rw [scanBatch_eq_rowsBatch plainLibraries projected nonempty answered,
        isBatch]
    exact ⟨batch, scanned, respond_scanBatch sameDates projected nonempty
      answered answers scanned .unifiedText⟩
  · rw [noError] at isFirst
    cases isFirst

end PostgresTable

end Igloo
