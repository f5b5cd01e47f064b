import Igloo.ResponseEncoding
import Igloo.SharedCacheRuns

/-!
# Described statements and their results

A client of the extended protocol learns the columns of a result before it
executes the statement, and decodes the rows by what it learned.  The columns
are announced from the plan of the statement, before the engine has analyzed
it, while the rows may come from the shared cache, where a request with another
spelling has put them.  In every run the rows are those of the request's own
text, and they are sent under the announced fields exactly when the plan and
the first batch come to the same columns on the wire.
-/

namespace Igloo

namespace Server

open Arrow RelatedResults CacheLayer DataFusionEngine

variable {World DataFrame Batches : Type}

/-- `DescribeStatementResponse`. -/
structure DescribeStatementResponse where
  parameters : List PgType
  fields : List FieldInfo
  deriving DecidableEq, Repr

section Describe

variable (handler : IglooQueryHandler World DataFrame Batches) (world : World)

/-- `do_describe_statement`. -/
def doDescribeStatement (target : StoredStatement) :
    World × PgWireResult DescribeStatementResponse :=
  let (world, described) :=
    describeQuery handler.engine world target.statement
  (world, do
    let described ← described.mapError userError
    let fields ← schemaToFieldInfos described.schema .unifiedText
    let parameters :=
      describeParameters target.parameterTypes described.paramTypes
    return ⟨parameters, fields⟩)

/-- `do_describe_portal`. -/
def doDescribePortal (target : Portal) :
    World × PgWireResult (List FieldInfo) :=
  let (world, described) :=
    describeQuery handler.engine world target.statement.statement
  (world, do
    let described ← described.mapError userError
    schemaToFieldInfos described.schema target.resultColumnFormat)

end Describe

/-- What the endpoint makes of the columns: their names and wire types. -/
def wireColumns (schema : Schema) : List (String × PgWireResult PgType) :=
  schema.map fun field => (field.name, mapArrowType field.dataType)

/-- The field announced before a format is chosen. -/
def FieldInfo.inText (field : FieldInfo) : FieldInfo :=
  { field with format := .text }

section Fields

variable {schema other : Schema} {resultFormat : Format}
variable {fields : List FieldInfo}

theorem schemaToFieldInfos_congr
    (same : wireColumns schema = wireColumns other) :
    schemaToFieldInfos schema resultFormat =
      schemaToFieldInfos other resultFormat := by
  have byColumns : ∀ schema, schemaToFieldInfos schema resultFormat =
      (wireColumns schema).zipIdx.mapM fun (column, index) => do
        let dataType ← column.2
        return ⟨column.1, dataType, resultFormat.formatFor index⟩ := by
    intro schema
    rw [wireColumns, List.zipIdx_map, List.mapM_map]
    rfl
  rw [byColumns, byColumns, same]

theorem wireColumns_of_schemaToFieldInfos
    (described : schemaToFieldInfos schema resultFormat = .ok fields) :
    wireColumns schema =
      fields.map fun field => (field.name, .ok field.dataType) := by
  have each := mapM_eq_ok_iff.mp described
  rw [wireColumns, ← List.zipIdx_map_fst 0 schema, List.map_map,
    ← List.forall₂_eq_eq_eq, List.forall₂_map_left_iff,
    List.forall₂_map_right_iff]
  refine each.imp ?_
  rintro ⟨field, index⟩ info isInfo
  obtain ⟨dataType, mapped, infoEq⟩ := bind_eq_ok_iff.mp isInfo
  cases infoEq
  exact Prod.ext rfl mapped

/-- Only a schema with the same columns has the same fields. -/
theorem schemaToFieldInfos_eq_ok_iff
    (described : schemaToFieldInfos schema resultFormat = .ok fields) :
    schemaToFieldInfos other resultFormat = .ok fields ↔
      wireColumns other = wireColumns schema := by
  constructor
  · intro announced
    rw [wireColumns_of_schemaToFieldInfos announced,
      wireColumns_of_schemaToFieldInfos described]
  · intro same
    rw [schemaToFieldInfos_congr same, described]

theorem schemaToFieldInfos_unifiedText
    (described : schemaToFieldInfos schema resultFormat = .ok fields) :
    schemaToFieldInfos schema .unifiedText =
      .ok (fields.map FieldInfo.inText) := by
  have each := mapM_eq_ok_iff.mp described
  apply mapM_eq_ok_iff.mpr
  rw [List.forall₂_map_right_iff]
  refine each.imp ?_
  rintro ⟨field, index⟩ info isInfo
  obtain ⟨dataType, mapped, infoEq⟩ := bind_eq_ok_iff.mp isInfo
  cases infoEq
  exact bind_eq_ok_iff.mpr ⟨dataType, mapped, rfl⟩

theorem length_of_mem_rows {batch : RecordBatch} {row : List ScalarValue}
    (rowMem : row ∈ batch.rows) : row.length = batch.schema.length := by
  obtain ⟨index, -, rfl⟩ := List.mem_map.mp rowMem
  have sameLength := congrArg List.length batch.types_eq
  simpa [RecordBatch.rowAt] using sameLength

variable {pgwire : Pgwire} {batches : List RecordBatch} {rows : List DataRow}

theorem length_of_encodeRow {row : List ScalarValue} {dataRow : DataRow}
    (sameLength : fields.length = row.length)
    (encoded : encodeRow pgwire fields row = .ok dataRow) :
    dataRow.length = fields.length := by
  have each := mapM_eq_ok_iff.mp encoded
  rw [← each.length_eq, List.length_zip, ← sameLength, Nat.min_self]

theorem fields_of_batchesToResponseInFormat
    (sharedSchema : ∀ batch ∈ batches, ∀ other ∈ batches,
      batch.schema = other.schema)
    (responded : batchesToResponseInFormat pgwire batches resultFormat =
      .ok (.query fields rows)) :
    ∃ first rest, batches = first :: rest ∧
      schemaToFieldInfos first.schema resultFormat = .ok fields ∧
        ∀ row ∈ rows, row.length = fields.length := by
  cases batches with
  | nil => cases responded
  | cons first rest =>
      have sameSchema : ∀ batch ∈ first :: rest,
          batch.schema = first.schema :=
        fun batch batchMem =>
          sharedSchema batch batchMem first List.mem_cons_self
      rw [batchesToResponseInFormat_eq fun batch batchMem =>
        congrArg _ (sameSchema batch batchMem)] at responded
      obtain ⟨infos, described, responded⟩ := bind_eq_ok_iff.mp responded
      obtain ⟨dataRows, encoded, responseEq⟩ := bind_eq_ok_iff.mp responded
      cases responseEq
      refine ⟨first, rest, rfl, described, ?_⟩
      intro dataRow dataRowMem
      obtain ⟨row, rowMem, rowEncoded⟩ :=
        exists_related_of_mem (mapM_eq_ok_iff.mp encoded).flip dataRowMem
      obtain ⟨batch, batchMem, inBatch⟩ := List.mem_flatMap.mp rowMem
      have width := (supported_of_schemaToFieldInfos described).1
      apply length_of_encodeRow _ rowEncoded
      rw [width, length_of_mem_rows inBatch, sameSchema batch batchMem]

end Fields

namespace SharedCacheRuns

variable (handler : IglooQueryHandler Unit DataFrame Batches)

/-- Describing a request, as a portal or as a statement, announces the fields
exactly under the condition. -/
structure AnnouncedIff (request : Request) (fields : List FieldInfo)
    (condition : Prop) : Prop where
  portal : ∀ portal, request = .extended portal →
    ((doDescribePortal handler () portal).2 = .ok fields ↔ condition)
  statement : ∀ target : StoredStatement, target.statement = request.sql →
    ((doDescribeStatement handler () target).2.map
        DescribeStatementResponse.fields =
      .ok (fields.map FieldInfo.inText) ↔ condition)

variable {handler}

theorem exists_plan_of_query {sql : String} {batches : Batches}
    (answered : (query handler.engine () sql).2 = .ok batches) :
    ∃ dataFrame, handler.engine.sql () sql = ((), .ok dataFrame) ∧
      (handler.engine.collect () dataFrame).2 = .ok batches := by
  unfold query at answered
  rcases planned : handler.engine.sql () sql with ⟨world, message | dataFrame⟩
  · rw [planned] at answered
    cases answered
  · rw [planned] at answered
    refine ⟨dataFrame, rfl, ?_⟩
    cases collected : (handler.engine.collect world dataFrame).2 with
    | error message =>
        simp only [collected] at answered
        cases answered
    | ok found =>
        simp only [collected] at answered
        exact answered

theorem schema_of_describeQuery {sql : String} {dataFrame : DataFrame}
    (planned : handler.engine.sql () sql = ((), .ok dataFrame))
    {description : QueryDescription}
    (described : (describeQuery handler.engine () sql).2 = .ok description) :
    description.schema = handler.engine.schema dataFrame := by
  unfold describeQuery at described
  rw [planned] at described
  dsimp only at described
  cases named : handler.engine.parameterNames dataFrame with
  | error message =>
      rw [named] at described
      cases described
  | ok names =>
      cases typed : handler.engine.parameterTypes dataFrame with
      | error message =>
          rw [named, typed] at described
          cases described
      | ok types =>
          rw [named, typed] at described
          cases described
          rfl

/-- The plan of a text announces the fields of a result if it can be described
and comes to the same columns. -/
theorem announcedIff_of_plan {request : Request} {dataFrame : DataFrame}
    (planned : handler.engine.sql () request.sql = ((), .ok dataFrame))
    {schema : Schema} {fields : List FieldInfo}
    (isFields : schemaToFieldInfos schema request.format = .ok fields) :
    AnnouncedIff handler request fields
      ((∃ description, (describeQuery handler.engine () request.sql).2 =
          .ok description) ∧
        wireColumns (handler.engine.schema dataFrame) =
          wireColumns schema) := by
  constructor
  · rintro portal rfl
    change (Except.mapError userError (describeQuery handler.engine ()
      (Request.extended portal).sql).2 >>= fun described =>
        schemaToFieldInfos described.schema portal.resultColumnFormat) =
          .ok fields ↔ _
    cases described : (describeQuery handler.engine ()
        (Request.extended portal).sql).2 with
    | error message => exact ⟨nofun, fun ⟨⟨_, found⟩, _⟩ => nomatch found⟩
    | ok description =>
        have isSchema := schema_of_describeQuery planned described
        change schemaToFieldInfos description.schema
          (Request.extended portal).format = _ ↔ _
        rw [isSchema, schemaToFieldInfos_eq_ok_iff isFields]
        exact ⟨fun same => ⟨⟨description, rfl⟩, same⟩, And.right⟩
  · intro target sameText
    have inText := schemaToFieldInfos_unifiedText isFields
    simp only [doDescribeStatement, sameText]
    cases described : (describeQuery handler.engine () request.sql).2 with
    | error message => exact ⟨nofun, fun ⟨⟨_, found⟩, _⟩ => nomatch found⟩
    | ok description =>
        have isSchema := schema_of_describeQuery planned described
        change DescribeStatementResponse.fields <$>
          (schemaToFieldInfos description.schema .unifiedText >>= _) = _ ↔ _
        rw [isSchema, ← schemaToFieldInfos_eq_ok_iff inText, map_eq_ok_iff]
        constructor
        · rintro ⟨response, responded, fieldsEq⟩
          obtain ⟨infos, isInfos, responseEq⟩ := bind_eq_ok_iff.mp responded
          cases responseEq
          exact ⟨⟨description, rfl⟩, by rw [isInfos, ← fieldsEq]⟩
        · rintro ⟨-, announced⟩
          exact ⟨_, bind_eq_ok_iff.mpr ⟨_, announced, rfl⟩, rfl⟩

/-- The rows of a reply are the result of its request's own text, under the
fields of their first batch, and describing the request announces these fields
exactly if its plan can be described and has the columns of that batch. -/
theorem replied_announced_iff
    (interchangeable : ∀ first second,
      normalizeQuery handler.parseSql first =
          normalizeQuery handler.parseSql second →
        answer handler first [] = answer handler second [])
    (sharedSchema : ∀ dataFrame batches,
      (handler.engine.collect () dataFrame).2 = .ok batches →
        ∀ batch ∈ handler.recordBatches batches,
          ∀ other ∈ handler.recordBatches batches,
            batch.schema = other.schema)
    {maxEntries ttl : Nat} (maxEntries_pos : 0 < maxEntries)
    (ttl_pos : 0 < ttl) {actions : List (Action Batches)}
    {last : Shared Batches}
    (taken : LabelledRuns.run (step handler)
      (fresh Batches maxEntries ttl maxEntries_pos ttl_pos) actions =
        some last)
    {client : Nat} {request : Request} (noParams : request.parameterLen = 0)
    {reply : Reply Batches}
    (present : last.handlers client = some (request, .replied reply))
    {fields : List FieldInfo} {rows : List DataRow}
    (responded : reply.response = .ok (.query fields rows)) :
    ∃ dataFrame batches first rest,
      handler.engine.sql () request.sql = ((), .ok dataFrame) ∧
        (handler.engine.collect () dataFrame).2 = .ok batches ∧
        handler.recordBatches batches = first :: rest ∧
        batchesToResponseInFormat handler.pgwire (first :: rest)
          request.format = .ok (.query fields rows) ∧
        schemaToFieldInfos first.schema request.format = .ok fields ∧
        (∀ row ∈ rows, row.length = fields.length) ∧
        AnnouncedIff handler request fields
          ((∃ description, (describeQuery handler.engine () request.sql).2 =
              .ok description) ∧
            wireColumns (handler.engine.schema dataFrame) =
              wireColumns first.schema) := by
  have invariant : Invariant handler last :=
    LabelledRuns.invariant_of_run
      (fun _ _ _ holds stepped => invariant_step interchangeable holds stepped)
      (invariant_fresh handler maxEntries_pos ttl_pos) taken
  have sound : Sound handler request (.replied reply) :=
    invariant.handlers client _ present
  rcases sound with ⟨error, rfl⟩ | ⟨batches, isAnswer, rfl⟩
  · cases responded
  · have answered := answer_of_isAnswer noParams isAnswer
    rw [answer, queryWithParams_nil] at answered
    obtain ⟨dataFrame, planned, collected⟩ := exists_plan_of_query answered
    obtain ⟨first, rest, split, isFields, width⟩ :=
      fields_of_batchesToResponseInFormat
        (sharedSchema dataFrame batches collected) responded
    refine ⟨dataFrame, batches, first, rest, planned, collected, split, ?_,
      isFields, width, announcedIff_of_plan planned isFields⟩
    rw [← split]
    exact responded

/-- A union whose plan has the type of its first branch until it is analyzed. -/
private def unionText : String :=
  "SELECT 1 AS a UNION ALL SELECT 2.5"

private def unionBatch : RecordBatch where
  schema := [⟨"a", .float64, false, none⟩]
  columns := [.float64 [some ⟨0x3FF0000000000000⟩, some ⟨0x4004000000000000⟩]]
  numRows := 2
  types_eq := rfl
  lengths_eq := by simp [ColumnArray.length]

private def countBatch : RecordBatch where
  schema := [⟨"count", .int64, false, none⟩]
  columns := [.int64 [some 7]]
  numRows := 1
  types_eq := rfl
  lengths_eq := by simp [ColumnArray.length]

/-- An engine that plans every text but the union as one count. -/
private def countHandler : IglooQueryHandler Unit String String where
  engine := {
    sql := fun _ sql => ((), .ok (normalizeLexical sql))
    withParamValues := fun dataFrame _ => .ok dataFrame
    collect := fun _ dataFrame => ((), .ok dataFrame)
    schema := fun dataFrame =>
      if dataFrame = unionText then [⟨"a", .int64, false, none⟩]
      else [⟨"count", .int64, false, none⟩]
    parameterNames := fun _ => .ok []
    parameterTypes := fun _ => .ok [] }
  recordBatches := fun text =>
    [if text = unionText then unionBatch else countBatch]
  parseSql := fun _ => none
  pgwire := ⟨fun _ _ => .ok none, fun _ => true⟩
  libraries := bigEndianLibraries

/-- A portal that asks for binary columns. -/
private def binaryPortal (sql : String) : Portal where
  name := ""
  statement := ⟨"", sql, []⟩
  parameterFormat := .unifiedText
  parameters := []
  resultColumnFormat := ⟨fun _ => .binary⟩

private def countPortal : Portal :=
  binaryPortal "SELECT count(*) FROM t"

private def unionPortal : Portal :=
  binaryPortal unionText

/-- A simple query stores the count, a portal is answered with it, and another
portal asks for the union. -/
private def countThenUnion : List (Action String) :=
  [.arrive 0 (.simple "SELECT  count(*) FROM t;"),
    .arrive 1 (.extended countPortal), .arrive 2 (.extended unionPortal),
    .advance 0 0 .listed, .advance 0 0 .listed, .advance 0 5 .listed,
    .advance 1 7 .listed, .advance 2 8 .listed, .advance 2 8 .listed,
    .advance 2 9 .listed]

/-- The count is sent as announced; the union is announced as an integer and
sent as a float. -/
theorem replied_announced_iff_countThenUnion :
    ∃ (last : Shared String) (count union : Reply String)
      (countRows unionRows : List DataRow),
      last.handlers 1 = some (.extended countPortal, .replied count) ∧
        last.handlers 2 = some (.extended unionPortal, .replied union) ∧
        count.response =
          .ok (.query [⟨"count", .int8, .binary⟩] countRows) ∧
        union.response =
          .ok (.query [⟨"a", .float8, .binary⟩] unionRows) ∧
        (doDescribePortal countHandler () countPortal).2 =
          .ok [⟨"count", .int8, .binary⟩] ∧
        (doDescribePortal countHandler () unionPortal).2 ≠
          .ok [⟨"a", .float8, .binary⟩] := by
  have interchangeable : ∀ first second,
      normalizeQuery countHandler.parseSql first =
          normalizeQuery countHandler.parseSql second →
        answer countHandler first [] = answer countHandler second [] :=
    fun _ _ same => congrArg Except.ok same
  have sharedSchema : ∀ dataFrame batches,
      (countHandler.engine.collect () dataFrame).2 = .ok batches →
        ∀ batch ∈ countHandler.recordBatches batches,
          ∀ other ∈ countHandler.recordBatches batches,
            batch.schema = other.schema := by
    intro dataFrame batches _ batch batchMem other otherMem
    rw [List.mem_singleton.mp batchMem, List.mem_singleton.mp otherMem]
  have sixteen_pos : 0 < 16 := by decide
  have sixty_pos : 0 < 60 := by decide
  obtain ⟨last, taken, count, union, countPresent, unionPresent, countRows,
      unionRows, countResponded, unionResponded⟩ :
      ∃ last, LabelledRuns.run (step countHandler)
          (fresh String 16 60 sixteen_pos sixty_pos) countThenUnion =
            some last ∧
        ∃ count union,
          last.handlers 1 = some (.extended countPortal, .replied count) ∧
          last.handlers 2 = some (.extended unionPortal, .replied union) ∧
          ∃ countRows unionRows,
            count.response =
              .ok (.query [⟨"count", .int8, .binary⟩] countRows) ∧
            union.response =
              .ok (.query [⟨"a", .float8, .binary⟩] unionRows) :=
    ⟨_, rfl, _, _, rfl, rfl, _, _, rfl, rfl⟩
  refine ⟨last, count, union, countRows, unionRows, countPresent,
    unionPresent, countResponded, unionResponded, ?_, ?_⟩
  · obtain ⟨_, _, _, _, planned, collected, split, -, -, -, announced⟩ :=
      replied_announced_iff interchangeable sharedSchema sixteen_pos sixty_pos
        taken rfl countPresent countResponded
    cases planned
    cases collected
    cases split
    exact (announced.portal countPortal rfl).mpr ⟨⟨_, rfl⟩, by decide⟩
  · obtain ⟨_, _, _, _, planned, collected, split, -, -, -, announced⟩ :=
      replied_announced_iff interchangeable sharedSchema sixteen_pos sixty_pos
        taken rfl unionPresent unionResponded
    cases planned
    cases collected
    cases split
    intro described
    obtain ⟨-, same⟩ := (announced.portal unionPortal rfl).mp described
    exact absurd same (by decide)

end SharedCacheRuns

end Server

end Igloo
