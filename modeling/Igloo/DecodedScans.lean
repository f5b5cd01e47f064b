import Igloo.ScanDecoding

/-!
# What a scan decodes

A scan of an introspected table chooses the Rust type of each column by the
Arrow type and the metadata of its field.  Stated against the types of the
source, each cell has a value or an error of its own: a scan returns the batch
of the values, and its only errors are those of the cells.
-/

namespace Igloo

namespace Arrow

def ScalarValue.isNull : ScalarValue → Bool
  | .boolean value => value.isNone
  | .int16 value => value.isNone
  | .int32 value => value.isNone
  | .int64 value => value.isNone
  | .float32 value => value.isNone
  | .float64 value => value.isNone
  | .utf8 value => value.isNone
  | .binary value => value.isNone
  | .date32 days => days.isNone
  | .timestampNanosecond nanos _ => nanos.isNone
  | _ => false

/-- The values of an array in order. -/
def ColumnArray.values (column : ColumnArray) : List ScalarValue :=
  (List.range column.length).map fun row => column.valueAt row

end Arrow

namespace PostgresTable

open Arrow Catalog RelatedResults
open Server.BoundValue (daysFrom1970 nanosFrom1970)

/-! ## Introspected fields -/

/-- The spellings of `data_type` that the catalog knows. -/
def standardNames : List String :=
  ["smallint", "integer", "bigint", "real", "double precision", "text",
    "character varying", "character", "boolean", "bytea", "date",
    "timestamp without time zone", "timestamp with time zone", "json",
    "jsonb", "uuid"]

/-- What `information_schema` has for a column of the type: its name, and its
standard name or a spelling of that which the catalog does not know. -/
structure Reports (type : SourceType) (column : ColumnInfo) : Prop where
  udtName_eq : asciiLowercase column.udtName = type.name
  dataType_eq : asciiLowercase column.dataType = type.standardName ∨
    asciiLowercase column.dataType ∉ standardNames

namespace SourceType

/-- The Arrow type of a column. -/
def arrowType : SourceType → DataType
  | int2 => .int16
  | int4 => .int32
  | int8 => .int64
  | float4 => .float32
  | float8 => .float64
  | text | varchar | bpchar | json | jsonb | uuid => .utf8
  | bool => .boolean
  | bytea => .binary
  | date => .date32
  | timestamp => .timestampNanosecond none
  | timestamptz => .timestampNanosecond (some "+00:00")

/-- The metadata of a column whose Arrow type is ambiguous. -/
def metadata : SourceType → Option String
  | json => some "json"
  | jsonb => some "jsonb"
  | uuid => some "uuid"
  | _ => none

end SourceType

/-- The field was introspected from a column of the type. -/
def IntrospectedAs (field : Field) (type : SourceType) : Prop :=
  ∃ column, Reports type column ∧ fieldOf column = some field

theorem pgTypeToArrow_of_reports {type : SourceType} {column : ColumnInfo}
    (reports : Reports type column) :
    pgTypeToArrow column.dataType column.udtName = some type.arrowType := by
  unfold pgTypeToArrow
  rcases reports with ⟨udtName, known | unknown⟩
  · rw [known, udtName]
    cases type <;> rfl
  · simp only [standardNames, List.mem_cons, List.not_mem_nil, or_false,
      not_or] at unknown
    rw [udtName]
    split <;> simp_all
    cases type <;> rfl

theorem ambiguousPgType_of_reports {type : SourceType} {column : ColumnInfo}
    (reports : Reports type column) :
    ambiguousPgType column.dataType column.udtName = type.metadata := by
  unfold ambiguousPgType
  rcases reports with ⟨udtName, known | unknown⟩
  · rw [known, udtName]
    cases type <;> decide
  · simp only [standardNames, List.mem_cons, List.not_mem_nil, or_false,
      not_or] at unknown
    have ambiguous : asciiLowercase column.dataType ∉
        ["uuid", "json", "jsonb"] := by
      simp [unknown]
    rw [if_neg ambiguous, udtName]
    cases type <;> decide

theorem IntrospectedAs.eq {field : Field} {type : SourceType}
    (introspected : IntrospectedAs field type) :
    field.dataType = type.arrowType ∧ field.pgType = type.metadata := by
  obtain ⟨column, reports, isField⟩ := introspected
  rw [fieldOf, pgTypeToArrow_of_reports reports,
    ambiguousPgType_of_reports reports] at isField
  cases isField
  exact ⟨rfl, rfl⟩

/-! ## The value of a cell -/

/-- Why a cell has no Arrow value: the connector cannot read it, or the decoder
cannot store it. -/
inductive CellError
  | unreadable (cause : String)
  | notStorable (message : String)
  deriving DecidableEq, Repr

/-- The error of a cell, as the scan raises it for its column. -/
def CellError.inColumn (colIdx : Nat) : CellError → ScanError
  | unreadable cause => .postgres colIdx cause
  | notStorable message => .execution message

section Decoding

variable (libraries : ScanLibraries)

/-- A moment stored in nanoseconds. -/
def storedMoment (display : Int → String) (micros : Int64) :
    Except CellError Int64 :=
  match momentOf libraries micros with
  | .error cause => .error (.unreadable cause)
  | .ok moment =>
      match Server.timestampNanosOpt moment with
      | some nanos => .ok nanos
      | none => .error (.notStorable ("timestamp " ++ display moment ++
          " is out of range for nanosecond precision"))

/-- A date stored in days. -/
def storedDay (days : Int32) : Except CellError Int32 :=
  match dayOf libraries days with
  | .error cause => .error (.unreadable cause)
  | .ok day => .ok (Int32.ofInt day)

/-- A document stored as compact text. -/
def storedDocument (document : String) : Except CellError String :=
  match libraries.parseJson document with
  | .error cause => .error (.unreadable cause)
  | .ok json => .ok (libraries.printJson json)

/-- A null is stored as a null. -/
def stored {Value Stored : Type} (store : Value → Except CellError Stored) :
    Option Value → Except CellError (Option Stored)
  | none => .ok none
  | some value => some <$> store value

/-- The Arrow value of a cell. -/
def SourceCell.decode : SourceCell → Except CellError ScalarValue
  | int2 value => .ok (.int16 value)
  | int4 value => .ok (.int32 value)
  | int8 value => .ok (.int64 value)
  | float4 value => .ok (.float32 value)
  | float8 value => .ok (.float64 value)
  | text value | varchar value | bpchar value => .ok (.utf8 value)
  | bool value => .ok (.boolean value)
  | bytea value => .ok (.binary value)
  | date days => .date32 <$> stored (storedDay libraries) days
  | timestamp micros =>
      (.timestampNanosecond · none) <$>
        stored (storedMoment libraries libraries.displayNaive) micros
  | timestamptz micros =>
      (.timestampNanosecond · (some "+00:00")) <$>
        stored (storedMoment libraries libraries.displayUtc) micros
  | json document | jsonb document =>
      .utf8 <$> stored (storedDocument libraries) document
  | uuid value => .ok (.utf8 (value.map Uuid.display))

/-- The value that a cell has in a column of a scan. -/
def decodeCell (colIdx : Nat) (row : List SourceCell) :
    ScanResult ScalarValue :=
  match row[colIdx]? with
  | some cell => (cell.decode libraries).mapError (CellError.inColumn colIdx)
  | none => .error (.postgres colIdx "invalid column")

/-- The batch holds the values of the rows over the fields. -/
structure HoldsValues (fields : Schema) (rows : Answer)
    (batch : RecordBatch) : Prop where
  schema_eq : batch.schema = fields
  rows_eq : List.Forall₂ (List.Forall₂ fun cell value =>
    SourceCell.decode libraries cell = .ok value) rows batch.rows

/-- The error of the first cell without a value, column by column. -/
def firstError (fields : Schema) (rows : Answer) : Option ScanError :=
  (List.range fields.length).findSome? fun colIdx =>
    rows.findSome? fun row => errorOf (decodeCell libraries colIdx row)

end Decoding

/-! ## One column -/

section Columns

variable {libraries : ScanLibraries}

/-- One cell read and converted as `build_array!` does. -/
def convertCell {Raw Value : Type} (read : FromSql Raw)
    (convert : Raw → ScanResult Value) (colIdx : Nat) (cell : SourceCell) :
    ScanResult (Option Value) := do
  match ← (read cell).mapError (.postgres colIdx) with
  | some value => some <$> convert value
  | none => return none

/-- The reader suits the cells of a type: it gives their values, of which the
arrays keep the part under `wrap`. -/
def Suits {Raw Value : Type} (libraries : ScanLibraries) (read : FromSql Raw)
    (convert : Raw → ScanResult Value) (wrap : Option Value → ScalarValue)
    (type : SourceType) : Prop :=
  ∀ cell colIdx, SourceCell.sourceType cell = type →
    Agree (fun value scalar => wrap value = scalar)
      (convertCell read convert colIdx cell)
      ((cell.decode libraries).mapError (CellError.inColumn colIdx))

/-- The column of every row is a cell of the type. -/
def ColumnOfType (type : SourceType) (colIdx : Nat) (rows : Answer) : Prop :=
  ∀ row ∈ rows, ∃ cell, row[colIdx]? = some cell ∧ cell.sourceType = type

/-- The array has the values. -/
structure ArrayOf (dataType : DataType) (scalars : List ScalarValue)
    (column : ColumnArray) : Prop where
  dataType_eq : column.dataType = dataType
  values_eq : column.values = scalars

theorem range_map_valueAt {Value : Type} (wrap : Option Value → ScalarValue)
    (values : List (Option Value)) :
    (List.range values.length).map (fun row => wrap values[row]?.join) =
      values.map wrap := by
  apply List.ext_getElem
  · simp
  · intro row inRange inValues
    simp only [List.length_map, List.length_range] at inRange
    simp [inRange]

theorem agree_buildArray {Raw Value : Type} {read : FromSql Raw}
    {convert : Raw → ScanResult Value} {wrap : Option Value → ScalarValue}
    {type : SourceType} (suits : Suits libraries read convert wrap type)
    {colIdx : Nat} {rows : Answer}
    (ofType : ColumnOfType type colIdx rows) :
    Agree (fun values scalars => values.map wrap = scalars)
      (buildArray read convert colIdx rows)
      (rows.mapM (decodeCell libraries colIdx)) := by
  have sameRows : List.Forall₂ (fun first second => first = second ∧
      first ∈ rows) rows rows := by
    rw [List.forall₂_same]
    exact fun row rowMem => ⟨rfl, rowMem⟩
  have loops : Agree
      (List.Forall₂ fun value scalar => wrap value = scalar)
      (buildArray read convert colIdx rows)
      (rows.mapM (decodeCell libraries colIdx)) := by
    refine agree_mapM ?_ sameRows
    rintro row _ ⟨rfl, rowMem⟩
    obtain ⟨cell, isCell, typeEq⟩ := ofType row rowMem
    simp only [tryGetAs, decodeCell, isCell]
    exact suits cell colIdx typeEq
  refine loops.mono fun values scalars each => ?_
  rw [← List.forall₂_eq_eq_eq]
  exact List.forall₂_map_left_iff.mpr each

theorem agree_array {Raw Value : Type}
    (toArray : List (Option Value) → ColumnArray) {read : FromSql Raw}
    {convert : Raw → ScanResult Value} {wrap : Option Value → ScalarValue}
    {type : SourceType} (suits : Suits libraries read convert wrap type)
    {dataType : DataType}
    (dataTypeEq : ∀ values, (toArray values).dataType = dataType)
    (valuesEq : ∀ values, (toArray values).values =
      (List.range values.length).map fun row => wrap values[row]?.join)
    {colIdx : Nat} {rows : Answer}
    (ofType : ColumnOfType type colIdx rows) :
    Agree (fun column scalars => ArrayOf dataType scalars column)
      (toArray <$> buildArray read convert colIdx rows)
      (rows.mapM (decodeCell libraries colIdx)) := by
  refine (agree_buildArray suits ofType).map_left ?_
  rintro values _ rfl
  exact ⟨dataTypeEq values, (valuesEq values).trans
    (range_map_valueAt wrap values)⟩

theorem suits_of_accepts {Value : Type} {rustName : String}
    {accepted : SourceCell → Option (Option Value)}
    {wrap : Option Value → ScalarValue} {type : SourceType}
    (accepts : ∀ cell, SourceCell.sourceType cell = type →
      ∃ value, accepted cell = some value ∧
        cell.decode libraries = .ok (wrap value)) :
    Suits libraries (fromSql rustName accepted) pure wrap type := by
  intro cell colIdx typeEq
  obtain ⟨value, isAccepted, decoded⟩ := accepts cell typeEq
  rw [decoded]
  cases value with
  | none =>
      simp only [convertCell, fromSql, isAccepted]
      exact .ok rfl
  | some value =>
      simp only [convertCell, fromSql, isAccepted]
      exact .ok rfl

theorem suits_int2 : Suits libraries asI16 pure .int16 .int2 := by
  refine suits_of_accepts fun cell typeEq => ?_
  cases cell <;> cases typeEq
  exact ⟨_, rfl, rfl⟩

theorem suits_int4 : Suits libraries asI32 pure .int32 .int4 := by
  refine suits_of_accepts fun cell typeEq => ?_
  cases cell <;> cases typeEq
  exact ⟨_, rfl, rfl⟩

theorem suits_int8 : Suits libraries asI64 pure .int64 .int8 := by
  refine suits_of_accepts fun cell typeEq => ?_
  cases cell <;> cases typeEq
  exact ⟨_, rfl, rfl⟩

theorem suits_float4 : Suits libraries asF32 pure .float32 .float4 := by
  refine suits_of_accepts fun cell typeEq => ?_
  cases cell <;> cases typeEq
  exact ⟨_, rfl, rfl⟩

theorem suits_float8 : Suits libraries asF64 pure .float64 .float8 := by
  refine suits_of_accepts fun cell typeEq => ?_
  cases cell <;> cases typeEq
  exact ⟨_, rfl, rfl⟩

theorem suits_bool : Suits libraries asBool pure .boolean .bool := by
  refine suits_of_accepts fun cell typeEq => ?_
  cases cell <;> cases typeEq
  exact ⟨_, rfl, rfl⟩

theorem suits_bytea : Suits libraries asBytes pure .binary .bytea := by
  refine suits_of_accepts fun cell typeEq => ?_
  cases cell <;> cases typeEq
  exact ⟨_, rfl, rfl⟩

theorem suits_string {type : SourceType}
    (isText : type = .text ∨ type = .varchar ∨ type = .bpchar) :
    Suits libraries asString pure .utf8 type := by
  refine suits_of_accepts fun cell typeEq => ?_
  rcases isText with rfl | rfl | rfl <;> cases cell <;> cases typeEq <;>
    exact ⟨_, rfl, rfl⟩

theorem suits_uuid :
    Suits libraries asUuid (fun value => pure value.display) .utf8 .uuid := by
  intro cell colIdx typeEq
  cases cell <;> cases typeEq
  rename_i value
  cases value <;> exact .ok rfl

/-- A reader that checks the value, and a conversion that can fail. -/
theorem suits_of_checked {Raw Checked Stored : Type}
    (store : Raw → Except CellError Stored) {rustName : String}
    {accepted : SourceCell → Option (Option Raw)}
    {check : Raw → Except String Checked}
    {convert : Checked → ScanResult Stored}
    {wrap : Option Stored → ScalarValue} {type : SourceType}
    (accepts : ∀ cell, SourceCell.sourceType cell = type →
      ∃ raw, accepted cell = some raw ∧
        cell.decode libraries = wrap <$> stored store raw)
    (stores : ∀ raw colIdx,
      ((check raw).mapError (.postgres colIdx) >>= convert) =
        (store raw).mapError (CellError.inColumn colIdx)) :
    Suits libraries (checkedFromSql (fromSql rustName accepted) check) convert
      wrap type := by
  intro cell colIdx typeEq
  obtain ⟨raw, isAccepted, decoded⟩ := accepts cell typeEq
  rw [decoded]
  cases raw with
  | none =>
      simp only [convertCell, checkedFromSql, fromSql, isAccepted]
      exact .ok rfl
  | some raw =>
      have isRead : checkedFromSql (fromSql rustName accepted) check cell =
          some <$> check raw := by
        simp only [checkedFromSql, fromSql, isAccepted]
        rfl
      have converted : convertCell
          (checkedFromSql (fromSql rustName accepted) check) convert colIdx
            cell =
          some <$> ((check raw).mapError (.postgres colIdx) >>= convert) := by
        rw [convertCell, isRead]
        cases check raw <;> rfl
      rw [converted, stores raw colIdx]
      change Agree _ _ ((wrap <$> some <$> store raw).mapError _)
      cases store raw with
      | error error => exact .error _
      | ok value => exact .ok rfl

theorem suits_json {type : SourceType} (isJson : type = .json ∨ type = .jsonb) :
    Suits libraries (asJson libraries)
      (fun value => pure (libraries.printJson value)) .utf8 type := by
  refine suits_of_checked (storedDocument libraries) ?_ ?_
  · intro cell typeEq
    rcases isJson with rfl | rfl <;> cases cell <;> cases typeEq <;>
      exact ⟨_, rfl, rfl⟩
  · intro document colIdx
    unfold storedDocument
    cases libraries.parseJson document <;> rfl

theorem bind_nanosOrError (display : Int → String) (micros : Int64)
    (colIdx : Nat) :
    ((momentOf libraries micros).mapError (.postgres colIdx) >>=
        nanosOrError display) =
      (storedMoment libraries display micros).mapError
        (CellError.inColumn colIdx) := by
  unfold storedMoment
  cases momentOf libraries micros with
  | error cause => rfl
  | ok moment =>
      change nanosOrError display moment = _
      unfold nanosOrError
      dsimp only
      cases Server.timestampNanosOpt moment <;> rfl

theorem suits_timestamptz :
    Suits libraries (asDateTimeUtc libraries)
      (nanosOrError libraries.displayUtc)
      (.timestampNanosecond · (some "+00:00")) .timestamptz := by
  refine suits_of_checked _ ?_ (bind_nanosOrError libraries.displayUtc)
  intro cell typeEq
  cases cell <;> cases typeEq
  exact ⟨_, rfl, rfl⟩

theorem suits_timestamp :
    Suits libraries (asNaiveDateTime libraries)
      (nanosOrError libraries.displayNaive)
      (.timestampNanosecond · none) .timestamp := by
  refine suits_of_checked _ ?_ (bind_nanosOrError libraries.displayNaive)
  intro cell typeEq
  cases cell <;> cases typeEq
  exact ⟨_, rfl, rfl⟩

theorem suits_date :
    Suits libraries (asNaiveDate libraries)
      (fun days => pure (Int32.ofInt days)) .date32 .date := by
  refine suits_of_checked (storedDay libraries) ?_ ?_
  · intro cell typeEq
    cases cell <;> cases typeEq
    exact ⟨_, rfl, rfl⟩
  · intro days colIdx
    unfold storedDay
    cases dayOf libraries days <;> rfl

theorem agree_buildColumn {field : Field} {type : SourceType}
    (introspected : IntrospectedAs field type) {colIdx : Nat} {rows : Answer}
    (ofType : ColumnOfType type colIdx rows) :
    Agree (fun column scalars => ArrayOf field.dataType scalars column)
      (buildColumn libraries field colIdx rows)
      (rows.mapM (decodeCell libraries colIdx)) := by
  obtain ⟨dataTypeEq, pgTypeEq⟩ := introspected.eq
  unfold buildColumn
  rw [dataTypeEq, pgTypeEq]
  cases type with
  | int2 =>
      exact agree_array .int16 suits_int2 (fun _ => rfl) (fun _ => rfl) ofType
  | int4 =>
      exact agree_array .int32 suits_int4 (fun _ => rfl) (fun _ => rfl) ofType
  | int8 =>
      exact agree_array .int64 suits_int8 (fun _ => rfl) (fun _ => rfl) ofType
  | float4 =>
      exact agree_array .float32 suits_float4
        (fun _ => rfl) (fun _ => rfl) ofType
  | float8 =>
      exact agree_array .float64 suits_float8
        (fun _ => rfl) (fun _ => rfl) ofType
  | text =>
      exact agree_array .utf8 (suits_string (.inl rfl))
        (fun _ => rfl) (fun _ => rfl) ofType
  | varchar =>
      exact agree_array .utf8 (suits_string (.inr (.inl rfl)))
        (fun _ => rfl) (fun _ => rfl) ofType
  | bpchar =>
      exact agree_array .utf8 (suits_string (.inr (.inr rfl)))
        (fun _ => rfl) (fun _ => rfl) ofType
  | bool =>
      exact agree_array .boolean suits_bool (fun _ => rfl) (fun _ => rfl) ofType
  | bytea =>
      exact agree_array .binary suits_bytea (fun _ => rfl) (fun _ => rfl) ofType
  | date =>
      exact agree_array .date32 suits_date (fun _ => rfl) (fun _ => rfl) ofType
  | timestamp =>
      exact agree_array (.timestampNanosecond none) suits_timestamp
        (fun _ => rfl) (fun _ => rfl) ofType
  | timestamptz =>
      exact agree_array (.timestampNanosecond (some "+00:00")) suits_timestamptz
        (fun _ => rfl) (fun _ => rfl) ofType
  | json =>
      exact agree_array .utf8 (suits_json (.inl rfl))
        (fun _ => rfl) (fun _ => rfl) ofType
  | jsonb =>
      exact agree_array .utf8 (suits_json (.inr rfl))
        (fun _ => rfl) (fun _ => rfl) ofType
  | uuid =>
      exact agree_array .utf8 suits_uuid (fun _ => rfl) (fun _ => rfl) ofType

end Columns

/-! ## The batch -/

/-- The rows answer for the fields, which were introspected from columns of the
types: their cells are of these types, and a field that is not nullable has no
null. -/
structure AnswersFields (fields : Schema) (types : List SourceType)
    (rows : Answer) : Prop where
  introspected : List.Forall₂ IntrospectedAs fields types
  typed : ∀ row ∈ rows, row.map SourceCell.sourceType = types
  notNull : ∀ row ∈ rows, List.Forall₂ (fun field cell =>
    SourceCell.isNull cell = true → field.nullable = true) fields row

section Batches

variable {libraries : ScanLibraries} {fields : Schema}
  {types : List SourceType} {rows : Answer}

theorem AnswersFields.columnOfType (answers : AnswersFields fields types rows)
    {colIdx : Nat} {type : SourceType} (isType : types[colIdx]? = some type) :
    ColumnOfType type colIdx rows := by
  intro row rowMem
  rw [← answers.typed row rowMem, List.getElem?_map, Option.map_eq_some_iff]
    at isType
  exact isType

theorem AnswersFields.exists_type (answers : AnswersFields fields types rows)
    {indexed : Field × Nat} (indexedMem : indexed ∈ fields.zipIdx) :
    ∃ type, IntrospectedAs indexed.1 type ∧
      ColumnOfType type indexed.2 rows := by
  have isField := List.mem_zipIdx_iff_getElem?.mp indexedMem
  obtain ⟨inFields, fieldEq⟩ := List.getElem?_eq_some_iff.mp isField
  have inTypes : indexed.2 < types.length :=
    answers.introspected.length_eq ▸ inFields
  have introspected := answers.introspected.get inFields inTypes
  rw [List.get_eq_getElem, fieldEq] at introspected
  exact ⟨_, introspected,
    answers.columnOfType (List.getElem?_eq_getElem inTypes)⟩

/-- Building the arrays fails with the error of the first cell without a
value. -/
theorem errorOf_columns (answers : AnswersFields fields types rows) :
    errorOf (fields.zipIdx.mapM fun indexed =>
        buildColumn libraries indexed.1 indexed.2 rows) =
      firstError libraries fields rows := by
  have sameColumns : List.Forall₂ (fun indexed colIdx =>
      indexed.2 = colIdx ∧ indexed ∈ fields.zipIdx) fields.zipIdx
        (List.range fields.length) := by
    rw [List.range_eq_range', ← List.zipIdx_map_snd 0 fields,
      List.forall₂_map_right_iff, List.forall₂_same]
    exact fun indexed indexedMem => ⟨rfl, indexedMem⟩
  have loops : Agree (List.Forall₂ fun _ _ => True)
      (fields.zipIdx.mapM fun indexed =>
        buildColumn libraries indexed.1 indexed.2 rows)
      ((List.range fields.length).mapM fun colIdx =>
        rows.mapM (decodeCell libraries colIdx)) := by
    refine agree_mapM ?_ sameColumns
    rintro indexed _ ⟨rfl, indexedMem⟩
    obtain ⟨type, introspected, ofType⟩ := answers.exists_type indexedMem
    exact (agree_buildColumn introspected ofType).mono fun _ _ _ => trivial
  rw [loops.errorOf_eq, errorOf_mapM]
  simp only [errorOf_mapM]
  rfl

theorem forall₂_columns (answers : AnswersFields fields types rows)
    {columns : List ColumnArray}
    (built : (fields.zipIdx.mapM fun indexed =>
      buildColumn libraries indexed.1 indexed.2 rows) = .ok columns) :
    List.Forall₂ (fun indexed column =>
      column.dataType = indexed.1.dataType ∧
        rows.mapM (decodeCell libraries indexed.2) = .ok column.values)
      fields.zipIdx columns := by
  have each := mapM_eq_ok_iff.mp built
  have ofTypes : ∀ indexed ∈ fields.zipIdx, _ := fun indexed =>
    answers.exists_type
  refine ((List.forall₂_and_left _ _).mpr ⟨ofTypes, each⟩).imp ?_
  rintro indexed column ⟨⟨type, introspected, ofType⟩, here⟩
  have agree : Agree
      (fun column scalars => ArrayOf indexed.1.dataType scalars column)
      (buildColumn libraries indexed.1 indexed.2 rows)
      (rows.mapM (decodeCell libraries indexed.2)) :=
    agree_buildColumn introspected ofType
  rw [here] at agree
  cases decoded : rows.mapM (decodeCell libraries indexed.2) with
  | error error =>
      rw [decoded] at agree
      cases agree
  | ok scalars =>
      rw [decoded] at agree
      cases agree with
      | ok isArray => exact ⟨isArray.dataType_eq, by rw [isArray.values_eq]⟩

theorem hasNull_eq (column : ColumnArray) :
    hasNull column = column.values.any ScalarValue.isNull := by
  have any_values : ∀ {Value : Type} (wrap : Option Value → ScalarValue)
      (values : List (Option Value)),
      (∀ value, (wrap value).isNull = value.isNone) →
        values.any Option.isNone =
          ((List.range values.length).map fun row =>
            wrap values[row]?.join).any ScalarValue.isNull := by
    intro Value wrap values isNull
    rw [range_map_valueAt, List.any_map]
    exact congrArg values.any (funext fun value => (isNull value).symm)
  cases column with
  | boolean values => exact any_values .boolean values fun _ => rfl
  | int16 values => exact any_values .int16 values fun _ => rfl
  | int32 values => exact any_values .int32 values fun _ => rfl
  | int64 values => exact any_values .int64 values fun _ => rfl
  | float32 values => exact any_values .float32 values fun _ => rfl
  | float64 values => exact any_values .float64 values fun _ => rfl
  | utf8 values => exact any_values .utf8 values fun _ => rfl
  | binary values => exact any_values .binary values fun _ => rfl
  | date32 values => exact any_values .date32 values fun _ => rfl
  | timestampNanosecond timezone values =>
      exact any_values (.timestampNanosecond · timezone) values fun _ => rfl
  | other debug length =>
      simp [hasNull, ColumnArray.values, ColumnArray.valueAt,
        ScalarValue.isNull]

theorem exists_of_stored {Value Stored : Type}
    {store : Value → Except CellError Stored} {source : Option Value}
    {kept : Option Stored} (isStored : stored store source = .ok kept) :
    source = none ∧ kept = none ∨
      ∃ value image, source = some value ∧ store value = .ok image ∧
        kept = some image := by
  cases source with
  | none =>
      cases isStored
      exact .inl ⟨rfl, rfl⟩
  | some value =>
      obtain ⟨image, isImage, rfl⟩ := map_eq_ok_iff.mp isStored
      exact .inr ⟨value, image, rfl, isImage, rfl⟩

theorem toInt_of_storedMoment {display : Int → String} {micros nanos : Int64}
    (isStored : storedMoment libraries display micros = .ok nanos) :
    nanos.toInt = nanosFrom1970 micros := by
  unfold storedMoment momentOf at isStored
  split at isStored
  · cases isStored
  · rename_i moment isMoment
    split at isMoment
    · cases isMoment
      split at isStored
      · rename_i stored fits
        cases isStored
        exact Server.toInt_of_timestampNanosOpt fits
      · cases isStored
    · cases isMoment

theorem toInt_of_storedDay {days day : Int32}
    (isStored : storedDay libraries days = .ok day) :
    libraries.calendar.hasDate (daysFrom1970 days) = true ∧
      day.toInt = daysFrom1970 days := by
  unfold storedDay dayOf at isStored
  split at isStored
  · cases isStored
  · rename_i found isFound
    split at isFound
    · rename_i inCalendar
      cases isFound
      cases isStored
      have bounds := libraries.calendar.hasDate_int32 _ inCalendar
      exact ⟨inCalendar,
        Int32.toInt_ofInt_of_le bounds.1 (Int.lt_add_one_of_le bounds.2)⟩
    · cases isFound

theorem isNull_of_decode {cell : SourceCell} {value : ScalarValue}
    (decoded : cell.decode libraries = .ok value) :
    value.isNull = cell.isNull := by
  have kept : ∀ {Value Stored : Type} (store : Value → Except CellError Stored)
      (wrap : Option Stored → ScalarValue) (source : Option Value),
      (∀ stored, (wrap stored).isNull = stored.isNone) →
      wrap <$> stored store source = .ok value →
        value.isNull = source.isNone := by
    intro Value Stored store wrap source isNull isStored
    obtain ⟨kept, isKept, rfl⟩ := map_eq_ok_iff.mp isStored
    rw [isNull]
    rcases exists_of_stored isKept with
      ⟨rfl, rfl⟩ | ⟨value, image, rfl, -, rfl⟩ <;> rfl
  cases cell with
  | date days => exact kept _ _ days (fun _ => rfl) decoded
  | timestamp micros => exact kept _ _ micros (fun _ => rfl) decoded
  | timestamptz micros => exact kept _ _ micros (fun _ => rfl) decoded
  | json document => exact kept _ _ document (fun _ => rfl) decoded
  | jsonb document => exact kept _ _ document (fun _ => rfl) decoded
  | uuid value => cases decoded; cases value <;> rfl
  | _ => cases decoded; rfl

theorem exists_of_decodeCell {colIdx : Nat} {row : List SourceCell}
    {value : ScalarValue}
    (decoded : decodeCell libraries colIdx row = .ok value) :
    ∃ cell, row[colIdx]? = some cell ∧ cell.decode libraries = .ok value := by
  unfold decodeCell at decoded
  split at decoded
  · rename_i cell isCell
    refine ⟨cell, isCell, ?_⟩
    cases here : cell.decode libraries with
    | error error =>
        rw [here] at decoded
        cases decoded
    | ok value =>
        rw [here] at decoded
        cases decoded
        rfl
  · cases decoded

/-- What the arrays of the fields are, place by place. -/
structure ArraysOf (libraries : ScanLibraries) (fields : Schema)
    (rows : Answer) (columns : List ColumnArray) : Prop where
  types_eq : columns.map ColumnArray.dataType = fields.map Field.dataType
  decoded : ∀ (colIdx : Nat) (inColumns : colIdx < columns.length),
    rows.mapM (decodeCell libraries colIdx) = .ok columns[colIdx].values

theorem arraysOf_of_built (answers : AnswersFields fields types rows)
    {columns : List ColumnArray}
    (built : (fields.zipIdx.mapM fun indexed =>
      buildColumn libraries indexed.1 indexed.2 rows) = .ok columns) :
    ArraysOf libraries fields rows columns := by
  have each := forall₂_columns answers built
  constructor
  · have types : List.Forall₂ Eq (columns.map ColumnArray.dataType)
        (fields.zipIdx.map fun indexed => indexed.1.dataType) := by
      rw [List.forall₂_map_left_iff, List.forall₂_map_right_iff]
      exact List.Forall₂.flip (each.imp fun _ _ here => here.1)
    rw [List.forall₂_eq_eq_eq] at types
    calc
      columns.map ColumnArray.dataType =
          (fields.zipIdx.map Prod.fst).map Field.dataType := by
        rw [types, List.map_map]
        rfl
      _ = fields.map Field.dataType := by rw [List.zipIdx_map_fst]
  · intro colIdx inColumns
    have inIndexed : colIdx < fields.zipIdx.length :=
      each.length_eq ▸ inColumns
    have here := (each.get inIndexed inColumns).2
    simpa using here

namespace ArraysOf

variable {columns : List ColumnArray}

theorem length_eq (arrays : ArraysOf libraries fields rows columns)
    {column : ColumnArray} (columnMem : column ∈ columns) :
    column.length = rows.length := by
  obtain ⟨colIdx, inColumns, rfl⟩ := List.mem_iff_getElem.mp columnMem
  have sameLength :=
    (mapM_eq_ok_iff.mp (arrays.decoded colIdx inColumns)).length_eq
  simpa [ColumnArray.values] using sameLength.symm

theorem decode_eq (arrays : ArraysOf libraries fields rows columns)
    {row colIdx : Nat} (inRows : row < rows.length)
    (inColumns : colIdx < columns.length) :
    ∃ cell, rows[row][colIdx]? = some cell ∧
      cell.decode libraries = .ok (columns[colIdx].valueAt row) := by
  have each := mapM_eq_ok_iff.mp (arrays.decoded colIdx inColumns)
  have inValues : row < columns[colIdx].values.length :=
    each.length_eq ▸ inRows
  have here := each.get inRows inValues
  apply exists_of_decodeCell
  simpa [ColumnArray.values] using here

theorem length_columns (arrays : ArraysOf libraries fields rows columns) :
    columns.length = fields.length := by
  simpa using congrArg List.length arrays.types_eq

theorem not_nullInColumn (arrays : ArraysOf libraries fields rows columns)
    (answers : AnswersFields fields types rows) :
    (columns.zip fields).find? (fun (column, field) =>
      !field.nullable && hasNull column) = none := by
  rw [List.find?_eq_none]
  rintro ⟨column, field⟩ entryMem
  obtain ⟨colIdx, inZip, entryEq⟩ := List.mem_iff_getElem.mp entryMem
  rw [List.getElem_zip, Prod.mk.injEq] at entryEq
  have inColumns : colIdx < columns.length := by simp at inZip; exact inZip.1
  have inFields : colIdx < fields.length := by simp at inZip; exact inZip.2
  obtain ⟨rfl, rfl⟩ := entryEq
  simp only [Bool.and_eq_true, Bool.not_eq_true', not_and]
  intro required
  rw [hasNull_eq, Bool.not_eq_true, List.any_eq_false]
  intro value valueMem
  obtain ⟨row, rowMem, rfl⟩ := List.mem_map.mp valueMem
  have inRows : row < rows.length := by
    rw [← arrays.length_eq (List.getElem_mem inColumns)]
    exact List.mem_range.mp rowMem
  obtain ⟨cell, isCell, decoded⟩ := arrays.decode_eq inRows inColumns
  obtain ⟨inRow, cellEq⟩ := List.getElem?_eq_some_iff.mp isCell
  have nullable := (answers.notNull _ (List.getElem_mem inRows)).get inFields
    inRow
  simp only [List.get_eq_getElem, cellEq, required, Bool.false_eq_true]
    at nullable
  rw [isNull_of_decode decoded]
  exact nullable

theorem forall₂_valueAt (arrays : ArraysOf libraries fields rows columns)
    (answers : AnswersFields fields types rows) {row : Nat}
    (inRows : row < rows.length) :
    List.Forall₂ (fun cell value =>
        SourceCell.decode libraries cell = .ok value) rows[row]
      (columns.map fun column => column.valueAt row) := by
  have width : rows[row].length = columns.length := by
    have typed := congrArg List.length
      (answers.typed _ (List.getElem_mem inRows))
    rw [List.length_map] at typed
    rw [typed, ← answers.introspected.length_eq, arrays.length_columns]
  apply List.forall₂_of_length_eq_of_get
  · rw [width, List.length_map]
  · intro colIdx inRow inValues
    obtain ⟨cell, isCell, decoded⟩ := arrays.decode_eq inRows
      (width ▸ inRow : colIdx < columns.length)
    rw [List.getElem?_eq_getElem inRow] at isCell
    cases isCell
    simpa using decoded

/-- The arrays are accepted as a batch, which holds the values of the rows. -/
theorem exists_batch (arrays : ArraysOf libraries fields rows columns)
    (answers : AnswersFields fields types rows) (nonempty : fields ≠ []) :
    ∃ batch, tryNewBatch fields columns none = .ok batch ∧
      HoldsValues libraries fields rows batch := by
  have lengths : ∀ column ∈ columns, column.length = rows.length :=
    fun column => arrays.length_eq
  have firstLength : columns.head?.map ColumnArray.length =
      some rows.length := by
    cases columns with
    | nil => exact absurd arrays.length_columns.symm (by simpa using nonempty)
    | cons column columns =>
        exact congrArg some (lengths column List.mem_cons_self)
  let batch : RecordBatch :=
    ⟨fields, columns, rows.length, arrays.types_eq, lengths⟩
  refine ⟨batch, ?_, rfl, ?_⟩
  · simp only [tryNewBatch, arrays.length_columns, ne_eq, not_true_eq_false,
      if_false, Option.none_or, firstLength, arrays.not_nullInColumn answers]
    rw [dif_pos lengths, dif_pos arrays.types_eq]
  · apply List.forall₂_of_length_eq_of_get
    · simp [RecordBatch.rows, batch]
    · intro row inRows inBatch
      simpa [RecordBatch.rows, RecordBatch.rowAt, batch] using
        arrays.forall₂_valueAt answers inRows

end ArraysOf

end Batches

/-! ## Scans -/

section Uniqueness

theorem columnArray_ext {first second : ColumnArray}
    (sameType : first.dataType = second.dataType)
    (sameValues : first.values = second.values) : first = second := by
  have unwrapped : ∀ {Value : Type} (wrap : Option Value → ScalarValue)
      {firsts seconds : List (Option Value)}, Function.Injective wrap →
      ((List.range firsts.length).map fun row => wrap firsts[row]?.join) =
        ((List.range seconds.length).map fun row => wrap seconds[row]?.join) →
      firsts = seconds := by
    intro Value wrap firsts seconds injective same
    rw [range_map_valueAt, range_map_valueAt] at same
    exact List.map_injective_iff.mpr injective same
  cases first with
  | boolean firsts =>
      cases second <;> cases sameType
      exact congrArg ColumnArray.boolean (unwrapped .boolean
        (fun _ _ => ScalarValue.boolean.inj) sameValues)
  | int16 firsts =>
      cases second <;> cases sameType
      exact congrArg ColumnArray.int16 (unwrapped .int16
        (fun _ _ => ScalarValue.int16.inj) sameValues)
  | int32 firsts =>
      cases second <;> cases sameType
      exact congrArg ColumnArray.int32 (unwrapped .int32
        (fun _ _ => ScalarValue.int32.inj) sameValues)
  | int64 firsts =>
      cases second <;> cases sameType
      exact congrArg ColumnArray.int64 (unwrapped .int64
        (fun _ _ => ScalarValue.int64.inj) sameValues)
  | float32 firsts =>
      cases second <;> cases sameType
      exact congrArg ColumnArray.float32 (unwrapped .float32
        (fun _ _ => ScalarValue.float32.inj) sameValues)
  | float64 firsts =>
      cases second <;> cases sameType
      exact congrArg ColumnArray.float64 (unwrapped .float64
        (fun _ _ => ScalarValue.float64.inj) sameValues)
  | utf8 firsts =>
      cases second <;> cases sameType
      exact congrArg ColumnArray.utf8 (unwrapped .utf8
        (fun _ _ => ScalarValue.utf8.inj) sameValues)
  | binary firsts =>
      cases second <;> cases sameType
      exact congrArg ColumnArray.binary (unwrapped .binary
        (fun _ _ => ScalarValue.binary.inj) sameValues)
  | date32 firsts =>
      cases second <;> cases sameType
      exact congrArg ColumnArray.date32 (unwrapped .date32
        (fun _ _ => ScalarValue.date32.inj) sameValues)
  | timestampNanosecond timezone firsts =>
      cases second <;> cases sameType
      exact congrArg (ColumnArray.timestampNanosecond timezone)
        (unwrapped (.timestampNanosecond · timezone)
          (fun _ _ same => (ScalarValue.timestampNanosecond.inj same).1)
          sameValues)
  | other debug length =>
      cases second <;> cases sameType
      have sameLength := congrArg List.length sameValues
      rw [ColumnArray.values, ColumnArray.values, List.length_map,
        List.length_map, List.length_range, List.length_range] at sameLength
      exact congrArg (ColumnArray.other debug) sameLength

theorem recordBatch_ext {first second : RecordBatch}
    (sameSchema : first.schema = second.schema)
    (sameRows : first.rows = second.rows) : first = second := by
  have sameNumRows : first.numRows = second.numRows := by
    simpa [RecordBatch.rows] using congrArg List.length sameRows
  have sameWidth : first.columns.length = second.columns.length := by
    have firstWidth := congrArg List.length first.types_eq
    have secondWidth := congrArg List.length second.types_eq
    rw [List.length_map, List.length_map] at firstWidth secondWidth
    rw [firstWidth, secondWidth, sameSchema]
  have sameColumns : first.columns = second.columns := by
    apply List.ext_getElem sameWidth
    intro colIdx inFirst inSecond
    apply columnArray_ext
    · have types : first.columns.map ColumnArray.dataType =
          second.columns.map ColumnArray.dataType := by
        rw [first.types_eq, second.types_eq, sameSchema]
      have here := congrArg (fun dataTypes => dataTypes[colIdx]?) types
      simpa [inFirst, inSecond] using here
    · have firstLength := first.lengths_eq _ (List.getElem_mem inFirst)
      have secondLength := second.lengths_eq _ (List.getElem_mem inSecond)
      rw [ColumnArray.values, ColumnArray.values, firstLength, secondLength,
        sameNumRows]
      apply List.map_congr_left
      intro row rowMem
      have inRange : row < (List.range second.numRows).length := by
        simpa using rowMem
      have rowsEq : first.rowAt row = second.rowAt row := by
        have here := List.getElem_of_eq sameRows (i := row)
          (by simpa [RecordBatch.rows, sameNumRows] using rowMem)
        simpa [RecordBatch.rows] using here
      simpa [RecordBatch.rowAt] using List.getElem_of_eq rowsEq (i := colIdx)
        (by simpa [RecordBatch.rowAt])
  cases first
  cases second
  cases sameSchema
  cases sameNumRows
  cases sameColumns
  rfl

end Uniqueness

theorem holdsValues_unique {libraries : ScanLibraries} {fields : Schema}
    {rows : Answer} {first second : RecordBatch}
    (holdsFirst : HoldsValues libraries fields rows first)
    (holdsSecond : HoldsValues libraries fields rows second) :
    first = second := by
  have sameValue : Relator.RightUnique fun cell value =>
      SourceCell.decode libraries cell = .ok value := by
    intro cell value other decoded otherDecoded
    exact Except.ok.inj (decoded.symm.trans otherDecoded)
  exact recordBatch_ext
    (holdsFirst.schema_eq.trans holdsSecond.schema_eq.symm)
    (sameValue.forall₂.forall₂ holdsFirst.rows_eq holdsSecond.rows_eq)

theorem firstError_of_holdsValues {libraries : ScanLibraries}
    {fields : Schema} {types : List SourceType} {rows : Answer}
    {batch : RecordBatch} (answers : AnswersFields fields types rows)
    (holds : HoldsValues libraries fields rows batch) :
    firstError libraries fields rows = none := by
  rw [firstError, List.findSome?_eq_none_iff]
  intro colIdx inFields
  rw [List.findSome?_eq_none_iff]
  intro row rowMem
  obtain ⟨index, inRows, rfl⟩ := List.mem_iff_getElem.mp rowMem
  have inBatch : index < batch.rows.length := holds.rows_eq.length_eq ▸ inRows
  have decoded := holds.rows_eq.get inRows inBatch
  have inRow : colIdx < rows[index].length := by
    have typed := congrArg List.length (answers.typed _ rowMem)
    rw [List.length_map, ← answers.introspected.length_eq] at typed
    rw [typed]
    exact List.mem_range.mp inFields
  have here := decoded.get inRow (decoded.length_eq ▸ inRow)
  simp only [List.get_eq_getElem] at here
  simp only [decodeCell, List.getElem?_eq_getElem inRow, here]
  rfl

/-- The rows become the batch of their values, unless a cell has none. -/
theorem rowsBatch_cases {libraries : ScanLibraries} {fields : Schema}
    {types : List SourceType} {rows : Answer}
    (answers : AnswersFields fields types rows) (nonempty : fields ≠ []) :
    (∃ batch, rowsBatch libraries fields rows = .ok batch ∧
        HoldsValues libraries fields rows batch) ∨
      ∃ error, rowsBatch libraries fields rows = .error error ∧
        firstError libraries fields rows = some error := by
  have built := @errorOf_columns libraries _ _ _ answers
  unfold rowsBatch
  cases isBuilt : fields.zipIdx.mapM fun indexed =>
      buildColumn libraries indexed.1 indexed.2 rows with
  | error error =>
      rw [isBuilt] at built
      exact .inr ⟨error, rfl, built.symm⟩
  | ok columns =>
      obtain ⟨batch, isBatch, holds⟩ :=
        (arraysOf_of_built answers isBuilt).exists_batch answers nonempty
      refine .inl ⟨batch, ?_, holds⟩
      change (tryNewBatch fields columns none).mapError ScanError.batch = _
      rw [isBatch]
      rfl

theorem rowsBatch_outcome (libraries : ScanLibraries) {fields : Schema}
    {types : List SourceType} {rows : Answer}
    (answers : AnswersFields fields types rows) (nonempty : fields ≠ []) :
    (∀ batch, rowsBatch libraries fields rows = .ok batch ↔
        HoldsValues libraries fields rows batch) ∧
      ∀ error, rowsBatch libraries fields rows = .error error ↔
        firstError libraries fields rows = some error := by
  rcases rowsBatch_cases answers nonempty with
    ⟨batch, isBatch, holds⟩ | ⟨failure, failed, isFirst⟩
  · rw [isBatch, firstError_of_holdsValues answers holds]
    constructor
    · intro other
      constructor
      · intro same
        cases same
        exact holds
      · intro holdsOther
        rw [holdsValues_unique holds holdsOther]
    · exact fun error => ⟨nofun, nofun⟩
  · rw [failed, isFirst]
    constructor
    · intro batch
      constructor
      · exact nofun
      · intro holds
        rw [firstError_of_holdsValues answers holds] at isFirst
        cases isFirst
    · intro error
      rw [Except.error.injEq, Option.some.injEq]

section Scans

variable {provider : Provider} {query : String → Except String Answer}
  {projection : Option (List Nat)} {filters : List Pushdown.Expr}
  {limit : Option Nat} {fields : Schema} {types : List SourceType}
  {rows : Answer}

/-- A scan with columns makes its batch of the rows of the answer. -/
theorem scanBatch_eq_rowsBatch (libraries : ScanLibraries)
    (projected : provider.projectedSchema projection = .ok fields)
    (nonempty : fields ≠ [])
    (answered : query (provider.scanSql fields filters limit) = .ok rows) :
    provider.scanBatch libraries query projection filters limit =
      rowsBatch libraries fields rows := by
  rw [Provider.scanBatch, projected]
  change ((query (provider.scanSql fields filters limit)).mapError
    ScanError.query >>= fun rows => if fields.isEmpty then
      countBatch fields rows else rowsBatch libraries fields rows) = _
  rw [answered]
  change (if fields.isEmpty then _ else _) = _
  rw [if_neg (by simpa using nonempty)]

/-- On an introspected table, a scan returns the batch of the values of the
rows, or fails with the error of the first cell that has no value. -/
theorem scanBatch_outcome (libraries : ScanLibraries)
    (projected : provider.projectedSchema projection = .ok fields)
    (nonempty : fields ≠ [])
    (answered : query (provider.scanSql fields filters limit) = .ok rows)
    (answers : AnswersFields fields types rows) :
    (∀ batch,
      provider.scanBatch libraries query projection filters limit = .ok batch ↔
        HoldsValues libraries fields rows batch) ∧
      ∀ error,
        provider.scanBatch libraries query projection filters limit =
            .error error ↔
          firstError libraries fields rows = some error := by
  rw [scanBatch_eq_rowsBatch libraries projected nonempty answered]
  exact rowsBatch_outcome libraries answers nonempty

end Scans

section Events

/-- A calendar of the years that a nanosecond count reaches. -/
def nanosecondCalendar : Server.Calendar where
  hasDate := fun days => -106752 ≤ days && days ≤ 106751
  hasDateTime := fun nanos =>
    Int64.minValue.toInt ≤ nanos && nanos ≤ Int64.maxValue.toInt
  hasDate_int32 := by
    intro days inRange
    simp only [Bool.and_eq_true, decide_eq_true_eq] at inRange
    have lower : Int32.minValue.toInt = -2147483648 := by decide
    have upper : Int32.maxValue.toInt = 2147483647 := by decide
    omega

/-- Libraries that keep every document as it is. -/
def plainLibraries : ScanLibraries where
  Json := String
  parseJson := .ok
  printJson := id
  calendar := nanosecondCalendar
  displayUtc := toString
  displayNaive := toString

def eventFields : Schema :=
  [⟨"id", .int32, false, none⟩,
    ⟨"at", .timestampNanosecond (some "+00:00"), true, none⟩,
    ⟨"document", .utf8, true, some "jsonb"⟩]

def eventsProvider : Provider :=
  ⟨"public", "events", eventFields, true⟩

/-- The second event lies at the end of time, which PostgreSQL can store. -/
def eventRows : Answer :=
  [[.int4 (some 1), .timestamptz (some 0), .jsonb (some "[]")],
    [.int4 (some 2), .timestamptz (some Int64.maxValue), .jsonb none]]

def eventTypes : List SourceType :=
  [.int4, .timestamptz, .jsonb]

theorem answersFields_events {rows : Answer}
    (within : ∀ row ∈ rows, row ∈ eventRows) :
    AnswersFields eventFields eventTypes rows where
  introspected :=
    .cons ⟨⟨"public", "events", "id", "integer", "int4", false⟩,
      ⟨by decide, .inl (by decide)⟩, by decide⟩
      (.cons ⟨⟨"public", "events", "at", "timestamp with time zone",
        "timestamptz", true⟩, ⟨by decide, .inl (by decide)⟩, by decide⟩
        (.cons ⟨⟨"public", "events", "document", "JSONB", "jsonb", true⟩,
          ⟨by decide, .inl (by decide)⟩, by decide⟩ .nil))
  typed := by
    intro row rowMem
    have eachTyped : ∀ row ∈ eventRows,
        row.map SourceCell.sourceType = eventTypes := by decide
    exact eachTyped row (within row rowMem)
  notNull := by
    intro row rowMem
    have isRow := within row rowMem
    simp only [eventRows, List.mem_cons, List.not_mem_nil, or_false] at isRow
    rcases isRow with rfl | rfl <;> simp [eventFields, SourceCell.isNull]

/-- The source answers every statement with the first of the events. -/
def eventQuery (count : Nat) (_ : String) : Except String Answer :=
  .ok (eventRows.take count)

/-- The scan of the first event holds its values, and the scan of both fails at
the moment of the second one. -/
theorem scanBatch_outcome_eventRows :
    (∃ batch, eventsProvider.scanBatch plainLibraries (eventQuery 1) none []
          none = .ok batch ∧
        HoldsValues plainLibraries eventFields (eventRows.take 1) batch) ∧
      ∃ error, eventsProvider.scanBatch plainLibraries (eventQuery 2) none []
          none = .error error ∧
        firstError plainLibraries eventFields eventRows = some error := by
  have projected : eventsProvider.projectedSchema none = .ok eventFields := rfl
  have outcome : ∀ count, _ := fun count =>
    scanBatch_outcome plainLibraries projected (List.cons_ne_nil _ _)
      (show eventQuery count (eventsProvider.scanSql eventFields [] none) =
        .ok (eventRows.take count) from rfl)
      (answersFields_events fun _ => List.mem_of_mem_take)
  obtain ⟨batch, scanned⟩ : ∃ batch, eventsProvider.scanBatch plainLibraries
      (eventQuery 1) none [] none = .ok batch := ⟨_, rfl⟩
  obtain ⟨error, isFirst⟩ : ∃ error,
      firstError plainLibraries eventFields eventRows = some error :=
    Option.isSome_iff_exists.mp (by decide)
  exact ⟨⟨batch, scanned, ((outcome 1).1 batch).mp scanned⟩,
    error, ((outcome 2).2 error).mpr isFirst, isFirst⟩

end Events

end PostgresTable

end Igloo
