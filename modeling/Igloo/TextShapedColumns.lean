import Igloo.Catalog
import Igloo.FilterSemantics
import Igloo.Uuid
import Mathlib.Data.List.DropRight

/-!
# Columns that are texts to the engine only

The catalog maps `uuid`, `json`, `jsonb` and `character(n)` columns to `Utf8`,
so that the engine compares their decoded text byte by byte, while PostgreSQL
compares 128-bit values, JSON values and texts without trailing blanks, and
rejects literals that are none.  A pushed equality test keeps every row that
the engine keeps in exactly the cases that are told here.
-/

namespace Igloo

namespace Pushdown

open Arrow Catalog RelatedResults SqlLexer SqlSyntax SqlSemantics

/-- JSON values: how PostgreSQL reads and compares them, and the compact text
the decoder makes of them, unless it fails. -/
structure JsonType (Json : Type) where
  read : String → Option Json
  same : Json → Json → Bool
  display : Json → Option String

/-- The types that the catalog maps to `Utf8` besides `text`. -/
inductive TextKind
  | uuid
  | json
  | jsonb
  | character
  deriving DecidableEq, Repr

namespace TextKind

/-- `data_type` in `information_schema.columns`. -/
def dataType : TextKind → String
  | uuid => "uuid"
  | json => "json"
  | jsonb => "jsonb"
  | character => "character"

/-- `udt_name` in `information_schema.columns`. -/
def udtName : TextKind → String
  | uuid => "uuid"
  | json => "json"
  | jsonb => "jsonb"
  | character => "bpchar"

end TextKind

/-- A stored value; a `character(n)` value is padded with blanks. -/
inductive Stored (Json : Type)
  | uuid (value : Uuid)
  | json (value : Json)
  | jsonb (value : Json)
  | character (text : String)
  deriving DecidableEq

def Stored.kind {Json : Type} : Stored Json → TextKind
  | uuid _ => .uuid
  | json _ => .json
  | jsonb _ => .jsonb
  | character _ => .character

/-- A text without its trailing blanks. -/
def withoutBlanks (text : String) : List Char :=
  text.toList.rdropWhile fun ch => ch = ' '

section Types

variable {Json : Type} (json : JsonType Json)

/-- `scan` decoding a value of a `Utf8` column by the type that the metadata
of the field tells. -/
def decodeText (pgType : Option String) : Stored Json → Option String
  | .uuid value =>
      if pgType = some "uuid" then some value.display else none
  | .json value | .jsonb value =>
      if pgType = some "json" ∨ pgType = some "jsonb" then json.display value
      else none
  | .character text =>
      if pgType ∈ [some "uuid", some "json", some "jsonb"] then none
      else some text

/-- The text that the engine compares. -/
def decoded : Stored Json → Option String
  | .uuid value => some value.display
  | .json value | .jsonb value => json.display value
  | .character text => some text

/-- Whether PostgreSQL takes two values of a type for equal. -/
def sameStored : Stored Json → Stored Json → Bool
  | .uuid left, .uuid right => left = right
  | .jsonb left, .jsonb right => json.same left right
  | .character left, .character right =>
      withoutBlanks left = withoutBlanks right
  | _, _ => false

/-- How PostgreSQL compares a column with literals.  There is no equality of
`json`, and only the outcome of equality tests is told. -/
def textColumnType (kind : TextKind) : ColumnType (Stored Json) where
  operand literal :=
    match kind, literal with
    | .uuid, .string text => (Uuid.read text).map .uuid
    | .jsonb, .string text => (json.read text).map .jsonb
    | .character, .string text => some (.character text)
    | _, _ => none
  order left right := if sameStored json left right then .eq else .lt

/-- The field of a column of one of the types. -/
structure IsTextField (kind : TextKind) (field : Field) : Prop where
  introspected : ∃ column, fieldOf column = some field ∧
    column.dataType = kind.dataType ∧ column.udtName = kind.udtName

theorem pgTypeToArrow_textKind (kind : TextKind) :
    pgTypeToArrow kind.dataType kind.udtName = some .utf8 := by
  cases kind <;> decide

theorem ambiguousPgType_textKind (kind : TextKind) :
    ambiguousPgType kind.dataType kind.udtName =
      if kind = .character then none else some kind.dataType := by
  cases kind <;> decide

/-- The catalog marks each column so that it is decoded as its own type. -/
theorem IsTextField.decodeText_eq {stored : Stored Json} {field : Field}
    (isText : IsTextField stored.kind field) :
    field.dataType = .utf8 ∧
      decodeText json field.pgType stored = decoded json stored := by
  obtain ⟨column, introspected, dataTypeEq, udtNameEq⟩ := isText.introspected
  rw [fieldOf, dataTypeEq, udtNameEq, pgTypeToArrow_textKind,
    ambiguousPgType_textKind] at introspected
  cases introspected
  cases stored <;> exact ⟨rfl, rfl⟩

end Types

/-- The operator of an equality test. -/
def equalityOperator (negated : Bool) : Operator :=
  if negated then .notEq else .eq

/-- A filter that tests a column for equality with strings. -/
inductive TestsEquality (name : String) : Expr → Bool → List String → Prop
  | compare {negated : Bool} {left right : Expr} {op : Operator}
      {value : ScalarValue} {text : String}
      (shape : Oriented left op right name (equalityOperator negated) value)
      (isString : stringValue value = some text) :
      TestsEquality name (.binaryExpr left op right) negated [text]
  | inList (negated : Bool) {values : List ScalarValue} {texts : List String}
      (areStrings : List.Forall₂
        (fun value text => stringValue value = some text) values texts) :
      TestsEquality name
        (.inList (.column name) (values.map .literal) negated) negated texts

section StringLiterals

variable {value : ScalarValue} {text : String}

theorem scalarDatum_of_stringValue (isString : stringValue value = some text) :
    scalarDatum value = some (some (.text text)) := by
  cases value <;> simp only [stringValue, reduceCtorEq] at isString <;>
    rw [isString] <;> rfl

theorem literalOf_of_stringValue (isString : stringValue value = some text) :
    literalOf value = some (.string text) := by
  cases value <;> simp only [stringValue, reduceCtorEq] at isString <;>
    rw [isString] <;> rfl

theorem literalSql_of_stringValue (isString : stringValue value = some text) :
    literalSql value = escapeStringLiteral text := by
  cases value <;> simp only [stringValue, reduceCtorEq] at isString <;>
    rw [isString] <;> rfl

theorem isSome_escapeStringLiteral :
    (escapeStringLiteral text).isSome ↔ '\x00' ∉ text.toList := by
  unfold escapeStringLiteral
  split <;> simp_all

end StringLiterals

/-! ## The engine -/

theorem holds_eq_datum (left right : Datum) :
    holds .eq (Datum.order left right) = decide (left = right) := by
  rw [Bool.eq_iff_iff]
  simp [holds, Datum.order_eq_iff]

/-- An equality test is a search in a list of one. -/
theorem test_eq_inListTruth (negated : Bool) (value : Option Datum)
    (datum : Datum) :
    Truth.test
        (fun left right =>
          holds (if negated then .ne else .eq) (Datum.order left right))
        value (some datum) =
      inListTruth negated value [some datum] := by
  cases value with
  | none => rfl
  | some value =>
      by_cases same : value = datum <;> cases negated <;>
        simp [Truth.test, inListTruth, holds_ne, holds_eq_datum, same]

theorem inListTruth_eq_true_iff {negated : Bool} {datum : Datum}
    {data : List Datum} :
    inListTruth negated (some datum) (data.map some) = .true ↔
      (datum ∈ data ↔ negated = false) := by
  by_cases member : datum ∈ data <;> cases negated <;>
    simp [inListTruth, member, Truth.ofBool]

namespace TestsEquality

variable {name : String} {filter : Expr} {negated : Bool}
variable {texts : List String}

theorem comparisonOfOperator_equalityOperator (negated : Bool) :
    comparisonOfOperator (equalityOperator negated) =
      some (if negated then .ne else .eq) := by
  cases negated <;> rfl

theorem mapM_operandValue {values : List ScalarValue}
    (areStrings : List.Forall₂
      (fun value text => stringValue value = some text) values texts)
    (row : Row Datum) :
    (values.map Expr.literal).mapM (operandValue row) =
      some ((texts.map Datum.text).map some) := by
  apply mapM_eq_some_iff.mpr
  simp only [List.forall₂_map_left_iff, List.forall₂_map_right_iff]
  exact areStrings.imp fun _ _ isString => scalarDatum_of_stringValue isString

theorem evalFilter_eq (tests : TestsEquality name filter negated texts)
    (other : Expr → Row Datum → Truth) (row : Row Datum) :
    evalFilter other row filter =
      inListTruth negated (row name)
        ((texts.map Datum.text).map some) := by
  cases tests with
  | compare shape isString =>
      rw [evalFilter_oriented shape
        (comparisonOfOperator_equalityOperator negated)
        (scalarDatum_of_stringValue isString)]
      exact test_eq_inListTruth negated (row name) _
  | inList _ areStrings =>
      simp only [evalFilter, operandValue, mapM_operandValue areStrings row]

theorem evalFilter_eq_true_iff (tests : TestsEquality name filter negated texts)
    (other : Expr → Row Datum → Truth) (text : String) :
    evalFilter other (onlyColumn name (.text text)) filter = .true ↔
      (text ∈ texts ↔ negated = false) := by
  rw [tests.evalFilter_eq, onlyColumn_self, inListTruth_eq_true_iff]
  simp

/-! ## PostgreSQL -/

theorem mapM_literalOf {values : List ScalarValue}
    (areStrings : List.Forall₂
      (fun value text => stringValue value = some text) values texts) :
    (values.map Expr.literal).mapM
        (fun item => (asLiteral item).bind literalOf) =
      some (texts.map Literal.string) := by
  apply mapM_eq_some_iff.mpr
  simp only [List.forall₂_map_left_iff, List.forall₂_map_right_iff]
  exact areStrings.imp fun _ _ isString => literalOf_of_stringValue isString

theorem inList_singleton {Value : Type} (type : ColumnType Value)
    (negated : Bool) (value : Option Value) (literal : Literal) :
    type.inList negated value [literal] =
      type.compare (if negated then .ne else .eq) value literal := by
  cases negated <;> simp only [ColumnType.inList, if_true, Bool.false_eq_true,
    if_false, List.map_cons, List.map_nil, Truth.all_cons, Truth.all_nil,
    Truth.any_cons, Truth.any_nil]
  · cases type.compare .eq value literal <;> rfl
  · cases type.compare .ne value literal <;> rfl

theorem conditionOf_eq (tests : TestsEquality name filter negated texts) :
    ∃ condition, conditionOf filter = some condition ∧
      ∀ {Value : Type} (type : ColumnType Value) (value : Value),
        (accepted (onlyColumn name type) condition ↔
          ∀ text ∈ texts, (type.operand (.string text)).isSome) ∧
        truth (onlyColumn name type) (onlyColumn name value) condition =
          type.inList negated (some value) (texts.map .string) := by
  cases tests with
  | compare shape isString =>
      refine ⟨_, conditionOf_of_oriented shape
        (comparisonOfOperator_equalityOperator negated)
        (literalOf_of_stringValue isString), ?_⟩
      intro Value type value
      refine ⟨?_, ?_⟩
      · simp [accepted, predicateAccepted]
      · simp [truth, predicateTruth, inList_singleton]
  | inList _ areStrings =>
      refine ⟨.predicate (.inList name negated (texts.map .string)), ?_, ?_⟩
      · simp [conditionOf, mapM_literalOf areStrings]
      · intro Value type value
        refine ⟨?_, ?_⟩
        · simp [accepted, predicateAccepted]
        · simp [truth, predicateTruth]

theorem forall_isSome_literalSql {values : List ScalarValue}
    (areStrings : List.Forall₂
      (fun value text => stringValue value = some text) values texts) :
    (∀ value ∈ values, (literalSql value).isSome) ↔
      ∀ text ∈ texts, '\x00' ∉ text.toList := by
  induction areStrings with
  | nil => simp
  | cons here later induction =>
      rw [List.forall_mem_cons, List.forall_mem_cons, induction,
        ← isSome_escapeStringLiteral, ← literalSql_of_stringValue here]

theorem isSome_translateFilter (tests : TestsEquality name filter negated texts)
    {schema : Schema} (known : ∃ field ∈ schema, field.name = name) :
    (translateFilter schema filter).isSome ↔
      texts ≠ [] ∧ ∀ text ∈ texts, '\x00' ∉ text.toList := by
  cases tests with
  | compare shape isString =>
      rw [isSome_translateFilter_of_oriented shape
        (comparisonOfOperator_equalityOperator negated) known,
        literalSql_of_stringValue isString, isSome_escapeStringLiteral]
      simp
  | inList _ areStrings =>
      rw [isSome_translateFilter_inList known,
        forall_isSome_literalSql areStrings]
      refine and_congr_left fun _ => not_congr ?_
      rw [← List.length_eq_zero_iff, ← List.length_eq_zero_iff,
        areStrings.length_eq]

end TestsEquality

/-! ## Agreement -/

section Agreement

variable {Json : Type} (json : JsonType Json)

/-- The engine decodes the value and finds the filter true. -/
def EngineKeeps (field : Field) (stored : Stored Json)
    (other : Expr → Row Datum → Truth) (filter : Expr) : Prop :=
  ∃ text, decodeText json field.pgType stored = some text ∧
    evalFilter other (onlyColumn field.name (.text text)) filter = .true

/-- PostgreSQL accepts the text of a condition and finds it true. -/
def SourceKeeps (name : String) (stored : Stored Json) (sql : String) :
    Prop :=
  ∃ condition, parseCondition sql = some condition ∧
    accepted (onlyColumn name (textColumnType json stored.kind)) condition ∧
    truth (onlyColumn name (textColumnType json stored.kind))
      (onlyColumn name stored) condition = .true

/-- The source returns a row that the engine would keep. -/
def LosesNothing (schema : Schema) (field : Field) (stored : Stored Json)
    (other : Expr → Row Datum → Truth) (filter : Expr) : Prop :=
  EngineKeeps json field stored other filter →
    ∀ sql, translateFilter schema filter = some sql →
      SourceKeeps json field.name stored sql

/-- The literals denote values of the column's type, and equal values have
equal texts as far as the test can tell. -/
def LiteralsFit (negated : Bool) (texts : List String) : Stored Json → Prop
  | .uuid value =>
      (∀ text ∈ texts, (Uuid.read text).isSome) ∧
        (negated = true → ∀ text ∈ texts, Uuid.read text ≠ some value)
  | .json _ => False
  | .jsonb value =>
      (∀ text ∈ texts, (json.read text).isSome) ∧
        ((∃ text ∈ texts, ∃ read, json.read text = some read ∧
          json.same value read) ↔ negated = false)
  | .character stored =>
      negated = true → ∀ text ∈ texts,
        withoutBlanks text ≠ withoutBlanks stored

variable {name : String} {filter : Expr} {negated : Bool}
variable {texts : List String} {stored : Stored Json}

/-- What the test asks of the source: every literal is accepted, and one of
them is the stored value unless the test is negated. -/
def SourceFinds (negated : Bool) (texts : List String)
    (stored : Stored Json) : Prop :=
  (∀ text ∈ texts,
    ((textColumnType json stored.kind).operand (.string text)).isSome) ∧
  ((∃ text ∈ texts, ∃ operand,
    (textColumnType json stored.kind).operand (.string text) = some operand ∧
      sameStored json stored operand) ↔ negated = false)

theorem sourceKeeps_iff (tests : TestsEquality name filter negated texts)
    {schema : Schema} (valid : ∀ field ∈ schema, ValidName field.name)
    {sql : String} (translated : translateFilter schema filter = some sql) :
    SourceKeeps json name stored sql ↔
      SourceFinds json negated texts stored := by
  obtain ⟨condition, conditionEq, tokens, spells, reads⟩ :=
    rendersCondition_of_translateFilter valid translated
  have parsed : parseCondition sql = some condition :=
    parseCondition_of_lex reads.lex spells
  obtain ⟨_, sameEq, agree⟩ := tests.conditionOf_eq
  obtain rfl := Option.some.inj (conditionEq.symm.trans sameEq)
  obtain ⟨acceptedIff, truthEq⟩ :=
    agree (textColumnType json stored.kind) stored
  have orderIff (operand : Stored Json) :
      (textColumnType json stored.kind).order stored operand = .eq ↔
        sameStored json stored operand := by
    simp [textColumnType]
  simp only [SourceKeeps, parsed, Option.some.injEq, exists_eq_left',
    acceptedIff, truthEq]
  refine and_congr_right fun acceptedAll => ?_
  rw [inList_eq_true_iff (List.forall_mem_map.mpr acceptedAll)]
  simp only [List.mem_map, exists_exists_and_eq_and, orderIff]

theorem engineKeeps_iff {field : Field}
    (isText : IsTextField stored.kind field)
    (tests : TestsEquality field.name filter negated texts)
    (other : Expr → Row Datum → Truth) :
    EngineKeeps json field stored other filter ↔
      ∃ text, decoded json stored = some text ∧
        (text ∈ texts ↔ negated = false) := by
  simp only [EngineKeeps, (isText.decodeText_eq json).2,
    tests.evalFilter_eq_true_iff]

/-- When the engine keeps the value, fitting literals are what it takes. -/
theorem literalsFit_iff {text : String}
    (decodedEq : decoded json stored = some text)
    (kept : text ∈ texts ↔ negated = false) (nonempty : texts ≠ []) :
    LiteralsFit json negated texts stored ↔
      SourceFinds json negated texts stored := by
  cases stored with
  | uuid value =>
      cases decodedEq
      have sameIff : (∃ text ∈ texts, ∃ operand,
            (Uuid.read text).map Stored.uuid = some operand ∧
              sameStored json (.uuid value) operand) ↔
          ∃ text ∈ texts, Uuid.read text = some value := by
        simp [sameStored, Option.map_eq_some_iff]
      simp only [LiteralsFit, SourceFinds, textColumnType, Stored.kind,
        Option.isSome_map, sameIff]
      refine and_congr_right fun _ => ?_
      cases negated with
      | false =>
          have found : ∃ text ∈ texts, Uuid.read text = some value :=
            ⟨_, kept.mpr rfl, Uuid.read_display value⟩
          simp [found]
      | true => simp
  | json value =>
      obtain ⟨first, firstMem⟩ := List.exists_mem_of_ne_nil texts nonempty
      refine iff_of_false id fun finds => ?_
      exact Bool.false_ne_true (finds.1 first firstMem)
  | jsonb value =>
      simp [LiteralsFit, SourceFinds, textColumnType, Stored.kind, sameStored,
        Option.map_eq_some_iff]
  | character padded =>
      obtain rfl : padded = text := Option.some.inj decodedEq
      have sameIff : (∃ text ∈ texts, ∃ operand,
            some (Stored.character text) = some operand ∧
              sameStored json (.character padded) operand) ↔
          ∃ text ∈ texts, withoutBlanks text = withoutBlanks padded := by
        simp only [Option.some.injEq, exists_eq_left', sameStored,
          decide_eq_true_eq]
        exact exists_congr fun _ => and_congr_right fun _ => eq_comm
      simp only [LiteralsFit, SourceFinds, textColumnType, Stored.kind,
        Option.isSome_some, implies_true, true_and, sameIff]
      cases negated with
      | false =>
          have found : ∃ text ∈ texts,
              withoutBlanks text = withoutBlanks padded :=
            ⟨_, kept.mpr rfl, rfl⟩
          simp [found]
      | true => simp

/-- A pushed equality test loses no row exactly when it is not pushed after
all, the engine does not keep the row, or the literals fit the column. -/
theorem losesNothing_iff {schema : Schema}
    (valid : ∀ field ∈ schema, ValidName field.name) {field : Field}
    (fieldMem : field ∈ schema) (isText : IsTextField stored.kind field)
    (tests : TestsEquality field.name filter negated texts)
    (other : Expr → Row Datum → Truth) :
    LosesNothing json schema field stored other filter ↔
      texts = [] ∨ (∃ text ∈ texts, '\x00' ∈ text.toList) ∨
        (∀ text, decoded json stored = some text →
          (text ∈ texts ↔ negated = true)) ∨
        LiteralsFit json negated texts stored := by
  have pushedIff := tests.isSome_translateFilter ⟨field, fieldMem, rfl⟩
  have keepsIff := engineKeeps_iff json isText tests other
  by_cases pushed : (translateFilter schema filter).isSome
  · obtain ⟨nonempty, noNul⟩ := pushedIff.mp pushed
    obtain ⟨sql, translated⟩ := Option.isSome_iff_exists.mp pushed
    by_cases kept : EngineKeeps json field stored other filter
    · obtain ⟨text, decodedEq, search⟩ := keepsIff.mp kept
      have keeps : LosesNothing json schema field stored other filter ↔
          LiteralsFit json negated texts stored := by
        rw [literalsFit_iff json decodedEq search nonempty,
          ← sourceKeeps_iff json tests valid translated]
        refine ⟨fun loses => loses kept sql translated, ?_⟩
        rintro sourceKeeps - _ same
        obtain rfl := Option.some.inj (translated.symm.trans same)
        exact sourceKeeps
      have noneHidden : ¬ ∃ text ∈ texts, '\x00' ∈ text.toList := by
        simpa using noNul
      have notDropped : ¬ ∀ text, decoded json stored = some text →
          (text ∈ texts ↔ negated = true) := by
        intro dropped
        have := (dropped text decodedEq).symm.trans search
        simp at this
      rw [keeps]
      simp only [nonempty, noneHidden, notDropped, false_or]
    · refine iff_of_true (fun keeps => absurd keeps kept)
        (Or.inr (Or.inr (Or.inl ?_)))
      intro text decodedEq
      have search := mt keepsIff.mpr kept
      have differs : ¬ (text ∈ texts ↔ negated = false) :=
        fun same => search ⟨text, decodedEq, same⟩
      rw [← Bool.not_eq_true] at differs
      tauto
  · refine iff_of_true ?_ ?_
    · intro _ sql translated
      rw [translated] at pushed
      exact absurd rfl pushed
    · have hidden := mt pushedIff.mpr pushed
      by_cases empty : texts = []
      · exact Or.inl empty
      · refine Or.inr (Or.inl ?_)
        simpa [empty] using hidden

end Agreement

/-- JSON truth values and nulls. -/
def truthValues : JsonType (Option Bool) where
  read
    | "null" => some none
    | "true" => some (some true)
    | "false" => some (some false)
    | _ => none
  same left right := left = right
  display
    | none => some "null"
    | some true => some "true"
    | some false => some "false"

/-- A `character(5)` column. -/
def codeField : Field :=
  ⟨"code", .utf8, true, none⟩

/-- `code <> 'ab'`. -/
def codeFilter : Expr :=
  .binaryExpr (.column "code") .notEq (.literal (.utf8 (some "ab")))

theorem isTextField_codeField : IsTextField .character codeField :=
  ⟨⟨"public", "parts", "code", "character", "bpchar", true⟩,
    by decide, rfl, rfl⟩

theorem testsEquality_codeFilter :
    TestsEquality codeField.name codeFilter true ["ab"] :=
  .compare ⟨Or.inl ⟨rfl, rfl, rfl⟩, rfl⟩ rfl

/-- The engine keeps the padded text, PostgreSQL compares without blanks. -/
theorem not_losesNothing_padded :
    ¬ LosesNothing truthValues [codeField] codeField (.character "ab   ")
      (fun _ _ => .null) codeFilter := by
  intro keeps
  obtain ⟨condition, parsed, -, isTrue⟩ :=
    keeps ⟨"ab   ", rfl, by decide⟩ "\"code\" <> 'ab'" (by decide)
  have read : parseCondition "\"code\" <> 'ab'" =
      some (.predicate (.compare "code" .ne (.string "ab"))) := by
    decide
  obtain rfl := Option.some.inj (read.symm.trans parsed)
  exact absurd isTrue (by decide)

theorem losesNothing_iff_padded :
    LosesNothing truthValues [codeField] codeField (.character "ab   ")
        (fun _ _ => .null) codeFilter ↔
      ["ab"] = [] ∨ (∃ text ∈ ["ab"], '\x00' ∈ text.toList) ∨
        (∀ text, decoded truthValues (.character "ab   ") = some text →
          (text ∈ ["ab"] ↔ true = true)) ∨
        LiteralsFit truthValues true ["ab"] (.character "ab   ") :=
  losesNothing_iff truthValues (by decide)
    (List.mem_singleton.mpr rfl : codeField ∈ [codeField])
    (show IsTextField (Stored.character "ab   ").kind codeField from
      isTextField_codeField)
    testsEquality_codeFilter _

end Pushdown

end Igloo
