import Igloo.Catalog
import Igloo.FilterSemantics
import Igloo.FloatOrder

/-!
# Pushed filters on floats

The engine compares floats by IEEE `totalOrder`, PostgreSQL by number, with
one zero and with NaN above all numbers.  A pushed filter keeps every row that
the engine keeps, except where a zero meets the zero of the other sign and
where a column holds a negative NaN.
-/

namespace Igloo

namespace Pushdown

namespace FloatColumns

open Arrow Catalog RelatedResults SqlLexer SqlSyntax SqlSemantics

/-- The types that the catalog maps to floats. -/
inductive FloatKind
  | real
  | doublePrecision
  deriving DecidableEq, Repr

namespace FloatKind

/-- `data_type` in `information_schema.columns`. -/
def dataType : FloatKind → String
  | real => "real"
  | doublePrecision => "double precision"

/-- `udt_name` in `information_schema.columns`. -/
def udtName : FloatKind → String
  | real => "float4"
  | doublePrecision => "float8"

end FloatKind

/-- The value of a `real` or `double precision` column. -/
inductive FloatDatum
  | single (value : F32)
  | double (value : F64)
  deriving DecidableEq, Repr

namespace FloatDatum

def kind : FloatDatum → FloatKind
  | single _ => .real
  | double _ => .doublePrecision

/-- The value as a `double precision`. -/
def widen : FloatDatum → F64
  | single value => value.toF64
  | double value => value

/-- The order the engine compares by, in the width of the column. -/
def totalCmp : FloatDatum → FloatDatum → Ordering
  | single left, single right => F32.totalCmp left right
  | left, right => F64.totalCmp left.widen right.widen

theorem totalCmp_eq (left right : FloatDatum) :
    totalCmp left right = F64.totalCmp left.widen right.widen := by
  cases left with
  | single left =>
      cases right with
      | single right => exact (F32.totalCmp_toF64 left right).symm
      | double right => rfl
  | double left => rfl

end FloatDatum

theorem FloatDatum.totalCmp_swap (left right : FloatDatum) :
    (totalCmp left right).swap = totalCmp right left := by
  rw [totalCmp_eq, totalCmp_eq]
  exact Std.OrientedOrd.eq_swap.symm

/-! ## The engine -/

/-- `scan` decoding a value of a `Float32` or `Float64` column. -/
def decodeFloat (dataType : DataType) : Option FloatDatum →
    Option (Option FloatDatum)
  | none => some none
  | some (.single value) =>
      if dataType = .float32 then some (some (.single value)) else none
  | some (.double value) =>
      if dataType = .float64 then some (some (.double value)) else none

/-- The value of a float scalar. -/
def floatScalar : ScalarValue → Option (Option FloatDatum)
  | .float32 value => some (value.map .single)
  | .float64 value => some (value.map .double)
  | _ => none

/-- The value of a column or a literal on a row. -/
def floatOperand (row : Row FloatDatum) : Expr → Option (Option FloatDatum)
  | .column name => some (row name)
  | .literal value => floatScalar value
  | _ => none

/-- `IN` as the engine evaluates it: a match decides, then a null does. -/
def inFloats (negated : Bool) (value : Option FloatDatum)
    (list : List (Option FloatDatum)) : Truth :=
  match value with
  | none => .null
  | some value =>
      if list.any fun item =>
          item.any fun other => FloatDatum.totalCmp value other == .eq then
        Truth.ofBool (!negated)
      else if none ∈ list then .null
      else Truth.ofBool negated

/-- The engine's evaluation of comparisons and lists. -/
def evalFloatTest (row : Row FloatDatum) : Expr → Option Truth
  | .binaryExpr left op right => do
      let comparison ← comparisonOfOperator op
      let left ← floatOperand row left
      let right ← floatOperand row right
      return Truth.test
        (fun left right => holds comparison (FloatDatum.totalCmp left right))
        left right
  | .inList expr list negated => do
      let value ← floatOperand row expr
      let values ← list.mapM (floatOperand row)
      return inFloats negated value values
  | _ => none

/-! ## PostgreSQL -/

/-- How PostgreSQL compares a float column with literals, whose numbers
`read` tells. -/
def floatColumnType (read : Literal → Option F64) : ColumnType F64 :=
  ⟨read, F64.numericCmp⟩

/-- The literal that a float is rendered as reads back as the same number. -/
def ReadsBack (read : Literal → Option F64) (value : F64) : Prop :=
  ∀ literal, floatLiteral value = some literal →
    ∃ number, read literal = some number ∧
      F64.numericCmp number value = .eq

/-- The row whose only column holds a value or `NULL`. -/
def onlyCell {α : Type} (name : String) (value : Option α) : Row α :=
  fun other => if other = name then value else none

@[simp]
theorem onlyCell_self {α : Type} (name : String) (value : Option α) :
    onlyCell name value name = value :=
  if_pos rfl

/-! ## The tests -/

/-- A test of a column against float literals; `none` is a typed null. -/
inductive FloatTest
  | compare (comparison : Comparison) (literal : Option F64)
  | inList (negated : Bool) (literals : List (Option F64))

namespace FloatTest

def literals : FloatTest → List (Option F64)
  | compare _ literal => [literal]
  | inList _ literals => literals

/-- All literals are finite, and there is one. -/
def IsPushed (test : FloatTest) : Prop :=
  test.literals ≠ [] ∧
    ∀ literal ∈ test.literals, ∃ value, literal = some value ∧ value.isFinite

/-- Whether the test keeps a value when floats are compared by an order. -/
def Keeps (order : F64 → F64 → Ordering) (value : F64) : FloatTest → Prop
  | compare comparison literal =>
      ∃ number, literal = some number ∧ holds comparison (order value number)
  | inList negated literals =>
      (∃ number, some number ∈ literals ∧ order value number = .eq) ↔
        negated = false

/-- The test keeps a value by `totalOrder` that it drops by number. -/
def Misjudges (value : F64) : FloatTest → Prop
  | compare comparison literal =>
      ∃ number, literal = some number ∧
        (F64.AreDistinctZeros value number ∧
            (comparison = .ne ∨
              comparison = if value.sign then .lt else .gt) ∨
          value.isNan ∧ value.sign ∧ (comparison = .lt ∨ comparison = .le))
  | inList negated literals =>
      negated ∧ some value ∉ literals ∧
        ∃ number, some number ∈ literals ∧
          F64.AreDistinctZeros value number

theorem isPushed_compare {comparison : Comparison} {literal : Option F64} :
    (compare comparison literal).IsPushed ↔
      ∃ number, literal = some number ∧ number.isFinite := by
  simp [IsPushed, literals]

theorem IsPushed.isNan_eq {test : FloatTest} (pushed : test.IsPushed)
    {number : F64} (numberMem : some number ∈ test.literals) :
    number.isNan = false := by
  obtain ⟨value, valueEq, finite⟩ := pushed.2 _ numberMem
  cases valueEq
  exact F64.isNan_of_isFinite finite

/-- The disagreements of the two orders that a comparison can tell. -/
theorem keeps_compare_iff {comparison : Comparison} {value number : F64}
    (isNumber : number.isNan = false) :
    (holds comparison (F64.totalCmp value number) →
        holds comparison (F64.numericCmp value number)) ↔
      ¬ (F64.AreDistinctZeros value number ∧
            (comparison = .ne ∨
              comparison = if value.sign then .lt else .gt) ∨
          value.isNan ∧ value.sign ∧ (comparison = .lt ∨ comparison = .le)) := by
  by_cases zeros : F64.AreDistinctZeros value number
  · obtain ⟨numeric, total⟩ := F64.cmp_of_areDistinctZeros zeros
    have notNan : value.isNan = false := by
      have isZero := zeros.1
      rw [F64.isZero, beq_iff_eq] at isZero
      simp [F64.isNan_eq, isZero]
    rw [numeric, total]
    simp only [zeros, notNan, true_and, Bool.false_eq_true, false_and,
      or_false]
    cases value.sign <;> cases comparison <;> decide
  · cases isNan : value.isNan with
    | false =>
        rw [F64.numericCmp_eq_totalCmp isNan isNumber zeros]
        simp [zeros]
    | true =>
        obtain ⟨numeric, total⟩ := F64.cmp_of_isNan isNan isNumber
        rw [numeric, total]
        simp only [zeros, false_and, false_or, true_and]
        cases value.sign <;> cases comparison <;> decide

/-- The test keeps less by number exactly where it misjudges. -/
theorem keeps_imp_iff {test : FloatTest} (pushed : test.IsPushed)
    (value : F64) :
    (test.Keeps F64.totalCmp value → test.Keeps F64.numericCmp value) ↔
      ¬ test.Misjudges value := by
  cases test with
  | compare comparison literal =>
      obtain ⟨number, rfl, finite⟩ := isPushed_compare.mp pushed
      have isNumber := F64.isNan_of_isFinite finite
      simp only [Keeps, Misjudges, Option.some.injEq, exists_eq_left']
      exact keeps_compare_iff isNumber
  | inList negated literals =>
      have same (number : F64) (numberMem : some number ∈ literals) :
          F64.numericCmp value number = .eq ↔
            value = number ∨ F64.AreDistinctZeros value number :=
        F64.numericCmp_eq_iff (pushed.isNan_eq numberMem)
      have identical :
          (∃ number, some number ∈ literals ∧
            F64.totalCmp value number = .eq) ↔ some value ∈ literals := by
        simp [F64.totalCmp_eq_iff]
      have equal :
          (∃ number, some number ∈ literals ∧
            F64.numericCmp value number = .eq) ↔
            some value ∈ literals ∨ ∃ number, some number ∈ literals ∧
              F64.AreDistinctZeros value number := by
        constructor
        · rintro ⟨number, numberMem, equal⟩
          rcases (same number numberMem).mp equal with rfl | zeros
          · exact Or.inl numberMem
          · exact Or.inr ⟨number, numberMem, zeros⟩
        · rintro (valueMem | ⟨number, numberMem, zeros⟩)
          · exact ⟨value, valueMem, (same value valueMem).mpr (Or.inl rfl)⟩
          · exact ⟨number, numberMem,
              (same number numberMem).mpr (Or.inr zeros)⟩
      simp only [Keeps, Misjudges, identical, equal]
      cases negated with
      | false => simpa using fun valueMem => Or.inl valueMem
      | true =>
          by_cases valueMem : some value ∈ literals <;> simp [valueMem]

end FloatTest

/-- A filter that makes a test. -/
inductive Tests (name : String) : Expr → FloatTest → Prop
  | compare {left right : Expr} {op oriented : Operator}
      {value : ScalarValue} {literal : Option FloatDatum}
      {comparison : Comparison}
      (shape : Oriented left op right name oriented value)
      (isComparison : comparisonOfOperator oriented = some comparison)
      (isFloat : floatScalar value = some literal) :
      Tests name (.binaryExpr left op right)
        (.compare comparison (literal.map FloatDatum.widen))
  | inList (negated : Bool) {values : List ScalarValue}
      {literals : List (Option FloatDatum)}
      (areFloats : List.Forall₂
        (fun value literal => floatScalar value = some literal)
        values literals) :
      Tests name (.inList (.column name) (values.map .literal) negated)
        (.inList negated (literals.map (Option.map FloatDatum.widen)))

section Literals

variable {value : ScalarValue} {literal : Option FloatDatum}

theorem isSome_literalSql_iff (isFloat : floatScalar value = some literal) :
    (literalSql value).isSome ↔
      ∃ number, literal.map FloatDatum.widen = some number ∧
        number.isFinite := by
  cases value <;> simp only [floatScalar, reduceCtorEq] at isFloat
  case float32 value =>
    cases isFloat
    cases value <;> simp [literalSql, finiteFloatSql, FloatDatum.widen]
  case float64 value =>
    cases isFloat
    cases value <;> simp [literalSql, finiteFloatSql, FloatDatum.widen]

theorem literalOf_of_floatScalar {number : F64}
    (isFloat : floatScalar value = some literal)
    (widened : literal.map FloatDatum.widen = some number) :
    literalOf value = floatLiteral number := by
  cases value <;> simp only [floatScalar, reduceCtorEq] at isFloat
  case float32 value =>
    cases isFloat
    cases value <;> cases widened
    rfl
  case float64 value =>
    cases isFloat
    cases value <;> cases widened
    rfl

end Literals

namespace Tests

variable {name : String} {filter : Expr} {test : FloatTest}

theorem isSome_translateFilter (tests : Tests name filter test)
    {schema : Schema} (known : ∃ field ∈ schema, field.name = name) :
    (translateFilter schema filter).isSome ↔ test.IsPushed := by
  cases tests with
  | compare shape isComparison isFloat =>
      rw [isSome_translateFilter_of_oriented shape isComparison known,
        isSome_literalSql_iff isFloat, FloatTest.isPushed_compare]
  | inList _ areFloats =>
      rw [isSome_translateFilter_inList known]
      simp only [FloatTest.IsPushed, FloatTest.literals, List.forall_mem_map]
      refine and_congr (not_congr ?_) ?_
      · rw [← List.length_eq_zero_iff, ← List.length_eq_zero_iff,
          List.length_map, areFloats.length_eq]
      · induction areFloats with
        | nil => simp
        | cons here later induction =>
            rw [List.forall_mem_cons, List.forall_mem_cons, induction,
              isSome_literalSql_iff here]

theorem evalFloatTest_oriented {left right : Expr} {op oriented : Operator}
    {value : ScalarValue} {literal : Option FloatDatum}
    {comparison : Comparison}
    (shape : Oriented left op right name oriented value)
    (isComparison : comparisonOfOperator oriented = some comparison)
    (isFloat : floatScalar value = some literal) (row : Row FloatDatum) :
    evalFloatTest row (.binaryExpr left op right) =
      some (Truth.test
        (fun left right => holds comparison (FloatDatum.totalCmp left right))
        (row name) literal) := by
  rcases shape.operands with ⟨rfl, rfl, rfl⟩ | ⟨rfl, rfl, rfl⟩
  · simp [evalFloatTest, isComparison, floatOperand, isFloat]
  · rw [comparisonOfOperator_flipOperator] at isComparison
    obtain ⟨unflipped, unflippedEq, rfl⟩ :=
      Option.map_eq_some_iff.mp isComparison
    rw [test_swap]
    simp [evalFloatTest, unflippedEq, floatOperand, isFloat, holds_flip,
      FloatDatum.totalCmp_swap]

theorem evalFloatTest_inList {values : List ScalarValue}
    {literals : List (Option FloatDatum)} (negated : Bool)
    (areFloats : List.Forall₂
      (fun value literal => floatScalar value = some literal)
      values literals) (row : Row FloatDatum) :
    evalFloatTest row
        (.inList (.column name) (values.map .literal) negated) =
      some (inFloats negated (row name) literals) := by
  have mapped : (values.map Expr.literal).mapM (floatOperand row) =
      some literals := by
    apply mapM_eq_some_iff.mpr
    rw [List.forall₂_map_left_iff]
    exact areFloats
  simp [evalFloatTest, floatOperand, mapped]

theorem inFloats_eq_true_iff {negated : Bool} {value : FloatDatum}
    {literals : List (Option FloatDatum)} (noNull : none ∉ literals) :
    inFloats negated (some value) literals = .true ↔
      ((∃ number, some number ∈ literals.map (Option.map FloatDatum.widen) ∧
        F64.totalCmp value.widen number = .eq) ↔ negated = false) := by
  have found : (literals.any fun item =>
        item.any fun other => FloatDatum.totalCmp value other == .eq) = true ↔
      ∃ number, some number ∈ literals.map (Option.map FloatDatum.widen) ∧
        F64.totalCmp value.widen number = .eq := by
    simp only [List.any_eq_true, Option.any_eq_true, beq_iff_eq, List.mem_map,
      Option.map_eq_some_iff, FloatDatum.totalCmp_eq]
    constructor
    · rintro ⟨item, itemMem, other, rfl, equal⟩
      exact ⟨_, ⟨_, itemMem, other, rfl, rfl⟩, equal⟩
    · rintro ⟨_, ⟨item, itemMem, other, rfl, rfl⟩, equal⟩
      exact ⟨_, itemMem, other, rfl, equal⟩
  rw [← found, inFloats]
  split
  · rename_i isFound
    cases negated <;> simp [isFound, Truth.ofBool]
  · rename_i notFound
    cases negated <;> simp [notFound, Truth.ofBool]

theorem evalFloatTest_iff (tests : Tests name filter test)
    (pushed : test.IsPushed) (stored : Option FloatDatum) :
    evalFloatTest (onlyCell name stored) filter = some .true ↔
      ∃ value, stored = some value ∧ test.Keeps F64.totalCmp value.widen := by
  cases tests with
  | @compare _ _ _ _ _ literal comparison shape isComparison isFloat =>
      obtain ⟨number, widened, -⟩ := FloatTest.isPushed_compare.mp pushed
      obtain ⟨datum, rfl, rfl⟩ := Option.map_eq_some_iff.mp widened
      rw [evalFloatTest_oriented shape isComparison isFloat, onlyCell_self]
      cases stored with
      | none => simp [Truth.test]
      | some value =>
          simp [Truth.test, Truth.ofBool_eq_true_iff, FloatTest.Keeps,
            FloatDatum.totalCmp_eq]
  | @inList negated values literals areFloats =>
      have noNull : none ∉ literals := by
        intro nullMem
        obtain ⟨number, isSome, -⟩ :=
          pushed.2 none (List.mem_map.mpr ⟨none, nullMem, rfl⟩)
        cases isSome
      rw [evalFloatTest_inList negated areFloats, onlyCell_self,
        Option.some.injEq]
      cases stored with
      | none => simp [inFloats]
      | some value =>
          rw [inFloats_eq_true_iff noNull]
          simp [FloatTest.Keeps]

/-! ## PostgreSQL -/

/-- What a rendered literal is read as compares like the literal. -/
theorem exists_operand {read : Literal → Option F64} {number : F64}
    (finite : number.isFinite) (reads : ReadsBack read number)
    {literal : Literal} (literalEq : floatLiteral number = some literal)
    (value : F64) :
    ∃ operand, read literal = some operand ∧
      F64.numericCmp value operand = F64.numericCmp value number := by
  obtain ⟨operand, readEq, same⟩ := reads literal literalEq
  exact ⟨operand, readEq,
    F64.numericCmp_congr (F64.isNan_of_isFinite finite) same⟩

theorem exists_operand_iff {read : Literal → Option F64}
    {values : List ScalarValue} {literals : List (Option FloatDatum)}
    (areFloats : List.Forall₂
      (fun value literal => floatScalar value = some literal)
      values literals)
    (finite : ∀ literal ∈ literals.map (Option.map FloatDatum.widen),
      ∃ number, literal = some number ∧ number.isFinite)
    (reads : ∀ number,
      some number ∈ literals.map (Option.map FloatDatum.widen) →
        ReadsBack read number)
    {rendered : List Literal}
    (each : List.Forall₂ (fun value literal => literalOf value = some literal)
      values rendered) (value : F64) :
    (∀ literal ∈ rendered, (read literal).isSome) ∧
      ((∃ literal ∈ rendered, ∃ operand, read literal = some operand ∧
          F64.numericCmp value operand = .eq) ↔
        ∃ number, some number ∈ literals.map (Option.map FloatDatum.widen) ∧
          F64.numericCmp value number = .eq) := by
  induction areFloats generalizing rendered with
  | nil =>
      cases each
      simp
  | @cons scalar literal values literals isFloat later induction =>
      cases each with
      | @cons _ first _ rest literalEq restEq =>
          rw [List.map_cons, List.forall_mem_cons] at finite
          obtain ⟨⟨number, widened, isFinite⟩, laterFinite⟩ := finite
          rw [List.map_cons] at reads
          obtain ⟨acceptedLater, searchLater⟩ := induction laterFinite
            (fun number numberMem => reads number
              (List.mem_cons_of_mem _ numberMem)) restEq
          rw [literalOf_of_floatScalar isFloat widened] at literalEq
          obtain ⟨operand, readEq, same⟩ := exists_operand isFinite
            (reads number (widened ▸ List.mem_cons_self)) literalEq value
          refine ⟨List.forall_mem_cons.mpr ⟨by simp [readEq], acceptedLater⟩,
            ?_⟩
          simp only [List.mem_cons, or_and_right, exists_or, exists_eq_left,
            searchLater, readEq, Option.some.injEq, exists_eq_left', same,
            List.map_cons, widened]

/-- PostgreSQL keeps what the test keeps by number. -/
theorem sourceKeeps_iff (tests : Tests name filter test)
    (pushed : test.IsPushed) {read : Literal → Option F64}
    (reads : ∀ number, some number ∈ test.literals → ReadsBack read number)
    {condition : Condition} (conditionEq : conditionOf filter = some condition)
    (value : F64) :
    (accepted (onlyColumn name (floatColumnType read)) condition ∧
        truth (onlyColumn name (floatColumnType read))
          (onlyCell name (some value)) condition = .true) ↔
      test.Keeps F64.numericCmp value := by
  cases tests with
  | @compare _ _ _ _ _ literal comparison shape isComparison isFloat =>
      obtain ⟨number, widened, finite⟩ := FloatTest.isPushed_compare.mp pushed
      have literalEq : literalOf _ = some _ :=
        (literalOf_of_floatScalar isFloat widened).trans (if_pos finite)
      rw [conditionOf_of_oriented shape isComparison literalEq] at conditionEq
      cases conditionEq
      obtain ⟨operand, readEq, same⟩ := exists_operand finite
        (reads number (by simp [FloatTest.literals, widened])) (if_pos finite)
        value
      simp [accepted, predicateAccepted, truth, predicateTruth,
        ColumnType.compare, floatColumnType, readEq, Truth.test,
        Truth.ofBool_eq_true_iff, FloatTest.Keeps, widened, same]
  | @inList negated values literals areFloats =>
      simp only [conditionOf, Option.bind_eq_bind,
        Option.bind_eq_some_iff] at conditionEq
      obtain ⟨rendered, renderedEq, listed⟩ := conditionEq
      cases listed
      have each := mapM_eq_some_iff.mp renderedEq
      rw [List.forall₂_map_left_iff] at each
      obtain ⟨acceptedAll, search⟩ :=
        exists_operand_iff areFloats pushed.2 reads each value
      simp only [accepted, predicateAccepted, truth, predicateTruth,
        onlyColumn_self, onlyCell_self, Option.some.injEq, exists_eq_left']
      rw [inList_eq_true_iff acceptedAll]
      exact (and_iff_right acceptedAll).trans (iff_congr search Iff.rfl)

end Tests

/-! ## Agreement -/

/-- The engine decodes the value and finds the filter true. -/
def EngineKeeps (field : Field) (stored : Option FloatDatum)
    (filter : Expr) : Prop :=
  ∃ datum, decodeFloat field.dataType stored = some datum ∧
    evalFloatTest (onlyCell field.name datum) filter = some .true

/-- PostgreSQL accepts the text of a condition and finds it true. -/
def SourceKeeps (read : Literal → Option F64) (name : String)
    (stored : Option FloatDatum) (sql : String) : Prop :=
  ∃ condition, parseCondition sql = some condition ∧
    accepted (onlyColumn name (floatColumnType read)) condition ∧
    truth (onlyColumn name (floatColumnType read))
      (onlyCell name (stored.map FloatDatum.widen)) condition = .true

/-- The source returns a row that the engine would keep. -/
def LosesNothing (read : Literal → Option F64) (schema : Schema)
    (field : Field) (stored : Option FloatDatum) (filter : Expr) : Prop :=
  EngineKeeps field stored filter →
    ∀ sql, translateFilter schema filter = some sql →
      SourceKeeps read field.name stored sql

/-- The field of a column of one of the types. -/
structure IsFloatField (kind : FloatKind) (field : Field) : Prop where
  introspected : ∃ column, fieldOf column = some field ∧
    column.dataType = kind.dataType ∧ column.udtName = kind.udtName

theorem pgTypeToArrow_floatKind (kind : FloatKind) :
    pgTypeToArrow kind.dataType kind.udtName =
      some (if kind = .real then .float32 else .float64) := by
  cases kind <;> decide

/-- The catalog types each column so that its values are decoded. -/
theorem IsFloatField.decodeFloat_eq {kind : FloatKind} {field : Field}
    (isFloat : IsFloatField kind field) {stored : Option FloatDatum}
    (ofKind : ∀ value ∈ stored, value.kind = kind) :
    decodeFloat field.dataType stored = some stored := by
  obtain ⟨column, introspected, dataTypeEq, udtNameEq⟩ := isFloat.introspected
  rw [fieldOf, dataTypeEq, udtNameEq, pgTypeToArrow_floatKind] at introspected
  cases introspected
  cases stored with
  | none => rfl
  | some value =>
      obtain rfl := ofKind value rfl
      cases value <;> rfl

/-- A pushed filter on a float column loses no row exactly when its test does
not misjudge the stored value. -/
theorem losesNothing_iff_not_misjudges {read : Literal → Option F64}
    {schema : Schema} (valid : ∀ field ∈ schema, ValidName field.name)
    {field : Field} (fieldMem : field ∈ schema) {kind : FloatKind}
    (isFloat : IsFloatField kind field) {stored : Option FloatDatum}
    (ofKind : ∀ value ∈ stored, value.kind = kind) {filter : Expr}
    {test : FloatTest} (tests : Tests field.name filter test)
    (reads : ∀ number, some number ∈ test.literals → ReadsBack read number) :
    LosesNothing read schema field stored filter ↔
      (test.IsPushed →
        ∀ value ∈ stored, ¬ test.Misjudges value.widen) := by
  have pushedIff := tests.isSome_translateFilter ⟨field, fieldMem, rfl⟩
  have decodes := isFloat.decodeFloat_eq ofKind
  rw [← pushedIff]
  cases translated : translateFilter schema filter with
  | none => simp [LosesNothing, translated]
  | some sql =>
      have pushed : test.IsPushed := pushedIff.mp (by rw [translated]; rfl)
      obtain ⟨condition, conditionEq, tokens, spells, lexes⟩ :=
        rendersCondition_of_translateFilter valid translated
      have parsed : parseCondition sql = some condition :=
        parseCondition_of_lex lexes.lex spells
      cases stored with
      | none =>
          have dropped : ¬ EngineKeeps field none filter := by
            rintro ⟨datum, decoded, isTrue⟩
            obtain rfl := Option.some.inj (decodes.symm.trans decoded)
            obtain ⟨value, isSome, -⟩ :=
              (tests.evalFloatTest_iff pushed none).mp isTrue
            cases isSome
          simp [LosesNothing, dropped]
      | some value =>
          have engine : EngineKeeps field (some value) filter ↔
              test.Keeps F64.totalCmp value.widen := by
            simp [EngineKeeps, decodes, tests.evalFloatTest_iff pushed]
          have source : SourceKeeps read field.name (some value) sql ↔
              test.Keeps F64.numericCmp value.widen := by
            rw [← tests.sourceKeeps_iff pushed reads conditionEq]
            simp [SourceKeeps, parsed]
          have judged := FloatTest.keeps_imp_iff pushed value.widen
          simp only [LosesNothing, translated, Option.some.injEq,
            forall_eq', engine, source, Option.isSome_some, true_implies,
            Option.mem_def, judged]

/-- A numeric constant rounded to the nearest `double precision`. -/
def readNumber : Literal → Option F64
  | .integer value =>
      some (rounded (value < 0) value.natAbs 0)
  | .decimal negative digits decimals =>
      some (rounded negative (Nat.ofDigitChars 10 (digits ++ decimals) 0)
        (-decimals.length))
  | _ => none
where
  rounded (negative : Bool) (digits : Nat) (tens : Int) : F64 :=
    ⟨BitVec.ofNat 64 ((if negative then 2 ^ 63 else 0) +
      nearestBits 52 1074 2047 digits tens)⟩

/-- A `double precision` column. -/
def ratioField : Field :=
  ⟨"ratio", .float64, true, none⟩

def zero : F64 :=
  .ofFields false 0 0

def negativeZero : F64 :=
  .ofFields true 0 0

/-- `ratio <> 0.0`. -/
def ratioFilter : Expr :=
  .binaryExpr (.column "ratio") .notEq (.literal (.float64 (some zero)))

theorem isFloatField_ratioField : IsFloatField .doublePrecision ratioField :=
  ⟨⟨"public", "parts", "ratio", "double precision", "float8", true⟩,
    by decide, rfl, rfl⟩

theorem tests_ratioFilter :
    Tests ratioField.name ratioFilter (.compare .ne (some zero)) := by
  have shape : Oriented (.column "ratio") .notEq
      (.literal (.float64 (some zero))) "ratio" .notEq
      (.float64 (some zero)) :=
    ⟨Or.inl ⟨rfl, rfl, rfl⟩, rfl⟩
  have isFloat : floatScalar (.float64 (some zero)) =
      some (some (.double zero)) := rfl
  exact .compare shape rfl isFloat

theorem readsBack_zero : ReadsBack readNumber zero := by
  intro literal literalEq
  have rendered : floatLiteral zero = some (.integer 0) := by decide +kernel
  obtain rfl := Option.some.inj (rendered.symm.trans literalEq)
  exact ⟨zero, by decide +kernel, by decide +kernel⟩

/-- The engine tells the two zeros apart, PostgreSQL does not. -/
theorem not_losesNothing_negativeZero :
    ¬ LosesNothing readNumber [ratioField] ratioField
      (some (.double negativeZero)) ratioFilter := by
  intro keeps
  obtain ⟨condition, parsed, -, isTrue⟩ :=
    keeps ⟨_, rfl, by decide +kernel⟩ "\"ratio\" <> 0" (by decide +kernel)
  have read : parseCondition "\"ratio\" <> 0" =
      some (.predicate (.compare "ratio" .ne (.integer 0))) := by
    decide
  obtain rfl := Option.some.inj (read.symm.trans parsed)
  exact absurd isTrue (by decide +kernel)

theorem losesNothing_iff_not_misjudges_negativeZero :
    LosesNothing readNumber [ratioField] ratioField
        (some (.double negativeZero)) ratioFilter ↔
      ((FloatTest.compare .ne (some zero)).IsPushed →
        ∀ value ∈ some (FloatDatum.double negativeZero),
          ¬ (FloatTest.compare .ne (some zero)).Misjudges value.widen) :=
  losesNothing_iff_not_misjudges (by decide)
    (List.mem_singleton.mpr rfl : ratioField ∈ [ratioField])
    isFloatField_ratioField (by rintro _ ⟨⟩; rfl) tests_ratioFilter
    (by
      intro number numberMem
      obtain rfl : number = zero := by
        simpa [FloatTest.literals] using numberMem
      exact readsBack_zero)

end FloatColumns

end Pushdown

end Igloo
