import Igloo.FilterStructure
import Igloo.SqlSemantics
import Mathlib.Data.String.Basic

/-!
# The meaning of a translated filter

The engine evaluates a filter on a row of integers, truth values and texts
with three truth values.  PostgreSQL evaluates the text that the filter is
translated to, comparing literals as values of the column's type and texts by
a collation.  When the collation is deterministic the two agree on every row,
with nulls anywhere.
-/

namespace Igloo

namespace Pushdown

open Arrow RelatedResults SqlLexer SqlSyntax SqlSemantics

/-- The value of an integer, boolean or text column. -/
inductive Datum
  | integer (value : Int)
  | boolean (value : Bool)
  | text (value : String)
  deriving DecidableEq, Repr

/-- The three classes of types. -/
inductive Kind
  | integer
  | boolean
  | text
  deriving DecidableEq, Repr

namespace Datum

def rank : Datum → Nat
  | integer _ => 0
  | boolean _ => 1
  | text _ => 2

/-- The order the engine compares by; texts are ordered by their bytes. -/
def order : Datum → Datum → Ordering
  | integer left, integer right => compare left right
  | boolean left, boolean right => compare left right
  | text left, text right => compare left right
  | left, right => compare left.rank right.rank

theorem order_swap (left right : Datum) :
    (order left right).swap = order right left := by
  cases left <;> cases right <;> exact Std.OrientedOrd.eq_swap.symm

theorem order_eq_iff {left right : Datum} :
    order left right = .eq ↔ left = right := by
  cases left <;> cases right <;> simp [order, rank]

end Datum

/-- The kind of a column. -/
def dataKind : DataType → Option Kind
  | .int16 | .int32 | .int64 => some .integer
  | .boolean => some .boolean
  | .utf8 => some .text
  | _ => none

def columnKind (schema : Schema) (name : String) : Option Kind :=
  (schema.find? fun field => field.name == name).bind fun field =>
    dataKind field.dataType

/-- The kind of a scalar, which a typed null has as well. -/
def scalarKind : ScalarValue → Option Kind
  | .boolean _ => some .boolean
  | .int8 _ | .int16 _ | .int32 _ | .int64 _ => some .integer
  | .uint8 _ | .uint16 _ | .uint32 _ | .uint64 _ => some .integer
  | .utf8 _ | .largeUtf8 _ | .utf8View _ => some .text
  | _ => none

/-! ## The engine -/

/-- The value of a scalar. -/
def scalarDatum : ScalarValue → Option (Option Datum)
  | .boolean value => some (value.map .boolean)
  | .int8 value => some (value.map fun value => .integer value.toInt)
  | .int16 value => some (value.map fun value => .integer value.toInt)
  | .int32 value => some (value.map fun value => .integer value.toInt)
  | .int64 value => some (value.map fun value => .integer value.toInt)
  | .uint8 value => some (value.map fun value => .integer value.toNat)
  | .uint16 value => some (value.map fun value => .integer value.toNat)
  | .uint32 value => some (value.map fun value => .integer value.toNat)
  | .uint64 value => some (value.map fun value => .integer value.toNat)
  | .utf8 value | .largeUtf8 value | .utf8View value =>
      some (value.map .text)
  | _ => none

/-- The value of a column or a literal on a row. -/
def operandValue (row : Row Datum) : Expr → Option (Option Datum)
  | .column name => some (row name)
  | .literal value => scalarDatum value
  | _ => none

/-- `IN` as the engine evaluates it: a match decides, then a null does. -/
def inListTruth (negated : Bool) (value : Option Datum)
    (list : List (Option Datum)) : Truth :=
  match value with
  | none => .null
  | some value =>
      if some value ∈ list then Truth.ofBool (!negated)
      else if none ∈ list then .null
      else Truth.ofBool negated

/-- The engine's evaluation of a filter; `other` evaluates the expressions
that are not comparisons of columns and literals. -/
def evalFilter (other : Expr → Row Datum → Truth) (row : Row Datum) :
    Expr → Truth
  | .binaryExpr left .and right =>
      (evalFilter other row left).and (evalFilter other row right)
  | .binaryExpr left op right =>
      match comparisonOfOperator op, operandValue row left,
          operandValue row right with
      | some comparison, some left, some right =>
          Truth.test
            (fun left right => holds comparison (Datum.order left right))
            left right
      | _, _, _ => other (.binaryExpr left op right) row
  | .isNull inner =>
      match operandValue row inner with
      | some value => Truth.ofBool value.isNone
      | none => other (.isNull inner) row
  | .isNotNull inner =>
      match operandValue row inner with
      | some value => Truth.ofBool value.isSome
      | none => other (.isNotNull inner) row
  | .inList expr list negated =>
      match operandValue row expr, list.mapM (operandValue row) with
      | some value, some values => inListTruth negated value values
      | _, _ => other (.inList expr list negated) row
  | filter => other filter row

/-! ## PostgreSQL -/

/-- Comparing a column of each kind; texts are compared by a collation. -/
def columnType (collation : String → String → Ordering) :
    Kind → ColumnType Datum
  | .integer =>
      ⟨fun literal =>
        match literal with
        | .integer value => some (.integer value)
        | _ => none, Datum.order⟩
  | .boolean =>
      ⟨fun literal =>
        match literal with
        | .boolean value => some (.boolean value)
        | _ => none, Datum.order⟩
  | .text =>
      ⟨fun literal =>
        match literal with
        | .string text => some (.text text)
        | _ => none,
      fun left right =>
        match left, right with
        | .text left, .text right => collation left right
        | left, right => Datum.order left right⟩

def columnsOf (collation : String → String → Ordering) (schema : Schema) :
    Columns Datum :=
  fun name => (columnKind schema name).map (columnType collation)

/-- The column of one name. -/
def onlyColumn {α : Type} (name : String) (value : α) : String → Option α :=
  fun other => if other = name then some value else none

@[simp]
theorem onlyColumn_self {α : Type} (name : String) (value : α) :
    onlyColumn name value name = some value :=
  if_pos rfl

/-- The literals of comparisons have the kind of the column, as type coercion
leaves them. -/
def WellTyped (schema : Schema) : Expr → Prop
  | .binaryExpr left .and right => WellTyped schema left ∧ WellTyped schema right
  | .binaryExpr (.column name) _ (.literal value) =>
      (columnKind schema name).isSome ∧
        scalarKind value = columnKind schema name
  | .binaryExpr (.literal value) _ (.column name) =>
      (columnKind schema name).isSome ∧
        scalarKind value = columnKind schema name
  | .isNull (.column name) => (columnKind schema name).isSome
  | .isNotNull (.column name) => (columnKind schema name).isSome
  | .inList (.column name) list _ =>
      (columnKind schema name).isSome ∧
        ∀ value ∈ list.filterMap asLiteral,
          scalarKind value = columnKind schema name
  | _ => True

/-! ## Agreement -/

section Agreement

variable {collation : String → String → Ordering}

theorem exists_datum (collation : String → String → Ordering)
    {value : ScalarValue} {literal : Literal} {kind : Kind}
    (literalEq : literalOf value = some literal)
    (kindEq : scalarKind value = some kind) :
    ∃ datum, scalarDatum value = some (some datum) ∧
      (columnType collation kind).operand literal = some datum := by
  unfold literalOf at literalEq
  split at literalEq
  case h_10 | h_11 => cases kindEq
  case h_15 => cases literalEq
  all_goals
    cases kindEq
    cases literalEq
    exact ⟨_, rfl, rfl⟩

theorem order_text (deterministic : ∀ left right,
      collation left right = .eq ↔ left = right) (left right : Datum) :
    (columnType collation .text).order left right = .eq ↔
      Datum.order left right = .eq := by
  cases left <;> cases right <;> simp [columnType, Datum.order, deterministic]

/-- The comparisons that are pushed have the same outcome under the collation
as under byte order. -/
theorem holds_order (deterministic : ∀ left right,
      collation left right = .eq ↔ left = right) {comparison : Comparison}
    {kind : Kind}
    (equality : kind = .text → comparison = .eq ∨ comparison = .ne)
    (left right : Datum) :
    holds comparison ((columnType collation kind).order left right) =
      holds comparison (Datum.order left right) := by
  cases kind with
  | integer => rfl
  | boolean => rfl
  | text =>
      have sameEq := order_text deterministic left right
      have agree : ((columnType collation .text).order left right == .eq) =
          (Datum.order left right == .eq) := by
        rw [Bool.eq_iff_iff]
        simpa using sameEq
      rcases equality rfl with rfl | rfl
      · exact agree
      · simp only [holds, bne, agree]

theorem isOrdering_flipOperator (op : Operator) :
    isOrdering (flipOperator op) = isOrdering op := by
  cases op <;> rfl

theorem equality_of_not_isOrdering {op : Operator} {comparison : Comparison}
    (notOrdering : isOrdering op = false)
    (comparisonEq : comparisonOfOperator op = some comparison) :
    comparison = .eq ∨ comparison = .ne := by
  cases op <;> simp_all [isOrdering, comparisonOfOperator]

/-- Ordering comparisons with strings are never pushed. -/
theorem equality_of_pushable {op oriented : Operator} {left right : Expr}
    {name : String} {value : ScalarValue} {comparison : Comparison}
    {literal : Literal} {kind : Kind}
    (shape : Oriented left op right name oriented value)
    (comparisonEq : comparisonOfOperator oriented = some comparison)
    (literalEq : literalOf value = some literal)
    (kindEq : scalarKind value = some kind) :
    kind = .text → comparison = .eq ∨ comparison = .ne := by
  rintro rfl
  have isString : isStringLiteral value := by
    unfold literalOf at literalEq
    split at literalEq <;> first | rfl | cases kindEq | cases literalEq
  have pushable : isOrdering op = false := by
    simpa [isString] using shape.pushable
  have notOrdering : isOrdering oriented = false := by
    rcases shape.operands with ⟨-, -, rfl⟩ | ⟨-, -, rfl⟩
    · exact pushable
    · rw [isOrdering_flipOperator, pushable]
  exact equality_of_not_isOrdering notOrdering comparisonEq

theorem Oriented.exists_kind {schema : Schema} {op oriented : Operator}
    {left right : Expr} {name : String} {value : ScalarValue}
    (shape : Oriented left op right name oriented value)
    (notAnd : op = .and → False)
    (wellTyped : WellTyped schema (.binaryExpr left op right)) :
    ∃ kind, columnKind schema name = some kind ∧
      scalarKind value = some kind := by
  have fits : (columnKind schema name).isSome ∧
      scalarKind value = columnKind schema name := by
    rcases shape.operands with ⟨rfl, rfl, -⟩ | ⟨rfl, rfl, -⟩ <;>
      cases op <;> first | exact wellTyped | exact (notAnd rfl).elim
  obtain ⟨kind, kindEq⟩ := Option.isSome_iff_exists.mp fits.1
  exact ⟨kind, kindEq, fits.2.trans kindEq⟩

theorem test_swap {α : Type} (holds : α → α → Bool) (left right : Option α) :
    Truth.test holds left right =
      Truth.test (fun left right => holds right left) right left := by
  cases left <;> cases right <;> rfl

theorem evalFilter_oriented {op oriented : Operator} {left right : Expr}
    {name : String} {value : ScalarValue} {comparison : Comparison}
    {datum : Datum} (shape : Oriented left op right name oriented value)
    (comparisonEq : comparisonOfOperator oriented = some comparison)
    (datumEq : scalarDatum value = some (some datum))
    (other : Expr → Row Datum → Truth) (row : Row Datum) :
    evalFilter other row (.binaryExpr left op right) =
      Truth.test
        (fun left right => holds comparison (Datum.order left right))
        (row name) (some datum) := by
  rcases shape.operands with ⟨rfl, rfl, rfl⟩ | ⟨rfl, rfl, rfl⟩
  · cases oriented <;> simp_all [evalFilter, comparisonOfOperator,
      operandValue]
  · rw [comparisonOfOperator_flipOperator] at comparisonEq
    obtain ⟨unflipped, unflippedEq, rfl⟩ :=
      Option.map_eq_some_iff.mp comparisonEq
    rw [test_swap]
    simp only [holds_flip, Datum.order_swap]
    cases op <;> simp_all [evalFilter, comparisonOfOperator, operandValue]

theorem exists_data (collation : String → String → Ordering) {kind : Kind}
    {list : List Expr} {literals : List Literal}
    (literalsEq : list.mapM (fun item => (asLiteral item).bind literalOf) =
      some literals)
    (kinds : ∀ value ∈ list.filterMap asLiteral,
      scalarKind value = some kind) :
    ∃ data : List Datum,
      (∀ row, list.mapM (operandValue row) = some (data.map some)) ∧
        literals.map (columnType collation kind).operand = data.map some := by
  have each := mapM_eq_some_iff.mp literalsEq
  clear literalsEq
  induction each with
  | nil => exact ⟨[], fun _ => rfl, rfl⟩
  | @cons item literal list literals here later induction =>
      obtain ⟨value, isLiteral, literalEq⟩ := Option.bind_eq_some_iff.mp here
      rw [List.filterMap_cons_some isLiteral] at kinds
      obtain ⟨kindEq, laterKinds⟩ := List.forall_mem_cons.mp kinds
      obtain ⟨datum, datumEq, operandEq⟩ :=
        exists_datum collation literalEq kindEq
      obtain ⟨data, dataEq, operandsEq⟩ := induction laterKinds
      obtain rfl := exists_of_asLiteral isLiteral
      refine ⟨datum :: data, ?_, ?_⟩
      · intro row
        simp [List.mapM_cons, operandValue, datumEq, dataEq]
      · simp [operandEq, operandsEq]

theorem inListTruth_true (value : Option Datum) (list : List (Option Datum)) :
    inListTruth true value list = (inListTruth false value list).not := by
  unfold inListTruth
  cases value with
  | none => rfl
  | some value =>
      dsimp only
      split
      · rfl
      · split <;> rfl

theorem holds_eq_order (deterministic : ∀ left right,
      collation left right = .eq ↔ left = right) (kind : Kind)
    (left right : Datum) :
    holds .eq ((columnType collation kind).order left right) =
      decide (left = right) := by
  rw [holds_order deterministic fun _ => Or.inl rfl, Bool.eq_iff_iff]
  simp [holds, Datum.order_eq_iff]

/-- `IN` and `NOT IN` agree, for lists of any length. -/
theorem inList_eq_inListTruth (deterministic : ∀ left right,
      collation left right = .eq ↔ left = right) {kind : Kind}
    {literals : List Literal} {data : List Datum}
    (operandsEq : literals.map (columnType collation kind).operand =
      data.map some)
    (nonempty : data ≠ []) (negated : Bool) (value : Option Datum) :
    (columnType collation kind).inList negated value literals =
      inListTruth negated value (data.map some) := by
  have positive : (columnType collation kind).inList false value literals =
      inListTruth false value (data.map some) := by
    have tests : literals.map ((columnType collation kind).compare .eq value) =
        data.map fun datum => Truth.test (fun left right =>
          holds .eq ((columnType collation kind).order left right))
            value (some datum) := by
      have mapped := congrArg (List.map (Truth.test (fun left right =>
        holds .eq ((columnType collation kind).order left right)) value))
        operandsEq
      rw [List.map_map, List.map_map] at mapped
      exact mapped
    rw [ColumnType.inList, if_neg Bool.false_ne_true, tests]
    cases value with
    | none => exact Truth.any_map_null nonempty
    | some value =>
        have matched : (data.any fun datum =>
            holds .eq ((columnType collation kind).order value datum)) =
              decide (value ∈ data) := by
          simp only [holds_eq_order deterministic]
          rw [Bool.eq_iff_iff]
          simp
        simp only [Truth.test]
        rw [Truth.any_map_ofBool, matched]
        by_cases member : value ∈ data <;>
          simp [inListTruth, member, Truth.ofBool]
  cases negated with
  | false => exact positive
  | true => rw [inList_true, inListTruth_true, positive]

/-- On every row, the condition of a translated filter has the truth value
that the engine gives the filter. -/
theorem truth_conditionOf (deterministic : ∀ left right,
      collation left right = .eq ↔ left = right) {schema : Schema}
    {filter : Expr} {text : String}
    (translated : translateFilter schema filter = some text)
    (wellTyped : WellTyped schema filter) {condition : Condition}
    (conditionEq : conditionOf filter = some condition)
    (other : Expr → Row Datum → Truth) :
    accepted (columnsOf collation schema) condition ∧
      ∀ row, truth (columnsOf collation schema) row condition =
        evalFilter other row filter := by
  induction filter using translateFilter.induct generalizing text condition with
  | case1 left right induction_left induction_right =>
      obtain ⟨leftText, rightText, translated_left, translated_right, -⟩ :=
        exists_of_translateAnd translated
      simp only [conditionOf, Option.bind_eq_bind,
        Option.bind_eq_some_iff] at conditionEq
      obtain ⟨leftCondition, leftEq, rightCondition, rightEq, both⟩ :=
        conditionEq
      cases both
      obtain ⟨accepted_left, agree_left⟩ :=
        induction_left translated_left wellTyped.1 leftEq
      obtain ⟨accepted_right, agree_right⟩ :=
        induction_right translated_right wellTyped.2 rightEq
      refine ⟨⟨accepted_left, accepted_right⟩, ?_⟩
      intro row
      rw [truth, agree_left, agree_right, evalFilter]
  | case2 left op right notAnd =>
      rw [translateFilter.eq_2 _ _ _ _ notAnd] at translated
      obtain ⟨name, oriented, value, sqlOp, literalText, shape, spelled, -,
        rendered, -⟩ := exists_of_translateComparison translated
      rw [comparisonOpSql_eq] at spelled
      obtain ⟨comparison, comparisonEq, -⟩ := Option.map_eq_some_iff.mp spelled
      obtain ⟨literal, literalEq, -⟩ := rendersLiteral_of_literalSql rendered
      rw [conditionOf_of_oriented shape comparisonEq literalEq] at conditionEq
      cases conditionEq
      obtain ⟨kind, kindEq, scalarEq⟩ := shape.exists_kind notAnd wellTyped
      obtain ⟨datum, datumEq, operandEq⟩ :=
        exists_datum collation literalEq scalarEq
      have column : columnsOf collation schema name =
          some (columnType collation kind) := by
        rw [columnsOf, kindEq, Option.map_some]
      refine ⟨⟨_, column, by simp [operandEq]⟩, ?_⟩
      intro row
      have equality :=
        equality_of_pushable shape comparisonEq literalEq scalarEq
      rw [evalFilter_oriented shape comparisonEq datumEq, truth,
        predicateTruth, column]
      simp only [ColumnType.compare, operandEq,
        holds_order deterministic equality]
  | case3 inner =>
      obtain ⟨name, rfl, -, -⟩ := exists_of_translateIsNull translated
      cases conditionEq
      have known : (columnKind schema name).isSome := wellTyped
      refine ⟨by simpa [accepted, predicateAccepted, columnsOf] using known, ?_⟩
      intro row
      simp [truth, predicateTruth, evalFilter, operandValue]
  | case4 inner =>
      obtain ⟨name, rfl, -, -⟩ := exists_of_translateIsNotNull translated
      cases conditionEq
      have known : (columnKind schema name).isSome := wellTyped
      refine ⟨by simpa [accepted, predicateAccepted, columnsOf] using known, ?_⟩
      intro row
      simp [truth, predicateTruth, evalFilter, operandValue]
  | case5 expr list negated =>
      obtain ⟨name, items, rfl, -, nonempty, -, -⟩ :=
        exists_of_translateInList translated
      simp only [conditionOf, Option.bind_eq_bind,
        Option.bind_eq_some_iff] at conditionEq
      obtain ⟨literals, literalsEq, listed⟩ := conditionEq
      cases listed
      obtain ⟨known, kinds⟩ := wellTyped
      obtain ⟨kind, kindEq⟩ := Option.isSome_iff_exists.mp known
      simp only [kindEq] at kinds
      obtain ⟨data, dataEq, operandsEq⟩ :=
        exists_data collation literalsEq kinds
      have column : columnsOf collation schema name =
          some (columnType collation kind) := by
        rw [columnsOf, kindEq, Option.map_some]
      have dataNonempty : data ≠ [] := by
        have sameLength :=
          (mapM_eq_some_iff.mp (dataEq fun _ => none)).length_eq
        rw [List.length_map] at sameLength
        exact List.length_pos_iff.mp
          (sameLength ▸ List.length_pos_iff.mpr nonempty)
      refine ⟨⟨_, column, ?_⟩, ?_⟩
      · intro literal literalMem
        have operandMem := List.mem_map_of_mem
          (f := (columnType collation kind).operand) literalMem
        rw [operandsEq] at operandMem
        obtain ⟨datum, -, datumEq⟩ := List.mem_map.mp operandMem
        rw [← datumEq]
        rfl
      · intro row
        rw [truth, predicateTruth, column]
        simp only [evalFilter, operandValue, dataEq]
        exact inList_eq_inListTruth deterministic operandsEq dataNonempty
          negated (row name)
  | case6 filter notAnd notBinary notIsNull notIsNotNull notInList =>
      rw [translateFilter.eq_6 _ _ notAnd notBinary notIsNull notIsNotNull
        notInList] at translated
      cases translated

/-- PostgreSQL gives the text of a translated filter the truth value that the
engine gives the filter, on every row. -/
theorem translateFilter_preserves_truth (deterministic : ∀ left right,
      collation left right = .eq ↔ left = right) {schema : Schema}
    (valid : ∀ field ∈ schema, ValidName field.name) {filter : Expr}
    (wellTyped : WellTyped schema filter) {text : String}
    (translated : translateFilter schema filter = some text)
    (other : Expr → Row Datum → Truth) :
    ∃ condition, parseCondition text = some condition ∧
      accepted (columnsOf collation schema) condition ∧
      ∀ row, truth (columnsOf collation schema) row condition =
        evalFilter other row filter := by
  obtain ⟨condition, conditionEq, tokens, spells, reads⟩ :=
    rendersCondition_of_translateFilter valid translated
  obtain ⟨acceptedHere, agree⟩ :=
    truth_conditionOf deterministic translated wellTyped conditionEq other
  exact ⟨condition, parseCondition_of_lex reads.lex spells, acceptedHere,
    agree⟩

end Agreement

/-- An integer and a text column. -/
def idAndName : Schema :=
  [⟨"id", .int64, false, none⟩, ⟨"name", .utf8, true, none⟩]

/-- A flipped comparison and a list. -/
def idAndNameFilter : Expr :=
  .binaryExpr
    (.binaryExpr (.literal (.uint64 (some 18446744073709551615))) .gtEq
      (.column "id"))
    .and
    (.inList (.column "name") [.literal (.utf8 (some "it's"))] true)

theorem translateFilter_preserves_truth_flipped :
    ∃ condition,
      parseCondition
          "(\"id\" <= 18446744073709551615 AND \"name\" NOT IN ('it''s'))" =
        some condition ∧
      accepted (columnsOf compare idAndName) condition ∧
      ∀ row, truth (columnsOf compare idAndName) row condition =
        evalFilter (fun _ _ => .null) row idAndNameFilter :=
  translateFilter_preserves_truth
    (fun _ _ => Std.LawfulEqOrd.compare_eq_iff_eq) (by decide)
    (show WellTyped idAndName idAndNameFilter from
      ⟨⟨rfl, rfl⟩, rfl, by decide⟩)
    (by decide) _

end Pushdown

end Igloo
