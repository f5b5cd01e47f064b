import Igloo.ArrowTypes

/-!
# Filter translation

The translation of filter expressions into fragments of a `WHERE` clause.
Everything outside the supported grammar translates to `none` and is left to
the engine.
-/

namespace Igloo

namespace Pushdown

open Arrow

/-- `Operator`; those that are never translated are collected in `other`. -/
inductive Operator
  | eq
  | notEq
  | lt
  | ltEq
  | gt
  | gtEq
  | and
  | or
  | other (symbol : String)
  deriving DecidableEq, Repr

/-- `Expr`; the variants that are never translated are collected in `other`. -/
inductive Expr
  | column (name : String)
  | literal (value : ScalarValue)
  | binaryExpr (left : Expr) (op : Operator) (right : Expr)
  | isNull (inner : Expr)
  | isNotNull (inner : Expr)
  | inList (expr : Expr) (list : List Expr) (negated : Bool)
  | other (description : String) (operands : List Expr)
  deriving Repr

/-- `str::replace` of one character by two of it. -/
def replaceDoubled (quote : Char) (text : String) : String :=
  String.ofList
    (text.toList.flatMap fun ch => if ch = quote then [quote, quote] else [ch])

/-- `quote_ident`. -/
def quoteIdent (name : String) : String :=
  "\"" ++ replaceDoubled '"' name ++ "\""

/-- `is_ordering`. -/
def isOrdering : Operator → Bool
  | .lt | .ltEq | .gt | .gtEq => true
  | _ => false

/-- `is_string_literal`. -/
def isStringLiteral : ScalarValue → Bool
  | .utf8 (some _) | .largeUtf8 (some _) | .utf8View (some _) => true
  | _ => false

/-- `comparison_op_sql`. -/
def comparisonOpSql : Operator → Option String
  | .eq => some "="
  | .notEq => some "<>"
  | .lt => some "<"
  | .ltEq => some "<="
  | .gt => some ">"
  | .gtEq => some ">="
  | _ => none

/-- `flip_operator`. -/
def flipOperator : Operator → Operator
  | .lt => .gt
  | .ltEq => .gtEq
  | .gt => .lt
  | .gtEq => .ltEq
  | other => other

/-- `as_column`. -/
def asColumn : Expr → Option String
  | .column name => some name
  | _ => none

/-- `as_literal`. -/
def asLiteral : Expr → Option ScalarValue
  | .literal value => some value
  | _ => none

/-- `column_sql`. -/
def columnSql (name : String) (schema : Schema) : Option String :=
  if schema.any fun field => field.name == name then some (quoteIdent name)
  else none

/-- `finite_float_sql`. -/
def finiteFloatSql (value : F64) : Option String :=
  if value.isFinite then some value.display else none

/-- `escape_string_literal`. -/
def escapeStringLiteral (text : String) : Option String :=
  if '\x00' ∈ text.toList then none
  else some ("'" ++ replaceDoubled '\'' text ++ "'")

/-- `literal_sql`. -/
def literalSql : ScalarValue → Option String
  | .boolean (some value) => some (if value then "TRUE" else "FALSE")
  | .int8 (some value) => some (toString value.toInt)
  | .int16 (some value) => some (toString value.toInt)
  | .int32 (some value) => some (toString value.toInt)
  | .int64 (some value) => some (toString value.toInt)
  | .uint8 (some value) => some (toString value.toNat)
  | .uint16 (some value) => some (toString value.toNat)
  | .uint32 (some value) => some (toString value.toNat)
  | .uint64 (some value) => some (toString value.toNat)
  | .float32 (some value) => finiteFloatSql value.toF64
  | .float64 (some value) => finiteFloatSql value
  | .utf8 (some text) | .largeUtf8 (some text) | .utf8View (some text) =>
      escapeStringLiteral text
  | _ => none

/-- `translate_comparison`. -/
def translateComparison (left : Expr) (op : Operator) (right : Expr)
    (schema : Schema) : Option String := do
  let sqlOp ← comparisonOpSql op
  match asColumn left, asLiteral right with
  | some column, some literal =>
      if isOrdering op && isStringLiteral literal then none
      else
        let column ← columnSql column schema
        let literal ← literalSql literal
        return column ++ " " ++ sqlOp ++ " " ++ literal
  | _, _ =>
      match asLiteral left, asColumn right with
      | some literal, some column =>
          if isOrdering op && isStringLiteral literal then none
          else
            let flipped ← comparisonOpSql (flipOperator op)
            let column ← columnSql column schema
            let literal ← literalSql literal
            return column ++ " " ++ flipped ++ " " ++ literal
      | _, _ => none

/-- `translate_in_list`. -/
def translateInList (expr : Expr) (list : List Expr) (negated : Bool)
    (schema : Schema) : Option String := do
  let name ← asColumn expr
  let column ← columnSql name schema
  if list.isEmpty then none
  else
    let items ← list.mapM fun item => do
      let literal ← asLiteral item
      literalSql literal
    let keyword := if negated then "NOT IN" else "IN"
    return column ++ " " ++ keyword ++ " (" ++ ", ".intercalate items ++ ")"

/-- `translate_filter`. -/
def translateFilter (schema : Schema) : Expr → Option String
  | .binaryExpr left .and right => do
      let left ← translateFilter schema left
      let right ← translateFilter schema right
      return "(" ++ left ++ " AND " ++ right ++ ")"
  | .binaryExpr left op right => translateComparison left op right schema
  | .isNull inner => do
      let name ← asColumn inner
      let column ← columnSql name schema
      return column ++ " IS NULL"
  | .isNotNull inner => do
      let name ← asColumn inner
      let column ← columnSql name schema
      return column ++ " IS NOT NULL"
  | .inList expr list negated => translateInList expr list negated schema
  | _ => none

theorem exists_of_columnSql {schema : Schema} {name text : String}
    (rendered : columnSql name schema = some text) :
    text = quoteIdent name ∧ ∃ field ∈ schema, field.name = name := by
  unfold columnSql at rendered
  split at rendered
  · rename_i known
    refine ⟨(Option.some.inj rendered).symm, ?_⟩
    simpa using known
  · cases rendered

theorem exists_of_asColumn {expr : Expr} {name : String}
    (isColumn : asColumn expr = some name) : expr = .column name := by
  unfold asColumn at isColumn
  split at isColumn
  · rw [Option.some.inj isColumn]
  · cases isColumn

theorem exists_of_asLiteral {expr : Expr} {value : ScalarValue}
    (isLiteral : asLiteral expr = some value) : expr = .literal value := by
  unfold asLiteral at isLiteral
  split at isLiteral
  · rw [Option.some.inj isLiteral]
  · cases isLiteral

/-- A comparison of a column with a literal, in either order. -/
structure Oriented (left : Expr) (op : Operator) (right : Expr)
    (name : String) (oriented : Operator) (value : ScalarValue) : Prop where
  operands : left = .column name ∧ right = .literal value ∧ oriented = op ∨
    left = .literal value ∧ right = .column name ∧
      oriented = flipOperator op
  pushable : (isOrdering op && isStringLiteral value) = false

theorem exists_of_translateComparison {left right : Expr} {op : Operator}
    {schema : Schema} {text : String}
    (translated : translateComparison left op right schema = some text) :
    ∃ name oriented value sqlOp literal,
      Oriented left op right name oriented value ∧
        comparisonOpSql oriented = some sqlOp ∧
        (∃ field ∈ schema, field.name = name) ∧
        literalSql value = some literal ∧
        text = quoteIdent name ++ " " ++ sqlOp ++ " " ++ literal := by
  unfold translateComparison at translated
  simp only [Option.bind_eq_bind, Option.bind_eq_some_iff] at translated
  obtain ⟨sqlOp, spelled, translated⟩ := translated
  split at translated
  · rename_i name value isColumn isLiteral
    split at translated
    · cases translated
    · rename_i pushable
      simp only [Option.bind_eq_some_iff] at translated
      obtain ⟨column, rendered, literal, renderedLiteral, textEq⟩ := translated
      obtain ⟨rfl, known⟩ := exists_of_columnSql rendered
      exact ⟨name, op, value, sqlOp, literal,
        ⟨Or.inl ⟨exists_of_asColumn isColumn, exists_of_asLiteral isLiteral,
          rfl⟩, by simpa using pushable⟩,
        spelled, known, renderedLiteral, (Option.some.inj textEq).symm⟩
  · split at translated
    · rename_i value name isLiteral isColumn
      split at translated
      · cases translated
      · rename_i pushable
        simp only [Option.bind_eq_some_iff] at translated
        obtain ⟨flipped, spelledFlipped, column, rendered, literal,
          renderedLiteral, textEq⟩ := translated
        obtain ⟨rfl, known⟩ := exists_of_columnSql rendered
        exact ⟨name, flipOperator op, value, flipped, literal,
          ⟨Or.inr ⟨exists_of_asLiteral isLiteral, exists_of_asColumn isColumn,
            rfl⟩, by simpa using pushable⟩,
          spelledFlipped, known, renderedLiteral,
          (Option.some.inj textEq).symm⟩
    · cases translated

/-- A comparison is translated if its literal is rendered. -/
theorem translateComparison_of_oriented {left right : Expr}
    {op oriented : Operator} {name column sqlOp : String}
    {value : ScalarValue} {schema : Schema}
    (shape : Oriented left op right name oriented value)
    (spelled : comparisonOpSql oriented = some sqlOp)
    (rendered : columnSql name schema = some column) :
    translateComparison left op right schema =
      (literalSql value).map fun literal =>
        column ++ " " ++ sqlOp ++ " " ++ literal := by
  rcases shape.operands with ⟨rfl, rfl, rfl⟩ | ⟨rfl, rfl, rfl⟩
  · cases renderedLiteral : literalSql value <;>
      simp [translateComparison, asColumn, asLiteral, spelled, rendered,
        shape.pushable, renderedLiteral]
  · obtain ⟨unflipped, spelledUnflipped⟩ :
        ∃ text, comparisonOpSql op = some text := by
      cases op <;> first | exact ⟨_, rfl⟩ | cases spelled
    cases renderedLiteral : literalSql value <;>
      simp [translateComparison, asColumn, asLiteral, spelled, rendered,
        spelledUnflipped, shape.pushable, renderedLiteral]

theorem exists_of_translateAnd {schema : Schema} {left right : Expr}
    {text : String} (translated :
      translateFilter schema (.binaryExpr left .and right) = some text) :
    ∃ leftText rightText, translateFilter schema left = some leftText ∧
      translateFilter schema right = some rightText ∧
        text = "(" ++ leftText ++ " AND " ++ rightText ++ ")" := by
  simp only [translateFilter, Option.bind_eq_bind,
    Option.bind_eq_some_iff] at translated
  obtain ⟨leftText, leftEq, rightText, rightEq, textEq⟩ := translated
  exact ⟨leftText, rightText, leftEq, rightEq, (Option.some.inj textEq).symm⟩

/-- The text of a test of a column is its name and the test. -/
theorem exists_of_columnTest {schema : Schema} {inner : Expr}
    {test text : String}
    (translated : (do
      let name ← asColumn inner
      let column ← columnSql name schema
      return column ++ test) = some text) :
    ∃ name, inner = .column name ∧ (∃ field ∈ schema, field.name = name) ∧
      text = quoteIdent name ++ test := by
  simp only [Option.bind_eq_bind, Option.bind_eq_some_iff] at translated
  obtain ⟨name, isColumn, column, rendered, textEq⟩ := translated
  obtain ⟨rfl, known⟩ := exists_of_columnSql rendered
  exact ⟨name, exists_of_asColumn isColumn, known,
    (Option.some.inj textEq).symm⟩

theorem exists_of_translateIsNull {schema : Schema} {inner : Expr}
    {text : String}
    (translated : translateFilter schema (.isNull inner) = some text) :
    ∃ name, inner = .column name ∧ (∃ field ∈ schema, field.name = name) ∧
      text = quoteIdent name ++ " IS NULL" := by
  rw [translateFilter] at translated
  exact exists_of_columnTest translated

theorem exists_of_translateIsNotNull {schema : Schema} {inner : Expr}
    {text : String}
    (translated : translateFilter schema (.isNotNull inner) = some text) :
    ∃ name, inner = .column name ∧ (∃ field ∈ schema, field.name = name) ∧
      text = quoteIdent name ++ " IS NOT NULL" := by
  rw [translateFilter] at translated
  exact exists_of_columnTest translated

theorem exists_of_translateInList {expr : Expr} {list : List Expr}
    {negated : Bool} {schema : Schema} {text : String}
    (translated : translateInList expr list negated schema = some text) :
    ∃ name items, expr = .column name ∧
      (∃ field ∈ schema, field.name = name) ∧ list ≠ [] ∧
      list.mapM (fun item => (asLiteral item).bind literalSql) = some items ∧
      text = quoteIdent name ++ " " ++ (if negated then "NOT IN" else "IN") ++
        " (" ++ ", ".intercalate items ++ ")" := by
  unfold translateInList at translated
  simp only [Option.bind_eq_bind, Option.bind_eq_some_iff] at translated
  obtain ⟨name, isColumn, column, rendered, translated⟩ := translated
  obtain ⟨rfl, known⟩ := exists_of_columnSql rendered
  split at translated
  · cases translated
  · rename_i nonempty
    simp only [Option.bind_eq_some_iff] at translated
    obtain ⟨items, mapped, textEq⟩ := translated
    exact ⟨name, items, exists_of_asColumn isColumn, known,
      by simpa using nonempty, mapped, (Option.some.inj textEq).symm⟩

end Pushdown

end Igloo
