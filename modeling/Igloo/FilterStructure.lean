import Igloo.Pushdown
import Igloo.RelatedResults
import Igloo.SqlSyntax

/-!
# The structure of a translated filter

What a filter expression says, independently of its text: the condition with
the column, the comparison and the literals of the filter.  The text of a
translated filter reads as exactly that condition, whatever the names and the
string values contain.
-/

namespace Igloo

namespace Pushdown

open Arrow RelatedResults SqlLexer SqlSyntax

/-- The comparison an operator stands for. -/
def comparisonOfOperator : Operator → Option Comparison
  | .eq => some .eq
  | .notEq => some .ne
  | .lt => some .lt
  | .ltEq => some .le
  | .gt => some .gt
  | .gtEq => some .ge
  | _ => none

/-- A number in positional notation. -/
def numberLiteral (negative : Bool) (text : List Char) : Literal :=
  let digits := text.takeWhile (· ≠ '.')
  match text.dropWhile (· ≠ '.') with
  | [] =>
      let value : Int := Nat.ofDigitChars 10 digits 0
      .integer (if negative then -value else value)
  | _ :: decimals => .decimal negative digits decimals

/-- The shortest decimal of a finite float. -/
def floatLiteral (value : F64) : Option Literal :=
  if value.isFinite then
    some (numberLiteral value.sign
      (F64.positional value.shortest.1 value.shortest.2))
  else none

/-- The literal a scalar stands for. -/
def literalOf : ScalarValue → Option Literal
  | .boolean (some value) => some (.boolean value)
  | .int8 (some value) => some (.integer value.toInt)
  | .int16 (some value) => some (.integer value.toInt)
  | .int32 (some value) => some (.integer value.toInt)
  | .int64 (some value) => some (.integer value.toInt)
  | .uint8 (some value) => some (.integer value.toNat)
  | .uint16 (some value) => some (.integer value.toNat)
  | .uint32 (some value) => some (.integer value.toNat)
  | .uint64 (some value) => some (.integer value.toNat)
  | .float32 (some value) => floatLiteral value.toF64
  | .float64 (some value) => floatLiteral value
  | .utf8 (some text) | .largeUtf8 (some text) | .utf8View (some text) =>
      some (.string text)
  | _ => none

/-- The condition a filter stands for. -/
def conditionOf : Expr → Option Condition
  | .binaryExpr left .and right => do
      let left ← conditionOf left
      let right ← conditionOf right
      return .and left right
  | .binaryExpr (.column name) op (.literal value) => do
      let comparison ← comparisonOfOperator op
      let literal ← literalOf value
      return .predicate (.compare name comparison literal)
  | .binaryExpr (.literal value) op (.column name) => do
      let comparison ← comparisonOfOperator op
      let literal ← literalOf value
      return .predicate (.compare name comparison.flip literal)
  | .isNull (.column name) => some (.predicate (.isNull name false))
  | .isNotNull (.column name) => some (.predicate (.isNull name true))
  | .inList (.column name) list negated => do
      let literals ← list.mapM fun item => (asLiteral item).bind literalOf
      return .predicate (.inList name negated literals)
  | _ => none

/-- A name that PostgreSQL can hold. -/
def ValidName (name : String) : Prop :=
  name ≠ "" ∧ '\x00' ∉ name.toList

instance (name : String) : Decidable (ValidName name) :=
  inferInstanceAs (Decidable (_ ∧ _))

theorem ValidName.toList_ne_nil {name : String} (valid : ValidName name) :
    name.toList ≠ [] :=
  fun empty => valid.1 (String.toList_eq_nil_iff.mp empty)

theorem toList_quoteIdent (name : String) :
    (quoteIdent name).toList = quotedText name.toList := by
  simp [quoteIdent, replaceDoubled, doubled, quotedText]

theorem readsBefore_quoteIdent {name : String} (valid : ValidName name) :
    ReadsBefore (quoteIdent name).toList [ident name] := by
  rw [toList_quoteIdent]
  exact readsBefore_quotedIdent valid.toList_ne_nil valid.2

/-! ## Literals -/

theorem ne_dot_of_isDigit {digits : List Char}
    (isDigit : ∀ ch ∈ digits, ch.isDigit) :
    ∀ ch ∈ digits, decide (ch ≠ '.') = true := by
  intro ch chMem
  have digit := isDigit ch chMem
  refine decide_eq_true ?_
  rintro rfl
  simp at digit

theorem numberLiteral_whole (negative : Bool) {digits : List Char}
    (isDigit : ∀ ch ∈ digits, ch.isDigit) :
    numberLiteral negative digits =
      .integer (if negative then -(Nat.ofDigitChars 10 digits 0 : Int)
        else Nat.ofDigitChars 10 digits 0) := by
  have whole := ne_dot_of_isDigit isDigit
  rw [numberLiteral, List.takeWhile_eq_self_iff.mpr whole,
    List.dropWhile_eq_nil_iff.mpr whole]

theorem numberLiteral_fractional (negative : Bool)
    {digits : List Char} (decimals : List Char)
    (isDigit : ∀ ch ∈ digits, ch.isDigit) :
    numberLiteral negative (digits ++ '.' :: decimals) =
      .decimal negative digits decimals := by
  have whole := ne_dot_of_isDigit isDigit
  rw [numberLiteral, List.takeWhile_append_of_pos whole,
    List.dropWhile_append_of_pos whole]
  simp

/-- The text is read as the literal. -/
def RendersLiteral (text : List Char) (literal : Literal) : Prop :=
  ∃ tokens, SpellsLiteral tokens literal ∧ ReadsBefore text tokens

/-- A number in positional notation, with or without a sign. -/
theorem rendersLiteral_number {text : List Char}
    (positional : F64.Positional text) (negative : Bool) :
    RendersLiteral ((if negative then ['-'] else []) ++ text)
      (numberLiteral negative text) := by
  cases positional with
  | whole _ nonempty isDigit =>
      have reads := readsBefore_integer nonempty isDigit
      rw [numberLiteral_whole negative isDigit]
      cases negative with
      | false => exact ⟨_, .integer _, reads⟩
      | true =>
          refine ⟨_, .negative _, ?_⟩
          cases text with
          | nil => exact absurd rfl nonempty
          | cons digit digits =>
              exact readsBefore_negative (isDigit digit List.mem_cons_self)
                reads
  | fractional digits decimals nonempty isDigit decimals_nonempty
      decimals_isDigit =>
      have reads := readsBefore_decimal nonempty isDigit decimals_isDigit
      rw [numberLiteral_fractional negative decimals isDigit]
      cases negative with
      | false => exact ⟨_, .decimal _ _, reads⟩
      | true =>
          refine ⟨_, .negativeDecimal _ _, ?_⟩
          cases digits with
          | nil => exact absurd rfl nonempty
          | cons digit digits =>
              exact readsBefore_negative (isDigit digit List.mem_cons_self)
                reads

theorem rendersLiteral_int (value : Int) :
    RendersLiteral (toString value).toList (.integer value) := by
  have isDigit (magnitude : Nat) : ∀ ch ∈ Nat.toDigits 10 magnitude,
      ch.isDigit := F64.isDigit_toDigits magnitude
  have number (magnitude : Nat) (negative : Bool) := rendersLiteral_number
    (.whole _ Nat.toDigits_ne_nil (isDigit magnitude)) negative
  simp only [numberLiteral_whole _ (isDigit _), Nat.ofDigitChars_ten_toDigits]
    at number
  cases value with
  | ofNat value =>
      have textEq : (toString (Int.ofNat value)).toList =
          Nat.toDigits 10 value := Nat.toList_repr
      rw [textEq]
      exact number value false
  | negSucc value =>
      have textEq : (toString (Int.negSucc value)).toList =
          '-' :: Nat.toDigits 10 (value + 1) := by
        simp [toString, Int.repr, Nat.toList_repr]
      rw [textEq]
      exact number (value + 1) true

theorem rendersLiteral_nat (value : Nat) :
    RendersLiteral (toString value).toList (.integer value) :=
  rendersLiteral_int (Int.ofNat value)

theorem rendersLiteral_of_escapeStringLiteral {value text : String}
    (escaped : escapeStringLiteral value = some text) :
    RendersLiteral text.toList (.string value) := by
  unfold escapeStringLiteral at escaped
  split at escaped
  · cases escaped
  · rename_i noNul
    refine ⟨_, .string value, ?_⟩
    have textEq : text.toList = '\'' :: (doubled '\'' value.toList ++ ['\'']) := by
      rw [← Option.some.inj escaped]
      simp [replaceDoubled, doubled]
    rw [textEq]
    exact readsBefore_string noNul

theorem rendersLiteral_of_finiteFloatSql {value : F64} {text : String}
    (rendered : finiteFloatSql value = some text) :
    ∃ literal, floatLiteral value = some literal ∧
      RendersLiteral text.toList literal := by
  unfold finiteFloatSql at rendered
  split at rendered
  · rename_i finite
    refine ⟨_, if_pos finite, ?_⟩
    rw [← Option.some.inj rendered, F64.display, String.toList_ofList]
    exact rendersLiteral_number (F64.positional_positional _ _) value.sign
  · cases rendered

theorem rendersLiteral_of_literalSql {value : ScalarValue} {text : String}
    (rendered : literalSql value = some text) :
    ∃ literal, literalOf value = some literal ∧
      RendersLiteral text.toList literal := by
  unfold literalSql at rendered
  split at rendered
  case h_1 value =>
    refine ⟨_, rfl, _, .boolean value, ?_⟩
    rw [← Option.some.inj rendered]
    cases value <;> exact readsBefore_word fun _ _ => rfl
  case h_2 | h_3 | h_4 | h_5 =>
    rw [← Option.some.inj rendered]
    exact ⟨_, rfl, rendersLiteral_int _⟩
  case h_6 | h_7 | h_8 | h_9 =>
    rw [← Option.some.inj rendered]
    exact ⟨_, rfl, rendersLiteral_nat _⟩
  case h_10 | h_11 => exact rendersLiteral_of_finiteFloatSql rendered
  case h_12 | h_13 | h_14 =>
    exact ⟨_, rfl, rendersLiteral_of_escapeStringLiteral rendered⟩
  case h_15 => cases rendered

/-! ## Conditions -/

/-- The text is read as the condition. -/
def RendersCondition (text : List Char) (condition : Condition) : Prop :=
  ∃ tokens, SpellsCondition tokens condition ∧ ReadsBefore text tokens

theorem comparisonOpSql_eq (op : Operator) :
    comparisonOpSql op = (comparisonOfOperator op).map Comparison.text := by
  cases op <;> rfl

theorem comparisonOfOperator_flipOperator (op : Operator) :
    comparisonOfOperator (flipOperator op) =
      (comparisonOfOperator op).map Comparison.flip := by
  cases op <;> rfl

theorem conditionOf_of_oriented {left right : Expr} {op oriented : Operator}
    {name : String} {value : ScalarValue} {comparison : Comparison}
    {literal : Literal} (shape : Oriented left op right name oriented value)
    (comparisonEq : comparisonOfOperator oriented = some comparison)
    (literalEq : literalOf value = some literal) :
    conditionOf (.binaryExpr left op right) =
      some (.predicate (.compare name comparison literal)) := by
  rcases shape.operands with ⟨rfl, rfl, rfl⟩ | ⟨rfl, rfl, rfl⟩
  · cases oriented <;> simp_all [conditionOf, comparisonOfOperator]
  · rw [comparisonOfOperator_flipOperator] at comparisonEq
    obtain ⟨unflipped, unflippedEq, rfl⟩ :=
      Option.map_eq_some_iff.mp comparisonEq
    cases op <;> simp_all [conditionOf, comparisonOfOperator]

theorem reads_comparison (comparison : Comparison) :
    Reads (" " ++ comparison.text ++ " ").toList [comparison.token] := by
  intro before rest
  cases comparison <;> rfl

theorem neutral_comparison (comparison : Comparison) (rest : List Char) :
    Neutral ((" " ++ comparison.text ++ " ").toList ++ rest) := by
  cases comparison <;> exact ⟨by decide, by decide⟩

theorem rendersCondition_compare {name text : String} (valid : ValidName name)
    (comparison : Comparison) {literal : Literal}
    (renders : RendersLiteral text.toList literal) :
    RendersCondition
      (quoteIdent name ++ " " ++ comparison.text ++ " " ++ text).toList
      (.predicate (.compare name comparison literal)) := by
  obtain ⟨tokens, spells, reads⟩ := renders
  refine ⟨_, .predicate (.compare name comparison spells), ?_⟩
  have whole := ((readsBefore_quoteIdent valid).append_reads
    (neutral_comparison comparison)
    (reads_comparison comparison)).append_readsBefore reads
  simpa using whole

theorem readsBefore_nullTest (negated : Bool) :
    ReadsBefore (if negated then " IS NOT NULL" else " IS NULL").toList
      (keyword "is" :: (notTokens negated ++ [keyword "null"])) := by
  have isWord : Reads " IS ".toList [keyword "is"] := fun _ _ => rfl
  have notWord : Reads "NOT ".toList [keyword "not"] := fun _ _ => rfl
  have nullWord : ReadsBefore "NULL".toList [keyword "null"] :=
    readsBefore_word fun _ _ => rfl
  cases negated with
  | false => exact isWord.append_readsBefore nullWord
  | true => exact isWord.append_readsBefore (notWord.append_readsBefore nullWord)

theorem rendersCondition_isNull {name : String} (valid : ValidName name)
    (negated : Bool) :
    RendersCondition
      (quoteIdent name ++ if negated then " IS NOT NULL" else " IS NULL").toList
      (.predicate (.isNull name negated)) := by
  refine ⟨_, .predicate (.isNull name negated), ?_⟩
  have whole := (readsBefore_quoteIdent valid).append_readsBefore
    (fun rest => by cases negated <;> exact ⟨by decide, by decide⟩)
    (readsBefore_nullTest negated)
  rw [String.toList_append]
  exact whole

theorem reads_listStart (negated : Bool) :
    Reads (" " ++ (if negated then "NOT IN" else "IN") ++ " (").toList
      (notTokens negated ++ [keyword "in", .punctuation '(']) := by
  intro before rest
  cases negated <;> rfl

theorem exists_items {list : List Expr} {items : List String}
    (rendered : List.Forall₂
      (fun item text => (asLiteral item).bind literalSql = some text)
      list items) :
    ∃ literals pieces,
      list.mapM (fun item => (asLiteral item).bind literalOf) =
          some literals ∧
        List.Forall₂ SpellsLiteral pieces literals ∧
        List.Forall₂ (fun text tokens => ReadsBefore text.toList tokens)
          items pieces := by
  induction rendered with
  | nil => exact ⟨[], [], rfl, .nil, .nil⟩
  | cons here later induction =>
      obtain ⟨literals, pieces, mapped, spells, reads⟩ := induction
      obtain ⟨value, isLiteral, renderedLiteral⟩ :=
        Option.bind_eq_some_iff.mp here
      obtain ⟨literal, literalEq, tokens, spellsHere, readsHere⟩ :=
        rendersLiteral_of_literalSql renderedLiteral
      refine ⟨literal :: literals, tokens :: pieces, ?_,
        .cons spellsHere spells, .cons readsHere reads⟩
      simp [List.mapM_cons, isLiteral, literalEq, mapped]

theorem neutral_comma (rest : List Char) : Neutral (", ".toList ++ rest) :=
  trivial

theorem neutral_parenthesis (rest : List Char) :
    Neutral (")".toList ++ rest) :=
  trivial

theorem reads_comma : Reads ", ".toList [.punctuation ','] :=
  fun _ _ => rfl

theorem rendersCondition_inList {name : String} (valid : ValidName name)
    (negated : Bool) {list : List Expr} {items : List String}
    (nonempty : list ≠ [])
    (rendered : List.Forall₂
      (fun item text => (asLiteral item).bind literalSql = some text)
      list items) :
    ∃ literals,
      list.mapM (fun item => (asLiteral item).bind literalOf) =
          some literals ∧
        RendersCondition
          (quoteIdent name ++ " " ++ (if negated then "NOT IN" else "IN") ++
            " (" ++ ", ".intercalate items ++ ")").toList
          (.predicate (.inList name negated literals)) := by
  obtain ⟨literals, pieces, mapped, spells, reads⟩ := exists_items rendered
  have itemsNonempty : items.map String.toList ≠ [] := by
    cases rendered <;> simp_all
  have literalsNonempty : literals ≠ [] := by
    cases rendered with
    | nil => exact absurd rfl nonempty
    | cons =>
        cases reads
        cases spells
        exact List.cons_ne_nil _ _
  refine ⟨literals, mapped, _, .predicate
    (.inList name negated literalsNonempty spells), ?_⟩
  have listed := readsBefore_intercalate
    (List.forall₂_map_left_iff.mpr reads) neutral_comma reads_comma
    itemsNonempty
  have closed : Reads ")".toList [.punctuation ')'] := fun _ _ => rfl
  have whole := (((readsBefore_quoteIdent valid).append_reads
    (fun rest => by cases negated <;> exact ⟨by decide, by decide⟩)
    (reads_listStart negated)).append_readsBefore listed).append_reads
    neutral_parenthesis closed
  simpa [String.toList_intercalate] using whole.readsBefore

theorem neutral_and (rest : List Char) : Neutral (" AND ".toList ++ rest) :=
  ⟨by decide, by decide⟩

theorem reads_and : Reads " AND ".toList [keyword "and"] :=
  fun _ _ => rfl

theorem rendersCondition_and {left right : String}
    {leftCondition rightCondition : Condition}
    (renders_left : RendersCondition left.toList leftCondition)
    (renders_right : RendersCondition right.toList rightCondition) :
    RendersCondition ("(" ++ left ++ " AND " ++ right ++ ")").toList
      (.and leftCondition rightCondition) := by
  obtain ⟨leftTokens, spells_left, reads_left⟩ := renders_left
  obtain ⟨rightTokens, spells_right, reads_right⟩ := renders_right
  refine ⟨_, .and spells_left spells_right, ?_⟩
  have opened : Reads "(".toList [.punctuation '('] := fun _ _ => rfl
  have closed : Reads ")".toList [.punctuation ')'] := fun _ _ => rfl
  have whole := opened.append (((reads_left.append_reads neutral_and
    reads_and).append_readsBefore reads_right).append_reads
      neutral_parenthesis closed)
  simpa [List.intercalate_cons_cons] using whole.readsBefore

/-- A translated filter is read as the condition that the filter stands for. -/
theorem rendersCondition_of_translateFilter {schema : Schema}
    (valid : ∀ field ∈ schema, ValidName field.name) {filter : Expr}
    {text : String} (translated : translateFilter schema filter = some text) :
    ∃ condition, conditionOf filter = some condition ∧
      RendersCondition text.toList condition := by
  have validName {name : String}
      (known : ∃ field ∈ schema, field.name = name) : ValidName name := by
    obtain ⟨field, fieldMem, rfl⟩ := known
    exact valid field fieldMem
  induction filter using translateFilter.induct generalizing text with
  | case1 left right induction_left induction_right =>
      obtain ⟨leftText, rightText, translated_left, translated_right, rfl⟩ :=
        exists_of_translateAnd translated
      obtain ⟨leftCondition, leftEq, renders_left⟩ :=
        induction_left translated_left
      obtain ⟨rightCondition, rightEq, renders_right⟩ :=
        induction_right translated_right
      exact ⟨.and leftCondition rightCondition,
        by simp [conditionOf, leftEq, rightEq],
        rendersCondition_and renders_left renders_right⟩
  | case2 left op right notAnd =>
      rw [translateFilter.eq_2 _ _ _ _ notAnd] at translated
      obtain ⟨name, oriented, value, sqlOp, literalText, shape, spelled, known,
        rendered, rfl⟩ := exists_of_translateComparison translated
      rw [comparisonOpSql_eq] at spelled
      obtain ⟨comparison, comparisonEq, rfl⟩ :=
        Option.map_eq_some_iff.mp spelled
      obtain ⟨literal, literalEq, renders⟩ :=
        rendersLiteral_of_literalSql rendered
      exact ⟨_, conditionOf_of_oriented shape comparisonEq literalEq,
        rendersCondition_compare (validName known) comparison renders⟩
  | case3 inner =>
      obtain ⟨name, rfl, known, rfl⟩ := exists_of_translateIsNull translated
      exact ⟨_, rfl, rendersCondition_isNull (validName known) false⟩
  | case4 inner =>
      obtain ⟨name, rfl, known, rfl⟩ :=
        exists_of_translateIsNotNull translated
      exact ⟨_, rfl, rendersCondition_isNull (validName known) true⟩
  | case5 expr list negated =>
      obtain ⟨name, items, rfl, known, nonempty, mapped, rfl⟩ :=
        exists_of_translateInList translated
      obtain ⟨literals, literalsEq, renders⟩ :=
        rendersCondition_inList (validName known) negated nonempty
          (mapM_eq_some_iff.mp mapped)
      exact ⟨_, by simp [conditionOf, literalsEq], renders⟩
  | case6 filter notAnd notBinary notIsNull notIsNotNull notInList =>
      rw [translateFilter.eq_6 _ _ notAnd notBinary notIsNull notIsNotNull
        notInList] at translated
      cases translated

/-! ## Values that cannot be pushed -/

theorem columnSql_of_known {schema : Schema} {name : String}
    (known : ∃ field ∈ schema, field.name = name) :
    columnSql name schema = some (quoteIdent name) := by
  obtain ⟨field, fieldMem, rfl⟩ := known
  exact if_pos (List.any_eq_true.mpr ⟨field, fieldMem, by simp⟩)

theorem isSome_translateFilter_of_oriented {left right : Expr}
    {op oriented : Operator} {name : String} {value : ScalarValue}
    {comparison : Comparison} {schema : Schema}
    (shape : Oriented left op right name oriented value)
    (isComparison : comparisonOfOperator oriented = some comparison)
    (known : ∃ field ∈ schema, field.name = name) :
    (translateFilter schema (.binaryExpr left op right)).isSome ↔
      (literalSql value).isSome := by
  have notAnd : op ≠ .and := by
    rintro rfl
    rcases shape.operands with ⟨-, -, rfl⟩ | ⟨-, -, rfl⟩ <;>
      cases isComparison
  have spelled : comparisonOpSql oriented = some comparison.text := by
    rw [comparisonOpSql_eq, isComparison, Option.map_some]
  rw [translateFilter.eq_2 _ _ _ _ notAnd,
    translateComparison_of_oriented shape spelled (columnSql_of_known known),
    Option.isSome_map]

/-- A list is pushed if it is not empty and all its literals are rendered. -/
theorem isSome_translateFilter_inList {name : String}
    {values : List ScalarValue} {negated : Bool} {schema : Schema}
    (known : ∃ field ∈ schema, field.name = name) :
    (translateFilter schema
        (.inList (.column name) (values.map .literal) negated)).isSome ↔
      values ≠ [] ∧ ∀ value ∈ values, (literalSql value).isSome := by
  have rendered : ((values.map Expr.literal).mapM fun item =>
      (asLiteral item).bind literalSql).isSome ↔
        ∀ value ∈ values, (literalSql value).isSome := by
    rw [isSome_mapM_iff, List.forall_mem_map]
    rfl
  rw [← rendered]
  simp only [translateFilter, translateInList, asColumn,
    columnSql_of_known known, Option.bind_eq_bind, Option.bind_some,
    List.isEmpty_iff, List.map_eq_nil_iff]
  by_cases empty : values = []
  · simp [empty]
  · rw [if_neg empty]
    simp only [ne_eq, empty, not_false_eq_true, true_and]
    cases (values.map Expr.literal).mapM fun item =>
      (asLiteral item).bind literalSql <;> simp

/-- The literals of a filter. -/
def literalsIn : Expr → List ScalarValue
  | .literal value => [value]
  | .binaryExpr left _ right => literalsIn left ++ literalsIn right
  | .isNull inner => literalsIn inner
  | .isNotNull inner => literalsIn inner
  | .inList expr list _ => literalsIn expr ++ list.filterMap asLiteral
  | _ => []

/-- The string value of a scalar. -/
def stringValue : ScalarValue → Option String
  | .utf8 value | .largeUtf8 value | .utf8View value => value
  | _ => none

theorem isSome_literalSql_of_forall₂ {list : List Expr} {items : List String}
    (rendered : List.Forall₂
      (fun item text => (asLiteral item).bind literalSql = some text)
      list items) :
    ∀ value ∈ list.filterMap asLiteral, (literalSql value).isSome := by
  induction rendered with
  | nil => simp
  | cons here later induction =>
      obtain ⟨value, isLiteral, renderedLiteral⟩ :=
        Option.bind_eq_some_iff.mp here
      rw [List.filterMap_cons_some isLiteral]
      exact List.forall_mem_cons.mpr ⟨by simp [renderedLiteral], induction⟩

theorem isSome_literalSql_of_translateFilter {schema : Schema}
    {filter : Expr} {text : String}
    (translated : translateFilter schema filter = some text) :
    ∀ value ∈ literalsIn filter, (literalSql value).isSome := by
  induction filter using translateFilter.induct generalizing text with
  | case1 left right induction_left induction_right =>
      obtain ⟨leftText, rightText, translated_left, translated_right, -⟩ :=
        exists_of_translateAnd translated
      rw [literalsIn, List.forall_mem_append]
      exact ⟨induction_left translated_left, induction_right translated_right⟩
  | case2 left op right notAnd =>
      rw [translateFilter.eq_2 _ _ _ _ notAnd] at translated
      obtain ⟨name, oriented, value, sqlOp, literalText, shape, -, -, rendered,
        -⟩ := exists_of_translateComparison translated
      rcases shape.operands with ⟨rfl, rfl, -⟩ | ⟨rfl, rfl, -⟩ <;>
        simp [literalsIn, rendered]
  | case3 inner =>
      obtain ⟨name, rfl, -, -⟩ := exists_of_translateIsNull translated
      simp [literalsIn]
  | case4 inner =>
      obtain ⟨name, rfl, -, -⟩ := exists_of_translateIsNotNull translated
      simp [literalsIn]
  | case5 expr list negated =>
      obtain ⟨name, items, rfl, -, -, mapped, -⟩ :=
        exists_of_translateInList translated
      simpa [literalsIn] using isSome_literalSql_of_forall₂
        (mapM_eq_some_iff.mp mapped)
  | case6 filter notAnd notBinary notIsNull notIsNotNull notInList =>
      rw [translateFilter.eq_6 _ _ notAnd notBinary notIsNull notIsNotNull
        notInList] at translated
      cases translated

/-- A filter with a string value that contains NUL is not pushed. -/
theorem translateFilter_of_nul (schema : Schema) {filter : Expr}
    {value : ScalarValue} (valueMem : value ∈ literalsIn filter)
    {text : String} (isString : stringValue value = some text)
    (nul : '\x00' ∈ text.toList) : translateFilter schema filter = none := by
  cases translated : translateFilter schema filter with
  | none => rfl
  | some sql =>
      have rendered :=
        isSome_literalSql_of_translateFilter translated value valueMem
      cases value <;> simp only [stringValue, reduceCtorEq] at isString <;>
        subst isString <;> simp [literalSql, escapeStringLiteral, nul]
          at rendered

end Pushdown

end Igloo
