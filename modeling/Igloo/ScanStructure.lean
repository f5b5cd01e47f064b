import Igloo.FilterStructure
import Igloo.PostgresTable

/-!
# The structure of the generated SQL

The text of a scan reads as one statement with the given columns, relation,
conditions and limit.  No name and no string value adds a token to it.
-/

namespace Igloo

namespace PostgresTable

open Arrow Pushdown SqlLexer SqlSyntax

/-- The statement a scan stands for. -/
def scanStatement (schemaName tableName : String) (projectedFields : Schema)
    (conditions : List Condition) (limit : Option Nat) : Statement :=
  if projectedFields.isEmpty then
    .count ⟨schemaName, tableName, conditions, limit⟩
  else
    .select (projectedFields.map Field.name)
      ⟨schemaName, tableName, conditions, limit⟩

theorem readsBefore_quoteRelation {schemaName tableName : String}
    (schemaValid : ValidName schemaName) (tableValid : ValidName tableName) :
    ReadsBefore (quoteRelation schemaName tableName).toList
      [ident schemaName, .punctuation '.', ident tableName] := by
  have whole := readsBefore_qualified schemaValid.toList_ne_nil schemaValid.2
    tableValid.toList_ne_nil tableValid.2
  simpa [quoteRelation, toList_quoteIdent, ident] using whole

theorem exists_clauses {conjuncts : List String}
    {conditions : List Condition}
    (renders : List.Forall₂
      (fun text condition => RendersCondition text.toList condition)
      conjuncts conditions) :
    ∃ clauses, List.Forall₂ SpellsCondition clauses conditions ∧
      List.Forall₂ ReadsBefore (conjuncts.map String.toList) clauses := by
  induction renders with
  | nil => exact ⟨[], .nil, .nil⟩
  | cons here later induction =>
      obtain ⟨tokens, spells, reads⟩ := here
      obtain ⟨clauses, spellsLater, readsLater⟩ := induction
      exact ⟨tokens :: clauses, .cons spells spellsLater,
        .cons reads readsLater⟩

/-- The `WHERE` clause of a scan, which is empty without conjuncts. -/
theorem continues_whereClause {conjuncts : List String}
    {clauses : List (List Token)}
    (reads : List.Forall₂ ReadsBefore (conjuncts.map String.toList) clauses) :
    Continues (whereClause conjuncts).toList (whereTokens clauses) := by
  cases conjuncts with
  | nil =>
      cases reads
      exact continues_nil
  | cons first rest =>
      cases reads with
      | cons here later =>
          have opened : Reads " WHERE ".toList [keyword "where"] :=
            fun _ _ => rfl
          have joined := opened.append_readsBefore (readsBefore_intercalate
            (.cons here later) neutral_and reads_and (List.cons_ne_nil _ _))
          have neutral (rest : List Char) :
              Neutral (" WHERE ".toList ++ rest) :=
            ⟨by decide, by decide⟩
          have clause := joined.continues
            fun rest => List.append_assoc .. ▸ neutral _
          simpa [whereClause, String.toList_intercalate, whereTokens] using
            clause

theorem continues_limitClause (limit : Option Nat) :
    Continues (limitClause limit).toList (limitTokens limit) := by
  cases limit with
  | none => exact continues_nil
  | some limit =>
      have opened : Reads " LIMIT ".toList [keyword "limit"] :=
        fun _ _ => rfl
      have digits : ReadsBefore (toString limit).toList [.integer limit] := by
        have reads := readsBefore_integer
          (Nat.toDigits_ne_nil : Nat.toDigits 10 limit ≠ [])
          (F64.isDigit_toDigits limit)
        rw [Nat.ofDigitChars_ten_toDigits] at reads
        simpa [Nat.toList_repr] using reads
      have neutral (rest : List Char) : Neutral (" LIMIT ".toList ++ rest) :=
        ⟨by decide, by decide⟩
      have clause := (opened.append_readsBefore digits).continues
        fun rest => List.append_assoc .. ▸ neutral _
      simpa [limitClause, limitTokens] using clause

/-- The table, the conditions and the limit of a scan are read back. -/
theorem exists_spellsScan {schemaName tableName : String}
    (schemaValid : ValidName schemaName) (tableValid : ValidName tableName)
    {conjuncts : List String} {conditions : List Condition}
    (renders : List.Forall₂
      (fun text condition => RendersCondition text.toList condition)
      conjuncts conditions) (limit : Option Nat) :
    ∃ tokens,
      SpellsScan tokens ⟨schemaName, tableName, conditions, limit⟩ ∧
        ReadsBefore
          (quoteRelation schemaName tableName ++ whereClause conjuncts ++
            limitClause limit).toList tokens := by
  obtain ⟨clauses, spells, reads⟩ := exists_clauses renders
  have whole := continues_limitClause limit _ _
    (continues_whereClause reads _ _
      (readsBefore_quoteRelation schemaValid tableValid))
  refine ⟨_, .scan schemaName tableName spells limit, ?_⟩
  simpa using whole

theorem exists_spells_buildScanSql {schemaName tableName : String}
    {projectedFields : Schema} (schemaValid : ValidName schemaName)
    (tableValid : ValidName tableName)
    (projectedValid : ∀ field ∈ projectedFields, ValidName field.name)
    {conjuncts : List String} {conditions : List Condition}
    (renders : List.Forall₂
      (fun text condition => RendersCondition text.toList condition)
      conjuncts conditions) (limit : Option Nat) :
    ∃ tokens,
      lex (buildScanSql schemaName tableName projectedFields conjuncts limit) =
          some tokens ∧
        SpellsStatement tokens (scanStatement schemaName tableName
          projectedFields conditions limit) := by
  obtain ⟨tokens, spells, reads⟩ :=
    exists_spellsScan schemaValid tableValid renders limit
  by_cases empty : projectedFields.isEmpty
  · refine ⟨_, ReadsBefore.lex ?_,
      by rw [scanStatement, if_pos empty]; exact .count spells⟩
    have opened : Reads "SELECT COUNT(*) FROM (SELECT 1 FROM ".toList
        (keyword "select" :: countTokens) := fun _ _ => rfl
    have closed : Reads ") AS ".toList [.punctuation ')', keyword "as"] :=
      fun _ _ => rfl
    have tableAlias : ReadsBefore "t".toList [keyword "t"] :=
      readsBefore_word fun _ _ => rfl
    have whole := (opened.append_readsBefore reads).append_readsBefore
      (fun rest => List.append_assoc .. ▸ trivial)
      (closed.append_readsBefore tableAlias)
    simpa [buildScanSql, empty, countTokens, subqueryEndTokens] using whole
  · refine ⟨_, ReadsBefore.lex ?_, by
      rw [scanStatement, if_neg empty]
      exact .select (by simpa using empty) spells⟩
    have opened : Reads "SELECT ".toList [keyword "select"] := fun _ _ => rfl
    have fromWord : Reads " FROM ".toList [keyword "from"] := fun _ _ => rfl
    have fromNeutral (rest : List Char) : Neutral (" FROM ".toList ++ rest) :=
      ⟨by decide, by decide⟩
    have names : List.Forall₂ ReadsBefore
        (projectedFields.map fun field => (quoteIdent field.name).toList)
        (projectedFields.map fun field => [ident field.name]) := by
      rw [List.forall₂_map_left_iff, List.forall₂_map_right_iff]
      exact List.forall₂_same.mpr fun field fieldMem =>
        readsBefore_quoteIdent (projectedValid field fieldMem)
    have listed := readsBefore_intercalate names neutral_comma reads_comma
      (by simpa using empty)
    have whole := ((opened.append_readsBefore listed).append_reads fromNeutral
      fromWord).append_readsBefore reads
    simpa [buildScanSql, empty, String.toList_intercalate, Function.comp_def]
      using whole

/-- The filters that are translated, in order. -/
def pushedFilters (schema : Schema) (filters : List Expr) : List Expr :=
  filters.filter fun filter => (translateFilter schema filter).isSome

theorem exists_conditions {schema : Schema}
    (valid : ∀ field ∈ schema, ValidName field.name) (filters : List Expr) :
    ∃ conditions,
      (pushedFilters schema filters).map conditionOf = conditions.map some ∧
        List.Forall₂
          (fun text condition => RendersCondition text.toList condition)
          (filters.filterMap (translateFilter schema)) conditions := by
  induction filters with
  | nil => exact ⟨[], rfl, .nil⟩
  | cons filter filters induction =>
      obtain ⟨conditions, conditionsEq, renders⟩ := induction
      cases translated : translateFilter schema filter with
      | none =>
          refine ⟨conditions, ?_, ?_⟩
          · simpa [pushedFilters, translated] using conditionsEq
          · simpa [List.filterMap_cons_none translated] using renders
      | some text =>
          obtain ⟨condition, conditionEq, rendersHere⟩ :=
            rendersCondition_of_translateFilter valid translated
          refine ⟨condition :: conditions, ?_, ?_⟩
          · simpa [pushedFilters, translated, conditionEq] using conditionsEq
          · rw [List.filterMap_cons_some translated]
            exact .cons rendersHere renders

/-- The generated SQL is one statement with the given columns, relation,
conditions and limit, whatever characters the names and values contain, and a
filter with a string value that contains NUL is no part of it. -/
theorem readStatement_buildScanSql {schemaName tableName : String}
    {schema projectedFields : Schema} (schemaValid : ValidName schemaName)
    (tableValid : ValidName tableName)
    (columnsValid : ∀ field ∈ schema, ValidName field.name)
    (projectedValid : ∀ field ∈ projectedFields, ValidName field.name)
    (filters : List Expr) (limit : Option Nat) :
    (∃ tokens conditions,
      lex (buildScanSql schemaName tableName projectedFields
          (filters.filterMap (translateFilter schema)) limit) = some tokens ∧
        (∀ token ∈ tokens,
          token ≠ .comment ∧ token ≠ .punctuation ';') ∧
        (pushedFilters schema filters).map conditionOf =
          conditions.map some ∧
        SpellsStatement tokens (scanStatement schemaName tableName
          projectedFields conditions limit) ∧
        readStatement tokens = some (scanStatement schemaName tableName
          projectedFields conditions limit)) ∧
      ∀ filter ∈ filters, ∀ value ∈ literalsIn filter, ∀ text,
        stringValue value = some text → '\x00' ∈ text.toList →
          translateFilter schema filter = none := by
  refine ⟨?_, fun filter _ value valueMem text isString nul =>
    translateFilter_of_nul schema valueMem isString nul⟩
  obtain ⟨conditions, conditionsEq, renders⟩ :=
    exists_conditions columnsValid filters
  obtain ⟨tokens, lexed, spells⟩ := exists_spells_buildScanSql schemaValid
    tableValid projectedValid renders limit
  exact ⟨tokens, conditions, lexed, spells.harmless, conditionsEq, spells,
    readStatement_of_spells spells⟩

/-- A name that tries to end the statement. -/
def hostileField : Field :=
  ⟨"a\"; --", .utf8, true, none⟩

/-- A value that tries to end the statement. -/
def hostileFilter : Expr :=
  .inList (.column "a\"; --")
    [.literal (.utf8 (some "'; DROP TABLE t; --"))] true

def hostileCondition : Condition :=
  .predicate (.inList "a\"; --" true [.string "'; DROP TABLE t; --"])

theorem readStatement_buildScanSql_hostile :
    ∃ tokens,
      lex (buildScanSql "s" "t" [hostileField]
          ([hostileFilter].filterMap (translateFilter [hostileField]))
          (some 3)) = some tokens ∧
        readStatement tokens = some (.select ["a\"; --"]
          ⟨"s", "t", [hostileCondition], some 3⟩) := by
  have valid : ∀ given ∈ [hostileField], ValidName given.name := by decide
  obtain ⟨⟨tokens, conditions, lexed, -, conditionsEq, -, read⟩, -⟩ :=
    readStatement_buildScanSql (show ValidName "s" by decide)
      (show ValidName "t" by decide) valid valid [hostileFilter] (some 3)
  have pushed : (pushedFilters [hostileField] [hostileFilter]).map
      conditionOf = [hostileCondition].map some := by decide
  obtain rfl : conditions = [hostileCondition] :=
    List.map_injective_iff.mpr (Option.some_injective _)
      (conditionsEq.symm.trans pushed)
  exact ⟨tokens, lexed, read⟩

end PostgresTable

end Igloo
