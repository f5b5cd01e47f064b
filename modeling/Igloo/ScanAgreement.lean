import Igloo.FilterSemantics
import Igloo.ScanStructure

/-!
# Pushed and unpushed scans agree

A scan returns rows of the table, and never misses one that passes all
filters: the pushed conditions are true of exactly the rows on which the
translated filters are true, and the limit is pushed only when every filter
is translated.  Filtering and limiting the returned rows again therefore gives
a correct answer, with filter pushdown on or off.
-/

namespace Igloo

namespace PostgresTable

open Arrow Pushdown SqlLexer SqlSyntax SqlSemantics

/-- Whether the engine keeps a row. -/
def passes (other : Expr → Row Datum → Truth) (filters : List Expr)
    (row : Row Datum) : Bool :=
  filters.all fun filter => evalFilter other row filter = .true

/-- The engine's own filtering and limiting of the rows of a scan. -/
def refine (pass : Row Datum → Bool) (limit : Option Nat)
    (rows : List (Row Datum)) : List (Row Datum) :=
  match limit with
  | some n => (rows.filter pass).take n
  | none => rows.filter pass

/-- An answer to a filtered and limited query: the matching rows in some
order, up to the limit. -/
def CorrectAnswer (pass : Row Datum → Bool) (limit : Option Nat)
    (rows answer : List (Row Datum)) : Prop :=
  ∃ arranged : List (Row Datum), arranged.Perm (rows.filter pass) ∧
    answer =
      match limit with
      | some n => arranged.take n
      | none => arranged

/-- The batch that presents rows under a projection. -/
def batchOf (fields : Schema) (kept : List (Row Datum)) : ScanBatch Datum where
  columns := fields.map fun field => kept.map fun row => row field.name
  numRows := kept.length
  rowsFetched := if fields.isEmpty then 0 else kept.length

/-- A table whose columns are integers, booleans and texts, with names that
PostgreSQL can hold. -/
structure PlainTable (provider : Provider) : Prop where
  schemaValid : ValidName provider.schemaName
  tableValid : ValidName provider.tableName
  columnsValid : ∀ field ∈ provider.schema, ValidName field.name
  kinds : ∀ field ∈ provider.schema, (dataKind field.dataType).isSome

namespace Provider

/-- The filters whose translations are the conjuncts of a scan. -/
def pushed (provider : Provider) (filters : List Expr) : List Expr :=
  if provider.filterPushdown then pushedFilters provider.schema filters else []

variable {provider : Provider} {filters : List Expr}

theorem length_whereConjuncts (provider : Provider) (filters : List Expr) :
    (provider.whereConjuncts filters).length =
      (provider.pushed filters).length := by
  unfold whereConjuncts pushed
  split
  · induction filters with
    | nil => rfl
    | cons filter filters induction =>
        cases translated : translateFilter provider.schema filter <;>
          simp [pushedFilters, translated] at induction ⊢ <;> exact induction
  · rfl

theorem mem_of_mem_pushed {filter : Expr}
    (filterMem : filter ∈ provider.pushed filters) :
    filter ∈ filters ∧ (translateFilter provider.schema filter).isSome := by
  unfold pushed at filterMem
  split at filterMem
  · exact List.mem_filter.mp filterMem
  · cases filterMem

theorem pushed_sublist (provider : Provider) (filters : List Expr) :
    (provider.pushed filters).Sublist filters := by
  unfold pushed
  split
  · exact List.filter_sublist
  · exact List.nil_sublist _

theorem exists_conditions (plain : PlainTable provider)
    (filters : List Expr) :
    ∃ conditions,
      (provider.pushed filters).map conditionOf = conditions.map some ∧
        List.Forall₂
          (fun text condition => RendersCondition text.toList condition)
          (provider.whereConjuncts filters) conditions := by
  unfold pushed whereConjuncts
  split
  · exact PostgresTable.exists_conditions plain.columnsValid filters
  · exact ⟨[], rfl, .nil⟩

/-- The limit is pushed only when all filters are. -/
theorem pushed_eq_of_effectiveLimit {limit : Option Nat} {n : Nat}
    (pushedLimit : provider.effectiveLimit filters limit = some n) :
    limit = some n ∧ provider.pushed filters = filters := by
  unfold effectiveLimit PostgresTable.pushedLimit at pushedLimit
  split at pushedLimit
  · rename_i all
    rw [length_whereConjuncts] at all
    exact ⟨pushedLimit, (pushed_sublist provider filters).eq_of_length all⟩
  · cases pushedLimit

theorem mem_of_projectField {schema : Schema} {index : Nat} {field : Field}
    (found : projectField schema index = .ok field) : field ∈ schema := by
  unfold projectField at found
  split at found
  · rename_i found'
    cases found
    exact List.mem_of_getElem? found'
  · cases found

theorem mem_of_project {schema : Schema} {indices : List Nat}
    {fields : Schema} (projected : project schema indices = .ok fields) :
    ∀ field ∈ fields, field ∈ schema := by
  induction indices generalizing fields with
  | nil =>
      cases projected
      simp
  | cons index indices induction =>
      rw [project, List.mapM_cons, ← project] at projected
      cases found : projectField schema index with
      | error message => simp [found, bind, Except.bind] at projected
      | ok field =>
          cases later : project schema indices with
          | error message => simp [found, later, bind, Except.bind] at projected
          | ok others =>
              obtain rfl : field :: others = fields := by
                simpa [found, later, bind, Except.bind, pure, Except.pure]
                  using projected
              exact List.forall_mem_cons.mpr
                ⟨mem_of_projectField found, induction later⟩

theorem mem_of_projectedSchema {projection : Option (List Nat)}
    {fields : Schema}
    (projected : provider.projectedSchema projection = .ok fields) :
    ∀ field ∈ fields, field ∈ provider.schema := by
  cases projection with
  | none =>
      cases projected
      exact fun _ fieldMem => fieldMem
  | some indices => exact mem_of_project projected

end Provider

section Scans

variable {collation : String → String → Ordering} {provider : Provider}
variable {filters : List Expr}

theorem whereTruth_eq (deterministic : ∀ left right,
      collation left right = .eq ↔ left = right)
    (wellTyped : ∀ filter ∈ filters, WellTyped provider.schema filter)
    {conditions : List Condition}
    (conditionsEq : (provider.pushed filters).map conditionOf =
      conditions.map some) (other : Expr → Row Datum → Truth) :
    (∀ condition ∈ conditions,
        accepted (columnsOf collation provider.schema) condition) ∧
      ∀ row,
        whereTruth (columnsOf collation provider.schema) conditions row =
          Truth.all ((provider.pushed filters).map
            (evalFilter other row)) := by
  have each : ∀ filter ∈ provider.pushed filters, ∀ condition,
      conditionOf filter = some condition →
        accepted (columnsOf collation provider.schema) condition ∧
          ∀ row, truth (columnsOf collation provider.schema) row condition =
            evalFilter other row filter := by
    intro filter filterMem condition conditionEq
    obtain ⟨given, isTranslated⟩ := Provider.mem_of_mem_pushed filterMem
    obtain ⟨text, translated⟩ := Option.isSome_iff_exists.mp isTranslated
    exact truth_conditionOf deterministic translated (wellTyped filter given)
      conditionEq other
  have conditionOfPushed : ∀ filter ∈ provider.pushed filters,
      ∃ condition, conditionOf filter = some condition := by
    intro filter filterMem
    have mapped := List.mem_map_of_mem (f := conditionOf) filterMem
    rw [conditionsEq] at mapped
    obtain ⟨condition, -, conditionEq⟩ := List.mem_map.mp mapped
    exact ⟨condition, conditionEq.symm⟩
  refine ⟨?_, ?_⟩
  · intro condition conditionMem
    have mapped := List.mem_map_of_mem (f := some) conditionMem
    rw [← conditionsEq] at mapped
    obtain ⟨filter, filterMem, conditionEq⟩ := List.mem_map.mp mapped
    exact (each filter filterMem condition conditionEq).1
  · intro row
    let evaluate : Option Condition → Truth := fun condition =>
      condition.elim .null (truth (columnsOf collation provider.schema) row)
    have evaluated := congrArg (List.map evaluate) conditionsEq
    rw [List.map_map, List.map_map] at evaluated
    rw [whereTruth]
    calc Truth.all (conditions.map
            (truth (columnsOf collation provider.schema) row))
        = Truth.all (conditions.map (evaluate ∘ some)) := rfl
      _ = Truth.all ((provider.pushed filters).map
            (evaluate ∘ conditionOf)) := by rw [evaluated]
      _ = _ := by
          congr 1
          refine List.map_congr_left fun filter filterMem => ?_
          obtain ⟨condition, conditionEq⟩ := conditionOfPushed filter filterMem
          rw [Function.comp_apply, conditionEq]
          exact (each filter filterMem condition conditionEq).2 row

/-- The pushed conditions hold of every row that passes all filters, and of
no other row when all filters are pushed. -/
theorem whereTruth_of_passes {other : Expr → Row Datum → Truth}
    {columns : Columns Datum} {conditions : List Condition}
    (whereEq : ∀ row, whereTruth columns conditions row =
      Truth.all ((provider.pushed filters).map (evalFilter other row))) :
    (∀ row, passes other filters row →
        whereTruth columns conditions row = .true) ∧
      (provider.pushed filters = filters → ∀ row,
        passes other filters row =
          decide (whereTruth columns conditions row = .true)) := by
  have whereIff (row : Row Datum) :
      whereTruth columns conditions row = .true ↔
        ∀ filter ∈ provider.pushed filters,
          evalFilter other row filter = .true := by
    rw [whereEq, Truth.all_eq_true_iff, List.forall_mem_map]
  have passesIff (row : Row Datum) : passes other filters row = true ↔
      ∀ filter ∈ filters, evalFilter other row filter = .true := by
    simp [passes]
  refine ⟨?_, ?_⟩
  · intro row pass
    rw [whereIff]
    intro filter filterMem
    exact (passesIff row).mp pass filter
      ((Provider.pushed_sublist provider filters).subset filterMem)
  · intro all row
    rw [Bool.eq_iff_iff, passesIff, decide_eq_true_iff, whereIff, all]

end Scans

section Rows

variable {table : Table Datum} {conditions : List Condition}
variable {pass : Row Datum → Bool} {kept : List (Row Datum)}

theorem perm_of_yields
    (covers : ∀ row, pass row →
      whereTruth table.columns conditions row = .true)
    (yields : Yields table conditions none kept) :
    (kept.filter pass).Perm (table.rows.filter pass) := by
  have filtered := yields.perm.filter pass
  rw [List.filter_filter] at filtered
  have sameTest : (fun row => pass row &&
      decide (whereTruth table.columns conditions row = .true)) = pass := by
    funext row
    cases passed : pass row with
    | false => rfl
    | true => simp [covers row passed]
  rwa [sameTest] at filtered

theorem filter_eq_self_of_yields
    (exact : ∀ row, pass row =
      decide (whereTruth table.columns conditions row = .true))
    {limit : Option Nat} (yields : Yields table conditions limit kept) :
    kept.filter pass = kept := by
  refine List.filter_eq_self.mpr fun row rowMem => ?_
  have matched := yields.subperm.subset rowMem
  rw [exact row]
  exact (List.mem_filter.mp matched).2

theorem filter_eq_of_exact
    (exact : ∀ row, pass row =
      decide (whereTruth table.columns conditions row = .true)) :
    (table.rows.filter fun row =>
      whereTruth table.columns conditions row = .true) =
        table.rows.filter pass :=
  List.filter_congr fun row _ => (exact row).symm

theorem min_le_of_yields {limit effective : Option Nat}
    (covers : ∀ row, pass row →
      whereTruth table.columns conditions row = .true)
    (exact : ∀ n, effective = some n → limit = some n ∧ ∀ row, pass row =
      decide (whereTruth table.columns conditions row = .true))
    (yields : Yields table conditions effective kept) {n : Nat}
    (limited : limit = some n) :
    min n (table.rows.filter pass).length ≤ (kept.filter pass).length := by
  cases effective with
  | none =>
      rw [(perm_of_yields covers yields).length_eq]
      exact Nat.min_le_right _ _
  | some m =>
      obtain ⟨sameLimit, exactRows⟩ := exact m rfl
      obtain rfl : m = n := Option.some.inj (sameLimit.symm.trans limited)
      rw [filter_eq_self_of_yields exactRows yields, yields.length,
        filter_eq_of_exact exactRows]

/-- Filtering and limiting the returned rows answers the query. -/
theorem correctAnswer_of_yields {limit effective : Option Nat}
    (covers : ∀ row, pass row →
      whereTruth table.columns conditions row = .true)
    (exact : ∀ n, effective = some n → limit = some n ∧ ∀ row, pass row =
      decide (whereTruth table.columns conditions row = .true))
    (yields : Yields table conditions effective kept) :
    CorrectAnswer pass limit table.rows (refine pass limit kept) := by
  cases effective with
  | none =>
      refine ⟨kept.filter pass, perm_of_yields covers yields, ?_⟩
      cases limit <;> rfl
  | some n =>
      obtain ⟨rfl, exactRows⟩ := exact n rfl
      have allPass := filter_eq_self_of_yields exactRows yields
      obtain ⟨arranged, arrangement, rfl⟩ := yields
      rw [filter_eq_of_exact exactRows] at arrangement
      refine ⟨arranged, arrangement, ?_⟩
      simp only [refine, allPass, List.take_take, min_self]

end Rows

theorem mapM_eq_ok_map {α β : Type} {f : α → Except String β} {g : α → β}
    {list : List α} (each : ∀ item ∈ list, f item = .ok (g item)) :
    list.mapM f = .ok (list.map g) := by
  induction list with
  | nil => rfl
  | cons item list induction =>
      obtain ⟨here, later⟩ := List.forall_mem_cons.mp each
      rw [List.mapM_cons, here, induction later]
      rfl

theorem arrowColumns_eq (fields : Schema) (kept : List (Row Datum)) :
    arrowColumns fields
        (kept.map fun row => fields.map fun field => row field.name) =
      .ok (fields.map fun field => kept.map fun row => row field.name) := by
  have column : ∀ indexed ∈ fields.zipIdx,
      ((kept.map fun row => fields.map fun field => row field.name).mapM
        fun row => tryGet row indexed.2) =
          .ok (kept.map fun row => row indexed.1.name) := by
    intro indexed indexedMem
    have found : fields[indexed.2]? = some indexed.1 :=
      List.mem_zipIdx_iff_getElem?.mp indexedMem
    rw [List.mapM_map]
    exact mapM_eq_ok_map fun row _ => by simp [tryGet, found]
  rw [arrowColumns, mapM_eq_ok_map column]
  congr 1
  calc fields.zipIdx.map (fun indexed => kept.map fun row =>
          row indexed.1.name)
      = (fields.zipIdx.map Prod.fst).map (fun field => kept.map fun row =>
          row field.name) := by rw [List.map_map]; rfl
    _ = _ := by rw [List.zipIdx_map_fst]

theorem scan_of_answer {provider : Provider}
    {query : String → Except String (Result Datum)}
    {projection : Option (List Nat)} {fields : Schema}
    (projected : provider.projectedSchema projection = .ok fields)
    {filters : List Expr} {limit : Option Nat} {kept : List (Row Datum)}
    (answered : query (provider.scanSql fields filters limit) =
      .ok (if fields.isEmpty then .count kept.length
        else .rows (kept.map fun row =>
          fields.map fun field => row field.name))) :
    provider.scan query projection filters limit =
      .ok (batchOf fields kept) := by
  simp only [Provider.scan, projected, answered, bind, Except.bind]
  by_cases empty : fields.isEmpty
  · have noFields : fields = [] := by simpa using empty
    simp [noFields, batchOf]
  · simp only [empty, Bool.false_eq_true, if_false, arrowColumns_eq]
    simp [batchOf, empty, pure, Except.pure]

section Agreement

variable {collation : String → String → Ordering} {provider : Provider}
variable {database : Database Datum} {rows : List (Row Datum)}
variable {fields : Schema}

theorem PlainTable.isSome_columnsOf (plain : PlainTable provider)
    {field : Field} (fieldMem : field ∈ provider.schema) :
    (columnsOf collation provider.schema field.name).isSome := by
  cases found : provider.schema.find? fun given => given.name == field.name with
  | none =>
      have missing := List.find?_eq_none.mp found field fieldMem
      simp at missing
  | some given =>
      have kind := plain.kinds given (List.mem_of_find?_eq_some found)
      simpa [columnsOf, columnKind, found] using kind

/-- The statement of a scan is accepted, and it returns rows as the pushed
conditions and the pushed limit determine. -/
theorem executes_scanSql_iff (deterministic : ∀ left right,
      collation left right = .eq ↔ left = right)
    (plain : PlainTable provider)
    (stored : database provider.schemaName provider.tableName =
      some ⟨columnsOf collation provider.schema, rows⟩)
    (fieldsMem : ∀ field ∈ fields, field ∈ provider.schema)
    {filters : List Expr}
    (wellTyped : ∀ filter ∈ filters, WellTyped provider.schema filter)
    (limit : Option Nat) (other : Expr → Row Datum → Truth) :
    ∃ conditions,
      (∀ row,
        whereTruth (columnsOf collation provider.schema) conditions row =
          Truth.all ((provider.pushed filters).map
            (evalFilter other row))) ∧
        ∀ answer,
          Executes database (provider.scanSql fields filters limit) answer ↔
            ∃ kept,
              Yields ⟨columnsOf collation provider.schema, rows⟩ conditions
                (provider.effectiveLimit filters limit) kept ∧
              answer = if fields.isEmpty then .count kept.length
                else .rows (kept.map fun row =>
                  fields.map fun field => row field.name) := by
  obtain ⟨conditions, conditionsEq, renders⟩ :=
    provider.exists_conditions plain filters
  obtain ⟨acceptedAll, whereEq⟩ :=
    whereTruth_eq deterministic wellTyped conditionsEq other
  obtain ⟨tokens, lexed, spells⟩ := exists_spells_buildScanSql
    plain.schemaValid plain.tableValid
    (fun field fieldMem => plain.columnsValid field (fieldsMem field fieldMem))
    renders (provider.effectiveLimit filters limit)
  have parsed : parse (provider.scanSql fields filters limit) =
      some (scanStatement provider.schemaName provider.tableName fields
        conditions (provider.effectiveLimit filters limit)) :=
    parse_of_lex lexed spells
  have known : ∀ field ∈ fields,
      (columnsOf collation provider.schema field.name).isSome :=
    fun field fieldMem => plain.isSome_columnsOf (fieldsMem field fieldMem)
  refine ⟨conditions, whereEq, ?_⟩
  intro answer
  simp only [Executes, parsed, Option.some.injEq, exists_eq_left',
    scanStatement]
  by_cases empty : fields.isEmpty
  · simp only [empty, if_true, Returns, Scans, stored, Option.some.injEq]
    constructor
    · rintro ⟨table, kept, ⟨rfl, -, yields⟩, answerEq⟩
      exact ⟨kept, yields, answerEq⟩
    · rintro ⟨kept, yields, answerEq⟩
      exact ⟨_, kept, ⟨rfl, acceptedAll, yields⟩, answerEq⟩
  · simp only [empty, Bool.false_eq_true, if_false, Returns, Scans, stored,
      Option.some.injEq, List.forall_mem_map, List.map_map, Function.comp_def]
    constructor
    · rintro ⟨table, kept, ⟨rfl, -, yields⟩, -, answerEq⟩
      exact ⟨kept, yields, answerEq⟩
    · rintro ⟨kept, yields, answerEq⟩
      exact ⟨_, kept, ⟨rfl, acceptedAll, yields⟩, known, answerEq⟩

/-- Whatever rows PostgreSQL returns for a scan, they are rows of the table
under the projection, no row that passes all filters is missing when no limit
is pushed, a limit leaves enough of them, and filtering and limiting them
again answers the query. -/
theorem scan_agrees (deterministic : ∀ left right,
      collation left right = .eq ↔ left = right)
    (plain : PlainTable provider)
    (stored : database provider.schemaName provider.tableName =
      some ⟨columnsOf collation provider.schema, rows⟩)
    {projection : Option (List Nat)}
    (projected : provider.projectedSchema projection = .ok fields)
    {filters : List Expr}
    (wellTyped : ∀ filter ∈ filters, WellTyped provider.schema filter)
    (limit : Option Nat) (other : Expr → Row Datum → Truth) :
    (∃ answer,
      Executes database (provider.scanSql fields filters limit) answer) ∧
    ∀ query answer,
      query (provider.scanSql fields filters limit) = .ok answer →
      Executes database (provider.scanSql fields filters limit) answer →
      ∃ kept,
        kept.Subperm rows ∧
        provider.scan query projection filters limit =
          .ok (batchOf fields kept) ∧
        (provider.effectiveLimit filters limit = none →
          (kept.filter (passes other filters)).Perm
            (rows.filter (passes other filters))) ∧
        (∀ n, limit = some n →
          min n (rows.filter (passes other filters)).length ≤
            (kept.filter (passes other filters)).length) ∧
        CorrectAnswer (passes other filters) limit rows
          (refine (passes other filters) limit kept) := by
  obtain ⟨conditions, whereEq, executes⟩ := executes_scanSql_iff deterministic
    plain stored (Provider.mem_of_projectedSchema projected) wellTyped limit
    other
  obtain ⟨covers, exactRows⟩ := whereTruth_of_passes whereEq
  have exact : ∀ n, provider.effectiveLimit filters limit = some n →
      limit = some n ∧ ∀ row, passes other filters row = decide
        (whereTruth (columnsOf collation provider.schema) conditions row =
          .true) := by
    intro n pushedLimit
    obtain ⟨sameLimit, all⟩ := Provider.pushed_eq_of_effectiveLimit pushedLimit
    exact ⟨sameLimit, exactRows all⟩
  refine ⟨?_, ?_⟩
  · obtain ⟨kept, yields⟩ := exists_yields
      ⟨columnsOf collation provider.schema, rows⟩ conditions
      (provider.effectiveLimit filters limit)
    exact ⟨_, (executes _).mpr ⟨kept, yields, rfl⟩⟩
  · intro query answer answered executed
    obtain ⟨kept, yields, rfl⟩ := (executes answer).mp executed
    refine ⟨kept, yields.subperm.trans List.filter_sublist.subperm,
      scan_of_answer projected answered, ?_, ?_, ?_⟩
    · intro notPushed
      rw [notPushed] at yields
      exact perm_of_yields covers yields
    · exact fun n limited => min_le_of_yields covers exact yields limited
    · exact correctAnswer_of_yields covers exact yields

end Agreement

/-- A table with an integer and a text column. -/
def ordersProvider : Provider :=
  ⟨"public", "orders", idAndName, true⟩

def ordersRow (id : Option Int) (name : Option String) : Row Datum :=
  fun column =>
    if column = "id" then id.map .integer
    else if column = "name" then name.map .text
    else none

def ordersRows : List (Row Datum) :=
  [ordersRow (some 1) (some "a"), ordersRow (some 2) none,
    ordersRow none (some "a")]

def ordersDatabase : Database Datum :=
  fun schema table =>
    if schema = "public" ∧ table = "orders" then
      some ⟨columnsOf compare idAndName, ordersRows⟩
    else none

/-- Counting the matching rows, up to a limit. -/
theorem scan_agrees_count :
    ∃ answer kept,
      Executes ordersDatabase
        (ordersProvider.scanSql [] [idAndNameFilter] (some 2)) answer ∧
      kept.Subperm ordersRows ∧
      ordersProvider.scan (fun _ => .ok answer) (some []) [idAndNameFilter]
        (some 2) = .ok (batchOf [] kept) := by
  have deterministic (left right : String) :
      compare left right = .eq ↔ left = right :=
    Std.LawfulEqOrd.compare_eq_iff_eq
  have plain : PlainTable ordersProvider :=
    ⟨by decide, by decide, by decide, by decide⟩
  have wellTyped : ∀ filter ∈ [idAndNameFilter],
      WellTyped ordersProvider.schema filter := by
    intro filter filterMem
    obtain rfl := List.mem_singleton.mp filterMem
    exact ⟨⟨rfl, rfl⟩, rfl, by decide⟩
  obtain ⟨⟨answer, executed⟩, agrees⟩ := scan_agrees deterministic plain
    (show ordersDatabase "public" "orders" = some ⟨_, ordersRows⟩ from rfl)
    (show ordersProvider.projectedSchema (some []) = .ok [] from rfl)
    wellTyped (some 2) fun _ _ => .null
  obtain ⟨kept, fromTable, scanned, -⟩ :=
    agrees (fun _ => .ok answer) answer rfl executed
  exact ⟨answer, kept, executed, fromTable, scanned⟩

end PostgresTable

end Igloo
