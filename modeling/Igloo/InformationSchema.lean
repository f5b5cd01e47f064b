import Igloo.Introspection

/-!
# Introspection of a database

`INTROSPECT_SQL` joins two views of the information schema, keeps the base
tables in the configured schemas that the allowlist admits, and orders the rows
by schema, table and position under some collation.  Together with the grouping
of the rows this discovers the same tables whatever the collation is and
however the views are stored: the admitted base tables with a column that can
be mapped, each with these columns by position.
-/

namespace Igloo

namespace Catalog

open Arrow ConsecutiveRuns RustText

/-- A row of `information_schema.tables`. -/
structure TableRow where
  tableSchema : String
  tableName : String
  tableType : String
  deriving DecidableEq, Repr

/-- A row of `information_schema.columns`. -/
structure ColumnRow where
  tableSchema : String
  tableName : String
  columnName : String
  ordinalPosition : Nat
  dataType : String
  udtName : String
  isNullable : String
  deriving DecidableEq, Repr

def TableRow.owner (table : TableRow) : String × String :=
  (table.tableSchema, table.tableName)

def ColumnRow.owner (column : ColumnRow) : String × String :=
  (column.tableSchema, column.tableName)

/-- The reading of a row in `introspect_tables`. -/
def ColumnRow.info (column : ColumnRow) : ColumnInfo where
  schema := column.tableSchema
  table := column.tableName
  column := column.columnName
  dataType := column.dataType
  udtName := column.udtName
  isNullable := asciiLowercase column.isNullable = asciiLowercase "YES"

/-- The information schema of a database.  Every table is listed once, and the
columns of a table have distinct positions. -/
structure InformationSchema where
  tables : List TableRow
  columns : List ColumnRow
  tables_nodup : (tables.map TableRow.owner).Nodup
  positions_nodup : (columns.map fun column =>
    (column.owner, column.ordinalPosition)).Nodup

section Query

variable (database : InformationSchema) (schemas : List String)
  (allowlist : Option (List String))

/-- `INTROSPECT_SQL` up to its `ORDER BY` clause. -/
def joinedRows : List ColumnRow :=
  database.columns.flatMap fun column =>
    (database.tables.filter fun table =>
      column.owner = table.owner ∧ table.tableType = "BASE TABLE" ∧
        column.tableSchema ∈ schemas ∧
        allowlist.all fun names => column.tableName ∈ names).map
      fun _ => column

/-- The `ORDER BY` clause of `INTROSPECT_SQL`. -/
def compareRows (collate : String → String → Ordering)
    (first second : ColumnRow) : Ordering :=
  (collate first.tableSchema second.tableSchema).then
    ((collate first.tableName second.tableName).then
      (compare first.ordinalPosition second.ordinalPosition))

/-- The rows are an answer to `INTROSPECT_SQL`. -/
structure AnswersIntrospection (collate : String → String → Ordering)
    (rows : List ColumnRow) : Prop where
  perm : rows.Perm (joinedRows database schemas allowlist)
  sorted : rows.Pairwise fun first second =>
    (compareRows collate first second).isLE = true

/-- A base table that is configured for introspection. -/
structure Admitted (owner : String × String) : Prop where
  isBaseTable : ∃ table ∈ database.tables, table.owner = owner ∧
    table.tableType = "BASE TABLE"
  schema_mem : owner.1 ∈ schemas
  name_mem : ∀ names, allowlist = some names → owner.2 ∈ names

/-- The tables to discover: one for each admitted base table with a column that
can be mapped, with these columns by position, ordered by the priority of the
schema and then by name. -/
structure Discovered (tables : List TableSchema) : Prop where
  one_each : (tables.map qualifiedName).Nodup
  mem_iff : ∀ owner, owner ∈ tables.map qualifiedName ↔
    Admitted database schemas allowlist owner ∧
      ∃ column ∈ database.columns, column.owner = owner ∧
        mappable column.info = true
  fields_describe : ∀ table ∈ tables, ∃ columns,
    columns.Perm (database.columns.filter fun column =>
      column.owner = qualifiedName table ∧ mappable column.info = true) ∧
    columns.Pairwise (fun first second =>
      first.ordinalPosition < second.ordinalPosition) ∧
    List.Forall₂ (fun column field =>
      DescribesColumn (ColumnRow.info column) field) columns table.fields
  sorted : tables.Pairwise fun first second =>
    schemaRank schemas first.schema < schemaRank schemas second.schema ∨
      schemaRank schemas first.schema = schemaRank schemas second.schema ∧
        first.name ≤ second.name

end Query

/-! ## Uniqueness -/

section Uniqueness

variable {database : InformationSchema} {schemas : List String}
  {allowlist : Option (List String)} {first second : List TableSchema}

theorem describesColumn_unique :
    Relator.RightUnique fun column field =>
      DescribesColumn (ColumnRow.info column) field := by
  intro column first second isFirst isSecond
  cases first
  cases second
  rw [Field.mk.injEq]
  exact ⟨isFirst.name_eq.trans isSecond.name_eq.symm,
    Option.some.inj (isFirst.mapped.symm.trans isSecond.mapped),
    isFirst.nullable_eq.trans isSecond.nullable_eq.symm,
    isFirst.stamp_eq.trans isSecond.stamp_eq.symm⟩

theorem columns_eq_of_perm {columns others : List ColumnRow}
    (perm : columns.Perm others)
    (sorted : columns.Pairwise fun first second =>
      first.ordinalPosition < second.ordinalPosition)
    (othersSorted : others.Pairwise fun first second =>
      first.ordinalPosition < second.ordinalPosition) : columns = others := by
  refine List.Perm.eq_of_pairwise ?_ sorted othersSorted perm
  intro column other _ _ before after
  omega

theorem mem_of_discovered (isFirst : Discovered database schemas allowlist first)
    (isSecond : Discovered database schemas allowlist second)
    {table : TableSchema} (tableMem : table ∈ first) : table ∈ second := by
  have present : qualifiedName table ∈ second.map qualifiedName :=
    (isSecond.mem_iff _).mpr ((isFirst.mem_iff _).mp
      (List.mem_map_of_mem tableMem))
  obtain ⟨other, otherMem, sameName⟩ := List.mem_map.mp present
  obtain ⟨columns, perm, sorted, describes⟩ :=
    isFirst.fields_describe table tableMem
  obtain ⟨others, othersPerm, othersSorted, othersDescribe⟩ :=
    isSecond.fields_describe other otherMem
  rw [sameName] at othersPerm
  have sameColumns : columns = others :=
    columns_eq_of_perm (perm.trans othersPerm.symm) sorted othersSorted
  subst sameColumns
  have sameFields : other.fields = table.fields :=
    describesColumn_unique.forall₂ othersDescribe describes
  have same : other = table := by
    cases other
    cases table
    simp only [qualifiedName, Prod.mk.injEq] at sameName
    simp only at sameFields
    rw [sameName.1, sameName.2, sameFields]
  exact same ▸ otherMem

theorem discovered_unique
    (isFirst : Discovered database schemas allowlist first)
    (isSecond : Discovered database schemas allowlist second) :
    first = second := by
  have perm : first.Perm second :=
    (List.perm_ext_iff_of_nodup isFirst.one_each.of_map
      isSecond.one_each.of_map).mpr fun table =>
        ⟨mem_of_discovered isFirst isSecond, mem_of_discovered isSecond isFirst⟩
  refine List.Perm.eq_of_pairwise ?_ isFirst.sorted isSecond.sorted perm
  intro table other tableMem otherMem before after
  have configured : ∀ entry ∈ second, entry.schema ∈ schemas := by
    intro entry entryMem
    exact ((isSecond.mem_iff _).mp (List.mem_map_of_mem entryMem)).1.schema_mem
  have tableIn := perm.mem_iff.mp tableMem
  have rankEq : schemaRank schemas table.schema =
      schemaRank schemas other.schema := by omega
  have nameEq : table.name = other.name := by
    apply le_antisymm
    · exact (before.resolve_left (by omega)).2
    · exact (after.resolve_left (by omega)).2
  refine List.inj_on_of_nodup_map isSecond.one_each tableIn otherMem
    (Prod.ext ?_ nameEq)
  exact schemaRank_injective (configured table tableIn)
    (configured other otherMem) rankEq

end Uniqueness

/-! ## The answer to the query -/

section Answers

variable {database : InformationSchema} {schemas : List String}
  {allowlist : Option (List String)} {collate : String → String → Ordering}
  {rows : List ColumnRow}

/-- The columns that the query returns. -/
def returned (database : InformationSchema) (schemas : List String)
    (allowlist : Option (List String)) (column : ColumnRow) : Bool :=
  database.tables.any fun table =>
    column.owner = table.owner ∧ table.tableType = "BASE TABLE" ∧
      column.tableSchema ∈ schemas ∧
      allowlist.all fun names => column.tableName ∈ names

theorem returned_iff (column : ColumnRow) :
    returned database schemas allowlist column = true ↔
      Admitted database schemas allowlist column.owner := by
  simp only [returned, List.any_eq_true, decide_eq_true_eq]
  constructor
  · rintro ⟨table, tableMem, sameOwner, isBase, schemaMem, nameMem⟩
    refine ⟨⟨table, tableMem, sameOwner.symm, isBase⟩, schemaMem, ?_⟩
    rintro names rfl
    exact of_decide_eq_true nameMem
  · rintro ⟨⟨table, tableMem, sameOwner, isBase⟩, schemaMem, nameMem⟩
    refine ⟨table, tableMem, sameOwner.symm, isBase, schemaMem, ?_⟩
    cases allowlist with
    | none => rfl
    | some names => exact decide_eq_true (nameMem names rfl)

/-- A table is listed once, so the join does not duplicate a column. -/
theorem joinedRows_eq :
    joinedRows database schemas allowlist =
      database.columns.filter (returned database schemas allowlist) := by
  have once : ∀ column : ColumnRow, ∀ passes : TableRow → Bool,
      (∀ table, passes table = true → column.owner = table.owner) →
      (database.tables.filter passes).map (fun _ => column) =
        if database.tables.any passes then [column] else [] := by
    intro column passes sameOwner
    have nodup : ((database.tables.filter passes).map
        TableRow.owner).Nodup :=
      database.tables_nodup.sublist (List.filter_sublist.map _)
    have owners : ∀ table ∈ database.tables.filter passes,
        table.owner = column.owner := fun table tableMem =>
      (sameOwner table (List.mem_filter.mp tableMem).2).symm
    cases kept : database.tables.filter passes with
    | nil =>
        have none_passes : database.tables.any passes = false := by
          simpa using kept
        rw [none_passes]
        rfl
    | cons table others =>
        have some_passes : database.tables.any passes = true := by
          have tableMem : table ∈ database.tables.filter passes :=
            kept ▸ List.mem_cons_self
          exact List.any_eq_true.mpr ⟨table, List.mem_filter.mp tableMem⟩
        rw [kept] at nodup owners
        have alone : others = [] := by
          by_contra more
          obtain ⟨other, otherMem⟩ := List.exists_mem_of_ne_nil _ more
          rw [List.map_cons, List.nodup_cons] at nodup
          apply nodup.1
          rw [owners table List.mem_cons_self,
            ← owners other (List.mem_cons_of_mem _ otherMem)]
          exact List.mem_map_of_mem otherMem
        rw [some_passes, alone]
        rfl
  rw [joinedRows]
  induction database.columns with
  | nil => rfl
  | cons column columns induction =>
      rw [List.flatMap_cons, induction, once column _ fun table passes =>
        (of_decide_eq_true passes).1, List.filter_cons]
      change (if returned database schemas allowlist column = true then
        [column] else []) ++ _ = _
      split <;> rfl

theorem eq_of_collated [Std.TransCmp collate] [Std.LawfulEqCmp collate]
    {first second : String} (before : (collate first second).isLE = true)
    (after : (collate second first).isLE = true) : first = second := by
  have equal : collate first second = .eq :=
    Std.OrientedCmp.isLE_antisymm before after
  exact Std.LawfulEqCmp.eq_of_compare equal

/-- Rows of tables in order, where the second table is that of a later row and
the first one too. -/
theorem owner_eq_of_between [Std.TransCmp collate] [Std.LawfulEqCmp collate]
    {first between last : ColumnRow} (same : first.owner = last.owner)
    (before : (compareRows collate first between).isLE = true)
    (after : (compareRows collate between last).isLE = true) :
    between.owner = first.owner := by
  obtain ⟨sameSchema, sameName⟩ := Prod.mk.injEq .. ▸ same
  have leftOf : ∀ {left right : Ordering},
      (left.then right).isLE = true → left.isLE = true := by
    intro left right
    cases left <;> simp
  have schemaEq : first.tableSchema = between.tableSchema := by
    apply eq_of_collated (leftOf before)
    rw [sameSchema]
    exact leftOf after
  have reflexive : ∀ text, collate text text = .eq := fun _ =>
    Std.ReflCmp.compare_self
  have nameEq : first.tableName = between.tableName := by
    rw [compareRows, ← schemaEq, reflexive, Ordering.eq_then] at before
    rw [compareRows, ← schemaEq, sameSchema, reflexive, Ordering.eq_then]
      at after
    apply eq_of_collated (leftOf before)
    rw [sameName]
    exact leftOf after
  exact Prod.ext schemaEq.symm nameEq.symm

/-- In the order of the query the columns of a table stand together. -/
theorem contiguous_of_sorted [Std.TransCmp collate] [Std.LawfulEqCmp collate]
    (sorted : rows.Pairwise fun first second =>
      (compareRows collate first second).isLE = true) :
    Contiguous columnOwner (rows.map ColumnRow.info) := by
  intro first between last sublist same
  obtain ⟨triple, within, isTriple⟩ := List.sublist_map_iff.mp sublist
  match triple, isTriple with
  | [firstRow, betweenRow, lastRow], isTriple =>
      simp only [List.map_cons, List.map_nil, List.cons.injEq, and_true]
        at isTriple
      obtain ⟨rfl, rfl, rfl⟩ := isTriple
      have ordered := sorted.sublist within
      simp only [List.pairwise_cons, List.mem_cons, forall_eq_or_imp] at ordered
      exact owner_eq_of_between same ordered.1.1 ordered.2.1.1

theorem AnswersIntrospection.mem_iff
    (answers : AnswersIntrospection database schemas allowlist collate rows)
    {column : ColumnRow} :
    column ∈ rows ↔ column ∈ database.columns ∧
      Admitted database schemas allowlist column.owner := by
  rw [answers.perm.mem_iff, joinedRows_eq, List.mem_filter, returned_iff]

/-- The rows of an admitted table are its columns, by position. -/
theorem AnswersIntrospection.columns_of
    (answers : AnswersIntrospection database schemas allowlist collate rows)
    [Std.LawfulEqCmp collate] {owner : String × String}
    (admitted : Admitted database schemas allowlist owner) :
    (rows.filter fun column =>
        column.owner = owner ∧ mappable column.info = true).Perm
      (database.columns.filter fun column =>
        column.owner = owner ∧ mappable column.info = true) ∧
    (rows.filter fun column =>
        column.owner = owner ∧ mappable column.info = true).Pairwise
      fun first second => first.ordinalPosition < second.ordinalPosition := by
  constructor
  · have perm := answers.perm.filter fun column =>
      column.owner = owner ∧ mappable column.info = true
    rw [joinedRows_eq, List.filter_filter] at perm
    refine perm.trans (List.Perm.of_eq (List.filter_congr ?_))
    intro column columnMem
    rw [Bool.eq_iff_iff, Bool.and_eq_true, returned_iff, decide_eq_true_eq]
    exact ⟨fun ⟨chosen, _⟩ => chosen,
      fun chosen => ⟨chosen, chosen.1 ▸ admitted⟩⟩
  · have positions : (rows.map fun column =>
        (column.owner, column.ordinalPosition)).Nodup := by
      rw [(answers.perm.map _).nodup_iff, joinedRows_eq]
      exact database.positions_nodup.sublist (List.filter_sublist.map _)
    have distinct := List.pairwise_map.mp positions
    rw [List.pairwise_filter]
    refine (answers.sorted.and distinct).imp ?_
    intro first second ⟨ordered, differ⟩ firstIn secondIn
    rw [decide_eq_true_eq] at firstIn secondIn
    have sameOwner : first.owner = second.owner :=
      firstIn.1.trans secondIn.1.symm
    have notSame : first.ordinalPosition ≠ second.ordinalPosition :=
      fun same => differ (Prod.ext sameOwner same)
    obtain ⟨sameSchema, sameName⟩ := Prod.mk.injEq .. ▸ sameOwner
    have reflexive : ∀ text, collate text text = .eq := fun _ =>
      Std.ReflCmp.compare_self
    rw [compareRows, sameSchema, sameName, reflexive, reflexive,
      Ordering.eq_then, Ordering.eq_then, Nat.isLE_compare] at ordered
    omega

theorem discovered_introspectTables [Std.TransCmp collate]
    [Std.LawfulEqCmp collate]
    (answers : AnswersIntrospection database schemas allowlist collate rows) :
    Discovered database schemas allowlist
      (introspectTables (rows.map ColumnRow.info) schemas) := by
  have contiguous := contiguous_of_sorted answers.sorted
  have ordered := perm_orderBySchemaPriority schemas
    (groupColumnsIntoTables (rows.map ColumnRow.info))
  have names : ∀ owner,
      owner ∈ (introspectTables (rows.map ColumnRow.info) schemas).map
          qualifiedName ↔
        Admitted database schemas allowlist owner ∧
          ∃ column ∈ database.columns, column.owner = owner ∧
            mappable column.info = true := by
    intro owner
    rw [introspectTables, (ordered.map qualifiedName).mem_iff,
      mem_map_qualifiedName_iff contiguous]
    constructor
    · rintro ⟨_, infoMem, isOwner, isMapped⟩
      obtain ⟨column, columnMem, rfl⟩ := List.mem_map.mp infoMem
      obtain ⟨inDatabase, admitted⟩ := answers.mem_iff.mp columnMem
      exact ⟨isOwner ▸ admitted, column, inDatabase, isOwner, isMapped⟩
    · rintro ⟨admitted, column, inDatabase, rfl, isMapped⟩
      exact ⟨column.info,
        List.mem_map_of_mem (answers.mem_iff.mpr ⟨inDatabase, admitted⟩),
        rfl, isMapped⟩
  refine ⟨?_, names, ?_, ?_⟩
  · exact (ordered.map qualifiedName).nodup_iff.mpr
      (nodup_groupColumnsIntoTables contiguous)
  · intro table tableMem
    have admitted := ((names _).mp (List.mem_map_of_mem tableMem)).1
    obtain ⟨perm, sorted⟩ := answers.columns_of admitted
    refine ⟨_, perm, sorted, ?_⟩
    have fieldsEq := ((mem_groupColumnsIntoTables_iff contiguous).mp
      (ordered.mem_iff.mp tableMem)).2
    rw [fieldsEq]
    have describes := forall₂_describesColumn
      ((rows.map ColumnRow.info).filter fun column =>
        columnOwner column = qualifiedName table)
    rw [List.filter_filter, List.filter_map, List.forall₂_map_left_iff]
      at describes
    have sameColumns : (rows.filter fun column =>
          column.owner = qualifiedName table ∧ mappable column.info = true) =
        rows.filter ((fun column => mappable column &&
          decide (columnOwner column = qualifiedName table)) ∘
            ColumnRow.info) := by
      apply List.filter_congr
      intro column _
      rw [Bool.decide_and, Bool.decide_eq_true, Bool.and_comm]
      rfl
    rw [sameColumns]
    exact describes
  · exact (pairwise_orderBySchemaPriority _).imp isLE_comparePriority_iff.mp

/-- Introspection gives exactly the tables to discover, whatever the collation
of the database is and in whatever order it stores its views. -/
theorem introspectTables_eq_iff [Std.TransCmp collate]
    [Std.LawfulEqCmp collate]
    (answers : AnswersIntrospection database schemas allowlist collate rows)
    (tables : List TableSchema) :
    introspectTables (rows.map ColumnRow.info) schemas = tables ↔
      Discovered database schemas allowlist tables := by
  have discovered := discovered_introspectTables answers
  constructor
  · rintro rfl
    exact discovered
  · exact discovered_unique discovered

end Answers

section Shop

/-- A database with a table and a view in one schema and a table in another. -/
def shop : InformationSchema where
  tables := [⟨"public", "orders", "BASE TABLE"⟩, ⟨"public", "recent", "VIEW"⟩,
    ⟨"audit", "log", "BASE TABLE"⟩]
  columns := [⟨"public", "orders", "total", 2, "numeric", "numeric", "YES"⟩,
    ⟨"public", "orders", "note", 3, "text", "text", "YES"⟩,
    ⟨"public", "recent", "id", 1, "bigint", "int8", "YES"⟩,
    ⟨"public", "orders", "id", 1, "bigint", "int8", "NO"⟩,
    ⟨"audit", "log", "id", 1, "uuid", "uuid", "NO"⟩]
  tables_nodup := by decide
  positions_nodup := by decide

/-- The rows of the orders by position. -/
def orderColumns : List ColumnRow :=
  [⟨"public", "orders", "id", 1, "bigint", "int8", "NO"⟩,
    ⟨"public", "orders", "total", 2, "numeric", "numeric", "YES"⟩,
    ⟨"public", "orders", "note", 3, "text", "text", "YES"⟩]

theorem introspectTables_eq_iff_shop :
    introspectTables (orderColumns.map ColumnRow.info) ["public"] =
        [⟨"public", "orders",
          [⟨"id", .int64, false, none⟩, ⟨"note", .utf8, true, none⟩]⟩] ↔
      Discovered shop ["public"] none
        [⟨"public", "orders",
          [⟨"id", .int64, false, none⟩, ⟨"note", .utf8, true, none⟩]⟩] := by
  have answers : AnswersIntrospection shop ["public"] none compare
      orderColumns := ⟨by decide, by decide +kernel⟩
  exact introspectTables_eq_iff answers _

end Shop

end Catalog

end Igloo
