import Igloo.Catalog
import Igloo.ConsecutiveRuns
import Mathlib.Data.String.Basic
import Mathlib.Order.Compare

/-!
# Introspection of the base tables

The columns that the introspection query reports are grouped into tables, and
the tables are ordered by the priority of their schema.  Both steps are stated
against the columns of each table: no column is lost or duplicated, and the
order of the tables in the report does not matter.
-/

namespace Igloo

namespace Catalog

open Arrow ConsecutiveRuns

/-- One iteration of the loop of `group_columns_into_tables`. -/
def groupColumn (tables : List TableSchema) (column : ColumnInfo) :
    List TableSchema :=
  let isOwn (table : TableSchema) : Bool :=
    table.schema = column.schema ∧ table.name = column.table
  match fieldOf column with
  | some field =>
      match tables.getLast?.filter isOwn with
      | some table =>
          tables.dropLast ++ [{ table with fields := table.fields ++ [field] }]
      | none => tables ++ [⟨column.schema, column.table, [field]⟩]
  | none =>
      if tables.getLast?.any isOwn then tables
      else tables ++ [⟨column.schema, column.table, []⟩]

/-- `group_columns_into_tables`. -/
def groupColumnsIntoTables (columns : List ColumnInfo) : List TableSchema :=
  (columns.foldl groupColumn []).filter fun table => !table.fields.isEmpty

/-- The position of a schema in the configured list; a schema that is not there
gets `usize::MAX`. -/
def schemaRank (schemas : List String) (schema : String) : Nat :=
  (schemas.idxOf? schema).getD (2 ^ 64 - 1)

def comparePriority (schemas : List String) (first second : TableSchema) :
    Ordering :=
  (compare (schemaRank schemas first.schema)
    (schemaRank schemas second.schema)).then (compare first.name second.name)

/-- `order_by_schema_priority`. -/
def orderBySchemaPriority (tables : List TableSchema)
    (schemas : List String) : List TableSchema :=
  tables.mergeSort fun first second =>
    (comparePriority schemas first second).isLE

/-- `introspect_tables` on the rows that the query returns. -/
def introspectTables (columns : List ColumnInfo) (schemas : List String) :
    List TableSchema :=
  orderBySchemaPriority (groupColumnsIntoTables columns) schemas

/-- The table that a column belongs to. -/
def columnOwner (column : ColumnInfo) : String × String :=
  (column.schema, column.table)

def qualifiedName (table : TableSchema) : String × String :=
  (table.schema, table.name)

/-- A column whose type has an Arrow mapping. -/
def mappable (column : ColumnInfo) : Bool :=
  (pgTypeToArrow column.dataType column.udtName).isSome

/-- The field of a column. -/
structure DescribesColumn (column : ColumnInfo) (field : Field) : Prop where
  name_eq : field.name = column.column
  mapped : pgTypeToArrow column.dataType column.udtName = some field.dataType
  nullable_eq : field.nullable = column.isNullable
  stamp_eq : field.pgType = ambiguousPgType column.dataType column.udtName

/-- The tables of a list of columns: one for each owner of a mappable column,
with its mappable columns, by position of the schema and then by name. -/
structure Introspected (columns : List ColumnInfo) (schemas : List String)
    (tables : List TableSchema) : Prop where
  one_each : (tables.map qualifiedName).Nodup
  mem_iff : ∀ owner, owner ∈ tables.map qualifiedName ↔
    ∃ column ∈ columns, columnOwner column = owner ∧ mappable column = true
  fields_describe : ∀ table ∈ tables, List.Forall₂ DescribesColumn
    (columns.filter fun column =>
      columnOwner column = qualifiedName table ∧ mappable column = true)
    table.fields
  sorted : tables.Pairwise fun first second =>
    schemaRank schemas first.schema < schemaRank schemas second.schema ∨
      schemaRank schemas first.schema = schemaRank schemas second.schema ∧
        first.name ≤ second.name

/-- Two lists that have the same columns of every table in the same order. -/
def SameTables (first second : List ColumnInfo) : Prop :=
  ∀ owner, first.filter (fun column => columnOwner column = owner) =
    second.filter fun column => columnOwner column = owner

section Grouping

/-- The table that a run of columns stands for. -/
def tableOf (run : (String × String) × List ColumnInfo) : TableSchema :=
  ⟨run.1.1, run.1.2, run.2.filterMap fieldOf⟩

@[simp]
theorem qualifiedName_tableOf (run : (String × String) × List ColumnInfo) :
    qualifiedName (tableOf run) = run.1 :=
  rfl

/-- The loop builds the tables of the runs: placeholders are the tables of runs
without a mappable column. -/
theorem groupColumn_map_tableOf
    (runs : List ((String × String) × List ColumnInfo)) (column : ColumnInfo) :
    groupColumn (runs.map tableOf) column =
      (addToRuns columnOwner runs column).map tableOf := by
  have alone : ⟨column.schema, column.table, [column].filterMap fieldOf⟩ =
      tableOf (columnOwner column, [column]) := rfl
  rcases List.eq_nil_or_concat runs with rfl | ⟨front, last, rfl⟩
  · cases isField : fieldOf column <;>
      simp [groupColumn, addToRuns, ← alone, isField]
  · rw [List.concat_eq_append]
    have isOwn : ((tableOf last).schema = column.schema ∧
        (tableOf last).name = column.table) ↔ last.1 = columnOwner column :=
      (@Prod.ext_iff _ _ last.1 (columnOwner column)).symm
    by_cases same : last.1 = columnOwner column
    · cases isField : fieldOf column <;>
        simp [groupColumn, addToRuns, same, isField, tableOf, columnOwner,
          Option.filter_some]
    · cases isField : fieldOf column <;>
        simp [groupColumn, addToRuns, isOwn, same, ← alone, isField,
          Option.filter_some]

theorem groupColumnsIntoTables_eq (columns : List ColumnInfo) :
    groupColumnsIntoTables columns =
      ((runsOf columnOwner columns).map tableOf).filter fun table =>
        !table.fields.isEmpty := by
  have folded : columns.foldl groupColumn [] =
      (runsOf columnOwner columns).map tableOf := by
    induction columns using List.reverseRecOn with
    | nil => rfl
    | append_singleton columns column induction =>
        rw [List.foldl_concat, induction, groupColumn_map_tableOf, runsOf,
          runsOf, List.foldl_concat]
  rw [groupColumnsIntoTables, folded]

variable {columns : List ColumnInfo}

/-- The tables are the nonempty lists of fields that the columns of one owner
have. -/
theorem mem_groupColumnsIntoTables_iff
    (contiguous : Contiguous columnOwner columns) {table : TableSchema} :
    table ∈ groupColumnsIntoTables columns ↔ table.fields ≠ [] ∧
      table.fields = (columns.filter fun column =>
        columnOwner column = qualifiedName table).filterMap fieldOf := by
  have areRuns := areRuns_runsOf contiguous
  rw [groupColumnsIntoTables_eq, List.mem_filter, List.mem_map]
  constructor
  · rintro ⟨⟨run, runMem, rfl⟩, nonempty⟩
    refine ⟨by simpa using nonempty, ?_⟩
    rw [qualifiedName_tableOf, ← areRuns.items_eq run runMem]
    rfl
  · rintro ⟨nonempty, fieldsEq⟩
    refine ⟨?_, by simpa using nonempty⟩
    have present : qualifiedName table ∈
        (runsOf columnOwner columns).map Prod.fst := by
      obtain ⟨field, fieldMem⟩ := List.exists_mem_of_ne_nil _ nonempty
      rw [fieldsEq, List.mem_filterMap] at fieldMem
      obtain ⟨column, columnMem, -⟩ := fieldMem
      rw [List.mem_filter] at columnMem
      exact (areRuns.mem_keys_iff _).mpr
        ⟨column, columnMem.1, of_decide_eq_true columnMem.2⟩
    obtain ⟨run, runMem, runKey⟩ := List.mem_map.mp present
    refine ⟨run, runMem, ?_⟩
    rw [← runKey, ← areRuns.items_eq run runMem] at fieldsEq
    calc
      tableOf run = ⟨run.1.1, run.1.2, table.fields⟩ := by
        rw [fieldsEq]; rfl
      _ = table := by rw [runKey]; rfl

theorem nodup_groupColumnsIntoTables
    (contiguous : Contiguous columnOwner columns) :
    ((groupColumnsIntoTables columns).map qualifiedName).Nodup := by
  rw [groupColumnsIntoTables_eq]
  refine List.Nodup.sublist (List.filter_sublist.map qualifiedName) ?_
  rw [List.map_map]
  exact (areRuns_runsOf contiguous).keys_nodup

theorem forall₂_describesColumn (columns : List ColumnInfo) :
    List.Forall₂ DescribesColumn (columns.filter mappable)
      (columns.filterMap fieldOf) := by
  induction columns with
  | nil => exact .nil
  | cons column columns induction =>
      cases mapped : pgTypeToArrow column.dataType column.udtName with
      | none =>
          have notMappable : ¬ mappable column = true := by
            simp [mappable, mapped]
          rw [List.filter_cons_of_neg notMappable,
            List.filterMap_cons_none (by simp [fieldOf, mapped])]
          exact induction
      | some dataType =>
          have isMappable : mappable column = true := by
            simp [mappable, mapped]
          have isField : fieldOf column = some ⟨column.column, dataType,
              column.isNullable,
              ambiguousPgType column.dataType column.udtName⟩ := by
            simp [fieldOf, mapped]
          rw [List.filter_cons_of_pos isMappable,
            List.filterMap_cons_some isField]
          exact .cons ⟨rfl, mapped, rfl, rfl⟩ induction

theorem isSome_fieldOf (column : ColumnInfo) :
    (fieldOf column).isSome = mappable column := by
  rw [fieldOf, Option.isSome_map, mappable]

theorem mem_map_qualifiedName_iff
    (contiguous : Contiguous columnOwner columns) (owner : String × String) :
    owner ∈ (groupColumnsIntoTables columns).map qualifiedName ↔
      ∃ column ∈ columns, columnOwner column = owner ∧
        mappable column = true := by
  have fieldsNonempty : ∀ owner : String × String,
      (columns.filter fun column =>
        columnOwner column = owner).filterMap fieldOf ≠ [] ↔
      ∃ column ∈ columns, columnOwner column = owner ∧
        mappable column = true := by
    intro owner
    simp only [← isSome_fieldOf, Option.isSome_iff_exists, ne_eq,
      List.filterMap_eq_nil_iff, List.mem_filter, decide_eq_true_eq,
      not_forall, ← Option.ne_none_iff_exists', exists_prop, and_assoc]
  rw [List.mem_map]
  constructor
  · rintro ⟨table, tableMem, rfl⟩
    obtain ⟨nonempty, fieldsEq⟩ :=
      (mem_groupColumnsIntoTables_iff contiguous).mp tableMem
    rw [fieldsEq] at nonempty
    exact (fieldsNonempty _).mp nonempty
  · intro isMapped
    refine ⟨⟨owner.1, owner.2, (columns.filter fun column =>
      columnOwner column = owner).filterMap fieldOf⟩, ?_, rfl⟩
    exact (mem_groupColumnsIntoTables_iff contiguous).mpr
      ⟨(fieldsNonempty owner).mpr isMapped, rfl⟩

theorem groupColumnsIntoTables_perm {others : List ColumnInfo}
    (contiguous : Contiguous columnOwner columns)
    (othersContiguous : Contiguous columnOwner others)
    (same : SameTables others columns) :
    (groupColumnsIntoTables others).Perm (groupColumnsIntoTables columns) := by
  refine (List.perm_ext_iff_of_nodup
    (nodup_groupColumnsIntoTables othersContiguous).of_map
    (nodup_groupColumnsIntoTables contiguous).of_map).mpr ?_
  intro table
  rw [mem_groupColumnsIntoTables_iff othersContiguous,
    mem_groupColumnsIntoTables_iff contiguous, same (qualifiedName table)]

end Grouping

section Ordering

variable {schemas : List String}

theorem isLE_comparePriority_iff {first second : TableSchema} :
    (comparePriority schemas first second).isLE = true ↔
      schemaRank schemas first.schema < schemaRank schemas second.schema ∨
        schemaRank schemas first.schema = schemaRank schemas second.schema ∧
          first.name ≤ second.name := by
  have byName : (compare first.name second.name).isLE = true ↔
      first.name ≤ second.name :=
    Ordering.ne_gt_iff_isLE.symm.trans compare_le_iff_le
  rw [comparePriority, Ordering.isLE_then_iff_or, Nat.compare_eq_lt,
    Nat.compare_eq_eq, byName]

variable (schemas) in
theorem perm_orderBySchemaPriority (tables : List TableSchema) :
    (orderBySchemaPriority tables schemas).Perm tables :=
  List.mergeSort_perm tables _

/-- The comparison is total and transitive, so the tables get sorted. -/
theorem pairwise_orderBySchemaPriority (tables : List TableSchema) :
    (orderBySchemaPriority tables schemas).Pairwise fun first second =>
      (comparePriority schemas first second).isLE = true := by
  refine List.pairwise_mergeSort ?_ ?_ tables
  · intro first second third
    rw [isLE_comparePriority_iff, isLE_comparePriority_iff,
      isLE_comparePriority_iff]
    rintro (firstRank | ⟨firstRank, firstName⟩)
      (secondRank | ⟨secondRank, secondName⟩)
    · exact Or.inl (firstRank.trans secondRank)
    · exact Or.inl (secondRank ▸ firstRank)
    · exact Or.inl (firstRank ▸ secondRank)
    · exact Or.inr ⟨firstRank.trans secondRank, firstName.trans secondName⟩
  · intro first second
    rw [Bool.or_eq_true, isLE_comparePriority_iff, isLE_comparePriority_iff]
    rcases Nat.lt_trichotomy (schemaRank schemas first.schema)
      (schemaRank schemas second.schema) with less | equal | greater
    · exact Or.inl (Or.inl less)
    · rcases le_total first.name second.name with before | after
      · exact Or.inl (Or.inr ⟨equal, before⟩)
      · exact Or.inr (Or.inr ⟨equal.symm, after⟩)
    · exact Or.inr (Or.inl greater)

theorem schemaRank_injective {first second : String}
    (firstMem : first ∈ schemas) (secondMem : second ∈ schemas)
    (rankEq : schemaRank schemas first = schemaRank schemas second) :
    first = second := by
  have position : ∀ {schema : String}, schema ∈ schemas →
      ∃ inBounds : schemaRank schemas schema < schemas.length,
        schemas[schemaRank schemas schema] = schema := by
    intro schema schemaMem
    cases found : schemas.idxOf? schema with
    | none => exact absurd schemaMem (List.idxOf?_eq_none_iff.mp found)
    | some index =>
        obtain ⟨inBounds, isSchema, -⟩ := List.idxOf?_eq_some_iff.mp found
        simp only [schemaRank, found, Option.getD_some]
        exact ⟨inBounds, isSchema⟩
  obtain ⟨firstBounds, isFirst⟩ := position firstMem
  obtain ⟨secondBounds, isSecond⟩ := position secondMem
  rw [← isFirst, ← isSecond]
  simp only [rankEq]

/-- Tables with distinct names in configured schemas have one order. -/
theorem orderBySchemaPriority_eq_of_perm {first second : List TableSchema}
    (perm : first.Perm second) (distinct : (second.map qualifiedName).Nodup)
    (configured : ∀ table ∈ second, table.schema ∈ schemas) :
    orderBySchemaPriority first schemas =
      orderBySchemaPriority second schemas := by
  have intoSecond : ∀ table ∈ orderBySchemaPriority first schemas,
      table ∈ second := fun table tableMem =>
    perm.mem_iff.mp ((perm_orderBySchemaPriority schemas first).mem_iff.mp tableMem)
  refine List.Perm.eq_of_pairwise ?_ (pairwise_orderBySchemaPriority first)
    (pairwise_orderBySchemaPriority second)
    ((perm_orderBySchemaPriority schemas first).trans
      (perm.trans (perm_orderBySchemaPriority schemas second).symm))
  intro table other tableMem otherMem
  have tableIn := intoSecond table tableMem
  have otherIn := (perm_orderBySchemaPriority schemas second).mem_iff.mp otherMem
  rw [isLE_comparePriority_iff, isLE_comparePriority_iff]
  intro before after
  have rankEq : schemaRank schemas table.schema =
      schemaRank schemas other.schema := by omega
  have nameEq : table.name = other.name := by
    refine le_antisymm ?_ ?_
    · exact (before.resolve_left (by omega)).2
    · exact (after.resolve_left (by omega)).2
  refine List.inj_on_of_nodup_map distinct tableIn otherIn (Prod.ext ?_ nameEq)
  exact schemaRank_injective (configured table tableIn)
    (configured other otherIn) rankEq

end Ordering

/-- Introspection of a report in which the columns of every table stand
together: one table for each owner of a mappable column, with exactly its
mappable columns, sorted by position of the schema and name; and when all
schemas are configured the order of the tables in the report does not matter. -/
theorem introspected_introspectTables {columns : List ColumnInfo}
    (contiguous : Contiguous columnOwner columns) (schemas : List String) :
    Introspected columns schemas (introspectTables columns schemas) ∧
      ∀ others, Contiguous columnOwner others → SameTables others columns →
        (∀ column ∈ columns, column.schema ∈ schemas) →
          introspectTables others schemas =
            introspectTables columns schemas := by
  have ordered := perm_orderBySchemaPriority schemas
    (groupColumnsIntoTables columns)
  constructor
  · refine ⟨?_, ?_, ?_, ?_⟩
    · exact (ordered.map qualifiedName).nodup_iff.mpr
        (nodup_groupColumnsIntoTables contiguous)
    · intro owner
      rw [← mem_map_qualifiedName_iff contiguous]
      exact (ordered.map qualifiedName).mem_iff
    · intro table tableMem
      have fieldsEq := ((mem_groupColumnsIntoTables_iff contiguous).mp
        (ordered.mem_iff.mp tableMem)).2
      rw [fieldsEq]
      have describes := forall₂_describesColumn (columns.filter fun column =>
        columnOwner column = qualifiedName table)
      rw [List.filter_filter] at describes
      simpa only [Bool.decide_and, Bool.decide_eq_true, Bool.and_comm]
        using describes
    · exact (pairwise_orderBySchemaPriority _).imp
        isLE_comparePriority_iff.mp
  · intro others othersContiguous same configured
    refine orderBySchemaPriority_eq_of_perm
      (groupColumnsIntoTables_perm contiguous othersContiguous same)
      (nodup_groupColumnsIntoTables contiguous) ?_
    intro table tableMem
    obtain ⟨column, columnMem, isOwner, -⟩ :=
      (mem_map_qualifiedName_iff contiguous _).mp
        (List.mem_map_of_mem tableMem)
    have isSchema : column.schema = table.schema :=
      (Prod.ext_iff.mp isOwner).1
    rw [← isSchema]
    exact configured column columnMem

/-- A report of two tables; one column has no Arrow mapping. -/
def reportedColumns : List ColumnInfo :=
  [⟨"public", "t", "id", "bigint", "int8", false⟩,
    ⟨"public", "t", "tags", "ARRAY", "_text", true⟩,
    ⟨"analytics", "keep", "doc", "jsonb", "jsonb", true⟩]

/-- The report with its second table first. -/
def reorderedColumns : List ColumnInfo :=
  [⟨"analytics", "keep", "doc", "jsonb", "jsonb", true⟩,
    ⟨"public", "t", "id", "bigint", "int8", false⟩,
    ⟨"public", "t", "tags", "ARRAY", "_text", true⟩]

theorem introspected_introspectTables_reported :
    Introspected reportedColumns ["public", "analytics"]
      (introspectTables reportedColumns ["public", "analytics"]) ∧
    introspectTables reorderedColumns ["public", "analytics"] =
      introspectTables reportedColumns ["public", "analytics"] := by
  have reported : Contiguous columnOwner reportedColumns := by
    intro first between last sublist same
    cases sublist.eq_of_length rfl
    exact absurd same (by decide +kernel)
  have reordered : Contiguous columnOwner reorderedColumns := by
    intro first between last sublist same
    cases sublist.eq_of_length rfl
    exact absurd same (by decide +kernel)
  have sameTables : SameTables reorderedColumns reportedColumns := by
    intro owner
    by_cases isPublic : ("public", "t") = owner
    · subst isPublic
      decide +kernel
    · by_cases isAnalytics : ("analytics", "keep") = owner
      · subst isAnalytics
        decide +kernel
      · simp [reorderedColumns, reportedColumns, columnOwner, isPublic,
          isAnalytics]
  have introspected :=
    introspected_introspectTables reported ["public", "analytics"]
  exact ⟨introspected.1, introspected.2 reorderedColumns reordered sameTables
    (by decide +kernel)⟩

end Catalog

end Igloo
