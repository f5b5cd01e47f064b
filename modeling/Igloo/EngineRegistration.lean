import Igloo.SessionCatalogs

/-!
# Registering the discovered tables

Every discovered table is registered twice: under its raw name in the catalog
of its source, and under an alias in the default catalog.  The canonical
registration always succeeds, and the catalog of a source then holds exactly
the tables of that source.
-/

namespace Igloo

namespace DataFusionEngine

open Catalog

/-- The table registered for the Parquet files. -/
def icebergTable : String :=
  "iceberg"

/-- The legacy name of `my_pg_table`. -/
def legacyAlias : String :=
  "pg_table"

def legacySourceTable : String :=
  "my_pg_table"

/-- The providers built so far, by source, schema and table. -/
abbrev Providers :=
  String × String × String → Option TableProvider

/-- One iteration over the tables of a source: `schema_provider` creates the
schema on first use, and the raw table name is registered there. -/
def registerCanonical (source : String) (filterPushdown : Bool)
    (progress : CatalogSchemas × Providers) (table : TableSchema) :
    Except String (CatalogSchemas × Providers) := do
  let provider := TableProvider.postgres source table filterPushdown
  let existing := (progress.1 table.schema).getD fun _ => none
  let tables ← registerInSchema existing table.name provider
  return (Function.update progress.1 table.schema (some tables),
    Function.update progress.2 (source, table.schema, table.name)
      (some provider))

/-- One iteration over the sources: a new catalog with all its tables. -/
def registerSource (filterPushdown : Bool)
    (progress : SessionCatalogs × Providers) (source : SourceTables) :
    Except String (SessionCatalogs × Providers) := do
  let (catalog, providers) ← source.tables.foldlM
    (registerCanonical source.source filterPushdown)
    (fun _ => none, progress.2)
  return (Function.update progress.1 source.source (some catalog), providers)

/-- One iteration over the aliases, with `legacy_registered`. -/
def registerAlias (parseRef : String → TableReference)
    (providers : Providers) (progress : SessionCatalogs × Bool)
    (given : Alias) : Except String (SessionCatalogs × Bool) :=
  match providers (given.source, given.table.schema, given.table.name) with
  | none => .error "provider built above"
  | some provider => do
      let catalogs ←
        registerTable parseRef progress.1 given.aliasName provider
      if !progress.2 && given.table.name == legacySourceTable then
        let catalogs ← registerTable parseRef catalogs legacyAlias provider
        return (catalogs, true)
      else return (catalogs, progress.2)

/-- `register_postgres_sources`, once the tables are discovered. -/
def registerPostgresSources (parseRef : String → TableReference)
    (filterPushdown : Bool) (catalogs : SessionCatalogs)
    (discovered : List SourceTables) : Except String SessionCatalogs := do
  let (catalogs, providers) ← discovered.foldlM
    (registerSource filterPushdown) (catalogs, fun _ => none)
  let (catalogs, _) ←
    (resolveAliases discovered [icebergTable, legacyAlias]).foldlM
      (registerAlias parseRef providers) (catalogs, false)
  return catalogs

/-- `new_with_pushdown`, once the Parquet path is parsed and the tables are
discovered. -/
def newWithPushdown (parseRef : String → TableReference)
    (filterPushdown : Bool) (discovered : List SourceTables) :
    Except String SessionCatalogs := do
  let catalogs ← registerTable parseRef newSession icebergTable .parquet
  registerPostgresSources parseRef filterPushdown catalogs discovered

/-- `validate_source_name`. -/
def validSourceName (name : String) : Bool :=
  (match name.toList with
    | [] => false
    | first :: rest =>
        ('a' ≤ first && first ≤ 'z') &&
          rest.all fun ch =>
            ('a' ≤ ch && ch ≤ 'z') || ch.isDigit || ch = '_') &&
    name ∉ ["datafusion", "information_schema"]

/-- The provider in a catalog by schema and raw table name. -/
def tableIn (schemas : CatalogSchemas) (key : String × String) :
    Option TableProvider :=
  (schemas key.1).bind fun tables => tables key.2

def tableKey (table : TableSchema) : String × String :=
  (table.schema, table.name)

section Canonical

open ExclusiveMaps

variable (source : String) (filterPushdown : Bool)

/-- The entries that the tables of a source make in its catalog. -/
def canonicalEntries (tables : List TableSchema) :
    List ((String × String) × TableProvider) :=
  tables.map fun table =>
    (tableKey table, .postgres source table filterPushdown)

theorem map_fst_canonicalEntries (tables : List TableSchema) :
    (canonicalEntries source filterPushdown tables).map Prod.fst =
      tables.map tableKey := by
  simp [canonicalEntries]

theorem registerCanonical_of_free {schemas : CatalogSchemas}
    {table : TableSchema} (providers : Providers)
    (free : tableIn schemas (tableKey table) = none) :
    ∃ next,
      registerCanonical source filterPushdown (schemas, providers) table =
          .ok (next, Function.update providers
            (source, table.schema, table.name)
            (some (.postgres source table filterPushdown))) ∧
        tableIn next = Function.update (tableIn schemas) (tableKey table)
          (some (.postgres source table filterPushdown)) ∧
        ∀ schema, (next schema).isSome ↔
          (schemas schema).isSome ∨ table.schema = schema := by
  have freeHere :
      ((schemas table.schema).getD fun _ => none) table.name = none := by
    cases existing : schemas table.schema with
    | none => rfl
    | some tables => simpa [tableIn, tableKey, existing] using free
  refine ⟨Function.update schemas table.schema (some (Function.update
    ((schemas table.schema).getD fun _ => none) table.name
    (some (.postgres source table filterPushdown)))), ?_, ?_, ?_⟩
  · simp [registerCanonical, registerInSchema, freeHere, bind, Except.bind,
      pure, Except.pure]
  · funext key
    obtain ⟨schema, name⟩ := key
    by_cases sameSchema : schema = table.schema
    · subst sameSchema
      by_cases sameName : name = table.name
      · subst sameName
        simp [tableIn, tableKey]
      · rw [Function.update_of_ne (by simp [tableKey, sameName])]
        cases existing : schemas table.schema <;>
          simp [tableIn, existing, Function.update_of_ne sameName]
    · rw [Function.update_of_ne (by simp [tableKey, sameSchema])]
      simp [tableIn, Function.update_of_ne sameSchema]
  · intro schema
    by_cases same : schema = table.schema
    · subst same
      simp
    · simp [Function.update_of_ne same, Ne.symm same]

/-- All tables of a source: the catalog holds exactly their entries on top of
what was there, and the providers are kept under their keys. -/
theorem foldlM_registerCanonical {tables : List TableSchema}
    (distinct : (tables.map tableKey).Nodup) (schemas : CatalogSchemas)
    (free : ∀ table ∈ tables, tableIn schemas (tableKey table) = none)
    (providers : Providers) :
    ∃ next nextProviders,
      tables.foldlM (registerCanonical source filterPushdown)
          (schemas, providers) = .ok (next, nextProviders) ∧
        insertAllNew (tableIn schemas)
            (canonicalEntries source filterPushdown tables) =
          some (tableIn next) ∧
        (∀ schema, (next schema).isSome ↔ (schemas schema).isSome ∨
          ∃ table ∈ tables, table.schema = schema) ∧
        (∀ table ∈ tables,
          nextProviders (source, table.schema, table.name) =
            some (.postgres source table filterPushdown)) ∧
        ∀ key, (∀ table ∈ tables,
            key ≠ (source, table.schema, table.name)) →
          nextProviders key = providers key := by
  induction tables generalizing schemas providers with
  | nil => exact ⟨schemas, providers, rfl, rfl, by simp, by simp, by simp⟩
  | cons table tables induction =>
      obtain ⟨fresh, distinct⟩ := List.nodup_cons.mp distinct
      have freeHere := free table List.mem_cons_self
      obtain ⟨middle, registered, view, hasSchema⟩ :=
        registerCanonical_of_free source filterPushdown providers freeHere
      have freeLater : ∀ later ∈ tables,
          tableIn middle (tableKey later) = none := by
        intro later laterMem
        have different : tableKey later ≠ tableKey table := fun same =>
          fresh (same ▸ List.mem_map_of_mem laterMem)
        rw [view, Function.update_of_ne different]
        exact free later (List.mem_cons_of_mem _ laterMem)
      obtain ⟨next, nextProviders, looped, inserted, schemaIff, kept,
        untouched⟩ := induction distinct middle freeLater
        (Function.update providers (source, table.schema, table.name)
          (some (.postgres source table filterPushdown)))
      refine ⟨next, nextProviders, ?_, ?_, ?_, ?_, ?_⟩
      · rw [List.foldlM_cons, registered]
        exact looped
      · rw [canonicalEntries, List.map_cons, insertAllNew_cons_eq_some_iff]
        exact ⟨freeHere, view ▸ inserted⟩
      · intro schema
        rw [schemaIff, hasSchema]
        simp [or_assoc]
      · intro other otherMem
        rcases List.mem_cons.mp otherMem with rfl | later
        · rw [untouched]
          · rw [Function.update_self]
          · rintro later laterMem same
            simp only [Prod.mk.injEq, true_and] at same
            refine fresh (List.mem_map.mpr ⟨later, laterMem, ?_⟩)
            simp [tableKey, same]
        · exact kept other later
      · intro key others
        rw [untouched key fun later laterMem =>
          others later (List.mem_cons_of_mem _ laterMem)]
        exact Function.update_of_ne (others table List.mem_cons_self) _ _

/-- What the catalog of a source holds. -/
structure HoldsTables (filterPushdown : Bool) (source : SourceTables)
    (schemas : CatalogSchemas) : Prop where
  own : ∀ table ∈ source.tables, tableIn schemas (tableKey table) =
    some (.postgres source.source table filterPushdown)
  only : ∀ key, key ∉ source.tables.map tableKey → tableIn schemas key = none
  schemas_iff : ∀ schema, (schemas schema).isSome ↔
    ∃ table ∈ source.tables, table.schema = schema

theorem HoldsTables.free_iff {filterPushdown : Bool} {source : SourceTables}
    {schemas : CatalogSchemas}
    (holds : HoldsTables filterPushdown source schemas)
    (key : String × String) :
    tableIn schemas key = none ↔ key ∉ source.tables.map tableKey := by
  constructor
  · intro free taken
    obtain ⟨table, tableMem, rfl⟩ := List.mem_map.mp taken
    rw [holds.own table tableMem] at free
    cases free
  · exact holds.only key

theorem registerSource_of_distinct {source : SourceTables}
    (distinct : (source.tables.map tableKey).Nodup)
    (catalogs : SessionCatalogs) (providers : Providers) :
    ∃ schemas nextProviders,
      registerSource filterPushdown (catalogs, providers) source =
          .ok (Function.update catalogs source.source (some schemas),
            nextProviders) ∧
        HoldsTables filterPushdown source schemas ∧
        (∀ table ∈ source.tables,
          nextProviders (source.source, table.schema, table.name) =
            some (.postgres source.source table filterPushdown)) ∧
        ∀ key, key.1 ≠ source.source →
          nextProviders key = providers key := by
  obtain ⟨schemas, nextProviders, looped, inserted, schemaIff, kept,
    untouched⟩ := foldlM_registerCanonical source.source filterPushdown
      distinct (fun _ => none) (fun _ _ => rfl) providers
  refine ⟨schemas, nextProviders, ?_, ⟨?_, ?_, by simpa using schemaIff⟩, kept,
    ?_⟩
  · simp [registerSource, looped, bind, Except.bind, pure, Except.pure]
  · intro table tableMem
    exact insertAllNew_of_mem inserted
      (List.mem_map.mpr ⟨table, tableMem, rfl⟩)
  · intro key other
    rw [insertAllNew_of_notMem inserted
      (by rwa [map_fst_canonicalEntries])]
    rfl
  · intro key otherSource
    refine untouched key ?_
    rintro table - rfl
    exact otherSource rfl

/-- All sources: every source has its own catalog, and all other catalogs are
as before. -/
theorem foldlM_registerSource {discovered : List SourceTables}
    (sources : (discovered.map SourceTables.source).Nodup)
    (distinct : ∀ source ∈ discovered,
      (source.tables.map tableKey).Nodup)
    (catalogs : SessionCatalogs) (providers : Providers) :
    ∃ next nextProviders,
      discovered.foldlM (registerSource filterPushdown)
          (catalogs, providers) = .ok (next, nextProviders) ∧
        (∀ name, name ∉ discovered.map SourceTables.source →
          next name = catalogs name) ∧
        (∀ source ∈ discovered, ∃ schemas,
          next source.source = some schemas ∧
            HoldsTables filterPushdown source schemas) ∧
        (∀ source ∈ discovered, ∀ table ∈ source.tables,
          nextProviders (source.source, table.schema, table.name) =
            some (.postgres source.source table filterPushdown)) ∧
        ∀ key, key.1 ∉ discovered.map SourceTables.source →
          nextProviders key = providers key := by
  induction discovered generalizing catalogs providers with
  | nil => exact ⟨catalogs, providers, rfl, by simp, by simp, by simp, by simp⟩
  | cons source rest induction =>
      obtain ⟨fresh, sources⟩ := List.nodup_cons.mp sources
      obtain ⟨schemas, middleProviders, registered, holds, kept, others⟩ :=
        registerSource_of_distinct filterPushdown
          (distinct source List.mem_cons_self) catalogs providers
      obtain ⟨next, nextProviders, looped, unchanged, catalogsOf, providersOf,
        untouched⟩ := induction sources
          (fun later laterMem =>
            distinct later (List.mem_cons_of_mem _ laterMem))
          (Function.update catalogs source.source (some schemas))
          middleProviders
      refine ⟨next, nextProviders, ?_, ?_, ?_, ?_, ?_⟩
      · rw [List.foldlM_cons, registered]
        exact looped
      · intro name notMem
        simp only [List.map_cons, List.mem_cons, not_or] at notMem
        rw [unchanged name notMem.2, Function.update_of_ne notMem.1]
      · intro other otherMem
        rcases List.mem_cons.mp otherMem with rfl | later
        · refine ⟨schemas, ?_, holds⟩
          rw [unchanged _ fresh, Function.update_self]
        · exact catalogsOf other later
      · intro other otherMem table tableMem
        rcases List.mem_cons.mp otherMem with rfl | later
        · rw [untouched _ fresh]
          exact kept table tableMem
        · exact providersOf other later table tableMem
      · intro key notMem
        simp only [List.map_cons, List.mem_cons, not_or] at notMem
        rw [untouched key notMem.2, others key notMem.1]

end Canonical

end DataFusionEngine

end Igloo
