import Igloo.AliasRegistration
import Igloo.EnvironmentOverrides
import Igloo.InformationSchema

/-!
# Starting the engine

The engine is built from an accepted configuration: the Parquet table is
registered under its path, every source is introspected, and its tables are
registered under their canonical names and under aliases.  The names that a
client can query then lead to exactly the Parquet table, the discovered tables
of the databases, the aliases, and the views of the information schema, which
hides what is registered under its own name.
-/

namespace Igloo

namespace DataFusionEngine

open Catalog Igloo.Configuration RelatedResults

/-- The rows with which a source answers the introspection statement, unless
connecting to it or asking it fails. -/
abbrev Introspect :=
  PostgresSource → Except String (List ColumnInfo)

section Construction

variable (parseRef : String → TableReference)
  (parseListingUrl : String → Except String Unit) (introspect : Introspect)

/-- `register_iceberg_table`; the parsed URL and the schema of the files make
up the Parquet table. -/
def registerIcebergTable (catalogs : SessionCatalogs) (parquetPath : String) :
    Except String SessionCatalogs := do
  parseListingUrl parquetPath
  registerTable parseRef catalogs icebergTable .parquet

/-- The loop of `register_postgres_sources` that introspects the sources. -/
def discoverSources (sources : List PostgresSource) :
    Except String (List SourceTables) :=
  sources.mapM fun source => do
    let rows ← introspect source
    return ⟨source.name, introspectTables rows source.schemas⟩

/-- `DataFusionEngine::new`. -/
def engineNew (parquetPath : String) (sources : List PostgresSource) :
    Except String SessionCatalogs := do
  let catalogs ←
    registerIcebergTable parseRef parseListingUrl newSession parquetPath
  let discovered ← discoverSources introspect sources
  registerPostgresSources parseRef true catalogs discovered

end Construction

/-- What is registered: the Parquet table, the tables of the sources under
their canonical names, and the aliases. -/
inductive Queryable (parseRef : String → TableReference)
    (discovered : List SourceTables) : ResolvedRef → TableProvider → Prop
  | iceberg : Queryable parseRef discovered icebergRef .parquet
  | canonical {source : SourceTables} {table : TableSchema}
      (sourceMem : source ∈ discovered) (tableMem : table ∈ source.tables) :
      Queryable parseRef discovered ⟨source.source, table.schema, table.name⟩
        (.postgres source.source table true)
  | named {name : String} {given : Alias}
      (namedMem : (name, given) ∈
        registeredNames false (engineAliases discovered)) :
      Queryable parseRef discovered (parseRef name).resolve
        (providerOf true given)

/-- The tables to discover in the databases of the sources, source by
source. -/
def DiscoveredIn (database : PostgresSource → InformationSchema)
    (sources : List PostgresSource) (discovered : List SourceTables) : Prop :=
  List.Forall₂ (fun source found => found.source = source.name ∧
      Discovered (database source) source.schemas source.tables found.tables)
    sources discovered

theorem mem_of_mem_registeredNames {legacyRegistered : Bool}
    {aliases : List Alias} {named : String × Alias}
    (namedMem : named ∈ registeredNames legacyRegistered aliases) :
    named.2 ∈ aliases := by
  induction aliases generalizing legacyRegistered with
  | nil => cases namedMem
  | cons given aliases induction =>
      rcases List.mem_cons.mp namedMem with rfl | later
      · exact List.mem_cons_self
      · split at later
        · rcases List.mem_cons.mp later with rfl | further
          · exact List.mem_cons_self
          · exact List.mem_cons_of_mem _ (induction further)
        · exact List.mem_cons_of_mem _ (induction later)

theorem exists_table_of_queryable {parseRef : String → TableReference}
    {discovered : List SourceTables} {ref : ResolvedRef} {name : String}
    {table : TableSchema} {filterPushdown : Bool}
    (queryable : Queryable parseRef discovered ref
      (.postgres name table filterPushdown)) :
    ∃ source ∈ discovered, source.source = name ∧ table ∈ source.tables := by
  generalize isProvider :
    TableProvider.postgres name table filterPushdown = provider at queryable
  cases queryable with
  | iceberg => cases isProvider
  | canonical sourceMem tableMem =>
      cases isProvider
      exact ⟨_, sourceMem, rfl, tableMem⟩
  | named namedMem =>
      cases isProvider
      exact exists_of_mem_resolveAliases _
        (mem_of_mem_registeredNames namedMem)

section Sessions

variable {parseRef : String → TableReference} {discovered : List SourceTables}
  {catalogs next : SessionCatalogs}

/-- Before the aliases the session holds the Parquet table and the tables of
the sources. -/
theorem queryable_of_canonicalSession
    (session : CanonicalSession true discovered catalogs) {ref : ResolvedRef}
    {provider : TableProvider} (present : tableAt catalogs ref = some provider) :
    Queryable parseRef discovered ref provider := by
  by_cases isIceberg : ref = icebergRef
  · subst isIceberg
    rw [session.iceberg] at present
    cases present
    exact .iceberg
  · have isCanonical : ref ∈ canonicalRefs discovered := by
      by_contra notCanonical
      rw [(session.free_iff ref).mpr ⟨isIceberg, notCanonical⟩] at present
      cases present
    obtain ⟨source, sourceMem, refMem⟩ := List.mem_flatMap.mp isCanonical
    obtain ⟨table, tableMem, rfl⟩ := List.mem_map.mp refMem
    rw [session.own source sourceMem table tableMem] at present
    cases present
    exact .canonical sourceMem tableMem

theorem queryable_of_registerRefs
    (session : CanonicalSession true discovered catalogs)
    (registered : registerRefs catalogs (aliasEntries parseRef true
      (registeredNames false (engineAliases discovered))) = .ok next)
    (ref : ResolvedRef) (provider : TableProvider) :
    tableAt next ref = some provider ↔
      Queryable parseRef discovered ref provider := by
  obtain ⟨-, inserted⟩ := insertAllNew_of_registerRefs registered
  obtain ⟨-, apart⟩ := separate_of_registerRefs session registered
  rw [← map_fst_aliasEntries parseRef true] at apart
  constructor
  · intro present
    by_cases refMem : ref ∈ (aliasEntries parseRef true
        (registeredNames false (engineAliases discovered))).map Prod.fst
    · obtain ⟨entry, entryMem, rfl⟩ := List.mem_map.mp refMem
      rw [ExclusiveMaps.insertAllNew_of_mem inserted entryMem] at present
      obtain ⟨⟨name, given⟩, namedMem, rfl⟩ := List.mem_map.mp entryMem
      cases present
      exact .named namedMem
    · rw [ExclusiveMaps.insertAllNew_of_notMem inserted refMem] at present
      exact queryable_of_canonicalSession session present
  · rintro (_ | ⟨sourceMem, tableMem⟩ | namedMem)
    · have notAlias := fun refMem => (apart icebergRef refMem).2.1 rfl
      rw [ExclusiveMaps.insertAllNew_of_notMem inserted notAlias]
      exact session.iceberg
    · rename_i source table
      have isCanonical : ⟨source.source, table.schema, table.name⟩ ∈
          canonicalRefs discovered :=
        List.mem_flatMap.mpr ⟨source, sourceMem,
          List.mem_map_of_mem tableMem⟩
      have notAlias := fun refMem => (apart _ refMem).2.2 isCanonical
      rw [ExclusiveMaps.insertAllNew_of_notMem inserted notAlias]
      exact session.own source sourceMem table tableMem
    · exact ExclusiveMaps.insertAllNew_of_mem inserted
        (List.mem_map_of_mem namedMem)

end Sessions

section Startup

variable {parseRef : String → TableReference}
  {parseListingUrl : String → Except String Unit} {introspect : Introspect}
  {database : PostgresSource → InformationSchema}
  {collate : String → String → Ordering} {config : Config}
  {discovered : List SourceTables}

theorem discoverSources_eq [Std.TransCmp collate] [Std.LawfulEqCmp collate]
    {sources : List PostgresSource}
    (answered : ∀ source ∈ sources, ∃ rows,
      introspect source = .ok (rows.map ColumnRow.info) ∧
        AnswersIntrospection (database source) source.schemas source.tables
          collate rows)
    (isDiscovered : DiscoveredIn database sources discovered) :
    discoverSources introspect sources = .ok discovered := by
  apply mapM_eq_ok_iff.mpr
  have inSources := (List.forall₂_and_left _ _).mpr
    ⟨fun _ sourceMem => sourceMem, isDiscovered⟩
  refine inSources.imp ?_
  rintro source found ⟨sourceMem, nameEq, isFound⟩
  obtain ⟨rows, isAnswer, answers⟩ := answered source sourceMem
  have same := discovered_unique (discovered_introspectTables answers) isFound
  rw [isAnswer]
  change Except.ok (SourceTables.mk source.name (introspectTables
    (rows.map ColumnRow.info) source.schemas)) = _
  rw [same, ← nameEq]

theorem exists_discoveredIn [Std.TransCmp collate] [Std.LawfulEqCmp collate]
    {sources : List PostgresSource}
    (answered : ∀ source ∈ sources, ∃ rows, AnswersIntrospection
      (database source) source.schemas source.tables collate rows) :
    ∃ discovered, DiscoveredIn database sources discovered := by
  induction sources with
  | nil => exact ⟨[], .nil⟩
  | cons source sources induction =>
      obtain ⟨⟨rows, answers⟩, later⟩ := List.forall_mem_cons.mp answered
      obtain ⟨discovered, isDiscovered⟩ := induction later
      exact ⟨⟨source.name, _⟩ :: discovered,
        .cons ⟨rfl, discovered_introspectTables answers⟩ isDiscovered⟩

theorem map_source_of_discoveredIn {sources : List PostgresSource}
    (isDiscovered : DiscoveredIn database sources discovered) :
    discovered.map SourceTables.source =
      sources.map PostgresSource.name := by
  rw [← List.forall₂_eq_eq_eq, List.forall₂_map_left_iff,
    List.forall₂_map_right_iff]
  exact isDiscovered.flip.imp fun _ _ found => found.1

/-- Once the Parquet path is parsed, the engine of an accepted configuration
registers the aliases in a session that holds the Parquet table and the tables
of the sources. -/
theorem engineNew_eq [Std.TransCmp collate] [Std.LawfulEqCmp collate]
    (plain : parseRef icebergTable = .bare icebergTable)
    {platform : Platform} {file : FileConfig} {env : Environment}
    (accepted : fromSources platform file env = .ok config)
    (answered : ∀ source ∈ config.postgresSources, ∃ rows,
      introspect source = .ok (rows.map ColumnRow.info) ∧
        AnswersIntrospection (database source) source.schemas source.tables
          collate rows)
    (isDiscovered : DiscoveredIn database config.postgresSources discovered)
    (parseListingUrl : String → Except String Unit) :
    ∃ session, CanonicalSession true discovered session ∧
      engineNew parseRef parseListingUrl introspect config.parquetPath
          config.postgresSources =
        parseListingUrl config.parquetPath >>= fun _ =>
          registerRefs session (aliasEntries parseRef true
            (registeredNames false (engineAliases discovered))) := by
  obtain ⟨-, each, distinct⟩ :=
    sources_of_validate (validate_of_fromSources accepted)
  have names := map_source_of_discoveredIn isDiscovered
  have valid : ∀ source ∈ discovered, validSourceName source.source := by
    intro found foundMem
    have nameMem : found.source ∈
        config.postgresSources.map PostgresSource.name :=
      names ▸ List.mem_map_of_mem foundMem
    obtain ⟨source, sourceMem, nameEq⟩ := List.mem_map.mp nameMem
    rw [← nameEq]
    exact validateSourceName_eq_ok_iff.mp (each source sourceMem).1
  have keys : ∀ source ∈ discovered, (source.tables.map tableKey).Nodup := by
    intro found foundMem
    obtain ⟨source, -, -, isFound⟩ :=
      exists_related_of_mem isDiscovered.flip foundMem
    exact isFound.one_each
  obtain ⟨session, canonical, registers⟩ :=
    newWithPushdown_eq true plain (names ▸ distinct) valid keys
  refine ⟨session, canonical, ?_⟩
  rw [← registers, engineNew, discoverSources_eq answered isDiscovered,
    registerIcebergTable]
  cases parseListingUrl config.parquetPath <;> rfl

theorem queryable_of_engineNew [Std.TransCmp collate]
    [Std.LawfulEqCmp collate]
    (plain : parseRef icebergTable = .bare icebergTable)
    {platform : Platform} {file : FileConfig} {env : Environment}
    (accepted : fromSources platform file env = .ok config)
    (answered : ∀ source ∈ config.postgresSources, ∃ rows,
      introspect source = .ok (rows.map ColumnRow.info) ∧
        AnswersIntrospection (database source) source.schemas source.tables
          collate rows)
    (isDiscovered : DiscoveredIn database config.postgresSources discovered)
    {catalogs : SessionCatalogs}
    (started : engineNew parseRef parseListingUrl introspect
      config.parquetPath config.postgresSources = .ok catalogs)
    (ref : ResolvedRef) (provider : TableProvider) :
    tableAt catalogs ref = some provider ↔
      Queryable parseRef discovered ref provider := by
  obtain ⟨session, canonical, isNew⟩ :=
    engineNew_eq plain accepted answered isDiscovered parseListingUrl
  rw [isNew] at started
  obtain ⟨-, -, registered⟩ := bind_eq_ok_iff.mp started
  exact queryable_of_registerRefs canonical registered ref provider

end Startup

section Shop

/-- A configuration of one source. -/
def shopFile : FileConfig where
  parquetPath := some "/data/parquet"
  cdcPath := some "/data/cdc"
  postgresUri := some "postgres://db/shop"
  postgresSchemas := none
  sources := none
  listenAddr := none
  cacheMaxEntries := none
  cacheTtlSeconds := none
  cdcPollSeconds := none

def shopConfig : Config where
  parquetPath := "/data/parquet"
  cdcPath := "/data/cdc"
  postgresSources := [⟨"postgres", ⟨"postgres://db/shop"⟩, ["public"], none⟩]
  listenAddr := none
  cacheMaxEntries := 1024
  cacheTtl := ⟨300⟩
  cdcPollInterval := ⟨10⟩

def ordersTable : TableSchema :=
  ⟨"public", "orders",
    [⟨"id", .int64, false, none⟩, ⟨"note", .utf8, true, none⟩]⟩

theorem fromSources_shopFile :
    fromSources plainPlatform shopFile (fun _ => none) = .ok shopConfig := by
  decide +kernel

theorem introspectTables_orderColumns :
    introspectTables (orderColumns.map ColumnRow.info) ["public"] =
      [ordersTable] := by
  decide +kernel

theorem introspected_shop :
    ∀ source ∈ shopConfig.postgresSources, ∃ rows,
      (Except.ok (orderColumns.map ColumnRow.info) :
          Except String (List ColumnInfo)) =
        .ok (rows.map ColumnRow.info) ∧
        AnswersIntrospection shop source.schemas source.tables compare
          rows := by
  intro source sourceMem
  cases List.mem_singleton.mp sourceMem
  exact ⟨orderColumns, rfl, by decide, by decide +kernel⟩

theorem discovered_shop : Discovered shop ["public"] none [ordersTable] := by
  obtain ⟨rows, isAnswer, answers⟩ :=
    introspected_shop _ (List.mem_singleton.mpr rfl)
  have discovers := discovered_introspectTables answers
  rwa [← Except.ok.inj isAnswer, introspectTables_orderColumns] at discovers

/-- The paths that open no bracket. -/
def plainUrl (path : String) : Except String Unit :=
  if '[' ∈ path.toList then .error "invalid glob pattern" else .ok ()

end Shop

end DataFusionEngine

end Igloo
