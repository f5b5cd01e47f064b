import Igloo.AliasResolution
import Igloo.EngineRegistration

/-!
# Registering the aliases

The alias of a table is parsed as a table reference, which folds unquoted
identifiers to lower case and splits qualified names, while collisions between
aliases were avoided on the raw strings.  Registration succeeds, and every
name resolves to its own table, exactly when the parsed references do not
collide.
-/

namespace Igloo

namespace DataFusionEngine

open Catalog

/-- The names that the alias loop registers, in order: every alias, and the
legacy name after the first aliased `my_pg_table`. -/
def registeredNames : Bool → List Alias → List (String × Alias)
  | _, [] => []
  | legacyRegistered, given :: rest =>
      (given.aliasName, given) ::
        if !legacyRegistered && given.table.name == legacySourceTable then
          (legacyAlias, given) :: registeredNames true rest
        else registeredNames legacyRegistered rest

/-- The provider of an aliased table. -/
def providerOf (filterPushdown : Bool) (given : Alias) : TableProvider :=
  .postgres given.source given.table filterPushdown

/-- What the alias loop registers for a list of discovered tables. -/
def aliasEntries (parseRef : String → TableReference) (filterPushdown : Bool)
    (names : List (String × Alias)) : List (ResolvedRef × TableProvider) :=
  names.map fun named =>
    ((parseRef named.1).resolve, providerOf filterPushdown named.2)

section Aliases

variable {parseRef : String → TableReference} {filterPushdown : Bool}

theorem foldlM_registerAlias {providers : Providers} {aliases : List Alias}
    (provided : ∀ given ∈ aliases,
      providers (given.source, given.table.schema, given.table.name) =
        some (providerOf filterPushdown given))
    (catalogs : SessionCatalogs) (legacyRegistered : Bool) :
    (aliases.foldlM (registerAlias parseRef providers)
        (catalogs, legacyRegistered)).map Prod.fst =
      registerRefs catalogs (aliasEntries parseRef filterPushdown
        (registeredNames legacyRegistered aliases)) := by
  induction aliases generalizing catalogs legacyRegistered with
  | nil => rfl
  | cons given rest induction =>
      have here := provided given List.mem_cons_self
      have later : ∀ other ∈ rest,
          providers (other.source, other.table.schema, other.table.name) =
            some (providerOf filterPushdown other) :=
        fun other otherMem => provided other (List.mem_cons_of_mem _ otherMem)
      simp only [List.foldlM_cons, registerAlias, here, registerTable,
        registeredNames, aliasEntries, List.map_cons, registerRefs]
      cases registerRef catalogs (parseRef given.aliasName).resolve
          (providerOf filterPushdown given) with
      | error message => rfl
      | ok middle =>
          split
          · simp only [List.map_cons, List.foldlM_cons]
            cases registered : registerRef middle
                (parseRef legacyAlias).resolve
                (providerOf filterPushdown given) with
            | error message => simp [registered, bind, Except.bind, Except.map]
            | ok last =>
                simpa [registered, bind, Except.bind, pure, Except.pure,
                  registerRefs, aliasEntries]
                  using induction later last true
          · exact induction later middle legacyRegistered

theorem mem_registeredNames {aliases : List Alias} {given : Alias}
    (givenMem : given ∈ aliases) (legacyRegistered : Bool) :
    (given.aliasName, given) ∈ registeredNames legacyRegistered aliases := by
  induction aliases generalizing legacyRegistered with
  | nil => cases givenMem
  | cons first rest induction =>
      rcases List.mem_cons.mp givenMem with rfl | later
      · simp [registeredNames]
      · simp only [registeredNames, List.mem_cons]
        right
        split
        · exact List.mem_cons_of_mem _ (induction later true)
        · exact induction later legacyRegistered

/-- The legacy name goes to the first aliased `my_pg_table`. -/
theorem legacy_mem_registeredNames {aliases : List Alias} {given : Alias}
    (found : aliases.find? (fun given =>
      given.table.name == legacySourceTable) = some given) :
    (legacyAlias, given) ∈ registeredNames false aliases := by
  induction aliases with
  | nil => cases found
  | cons first rest induction =>
      rw [List.find?_cons] at found
      simp only [registeredNames, List.mem_cons]
      right
      split at found
      · rename_i isLegacy
        cases found
        simp [isLegacy]
      · rename_i notLegacy
        simpa [notLegacy] using induction found

theorem mem_map_fst_registeredNames {legacyRegistered : Bool}
    {aliases : List Alias} {name : String}
    (nameMem : name ∈
      (registeredNames legacyRegistered aliases).map Prod.fst) :
    name ∈ aliases.map Alias.aliasName ∨
      legacyRegistered = false ∧ name = legacyAlias := by
  induction aliases generalizing legacyRegistered with
  | nil => simp [registeredNames] at nameMem
  | cons first rest induction =>
      simp only [registeredNames, List.map_cons, List.mem_cons] at nameMem
      rcases nameMem with here | later
      · exact Or.inl (here ▸ List.mem_cons_self)
      · split at later
        · rename_i isLegacy
          rcases List.mem_cons.mp later with legacy | after
          · exact Or.inr ⟨by simp_all, legacy⟩
          · rcases induction after with inRest | ⟨impossible, -⟩
            · exact Or.inl (List.mem_cons_of_mem _ inRest)
            · cases impossible
        · rcases induction later with inRest | legacy
          · exact Or.inl (List.mem_cons_of_mem _ inRest)
          · exact Or.inr legacy

theorem nodup_map_fst_registeredNames {aliases : List Alias}
    (nodup : (aliases.map Alias.aliasName).Nodup)
    (unreserved : legacyAlias ∉ aliases.map Alias.aliasName)
    (legacyRegistered : Bool) :
    ((registeredNames legacyRegistered aliases).map Prod.fst).Nodup := by
  induction aliases generalizing legacyRegistered with
  | nil => exact List.nodup_nil
  | cons first rest induction =>
      obtain ⟨fresh, nodup⟩ := List.nodup_cons.mp nodup
      simp only [List.map_cons, List.mem_cons, not_or] at unreserved
      have freshLater : ∀ registered,
          first.aliasName ∉ (registeredNames registered rest).map Prod.fst :=
        fun registered nameMem =>
          (mem_map_fst_registeredNames nameMem).elim fresh
            fun legacy => unreserved.1 legacy.2.symm
      simp only [registeredNames, List.map_cons]
      split
      · have legacyFresh :
            legacyAlias ∉ (registeredNames true rest).map Prod.fst :=
          fun nameMem => (mem_map_fst_registeredNames nameMem).elim
            unreserved.2 fun impossible => by cases impossible.1
        refine List.nodup_cons.mpr ⟨?_, List.nodup_cons.mpr
          ⟨legacyFresh, induction nodup unreserved.2 true⟩⟩
        simp only [List.map_cons, List.mem_cons, not_or]
        exact ⟨fun same => unreserved.1 same.symm, freshLater true⟩
      · exact List.nodup_cons.mpr ⟨freshLater _,
          induction nodup unreserved.2 legacyRegistered⟩

end Aliases

/-- The aliases of the discovered tables, as the engine asks for them. -/
def engineAliases (discovered : List SourceTables) : List Alias :=
  resolveAliases discovered [icebergTable, legacyAlias]

/-- Every registered name leads to its own table. -/
structure ResolvesOwn (parseRef : String → TableReference)
    (filterPushdown : Bool) (discovered : List SourceTables)
    (catalogs : SessionCatalogs) : Prop where
  canonical : ∀ source ∈ discovered, ∀ table ∈ source.tables,
    tableAt catalogs ⟨source.source, table.schema, table.name⟩ =
      some (.postgres source.source table filterPushdown)
  aliases : ∀ given ∈ engineAliases discovered,
    table parseRef catalogs given.aliasName =
      some (providerOf filterPushdown given)
  iceberg : table parseRef catalogs icebergTable = some .parquet
  legacy : ∀ given,
    (engineAliases discovered).find?
        (fun given => given.table.name == legacySourceTable) = some given →
      table parseRef catalogs legacyAlias =
        some (providerOf filterPushdown given)

def canonicalRefs (discovered : List SourceTables) : List ResolvedRef :=
  discovered.flatMap fun source =>
    source.tables.map fun table => ⟨source.source, table.schema, table.name⟩

def icebergRef : ResolvedRef :=
  ⟨"datafusion", "public", icebergTable⟩

/-- The schema of a reference is the default one or one of a source. -/
def SchemaKnown (discovered : List SourceTables) (ref : ResolvedRef) : Prop :=
  ref.schema ≠ "information_schema" ∧
    (ref.catalog = "datafusion" ∧ ref.schema = "public" ∨
      ∃ source ∈ discovered, source.source = ref.catalog ∧
        ∃ table ∈ source.tables, table.schema = ref.schema)

instance (discovered : List SourceTables) (ref : ResolvedRef) :
    Decidable (SchemaKnown discovered ref) :=
  inferInstanceAs (Decidable (_ ∧ (_ ∨ _)))

/-- The references that the aliases parse to, and the one of the legacy name
where it is registered, are distinct, in known schemas, and none of them is
taken by `iceberg` or by a canonical name. -/
def ReferencesSeparate (parseRef : String → TableReference)
    (discovered : List SourceTables) : Prop :=
  let refs := (registeredNames false (engineAliases discovered)).map
    fun named => (parseRef named.1).resolve
  refs.Nodup ∧ ∀ ref ∈ refs, SchemaKnown discovered ref ∧
    ref ≠ icebergRef ∧ ref ∉ canonicalRefs discovered

instance (parseRef : String → TableReference)
    (discovered : List SourceTables) :
    Decidable (ReferencesSeparate parseRef discovered) :=
  inferInstanceAs (Decidable (_ ∧ _))

/-- The session after the Parquet table and all canonical names. -/
structure CanonicalSession (filterPushdown : Bool)
    (discovered : List SourceTables) (catalogs : SessionCatalogs) : Prop where
  own : ∀ source ∈ discovered, ∀ table ∈ source.tables,
    tableAt catalogs ⟨source.source, table.schema, table.name⟩ =
      some (.postgres source.source table filterPushdown)
  iceberg : tableAt catalogs icebergRef = some .parquet
  free_iff : ∀ ref, tableAt catalogs ref = none ↔
    ref ≠ icebergRef ∧ ref ∉ canonicalRefs discovered
  hasSchema_iff : ∀ ref, HasSchema catalogs ref ↔ SchemaKnown discovered ref

/-- The session before any source is registered. -/
def icebergSession : SessionCatalogs :=
  Function.update newSession "datafusion"
    (some (Function.update
      (Function.update (fun _ => none) "public" (some fun _ => none)) "public"
      (some (Function.update (fun _ => none) icebergTable (some .parquet)))))

section Phases

variable {parseRef : String → TableReference} {filterPushdown : Bool}
variable {discovered : List SourceTables}

theorem registerTable_iceberg
    (plain : parseRef icebergTable = .bare icebergTable) :
    registerTable parseRef newSession icebergTable .parquet =
      .ok icebergSession := by
  simp [registerTable, plain, TableReference.resolve, registerRef, newSession,
    registerInSchema, icebergSession, bind, Except.bind, pure, Except.pure]

theorem icebergSession_of_ne {name : String} (other : name ≠ "datafusion") :
    icebergSession name = none := by
  simp [icebergSession, newSession, Function.update_of_ne other]

theorem tableAt_icebergSession {ref : ResolvedRef}
    (datafusion : ref.catalog = "datafusion") :
    tableAt icebergSession ref =
      if ref = icebergRef then some .parquet else none := by
  obtain ⟨catalog, schema, name⟩ := ref
  simp only at datafusion
  subst datafusion
  by_cases isPublic : schema = "public"
  · subst isPublic
    by_cases isIceberg : name = icebergTable
    · simp [tableAt, icebergSession, icebergRef, isIceberg]
    · simp [tableAt, icebergSession, icebergRef, isIceberg]
  · simp [tableAt, icebergSession, icebergRef, isPublic]

theorem mem_canonicalRefs {ref : ResolvedRef} :
    ref ∈ canonicalRefs discovered ↔ ∃ source ∈ discovered,
      source.source = ref.catalog ∧
        (ref.schema, ref.table) ∈ source.tables.map tableKey := by
  obtain ⟨catalog, schema, name⟩ := ref
  simp only [canonicalRefs, List.mem_flatMap, List.mem_map,
    ResolvedRef.mk.injEq, tableKey, Prod.mk.injEq]
  constructor
  · rintro ⟨source, sourceMem, table, tableMem, sourceEq, keyEq⟩
    exact ⟨source, sourceMem, sourceEq, table, tableMem, keyEq⟩
  · rintro ⟨source, sourceMem, sourceEq, table, tableMem, keyEq⟩
    exact ⟨source, sourceMem, table, tableMem, sourceEq, keyEq⟩

theorem mem_canonicalRefs_of_source {ref : ResolvedRef}
    {source : SourceTables}
    (sources : (discovered.map SourceTables.source).Nodup)
    (sourceMem : source ∈ discovered)
    (sourceEq : source.source = ref.catalog) :
    ref ∈ canonicalRefs discovered ↔
      (ref.schema, ref.table) ∈ source.tables.map tableKey := by
  rw [mem_canonicalRefs]
  constructor
  · rintro ⟨other, otherMem, otherEq, keyMem⟩
    rwa [List.inj_on_of_nodup_map sources otherMem sourceMem
      (otherEq.trans sourceEq.symm)] at keyMem
  · exact fun keyMem => ⟨source, sourceMem, sourceEq, keyMem⟩

theorem isSome_icebergSession (ref : ResolvedRef) :
    ((icebergSession ref.catalog).bind fun schemas =>
        schemas ref.schema).isSome ↔
      ref.catalog = "datafusion" ∧ ref.schema = "public" := by
  by_cases datafusion : ref.catalog = "datafusion"
  · by_cases isPublic : ref.schema = "public"
    · simp [icebergSession, datafusion, isPublic]
    · simp [icebergSession, datafusion, isPublic]
  · simp [icebergSession_of_ne datafusion, datafusion]

theorem canonicalSession_of_distinct
    (sources : (discovered.map SourceTables.source).Nodup)
    (valid : ∀ source ∈ discovered, validSourceName source.source)
    (distinct : ∀ source ∈ discovered,
      (source.tables.map tableKey).Nodup) :
    ∃ catalogs providers,
      discovered.foldlM (registerSource filterPushdown)
          (icebergSession, fun _ => none) = .ok (catalogs, providers) ∧
        CanonicalSession filterPushdown discovered catalogs ∧
        ∀ given ∈ engineAliases discovered,
          providers (given.source, given.table.schema, given.table.name) =
            some (providerOf filterPushdown given) := by
  obtain ⟨catalogs, providers, looped, unchanged, catalogsOf, providersOf,
    -⟩ := foldlM_registerSource filterPushdown sources distinct
      icebergSession fun _ => none
  have notDatafusion : "datafusion" ∉ discovered.map SourceTables.source := by
    intro taken
    obtain ⟨source, sourceMem, sourceEq⟩ := List.mem_map.mp taken
    have validHere := valid source sourceMem
    simp [validSourceName, sourceEq] at validHere
  refine ⟨catalogs, providers, looped, ⟨?_, ?_, ?_, ?_⟩, ?_⟩
  · intro source sourceMem table tableMem
    obtain ⟨schemas, schemasEq, holds⟩ := catalogsOf source sourceMem
    have own := holds.own table tableMem
    simpa [tableAt, schemasEq, tableIn, tableKey] using own
  · have sameHere := unchanged "datafusion" notDatafusion
    have before : tableAt icebergSession icebergRef = some .parquet := by
      rw [tableAt_icebergSession rfl, if_pos rfl]
    simpa [tableAt, icebergRef, sameHere] using before
  · intro ref
    by_cases ofSource : ref.catalog ∈ discovered.map SourceTables.source
    · obtain ⟨source, sourceMem, sourceEq⟩ := List.mem_map.mp ofSource
      obtain ⟨schemas, schemasEq, holds⟩ := catalogsOf source sourceMem
      have view : tableAt catalogs ref =
          tableIn schemas (ref.schema, ref.table) := by
        simp [tableAt, tableIn, ← sourceEq, schemasEq]
      have notIceberg : ref ≠ icebergRef := by
        rintro rfl
        exact notDatafusion ofSource
      have canonicalIff := mem_canonicalRefs_of_source sources sourceMem
        sourceEq
      rw [view, holds.free_iff, canonicalIff]
      simp [notIceberg]
    · have view : tableAt catalogs ref = tableAt icebergSession ref := by
        simp [tableAt, unchanged _ ofSource]
      have notCanonical : ref ∉ canonicalRefs discovered := by
        intro canonical
        obtain ⟨source, sourceMem, sourceEq, -⟩ :=
          mem_canonicalRefs.mp canonical
        exact ofSource (List.mem_map.mpr ⟨source, sourceMem, sourceEq⟩)
      by_cases datafusion : ref.catalog = "datafusion"
      · rw [view, tableAt_icebergSession datafusion]
        simp [notCanonical]
      · have notIceberg : ref ≠ icebergRef := by
          rintro rfl
          exact datafusion rfl
        rw [view]
        simp [tableAt, icebergSession_of_ne datafusion, notIceberg,
          notCanonical]
  · intro ref
    by_cases ofSource : ref.catalog ∈ discovered.map SourceTables.source
    · obtain ⟨source, sourceMem, sourceEq⟩ := List.mem_map.mp ofSource
      obtain ⟨schemas, schemasEq, holds⟩ := catalogsOf source sourceMem
      have notHere : ref.catalog ≠ "datafusion" := by
        intro same
        exact notDatafusion (same ▸ ofSource)
      simp only [HasSchema, SchemaKnown, ← sourceEq, schemasEq,
        Option.bind_some, holds.schemas_iff]
      refine and_congr_right fun _ => ⟨?_, ?_⟩
      · exact fun known => Or.inr ⟨source, sourceMem, rfl, known⟩
      · rintro (⟨same, -⟩ | ⟨other, otherMem, otherEq, known⟩)
        · exact absurd (sourceEq ▸ same) notHere
        · rwa [List.inj_on_of_nodup_map sources otherMem sourceMem
            otherEq] at known
    · have noSource : ¬ ∃ source ∈ discovered,
          source.source = ref.catalog ∧
            ∃ table ∈ source.tables, table.schema = ref.schema := by
        rintro ⟨source, sourceMem, sourceEq, -⟩
        exact ofSource (List.mem_map.mpr ⟨source, sourceMem, sourceEq⟩)
      simp only [HasSchema, SchemaKnown, unchanged _ ofSource, noSource,
        or_false]
      exact and_congr_right fun _ => isSome_icebergSession ref
  · intro given givenMem
    obtain ⟨source, sourceMem, sourceEq, tableMem⟩ :=
      exists_of_mem_resolveAliases given givenMem
    rw [← sourceEq, providersOf source sourceMem given.table tableMem,
      providerOf, sourceEq]

/-- After the canonical names, the engine registers the alias references one
after another. -/
theorem newWithPushdown_eq (filterPushdown : Bool)
    (plain : parseRef icebergTable = .bare icebergTable)
    (sources : (discovered.map SourceTables.source).Nodup)
    (valid : ∀ source ∈ discovered, validSourceName source.source)
    (distinct : ∀ source ∈ discovered,
      (source.tables.map tableKey).Nodup) :
    ∃ catalogs, CanonicalSession filterPushdown discovered catalogs ∧
      newWithPushdown parseRef filterPushdown discovered =
        registerRefs catalogs (aliasEntries parseRef filterPushdown
          (registeredNames false (engineAliases discovered))) := by
  obtain ⟨catalogs, providers, looped, session, provided⟩ :=
    canonicalSession_of_distinct sources valid distinct
  refine ⟨catalogs, session, ?_⟩
  rw [← foldlM_registerAlias provided catalogs false]
  simp only [newWithPushdown, registerTable_iceberg plain,
    registerPostgresSources, looped, bind, Except.bind]
  rw [← engineAliases]
  cases (engineAliases discovered).foldlM (registerAlias parseRef providers)
      (catalogs, false) <;> rfl

theorem map_fst_aliasEntries (parseRef : String → TableReference)
    (filterPushdown : Bool) (names : List (String × Alias)) :
    (aliasEntries parseRef filterPushdown names).map Prod.fst =
      names.map fun named => (parseRef named.1).resolve := by
  simp [aliasEntries]

theorem insertAllNew_isSome_of_separate {catalogs : SessionCatalogs}
    (session : CanonicalSession filterPushdown discovered catalogs)
    (separate : ReferencesSeparate parseRef discovered) :
    (ExclusiveMaps.insertAllNew (tableAt catalogs)
      (aliasEntries parseRef filterPushdown
        (registeredNames false (engineAliases discovered)))).isSome := by
  rw [ExclusiveMaps.insertAllNew_isSome_iff, map_fst_aliasEntries]
  refine ⟨separate.1, ?_⟩
  intro ref refMem
  exact (session.free_iff ref).mpr (separate.2 ref refMem).2

theorem separate_of_registerRefs {catalogs next : SessionCatalogs}
    (session : CanonicalSession filterPushdown discovered catalogs)
    (registered : registerRefs catalogs (aliasEntries parseRef filterPushdown
      (registeredNames false (engineAliases discovered))) = .ok next) :
    ReferencesSeparate parseRef discovered := by
  obtain ⟨hasSchema, inserted⟩ := insertAllNew_of_registerRefs registered
  obtain ⟨nodup, free⟩ := ExclusiveMaps.insertAllNew_isSome_iff.mp
    (Option.isSome_iff_exists.mpr ⟨_, inserted⟩)
  rw [map_fst_aliasEntries] at nodup free
  refine ⟨nodup, ?_⟩
  intro ref refMem
  refine ⟨?_, (session.free_iff ref).mp (free ref refMem)⟩
  rw [← map_fst_aliasEntries parseRef filterPushdown] at refMem
  obtain ⟨entry, entryMem, rfl⟩ := List.mem_map.mp refMem
  exact (session.hasSchema_iff entry.1).mp (hasSchema entry entryMem)

theorem resolvesOwn_of_inserted {catalogs next : SessionCatalogs}
    (plain : parseRef icebergTable = .bare icebergTable)
    (session : CanonicalSession filterPushdown discovered catalogs)
    (separate : ReferencesSeparate parseRef discovered)
    (inserted : ExclusiveMaps.insertAllNew (tableAt catalogs)
      (aliasEntries parseRef filterPushdown
        (registeredNames false (engineAliases discovered))) =
          some (tableAt next)) :
    ResolvesOwn parseRef filterPushdown discovered next := by
  have found : ∀ named ∈ registeredNames false (engineAliases discovered),
      table parseRef next named.1 =
        some (providerOf filterPushdown named.2) := by
    intro named namedMem
    exact ExclusiveMaps.insertAllNew_of_mem inserted
      (List.mem_map.mpr ⟨named, namedMem, rfl⟩)
  have kept : ∀ ref, ref = icebergRef ∨ ref ∈ canonicalRefs discovered →
      tableAt next ref = tableAt catalogs ref := by
    intro ref taken
    refine ExclusiveMaps.insertAllNew_of_notMem inserted ?_
    rw [map_fst_aliasEntries]
    intro refMem
    obtain ⟨-, notIceberg, notCanonical⟩ := separate.2 ref refMem
    rcases taken with isIceberg | isCanonical
    · exact notIceberg isIceberg
    · exact notCanonical isCanonical
  refine ⟨?_, ?_, ?_, ?_⟩
  · intro source sourceMem table tableMem
    rw [kept _ (Or.inr (mem_canonicalRefs.mpr ⟨source, sourceMem, rfl,
      List.mem_map.mpr ⟨table, tableMem, rfl⟩⟩))]
    exact session.own source sourceMem table tableMem
  · intro given givenMem
    exact found _ (mem_registeredNames givenMem false)
  · rw [table, plain]
    exact (kept icebergRef (Or.inl rfl)).trans session.iceberg
  · intro given first
    exact found _ (legacy_mem_registeredNames first)

/-- Registration succeeds with every name leading to its own table if and only
if the references that the aliases parse to are separate. -/
theorem newWithPushdown_resolvesOwn_iff
    (plain : parseRef icebergTable = .bare icebergTable)
    (sources : (discovered.map SourceTables.source).Nodup)
    (valid : ∀ source ∈ discovered, validSourceName source.source)
    (distinct : ∀ source ∈ discovered,
      (source.tables.map tableKey).Nodup) :
    (∃ catalogs,
      newWithPushdown parseRef filterPushdown discovered = .ok catalogs ∧
        ResolvesOwn parseRef filterPushdown discovered catalogs) ↔
      ReferencesSeparate parseRef discovered := by
  obtain ⟨canonical, session, registers⟩ :=
    newWithPushdown_eq filterPushdown plain sources valid distinct
  rw [registers]
  constructor
  · rintro ⟨catalogs, registered, -⟩
    exact separate_of_registerRefs session registered
  · intro separate
    obtain ⟨map, inserted⟩ := Option.isSome_iff_exists.mp
      (insertAllNew_isSome_of_separate session separate)
    have hasSchema : ∀ entry ∈ aliasEntries parseRef filterPushdown
        (registeredNames false (engineAliases discovered)),
          HasSchema canonical entry.1 := by
      intro entry entryMem
      have refMem := List.mem_map_of_mem (f := Prod.fst) entryMem
      rw [map_fst_aliasEntries] at refMem
      exact (session.hasSchema_iff _).mpr (separate.2 _ refMem).1
    obtain ⟨catalogs, registered, viewEq⟩ :=
      registerRefs_of_insertAllNew hasSchema inserted
    subst viewEq
    exact ⟨catalogs, registered,
      resolvesOwn_of_inserted plain session separate inserted⟩

/-- Names that parse to themselves are kept apart by `resolve_aliases`. -/
theorem referencesSeparate_of_plain
    (valid : ∀ source ∈ discovered, validSourceName source.source)
    (plain : ∀ named ∈ registeredNames false (engineAliases discovered),
      parseRef named.1 = .bare named.1) :
    ReferencesSeparate parseRef discovered := by
  obtain ⟨used, greedy⟩ :=
    greedy_resolveAliases discovered [icebergTable, legacyAlias]
  have reserved : ∀ name ∈ [icebergTable, legacyAlias],
      name ∉ (engineAliases discovered).map Alias.aliasName := by
    intro name nameMem taken
    obtain ⟨given, givenMem, rfl⟩ := List.mem_map.mp taken
    exact greedy.unreserved given givenMem nameMem
  have refsEq : (registeredNames false (engineAliases discovered)).map
        (fun named => (parseRef named.1).resolve) =
      ((registeredNames false (engineAliases discovered)).map
        Prod.fst).map fun name => ⟨"datafusion", "public", name⟩ := by
    rw [List.map_map]
    refine List.map_congr_left fun named namedMem => ?_
    rw [plain named namedMem]
    rfl
  have nodup := nodup_map_fst_registeredNames greedy.nodup
    (reserved legacyAlias (by simp)) false
  refine ⟨?_, ?_⟩
  · rw [refsEq]
    exact nodup.map fun _ _ same => (ResolvedRef.mk.injEq .. ▸ same).2.2
  · rw [refsEq]
    rintro _ refMem
    obtain ⟨name, nameMem, rfl⟩ := List.mem_map.mp refMem
    refine ⟨⟨by simp, Or.inl ⟨rfl, rfl⟩⟩, ?_, ?_⟩
    · intro isIceberg
      have nameEq : name = icebergTable := congrArg ResolvedRef.table isIceberg
      subst nameEq
      rcases mem_map_fst_registeredNames nameMem with taken | ⟨-, legacy⟩
      · exact reserved icebergTable (by simp) taken
      · exact absurd legacy (by decide)
    · intro canonical
      obtain ⟨source, sourceMem, sourceEq, -⟩ :=
        mem_canonicalRefs.mp canonical
      have validHere := valid source sourceMem
      simp [validSourceName, sourceEq] at validHere

end Phases

/-- What a name without quotes and dots parses to. -/
def foldedRef (name : String) : TableReference :=
  .bare (asciiLowercase name)

/-- A source with two tables in its schema `public`. -/
def twoTables (first second : String) : List SourceTables :=
  let id : Arrow.Field := ⟨"id", .int64, false, none⟩
  [⟨"postgres", [⟨"public", first, [id]⟩, ⟨"public", second, [id]⟩]⟩]

/-- Lower-case names are registered and lead to their own tables. -/
theorem newWithPushdown_resolvesOwn_lowercase :
    ∃ catalogs,
      newWithPushdown foldedRef true (twoTables "my_pg_table" "orders") =
          .ok catalogs ∧
        ResolvesOwn foldedRef true (twoTables "my_pg_table" "orders")
          catalogs :=
  (newWithPushdown_resolvesOwn_iff (by decide) (by decide) (by decide)
    (by decide)).mpr (by decide)

/-- Two tables that differ in letter case only: their aliases differ, the
references that these parse to do not, and the engine does not start. -/
theorem newWithPushdown_foldedCollision :
    ((twoTables "Orders" "orders").map SourceTables.source).Nodup ∧
      (∀ source ∈ twoTables "Orders" "orders",
        validSourceName source.source ∧
          (source.tables.map tableKey).Nodup) ∧
      (engineAliases (twoTables "Orders" "orders")).map Alias.aliasName =
        ["Orders", "orders"] ∧
      newWithPushdown foldedRef true (twoTables "Orders" "orders") =
        .error "Execution error: The table orders already exists" := by
  refine ⟨by decide, by decide, by decide, rfl⟩

end DataFusionEngine

end Igloo
