import Igloo.SourceIsolation

/-!
# Connection strings and what is printed

Two resolutions that differ only in the contents of connection strings fail
with the same message or succeed with configurations that are equal apart from
the secrets and print alike.  Of a connection string, only its presence and the
plausibility check are ever observed.
-/

namespace Igloo

namespace Configuration

open RelatedResults RustText

/-- Both absent, or both present with the same outcome of the check. -/
def SecretsAlike : Option String → Option String → Prop :=
  Option.Rel fun first second =>
    looksLikeConnection first = looksLikeConnection second

/-- The environment variables that hold connection strings. -/
def IsSecretVariable (key : String) : Prop :=
  key = "DATABASE_URL" ∨ key = "IGLOO_POSTGRES_URI" ∨
    ∃ name, key = "IGLOO_SOURCE_" ++ name ++ "_URI"

structure EnvironmentsAlike (first second : Environment) : Prop where
  secret : ∀ key, IsSecretVariable key →
    SecretsAlike (first key) (second key)
  other : ∀ key, ¬ IsSecretVariable key → first key = second key

structure EntriesAlike (first second : FileSource) : Prop where
  name_eq : first.name = second.name
  uri_alike : SecretsAlike first.uri second.uri
  schemas_eq : first.schemas = second.schemas
  tables_eq : first.tables = second.tables

structure FilesAlike (first second : FileConfig) : Prop where
  parquetPath_eq : first.parquetPath = second.parquetPath
  cdcPath_eq : first.cdcPath = second.cdcPath
  postgresUri_alike : SecretsAlike first.postgresUri second.postgresUri
  postgresSchemas_eq : first.postgresSchemas = second.postgresSchemas
  sources_alike : Option.Rel (List.Forall₂ EntriesAlike) first.sources
    second.sources
  listenAddr_eq : first.listenAddr = second.listenAddr
  cacheMaxEntries_eq : first.cacheMaxEntries = second.cacheMaxEntries
  cacheTtlSeconds_eq : first.cacheTtlSeconds = second.cacheTtlSeconds
  cdcPollSeconds_eq : first.cdcPollSeconds = second.cdcPollSeconds

/-- The source without its secret. -/
def PostgresSource.redacted (source : PostgresSource) : PostgresSource :=
  { source with uri := ⟨"***"⟩ }

/-- The configuration without its secrets. -/
def Config.redacted (config : Config) : Config :=
  { config with
    postgresSources := config.postgresSources.map PostgresSource.redacted }

/-- Sources that differ in their secret only, with the same outcome of the
check. -/
structure ResolvedAlike (first second : PostgresSource) : Prop where
  redacted_eq : first.redacted = second.redacted
  check_eq : looksLikeConnection first.uri.value =
    looksLikeConnection second.uri.value

section Secrets

variable {platform : Platform}

theorem ensure_congr {passes otherPasses : Prop} [Decidable passes]
    [Decidable otherPasses] (same : passes ↔ otherPasses) (message : String) :
    ensure passes message = ensure otherPasses message := by
  unfold ensure
  by_cases holds : passes
  · rw [if_pos holds, if_pos (same.mp holds)]
  · rw [if_neg holds, if_neg (mt same.mpr holds)]

theorem secretsAlike_or {first second firstElse secondElse : Option String}
    (alike : SecretsAlike first second)
    (alikeElse : SecretsAlike firstElse secondElse) :
    SecretsAlike (first.or firstElse) (second.or secondElse) := by
  cases alike with
  | none => exact alikeElse
  | some same => exact .some same

theorem agree_okOr {first second : Option String}
    (alike : SecretsAlike first second) (error : IglooError) :
    Agree (fun first second =>
        looksLikeConnection first = looksLikeConnection second)
      (okOr first error) (okOr second error) := by
  cases alike with
  | none => exact .error error
  | some same => exact .ok same

theorem isSecretVariable_uri (name : String) :
    IsSecretVariable (sourceEnvKey name "URI") := by
  refine Or.inr (Or.inr ⟨String.ofList (name.toList.map Char.toUpper), ?_⟩)
  apply String.toList_inj.mp
  rw [toList_sourceEnvKey]
  simp

/-- All variables with a connection string but one end in the same letters. -/
theorem suffix_of_isSecretVariable {key : String}
    (secret : IsSecretVariable key) :
    key = "DATABASE_URL" ∨ "_URI".toList <:+ key.toList := by
  rcases secret with isKey | rfl | ⟨name, rfl⟩
  · exact Or.inl isKey
  · exact Or.inr (by decide +kernel)
  · right
    rw [String.toList_append]
    exact List.suffix_append _ _

theorem not_isSecretVariable_schemas (name : String) :
    ¬ IsSecretVariable (sourceEnvKey name "SCHEMAS") := by
  intro secret
  rcases suffix_of_isSecretVariable secret with isFlat | ⟨front, spelled⟩
  · exact sourceEnvKey_notMem_flatVariables name "SCHEMAS"
      (isFlat ▸ by decide)
  · have sameLast := congrArg List.getLast? spelled
    rw [toList_sourceEnvKey, List.getLast?_append_of_ne_nil _ (by simp),
      List.getLast?_append_of_ne_nil _ (by simp),
      List.getLast?_append_of_ne_nil _ (by simp)] at sameLast
    exact absurd sameLast (by decide +kernel)

theorem EnvironmentsAlike.same_of_setting {first second : Environment}
    (alike : EnvironmentsAlike first second) {key : String}
    (notDatabase : key ≠ "DATABASE_URL")
    (notSuffix : ¬ "_URI".toList <:+ key.toList) : first key = second key := by
  refine alike.other key fun secret => ?_
  rcases suffix_of_isSecretVariable secret with isDatabase | isSuffix
  · exact notDatabase isDatabase
  · exact notSuffix isSuffix

theorem EnvironmentsAlike.envUri {first second : Environment}
    (alike : EnvironmentsAlike first second) :
    SecretsAlike
      ((first "DATABASE_URL").or (first "IGLOO_POSTGRES_URI"))
      ((second "DATABASE_URL").or (second "IGLOO_POSTGRES_URI")) :=
  secretsAlike_or (alike.secret _ (Or.inl rfl))
    (alike.secret _ (Or.inr (Or.inl rfl)))

/-- A named source gets the same name, schemas and tables, and a like secret. -/
theorem agree_resolveNamedSource {first second : Environment}
    (alike : EnvironmentsAlike first second) {entry other : FileSource}
    (entriesAlike : EntriesAlike entry other) :
    Agree ResolvedAlike (resolveNamedSource platform first entry)
      (resolveNamedSource platform second other) := by
  obtain ⟨name, uri, schemas, tables⟩ := entry
  obtain ⟨otherName, otherUri, otherSchemas, otherTables⟩ := other
  obtain ⟨nameEq, uriAlike, schemasEq, tablesEq⟩ := entriesAlike
  cases nameEq
  cases schemasEq
  cases tablesEq
  have sameSchemas := alike.other _ (not_isSecretVariable_schemas
    (String.ofList (trim name.toList)))
  unfold resolveNamedSource
  refine agree_bind_of_eq rfl fun _ => ?_
  refine agree_bind (agree_okOr (secretsAlike_or
    (alike.secret _ (isSecretVariable_uri _)) uriAlike) _) ?_
  intro firstUri secondUri sameCheck
  simp only [sourceEnv, sameSchemas]
  exact .ok ⟨rfl, sameCheck⟩

variable (platform) in
theorem agree_resolvePostgresSources {first second : Environment}
    (alike : EnvironmentsAlike first second)
    {sources otherSources : Option (List FileSource)}
    (sourcesAlike : Option.Rel (List.Forall₂ EntriesAlike) sources otherSources)
    {uri otherUri : Option String} (uriAlike : SecretsAlike uri otherUri)
    (schemas : Option (List String)) :
    Agree (List.Forall₂ ResolvedAlike)
      (resolvePostgresSources platform sources uri schemas first)
      (resolvePostgresSources platform otherSources otherUri schemas
        second) := by
  have sameSchemas : first "IGLOO_POSTGRES_SCHEMAS" =
      second "IGLOO_POSTGRES_SCHEMAS" :=
    alike.same_of_setting (by decide) (by decide +kernel)
  unfold resolvePostgresSources
  cases sourcesAlike with
  | none =>
      refine agree_bind (agree_okOr (secretsAlike_or alike.envUri uriAlike) _) ?_
      intro firstUri secondUri sameCheck
      simp only [sameSchemas]
      exact .ok (.cons ⟨rfl, sameCheck⟩ .nil)
  | some entriesAlike =>
      dsimp only
      refine agree_bind_of_eq ?_ fun _ => ?_
      · apply ensure_congr
        cases uriAlike <;> simp
      refine agree_bind_of_eq ?_ fun _ => ?_
      · apply ensure_congr
        cases entriesAlike <;> simp
      refine agree_mapM ?_ entriesAlike
      intro entry other pair
      exact agree_resolveNamedSource alike pair

/-- Of the secret the checks of a source see the outcome of one check only. -/
theorem validateSource_congr {source other : PostgresSource}
    (alike : ResolvedAlike source other) (seen : List String) :
    validateSource platform seen source = validateSource platform seen other := by
  obtain ⟨name, uri, schemas, tables⟩ := source
  obtain ⟨otherName, otherUri, otherSchemas, otherTables⟩ := other
  obtain ⟨redactedEq, checkEq⟩ := alike
  cases redactedEq
  have sameCheck := ensure_congr (iff_of_eq (congrArg (· = true) checkEq))
    ("uri for source " ++ debugText platform name ++
      " must be a postgres:// URI or key-value connection string")
  unfold validateSource
  rw [sameCheck]

theorem validateSources_congr {sources others : List PostgresSource}
    (alike : List.Forall₂ ResolvedAlike sources others) :
    validateSources platform sources = validateSources platform others := by
  have sameLoop : ∀ seen, sources.foldlM (validateSource platform) seen =
      others.foldlM (validateSource platform) seen := by
    induction alike with
    | nil => exact fun seen => rfl
    | cons here alike induction =>
        intro seen
        rw [List.foldlM_cons, List.foldlM_cons, validateSource_congr here]
        simp only [induction]
  have sameEmpty : sources ≠ [] ↔ others ≠ [] := by
    cases alike <;> simp
  unfold validateSources
  rw [ensure_congr sameEmpty, sameLoop]

theorem map_redacted_congr {sources others : List PostgresSource}
    (alike : List.Forall₂ ResolvedAlike sources others) :
    sources.map PostgresSource.redacted =
      others.map PostgresSource.redacted := by
  induction alike with
  | nil => rfl
  | cons here alike induction =>
      rw [List.map_cons, List.map_cons, here.redacted_eq, induction]

/-- What is printed of a configuration does not depend on its secrets. -/
theorem debug_redacted (config : Config) :
    config.redacted.debug platform = config.debug platform := by
  have printed : config.redacted.postgresSources.map
        (PostgresSource.debug platform) =
      config.postgresSources.map (PostgresSource.debug platform) := by
    rw [Config.redacted, List.map_map]
    rfl
  unfold Config.debug
  rw [printed]
  rfl

theorem printed_of_redacted_eq {config other : Config}
    (same : config.redacted = other.redacted) :
    config.redacted = other.redacted ∧
      config.debug platform = other.debug platform := by
  refine ⟨same, ?_⟩
  rw [← debug_redacted config, same, debug_redacted other]

end Secrets

/-- Connection strings never influence what is printed: resolutions that differ
in them alone fail with the same error, or succeed with configurations that are
equal apart from the secrets and have the same `Debug` rendering. -/
theorem agree_fromSources (platform : Platform) {file otherFile : FileConfig}
    {first second : Environment} (filesAlike : FilesAlike file otherFile)
    (environmentsAlike : EnvironmentsAlike first second) :
    Agree (fun config other => config.redacted = other.redacted ∧
        config.debug platform = other.debug platform)
      (fromSources platform file first)
      (fromSources platform otherFile second) := by
  have parquet : first "IGLOO_PARQUET_PATH" = second "IGLOO_PARQUET_PATH" :=
    environmentsAlike.same_of_setting (by decide) (by decide +kernel)
  have cdc : first "IGLOO_CDC_PATH" = second "IGLOO_CDC_PATH" :=
    environmentsAlike.same_of_setting (by decide) (by decide +kernel)
  have listen : first "IGLOO_LISTEN_ADDR" = second "IGLOO_LISTEN_ADDR" :=
    environmentsAlike.same_of_setting (by decide) (by decide +kernel)
  have maxEntries : first "IGLOO_CACHE_MAX_ENTRIES" =
      second "IGLOO_CACHE_MAX_ENTRIES" :=
    environmentsAlike.same_of_setting (by decide) (by decide +kernel)
  have ttl : first "IGLOO_CACHE_TTL_SECONDS" =
      second "IGLOO_CACHE_TTL_SECONDS" :=
    environmentsAlike.same_of_setting (by decide) (by decide +kernel)
  have poll : first "IGLOO_CDC_POLL_SECONDS" =
      second "IGLOO_CDC_POLL_SECONDS" :=
    environmentsAlike.same_of_setting (by decide) (by decide +kernel)
  unfold fromSources
  refine agree_bind_of_eq ?_ fun parquetPath => ?_
  · rw [parquet, filesAlike.parquetPath_eq]
  refine agree_bind_of_eq ?_ fun cdcPath => ?_
  · rw [cdc, filesAlike.cdcPath_eq]
  have resolved := agree_resolvePostgresSources platform
    environmentsAlike filesAlike.sources_alike filesAlike.postgresUri_alike
    file.postgresSchemas
  rw [← filesAlike.postgresSchemas_eq]
  refine agree_bind resolved fun sources otherSources sourcesAlike => ?_
  refine agree_bind_of_eq ?_ fun cacheMaxEntries => ?_
  · unfold envU64
    rw [maxEntries]
  refine agree_bind_of_eq ?_ fun cacheTtlSeconds => ?_
  · unfold envU64
    rw [ttl]
  refine agree_bind_of_eq ?_ fun cdcPollSeconds => ?_
  · unfold envU64
    rw [poll]
  rw [listen, filesAlike.listenAddr_eq, filesAlike.cacheMaxEntries_eq,
    filesAlike.cacheTtlSeconds_eq, filesAlike.cdcPollSeconds_eq]
  refine agree_bind_of_eq ?_ fun _ => ?_
  · unfold validate
    dsimp only
    rw [validateSources_congr sourcesAlike]
  refine .ok (printed_of_redacted_eq ?_)
  simp only [Config.redacted, map_redacted_congr sourcesAlike]

/-- The file and the environment with other credentials. -/
def rotatedFile : FileConfig :=
  { twoSourcesFile with
    sources := some [⟨"crm", some "postgres://admin:pw@db/crm", none, none⟩,
      ⟨"orders", none, none, none⟩] }

def rotatedEnvironment : Environment := fun key =>
  if key = "IGLOO_SOURCE_ORDERS_URI" then some "host=db password=pw"
  else none

/-- Rotated credentials are not seen in the outcome. -/
theorem agree_fromSources_rotated :
    Agree (fun config other => config.redacted = other.redacted ∧
        config.debug plainPlatform = other.debug plainPlatform)
      (fromSources plainPlatform twoSourcesFile ordersEnvironment)
      (fromSources plainPlatform rotatedFile rotatedEnvironment) := by
  have crmAlike : EntriesAlike
      ⟨"crm", some "postgres://u@db/crm", none, none⟩
      ⟨"crm", some "postgres://admin:pw@db/crm", none, none⟩ :=
    ⟨rfl, .some (by decide +kernel), rfl, rfl⟩
  have filesAlike : FilesAlike twoSourcesFile rotatedFile :=
    ⟨rfl, rfl, .none, rfl,
      .some (.cons crmAlike (.cons ⟨rfl, .none, rfl, rfl⟩ .nil)),
      rfl, rfl, rfl, rfl⟩
  refine agree_fromSources plainPlatform filesAlike ⟨?_, ?_⟩
  · intro key _
    by_cases isOrders : key = "IGLOO_SOURCE_ORDERS_URI"
    · simp only [ordersEnvironment, rotatedEnvironment, isOrders, if_true]
      exact .some (by decide +kernel)
    · simp only [ordersEnvironment, rotatedEnvironment, isOrders, if_false]
      exact .none
  · intro key notSecret
    have notOrders : key ≠ "IGLOO_SOURCE_ORDERS_URI" := by
      rintro rfl
      exact notSecret (isSecretVariable_uri "orders")
    simp only [ordersEnvironment, rotatedEnvironment, notOrders, if_false]

end Configuration

end Igloo
