import Igloo.PlaceholderTypes
import Igloo.SourceIsolation
import Igloo.TextTrimming

/-!
# Configurations set by the environment

The environment takes precedence over the file.  A configuration that passes
validation is set by environment variables over every file that lists its
sources, exactly when the comma-separated form can carry its schema names.
-/

namespace Igloo

namespace Configuration

open RelatedResults RustText

section CommaLists

/-- A name that a comma-separated value can carry. -/
structure CarriedByCsv (name : String) : Prop where
  nonempty : name ≠ ""
  trimmed : trim name.toList = name.toList
  noComma : ',' ∉ name.toList

/-- The comma-separated form of a list of names. -/
def joinCsv (names : List String) : String :=
  String.ofList ([','].intercalate (names.map String.toList))

theorem not_mem_of_mem_splitOn {separator : Char} {text piece : List Char}
    (pieceMem : piece ∈ text.splitOn separator) : separator ∉ piece := by
  induction text generalizing piece with
  | nil =>
      rw [List.splitOn_nil, List.mem_singleton] at pieceMem
      simp [pieceMem]
  | cons ch text induction =>
      rw [List.splitOn_cons_eq_if_modifyHead] at pieceMem
      split at pieceMem
      · rcases List.mem_cons.mp pieceMem with rfl | later
        · exact List.not_mem_nil
        · exact induction later
      · rename_i isOther
        obtain ⟨first, others, split⟩ :=
          List.exists_cons_of_ne_nil (List.splitOn_ne_nil separator text)
        rw [split, List.modifyHead_cons] at pieceMem
        rw [split] at induction
        rcases List.mem_cons.mp pieceMem with rfl | later
        · have notFirst := induction List.mem_cons_self
          have notHead : separator ≠ ch := by
            rintro rfl
            exact isOther (beq_self_eq_true _)
          simp [notHead, notFirst]
        · exact induction (List.mem_cons_of_mem _ later)

theorem trim_trim (text : List Char) : trim (trim text) = trim text := by
  have trimmed := trim_of_solid blank_nil blank_nil (solid_trim text)
  rwa [List.nil_append, List.append_nil] at trimmed

theorem mem_of_mem_trim {ch : Char} {text : List Char}
    (charMem : ch ∈ trim text) : ch ∈ text := by
  obtain ⟨front, back, -, -, split⟩ := exists_blank_trim_blank text
  rw [split]
  exact List.mem_append_left _ (List.mem_append_right _ charMem)

theorem carriedByCsv_of_mem_splitCsv {raw name : String}
    (nameMem : name ∈ splitCsv raw) : CarriedByCsv name := by
  obtain ⟨inPieces, notEmpty⟩ := List.mem_filter.mp nameMem
  obtain ⟨piece, pieceMem, rfl⟩ := List.mem_map.mp inPieces
  refine ⟨of_decide_eq_true notEmpty, ?_, ?_⟩
  · rw [String.toList_ofList]
    exact trim_trim piece
  · rw [String.toList_ofList]
    intro comma
    exact not_mem_of_mem_splitOn pieceMem (mem_of_mem_trim comma)

theorem splitCsv_joinCsv {names : List String} (nonempty : names ≠ [])
    (carried : ∀ name ∈ names, CarriedByCsv name) :
    splitCsv (joinCsv names) = names := by
  have noComma : ∀ piece ∈ names.map String.toList, ',' ∉ piece := by
    intro piece pieceMem
    obtain ⟨name, nameMem, rfl⟩ := List.mem_map.mp pieceMem
    exact (carried name nameMem).noComma
  have hasPieces : names.map String.toList ≠ [] := by
    simpa using nonempty
  have pieces : (names.map String.toList).map
      (fun piece => String.ofList (trim piece)) = names := by
    have kept : ∀ name ∈ names,
        ((fun piece => String.ofList (trim piece)) ∘ String.toList) name =
          id name := by
      intro name nameMem
      rw [Function.comp_apply, (carried name nameMem).trimmed,
        String.ofList_toList]
      rfl
    rw [List.map_map, List.map_congr_left kept, List.map_id]
  rw [splitCsv, joinCsv, String.toList_ofList,
    List.splitOn_intercalate ',' noComma hasPieces, pieces,
    List.filter_eq_self]
  intro name nameMem
  exact decide_eq_true (carried name nameMem).nonempty

end CommaLists

section Numbers

theorem parseUsize_toString {number : Nat} (bounded : number < 2 ^ 64) :
    parseUsize (toString number).toList = some number := by
  have textEq : (toString number).toList = Nat.toDigits 10 number :=
    Nat.toList_repr
  have isNumber := F64.isDigit_toDigits number
  have unsigned : '+' ∉ Nat.toDigits 10 number := by
    intro sign
    exact absurd (isNumber _ sign) (by decide)
  have isDecimal : DataFusionEngine.decimal (Nat.toDigits 10 number) =
      some number := by
    rw [DataFusionEngine.decimal, if_pos, Nat.ofDigitChars_ten_toDigits]
    exact ⟨Nat.toDigits_ne_nil, List.all_eq_true.mpr isNumber⟩
  rw [textEq, DataFusionEngine.parseUsize_eq_decimal unsigned, isDecimal]
  intro other otherEq
  rw [isDecimal] at otherEq
  cases otherEq
  exact bounded

theorem envU64_of_toString {platform : Platform} {env : Environment}
    {key : String} {value : UInt64}
    (isSet : env key = some (toString value.toNat)) :
    envU64 platform env key = .ok (some value) := by
  have parsed := parseUsize_toString value.toNat_lt
  simp only [envU64, isSet, parsed, UInt64.ofNat_toNat]

end Numbers

section Spelling

/-- The variables that set one source. -/
def sourceSetting (key : String) (source : PostgresSource) : Option String :=
  if key = sourceEnvKey source.name "URI" then some source.uri.value
  else if key = sourceEnvKey source.name "SCHEMAS" then
    some (joinCsv source.schemas)
  else none

/-- The variables of the single-source form. -/
def flatSetting (key : String) (source : PostgresSource) : Option String :=
  if key = "DATABASE_URL" then some source.uri.value
  else if key = "IGLOO_POSTGRES_SCHEMAS" then some (joinCsv source.schemas)
  else none

/-- The environment that sets every value of a configuration. -/
def Config.environment (config : Config) : Environment := fun key =>
  match key with
  | "IGLOO_PARQUET_PATH" => some config.parquetPath
  | "IGLOO_CDC_PATH" => some config.cdcPath
  | "IGLOO_LISTEN_ADDR" => config.listenAddr
  | "IGLOO_CACHE_MAX_ENTRIES" => some (toString config.cacheMaxEntries.toNat)
  | "IGLOO_CACHE_TTL_SECONDS" => some (toString config.cacheTtl.secs.toNat)
  | "IGLOO_CDC_POLL_SECONDS" =>
      some (toString config.cdcPollInterval.secs.toNat)
  | _ =>
      (config.postgresSources.head?.bind (flatSetting key)).or
        (config.postgresSources.findSome? (sourceSetting key))

/-- The file lists the sources by name, up to surrounding blanks, or uses the
single-source form. -/
inductive ListsSources (file : FileConfig) : List PostgresSource → Prop
  | named {entries : List FileSource} {sources : List PostgresSource}
      (listed : file.sources = some entries)
      (noUri : file.postgresUri = none)
      (noSchemas : file.postgresSchemas = none)
      (each : List.Forall₂ (fun entry source =>
        trim entry.name.toList = trim source.name.toList ∧
          entry.tables = source.tables) entries sources) :
      ListsSources file sources
  | single {source : PostgresSource} (unlisted : file.sources = none)
      (name_eq : source.name = defaultSourceName)
      (tables_eq : source.tables = none) : ListsSources file [source]

/-- The file lists the sources of the configuration, and it has no address when
the configuration has none.  Everything else in it is arbitrary. -/
structure Declares (file : FileConfig) (config : Config) : Prop where
  sources : ListsSources file config.postgresSources
  listenAddr : config.listenAddr = none → file.listenAddr = none

end Spelling

section Settings

variable {platform : Platform} {config : Config}

theorem ensure_eq_ok_iff {passes : Prop} [Decidable passes]
    {message : String} {done : Unit} :
    ensure passes message = .ok done ↔ passes := by
  unfold ensure
  split <;> simp [*]

theorem of_validateSource {seen next : List String} {source : PostgresSource}
    (validated : validateSource platform seen source = .ok next) :
    validateSourceName platform source.name = .ok () ∧
      source.name ∉ seen ∧ source.schemas ≠ [] ∧
        next = source.name :: seen := by
  unfold validateSource at validated
  obtain ⟨_, validName, validated⟩ := bind_eq_ok_iff.mp validated
  obtain ⟨_, fresh, validated⟩ := bind_eq_ok_iff.mp validated
  obtain ⟨_, -, validated⟩ := bind_eq_ok_iff.mp validated
  obtain ⟨_, schemas, validated⟩ := bind_eq_ok_iff.mp validated
  obtain ⟨_, -, validated⟩ := bind_eq_ok_iff.mp validated
  obtain ⟨_, -, validated⟩ := bind_eq_ok_iff.mp validated
  obtain ⟨_, -, validated⟩ := bind_eq_ok_iff.mp validated
  cases validated
  exact ⟨validName, ensure_eq_ok_iff.mp fresh, ensure_eq_ok_iff.mp schemas,
    rfl⟩

theorem forall_of_foldlM_validateSource {sources : List PostgresSource}
    {seen last : List String}
    (validated : sources.foldlM (validateSource platform) seen = .ok last) :
    (∀ source ∈ sources, validateSourceName platform source.name = .ok () ∧
      source.name ∉ seen ∧ source.schemas ≠ []) ∧
      (sources.map PostgresSource.name).Nodup := by
  induction sources generalizing seen with
  | nil => simp
  | cons source sources induction =>
      rw [List.foldlM_cons] at validated
      obtain ⟨next, here, rest⟩ := bind_eq_ok_iff.mp validated
      obtain ⟨validName, fresh, schemas, rfl⟩ := of_validateSource here
      obtain ⟨others, distinct⟩ := induction rest
      constructor
      · intro other otherMem
        rcases List.mem_cons.mp otherMem with rfl | later
        · exact ⟨validName, fresh, schemas⟩
        · obtain ⟨otherName, notSeen, otherSchemas⟩ := others other later
          exact ⟨otherName, fun seenBefore =>
            notSeen (List.mem_cons_of_mem _ seenBefore), otherSchemas⟩
      · rw [List.map_cons, List.nodup_cons]
        refine ⟨?_, distinct⟩
        intro again
        obtain ⟨other, later, sameName⟩ := List.mem_map.mp again
        have notSeen := (others other later).2.1
        rw [sameName] at notSeen
        exact notSeen List.mem_cons_self

theorem sources_of_validate (validated : validate platform config = .ok ()) :
    config.postgresSources ≠ [] ∧
      (∀ source ∈ config.postgresSources,
        validateSourceName platform source.name = .ok () ∧
          source.schemas ≠ []) ∧
      (config.postgresSources.map PostgresSource.name).Nodup := by
  unfold validate at validated
  obtain ⟨_, -, validated⟩ := bind_eq_ok_iff.mp validated
  obtain ⟨_, -, validated⟩ := bind_eq_ok_iff.mp validated
  obtain ⟨_, sources, -⟩ := bind_eq_ok_iff.mp validated
  unfold validateSources at sources
  obtain ⟨_, nonempty, sources⟩ := bind_eq_ok_iff.mp sources
  obtain ⟨seen, walked, -⟩ := bind_eq_ok_iff.mp sources
  obtain ⟨each, distinct⟩ := forall_of_foldlM_validateSource walked
  refine ⟨ensure_eq_ok_iff.mp nonempty, ?_, distinct⟩
  intro source sourceMem
  exact ⟨(each source sourceMem).1, (each source sourceMem).2.2⟩

section SourceVariables

variable {source other : PostgresSource}

theorem sourceSetting_uri (source : PostgresSource) :
    sourceSetting (sourceEnvKey source.name "URI") source =
      some source.uri.value :=
  if_pos rfl

theorem sourceSetting_schemas
    (valid : DataFusionEngine.validSourceName source.name = true) :
    sourceSetting (sourceEnvKey source.name "SCHEMAS") source =
      some (joinCsv source.schemas) := by
  rw [sourceSetting, if_neg, if_pos rfl]
  intro sameKey
  exact absurd (sourceEnvKey_injective valid valid (by decide) (by decide)
    sameKey).2 (by decide)

theorem sourceSetting_of_ne
    (valid : DataFusionEngine.validSourceName source.name = true)
    (otherValid : DataFusionEngine.validSourceName other.name = true)
    (isOther : other.name ≠ source.name) {suffix : String}
    (suffixMem : suffix ∈ sourceSuffixes) :
    sourceSetting (sourceEnvKey source.name suffix) other = none := by
  rw [sourceSetting, if_neg, if_neg]
  · intro sameKey
    exact isOther (sourceEnvKey_injective valid otherValid suffixMem
      (by decide) sameKey).1.symm
  · intro sameKey
    exact isOther (sourceEnvKey_injective valid otherValid suffixMem
      (by decide) sameKey).1.symm

theorem findSome?_sourceSetting {sources : List PostgresSource}
    (validNames : ∀ source ∈ sources,
      DataFusionEngine.validSourceName source.name = true)
    (distinct : (sources.map PostgresSource.name).Nodup)
    (sourceMem : source ∈ sources) {suffix value : String}
    (suffixMem : suffix ∈ sourceSuffixes)
    (isSet : sourceSetting (sourceEnvKey source.name suffix) source =
      some value) :
    sources.findSome? (sourceSetting (sourceEnvKey source.name suffix)) =
      some value := by
  induction sources with
  | nil => cases sourceMem
  | cons first sources induction =>
      rw [List.map_cons, List.nodup_cons] at distinct
      rcases List.mem_cons.mp sourceMem with rfl | later
      · rw [List.findSome?_cons, isSet]
      · have isOther : first.name ≠ source.name := by
          intro sameName
          exact distinct.1 (sameName ▸ List.mem_map_of_mem later)
        have skipped := sourceSetting_of_ne (validNames source sourceMem)
          (validNames first List.mem_cons_self) isOther suffixMem
        rw [List.findSome?_cons, skipped]
        exact induction
          (fun other otherMem =>
            validNames other (List.mem_cons_of_mem _ otherMem))
          distinct.2 later

end SourceVariables

theorem trim_of_valid {name : String}
    (valid : DataFusionEngine.validSourceName name = true) :
    trim name.toList = name.toList := by
  apply trim_of_visible
  intro ch charMem
  have isName : (('a' ≤ ch && ch ≤ 'z') || ch.isDigit || ch = '_') = true := by
    unfold DataFusionEngine.validSourceName at valid
    cases spelled : name.toList with
    | nil =>
        rw [spelled] at charMem
        cases charMem
    | cons first rest =>
        rw [spelled] at valid charMem
        simp only [Bool.and_eq_true, List.all_eq_true] at valid
        rcases List.mem_cons.mp charMem with rfl | later
        · simp [valid.1.1]
        · exact valid.1.2 ch later
  simp only [Bool.or_eq_true, Bool.and_eq_true, decide_eq_true_eq,
    Char.isDigit, Char.le_def, UInt32.le_iff_toNat_le] at isName
  have code : (97 ≤ ch.toNat ∧ ch.toNat ≤ 122) ∨
      (48 ≤ ch.toNat ∧ ch.toNat ≤ 57) ∨ ch.toNat = 95 := by
    rcases isName with (lower | digit) | rfl
    · exact Or.inl lower
    · exact Or.inr (Or.inl digit)
    · exact Or.inr (Or.inr rfl)
  simp only [isWhitespace, Bool.or_eq_false_iff, Bool.and_eq_false_iff,
    decide_eq_false_iff_not, beq_eq_false_iff_ne]
  omega

section Environment

/-- The variables that are not of a named source. -/
def settingVariables : List String :=
  ["IGLOO_PARQUET_PATH", "IGLOO_CDC_PATH", "IGLOO_LISTEN_ADDR",
    "IGLOO_CACHE_MAX_ENTRIES", "IGLOO_CACHE_TTL_SECONDS",
    "IGLOO_CDC_POLL_SECONDS", "DATABASE_URL", "IGLOO_POSTGRES_SCHEMAS"]

theorem environment_of_sourceEnvKey (name suffix : String) :
    config.environment (sourceEnvKey name suffix) =
      config.postgresSources.findSome?
        (sourceSetting (sourceEnvKey name suffix)) := by
  have noSetting : sourceEnvKey name suffix ∉ settingVariables :=
    sourceEnvKey_notMem (by decide +kernel)
  simp only [settingVariables, List.mem_cons, List.not_mem_nil, or_false,
    not_or] at noSetting
  obtain ⟨parquet, cdc, listen, maxEntries, ttl, poll, url, schemas⟩ :=
    noSetting
  unfold Config.environment
  split
  · exact absurd ‹_› parquet
  · exact absurd ‹_› cdc
  · exact absurd ‹_› listen
  · exact absurd ‹_› maxEntries
  · exact absurd ‹_› ttl
  · exact absurd ‹_› poll
  · have notFlat : flatSetting (sourceEnvKey name suffix) = fun _ => none := by
      funext source
      rw [flatSetting, if_neg url, if_neg schemas]
    rw [notFlat]
    cases config.postgresSources.head? <;> rfl

/-- An entry of the file is resolved to the source that it lists. -/
theorem resolveNamedSource_environment {entry : FileSource}
    {source : PostgresSource}
    (validNames : ∀ source ∈ config.postgresSources,
      validateSourceName platform source.name = .ok ())
    (distinct : (config.postgresSources.map PostgresSource.name).Nodup)
    (sourceMem : source ∈ config.postgresSources)
    (nonempty : source.schemas ≠ [])
    (carried : ∀ schema ∈ source.schemas, CarriedByCsv schema)
    (sameName : trim entry.name.toList = trim source.name.toList)
    (sameTables : entry.tables = source.tables) :
    resolveNamedSource platform config.environment entry = .ok source := by
  have validAll := fun other otherMem =>
    validateSourceName_eq_ok_iff.mp (validNames other otherMem)
  have nameEq : String.ofList (trim entry.name.toList) = source.name := by
    rw [sameName, trim_of_valid (validAll source sourceMem),
      String.ofList_toList]
  have uri : sourceEnv config.environment source.name "URI" =
      some source.uri.value := by
    rw [sourceEnv, environment_of_sourceEnvKey]
    exact findSome?_sourceSetting validAll distinct sourceMem (by decide)
      (sourceSetting_uri source)
  have schemas : sourceEnv config.environment source.name "SCHEMAS" =
      some (joinCsv source.schemas) := by
    rw [sourceEnv, environment_of_sourceEnvKey]
    exact findSome?_sourceSetting validAll distinct sourceMem (by decide)
      (sourceSetting_schemas (validAll source sourceMem))
  unfold resolveNamedSource
  dsimp only
  rw [nameEq, validNames source sourceMem, uri, schemas, sameTables,
    Option.map_some, splitCsv_joinCsv nonempty carried]
  rfl

theorem resolvePostgresSources_environment {file : FileConfig}
    (validated : validate platform config = .ok ())
    (carried : ∀ source ∈ config.postgresSources,
      ∀ schema ∈ source.schemas, CarriedByCsv schema)
    (lists : ListsSources file config.postgresSources) :
    resolvePostgresSources platform file.sources file.postgresUri
      file.postgresSchemas config.environment = .ok config.postgresSources := by
  obtain ⟨nonempty, each, distinct⟩ := sources_of_validate validated
  have validNames := fun source sourceMem => (each source sourceMem).1
  generalize isSources : config.postgresSources = sources at lists
  cases lists with
  | named listed noUri noSchemas entriesList =>
      rename_i entries
      have hasEntries : entries ≠ [] := by
        rintro rfl
        cases entriesList
        exact nonempty isSources
      have resolved : List.Forall₂ (fun entry source =>
          resolveNamedSource platform config.environment entry = .ok source)
          entries sources := by
        have inList := (List.forall₂_and_left _ _).mpr
          ⟨fun _ sourceMem => sourceMem, entriesList.flip⟩
        refine inList.flip.imp ?_
        rintro entry source ⟨sourceMem, sameName, sameTables⟩
        rw [← isSources] at sourceMem
        exact resolveNamedSource_environment validNames distinct sourceMem
          (each source sourceMem).2 (carried source sourceMem) sameName
          sameTables
      rw [listed, noUri, noSchemas]
      exact bind_eq_ok_iff.mpr ⟨(), ensure_eq_ok_iff.mpr ⟨rfl, rfl⟩,
        bind_eq_ok_iff.mpr ⟨(), ensure_eq_ok_iff.mpr hasEntries,
          mapM_eq_ok_iff.mpr resolved⟩⟩
  | single unlisted name_eq tables_eq =>
      rename_i source
      have sourceMem : source ∈ config.postgresSources := by
        rw [isSources]
        exact List.mem_cons_self
      have uri : config.environment "DATABASE_URL" = some source.uri.value := by
        simp [Config.environment, isSources, flatSetting]
      have schemas : config.environment "IGLOO_POSTGRES_SCHEMAS" =
          some (joinCsv source.schemas) := by
        simp [Config.environment, isSources, flatSetting]
      have csv := splitCsv_joinCsv (each source sourceMem).2
        (carried source sourceMem)
      unfold resolvePostgresSources
      rw [unlisted]
      dsimp only
      rw [uri, schemas, Option.map_some, csv, ← name_eq, ← tables_eq]
      rfl

theorem fromSources_environment {file : FileConfig}
    (validated : validate platform config = .ok ())
    (carried : ∀ source ∈ config.postgresSources,
      ∀ schema ∈ source.schemas, CarriedByCsv schema)
    (declares : Declares file config) :
    fromSources platform file config.environment = .ok config := by
  have sources := resolvePostgresSources_environment validated carried
    declares.sources
  have listen : (config.environment "IGLOO_LISTEN_ADDR").or file.listenAddr =
      config.listenAddr := by
    change config.listenAddr.or file.listenAddr = config.listenAddr
    cases isSet : config.listenAddr with
    | none => exact declares.listenAddr isSet
    | some addr => rfl
  have maxEntries : envU64 platform config.environment
      "IGLOO_CACHE_MAX_ENTRIES" = .ok (some config.cacheMaxEntries) :=
    envU64_of_toString rfl
  have ttl : envU64 platform config.environment "IGLOO_CACHE_TTL_SECONDS" =
      .ok (some config.cacheTtl.secs) := envU64_of_toString rfl
  have poll : envU64 platform config.environment "IGLOO_CDC_POLL_SECONDS" =
      .ok (some config.cdcPollInterval.secs) := envU64_of_toString rfl
  unfold fromSources
  rw [sources, listen, maxEntries, ttl, poll]
  change (validate platform config >>= fun _ => pure config) = _
  rw [validated]
  rfl

end Environment

/-- The file with the names and allowlists of the sources only. -/
def Config.listing (config : Config) : FileConfig where
  parquetPath := none
  cdcPath := none
  postgresUri := none
  postgresSchemas := none
  sources := some (config.postgresSources.map fun source =>
    ⟨source.name, none, none, source.tables⟩)
  listenAddr := none
  cacheMaxEntries := none
  cacheTtlSeconds := none
  cdcPollSeconds := none

theorem declares_listing (config : Config) :
    Declares config.listing config := by
  refine ⟨.named rfl rfl rfl ?_, fun _ => rfl⟩
  rw [List.forall₂_map_left_iff, List.forall₂_same]
  intro source _
  exact ⟨rfl, rfl⟩

theorem validate_of_fromSources {file : FileConfig} {env : Environment}
    (resolved : fromSources platform file env = .ok config) :
    validate platform config = .ok () := by
  unfold fromSources at resolved
  obtain ⟨parquetPath, -, resolved⟩ := bind_eq_ok_iff.mp resolved
  obtain ⟨cdcPath, -, resolved⟩ := bind_eq_ok_iff.mp resolved
  obtain ⟨sources, -, resolved⟩ := bind_eq_ok_iff.mp resolved
  obtain ⟨cacheMaxEntries, -, resolved⟩ := bind_eq_ok_iff.mp resolved
  obtain ⟨cacheTtlSeconds, -, resolved⟩ := bind_eq_ok_iff.mp resolved
  obtain ⟨cdcPollSeconds, -, resolved⟩ := bind_eq_ok_iff.mp resolved
  obtain ⟨_, validated, resolved⟩ := bind_eq_ok_iff.mp resolved
  cases resolved
  exact validated

/-- A source with no schemas in the file has the ones of a comma-separated
value, or the default one. -/
theorem carried_of_resolveNamedSource {env : Environment} {entry : FileSource}
    {source : PostgresSource} (unset : entry.schemas = none)
    (resolved : resolveNamedSource platform env entry = .ok source) :
    ∀ schema ∈ source.schemas, CarriedByCsv schema := by
  unfold resolveNamedSource at resolved
  obtain ⟨_, -, resolved⟩ := bind_eq_ok_iff.mp resolved
  obtain ⟨uri, -, resolved⟩ := bind_eq_ok_iff.mp resolved
  cases resolved
  rw [unset]
  cases sourceEnv env (String.ofList (trim entry.name.toList)) "SCHEMAS" with
  | none =>
      intro schema schemaMem
      rw [List.mem_singleton.mp schemaMem]
      exact ⟨by decide, by decide, by decide⟩
  | some raw =>
      intro schema schemaMem
      exact carriedByCsv_of_mem_splitCsv schemaMem

end Settings

/-- A configuration can be set by the environment alone, over every file that
lists its sources, exactly when it passes validation and comma-separated
values can carry its schema names. -/
theorem set_by_environment_iff (platform : Platform) (config : Config) :
    (∃ env, ∀ file, Declares file config →
      fromSources platform file env = .ok config) ↔
      validate platform config = .ok () ∧
        ∀ source ∈ config.postgresSources, ∀ schema ∈ source.schemas,
          CarriedByCsv schema := by
  constructor
  · rintro ⟨env, sets⟩
    have resolved := sets config.listing (declares_listing config)
    refine ⟨validate_of_fromSources resolved, ?_⟩
    have each := forall₂_of_resolvePostgresSources
      (resolvePostgresSources_of_fromSources resolved)
    rw [List.forall₂_map_left_iff, List.forall₂_same] at each
    intro source sourceMem
    exact carried_of_resolveNamedSource rfl (each source sourceMem)
  · rintro ⟨validated, carried⟩
    exact ⟨config.environment, fun file declares =>
      fromSources_environment validated carried declares⟩

end Configuration

end Igloo
