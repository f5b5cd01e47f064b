import Igloo.Configuration
import Igloo.EngineRegistration
import Igloo.RelatedResults

/-!
# Isolation of the named sources

With a `[[sources]]` list the resolved configuration does not depend on the
variables of the single-source form, and the variables of one source do not
reach another.  Both rest on the keys: the names that the validator accepts
keep their spelling through the upper case of the key.
-/

namespace Igloo

namespace Configuration

open RelatedResults RustText

/-- The environment variables of the single-source form. -/
def flatVariables : List String :=
  ["DATABASE_URL", "IGLOO_POSTGRES_URI", "IGLOO_POSTGRES_SCHEMAS"]

/-- The suffixes of the environment variables of a named source. -/
def sourceSuffixes : List String :=
  ["URI", "SCHEMAS"]

/-- The environment variables of a named source. -/
def sourceVariables (name : String) : List String :=
  sourceSuffixes.map (sourceEnvKey name)

/-- Two environments that differ only in the listed variables. -/
def DifferOnlyIn (keys : List String) (first second : Environment) : Prop :=
  ∀ key, key ∉ keys → first key = second key

section Keys

theorem toList_sourceEnvKey (name suffix : String) :
    (sourceEnvKey name suffix).toList =
      "IGLOO_SOURCE_".toList ++
        (name.toList.map Char.toUpper ++ '_' :: suffix.toList) := by
  change ("IGLOO_SOURCE_" ++ String.ofList (name.toList.map Char.toUpper) ++
    "_" ++ suffix).toList = _
  simp

theorem sourceEnvKey_notMem {name suffix : String} {keys : List String}
    (noPrefix : ∀ key ∈ keys,
      ¬ "IGLOO_SOURCE_".toList <+: key.toList) :
    sourceEnvKey name suffix ∉ keys := by
  intro keyMem
  apply noPrefix _ keyMem
  rw [toList_sourceEnvKey]
  exact List.prefix_append _ _

theorem sourceEnvKey_notMem_flatVariables (name suffix : String) :
    sourceEnvKey name suffix ∉ flatVariables :=
  sourceEnvKey_notMem (by decide +kernel)

theorem validateSourceName_eq_ok_iff {platform : Platform} {name : String} :
    validateSourceName platform name = .ok () ↔
      DataFusionEngine.validSourceName name = true := by
  unfold validateSourceName DataFusionEngine.validSourceName
  cases spelled : name.toList with
  | nil => simp
  | cons first rest =>
      dsimp only
      by_cases lower : isAsciiLowercase first = true
      · rw [if_neg (by simp [lower])]
        have sameLower : ('a' ≤ first && first ≤ 'z') = true := lower
        cases found : rest.find? fun ch =>
            !(isAsciiLowercase ch || ch.isDigit || ch = '_') with
        | some bad =>
            have badMem := List.mem_of_find?_eq_some found
            have isBad := List.find?_some found
            simp only [sameLower, Bool.true_and, Bool.and_eq_true,
              List.all_eq_true]
            constructor
            · intro accepted
              cases accepted
            · rintro ⟨allValid, -⟩
              have valid := allValid bad badMem
              simp only [isAsciiLowercase] at isBad
              rw [valid] at isBad
              cases isBad
        | none =>
            have allValid : (rest.all fun ch => ('a' ≤ ch && ch ≤ 'z') ||
                ch.isDigit || ch = '_') = true := by
              rw [List.all_eq_true]
              intro ch charMem
              have notBad := List.find?_eq_none.mp found ch charMem
              simp only [isAsciiLowercase, Bool.not_eq_true',
                Bool.not_eq_false] at notBad
              exact notBad
            dsimp only
            rw [sameLower, allValid]
            by_cases reserved : name ∈ reservedSourceNames
            · rw [if_pos reserved]
              simp only [reservedSourceNames] at reserved
              simp [reserved]
            · rw [if_neg reserved]
              simp only [reservedSourceNames] at reserved
              simp [reserved]
      · have notLower : isAsciiLowercase first = false :=
          Bool.eq_false_iff.mpr lower
        have sameLower : ('a' ≤ first && first ≤ 'z') = false := notLower
        rw [if_pos (by simp [notLower]), sameLower]
        simp

theorem toLower_toUpper_of_name {ch : Char}
    (isName : (('a' ≤ ch && ch ≤ 'z') || ch.isDigit || ch = '_') = true) :
    ch.toUpper.toLower = ch := by
  have onAscii : ∀ code < 128,
      (('a' ≤ Char.ofNat code && Char.ofNat code ≤ 'z') ||
        (Char.ofNat code).isDigit || Char.ofNat code = '_') = true →
        (Char.ofNat code).toUpper.toLower = Char.ofNat code := by
    decide +kernel
  have ascii : ch.toNat < 128 := by
    simp only [Bool.or_eq_true, Bool.and_eq_true, decide_eq_true_eq,
      Char.isDigit, Char.le_def, UInt32.le_iff_toNat_le] at isName
    change ch.val.toNat < 128
    rcases isName with (⟨-, small⟩ | ⟨-, small⟩) | rfl
    · exact lt_of_le_of_lt small (by decide)
    · exact lt_of_le_of_lt small (by decide)
    · decide
  have atCode := onAscii ch.toNat ascii
  rw [Char.ofNat_toNat] at atCode
  exact atCode isName

theorem map_toLower_toUpper_of_valid {name : String}
    (valid : DataFusionEngine.validSourceName name = true) :
    (name.toList.map Char.toUpper).map Char.toLower = name.toList := by
  have isName : ∀ ch ∈ name.toList,
      (('a' ≤ ch && ch ≤ 'z') || ch.isDigit || ch = '_') = true := by
    unfold DataFusionEngine.validSourceName at valid
    cases spelled : name.toList with
    | nil => simp
    | cons first rest =>
        rw [spelled] at valid
        simp only [Bool.and_eq_true, List.all_eq_true] at valid
        rw [List.forall_mem_cons]
        refine ⟨?_, valid.1.2⟩
        simp only [Bool.or_eq_true, Bool.and_eq_true]
        exact Or.inl (Or.inl valid.1.1)
  rw [List.map_map]
  exact (List.map_congr_left fun ch charMem =>
    toLower_toUpper_of_name (isName ch charMem)).trans (List.map_id _)

/-- The keys of two valid names are the same only for one name and one
suffix. -/
theorem sourceEnvKey_injective {first second firstSuffix secondSuffix : String}
    (firstValid : DataFusionEngine.validSourceName first = true)
    (secondValid : DataFusionEngine.validSourceName second = true)
    (firstMem : firstSuffix ∈ sourceSuffixes)
    (secondMem : secondSuffix ∈ sourceSuffixes)
    (sameKey : sourceEnvKey first firstSuffix =
      sourceEnvKey second secondSuffix) :
    first = second ∧ firstSuffix = secondSuffix := by
  have sameText := congrArg String.toList sameKey
  rw [toList_sourceEnvKey, toList_sourceEnvKey] at sameText
  have sameEnd := List.append_cancel_left sameText
  have sameSuffix : firstSuffix = secondSuffix := by
    have sameLast := congrArg List.getLast? sameEnd
    simp only [sourceSuffixes, List.mem_cons, List.not_mem_nil, or_false]
      at firstMem secondMem
    rcases firstMem with rfl | rfl <;> rcases secondMem with rfl | rfl
    · rfl
    · exact absurd sameLast (by simp)
    · exact absurd sameLast (by simp)
    · rfl
  subst sameSuffix
  have sameUpper := List.append_cancel_right sameEnd
  have sameName := congrArg (List.map Char.toLower) sameUpper
  rw [map_toLower_toUpper_of_valid firstValid,
    map_toLower_toUpper_of_valid secondValid] at sameName
  exact ⟨String.toList_inj.mp sameName, rfl⟩

end Keys

section Lookups

variable {platform : Platform} {first second : Environment}

/-- A source is resolved from the two variables of its name. -/
theorem resolveNamedSource_congr {entry : FileSource}
    (same : ∀ suffix ∈ sourceSuffixes,
      first (sourceEnvKey (String.ofList (trim entry.name.toList)) suffix) =
        second (sourceEnvKey (String.ofList (trim entry.name.toList)) suffix)) :
    resolveNamedSource platform first entry =
      resolveNamedSource platform second entry := by
  have sameUri := same "URI" (by decide)
  have sameSchemas := same "SCHEMAS" (by decide)
  simp only [resolveNamedSource, sourceEnv, sameUri, sameSchemas]

theorem name_of_resolveNamedSource {entry : FileSource}
    {source : PostgresSource}
    (resolved : resolveNamedSource platform first entry = .ok source) :
    source.name = String.ofList (trim entry.name.toList) ∧
      validateSourceName platform source.name = .ok () := by
  unfold resolveNamedSource at resolved
  obtain ⟨_, isValid, resolved⟩ := bind_eq_ok_iff.mp resolved
  obtain ⟨uri, -, resolved⟩ := bind_eq_ok_iff.mp resolved
  cases resolved
  exact ⟨rfl, isValid⟩

theorem forall₂_of_resolvePostgresSources {entries : List FileSource}
    {filePostgresUri : Option String}
    {filePostgresSchemas : Option (List String)}
    {sources : List PostgresSource}
    (resolved : resolvePostgresSources platform (some entries) filePostgresUri
      filePostgresSchemas first = .ok sources) :
    List.Forall₂ (fun entry source =>
      resolveNamedSource platform first entry = .ok source) entries sources := by
  obtain ⟨-, -, resolved⟩ := bind_eq_ok_iff.mp resolved
  obtain ⟨-, -, resolved⟩ := bind_eq_ok_iff.mp resolved
  exact mapM_eq_ok_iff.mp resolved

theorem resolvePostgresSources_of_fromSources {file : FileConfig}
    {config : Config}
    (resolved : fromSources platform file first = .ok config) :
    resolvePostgresSources platform file.sources file.postgresUri
      file.postgresSchemas first = .ok config.postgresSources := by
  unfold fromSources at resolved
  obtain ⟨parquetPath, -, resolved⟩ := bind_eq_ok_iff.mp resolved
  obtain ⟨cdcPath, -, resolved⟩ := bind_eq_ok_iff.mp resolved
  obtain ⟨sources, isResolved, resolved⟩ := bind_eq_ok_iff.mp resolved
  obtain ⟨cacheMaxEntries, -, resolved⟩ := bind_eq_ok_iff.mp resolved
  obtain ⟨cacheTtlSeconds, -, resolved⟩ := bind_eq_ok_iff.mp resolved
  obtain ⟨cdcPollSeconds, -, resolved⟩ := bind_eq_ok_iff.mp resolved
  obtain ⟨-, -, resolved⟩ := bind_eq_ok_iff.mp resolved
  cases resolved
  exact isResolved

/-- With a list of sources the variables of the single-source form have no
influence. -/
theorem fromSources_eq_of_flatVariables {file : FileConfig}
    {entries : List FileSource} (isNamed : file.sources = some entries)
    (differ : DifferOnlyIn flatVariables first second) :
    fromSources platform file first = fromSources platform file second := by
  have named : resolveNamedSource platform first =
      resolveNamedSource platform second := by
    funext entry
    exact resolveNamedSource_congr fun suffix _ =>
      differ _ (sourceEnvKey_notMem_flatVariables _ suffix)
  have sources : ∀ uri schemas,
      resolvePostgresSources platform (some entries) uri schemas first =
        resolvePostgresSources platform (some entries) uri schemas second := by
    intro uri schemas
    unfold resolvePostgresSources
    dsimp only
    rw [named]
  have parquet := differ "IGLOO_PARQUET_PATH" (by decide)
  have cdc := differ "IGLOO_CDC_PATH" (by decide)
  have listen := differ "IGLOO_LISTEN_ADDR" (by decide)
  have maxEntries := differ "IGLOO_CACHE_MAX_ENTRIES" (by decide)
  have ttl := differ "IGLOO_CACHE_TTL_SECONDS" (by decide)
  have poll := differ "IGLOO_CDC_POLL_SECONDS" (by decide)
  unfold fromSources envU64
  rw [isNamed, sources, parquet, cdc, listen, maxEntries, ttl, poll]

/-- The variables of one name reach the source of that name only. -/
theorem forall₂_sources_of_sourceVariables {file : FileConfig}
    {entries : List FileSource} (isNamed : file.sources = some entries)
    {name : String} (valid : validateSourceName platform name = .ok ())
    (differ : DifferOnlyIn (sourceVariables name) first second)
    {firstConfig secondConfig : Config}
    (firstResolved : fromSources platform file first = .ok firstConfig)
    (secondResolved : fromSources platform file second = .ok secondConfig) :
    List.Forall₂ (fun source other => source.name = other.name ∧
        (source.name ≠ name → source = other))
      firstConfig.postgresSources secondConfig.postgresSources := by
  have firsts := resolvePostgresSources_of_fromSources firstResolved
  have seconds := resolvePostgresSources_of_fromSources secondResolved
  rw [isNamed] at firsts seconds
  have pairs := forall₂_compose (forall₂_of_resolvePostgresSources firsts)
    (forall₂_of_resolvePostgresSources seconds)
  refine pairs.imp ?_
  rintro source other ⟨entry, resolved, resolvedOther⟩
  obtain ⟨nameEq, sourceValid⟩ := name_of_resolveNamedSource resolved
  obtain ⟨otherNameEq, -⟩ := name_of_resolveNamedSource resolvedOther
  refine ⟨nameEq.trans otherNameEq.symm, fun isOther => ?_⟩
  have sameResult : resolveNamedSource platform first entry =
      resolveNamedSource platform second entry := by
    refine resolveNamedSource_congr fun suffix suffixMem => differ _ ?_
    rw [← nameEq]
    intro keyMem
    obtain ⟨otherSuffix, otherMem, sameKey⟩ := List.mem_map.mp keyMem
    exact isOther (sourceEnvKey_injective
      (validateSourceName_eq_ok_iff.mp valid)
      (validateSourceName_eq_ok_iff.mp sourceValid) otherMem suffixMem
      sameKey).1.symm
  rw [resolved, resolvedOther] at sameResult
  exact Except.ok.inj sameResult

end Lookups

/-- Named sources are isolated from the variables of the single-source form and
from the variables of each other, since no two of them read the same key. -/
theorem sources_isolated (platform : Platform) {file : FileConfig}
    {entries : List FileSource} (isNamed : file.sources = some entries) :
    (∀ first second, DifferOnlyIn flatVariables first second →
      fromSources platform file first = fromSources platform file second) ∧
    (∀ name, validateSourceName platform name = .ok () → ∀ first second,
      DifferOnlyIn (sourceVariables name) first second →
      ∀ firstConfig, fromSources platform file first = .ok firstConfig →
      ∀ secondConfig, fromSources platform file second = .ok secondConfig →
        List.Forall₂ (fun source other => source.name = other.name ∧
            (source.name ≠ name → source = other))
          firstConfig.postgresSources secondConfig.postgresSources) ∧
    (∀ name other, validateSourceName platform name = .ok () →
      validateSourceName platform other = .ok () →
      ∀ suffix ∈ sourceSuffixes, ∀ otherSuffix ∈ sourceSuffixes,
        sourceEnvKey name suffix = sourceEnvKey other otherSuffix →
          name = other ∧ suffix = otherSuffix) := by
  refine ⟨?_, ?_, ?_⟩
  · intro first second differ
    exact fromSources_eq_of_flatVariables isNamed differ
  · intro name valid first second differ firstConfig firstResolved secondConfig
      secondResolved
    exact forall₂_sources_of_sourceVariables isNamed valid differ firstResolved
      secondResolved
  · intro name other valid otherValid suffix suffixMem otherSuffix otherMem
    exact sourceEnvKey_injective (validateSourceName_eq_ok_iff.mp valid)
      (validateSourceName_eq_ok_iff.mp otherValid) suffixMem otherMem

/-- A platform that takes every address and escapes nothing but what `Debug`
always escapes. -/
def plainPlatform : Platform where
  parseSocketAddr := fun _ => .ok ()
  printable := fun _ => true

/-- Two databases; the credentials of the second are left to the
environment. -/
def twoSourcesFile : FileConfig where
  parquetPath := some "/data/parquet"
  cdcPath := some "/data/cdc"
  postgresUri := none
  postgresSchemas := none
  sources := some [⟨"crm", some "postgres://u@db/crm", none, none⟩,
    ⟨"orders", none, none, none⟩]
  listenAddr := none
  cacheMaxEntries := none
  cacheTtlSeconds := none
  cdcPollSeconds := none

def ordersEnvironment : Environment := fun key =>
  if key = "IGLOO_SOURCE_ORDERS_URI" then some "host=db dbname=orders"
  else none

def archiveEnvironment : Environment := fun key =>
  if key = "IGLOO_SOURCE_ORDERS_URI" then some "host=db dbname=archive"
  else none

/-- An inherited `DATABASE_URL` changes nothing, and another address of the
second database leaves the first source alone. -/
theorem sources_isolated_twoSources :
    fromSources plainPlatform twoSourcesFile ordersEnvironment =
        (fromSources plainPlatform twoSourcesFile fun key =>
          if key = "DATABASE_URL" then some "postgres://u@other/db"
          else ordersEnvironment key) ∧
      ∃ orders archive,
        fromSources plainPlatform twoSourcesFile ordersEnvironment =
            .ok orders ∧
          fromSources plainPlatform twoSourcesFile archiveEnvironment =
            .ok archive ∧
          orders.postgresSources ≠ archive.postgresSources ∧
          List.Forall₂ (fun source other => source.name = other.name ∧
              (source.name ≠ "orders" → source = other))
            orders.postgresSources archive.postgresSources := by
  have isNamed : twoSourcesFile.sources =
      some [⟨"crm", some "postgres://u@db/crm", none, none⟩,
        ⟨"orders", none, none, none⟩] := rfl
  obtain ⟨flat, named, -⟩ := sources_isolated plainPlatform isNamed
  constructor
  · refine flat _ _ ?_
    intro key notFlat
    have isOther : key ≠ "DATABASE_URL" := by
      rintro rfl
      exact notFlat (by decide)
    exact (if_neg isOther).symm
  · have differ : DifferOnlyIn (sourceVariables "orders") ordersEnvironment
        archiveEnvironment := by
      intro key notOrders
      have isOther : key ≠ "IGLOO_SOURCE_ORDERS_URI" := by
        rintro rfl
        exact notOrders (by decide +kernel)
      rw [ordersEnvironment, archiveEnvironment, if_neg isOther,
        if_neg isOther]
    obtain ⟨orders, archive, resolved, resolvedArchive, different⟩ :
        ∃ orders archive,
          fromSources plainPlatform twoSourcesFile ordersEnvironment =
              .ok orders ∧
            fromSources plainPlatform twoSourcesFile archiveEnvironment =
              .ok archive ∧
            orders.postgresSources ≠ archive.postgresSources :=
      ⟨_, _, rfl, rfl, by decide +kernel⟩
    exact ⟨orders, archive, resolved, resolvedArchive, different,
      named "orders" (by decide +kernel) _ _ differ orders resolved archive
        resolvedArchive⟩

end Configuration

end Igloo
