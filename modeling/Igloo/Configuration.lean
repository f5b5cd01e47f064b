import Igloo.RustText

/-!
# Configuration

How `Config::from_sources` resolves the final configuration from a parsed file
and an environment, with every check and the text of every error.  The parser
of socket addresses and the table of printable characters are parameters,
gathered in `Platform`.
-/

namespace Igloo

namespace Configuration

open RustText

/-- A connection string. -/
structure Secret where
  value : String
  deriving DecidableEq, Repr

/-- `FileSource`: one `[[sources]]` entry. -/
structure FileSource where
  name : String
  uri : Option String
  schemas : Option (List String)
  tables : Option (List String)
  deriving DecidableEq, Repr

/-- `FileConfig`. -/
structure FileConfig where
  parquetPath : Option String
  cdcPath : Option String
  postgresUri : Option String
  postgresSchemas : Option (List String)
  sources : Option (List FileSource)
  listenAddr : Option String
  cacheMaxEntries : Option UInt64
  cacheTtlSeconds : Option UInt64
  cdcPollSeconds : Option UInt64
  deriving DecidableEq, Repr

def defaultCacheMaxEntries : UInt64 :=
  1024

def defaultCacheTtlSeconds : UInt64 :=
  300

def defaultCdcPollSeconds : UInt64 :=
  10

def defaultPostgresSchema : String :=
  "public"

def defaultSourceName : String :=
  "postgres"

def reservedSourceNames : List String :=
  ["datafusion", "information_schema"]

/-- `PostgresSource`. -/
structure PostgresSource where
  name : String
  uri : Secret
  schemas : List String
  tables : Option (List String)
  deriving DecidableEq, Repr

/-- A `Duration` of whole seconds. -/
structure Duration where
  secs : UInt64
  deriving DecidableEq, Repr

/-- `Config`, on a platform with 64-bit `usize`. -/
structure Config where
  parquetPath : String
  cdcPath : String
  postgresSources : List PostgresSource
  listenAddr : Option String
  cacheMaxEntries : UInt64
  cacheTtl : Duration
  cdcPollInterval : Duration
  deriving DecidableEq, Repr

/-- `IglooError::Config`, the only error of this module. -/
inductive IglooError
  | config (message : String)
  deriving DecidableEq, Repr

/-- `Display` of the error. -/
def IglooError.display : IglooError → String
  | config message => "Configuration error: " ++ message

abbrev Result :=
  Except IglooError

/-- The lookup of environment variables. -/
abbrev Environment :=
  String → Option String

/-- What the module takes from elsewhere: `str::parse::<SocketAddr>`, which
fails with a text, and the characters that `Debug` leaves unescaped. -/
structure Platform where
  parseSocketAddr : String → Except String Unit
  printable : Char → Bool

section Debug

variable (platform : Platform)

/-- `Debug` of a `str`. -/
def debugText (text : String) : String :=
  debugStr platform.printable text

/-- `Debug` of a `char`. -/
def debugChar (ch : Char) : String :=
  let escaped : List Char :=
    if ch = '\x27' then ['\\', ch]
    else if ch = '"' then [ch]
    else debugStr.escaped platform.printable ch
  String.ofList ('\x27' :: escaped ++ ['\x27'])

/-- `Debug` of a `Vec<String>`. -/
def debugTexts (texts : List String) : String :=
  "[" ++ String.intercalate ", " (texts.map (debugText platform)) ++ "]"

/-- `Debug` of an `Option`. -/
def debugOption {Value : Type} (debug : Value → String) :
    Option Value → String
  | some value => "Some(" ++ debug value ++ ")"
  | none => "None"

/-- `Debug` of a `Secret`. -/
def Secret.debug (_ : Secret) : String :=
  "Secret(***)"

/-- `Debug` of a `PostgresSource`. -/
def PostgresSource.debug (source : PostgresSource) : String :=
  "PostgresSource \x7b name: " ++ debugText platform source.name ++
    ", uri: " ++ source.uri.debug ++
    ", schemas: " ++ debugTexts platform source.schemas ++
    ", tables: " ++ debugOption (debugTexts platform) source.tables ++ " \x7d"

/-- `Debug` of a `Duration` of whole seconds. -/
def Duration.debug (duration : Duration) : String :=
  if duration.secs = 0 then "0ns" else toString duration.secs.toNat ++ "s"

/-- `Debug` of a `Config`. -/
def Config.debug (config : Config) : String :=
  "Config \x7b parquet_path: " ++ debugText platform config.parquetPath ++
    ", cdc_path: " ++ debugText platform config.cdcPath ++
    ", postgres_sources: [" ++ String.intercalate ", "
      (config.postgresSources.map (PostgresSource.debug platform)) ++ "]" ++
    ", listen_addr: " ++
      debugOption (debugText platform) config.listenAddr ++
    ", cache_max_entries: " ++ toString config.cacheMaxEntries.toNat ++
    ", cache_ttl: " ++ config.cacheTtl.debug ++
    ", cdc_poll_interval: " ++ config.cdcPollInterval.debug ++ " \x7d"

end Debug

/-- `missing`. -/
def missing (key how : String) : IglooError :=
  .config ("missing required configuration: " ++ key ++ " (set " ++ how ++
    ", or " ++ key ++ " in igloo.toml)")

/-- `split_csv`. -/
def splitCsv (raw : String) : List String :=
  ((raw.toList.splitOn ',').map fun piece => String.ofList (trim piece)).filter
    fun piece => piece ≠ ""

/-- `source_env_key`. -/
def sourceEnvKey (name suffix : String) : String :=
  "IGLOO_SOURCE_" ++ String.ofList (name.toList.map Char.toUpper) ++ "_" ++
    suffix

/-- `source_env`. -/
def sourceEnv (env : Environment) (name suffix : String) : Option String :=
  env (sourceEnvKey name suffix)

/-- `char::is_ascii_lowercase`. -/
def isAsciiLowercase (ch : Char) : Bool :=
  'a' ≤ ch && ch ≤ 'z'

/-- `Option::ok_or`. -/
def okOr {Value : Type} (value : Option Value) (error : IglooError) :
    Result Value :=
  match value with
  | some value => .ok value
  | none => .error error

/-- An early return with a configuration error unless the check passes. -/
def ensure (passes : Prop) [Decidable passes] (message : String) :
    Result Unit :=
  if passes then .ok () else .error (.config message)

section Resolution

variable (platform : Platform)

/-- `env_u64`; parsing is that of `usize` on a 64-bit platform. -/
def envU64 (env : Environment) (key : String) : Result (Option UInt64) :=
  match env key with
  | none => .ok none
  | some raw =>
      match parseUsize raw.toList with
      | some value => .ok (some (UInt64.ofNat value))
      | none => .error (.config (key ++
          " must be a non-negative integer, got " ++ debugText platform raw))

/-- `validate_source_name`. -/
def validateSourceName (name : String) : Result Unit :=
  let invalid (reason : String) : Result Unit :=
    .error (.config ("invalid source name " ++ debugText platform name ++
      ": " ++ reason ++ " (use lowercase letters, digits and " ++
      "underscores, starting with a letter)"))
  match name.toList with
  | [] => invalid "it is empty"
  | first :: rest =>
      if !isAsciiLowercase first then
        invalid "it must start with a lowercase ASCII letter"
      else
        match rest.find? fun ch =>
          !(isAsciiLowercase ch || ch.isDigit || ch = '_') with
        | some bad => invalid (debugChar platform bad ++ " is not allowed")
        | none =>
            if name ∈ reservedSourceNames then
              .error (.config ("invalid source name " ++
                debugText platform name ++
                ": it is reserved by the query engine"))
            else .ok ()

/-- `resolve_named_source`. -/
def resolveNamedSource (env : Environment) (entry : FileSource) :
    Result PostgresSource := do
  let name := String.ofList (trim entry.name.toList)
  validateSourceName platform name
  let uri ← okOr ((sourceEnv env name "URI").or entry.uri)
    (.config ("missing required configuration: uri for source " ++
      debugText platform name ++ " (set " ++ sourceEnvKey name "URI" ++
      ", or uri in its [[sources]] entry)"))
  let schemas := (((sourceEnv env name "SCHEMAS").map splitCsv).or
    entry.schemas).getD [defaultPostgresSchema]
  return ⟨name, ⟨uri⟩, schemas, entry.tables⟩

/-- `resolve_postgres_sources`. -/
def resolvePostgresSources (fileSources : Option (List FileSource))
    (filePostgresUri : Option String)
    (filePostgresSchemas : Option (List String)) (env : Environment) :
    Result (List PostgresSource) :=
  let envUri := (env "DATABASE_URL").or (env "IGLOO_POSTGRES_URI")
  let envSchemas := (env "IGLOO_POSTGRES_SCHEMAS").map splitCsv
  match fileSources with
  | none => do
      let uri ← okOr (envUri.or filePostgresUri)
        (missing "postgres_uri" "IGLOO_POSTGRES_URI or DATABASE_URL")
      let schemas := (envSchemas.or filePostgresSchemas).getD
        [defaultPostgresSchema]
      return [⟨defaultSourceName, ⟨uri⟩, schemas, none⟩]
  | some entries => do
      ensure (filePostgresUri = none ∧ filePostgresSchemas = none)
        ("config file sets both [[sources]] and the single-source keys " ++
          "postgres_uri/postgres_schemas: pick one form (move the " ++
          "single-source settings into a [[sources]] entry)")
      ensure (entries ≠ [])
        "sources is empty: list at least one [[sources]] entry"
      entries.mapM (resolveNamedSource platform env)

end Resolution

section Validation

variable (platform : Platform)

/-- `str::contains` with a character. -/
def containsChar (text : String) (ch : Char) : Bool :=
  ch ∈ text.toList

/-- `str::starts_with`. -/
def startsWith (text front : String) : Bool :=
  front.toList.isPrefixOf text.toList

/-- The check that a connection string is a URI or has key-value form. -/
def looksLikeConnection (uri : String) : Bool :=
  startsWith uri "postgres://" || startsWith uri "postgresql://" ||
    containsChar uri '='

def isBlank (text : String) : Bool :=
  (trim text.toList).isEmpty

/-- One iteration of `validate_sources`: the names seen so far. -/
def validateSource (seen : List String) (source : PostgresSource) :
    Result (List String) := do
  validateSourceName platform source.name
  ensure (source.name ∉ seen)
    ("duplicate source name " ++ debugText platform source.name ++
      ": source names must be unique")
  ensure (looksLikeConnection source.uri.value = true)
    ("uri for source " ++ debugText platform source.name ++
      " must be a postgres:// URI or key-value connection string")
  ensure (source.schemas ≠ [])
    ("schemas for source " ++ debugText platform source.name ++
      " must list at least one schema")
  ensure (¬ source.schemas.any isBlank)
    ("schemas for source " ++ debugText platform source.name ++
      " must not contain empty schema names")
  ensure (source.tables ≠ some [])
    ("tables for source " ++ debugText platform source.name ++
      " is an empty allowlist, which would register nothing; omit the key " ++
      "to register every table")
  ensure (¬ source.tables.any fun tables => tables.any isBlank)
    ("tables for source " ++ debugText platform source.name ++
      " must not contain empty table names")
  return source.name :: seen

/-- `validate_sources`. -/
def validateSources (sources : List PostgresSource) : Result Unit := do
  ensure (sources ≠ [])
    ("at least one PostgreSQL source must be configured " ++
      "(postgres_uri, or a [[sources]] entry)")
  let _ ← sources.foldlM (validateSource platform) []
  return ()

/-- The check of `listen_addr`. -/
def validateListenAddr (listenAddr : Option String) : Result Unit :=
  match listenAddr with
  | none => .ok ()
  | some addr =>
      match platform.parseSocketAddr addr with
      | .ok () => .ok ()
      | .error reason => .error (.config ("listen_addr " ++
          debugText platform addr ++
          " is not a valid socket address (host:port): " ++ reason))

/-- `validate`. -/
def validate (config : Config) : Result Unit := do
  ensure (¬ isBlank config.parquetPath) "parquet_path must not be empty"
  ensure (¬ isBlank config.cdcPath) "cdc_path must not be empty"
  validateSources platform config.postgresSources
  validateListenAddr platform config.listenAddr
  ensure (config.cacheMaxEntries ≠ 0) "cache_max_entries must be positive"
  ensure (config.cacheTtl.secs ≠ 0) "cache_ttl_seconds must be positive"
  ensure (config.cdcPollInterval.secs ≠ 0) "cdc_poll_seconds must be positive"

/-- `Config::from_sources`. -/
def fromSources (file : FileConfig) (env : Environment) : Result Config := do
  let parquetPath ← okOr ((env "IGLOO_PARQUET_PATH").or file.parquetPath)
    (missing "parquet_path" "IGLOO_PARQUET_PATH")
  let cdcPath ← okOr ((env "IGLOO_CDC_PATH").or file.cdcPath)
    (missing "cdc_path" "IGLOO_CDC_PATH")
  let postgresSources ← resolvePostgresSources platform file.sources
    file.postgresUri file.postgresSchemas env
  let listenAddr := (env "IGLOO_LISTEN_ADDR").or file.listenAddr
  let cacheMaxEntries ← envU64 platform env "IGLOO_CACHE_MAX_ENTRIES"
  let cacheTtlSeconds ← envU64 platform env "IGLOO_CACHE_TTL_SECONDS"
  let cdcPollSeconds ← envU64 platform env "IGLOO_CDC_POLL_SECONDS"
  let config : Config :=
    { parquetPath, cdcPath, postgresSources, listenAddr
      cacheMaxEntries := (cacheMaxEntries.or file.cacheMaxEntries).getD
        defaultCacheMaxEntries
      cacheTtl := ⟨(cacheTtlSeconds.or file.cacheTtlSeconds).getD
        defaultCacheTtlSeconds⟩
      cdcPollInterval := ⟨(cdcPollSeconds.or file.cdcPollSeconds).getD
        defaultCdcPollSeconds⟩ }
  validate platform config
  return config

end Validation

end Configuration

end Igloo
