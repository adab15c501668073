import Mathlib.Logic.Function.Basic
import Taql.Cluster
import Taql.Resolution

/-! `packages/config/src/index.ts`: what the gateway takes from its environment, which in a
worker is that of the primary and what `cluster.fork` adds to it. -/
namespace Taql.Configuration
open Resolution

/-- Files, URLs, and the machine. -/
structure Outside where
  readFile : String → Except ConfigError String
  newUrl : String → Except ConfigError String
  hostname : String
  availableParallelism : Option Nat

abbrev Declarations := List (String × EnvVal)

section Tables
variable (outside : Outside)

/-! ### The declarations -/

/-- A property with one resolver and a default. -/
def declare (property : String) (resolver : Resolver) (defaultTo : Value) : EnvVal := ⟨[property], resolver, defaultTo⟩

/-- `process.env.NODE_ENV === 'production'`. -/
def production (env : Env) : Bool := env "NODE_ENV" = some "production"

def loggerConfig (env : Env) : Declarations :=
  [("console", declare "LOG_CONSOLE" booleanFromString (.boolean true)),
    ("logLevel", declare "LOG_LEVEL" rawVal (.string "info")),
    -- by default only log failed requests in production
    ("accessLogMinStatus", declare "ACCESS_LOG_MIN_STATUS" nonNegativeInteger
      (.number (if production env then 400 else 0)))]

def appMeta (env : Env) : Declarations :=
  [("version", declare "APP_VERSION" rawVal ((env "NODE_ENV").elim .undefined .string))]

def DEFAULT : Declarations :=
  [("redisCluster", declare "DEFAULT_REDIS_CLUSTER" rawVal
      (.string "redis.taql-query-cache.svc.kub.n.tripadvisor.com")),
    ("redisPort", declare "DEFAULT_REDIS_PORT" nonNegativeInteger (.number 6379))]

/-- What `LEGACY_SCHEMA_SOURCE` resolves to when it is not `gsr`. -/
def legacySchema : Declarations :=
  [("url", declare "LEGACY_GQL_URL" (urlFromString outside.newUrl)
      (.url "http://graphql.graphql-lapin.svc.kub.n.tripadvisor.com:4723/")),
    ("oidcLiteAuthorizationDomain", declare "LEGACY_GQL_OIDC_DOMAIN" rawVal .undefined),
    ("maxTimeout", declare "LEGACY_GQL_TIMEOUT" nonNegativeInteger (.number 5000)),
    ("batchMaxSize", declare "LEGACY_GQL_BATCH_MAX_SIZE" nonNegativeInteger (.number 250)),
    ("batchStyle", declare "LEGACY_GQL_BATCH_STYLE" (options ["Array", "Legacy", "Single"]) (.string "Legacy")),
    ("batchStrategy", declare "LEGACY_GQL_BATCH_STRATEGY" (options ["Request", "Headers", "Insecure"])
      (.string "Headers")),
    ("batchWaitMillis", declare "LEGACY_GQL_BATCH_WAIT_MILLIS" nonNegativeInteger (.number 20))]

/-- A resolver that resolves properties of its own. -/
def legacySchemaSource (env : Env) : Resolver := fun prop =>
  if prop ≠ some "gsr" then (resolve env (legacySchema outside)).map .object else .ok (.string "gsr")

/-- The first two are what a worker is told. -/
def schemaSource : Declarations :=
  [("source", declare "SCHEMA_SOURCE" (options ["gsr", "file", "cache"]) (.string "gsr")),
    ("schemaFile", declare "SCHEMA_FILE" rawVal .undefined)]

def schemaRest (env : Env) : Declarations :=
  [("schemaDigest", declare "SCHEMA_DIGEST" rawVal .undefined),
    ("legacySchemaSource", declare "LEGACY_SCHEMA_SOURCE" (legacySchemaSource outside env) .undefined),
    ("environment", declare "GSR_ENVIRONMENT" rawVal (.string "development")),
    ("repositoryUrl", declare "GSR_URL" rawVal (.string "https://gsr.domains-platform-dev.tamg.cloud")),
    ("oidcLiteAuthorizationDomain", declare "GSR_OIDC_DOMAIN" rawVal (.string "domains-platform-dev.tamg.cloud")),
    ("trySchemaFromCache", declare "SCHEMA_TRY_FROM_CACHE_ON_FAILURE" booleanFromString (.boolean true)),
    ("schemaCacheKey", declare "SCHEMA_CACHE_KEY" rawVal (.string "SCHEMA_CACHE")),
    ("lastSchemaDigestKey", declare "LAST_SCHEMA_CACHE_KEY" rawVal (.string "LAST_SCHEMA_DIGEST"))]

def SCHEMA (env : Env) : Declarations := schemaSource ++ schemaRest outside env

def AUTH_MANAGER_CONFIG : Declarations :=
  [("authKind", declare "AUTH_MANAGER_KIND" (options ["aws", "oidc"]) (.string "aws")),
    ("oidcTokenPath", declare "AUTH_MANAGER_OIDC_TOKEN_PATH" rawVal (.string "/var/run/secrets/kubernetes.io/oidc")),
    ("eagerProvider", declare "AUTH_MANAGER_EAGER_PROVIDER" booleanFromString (.boolean false))]

def EXECUTION_TIMEOUT_PARAMS : Declarations :=
  [("defaultExecutionTimeoutMillis", declare "DEFAULT_EXECUTION_TIMEOUT_MILLIS" nonNegativeInteger (.number 1000)),
    ("maxExecutionTimeoutMillis", declare "MAX_EXECUTION_TIMEOUT_MILLIS" nonNegativeInteger (.number 3500)),
    ("executionPaddingMillis", declare "EXECUTION_PADDING_MILLIS" nonNegativeInteger (.number 25))]

def UPSTREAM_TIMEOUT_PARAMS : Declarations :=
  [("upstreamTimeoutPaddingMillis", declare "UPSTREAM_TIMEOUT_PADDING_MILLIS" nonNegativeInteger (.number 25)),
    ("upstreamTimeoutPaddingThreshold", declare "UPSTREAM_TIMEOUT_PADDING_THRESHOLD" nonNegativeInteger (.number 25)),
    ("softMaxUpstreamTimeoutMillis", declare "SOFT_MAX_UPSTREAM_TIMEOUT_MILLIS" nonNegativeInteger (.number 350)),
    ("hardMaxUpstreamTimeoutMillis", declare "HARD_MAX_UPSTREAM_TIMEOUT_MILLIS" nonNegativeInteger (.number 2500))]

def SSL_PARAMS : Declarations :=
  [("cert", declare "CLIENT_CERT_PATH" (fileContents outside.readFile) .undefined),
    ("key", declare "CLIENT_KEY_PATH" (fileContents outside.readFile) .undefined),
    ("ca", declare "CLIENT_CERT_CA_PATH" (fileContents outside.readFile) .undefined),
    ("rejectUnauthorized", declare "SSL_REJECT_UNAUTHORIZED" booleanFromString (.boolean true))]

def SERVER_PARAMS : Declarations :=
  [("port", declare "SERVER_PORT" nonNegativeInteger (.number 4000)),
    ("batchLimit", declare "SERVER_BATCH_LIMIT" nonNegativeInteger (.number 2000)),
    ("hostname", declare "HOSTNAME" rawVal (.string outside.hostname)),
    ("clusterParallelism", declare "CLUSTER_PARALLELISM" nonNegativeInteger
      (.number (outside.availableParallelism.getD 1))),
    ("svcoSchemaTtl", declare "SVCO_SCHEMA_TTL" nonNegativeInteger (.number (1000 * 60 * 10))),
    ("keepAliveTimeout", declare "SERVER_KEEP_ALIVE_TIMEOUT" nonNegativeInteger (.number 5000))]

def ENABLE_FEATURES (env : Env) : Declarations :=
  let development : Value := .boolean (!production env)
  [("debugExtensions", declare "ENABLE_DEBUG_EXTENSIONS" booleanFromString development),
    ("maskErrors", declare "MASK_ERRORS" booleanFromString (.boolean (production env))),
    ("graphiql", declare "ENABLE_GRAPHIQL" booleanFromString development),
    ("graphqlJIT", declare "ENABLE_GRAPHQL_JIT" booleanFromString (.boolean false)),
    ("introspection", declare "ENABLE_INTROSPECTION" booleanFromString development),
    ("serviceOverrides", declare "ENABLE_SERVICE_OVERRIDES" booleanFromString development),
    ("astLocationInfo", declare "ENABLE_AST_LOCATION_INFO" booleanFromString development),
    ("astDescription", declare "ENABLE_AST_DESCRIPTION" booleanFromString development),
    ("composeEndpoint", declare "ENABLE_COMPOSE_ENDPOINT" booleanFromString development),
    ("lifecycleSpans", declare "ENABLE_LIFECYCLE_SPANS" booleanFromString development),
    ("cacheSpans", declare "ENABLE_CACHE_SPANS" booleanFromString (.boolean false)),
    ("printSpans", declare "ENABLE_PRINT_SPANS" booleanFromString (.boolean false))]

def PREREGISTERED_QUERY_PARAMS : Declarations :=
  [("maxCacheSize", declare "PREREGISTERED_QUERY_CACHE_SIZE" nonNegativeInteger (.number 2000)),
    ("databaseUri", declare "PREREGISTERED_QUERY_DB_URI" rawVal
      (.string "postgres://graphql_operations_ros@graphql-operations-ros.db.var.ml.tripadvisor.com")),
    ("pgUseSsl", declare "PREREGISTERED_QUERY_USE_SSL" booleanFromString (.boolean false)),
    ("pgSslKeyPath", declare "PGSSLKEY" rawVal (.string "/etc/certs/cert.key")),
    ("pgSslCertPath", declare "PGSSLCERT" rawVal (.string "/etc/certs/cert.pem")),
    ("pgSslCaCertPath", declare "PGSSLROOTCERT" rawVal (.string "/etc/certs/root.pem")),
    ("sslRejectUnauthorized", declare "PREREGISTERED_QUERY_REJECT_UNAUTHORIZED" booleanFromString (.boolean true))]

def AUTOMATIC_PERSISTED_QUERY_PARAMS : Declarations :=
  [("redisCluster", declare "AUTOMATIC_PERSISTED_QUERY_REDIS_CLUSTER" rawVal .undefined),
    ("redisInstance", declare "AUTOMATIC_PERSISTED_QUERY_REDIS_INSTANCE" rawVal .undefined),
    ("redisTTL", declare "AUTOMATIC_PERSISTED_QUERY_REDIS_TTL" nonNegativeInteger (.number 300000)),
    ("redisWaitTimeMs", declare "AUTOMATIC_PERSISTED_QUERY_REDIS_WAIT_TIME_MS" nonNegativeInteger (.number 2000)),
    ("memCacheSize", declare "AUTOMATIC_PERSISTED_QUERY_CACHE_SIZE" nonNegativeInteger (.number 1000))]

def PROM_PARAMS : Declarations := [("prefix", declare "PROM_PREFIX" rawVal (.string "taql_"))]

def TRACING_PARAMS : Declarations :=
  [("zipkinUrl", declare "TRACING_ZIPKIN_URL" rawVal .undefined),
    ("useBatchingProcessor", declare "TRACING_USE_BATCHING_PROCESSOR" booleanFromString (.boolean true)),
    ("alwaysSample", declare "TRACING_ALWAYS_SAMPLE" booleanFromString (.boolean false))]

def GITOPS_PARAMS : Declarations :=
  [("allowPartialSchema", declare "GITOPS_ALLOW_PARTIAL_SCHEMA" booleanFromString (.boolean false)),
    ("patchFilePath", declare "GITOPS_PATCH_FILE_PATH" rawVal .undefined),
    ("valuesFilePath", declare "GITOPS_VALUES_FILE_PATH" rawVal .undefined),
    ("useDummyDigest", declare "GITOPS_USE_DUMMY_DIGEST" booleanFromString (.boolean false))]

def SECURITY (env : Env) : Declarations :=
  [("trustByDefault", declare "TRUST_BY_DEFAULT" booleanFromString (.boolean (!production env))),
    ("runUntrustedOperations", declare "RUN_UNTRUSTED_OPERATIONS" booleanFromString (.boolean true))]

/-- The tables in the order they are resolved when the module is loaded. -/
def tables (env : Env) : List (String × Declarations) :=
  [("loggerConfig", loggerConfig env), ("appMeta", appMeta env), ("DEFAULT", DEFAULT), ("SCHEMA", SCHEMA outside env),
    ("AUTH_MANAGER_CONFIG", AUTH_MANAGER_CONFIG), ("EXECUTION_TIMEOUT_PARAMS", EXECUTION_TIMEOUT_PARAMS),
    ("UPSTREAM_TIMEOUT_PARAMS", UPSTREAM_TIMEOUT_PARAMS), ("SSL_PARAMS", SSL_PARAMS outside),
    ("SERVER_PARAMS", SERVER_PARAMS outside), ("ENABLE_FEATURES", ENABLE_FEATURES env),
    ("PREREGISTERED_QUERY_PARAMS", PREREGISTERED_QUERY_PARAMS),
    ("AUTOMATIC_PERSISTED_QUERY_PARAMS", AUTOMATIC_PERSISTED_QUERY_PARAMS), ("PROM_PARAMS", PROM_PARAMS),
    ("TRACING_PARAMS", TRACING_PARAMS), ("GITOPS_PARAMS", GITOPS_PARAMS), ("SECURITY", SECURITY env)]

/-- The configuration of a process, table by table. -/
abbrev Configured := List (String × List (String × Value))

def resolveTable (env : Env) (table : String × Declarations) : Except ConfigError (String × List (String × Value)) :=
  (resolve env table.2).map fun values => (table.1, values)

/-- What loading the module comes to. -/
def configure (env : Env) : Except ConfigError Configured := (tables outside env).mapM (resolveTable env)

/-! ### The environment of a process -/

/-- The variables that tell `dotenv/config` what file to read, and how. -/
def dotenvOptions : List String :=
  ["DOTENV_CONFIG_PATH", "DOTENV_CONFIG_ENCODING", "DOTENV_CONFIG_OVERRIDE", "DOTENV_CONFIG_DEBUG",
    "DOTENV_CONFIG_DOTENV_KEY", "DOTENV_KEY", "HOME"]

/-- `dotenv/config`, by its documentation: what is set is left as it is, unless it is told to
override; and what is not set is given what the file says, which is the one the options name. -/
structure Documented (dotenv : Env → Env) : Prop where
  keeps : ∀ env name, env "DOTENV_CONFIG_OVERRIDE" = none → env name ≠ none → dotenv env name = env name
  reads : ∀ env other, (∀ option ∈ dotenvOptions, other option = env option) →
    ∀ name, env name = none → other name = none → dotenv other name = dotenv env name

/-- It is not told to override, and the file names no options for a process to come. -/
structure Unoptioned (dotenv : Env → Env) (env : Env) : Prop where
  override : env "DOTENV_CONFIG_OVERRIDE" = none
  options : ∀ option ∈ dotenvOptions, dotenv env option = env option

def sourceText : SchemaCache.Source → String
  | .gsr => "gsr"
  | .file => "file"
  | .cache => "cache"

/-- `cluster.fork(env)`: a copy of the environment, over it what it is given, and the id of
the worker. -/
def fork (given : Cluster.Environment) (id : String) (env : Env) : Env :=
  let overlaid := Function.update (Function.update env "SCHEMA_FILE" (some given.SCHEMA_FILE)) "SCHEMA_SOURCE"
    (some (sourceText given.SCHEMA_SOURCE))
  Function.update overlaid "NODE_UNIQUE_ID" (some id)

end Tables

/-! ### What a worker reads -/

/-- `SCHEMA.source` and the like; undefined where there is nothing of the name. -/
def tableOf (configured : Configured) (table : String) : List (String × Value) :=
  ((configured.find? fun found => found.1 = table).map Prod.snd).getD []

def valueOf (configured : Configured) (table key : String) : Value :=
  (((tableOf configured table).find? fun entry => entry.1 = key).map Prod.snd).getD .undefined

/-- What a worker is told is what it reads, and the rest it reads as the primary does. -/
structure Follows (given : Cluster.Environment) (primary worker : Configured) : Prop where
  source : valueOf worker "SCHEMA" "source" = .string (sourceText given.SCHEMA_SOURCE)
  schemaFile : valueOf worker "SCHEMA" "schemaFile" = .string given.SCHEMA_FILE
  others : ∀ table key, (table, key) ≠ ("SCHEMA", "source") → (table, key) ≠ ("SCHEMA", "schemaFile") →
    valueOf worker table key = valueOf primary table key

/-- The variables that a fork sets. -/
def forked : List String := ["SCHEMA_FILE", "SCHEMA_SOURCE", "NODE_UNIQUE_ID"]

section Worker
variable {outside : Outside} {env : Env} {given : Cluster.Environment} {id : String} {dotenv : Env → Env}

theorem fork_forked {name : String} (set : name ∈ forked) : fork given id env name ≠ none := by
  simp only [forked, List.mem_cons, List.not_mem_nil, or_false] at set
  rcases set with rfl | rfl | rfl <;> simp [fork]

theorem fork_unforked {name : String} (other : name ∉ forked) : fork given id env name = env name := by
  simp only [forked, List.mem_cons, List.not_mem_nil, or_false, not_or] at other
  unfold fork
  simp only [Function.update_apply, other, if_false]

/-- The file of variables adds nothing to an environment that already has it. -/
theorem dotenv_fork (documented : Documented dotenv) (unoptioned : Unoptioned dotenv env) :
    dotenv (fork given id (dotenv env)) = fork given id (dotenv env) := by
  have same : ∀ option ∈ dotenvOptions, fork given id (dotenv env) option = env option := by
    intro option listed
    have unforked : option ∉ forked := by
      revert option
      decide
    rw [fork_unforked unforked, unoptioned.options option listed]
  have plain : fork given id (dotenv env) "DOTENV_CONFIG_OVERRIDE" = none :=
    (same _ (by decide)).trans unoptioned.override
  funext name
  by_cases unset : fork given id (dotenv env) name = none
  · have unforked : name ∉ forked := fun set => fork_forked set unset
    rw [fork_unforked unforked] at unset
    have before : env name = none := by
      by_contra was
      exact was ((documented.keeps env name unoptioned.override was).symm.trans unset)
    rw [documented.reads env _ same name before (by rwa [fork_unforked unforked]), fork_unforked unforked]
  · exact documented.keeps _ name plain unset

/-- No property is a variable that a fork sets. -/
def unforked (conf : Declarations) : Bool :=
  conf.all fun entry => entry.2.property.all fun prop => !forked.contains prop

theorem unforked_iff {conf : Declarations} :
    unforked conf = true ↔ ∀ entry ∈ conf, ∀ prop ∈ entry.2.property, prop ∉ forked := by
  simp [unforked]

theorem unforked_legacySchema : unforked (legacySchema outside) = true := rfl

theorem unforked_schemaRest : unforked (schemaRest outside env) = true := rfl

theorem unforked_tables : (tables outside env).all (fun table => table.1 = "SCHEMA" || unforked table.2) = true := rfl

/-- The tables are declared alike in a worker. -/
theorem tables_fork : tables outside (fork given id env) = tables outside env := by
  have mode : fork given id env "NODE_ENV" = env "NODE_ENV" := fork_unforked (by simp [forked])
  have legacy : resolve (fork given id env) (legacySchema outside) = resolve env (legacySchema outside) := by
    apply resolve_congr
    intro entry member prop named
    exact fork_unforked (unforked_iff.mp unforked_legacySchema entry member prop named)
  have source : legacySchemaSource outside (fork given id env) = legacySchemaSource outside env := by
    funext prop
    rw [legacySchemaSource, legacySchemaSource, legacy]
  unfold tables loggerConfig appMeta SCHEMA schemaRest ENABLE_FEATURES SECURITY production
  rw [mode, source]

/-- What a fork changes of a table. -/
def changeEntry (given : Cluster.Environment) (entry : String × Value) : String × Value :=
  (entry.1,
    if entry.1 = "source" then .string (sourceText given.SCHEMA_SOURCE)
    else if entry.1 = "schemaFile" then .string given.SCHEMA_FILE
    else entry.2)

def changeTable (given : Cluster.Environment) (table : String × List (String × Value)) :
    String × List (String × Value) :=
  (table.1, if table.1 = "SCHEMA" then table.2.map (changeEntry given) else table.2)

theorem resolveEntry_key {entry : String × EnvVal} {result : String × Value}
    (resolved : resolveEntry env entry = .ok result) : result.1 = entry.1 := by
  unfold resolveEntry at resolved
  cases single : resolveSingle env entry.2 with
  | error error =>
    rw [single] at resolved
    cases resolved
  | ok value =>
    rw [single] at resolved
    cases resolved
    rfl

theorem resolveTable_key {table : String × Declarations} {result : String × List (String × Value)}
    (resolved : resolveTable env table = .ok result) : result.1 = table.1 ∧ resolve env table.2 = .ok result.2 := by
  unfold resolveTable at resolved
  cases values : resolve env table.2 with
  | error error =>
    rw [values] at resolved
    cases resolved
  | ok values =>
    rw [values] at resolved
    cases resolved
    exact ⟨rfl, rfl⟩

theorem rest_kept :
    (schemaRest outside env).all (fun entry => entry.1 ≠ "source" && entry.1 ≠ "schemaFile") = true := rfl

/-- A worker resolves what the primary does, but for the source and the file it is given. -/
theorem resolveEntry_fork {entry : String × EnvVal} (member : entry ∈ SCHEMA outside env) {result : String × Value}
    (resolved : resolveEntry env entry = .ok result) :
    resolveEntry (fork given id env) entry = .ok (changeEntry given result) := by
  have key := resolveEntry_key resolved
  rcases List.mem_append.mp member with first | rest
  · rcases List.mem_cons.mp first with rfl | second
    · have source :
        resolveEntry (fork given id env) ("source", declare "SCHEMA_SOURCE" (options ["gsr", "file", "cache"])
          (.string "gsr")) = .ok ("source", .string (sourceText given.SCHEMA_SOURCE)) := by
        have its : fork given id env "SCHEMA_SOURCE" = some (sourceText given.SCHEMA_SOURCE) := rfl
        unfold resolveEntry resolveSingle resolveProperty declare
        simp only [List.mapM_cons, List.mapM_nil, its]
        cases given.SCHEMA_SOURCE <;> rfl
      rw [source, changeEntry, key, if_pos rfl]
    · rw [List.mem_singleton] at second
      subst second
      rw [changeEntry, key, if_neg (by simp), if_pos rfl]
      rfl
  · have kept := List.all_eq_true.mp rest_kept entry rest
    rw [Bool.and_eq_true, decide_eq_true_eq, decide_eq_true_eq] at kept
    have same : resolveEntry (fork given id env) entry = resolveEntry env entry := by
      have values : entry.2.property.mapM (resolveProperty (fork given id env) entry.2) =
          entry.2.property.mapM (resolveProperty env entry.2) := by
        apply mapM_congr_ok
        intro prop named
        rw [resolveProperty, resolveProperty, fork_unforked (unforked_iff.mp unforked_schemaRest entry rest prop named)]
      rw [resolveEntry, resolveEntry, resolveSingle, resolveSingle, values]
    have unchanged : changeEntry given result = result := by
      rw [changeEntry, key, if_neg kept.1, if_neg kept.2, ← key]
    rw [same, resolved, unchanged]

theorem schema_table :
    (tables outside env).filter (fun table => table.1 = "SCHEMA") = [("SCHEMA", SCHEMA outside env)] := rfl

theorem resolveTable_fork {table : String × Declarations} (member : table ∈ tables outside env)
    {result : String × List (String × Value)} (resolved : resolveTable env table = .ok result) :
    resolveTable (fork given id env) table = .ok (changeTable given result) := by
  obtain ⟨key, values⟩ := resolveTable_key resolved
  by_cases schema : table.1 = "SCHEMA"
  · have is : table ∈ (tables outside env).filter fun table => table.1 = "SCHEMA" :=
      List.mem_filter.mpr ⟨member, decide_eq_true schema⟩
    rw [schema_table, List.mem_singleton] at is
    subst is
    have changed :=
      mapM_map_ok (fun entry declared result => @resolveEntry_fork outside env given id entry declared result)
      values
    rw [resolveTable, resolve, changed, changeTable, key, if_pos rfl]
    rfl
  · have clear := List.all_eq_true.mp unforked_tables table member
    rw [Bool.or_eq_true, decide_eq_true_eq] at clear
    have names := unforked_iff.mp (clear.resolve_left schema)
    have same : resolve (fork given id env) table.2 = resolve env table.2 := by
      apply resolve_congr
      intro entry declared prop named
      exact fork_unforked (names entry declared prop named)
    rw [resolveTable, same, values, changeTable, key, if_neg schema]
    rfl

theorem tableOf_change (primary : Configured) (table : String) :
    tableOf (primary.map (changeTable given)) table =
      if table = "SCHEMA" then (tableOf primary table).map (changeEntry given) else tableOf primary table := by
  unfold tableOf
  rw [List.find?_map]
  have same : ((fun found : String × List (String × Value) => decide (found.1 = table)) ∘ changeTable given) =
      fun found => decide (found.1 = table) := rfl
  rw [same]
  cases found : primary.find? fun found => found.1 = table with
  | none => simp
  | some result =>
    have name : result.1 = table := by simpa using List.find?_some found
    simp only [Option.map_some, Option.getD_some, changeTable, name]

theorem find?_changeEntry (values : List (String × Value)) (key : String) :
    (values.map (changeEntry given)).find? (fun entry => entry.1 = key) =
      (values.find? fun entry => entry.1 = key).map (changeEntry given) := List.find?_map ..

/-- The properties that say where the supergraph comes from are there. -/
theorem schema_present {primary : Configured} (loaded : configure outside env = .ok primary) (key : String)
    {decl : EnvVal} (declared : (SCHEMA outside env).find? (fun entry => entry.1 = key) = some (key, decl)) :
    ∃ entry, (tableOf primary "SCHEMA").find? (fun entry => entry.1 = key) = some entry ∧ entry.1 = key := by
  have table : (tables outside env).find? (fun table => table.1 = "SCHEMA") = some ("SCHEMA", SCHEMA outside env) := rfl
  have tableNamed (table : String × Declarations) (result : String × List (String × Value))
      (resolved : resolveTable env table = .ok result) :
        decide (result.1 = "SCHEMA") = decide (table.1 = "SCHEMA") := by
    rw [(resolveTable_key resolved).1]
  have entryNamed (entry : String × EnvVal) (result : String × Value) (resolved : resolveEntry env entry = .ok result) :
      decide (result.1 = key) = decide (entry.1 = key) := by rw [resolveEntry_key resolved]
  obtain ⟨result, found, resolved⟩ := find?_mapM tableNamed loaded table
  obtain ⟨entry, held, entered⟩ := find?_mapM entryNamed (resolveTable_key resolved).2 declared
  refine ⟨entry, ?_, resolveEntry_key entered⟩
  rw [tableOf, found]
  exact held

/-- A worker is configured as the primary, whatever else the file of variables says: only
where the supergraph comes from is what the primary tells it. -/
theorem worker_configured {primary : Configured} (documented : Documented dotenv) (unoptioned : Unoptioned dotenv env)
    (loaded : configure outside (dotenv env) = .ok primary) :
    ∃ worker, configure outside (dotenv (fork given id (dotenv env))) = .ok worker ∧
      Follows given primary worker := by
  rw [dotenv_fork documented unoptioned]
  generalize dotenv env = env at loaded
  refine ⟨primary.map (changeTable given), ?_, ?_, ?_, ?_⟩
  · unfold configure
    rw [tables_fork]
    exact mapM_map_ok (fun table member result => resolveTable_fork member) loaded
  · obtain ⟨entry, found, key⟩ := schema_present loaded "source" rfl
    rw [valueOf, tableOf_change, if_pos rfl, find?_changeEntry, found]
    simp [changeEntry, key]
  · obtain ⟨entry, found, key⟩ := schema_present loaded "schemaFile" rfl
    rw [valueOf, tableOf_change, if_pos rfl, find?_changeEntry, found]
    simp [changeEntry, key]
  · intro table key notSource notFile
    rw [valueOf, valueOf, tableOf_change]
    by_cases schema : table = "SCHEMA"
    · subst schema
      rw [if_pos rfl, find?_changeEntry]
      cases found : (tableOf primary "SCHEMA").find? fun entry => entry.1 = key with
      | none => rfl
      | some entry =>
        have name : entry.1 = key := by simpa using List.find?_some found
        have source : key ≠ "source" := fun same => notSource (by rw [same])
        have schemaFile : key ≠ "schemaFile" := fun same => notFile (by rw [same])
        simp [changeEntry, name, source, schemaFile]
    · rw [if_neg schema]

/-- What the cluster uses is what the primary has resolved. -/
structure Reads (config : Cluster.Config) (configured : Configured) : Prop where
  clusterParallelism : valueOf configured "SERVER_PARAMS" "clusterParallelism" = .number config.clusterParallelism
  serviceOverrides : valueOf configured "ENABLE_FEATURES" "serviceOverrides" = .boolean config.serviceOverrides
  source : valueOf configured "SCHEMA" "source" = .string (sourceText config.source)
  schemaFile : valueOf configured "SCHEMA" "schemaFile" = config.schemaFile.elim .undefined .string

/-- A worker resolves the source and the file that the model of the cluster gives it. -/
theorem reads_worker {config : Cluster.Config} {primary worker : Configured} (reads : Reads config primary)
    (follows : Follows config.schemaEnv primary worker) :
    Reads { config with
      source := (config.schema (some config.schemaEnv)).1
      schemaFile := (config.schema (some config.schemaEnv)).2 } worker := by
  refine ⟨?_, ?_, follows.source, follows.schemaFile⟩
  · rw [follows.others _ _ (by simp) (by simp)]
    exact reads.clusterParallelism
  · rw [follows.others _ _ (by simp) (by simp)]
    exact reads.serviceOverrides

end Worker

def bareMachine : Outside where
  readFile _ := .error (.error "ENOENT")
  newUrl _ := .error (.error "Invalid URL")
  hostname := "taql"
  availableParallelism := some 8

/-- Files of variables: of them all, the one the environment names. -/
def dotenvOf (files : Option String → String → Option String) (env : Env) : Env := fun name =>
  let parsed := files (env "DOTENV_CONFIG_PATH") name
  if (env "DOTENV_CONFIG_OVERRIDE").any fun override => override ≠ "" then parsed.or (env name)
  else (env name).or parsed

theorem documented_dotenvOf (files : Option String → String → Option String) : Documented (dotenvOf files) := by
  constructor
  · intro env name plain set
    obtain ⟨value, held⟩ := Option.ne_none_iff_exists'.mp set
    simp [dotenvOf, plain, held]
  · intro env other same name unset unset'
    unfold dotenvOf
    simp only [same "DOTENV_CONFIG_PATH" (by decide), same "DOTENV_CONFIG_OVERRIDE" (by decide), unset, unset']

/-- A file of variables that names another source, and a level for the log. -/
def dotenvFile : Option String → String → Option String := fun _ name =>
  if name = "SCHEMA_SOURCE" then some "cache" else if name = "LOG_LEVEL" then some "debug" else none

theorem worker_configured_dotenv : ∃ primary worker,
    configure bareMachine (dotenvOf dotenvFile fun _ => none) = .ok primary ∧
    configure bareMachine (dotenvOf dotenvFile (fork ⟨"./supergraph.json", .file⟩ "1"
      (dotenvOf dotenvFile fun _ => none))) = .ok worker ∧
    Follows ⟨"./supergraph.json", .file⟩ primary worker ∧
      valueOf worker "loggerConfig" "logLevel" = .string "debug" := by
  have loaded : configure bareMachine (dotenvOf dotenvFile fun _ => none) = .ok _ := rfl
  obtain ⟨worker, configured, follows⟩ :=
    @worker_configured bareMachine (fun _ => none) ⟨"./supergraph.json", .file⟩ "1"
    (dotenvOf dotenvFile) _ (documented_dotenvOf dotenvFile) ⟨rfl, by decide⟩ loaded
  refine ⟨_, worker, loaded, configured, follows, ?_⟩
  rw [follows.others _ _ (by simp) (by simp)]
  rfl

/-- A worker that is told to override reads its source from the file. -/
example : (configure bareMachine (dotenvOf dotenvFile (fork ⟨"./supergraph.json", .file⟩ "1" (dotenvOf dotenvFile
    fun name => if name = "DOTENV_CONFIG_OVERRIDE" then some "true" else none)))).map
      (fun worker => valueOf worker "SCHEMA" "source") = .ok (.string "cache") := rfl

end Taql.Configuration
