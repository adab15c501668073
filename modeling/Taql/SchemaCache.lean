import Taql.Redis
import Taql.Runs

/-! `loadSupergraph` of `packages/schema/src/schema.ts`, up to the cached schema
it leaves in Redis, and the processes that load one after another. -/
namespace Taql.SchemaCache
open Redis Runs

variable {Manifest : Type}

/-- `JSON.stringify` and `JSON.parse`, on manifests. -/
structure Json (Manifest : Type) where
  stringify : Manifest → String
  parse : String → Except String Manifest

/-- `SCHEMA` of `packages/config/src/index.ts`. Its two keys have different names by default. -/
structure SCHEMA where
  schemaDigest : Option String
  legacySchemaFromGsr : Bool
  trySchemaFromCache : Bool
  schemaCacheKey : String
  lastSchemaDigestKey : String
  distinct : schemaCacheKey ≠ lastSchemaDigestKey

inductive Source where
  | gsr
  | file
  | cache
  deriving DecidableEq

/-- The options of `loadSupergraph`; of the cluster only whether one is configured. -/
structure Options where
  source : Source
  updateCache : Option Bool
  useCacheOnFailure : Option Bool
  schemaCacheKey : Option String
  lastSchemaDigestKey : Option String
  redisCluster : Bool

namespace Options

variable (options : Options) (schema : SCHEMA)

def updatesCache : Bool := options.updateCache.getD !(options.source = .file || options.source = .cache)

def usesCacheOnFailure : Bool := options.useCacheOnFailure.getD schema.trySchemaFromCache

def cacheKey : String := options.schemaCacheKey.getD schema.schemaCacheKey

def lastDigestKey : String := options.lastSchemaDigestKey.getD schema.lastSchemaDigestKey

/-- Whether there is a `redisClient`. -/
def redisClient : Bool :=
  (options.updatesCache || options.usesCacheOnFailure schema || options.source = .cache) && options.redisCluster

end Options

/-- `loadSchemaFromCache`. The key it is given is named in its error only. -/
def loadSchemaFromCache (json : Json Manifest) (schema : SCHEMA) (key : String) (redis : Store) :
    Except String Manifest :=
  match redis.get schema.schemaCacheKey with
  | none => .error s!"No cached schema found with key {key}"
  | some raw => json.parse raw

/-- The manifest of the source, and whether it came `fromCache`. -/
def pull (json : Json Manifest) (schema : SCHEMA) (options : Options) (gsr : Except String Manifest)
    (redis : Store) : Except String (Manifest × Bool) :=
  let cached := loadSchemaFromCache json schema (options.cacheKey schema) redis
  match options.source with
  | .cache =>
    if options.redisClient schema then cached.map fun manifest => (manifest, true)
    else .error "Schema source is set to 'cache' but there is no configured default redis cache"
  | _ =>
    match gsr with
    | .ok manifest => .ok (manifest, false)
    | .error err =>
      if schema.legacySchemaFromGsr || !options.usesCacheOnFailure schema || !options.redisClient schema then
        .error err
      else
        match cached with
        | .ok manifest => .ok (manifest, true)
        | .error _ => .error err

/-- A string that is neither null nor empty. -/
def truthy (text : Option String) : Option String := text.filter fun text => text ≠ ""

/-- The commands that cache a manifest. -/
def cacheManifest (schema : SCHEMA) (schemaCacheKey lastSchemaDigestKey stringifiedManifest : String)
    (redis : Store) : Store :=
  let lastSchemaDigest := truthy (redis.get lastSchemaDigestKey)
  let cached := redis.set schemaCacheKey stringifiedManifest
  match truthy schema.schemaDigest with
  | none => cached
  | some schemaDigest =>
    let named := cached.set schemaDigest stringifiedManifest
    match lastSchemaDigest with
    | none => named
    | some lastSchemaDigest =>
      if lastSchemaDigest ≠ schemaDigest then
        (named.set lastSchemaDigestKey schemaDigest).expire lastSchemaDigest (2 * 24 * 60 * 60)
      else named

/-- `loadSupergraph`, given what the file and the GSR answer. -/
def loadSupergraph (json : Json Manifest) (schema : SCHEMA) (options : Options) (file gsr : Except String Manifest)
    (redis : Store) : Except String Manifest × Store :=
  if options.source = .file then (file, redis)
  else
    match pull json schema options gsr redis with
    | .error err => (.error err, redis)
    | .ok (manifest, fromCache) =>
      (.ok manifest,
        if !fromCache && options.updatesCache && options.redisClient schema then
          cacheManifest schema (options.cacheKey schema) (options.lastDigestKey schema) (json.stringify manifest) redis
        else redis)

/-- What a process finds in its environment as `SCHEMA_DIGEST`: the text
`makeDigest` gives to a schema, in base64, which spells neither of the two keys. -/
structure Digest (schema : SCHEMA) where
  name : String
  nonEmpty : name ≠ ""
  notCacheKey : name ≠ schema.schemaCacheKey
  notDigestKey : name ≠ schema.lastSchemaDigestKey
  deriving DecidableEq

/-- The server, and the digests of the processes so far, the last one first. -/
structure State (schema : SCHEMA) where
  redis : Store
  written : List (Digest schema)

/-- A process loads the supergraph the GSR answers with, or time passes. -/
inductive Event (schema : SCHEMA) (Manifest : Type) where
  | run (digest : Digest schema) (manifest : Manifest)
  | pass (seconds : Nat)

/-- The configuration of a process. -/
def SCHEMA.deployed (schema : SCHEMA) (digest : Digest schema) : SCHEMA :=
  { schema with schemaDigest := some digest.name }

/-- The options of a load from the GSR that updates the cache. -/
def fromGsr : Options where
  source := .gsr
  updateCache := some true
  useCacheOnFailure := none
  schemaCacheKey := none
  lastSchemaDigestKey := none
  redisCluster := true

variable {schema : SCHEMA} (json : Json Manifest)

def State.next (state : State schema) : Event schema Manifest → State schema × List (Except String Manifest)
  | .run digest manifest =>
    let loaded := loadSupergraph json (schema.deployed digest) fromGsr (.error "no schema file specified")
      (.ok manifest) state.redis
    (⟨loaded.2, digest :: state.written⟩, [loaded.1])
  | .pass seconds => (⟨state.redis.pass seconds, state.written⟩, [])

/-- The deployments of a schema, from the state of the server before them. -/
def machine (start : State schema) : Machine (State schema) (Event schema Manifest) (Except String Manifest) where
  start := start
  step state event := state.next json event

def bootstrap : State schema := ⟨Store.empty, []⟩

/-- The digests of the processes of a run. -/
def digests (events : List (Event schema Manifest)) : List (Digest schema) :=
  events.filterMap fun
    | .run digest _ => some digest
    | .pass _ => none

/-- Of the keys named by a digest, the one of the last process persists, and no other. -/
def Superseded (state : State schema) : Prop :=
  ∀ digest ∈ state.written, state.redis.Persists digest.name ↔ state.written.head? = some digest

theorem Digest.ext {first second : Digest schema} (same : first.name = second.name) : first = second := by
  cases first
  cases second
  cases same
  rfl

theorem name_ne {first second : Digest schema} (other : first ≠ second) : first.name ≠ second.name :=
  fun same => other (Digest.ext same)

@[simp] theorem truthy_name (digest : Digest schema) : truthy (some digest.name) = some digest.name := by
  simp [truthy, digest.nonEmpty]

@[simp] theorem truthy_none : truthy none = none := rfl

variable {json}

/-- The commands of a process: two keys are set, and where another digest is
recorded, it is replaced and expires. -/
theorem cacheManifest_deployed (digest : Digest schema) (text : String) (redis : Store) :
    cacheManifest (schema.deployed digest) schema.schemaCacheKey schema.lastSchemaDigestKey text redis =
      let named := (redis.set schema.schemaCacheKey text).set digest.name text
      match truthy (redis.get schema.lastSchemaDigestKey) with
      | none => named
      | some last =>
        if last ≠ digest.name then
          (named.set schema.lastSchemaDigestKey digest.name).expire last (2 * 24 * 60 * 60)
        else named := by
  unfold cacheManifest SCHEMA.deployed
  rw [truthy_name]

variable {start : State schema}

theorem step_pass (state : State schema) (seconds : Nat) :
    ((machine json start).step state (.pass seconds)).1 = ⟨state.redis.pass seconds, state.written⟩ := rfl

/-- A load from the GSR succeeds, and caches the manifest under the process's keys. -/
theorem step_run (state : State schema) (digest : Digest schema) (manifest : Manifest) :
    (machine json start).step state (.run digest manifest) =
      (⟨cacheManifest (schema.deployed digest) schema.schemaCacheKey schema.lastSchemaDigestKey
        (json.stringify manifest) state.redis, digest :: state.written⟩, [.ok manifest]) := rfl

end Taql.SchemaCache
