import Taql.SchemaRotation

/-! The key a cached schema is kept under. A call caches under the key of its options,
but whatever the key it reads the one of its process's configuration, so what is
stored is found again only where the two are one. -/
namespace Taql.SchemaKeys
open Redis Runs SchemaCache
open SchemaRotation (defaults)

variable {Manifest : Type}

/-- One call of `loadSupergraph`: the configuration of its process, its options, and
what the file and the GSR answer. -/
structure Call (Manifest : Type) where
  schema : SCHEMA
  options : Options
  file : Except String Manifest
  gsr : Except String Manifest

namespace Call
variable (call : Call Manifest)

def key : String := call.options.cacheKey call.schema

/-- What a call caches: the manifest of a GSR load, where it updates a cache. -/
def stores : Option Manifest :=
  match call.options.source, call.gsr with
  | .gsr, .ok manifest =>
    if call.options.updatesCache && call.options.redisClient call.schema then some manifest else none
  | _, _ => none

/-- Whether a call looks in the cache, which is its source or stands in for the GSR. -/
def reads : Bool :=
  match call.options.source, call.gsr with
  | .cache, _ => call.options.redisClient call.schema
  | .gsr, .error _ => !(call.schema.legacySchemaFromGsr || !call.options.usesCacheOnFailure call.schema ||
      !call.options.redisClient call.schema)
  | _, _ => false

def load (json : Json Manifest) (redis : Store) : Except String Manifest × Store :=
  loadSupergraph json call.schema call.options call.file call.gsr redis

variable {call} {json : Json Manifest} {redis : Store}

theorem load_of_stores {manifest : Manifest} (stores : call.stores = some manifest) :
    call.load json redis = (.ok manifest, cacheManifest call.schema call.key (call.options.lastDigestKey call.schema)
      (json.stringify manifest) redis) := by
  unfold Call.stores at stores
  split at stores
  · rename_i source answer
    split at stores
    · rename_i updates
      cases stores
      rw [Bool.and_eq_true] at updates
      simp [load, loadSupergraph, pull, source, answer, updates, key]
    · cases stores
  · cases stores

theorem load_of_stores_none (stores : call.stores = none) : (call.load json redis).2 = redis := by
  unfold load loadSupergraph pull
  unfold Call.stores at stores
  cases source : call.options.source with
  | file => rfl
  | cache =>
    by_cases client : call.options.redisClient call.schema = true
    · cases cached : loadSchemaFromCache json call.schema (call.options.cacheKey call.schema) redis <;>
        simp [client, Except.map]
    · simp [client]
  | gsr =>
    cases answer : call.gsr with
    | ok manifest =>
      rw [source, answer] at stores
      simp only [ite_eq_right_iff, reduceCtorEq, imp_false] at stores
      simp [stores]
    | error err =>
      cases looks : call.schema.legacySchemaFromGsr || !call.options.usesCacheOnFailure call.schema ||
          !call.options.redisClient call.schema with
      | true => rfl
      | false =>
        cases cached : loadSchemaFromCache json call.schema (call.options.cacheKey call.schema) redis <;> rfl

/-- A call that looks in the cache answers what is there, or fails in its own way. -/
theorem load_of_reads (json : Json Manifest) (reads : call.reads = true) :
    ∃ failed, ∀ redis, (call.load json redis).1 =
      (loadSchemaFromCache json call.schema call.key redis).mapError failed := by
  unfold load loadSupergraph pull
  unfold Call.reads at reads
  cases source : call.options.source with
  | file => simp [source] at reads
  | cache =>
    rw [source] at reads
    refine ⟨id, fun redis => ?_⟩
    cases cached : loadSchemaFromCache json call.schema (call.options.cacheKey call.schema) redis <;>
      simp [reads, key, cached, Except.map, Except.mapError]
  | gsr =>
    cases answer : call.gsr with
    | ok manifest => simp [source, answer] at reads
    | error err =>
      rw [source, answer] at reads
      refine ⟨fun _ => err, fun redis => ?_⟩
      have looks := (Bool.not_eq_true' _).mp reads
      simp only [looks]
      cases cached : loadSchemaFromCache json call.schema (call.options.cacheKey call.schema) redis <;>
        simp [key, cached, Except.mapError]

end Call

/-- The server, and the manifests that calls of the run have stored, by their keys. -/
structure State (Manifest : Type) where
  redis : Store
  stored : String → Option Manifest

inductive Event (Manifest : Type) where
  | call (call : Call Manifest)
  | pass (seconds : Nat)

/-- What is stored once a call is done. -/
def State.storing (state : State Manifest) (call : Call Manifest) : String → Option Manifest :=
  match call.stores with
  | none => state.stored
  | some manifest => Function.update state.stored call.key (some manifest)

def State.next (json : Json Manifest) (state : State Manifest) :
    Event Manifest → State Manifest × List (Except String Manifest)
  | .call call => (⟨(call.load json state.redis).2, state.storing call⟩, [(call.load json state.redis).1])
  | .pass seconds => (⟨state.redis.pass seconds, state.stored⟩, [])

/-- Calls of any processes, one after another, on a server with any content. -/
def machine (json : Json Manifest) (redis : Store) :
    Machine (State Manifest) (Event Manifest) (Except String Manifest) where
  start := ⟨redis, fun _ => none⟩
  step state event := state.next json event

/-- What a call stored under a key is there. -/
def Kept (json : Json Manifest) (state : State Manifest) : Prop :=
  ∀ key manifest, state.stored key = some manifest → state.redis.get key = some (json.stringify manifest)

/-- A step that reads back what was stored under its key, reads no other key, and
leaves what was stored under every key. -/
structure Faithful (json : Json Manifest) (state : State Manifest) (event : Event Manifest) : Prop where
  returned : ∀ call manifest, event = .call call → call.reads = true → state.stored call.key = some manifest →
    (call.load json state.redis).1 = .ok manifest
  own : ∀ call redis, event = .call call → call.reads = true → redis.get call.key = state.redis.get call.key →
    (call.load json redis).1 = (call.load json state.redis).1
  kept : Kept json (state.next json event).1

/-- A call that reads does so under the key of its configuration, and one that stores
sets and expires no other key that a manifest is stored under. -/
structure Keyed (state : State Manifest) (call : Call Manifest) : Prop where
  configured : call.reads = true → call.key = call.schema.schemaCacheKey
  digest : ∀ manifest digest other, call.stores = some manifest → truthy call.schema.schemaDigest = some digest →
    state.storing call digest = some other → other = manifest
  rotated : ∀ manifest digest last, call.stores = some manifest → truthy call.schema.schemaDigest = some digest →
    truthy (state.redis.get (call.options.lastDigestKey call.schema)) = some last → last ≠ digest →
      state.storing call (call.options.lastDigestKey call.schema) = none ∧ state.storing call last = none

def KeyedEvent (state : State Manifest) (event : Event Manifest) : Prop :=
  ∀ call, event = .call call → Keyed state call

/-- What a call stored under a key is there for good. -/
def Lasting (json : Json Manifest) (state : State Manifest) : Prop :=
  ∀ key manifest, state.stored key = some manifest → state.redis.entries key = some ⟨json.stringify manifest, none⟩

variable {json : Json Manifest} {state : State Manifest}

theorem Lasting.kept (lasting : Lasting json state) : Kept json state := by
  intro key manifest stored
  rw [Store.get, lasting key manifest stored]
  rfl

/-- Caching leaves what the write under the key leaves, except under a digest, where it
writes the same text, and under the keys of a digest it replaces. -/
theorem entries_cacheManifest {schema : SCHEMA} {key lastDigestKey text at_ : String} {redis : Store}
    {entry : Redis.Entry} (cached : (redis.set key text).entries at_ = some entry)
    (digest : truthy schema.schemaDigest = some at_ → entry = ⟨text, none⟩)
    (rotated : ∀ digest last, truthy schema.schemaDigest = some digest → truthy (redis.get lastDigestKey) = some last →
      last ≠ digest → at_ ≠ lastDigestKey ∧ at_ ≠ last) :
    (cacheManifest schema key lastDigestKey text redis).entries at_ = some entry := by
  unfold cacheManifest
  cases named : truthy schema.schemaDigest with
  | none => exact cached
  | some digestKey =>
    have marked : ((redis.set key text).set digestKey text).entries at_ = some entry := by
      rw [Store.entries_set]
      split
      · rename_i same
        subst same
        rw [digest named]
      · exact cached
    dsimp only
    cases recorded : truthy (redis.get lastDigestKey) with
    | none => exact marked
    | some last =>
      dsimp only
      split
      · rename_i changed
        obtain ⟨notKey, notLast⟩ := rotated digestKey last named recorded changed
        rw [Store.entries_expire_of_ne _ _ _ _ notLast, Store.entries_set, if_neg notKey]
        exact marked
      · exact marked

theorem Lasting.call (lasting : Lasting json state) {call : Call Manifest} (keyed : Keyed state call) :
    Lasting json (state.next json (.call call)).1 := by
  intro key manifest stored
  change (call.load json state.redis).2.entries key = _
  change state.storing call key = some manifest at stored
  cases stores : call.stores with
  | none =>
    rw [Call.load_of_stores_none stores]
    rw [State.storing, stores] at stored
    exact lasting key manifest stored
  | some own =>
    rw [Call.load_of_stores stores]
    apply entries_cacheManifest
    · -- The key of the options holds the manifest, and the others hold what they held.
      have storing : state.storing call = Function.update state.stored call.key (some own) := by
        rw [State.storing, stores]
      rw [storing, Function.update_apply] at stored
      rw [Store.entries_set]
      split at stored
      · rename_i same
        cases stored
        rw [if_pos same]
      · rename_i other
        rw [if_neg other]
        exact lasting key manifest stored
    · intro named
      rw [keyed.digest own key manifest stores named stored]
    · intro digest last named recorded changed
      obtain ⟨noKey, noLast⟩ := keyed.rotated own digest last stores named recorded changed
      constructor
      · rintro rfl
        rw [noKey] at stored
        cases stored
      · rintro rfl
        rw [noLast] at stored
        cases stored

theorem Lasting.pass (lasting : Lasting json state) (seconds : Nat) :
    Lasting json (state.next json (.pass seconds)).1 := by
  intro key manifest stored
  have held := lasting key manifest stored
  exact (Store.entries_pass_of_persists ⟨_, held⟩ seconds).trans held

/-- A call under the key of its configuration reads that key and no other. -/
theorem load_configured {call : Call Manifest} (reads : call.reads = true)
    (configured : call.key = call.schema.schemaCacheKey) {redis redis' : Store}
    (same : redis'.get call.key = redis.get call.key) : (call.load json redis').1 = (call.load json redis).1 := by
  obtain ⟨failed, answers⟩ := Call.load_of_reads json reads
  rw [configured] at same
  rw [answers, answers, loadSchemaFromCache, loadSchemaFromCache, same]

/-- A call under another key answers from the key of its configuration all the same. -/
theorem configured_of_own [Nonempty Manifest] (parses : ∀ manifest, json.parse (json.stringify manifest) = .ok manifest)
    {call : Call Manifest} (reads : call.reads = true)
    (own : ∀ redis redis' : Store, redis'.get call.key = redis.get call.key →
      (call.load json redis').1 = (call.load json redis).1) :
    call.key = call.schema.schemaCacheKey := by
  by_contra other
  obtain ⟨manifest⟩ := ‹Nonempty Manifest›
  obtain ⟨failed, answers⟩ := Call.load_of_reads json reads
  have same := own Store.empty (Store.empty.set call.schema.schemaCacheKey (json.stringify manifest))
    (by rw [Store.get_set, if_neg other])
  rw [answers, answers, loadSchemaFromCache, loadSchemaFromCache, Store.get_set, if_pos rfl, Store.get_empty] at same
  simp only [parses, Except.mapError] at same
  cases same

theorem faithful_of_keyed (parses : ∀ manifest, json.parse (json.stringify manifest) = .ok manifest)
    (lasting : Lasting json state) {event : Event Manifest} (keyed : KeyedEvent state event) :
    Faithful json state event := by
  refine ⟨?_, ?_, ?_⟩
  · rintro call manifest rfl reads stored
    obtain ⟨failed, answers⟩ := Call.load_of_reads json reads
    have held := lasting.kept call.key manifest stored
    rw [(keyed call rfl).configured reads] at held
    rw [answers, loadSchemaFromCache, held]
    simp only [parses, Except.mapError]
  · rintro call redis rfl reads same
    exact load_configured reads ((keyed call rfl).configured reads) same
  · cases event with
    | call call => exact (lasting.call (keyed call rfl)).kept
    | pass seconds => exact (lasting.pass seconds).kept

/-- A run of keyed calls is faithful throughout; and whatever is stored, a call that
reads under any other key than that of its configuration does not read its own. -/
theorem keyed_faithful [Nonempty Manifest] (json : Json Manifest)
    (parses : ∀ manifest, json.parse (json.stringify manifest) = .ok manifest) :
    (∀ redis events, (machine json redis).Always KeyedEvent events →
      (machine json redis).Always (Faithful json) events) ∧
    ∀ call : Call Manifest, call.reads = true →
      ((∀ redis redis' : Store, redis'.get call.key = redis.get call.key →
        (call.load json redis').1 = (call.load json redis).1) ↔ call.key = call.schema.schemaCacheKey) := by
  constructor
  · intro redis events always past event rest split
    have lasting : Lasting json ((machine json redis).exec past).1 := by
      have before : (machine json redis).Always KeyedEvent past := by
        intro earlier event' between split'
        apply always earlier event' (between ++ event :: rest)
        rw [split, split', List.append_assoc, List.cons_append]
      refine (machine json redis).exec_invariant_of_always (Lasting json) ?_ ?_ past before
      · intro key manifest stored
        cases stored
      · intro state event lasting keyed
        cases event with
        | call call => exact lasting.call (keyed call rfl)
        | pass seconds => exact lasting.pass seconds
    exact faithful_of_keyed parses lasting (always past event rest split)
  · intro call reads
    exact ⟨configured_of_own parses reads, fun configured redis redis' same => load_configured reads configured same⟩

/-- Manifests that are their own text. -/
def textJson : Json String := ⟨id, .ok⟩

/-- A call of a process with the default configuration. -/
def callWith (source : Source) (key : Option String) (gsr : Except String String) : Call String where
  schema := defaults
  options := ⟨source, none, none, key, none, true⟩
  file := .error "no schema file specified"
  gsr := gsr

/-- Under the key of the configuration, a manifest is found a minute later where the GSR fails. -/
theorem keyed_faithful_default :
    (machine textJson Store.empty).Always (Faithful textJson)
      [.call (callWith .gsr none (.ok "[]")), .pass 60, .call (callWith .gsr none (.error "no answer"))] := by
  apply (keyed_faithful textJson fun manifest => rfl).1
  intro past event rest split call is
  have default {answer : Except String String} {state : State String} : Keyed state (callWith .gsr none answer) :=
    ⟨fun _ => rfl, fun _ _ _ _ named => by simp [callWith, defaults] at named,
      fun _ _ _ _ named => by simp [callWith, defaults] at named⟩
  have member : event ∈ past ++ event :: rest := by simp
  rw [← split] at member
  rcases List.mem_cons.mp member with rfl | member
  · cases is
    exact default
  · rcases List.mem_cons.mp member with rfl | member
    · cases is
    · cases List.mem_singleton.mp member
      cases is
      exact default

/-- Under another key, what was stored is not read back. -/
theorem stored_key_not_read :
    ¬(machine textJson Store.empty).Always (Faithful textJson)
      [.call (callWith .gsr (some "CANARY") (.ok "[]")), .call (callWith .cache (some "CANARY") (.ok "[]"))] := by
  intro always
  have faithful := always [.call (callWith .gsr (some "CANARY") (.ok "[]"))]
    (.call (callWith .cache (some "CANARY") (.ok "[]"))) [] rfl
  have returned := faithful.returned _ "[]" rfl rfl (by decide)
  cases returned

end Taql.SchemaKeys
