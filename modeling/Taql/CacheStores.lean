import Taql.ExpiringMaps
import Taql.JavaScript
import Taql.Runs

/-! `packages/caching/src/stores`: a store in memory and one in Redis, both
instrumented, against a map whose entries expire. The one in Redis answers as the map
does; the one in memory does too, except that it may have lost an entry. -/
namespace Taql.CacheStores
open ExpiringMaps JavaScript Runs

variable {V : Type}

/-- `JSON.stringify`, `JSON.parse` and `${value}`, on the values of a store, and which of
them are `undefined` and `null`. -/
structure Values (V : Type) where
  isUndefined : V → Bool
  isNull : V → Bool
  stringify : V → Option String
  parse : String → Except JsError V
  text : V → String

/-- `getVal`. -/
def Values.getVal (values : Values V) (value : V) : String := (values.stringify value).getD "\"undefined\""

/-- The options both stores read. -/
structure Config (V : Type) where
  isCacheable : Option (V → Bool)
  ttl : Option Nat

/-- The milliseconds an entry is held for; both 0 and none stand for ever. -/
def Config.expiry (config : Config V) (ttl : Option Nat) : Option Nat := (ttl.or config.ttl).filter fun ttl => ttl ≠ 0

/-- A call of a method of `Store`. -/
inductive Call (V : Type) where
  | get (key : String)
  | mget (keys : List String)
  | set (key : String) (value : V) (ttl : Option Nat)
  | mset (entries : List (String × V)) (ttl : Option Nat)
  | del (key : String)
  | mdel (keys : List String)
  | reset

/-- What a method returns. -/
inductive Answer (V : Type) where
  | undefined
  | value (value : V)
  | values (values : List (Option V))

def Answer.of (value : Option V) : Answer V := value.elim .undefined .value

/-! ### `memoryStore` -/

def notCacheable (values : Values V) (value : V) : JsError :=
  ⟨"Error", "no cacheable value " ++ (values.stringify value).getD "undefined"⟩

/-- `isCacheable` of `memoryStore`. -/
def memoryIsCacheable (values : Values V) (config : Config V) (value : V) : Bool :=
  config.isCacheable.elim (!values.isUndefined value) fun isCacheable => isCacheable value

/-- `set` of an `LRUCache`, which deletes where it is given no value. -/
def lruSet (values : Values V) (left : Option Nat) (lruCache : ExpiringMap String V) (entry : String × V) :
    ExpiringMap String V :=
  if values.isUndefined entry.2 then lruCache.delete entry.1 else lruCache.set entry.1 entry.2 left

/-- The loop of `mset`, which may end before all is set. -/
def msetLoop (values : Values V) (config : Config V) (left : Option Nat) :
    List (String × V) → ExpiringMap String V → Except JsError (Answer V) × ExpiringMap String V
  | [], lruCache => (.ok .undefined, lruCache)
  | (key, value) :: rest, lruCache =>
    if memoryIsCacheable values config value then
      msetLoop values config left rest (lruSet values left lruCache (key, value))
    else (.error (notCacheable values value), lruCache)

/-- `memoryStore`, over the entries of its `lruCache`. -/
def memoryStore (values : Values V) (config : Config V) (lruCache : ExpiringMap String V) :
    Call V → Except JsError (Answer V) × ExpiringMap String V
  | .get key => (.ok (.of (lruCache.get key)), lruCache)
  | .mget keys => (.ok (.values (keys.map lruCache.get)), lruCache)
  | .set key value ttl =>
    if memoryIsCacheable values config value then
      (.ok .undefined, lruSet values (config.expiry ttl) lruCache (key, value))
    else (.error (notCacheable values value), lruCache)
  | .mset entries ttl => msetLoop values config (config.expiry ttl) entries lruCache
  | .del key => (.ok .undefined, lruCache.delete key)
  | .mdel keys => (.ok .undefined, lruCache.deleteAll keys)
  | .reset => (.ok .undefined, .empty)

/-! ### `redisStore` -/

/-- `isCacheable` of `redisStore`, which does not take `null` by default. -/
def redisIsCacheable (values : Values V) (config : Config V) (value : V) : Bool :=
  config.isCacheable.elim (!values.isUndefined value && !values.isNull value) fun isCacheable => isCacheable value

/-- `NoCacheableError`, and the plain error where `mset` sets no expiry. -/
def notACacheable (name shown : String) : JsError := ⟨name, "\"" ++ shown ++ "\" is not a cacheable value"⟩

def wrongNumberOfArguments (command : String) : JsError :=
  ⟨"ReplyError", "ERR wrong number of arguments for '" ++ command ++ "' command"⟩

/-- A text that Redis holds, or none. -/
def Values.read (values : Values V) : Option String → Except JsError (Option V)
  | none => .ok none
  | some text => (values.parse text).map some

/-- `mset` of `redisStore`: with an expiry in one transaction, else by one command. -/
def redisMset (values : Values V) (config : Config V) (entries : List (String × V)) (ttl : Option Nat)
    (redis : ExpiringMap String String) : Except JsError (Answer V) × ExpiringMap String String :=
  let left := config.expiry ttl
  match entries.find? fun entry => !redisIsCacheable values config entry.2 with
  | some entry =>
    (.error (notACacheable (if left.isSome then "NoCacheableError" else "Error") (values.getVal entry.2)), redis)
  | none =>
    if left.isNone && entries.isEmpty then (.error (wrongNumberOfArguments "mset"), redis)
    else (.ok .undefined, redis.setAll (entries.map fun entry => (entry.1, values.getVal entry.2)) left)

/-- `redisStore`, over the texts a Redis holds that answers. -/
def redisStore (values : Values V) (config : Config V) (redis : ExpiringMap String String) :
    Call V → Except JsError (Answer V) × ExpiringMap String String
  | .get key => ((values.read (redis.get key)).map .of, redis)
  | .mget keys =>
    if keys.isEmpty then (.error (wrongNumberOfArguments "mget"), redis)
    else (((keys.map redis.get).mapM values.read).map .values, redis)
  | .set key value ttl =>
    if redisIsCacheable values config value then
      (.ok .undefined, redis.set key (values.getVal value) (config.expiry ttl))
    else (.error (notACacheable "NoCacheableError" (values.text value)), redis)
  | .mset entries ttl => redisMset values config entries ttl redis
  | .del key => (.ok .undefined, redis.delete key)
  | .mdel keys =>
    if keys.isEmpty then (.error (wrongNumberOfArguments "del"), redis)
    else (.ok .undefined, redis.deleteAll keys)
  | .reset => (.ok .undefined, .empty)

/-! ### `instrumentedStore` -/

/-- `handleOperation`: an error is thrown on, or taken for no answer. -/
def handleOperation {σ : Type} (emptyOnError : Bool) (ran : Except JsError (Answer V) × σ) :
    Except JsError (Answer V) × σ :=
  match ran.1 with
  | .ok answer => (.ok answer, ran.2)
  | .error error => if emptyOnError then (.ok .undefined, ran.2) else (.error error, ran.2)

/-! ### Runs of calls -/

/-- A method is called, time passes, or the cache in memory gives up an entry. -/
inductive Event (V : Type) where
  | call (call : Call V)
  | pass (milliseconds : Nat)
  | evict (key : String)

variable (values : Values V) (config : Config V)

def memory : Machine (ExpiringMap String V) (Event V) (Except JsError (Answer V)) where
  start := .empty
  step
    | lruCache, .call call =>
      let ran := handleOperation true (memoryStore values config lruCache call)
      (ran.2, [ran.1])
    | lruCache, .pass milliseconds => (lruCache.pass milliseconds, [])
    | lruCache, .evict key => (lruCache.delete key, [])

def redis : Machine (ExpiringMap String String) (Event V) (Except JsError (Answer V)) where
  start := .empty
  step
    | redis, .call call =>
      let ran := handleOperation true (redisStore values config redis call)
      (ran.2, [ran.1])
    | redis, .pass milliseconds => (redis.pass milliseconds, [])
    | redis, .evict _ => (redis, [])

/-- What a store is for: a map that holds what is cacheable, in Redis too, as long as it
is to. -/
def expected (map : ExpiringMap String V) : Call V → Answer V × ExpiringMap String V
  | .get key => (.of (map.get key), map)
  | .mget keys => (.values (keys.map map.get), map)
  | .set key value ttl =>
    (.undefined, if redisIsCacheable values config value then map.set key value (config.expiry ttl) else map)
  | .mset entries ttl =>
    (.undefined, if entries.all fun entry => redisIsCacheable values config entry.2 then
      map.setAll entries (config.expiry ttl) else map)
  | .del key => (.undefined, map.delete key)
  | .mdel keys => (.undefined, map.deleteAll keys)
  | .reset => (.undefined, .empty)

def specification : Machine (ExpiringMap String V) (Event V) (Answer V) where
  start := .empty
  step
    | map, .call call => ((expected values config map call).2, [(expected values config map call).1])
    | map, .pass milliseconds => (map.pass milliseconds, [])
    | map, .evict _ => (map, [])

/-- What is stored comes back from its text. -/
def Parses (value : V) : Prop := values.parse (values.getVal value) = .ok value

/-- A value that both stores take, and that comes back from its text, or that neither
takes. Without an option of the configuration, only `null` is taken by one of them. -/
def Agreed (value : V) : Prop :=
  memoryIsCacheable values config value = redisIsCacheable values config value ∧
    (redisIsCacheable values config value = true → Parses values value)

/-- The entries of an `mset` are all cacheable, or the first is not, so that there is
nothing to set before the error. -/
def Whole (entries : List (String × V)) : Prop :=
  (∀ entry ∈ entries, redisIsCacheable values config entry.2 = true) ∨
    ∃ entry rest, entries = entry :: rest ∧ redisIsCacheable values config entry.2 = false

/-- The calls on which the stores agree. -/
def Sound : Event V → Prop
  | .call (.mget keys) => keys ≠ []
  | .call (.set _ value _) => Agreed values config value
  | .call (.mset entries _) => Whole values config entries ∧ ∀ entry ∈ entries, Agreed values config entry.2
  | _ => True

/-- A store that may have lost entries answers as another that has them. -/
inductive Forgets : Answer V → Answer V → Prop where
  | same (answer : Answer V) : Forgets answer answer
  | missed (answer : Answer V) : Forgets .undefined answer
  | some {kept held : List (Option V)} (each : List.Forall₂ (fun kept held => kept = none ∨ kept = held) kept held) :
      Forgets (.values kept) (.values held)

variable {values config}

/-! ### The store in memory -/

theorem forgets_of {kept held : Option V} (below : kept = none ∨ kept = held) : Forgets (.of kept) (.of held) := by
  rcases below with rfl | rfl
  · exact .missed _
  · exact .same _

theorem lruSet_below {lruCache map : ExpiringMap String V} (below : lruCache ≤ map) (left : Option Nat)
    (entry : String × V) : lruSet values left lruCache entry ≤ map.set entry.1 entry.2 left := by
  unfold lruSet
  split
  · exact ExpiringMap.delete_le_set below _ _ _
  · exact ExpiringMap.set_mono below _ _ _

theorem foldl_lruSet_below {lruCache map : ExpiringMap String V} (below : lruCache ≤ map) (left : Option Nat)
    (entries : List (String × V)) : entries.foldl (lruSet values left) lruCache ≤ map.setAll entries left := by
  induction entries generalizing lruCache map with
  | nil => exact below
  | cons entry rest ih => exact ih (lruSet_below below left entry)

/-- The loop sets what comes before a value that is not cacheable. -/
theorem msetLoop_append {left : Option Nat} {before : List (String × V)} (rest : List (String × V))
    (lruCache : ExpiringMap String V) (all : ∀ entry ∈ before, memoryIsCacheable values config entry.2 = true) :
    msetLoop values config left (before ++ rest) lruCache =
      msetLoop values config left rest (before.foldl (lruSet values left) lruCache) := by
  induction before generalizing lruCache with
  | nil => rfl
  | cons entry before ih =>
    rw [List.cons_append, msetLoop, if_pos (all entry List.mem_cons_self)]
    exact ih _ fun other member => all other (List.mem_cons_of_mem _ member)

theorem msetLoop_all {left : Option Nat} {entries : List (String × V)} (lruCache : ExpiringMap String V)
    (all : ∀ entry ∈ entries, memoryIsCacheable values config entry.2 = true) :
    msetLoop values config left entries lruCache = (.ok .undefined, entries.foldl (lruSet values left) lruCache) := by
  have whole := @msetLoop_append _ values config left entries [] lruCache all
  rw [List.append_nil] at whole
  exact whole

/-- A call on fewer entries answers with less and leaves fewer. -/
theorem memoryStore_below {lruCache map : ExpiringMap String V} (below : lruCache ≤ map) {call : Call V}
    (sound : Sound values config (.call call)) :
    let ran := handleOperation true (memoryStore values config lruCache call)
    ran.2 ≤ (expected values config map call).2 ∧
      ∃ answer, ran.1 = .ok answer ∧ Forgets answer (expected values config map call).1 := by
  cases call with
  | get key => exact ⟨below, _, rfl, forgets_of (ExpiringMap.get_of_le below key)⟩
  | mget keys =>
    refine ⟨below, _, rfl, .some ?_⟩
    rw [List.forall₂_map_left_iff, List.forall₂_map_right_iff, List.forall₂_same]
    exact fun key _ => ExpiringMap.get_of_le below key
  | set key value ttl =>
    simp only [memoryStore, expected, sound.1]
    split
    · exact ⟨lruSet_below below _ (key, value), _, rfl, .same _⟩
    · exact ⟨below, _, rfl, .same _⟩
  | mset entries ttl =>
    simp only [memoryStore, expected]
    obtain ⟨whole, agreed⟩ := sound
    rcases whole with all | ⟨entry, rest, rfl, first⟩
    · rw [msetLoop_all lruCache fun entry member => (agreed entry member).1.trans (all entry member),
        if_pos (List.all_eq_true.mpr all)]
      exact ⟨foldl_lruSet_below below _ entries, _, rfl, .same _⟩
    · obtain ⟨key, value⟩ := entry
      have refused : ¬ memoryIsCacheable values config value = true := by
        rw [(agreed _ List.mem_cons_self).1, first]
        exact Bool.false_ne_true
      have some' : ¬ (((key, value) :: rest).all fun entry => redisIsCacheable values config entry.2) = true := by
        simp [first]
      rw [if_neg some', msetLoop, if_neg refused]
      exact ⟨below, _, rfl, .same _⟩
  | del key => exact ⟨ExpiringMap.delete_mono below key, _, rfl, .same _⟩
  | mdel keys => exact ⟨ExpiringMap.deleteAll_mono below keys, _, rfl, .same _⟩
  | reset => exact ⟨ExpiringMap.empty_le _, _, rfl, .same _⟩

/-! ### The store in Redis -/

/-- Redis holds the texts of the values, which can be read. -/
structure Represents (values : Values V) (redis : ExpiringMap String String) (map : ExpiringMap String V) : Prop where
  texts : redis = map.mapValues values.getVal
  parses : map.All (Parses values)

theorem read_get {redis : ExpiringMap String String} {map : ExpiringMap String V}
    (represents : Represents values redis map) (key : String) :
    values.read (redis.get key) = .ok (map.get key) := by
  rw [represents.texts, ExpiringMap.get_mapValues]
  cases found : map.get key with
  | none => rfl
  | some value =>
    have parses : values.parse (values.getVal value) = .ok value := represents.parses.get found
    rw [Option.map_some, Values.read, parses]
    rfl

theorem mapM_read {redis : ExpiringMap String String} {map : ExpiringMap String V}
    (represents : Represents values redis map) (keys : List String) :
    (keys.map redis.get).mapM values.read = .ok (keys.map map.get) := by
  induction keys with
  | nil => rfl
  | cons key rest ih =>
    rw [List.map_cons, List.mapM_cons, read_get represents, ih]
    rfl

theorem redisMset_of_uncacheable (values : Values V) (ttl : Option Nat) (redis : ExpiringMap String String)
    {entries : List (String × V)} {entry : String × V} (member : entry ∈ entries)
    (uncacheable : redisIsCacheable values config entry.2 = false) :
    ∃ error, redisMset values config entries ttl redis = (.error error, redis) := by
  unfold redisMset
  cases found : entries.find? fun entry => !redisIsCacheable values config entry.2 with
  | none =>
    have cacheable := List.find?_eq_none.mp found entry member
    simp [uncacheable] at cacheable
  | some first => exact ⟨_, rfl⟩

/-- An `mset` on the texts of a map sets all its entries or none; with no entry there is
nothing to set, and the error is taken for no answer. -/
theorem redisMset_represents {redis : ExpiringMap String String} {map : ExpiringMap String V}
    (represents : Represents values redis map) {entries : List (String × V)} (ttl : Option Nat)
    (parses : ∀ entry ∈ entries, redisIsCacheable values config entry.2 = true → Parses values entry.2) :
    let ran := handleOperation true (redisMset values config entries ttl redis)
    Represents values ran.2 (expected values config map (.mset entries ttl)).2 ∧ ran.1 = .ok .undefined := by
  by_cases all : ∀ entry ∈ entries, redisIsCacheable values config entry.2 = true
  · have none : entries.find? (fun entry => !redisIsCacheable values config entry.2) = none :=
      List.find?_eq_none.mpr fun entry member => by simp [all entry member]
    simp only [redisMset, expected, none, if_pos (List.all_eq_true.mpr all)]
    split
    next nothing =>
      obtain ⟨_, empty⟩ := Bool.and_eq_true_iff.mp nothing
      rw [List.isEmpty_iff.mp empty]
      exact ⟨represents, rfl⟩
    next =>
      have parses (entry : String × V) (member : entry ∈ entries) := parses entry member (all entry member)
      refine ⟨⟨?_, represents.parses.setAll parses _⟩, rfl⟩
      rw [ExpiringMap.mapValues_setAll, ← represents.texts]
      rfl
  · push Not at all
    obtain ⟨entry, member, uncacheable⟩ := all
    have uncacheable : redisIsCacheable values config entry.2 = false := Bool.eq_false_iff.mpr uncacheable
    obtain ⟨error, fails⟩ := redisMset_of_uncacheable values ttl redis member uncacheable
    have some' : ¬ (entries.all fun entry => redisIsCacheable values config entry.2) = true := fun all => by
      simp [List.all_eq_true.mp all entry member] at uncacheable
    simp only [fails, expected, if_neg some']
    exact ⟨represents, rfl⟩

/-- A call on the texts of a map answers what the map does and leaves the texts of what
the map becomes. -/
theorem redisStore_represents {redis : ExpiringMap String String} {map : ExpiringMap String V}
    (represents : Represents values redis map) {call : Call V} (sound : Sound values config (.call call)) :
    let ran := handleOperation true (redisStore values config redis call)
    Represents values ran.2 (expected values config map call).2 ∧
      ran.1 = .ok (expected values config map call).1 := by
  cases call with
  | get key =>
    simp only [redisStore, read_get represents, expected]
    exact ⟨represents, rfl⟩
  | mget keys =>
    have some' : keys.isEmpty = false := List.isEmpty_eq_false_iff.mpr sound
    simp only [redisStore, some', mapM_read represents, expected]
    exact ⟨represents, rfl⟩
  | set key value ttl =>
    simp only [redisStore, expected]
    split
    · rename_i cacheable
      refine ⟨⟨?_, represents.parses.set key (sound.2 cacheable) _⟩, rfl⟩
      rw [ExpiringMap.mapValues_set, ← represents.texts]
      rfl
    · exact ⟨represents, rfl⟩
  | mset entries ttl => exact redisMset_represents represents ttl fun entry member => (sound.2 entry member).2
  | del key =>
    refine ⟨⟨?_, represents.parses.delete key⟩, rfl⟩
    rw [expected, ExpiringMap.mapValues_delete, ← represents.texts]
    rfl
  | mdel keys =>
    simp only [redisStore, expected]
    cases keys with
    | nil => exact ⟨represents, rfl⟩
    | cons key rest =>
      refine ⟨⟨?_, represents.parses.deleteAll _⟩, rfl⟩
      rw [ExpiringMap.mapValues_deleteAll, ← represents.texts]
      rfl
  | reset => exact ⟨⟨rfl, ExpiringMap.all_empty⟩, rfl⟩

/-- Where an `mset` comes to a value that is not cacheable, the store in memory keeps
what came before it and the one in Redis keeps nothing. -/
theorem mset_prefix (before rest : List (String × V)) (entry : String × V) (ttl : Option Nat)
    (all : ∀ entry ∈ before, memoryIsCacheable values config entry.2 = true)
    (refused : memoryIsCacheable values config entry.2 = false)
    (uncacheable : redisIsCacheable values config entry.2 = false)
    (lruCache : ExpiringMap String V) (redis : ExpiringMap String String) :
    (memoryStore values config lruCache (.mset (before ++ entry :: rest) ttl)).2 =
        before.foldl (lruSet values (config.expiry ttl)) lruCache ∧
      (redisStore values config redis (.mset (before ++ entry :: rest) ttl)).2 = redis := by
  constructor
  · obtain ⟨key, value⟩ := entry
    rw [memoryStore, msetLoop_append _ _ all, msetLoop, if_neg (by simp [refused])]
  · have member : entry ∈ before ++ entry :: rest := by simp
    obtain ⟨error, fails⟩ := redisMset_of_uncacheable values ttl redis member uncacheable
    rw [redisStore, fails]

/-- With the options as they are, the store in memory keeps a `null`, and the one in Redis
does not take it. -/
theorem null_kept (byDefault : config.isCacheable = none) {value : V} (null : values.isNull value = true)
    (defined : values.isUndefined value = false) (key : String) (ttl : Option Nat) (lruCache : ExpiringMap String V)
    (redis : ExpiringMap String String) :
    (memoryStore values config lruCache (.set key value ttl)).2.get key = some value ∧
      (redisStore values config redis (.set key value ttl)).2 = redis := by
  simp [memoryStore, redisStore, memoryIsCacheable, redisIsCacheable, byDefault, null, defined, lruSet, ExpiringMap.get,
    ExpiringMap.set]

/-! ### Runs -/

theorem redis_specification (events : List (Event V)) (sound : ∀ event ∈ events, Sound values config event) :
    List.Forall₂ (fun answer expected => answer = .ok expected) ((redis values config).exec events).2
      ((specification values config).exec events).2 := by
  refine ((redis values config).exec_related (specification values config) (Represents values) _ (Sound values config)
    ⟨rfl, ExpiringMap.all_empty⟩ (fun state map event sound represents => ?_) events sound).2
  cases event with
  | call call =>
    obtain ⟨represents', answers⟩ := redisStore_represents represents sound
    exact ⟨represents', .cons answers .nil⟩
  | pass milliseconds =>
    refine ⟨⟨?_, represents.parses.pass milliseconds⟩, .nil⟩
    rw [specification, ExpiringMap.mapValues_pass, ← represents.texts]
    rfl
  | evict key => exact ⟨represents, .nil⟩

theorem memory_specification (events : List (Event V)) (sound : ∀ event ∈ events, Sound values config event) :
    List.Forall₂ (fun answer expected => ∃ kept, answer = .ok kept ∧ Forgets kept expected)
      ((memory values config).exec events).2 ((specification values config).exec events).2 := by
  refine ((memory values config).exec_related (specification values config) (fun lruCache map => lruCache ≤ map) _
    (Sound values config) (le_refl _) (fun lruCache map event sound below => ?_) events sound).2
  cases event with
  | call call =>
    obtain ⟨below', answers⟩ := memoryStore_below below sound
    exact ⟨below', .cons answers .nil⟩
  | pass milliseconds => exact ⟨ExpiringMap.pass_mono below milliseconds, .nil⟩
  | evict key => exact ⟨(ExpiringMap.delete_le lruCache key).trans below, .nil⟩

/-- Through every run of calls, waits and evictions, both stores return without an
error; the one in Redis returns what a map would whose entries expire, and the one in
memory returns that or has forgotten it. -/
theorem stores_agree (values : Values V) (config : Config V) (events : List (Event V))
    (sound : ∀ event ∈ events, Sound values config event) :
    List.Forall₂ (fun answer expected => answer = .ok expected) ((redis values config).exec events).2
        ((specification values config).exec events).2 ∧
      List.Forall₂ (fun answer expected => ∃ kept, answer = .ok kept ∧ Forgets kept expected)
        ((memory values config).exec events).2 ((specification values config).exec events).2 :=
  ⟨redis_specification events sound, memory_specification events sound⟩

/-- Texts, stored as they are, and `undefined`. -/
def texts : Values (Option String) :=
  ⟨Option.isNone, fun _ => false, id, fun text => .ok (some text), fun value => value.getD "undefined"⟩

theorem stores_agree_evicted :
    let events : List (Event (Option String)) := [.call (.set "a" (some "1") (some 9)), .call (.set "b" none none),
      .pass 9, .call (.get "a"), .evict "a", .call (.mget ["a", "b"])]
    List.Forall₂ (fun answer expected => answer = .ok expected)
        ((redis texts ⟨none, none⟩).exec events).2 ((specification texts ⟨none, none⟩).exec events).2 ∧
      List.Forall₂ (fun answer expected => ∃ kept, answer = .ok kept ∧ Forgets kept expected)
        ((memory texts ⟨none, none⟩).exec events).2 ((specification texts ⟨none, none⟩).exec events).2 :=
  stores_agree texts ⟨none, none⟩ _
    (by simp [Sound, Agreed, Parses, texts, Values.getVal, memoryIsCacheable, redisIsCacheable])

end Taql.CacheStores
