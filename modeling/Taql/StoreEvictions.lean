import Taql.DocumentTransparency
import Taql.Prewarming

/-! The bounded caches and the stores that may lose an entry at any time. A step of
the former is a step of the latter after which some entries are lost, so a run of a
server over the caches is one over the stores, and what holds of the stores whatever
they lose holds of the caches. -/
namespace Taql.StoreEvictions
open DocumentTransparency Documents JavaScript Lru Prereg Prewarming Runs Stores

variable {Number Schema Ast Rule Issue Operation Input Result Variables : Type} {maxCacheSize : Nat}
  [DecidableEq Number]

/-- The stores hold what the caches hold, documents without their identity; the
objects that are keys came with earlier requests. -/
structure Represents (stores : DocumentStores Number Ast)
    (caches : Caches Number Schema Ast Issue Input Result Variables maxCacheSize) : Prop where
  same : ∀ store key, (stores store).get (some key) =
    ((caches.stores store).lookup (.primitive key)).map (Except.map DocumentNode.ast)
  made : ∀ store identity, ((caches.stores store).lookup (.object identity)).isSome → identity < caches.allocated

/-- The stores after a cache gave up some keys. -/
def evictAll (stores : DocumentStores Number Ast) (store : StoreName) (gone : List (Key Number)) :
    DocumentStores Number Ast :=
  gone.foldl (fun stores key => stores.evict store key) stores

theorem get_evictAll (stores : DocumentStores Number Ast) (store : StoreName) (gone : List (Key Number))
    (store' : StoreName) (key : Key Number) :
    (evictAll stores store gone store').get (some key) =
      if store = store' ∧ key ∈ gone then none else (stores store').get (some key) := by
  induction gone generalizing stores with
  | nil => simp [evictAll]
  | cons first rest ih =>
    rw [evictAll, List.foldl_cons]
    refine (ih (stores.evict store first)).trans ?_
    rw [DocumentStores.get_evict]
    by_cases same : store = store'
    · by_cases gone : key = first
      · simp [same, gone]
      · simp [same, gone, Ne.symm gone]
    · simp [same]

theorem represents_new (useJit : Bool) : Represents (fun _ => .empty)
    (Caches.new useJit : Caches Number Schema Ast Issue Input Result Variables maxCacheSize) := by
  refine ⟨fun store key => ?_, fun store identity held => ?_⟩
  · simp [Caches.new, LRUCache.lookup_empty]
  · simp [Caches.new, LRUCache.lookup_empty] at held

variable {stores : DocumentStores Number Ast}
  {caches : Caches Number Schema Ast Issue Input Result Variables maxCacheSize}

/-- The primitive keys among some keys. -/
def primitives (keys : List (StoreKey Number)) : List (Key Number) :=
  keys.filterMap fun
    | .primitive key => some key
    | .object _ => none

omit [DecidableEq Number] in
theorem mem_primitives {keys : List (StoreKey Number)} {key : Key Number} :
    key ∈ primitives keys ↔ .primitive key ∈ keys := by
  simp only [primitives, List.mem_filterMap]
  constructor
  · rintro ⟨stored, member, is⟩
    cases stored with
    | primitive key' =>
      cases is
      exact member
    | object identity => cases is
  · exact fun member => ⟨_, member, rfl⟩

section Keys

variable (caches) (key : Option (Key Number))

omit [DecidableEq Number] in
theorem storeKey_stores : (caches.storeKey key).1.stores = caches.stores := by
  cases key <;> rfl

omit [DecidableEq Number] in
theorem allocated_le_storeKey : caches.allocated ≤ (caches.storeKey key).1.allocated := by
  cases key with
  | none => exact Nat.le_succ _
  | some key => exact Nat.le_refl _

omit [DecidableEq Number] in
theorem primitive_eq_storeKey (key' : Key Number) : .primitive key' = (caches.storeKey key).2 ↔ key = some key' := by
  cases key with
  | none => exact ⟨nofun, nofun⟩
  | some key => simp [Caches.storeKey, eq_comm]

omit [DecidableEq Number] in
/-- An object that is a key was made by then. -/
theorem object_eq_storeKey {identity : Nat} (same : .object identity = (caches.storeKey key).2) :
    identity < (caches.storeKey key).1.allocated := by
  cases key with
  | none =>
    cases same
    exact Nat.lt_succ_self _
  | some key => cases same

end Keys

/-- Setting an entry of a cache sets it in the store, which then loses what the
cache gave up. -/
theorem Represents.set (represents : Represents stores caches) (store : StoreName) {key : Option (Key Number)}
    {stored : StoreKey Number} (primitive : ∀ key', .primitive key' = stored ↔ key = some key')
    (object : ∀ identity, .object identity = stored → identity < caches.allocated)
    (outcome : Except JsError (DocumentNode Ast)) :
    ∃ gone, Represents (evictAll (stores.set store key (outcome.map DocumentNode.ast)) store gone)
      (caches.set store stored outcome) := by
  obtain ⟨gone, held⟩ := (caches.stores store).lookup_set_evicts stored outcome
  have lookup : ∀ store' stored', ((caches.set store stored outcome).stores store').lookup stored' =
      if store = store' ∧ stored' ∈ gone then none
      else if store = store' ∧ stored' = stored then some outcome
      else (caches.stores store').lookup stored' := by
    intro store' stored'
    by_cases same : store' = store
    · subst same
      simp [Caches.set, held]
    · simp [Caches.set, same, Ne.symm same]
  refine ⟨primitives gone, fun store' key' => ?_, fun store' identity found => ?_⟩
  · rw [get_evictAll, DocumentStores.get_set, lookup, represents.same]
    simp only [mem_primitives, primitive]
    split
    · rfl
    · split <;> rfl
  · rw [lookup] at found
    split at found
    · cases found
    · split at found
      · rename_i new
        exact object identity new.2
      · exact represents.made store' identity found

/-- Using an entry of a cache is nothing to the store. -/
theorem Represents.get (represents : Represents stores caches) (store : StoreName) (key : StoreKey Number) :
    Represents stores
      { caches with stores := Function.update caches.stores store ((caches.stores store).get key).1 } := by
  refine ⟨fun store' key' => ?_, fun store' identity found => ?_⟩
  · rw [caches.lookup_used]
    exact represents.same store' key'
  · rw [caches.lookup_used] at found
    exact represents.made store' identity found

section Steps

variable (libraries : Libraries Schema Ast Rule Issue Operation Input Result Variables)

omit [DecidableEq Number] in
/-- A parse gives a new identity to what the parser gives. -/
theorem instrumentedParse_snd (query : String)
    (caches : Caches Number Schema Ast Issue Input Result Variables maxCacheSize) :
    (instrumentedParse libraries query caches).2.map DocumentNode.ast = libraries.parse query := by
  unfold instrumentedParse
  cases libraries.parse query <;> rfl

omit [DecidableEq Number] in
theorem allocated_le_parse (query : String)
    (caches : Caches Number Schema Ast Issue Input Result Variables maxCacheSize) :
    caches.allocated ≤ (instrumentedParse libraries query caches).1.allocated := by
  unfold instrumentedParse
  cases libraries.parse query with
  | error error => exact Nat.le_refl _
  | ok ast => exact Nat.le_succ _

theorem Represents.parsed (represents : Represents stores caches) (query : String) :
    Represents stores (instrumentedParse libraries query caches).1 := by
  unfold instrumentedParse
  cases libraries.parse query with
  | error error => exact represents
  | ok ast =>
    exact ⟨represents.same, fun store identity found => Nat.lt_succ_of_lt (represents.made store identity found)⟩

/-- What is found under a key; nothing is under an object that is new. -/
theorem Represents.found (represents : Represents stores caches) (store : StoreName) (key : Option (Key Number)) :
    (stores store).get key =
      (((caches.storeKey key).1.stores store).lookup (caches.storeKey key).2).map (Except.map DocumentNode.ast) := by
  rw [storeKey_stores]
  cases key with
  | some key => exact represents.same store key
  | none =>
    have missing : (caches.stores store).lookup (.object caches.allocated) = none := by
      rw [← Option.not_isSome_iff_eq_none]
      exact fun found => Nat.lt_irrefl _ (represents.made store caches.allocated found)
    exact (congrArg (Option.map (Except.map DocumentNode.ast)) missing).symm

theorem Represents.keyed (represents : Represents stores caches) (key : Option (Key Number)) :
    Represents stores (caches.storeKey key).1 := by
  refine ⟨fun store key' => ?_, fun store identity found => ?_⟩
  · rw [storeKey_stores]
    exact represents.same store key'
  · rw [storeKey_stores] at found
    exact Nat.lt_of_lt_of_le (represents.made store identity found) (allocated_le_storeKey caches key)

/-- An entry is prewarmed as it is in the store, which then loses what the cache gave up. -/
theorem parseDocument_refines (represents : Represents stores caches) (store : StoreName) (id query : String) :
    ∃ gone, Represents (evictAll (stores.set store (Value.string id).key (libraries.parse query)) store gone)
      (parseDocument libraries caches store id query) := by
  have named : ∀ key', (.primitive key' : StoreKey Number) = .primitive (.string id) ↔
      (Value.string id : Value Number).key = some key' := fun key' => by simp [Value.key, eq_comm]
  obtain ⟨gone, after⟩ := (represents.parsed libraries query).set store named nofun
    (instrumentedParse libraries query caches).2
  rw [instrumentedParse_snd] at after
  refine ⟨gone, ?_⟩
  unfold parseDocument
  cases parsed : instrumentedParse libraries query caches with
  | mk caches' outcome =>
    rw [parsed] at after
    cases outcome with
    | error error => exact after
    | ok document => exact ⟨after.same, after.made⟩

/-- A request is served as from the store, which then loses what the cache gave up. -/
theorem onParse_refines (represents : Represents stores caches) (request : Request Number Schema) :
    ∃ store gone, Represents
        (evictAll (Documents.onParse libraries.parse stores request.extensions request.source).1 store gone)
        (Prewarming.onParse libraries caches request).1 ∧
      (Prewarming.onParse libraries caches request).2.1.map DocumentNode.ast =
        (Documents.onParse libraries.parse stores request.extensions request.source).2 := by
  unfold Documents.onParse Prewarming.onParse
  simp only
  generalize pickDocumentCache request.extensions request.source = picked
  obtain ⟨store, key⟩ := picked
  have found := represents.found store key
  rw [← LRUCache.get_snd] at found
  cases got : ((caches.storeKey key).1.stores store).get (caches.storeKey key).2 with
  | mk cache held =>
    rw [got] at found
    cases held with
    | some cached =>
      simp only [found, Option.map_some]
      refine ⟨store, [], ?_, trivial⟩
      have after := (represents.keyed key).get store (caches.storeKey key).2
      rw [got] at after
      exact after
    | none =>
      simp only [found, Option.map_none]
      have same := instrumentedParse_snd libraries request.source (caches.storeKey key).1
      have made : ∀ identity, .object identity = (caches.storeKey key).2 →
          identity < (instrumentedParse libraries request.source (caches.storeKey key).1).1.allocated :=
        fun identity is => Nat.lt_of_lt_of_le (object_eq_storeKey caches key is) (allocated_le_parse _ _ _)
      obtain ⟨gone, after⟩ := ((represents.keyed key).parsed libraries request.source).set store
        (primitive_eq_storeKey caches key) made (instrumentedParse libraries request.source (caches.storeKey key).1).2
      rw [same] at after
      exact ⟨store, gone, after, same⟩

end Steps

/-! ### A server over the bounded caches -/

section Server

variable [Zero Number] [One Number] {hash : String → String}

/-- What a server is built with: the libraries, the database, the schema each request is
served with, and its options. -/
structure Plugins (Number Schema Ast Rule Issue Operation Input Result Variables : Type) [DecidableEq Number]
    [One Number] (hash : String → String) where
  libraries : Libraries Schema Ast Rule Issue Operation Input Result Variables
  registered : Value Number → Option String
  schemaOf : Params Number hash → Schema
  maxCacheSize : Nat
  useJit : Bool

variable (plugins : Plugins Number Schema Ast Rule Issue Operation Input Result Variables hash)

def Plugins.texts : Texts Number Ast := ⟨plugins.libraries.parse, plugins.registered⟩

/-- The plugins up to the parser, over stores that may lose an entry at any time. -/
abbrev Plugins.losing : Machine (ServerState Number Ast hash) (ServerEvent Number hash) (Answer Number Ast hash) :=
  Documents.machine plugins.texts hash

/-- The state of the plugins up to the parser, over the caches. -/
structure Server where
  cache : MemoryStore Number String
  looking : List (Looking Number hash)
  parsing : List (Parsing Number hash)
  caches : Caches Number Schema Ast Issue Input Result Variables plugins.maxCacheSize

variable {plugins}

/-- The same over some stores. -/
def Server.over (server : Server plugins) (stores : DocumentStores Number Ast) : ServerState Number Ast hash :=
  ⟨server.cache, server.looking, server.parsing, stores⟩

/-- A request is parsed, and an entry prewarmed, by the caches; what they give up is their own
affair. No other event is one of theirs. -/
def Server.step (server : Server plugins) : ServerEvent Number hash → Server plugins × List (Answer Number Ast hash)
  | .parse index =>
    match server.parsing[index]? with
    | none => (server, [])
    | some waiting =>
      let served := Prewarming.onParse plugins.libraries server.caches
        ⟨waiting.params.extensions, waiting.query, plugins.schemaOf waiting.params⟩
      ({ server with caches := served.1, parsing := server.parsing.eraseIdx index },
        [.parsed waiting.params (served.2.1.map DocumentNode.ast)])
  | .prewarm store id query =>
    ({ server with caches := parseDocument plugins.libraries server.caches store id query }, [])
  | .evictDocument _ _ => (server, [])
  | event =>
    let next := plugins.losing.step (server.over fun _ => .empty) event
    ({ server with cache := next.1.cache, looking := next.1.looking, parsing := next.1.parsing }, next.2)

variable (plugins) in
/-- The server starts with new caches; they are prewarmed as it runs. -/
def Plugins.machine : Machine (Server plugins) (ServerEvent Number hash) (Answer Number Ast hash) where
  start := ⟨.empty, [], [], .new plugins.useJit⟩
  step := Server.step

variable (plugins) in
/-- The texts parsed in a run, and the keys they were parsed under. -/
def Plugins.uses (events : List (ServerEvent Number hash)) : List (Use Number) :=
  (plugins.machine.trace (fun server => touchedBy plugins.texts (server.over fun _ => .empty)) events).filterMap
    Touch.use?

/-- An event that is none of the caches. -/
def Outside : ServerEvent Number hash → Prop
  | .receive _ _ | .lookedUp _ _ | .preload _ | .evictQuery _ => True
  | .parse _ | .prewarm _ _ _ | .evictDocument _ _ => False

omit [Zero Number] in
theorem route_documents (state : ServerState Number Ast hash) (stores : DocumentStores Number Ast)
    (params : Params Number hash) (resolution : Resolution Number) :
    route { state with documents := stores } params resolution =
      ({ (route state params resolution).1 with documents := stores }, (route state params resolution).2) := by
  match resolution with
  | .resolved none | .resolved (some _) | .lookup _ | .rejected _ => rfl

/-- Such an event does not look at the stores. -/
theorem step_documents (texts : Texts Number Ast) (state : ServerState Number Ast hash)
    (stores : DocumentStores Number Ast) {event : ServerEvent Number hash} (outside : Outside event) :
    (Documents.machine texts hash).step { state with documents := stores } event =
      ({ ((Documents.machine texts hash).step state event).1 with documents := stores },
        ((Documents.machine texts hash).step state event).2) := by
  cases event with
  | receive params knownQueries => exact route_documents ..
  | lookedUp index found =>
    simp only [Documents.machine]
    cases state.looking[index]? with
    | none => rfl
    | some waiting => exact route_documents { state with cache := _, looking := _ } stores ..
  | preload id =>
    simp only [Documents.machine]
    cases texts.registered (.string id) <;> rfl
  | evictQuery key => rfl
  | parse | prewarm | evictDocument => exact outside.elim

theorem Server.step_outside (server : Server plugins) (stores : DocumentStores Number Ast)
    {event : ServerEvent Number hash} (outside : Outside event) :
    (server.step event).1.caches = server.caches ∧
      plugins.losing.step (server.over stores) event = ((server.step event).1.over stores, (server.step event).2) := by
  have same := step_documents plugins.texts (server.over fun _ => .empty) stores outside
  cases event with
  | receive | lookedUp | preload | evictQuery => exact ⟨rfl, same⟩
  | parse | prewarm | evictDocument => exact outside.elim

/-- What is touched is known without the stores. -/
theorem Server.touchedBy_over (server : Server plugins) (stores : DocumentStores Number Ast)
    (event : ServerEvent Number hash) :
    touchedBy plugins.texts (server.over stores) event =
      touchedBy plugins.texts (server.over fun _ => .empty) event := by
  cases event <;> rfl

variable (plugins) in
/-- A run over the caches, and one over stores that lose what the caches give up: they
answer alike, and the same texts are parsed under the same keys. -/
structure Refined (past losing : List (ServerEvent Number hash)) : Prop where
  state : ∃ stores, (plugins.losing.exec losing).1 = (plugins.machine.exec past).1.over stores ∧
    Represents stores (plugins.machine.exec past).1.caches
  answers : (plugins.losing.exec losing).2 = (plugins.machine.exec past).2
  uses : uses plugins.texts losing = plugins.uses past

/-- Some entries are lost. -/
theorem exec_lose {losing : List (ServerEvent Number hash)} {server : Server plugins}
    {stores : DocumentStores Number Ast} (at_ : (plugins.losing.exec losing).1 = server.over stores)
    (store : StoreName) (gone : List (Key Number)) :
    plugins.losing.exec (losing ++ gone.map (.evictDocument store)) =
        (server.over (evictAll stores store gone), (plugins.losing.exec losing).2) ∧
      uses plugins.texts (losing ++ gone.map (.evictDocument store)) = uses plugins.texts losing := by
  induction gone using List.reverseRecOn with
  | nil =>
    rw [List.map_nil, List.append_nil]
    exact ⟨Prod.ext at_ rfl, rfl⟩
  | append_singleton gone key ih =>
    obtain ⟨ran, same⟩ := ih
    have evicted : evictAll stores store (gone ++ [key]) = (evictAll stores store gone).evict store key := by
      rw [evictAll, List.foldl_append]
      rfl
    rw [List.map_append, List.map_singleton, ← List.append_assoc, Machine.exec_snoc, ran, evicted]
    refine ⟨Prod.ext rfl (List.append_nil _), ?_⟩
    rw [uses, touches, Machine.trace_snoc, List.filterMap_append, ← same]
    exact List.append_nil _

/-- A step over the caches is one over the stores, and the loss of what they gave up. -/
theorem Refined.extend {past losing : List (ServerEvent Number hash)} (refined : Refined plugins past losing)
    {event : ServerEvent Number hash} (stores : DocumentStores Number Ast) (store : StoreName)
    (gone : List (Key Number))
    (stepped : plugins.losing.step (plugins.losing.exec losing).1 event =
      (((plugins.machine.exec past).1.step event).1.over stores, ((plugins.machine.exec past).1.step event).2))
    (represents : Represents (evictAll stores store gone) ((plugins.machine.exec past).1.step event).1.caches) :
    Refined plugins (past ++ [event]) (losing ++ [event] ++ gone.map (.evictDocument store)) := by
  have ran : plugins.losing.exec (losing ++ [event]) = (((plugins.machine.exec past).1.step event).1.over stores,
      (plugins.machine.exec (past ++ [event])).2) := by
    rw [Machine.exec_snoc, Machine.exec_snoc, stepped, refined.answers]
    rfl
  obtain ⟨lost, same⟩ := exec_lose (congrArg Prod.fst ran) store gone
  obtain ⟨before, at_, _⟩ := refined.state
  refine ⟨⟨evictAll stores store gone, ?_, ?_⟩, ?_, ?_⟩
  · rw [lost, plugins.machine.exec_snoc]
    rfl
  · rw [Machine.exec_snoc]
    exact represents
  · rw [lost, ran]
  · rw [same, Documents.uses, touches, Plugins.uses, Machine.trace_snoc, Machine.trace_snoc, List.filterMap_append,
      List.filterMap_append, at_, Server.touchedBy_over]
    exact congrArg (· ++ _) refined.uses

theorem Refined.snoc {past losing : List (ServerEvent Number hash)} (refined : Refined plugins past losing)
    (event : ServerEvent Number hash) : ∃ losing, Refined plugins (past ++ [event]) losing := by
  obtain ⟨stores, at_, represents⟩ := refined.state
  have outside (outside : Outside event) : ∃ losing, Refined plugins (past ++ [event]) losing := by
    obtain ⟨same, stepped⟩ := (plugins.machine.exec past).1.step_outside stores outside
    exact ⟨_, refined.extend stores .default [] (at_ ▸ stepped) (same ▸ represents)⟩
  cases event with
  | receive | lookedUp | preload | evictQuery => exact outside trivial
  | parse index =>
    cases waits : (plugins.machine.exec past).1.parsing[index]? with
    | none =>
      refine ⟨_, refined.extend stores .default [] ?_ ?_⟩
      · rw [at_]
        simp [Server.step, Server.over, Documents.machine, waits]
      · simp only [Server.step, waits]
        exact represents
    | some waiting =>
      obtain ⟨store, gone, after, same⟩ := onParse_refines plugins.libraries represents
        ⟨waiting.params.extensions, waiting.query, plugins.schemaOf waiting.params⟩
      let parsed := Documents.onParse plugins.libraries.parse stores waiting.params.extensions waiting.query
      refine ⟨_, refined.extend parsed.1 store gone ?_ ?_⟩
      · rw [at_]
        simp only [Server.step, Server.over, Documents.machine, waits]
        rw [same]
        rfl
      · simp only [Server.step, waits]
        exact after
  | prewarm store id query =>
    obtain ⟨gone, after⟩ := parseDocument_refines plugins.libraries represents store id query
    refine ⟨_, refined.extend _ store gone ?_ after⟩
    rw [at_]
    rfl
  | evictDocument store key =>
    refine ⟨losing, ⟨stores, ?_, ?_⟩, ?_, ?_⟩
    · rw [Machine.exec_snoc]
      exact at_
    · rw [Machine.exec_snoc]
      exact represents
    · rw [Machine.exec_snoc]
      exact refined.answers.trans (List.append_nil _).symm
    · rw [Plugins.uses, Machine.trace_snoc, List.filterMap_append]
      exact refined.uses.trans (List.append_nil _).symm

variable (plugins) in
/-- Every run over the caches is one over stores that lose entries at some times. -/
theorem exists_refined (events : List (ServerEvent Number hash)) : ∃ losing, Refined plugins events losing := by
  induction events using List.reverseRecOn with
  | nil => exact ⟨[], ⟨_, rfl, represents_new plugins.useJit⟩, rfl, rfl⟩
  | append_singleton past event ih =>
    obtain ⟨losing, refined⟩ := ih
    exact refined.snoc event

/-- Whatever the caches give up, each request is given what its own text parses to, where
every key was checked and no two texts have one digest. -/
theorem caches_transparent {events : List (ServerEvent Number hash)}
    (checked : ∀ use ∈ plugins.uses events, use.verified = true)
    (collisionFree : ∀ first ∈ plugins.uses events, ∀ second ∈ plugins.uses events,
      hash first.text = hash second.text → first.text = second.text)
    {params : Params Number hash} {outcome : Except JsError Ast}
    (given : .parsed params outcome ∈ (plugins.machine.exec events).2) :
    (resolvedText plugins.registered params).map plugins.libraries.parse = some outcome := by
  obtain ⟨losing, refined⟩ := exists_refined plugins events
  rw [← refined.answers] at given
  rw [← refined.uses] at checked collisionFree
  obtain ⟨past, event, rest, rfl, answered⟩ := plugins.losing.mem_answers_iff.mp given
  obtain ⟨index, waiting, rfl, at_, rfl, rfl⟩ := parsed_step answered
  have earlier : ∀ use ∈ uses plugins.texts (past ++ [.parse index]),
      use ∈ uses plugins.texts (past ++ .parse index :: rest) := by
    intro use member
    rw [List.append_cons]
    exact uses_append member
  obtain ⟨text, own⟩ := served_own at_ (fun use member => checked use (earlier use member))
    fun first left second right => collisionFree first (earlier first left) second (earlier second right)
  rw [own]
  exact congrArg (Option.map plugins.libraries.parse) text

end Server

/-- Caches with room for one, and a library that parses every text to itself. -/
def crowded : Plugins Nat Unit String Unit Unit Unit Unit Unit Unit hotelsHash where
  libraries :=
    { parse := .ok
      validator := ⟨fun _ _ _ => [], []⟩
      compiler := ⟨fun _ _ => none, fun _ => none, fun _ _ _ _ => (), fun _ _ => (), fun _ => .executionResult ()⟩
      dummyVariables _ _ := .ok () }
  registered _ := none
  schemaOf _ := ()
  maxCacheSize := 1
  useJit := false

/-- A persisted query loses its place to one that is prewarmed, and is parsed again. -/
def crowding : List (ServerEvent Nat hotelsHash) :=
  [.receive persistedHotels [], .parse 0, .prewarm .persisted "{ reviews }" "{ reviews }",
    .receive persistedHotels [], .parse 0]

theorem caches_transparent_crowded :
    ((crowded.machine.exec crowding).1.caches.parsed = [⟨0, "{ hotels }"⟩, ⟨1, "{ reviews }"⟩, ⟨2, "{ hotels }"⟩]) ∧
      (resolvedText crowded.registered persistedHotels).map crowded.libraries.parse = some (.ok "{ hotels }") := by
  have checked : ∀ use ∈ crowded.uses crowding, use.verified = true := by decide
  have collisionFree : ∀ first ∈ crowded.uses crowding, ∀ second ∈ crowded.uses crowding,
      hotelsHash first.text = hotelsHash second.text → first.text = second.text := by decide
  exact ⟨rfl, caches_transparent checked collisionFree (.tail _ (.head _))⟩

end Taql.StoreEvictions
