import Mathlib.Data.Finset.Image
import Taql.PrewarmStages

/-! What prewarming leaves to do for a request. As the ids fit into the caches, no
entry is given up while they are filled, and what an entry holds is an error or a
document that was validated. -/
namespace Taql.PrewarmedRequests
open Async Documents JavaScript Lru Prereg Prewarming PrewarmStages Runs Stores Validation

variable {Number Schema Ast Rule Issue Operation Input Result Variables : Type} {maxCacheSize : Nat}

/-- The ids that are prewarmed into a cache. -/
def ids (prewarm : Prewarm Schema) : StoreName → List String
  | .preregistered => prewarm.preregistered.map Entry.id
  | .persisted => prewarm.persisted.map Entry.id
  | .default => prewarm.queries

/-- The key of an id. -/
def idKey (id : String) : StoreKey Number := .primitive (.string id)

variable [DecidableEq Number] {prewarm : Prewarm Schema}
  (libraries : Libraries Schema Ast Rule Issue Operation Input Result Variables)
  {caches : Caches Number Schema Ast Issue Input Result Variables maxCacheSize}

/-- The keys that are prewarmed into a cache. -/
def keys (prewarm : Prewarm Schema) (store : StoreName) : Finset (StoreKey Number) :=
  (ids prewarm store).toFinset.image idKey

omit [DecidableEq Number] in
theorem mem_ids_of_mem {entry : StoreName × Entry} (member : entry ∈ prewarmEntries prewarm) :
    entry.2.id ∈ ids prewarm entry.1 := by
  simp only [prewarmEntries, List.mem_append, List.mem_map] at member
  rcases member with (⟨listed, member, rfl⟩ | ⟨listed, member, rfl⟩) | ⟨query, member, rfl⟩
  · exact List.mem_map_of_mem member
  · exact List.mem_map_of_mem member
  · exact member

omit [DecidableEq Number] in
theorem exists_entry_of_mem_ids {store : StoreName} {id : String} (member : id ∈ ids prewarm store) :
    ∃ entry ∈ prewarmEntries prewarm, entry.1 = store ∧ entry.2.id = id := by
  cases store with
  | preregistered =>
    obtain ⟨entry, listed, rfl⟩ := List.mem_map.mp member
    exact ⟨(.preregistered, entry), by simp [prewarmEntries, listed], rfl, rfl⟩
  | persisted =>
    obtain ⟨entry, listed, rfl⟩ := List.mem_map.mp member
    exact ⟨(.persisted, entry), by simp [prewarmEntries, listed], rfl, rfl⟩
  | default => cases member

/-- The query that an id of a cache is given last. -/
def lastQuery (entries : List (StoreName × Entry)) (store : StoreName) (id : String) : Option String :=
  ((entries.filter fun entry => entry.1 = store ∧ entry.2.id = id).getLast?).map fun entry => entry.2.query

theorem lastQuery_append (entries : List (StoreName × Entry)) (last : StoreName × Entry) (store : StoreName)
    (id : String) : lastQuery (entries ++ [last]) store id =
      if last.1 = store ∧ last.2.id = id then some last.2.query else lastQuery entries store id := by
  unfold lastQuery
  rw [List.filter_append, List.filter_cons]
  by_cases own : last.1 = store ∧ last.2.id = id
  · simp [own]
  · simp [own]

theorem exists_lastQuery {entries : List (StoreName × Entry)} {entry : StoreName × Entry} (listed : entry ∈ entries) :
    ∃ query, lastQuery entries entry.1 entry.2.id = some query := by
  have there : entry ∈ entries.filter fun other => other.1 = entry.1 ∧ other.2.id = entry.2.id := by simp [listed]
  exact ⟨_, by rw [lastQuery, List.getLast?_eq_some_getLast (List.ne_nil_of_mem there), Option.map_some]⟩

/-- The caches after some of the entries: an id has what its last query is parsed to, and
the documents that are held are listed. -/
structure Loaded (prewarm : Prewarm Schema) (loaded : List (StoreName × Entry))
    (caches : Caches Number Schema Ast Issue Input Result Variables maxCacheSize) : Prop where
  within : ∀ store, (caches.stores store).Within (keys prewarm store)
  found : ∀ store id query, lastQuery loaded store id = some query →
    ∃ cached, (caches.stores store).lookup (idKey id) = some cached ∧
      cached.map DocumentNode.ast = libraries.parse query
  listed : ∀ store key document, (caches.stores store).lookup key = some (.ok document) →
    document ∈ caches.documents
  parsed : caches.parsed = caches.documents

/-- An outcome takes the place of its key. -/
theorem Loaded.set {loaded : List (StoreName × Entry)} {store : StoreName} {entry : Entry}
    {outcome : Except JsError (DocumentNode Ast)} (holds : Loaded libraries prewarm loaded caches)
    (parsed : outcome.map DocumentNode.ast = libraries.parse entry.query)
    (allowed : entry.id ∈ ids prewarm store)
    (known : ∀ document, outcome = .ok document → document ∈ caches.documents) :
    Loaded libraries prewarm (loaded ++ [(store, entry)]) (caches.set store (idKey entry.id) outcome) := by
  have key : (idKey entry.id : StoreKey Number) ∈ keys prewarm store :=
    Finset.mem_image_of_mem idKey (List.mem_toFinset.mpr allowed)
  have lookup : ∀ store' key', ((caches.set store (idKey entry.id) outcome).stores store').lookup key' =
      if store' = store ∧ key' = idKey entry.id then some outcome else (caches.stores store').lookup key' := by
    intro store' key'
    by_cases same : store' = store
    · subst same
      simp [Caches.set, LRUCache.lookup_set (holds.within store') key]
    · simp [Caches.set, same]
  refine ⟨fun store' => ?_, fun store' id query last => ?_, fun store' key' document held => ?_, holds.parsed⟩
  · by_cases same : store' = store
    · subst same
      simpa [Caches.set] using (holds.within store').set key outcome
    · simpa [Caches.set, same] using holds.within store'
  · rw [lastQuery_append] at last
    rw [lookup]
    by_cases own : store = store' ∧ entry.id = id
    · rw [if_pos own, Option.some.injEq] at last
      obtain ⟨rfl, rfl⟩ := own
      exact ⟨outcome, if_pos ⟨rfl, rfl⟩, last ▸ parsed⟩
    · rw [if_neg own] at last
      have other : ¬(store' = store ∧ (idKey id : StoreKey Number) = idKey entry.id) := by
        rintro ⟨rfl, same⟩
        exact own ⟨rfl, by simpa [idKey, eq_comm] using same⟩
      rw [if_neg other]
      exact holds.found store' id query last
  · rw [lookup] at held
    split at held
    · exact known document (Option.some.inj held)
    · exact holds.listed store' key' document held

theorem Loaded.parseDocument {loaded : List (StoreName × Entry)} {entry : StoreName × Entry}
    (holds : Loaded libraries prewarm loaded caches) (allowed : entry.2.id ∈ ids prewarm entry.1) :
    Loaded libraries prewarm (loaded ++ [entry]) (parseDocument libraries caches entry.1 entry.2.id entry.2.query) := by
  unfold Prewarming.parseDocument instrumentedParse
  cases parsed : libraries.parse entry.2.query with
  | error error => exact holds.set libraries parsed.symm allowed nofun
  | ok ast =>
    have after : Loaded libraries prewarm loaded
        { caches with
          allocated := caches.allocated + 1
          parsed := caches.parsed ++ [⟨caches.allocated, ast⟩]
          documents := caches.documents ++ [⟨caches.allocated, ast⟩] } :=
      { holds with
        listed := fun store key document held =>
          List.mem_append_left _ (holds.listed store key document held)
        parsed := by simp [holds.parsed] }
    refine after.set libraries parsed.symm allowed fun document same => ?_
    cases same
    simp

theorem Loaded.foldl {loaded rest : List (StoreName × Entry)} (holds : Loaded libraries prewarm loaded caches)
    (allowed : ∀ entry ∈ rest, entry.2.id ∈ ids prewarm entry.1) :
    Loaded libraries prewarm (loaded ++ rest) (rest.foldl (fun caches entry =>
      Prewarming.parseDocument libraries caches entry.1 entry.2.id entry.2.query) caches) := by
  induction rest generalizing loaded caches with
  | nil => simpa using holds
  | cons entry rest ih =>
    have first : Loaded libraries prewarm (loaded ++ [entry]) _ :=
      holds.parseDocument libraries (allowed entry List.mem_cons_self)
    simpa using ih first fun other member => allowed other (List.mem_cons_of_mem _ member)

/-- Once all entries are parsed each id has its place. -/
theorem loaded_load (fits : ∀ store, (ids prewarm store).toFinset.card ≤ maxCacheSize) (useJit : Bool) :
    Loaded libraries prewarm (prewarmEntries prewarm) (load libraries prewarm
      (Caches.new useJit : Caches Number Schema Ast Issue Input Result Variables maxCacheSize)) := by
  have start : Loaded libraries prewarm []
      (Caches.new useJit : Caches Number Schema Ast Issue Input Result Variables maxCacheSize) :=
    { within := fun store => LRUCache.within_empty (Finset.card_image_le.trans (fits store))
      found := fun _ _ _ last => nomatch last
      listed := fun store key document held => by simp [Caches.new, LRUCache.lookup_empty] at held
      parsed := rfl }
  exact start.foldl libraries fun entry member => mem_ids_of_mem member

section Requests
variable [DecidableEq Schema] [DecidableEq Ast]

/-- Every id has its place, and every document that is held was validated. -/
structure Warm (prewarm : Prewarm Schema)
    (caches : Caches Number Schema Ast Issue Input Result Variables maxCacheSize) : Prop where
  within : ∀ store, (caches.stores store).Within (keys prewarm store)
  found : ∀ store, ∀ id ∈ ids prewarm store, ((caches.stores store).lookup (idKey id)).isSome
  validated : ∀ store key document, (caches.stores store).lookup key = some (.ok document) →
    (caches.validationCache.get prewarm.schema document).isSome

omit [DecidableEq Number] in
/-- Each document of the array is validated once it was read. -/
theorem foldl_prewarm_get (documents : List (DocumentNode Ast))
    (cache : ValidationCache Schema (DocumentNode Ast) Issue)
    (schema : Schema) {document : DocumentNode Ast} (listed : document ∈ documents) :
    (documents.foldl (fun cache document => Validation.prewarm libraries.validator cache schema document) cache).get
      schema document = some (libraries.validator.validate schema document libraries.validator.specifiedRules) := by
  induction documents using List.reverseRecOn with
  | nil => cases listed
  | append_singleton documents last ih =>
    rw [List.foldl_append, List.foldl_cons, List.foldl_nil, Validation.prewarm, BiWeakMap.get_set]
    split
    · rename_i same
      rw [same.2]
    · rename_i other
      apply ih
      rcases List.mem_append.mp listed with earlier | final
      · exact earlier
      · exact absurd ⟨rfl, List.mem_singleton.mp final⟩ other

/-- A request for an id that was prewarmed. -/
inductive Asks (prewarm : Prewarm Schema) (request : Request Number Schema) : Prop where
  | preregistered (entry : Entry) (listed : entry ∈ prewarm.preregistered)
    (named : request.extensions.preRegisteredQueryId = some (.string entry.id))
  | persisted (entry : Entry) (listed : entry ∈ prewarm.persisted)
    (unnamed : request.extensions.preRegisteredQueryId = none)
    (named : request.extensions.sha256Hash = some (.string entry.id))

omit [DecidableEq Number] [DecidableEq Schema] in
theorem Asks.picks {request : Request Number Schema} (asks : Asks prewarm request) :
    ∃ store, ∃ id ∈ ids prewarm store,
      pickDocumentCache request.extensions request.source = (store, some (.string id)) := by
  cases asks with
  | preregistered entry listed named =>
    exact ⟨.preregistered, entry.id, List.mem_map_of_mem listed, by simp [pickDocumentCache, named, Value.key]⟩
  | persisted entry listed unnamed named =>
    exact ⟨.persisted, entry.id, List.mem_map_of_mem listed, by simp [pickDocumentCache, unnamed, named, Value.key]⟩

/-- What is held for a request. -/
def held (caches : Caches Number Schema Ast Issue Input Result Variables maxCacheSize)
    (request : Request Number Schema) : Option (Except JsError (DocumentNode Ast)) :=
  let picked := pickDocumentCache request.extensions request.source
  picked.2.bind fun key => (caches.stores picked.1).lookup (.primitive key)

omit [DecidableEq Schema] [DecidableEq Ast] in
/-- Such a request finds what is held under its id, and nothing else changes. -/
theorem onParse_of_warm {request : Request Number Schema} (warm : Warm prewarm caches) (asks : Asks prewarm request) :
    ∃ store id cached, (caches.stores store).lookup (idKey id) = some cached ∧ held caches request = some cached ∧
      Prewarming.onParse libraries caches request =
        ({ caches with
            stores := Function.update caches.stores store ((caches.stores store).get (idKey id)).1 }, cached, []) := by
  obtain ⟨store, id, member, picked⟩ := asks.picks
  obtain ⟨cached, there⟩ := Option.isSome_iff_exists.mp (warm.found store id member)
  have got : (caches.stores store).get (idKey id) = (((caches.stores store).get (idKey id)).1, some cached) := by
    rw [← there, ← LRUCache.get_snd]
  refine ⟨store, id, cached, there, ?_, ?_⟩
  · unfold held
    rw [picked]
    exact there
  unfold Prewarming.onParse
  rw [picked]
  simp only [Caches.storeKey]
  rw [show StoreKey.primitive (Key.string id) = idKey id from rfl, got]

omit [DecidableEq Schema] [DecidableEq Ast] in
/-- A request leaves the caches warm whatever it validates against. -/
theorem Warm.hit {store : StoreName} (warm : Warm prewarm caches) (key : StoreKey Number)
    {validationCache : ValidationCache Schema (DocumentNode Ast) Issue}
    (kept : ∀ document, (caches.validationCache.get prewarm.schema document).isSome →
      (validationCache.get prewarm.schema document).isSome) :
    Warm prewarm
      { caches with
        stores := Function.update caches.stores store ((caches.stores store).get key).1
        validationCache := validationCache } := by
  refine ⟨fun store' => ?_, fun store' id member => ?_, fun store' key' document held => ?_⟩
  · by_cases same : store' = store
    · subst same
      simpa using (warm.within store').get key
    · simpa [same] using warm.within store'
  · rw [caches.lookup_used]
    exact warm.found store' id member
  · rw [caches.lookup_used] at held
    exact kept document (warm.validated store' key' document held)

omit [DecidableEq Schema] [DecidableEq Ast] in
/-- A request leaves what is held for others. -/
theorem held_used (caches : Caches Number Schema Ast Issue Input Result Variables maxCacheSize) (used : StoreName)
    (key : StoreKey Number) (validationCache : ValidationCache Schema (DocumentNode Ast) Issue) :
    held { caches with
      stores := Function.update caches.stores used ((caches.stores used).get key).1
      validationCache := validationCache } = held caches := by
  funext other
  simp only [held, caches.lookup_used]

/-- Work that a request for a prewarmed id makes: nothing is parsed, or validated against
the prewarmed schema, and it is served what is held for it. -/
structure Spared (prewarm : Prewarm Schema)
    (caches : Caches Number Schema Ast Issue Input Result Variables maxCacheSize) (request : Request Number Schema)
    (work : Work Schema Ast) : Prop where
  parses : work.parses = []
  validates : prewarm.schema ∉ work.validates
  served : held caches request = some work.served

/-- A request for a prewarmed id is spared work, and so will the next be. -/
theorem Warm.serve (registered : List Rule) {request : Request Number Schema} (warm : Warm prewarm caches)
    (asks : Asks prewarm request) :
    (Warm prewarm (serve libraries registered caches request).1 ∧
      held (serve libraries registered caches request).1 = held caches) ∧
      Spared prewarm caches request (serve libraries registered caches request).2 := by
  obtain ⟨store, id, cached, there, found, parsed⟩ := onParse_of_warm libraries warm asks
  unfold Prewarming.serve
  rw [parsed]
  cases cached with
  | error error =>
    exact ⟨⟨warm.hit (idKey id) fun _ known => known, held_used caches store _ caches.validationCache⟩, rfl,
      List.not_mem_nil, found⟩
  | ok document =>
    refine ⟨⟨warm.hit (idKey id) fun other known => ?_, held_used caches store _ _⟩, rfl, ?_, found⟩
    · rcases onValidate_get libraries.validator registered caches.validationCache request.schema document
        prewarm.schema other with same | ⟨missing, _⟩
      · rw [same]
        exact known
      · rw [missing] at known
        cases known
    · show prewarm.schema ∉ if (caches.validationCache.get request.schema document).isSome then [] else [request.schema]
      by_cases same : request.schema = prewarm.schema
      · simp [same, warm.validated store (idKey id) document there]
      · split
        · exact List.not_mem_nil
        · exact fun member => same (List.mem_singleton.mp member).symm

/-- Prewarming has done all it does when it comes to its first await. -/
theorem resolves_prewarmed {start finish : Caches Number Schema Ast Issue Input Result Variables maxCacheSize}
    (resolves : Resolves (useUnifiedCaching libraries (some prewarm)) start finish) :
    finish = prewarmed libraries prewarm start := by
  obtain ⟨gives, run⟩ := useUnifiedCaching_of_closed start closed_spent fun _ _ _ => .settled _
  exact (resolves.finish gives).trans run

/-- Where each document can be given variables, prewarming resolves. -/
theorem resolves_of_variables
    (total : ∀ document error, libraries.dummyVariables prewarm.schema document ≠ .error error)
    (start : Caches Number Schema Ast Issue Input Result Variables maxCacheSize) :
    Resolves (useUnifiedCaching libraries (some prewarm)) start (prewarmed libraries prewarm start) := by
  obtain ⟨gives, run⟩ := useUnifiedCaching_of_closed start closed_quiet fun document error rejected =>
    absurd rejected (total document error)
  exact run ▸ gives.resolves start

theorem warm_prewarmed (fits : ∀ store, (ids prewarm store).toFinset.card ≤ maxCacheSize) (useJit : Bool) :
    Warm prewarm (prewarmed libraries prewarm
      (Caches.new useJit : Caches Number Schema Ast Issue Input Result Variables maxCacheSize)) := by
  have loaded : Loaded libraries prewarm (prewarmEntries prewarm) (load libraries prewarm
      (Caches.new useJit : Caches Number Schema Ast Issue Input Result Variables maxCacheSize)) :=
    loaded_load libraries fits useJit
  refine ⟨loaded.within, fun store id member => ?_, fun store key document held => ?_⟩
  · obtain ⟨entry, listed, rfl, rfl⟩ := exists_entry_of_mem_ids member
    obtain ⟨query, last⟩ := exists_lastQuery listed
    obtain ⟨cached, held, _⟩ := loaded.found _ _ _ last
    exact Option.isSome_of_eq_some held
  · exact Option.isSome_of_eq_some
      (foldl_prewarm_get libraries _ _ prewarm.schema (loaded.listed store key document held))

/-- However many requests for prewarmed ids come, all are spared work. -/
theorem requests_of_warm (registered : List Rule) (warm : Warm prewarm caches)
    (requests : List (Request Number Schema)) (asked : ∀ request ∈ requests, Asks prewarm request) :
    (Warm prewarm ((machine libraries registered caches).exec requests).1 ∧
      held ((machine libraries registered caches).exec requests).1 = held caches) ∧
      List.Forall₂ (Spared prewarm caches) requests ((machine libraries registered caches).exec requests).2 := by
  induction requests using List.reverseRecOn with
  | nil => exact ⟨⟨warm, rfl⟩, .nil⟩
  | append_singleton requests request ih =>
    obtain ⟨⟨before, same⟩, done⟩ := ih fun earlier member => asked earlier (List.mem_append_left _ member)
    obtain ⟨⟨after, same'⟩, last⟩ := before.serve libraries registered (asked request (by simp))
    rw [Machine.exec_snoc]
    refine ⟨⟨after, same'.trans same⟩, List.rel_append done (.cons ⟨last.parses, last.validates, ?_⟩ .nil)⟩
    rw [← same]
    exact last.served

/-- No later request for an id that was prewarmed is parsed, or validated against the
prewarmed schema: each stage found all documents that were parsed, and an id has the
document of its last query, which was validated, if that query is one. -/
theorem prewarm_complete (registered : List Rule) (prewarm : Prewarm Schema)
    (fits : ∀ store, (ids prewarm store).toFinset.card ≤ maxCacheSize) (useJit : Bool)
    (caches : Caches Number Schema Ast Issue Input Result Variables maxCacheSize)
    (resolves : Resolves (useUnifiedCaching libraries (some prewarm)) (Caches.new useJit) caches) :
    caches.reads = (stages useJit).map (fun stage => (stage, caches.parsed)) ∧
      (∀ store, ∀ id ∈ ids prewarm store, ∃ query cached,
        lastQuery (prewarmEntries prewarm) store id = some query ∧
        (caches.stores store).lookup (idKey id) = some cached ∧
        cached.map DocumentNode.ast = libraries.parse query ∧
        ∀ document, cached = .ok document →
          document ∈ caches.parsed ∧ caches.validationCache.get prewarm.schema document =
            some (libraries.validator.validate prewarm.schema document libraries.validator.specifiedRules)) ∧
      ∀ requests : List (Request Number Schema), (∀ request ∈ requests, Asks prewarm request) →
        List.Forall₂ (Spared prewarm caches) requests ((machine libraries registered caches).exec requests).2 := by
  obtain rfl := resolves_prewarmed libraries resolves
  have loaded : Loaded libraries prewarm (prewarmEntries prewarm) (load libraries prewarm
      (Caches.new useJit : Caches Number Schema Ast Issue Input Result Variables maxCacheSize)) :=
    loaded_load libraries fits useJit
  refine ⟨?_, fun store id member => ?_, fun requests asked => ?_⟩
  · obtain ⟨jitCache, reads⟩ := load_frame libraries prewarm
      (Caches.new useJit : Caches Number Schema Ast Issue Input Result Variables maxCacheSize)
    have compiled : (load libraries prewarm (Caches.new useJit : Caches Number Schema Ast Issue Input Result Variables
        maxCacheSize)).jitCache.isSome = useJit := by
      rw [jitCache]
      cases useJit <;> rfl
    simp only [prewarmed]
    rw [reads, compiled, loaded.parsed]
    rfl
  · obtain ⟨entry, listed, rfl, rfl⟩ := exists_entry_of_mem_ids member
    obtain ⟨query, last⟩ := exists_lastQuery listed
    obtain ⟨cached, held, parsed⟩ := loaded.found _ _ _ last
    refine ⟨query, cached, last, held, parsed, ?_⟩
    rintro document rfl
    have document := loaded.listed entry.1 (idKey entry.2.id) document held
    exact ⟨loaded.parsed ▸ document, foldl_prewarm_get libraries _ _ prewarm.schema document⟩
  · exact (requests_of_warm libraries registered (warm_prewarmed libraries fits useJit) requests asked).2

end Requests

/-- A library whose parser knows one query. -/
def oneQuery : Libraries Unit String Unit String Unit Unit Unit Unit where
  parse query := if query = "{ hotel }" then .ok query else .error ⟨"GraphQLError", "Syntax Error"⟩
  validator := ⟨fun _ _ _ => [], []⟩
  compiler := ⟨fun _ _ => some (), fun _ => none, fun _ _ _ _ => (), fun _ _ => (), fun _ => .executionResult ()⟩
  dummyVariables _ _ := .ok ()

/-- An id is given twice, and a query does not parse. -/
def hotels : Prewarm Unit where
  schema := ()
  preregistered := [⟨"hotel", "hotel"⟩, ⟨"hotel", "{ hotel }"⟩, ⟨"hotels", "hotels"⟩]
  persisted := [⟨"hotel", "{ hotel }"⟩]

/-- With room for two ids. -/
theorem prewarm_complete_hotels : ∃ caches : Caches Nat Unit String String Unit Unit Unit 2,
    Resolves (useUnifiedCaching oneQuery (some hotels)) (Caches.new true) caches ∧
    List.Forall₂ (Spared hotels caches)
      [⟨⟨some (.string "hotel"), none, none⟩, "", ()⟩, ⟨⟨some (.string "hotels"), none, none⟩, "", ()⟩,
        ⟨⟨none, none, some (.string "hotel")⟩, "", ()⟩]
      ((machine oneQuery [] caches).exec [⟨⟨some (.string "hotel"), none, none⟩, "", ()⟩,
        ⟨⟨some (.string "hotels"), none, none⟩, "", ()⟩, ⟨⟨none, none, some (.string "hotel")⟩, "", ()⟩]).2 := by
  have resolves : Resolves (useUnifiedCaching oneQuery (some hotels))
      (Caches.new true : Caches Nat Unit String String Unit Unit Unit 2) _ :=
    resolves_of_variables oneQuery (fun _ _ => nofun) _
  refine ⟨_, resolves, (prewarm_complete oneQuery [] hotels ?_ true _ resolves).2.2 _ ?_⟩
  · intro store
    cases store <;> decide
  · intro request member
    simp only [List.mem_cons, List.not_mem_nil, or_false] at member
    rcases member with rfl | rfl | rfl
    · exact .preregistered ⟨"hotel", "{ hotel }"⟩ (.tail _ (.head _)) rfl
    · exact .preregistered ⟨"hotels", "hotels"⟩ (.tail _ (.tail _ (.head _))) rfl
    · exact .persisted ⟨"hotel", "{ hotel }"⟩ (.head _) rfl rfl

end Taql.PrewarmedRequests
