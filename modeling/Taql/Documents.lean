import Taql.JavaScript
import Taql.Prereg
import Taql.Runs

/-! `packages/caching/src/documents.ts`: parsed documents, and parse errors,
cached under a key that is chosen from what the client sends: the id of a
preregistered query, the digest of a persisted one, or the text. Requests wait
for the database and for the parser, each in its own time. -/
namespace Taql.Documents
open JavaScript Prereg Runs Stores

variable {Number Document : Type} {hash : String → String}

/-- The three caches of a `DocumentCache`. -/
inductive StoreName where
  | preregistered
  | persisted
  | default
  deriving DecidableEq, Repr

/-- `parse` of the GraphQL library, and the texts in the database. -/
structure Texts (Number Document : Type) where
  parse : String → Except JsError Document
  registered : Value Number → Option String

abbrev DocumentStores (Number Document : Type) := StoreName → MemoryStore Number (Except JsError Document)

/-- `pickDocumentCache`. -/
def pickDocumentCache (extensions : Extensions Number) (defaultId : String) : StoreName × Option (Key Number) :=
  match extensions.preRegisteredQueryId with
  | some preregisteredId => (.preregistered, preregisteredId.key)
  | none =>
    match extensions.sha256Hash with
    | some persistedId => (.persisted, persistedId.key)
    | none => (.default, some (.string defaultId))

variable [DecidableEq Number] [Zero Number] [One Number]

/-- `set`, on one of the caches. -/
def DocumentStores.set (stores : DocumentStores Number Document) (store : StoreName) (key : Option (Key Number))
    (outcome : Except JsError Document) : DocumentStores Number Document :=
  Function.update stores store ((stores store).set key outcome)

def DocumentStores.evict (stores : DocumentStores Number Document) (store : StoreName) (key : Key Number) :
    DocumentStores Number Document :=
  Function.update stores store ((stores store).evict key)

omit [Zero Number] [One Number] in
theorem DocumentStores.get_set (stores : DocumentStores Number Document) (store store' : StoreName)
    (key : Option (Key Number)) (key' : Key Number) (outcome : Except JsError Document) :
    (stores.set store key outcome store').get (some key') =
      if store = store' ∧ key = some key' then some outcome else (stores store').get (some key') := by
  by_cases same : store' = store
  · subst same
    rw [DocumentStores.set, Function.update_self, MemoryStore.get_set]
    simp only [true_and]
  · rw [DocumentStores.set, Function.update_of_ne same, if_neg (fun both => same both.1.symm)]

omit [Zero Number] [One Number] in
theorem DocumentStores.get_evict (stores : DocumentStores Number Document) (store store' : StoreName)
    (key key' : Key Number) :
    (stores.evict store key store').get (some key') =
      if store = store' ∧ key = key' then none else (stores store').get (some key') := by
  by_cases same : store' = store
  · subst same
    rw [DocumentStores.evict, Function.update_self, MemoryStore.get_evict]
    simp only [true_and]
  · rw [DocumentStores.evict, Function.update_of_ne same, if_neg (fun both => same both.1.symm)]

/-- `onParse`, with the hook that runs after: what is cached is set as the
document, or thrown. -/
def onParse (parse : String → Except JsError Document) (stores : DocumentStores Number Document)
    (extensions : Extensions Number) (source : String) :
    DocumentStores Number Document × Except JsError Document :=
  let picked := pickDocumentCache extensions source
  match (stores picked.1).get picked.2 with
  | some cached => (stores, cached)
  | none =>
    let result := parse source
    (stores.set picked.1 picked.2 result, result)

/-- A request whose text is known. -/
structure Parsing (Number : Type) [DecidableEq Number] [One Number] (hash : String → String) where
  params : Params Number hash
  query : String

/-- A request that waits for the text of its id. -/
structure Looking (Number : Type) [DecidableEq Number] [One Number] (hash : String → String) where
  params : Params Number hash
  queryId : Value Number

structure ServerState (Number Document : Type) [DecidableEq Number] [One Number] (hash : String → String) where
  cache : MemoryStore Number String
  looking : List (Looking Number hash)
  parsing : List (Parsing Number hash)
  documents : DocumentStores Number Document

inductive Answer (Number Document : Type) [DecidableEq Number] [One Number] (hash : String → String) where
  | parsed (params : Params Number hash) (outcome : Except JsError Document)
  | rejected (params : Params Number hash) (error : RequestError)

/-- Requests arrive, with the ids known by then; lookups end, found or failed;
requests are parsed; entries are preloaded, prewarmed and evicted. -/
inductive ServerEvent (Number : Type) [DecidableEq Number] [One Number] (hash : String → String) where
  | receive (params : Params Number hash) (knownQueries : List String)
  | lookedUp (index : Nat) (found : Bool)
  | parse (index : Nat)
  | preload (id : String)
  | prewarm (store : StoreName) (id query : String)
  | evictQuery (key : Key Number)
  | evictDocument (store : StoreName) (key : Key Number)

/-- A request goes where the plugin sends it. One without a query is refused
before it is parsed. -/
def route (state : ServerState Number Document hash) (params : Params Number hash) :
    Resolution Number → ServerState Number Document hash × List (Answer Number Document hash)
  | .resolved (some query) => ({ state with parsing := state.parsing ++ [⟨params, query⟩] }, [])
  | .resolved none => (state, [])
  | .lookup queryId => ({ state with looking := state.looking ++ [⟨params, queryId⟩] }, [])
  | .rejected error => (state, [.rejected params error])

/-- The plugins, and the events in any order; an index without a request is no
event. -/
def machine (texts : Texts Number Document) (hash : String → String) :
    Machine (ServerState Number Document hash) (ServerEvent Number hash) (Answer Number Document hash) where
  start := ⟨.empty, [], [], fun _ => .empty⟩
  step
    | state, .receive params knownQueries => route state params (onParams state.cache knownQueries params)
    | state, .lookedUp index found =>
      match state.looking[index]? with
      | none => (state, [])
      | some waiting =>
        let looked := onLookup state.cache waiting.queryId (if found then texts.registered waiting.queryId else none)
        route { state with cache := looked.1, looking := state.looking.eraseIdx index } waiting.params looked.2
    | state, .parse index =>
      match state.parsing[index]? with
      | none => (state, [])
      | some waiting =>
        let served := onParse texts.parse state.documents waiting.params.extensions waiting.query
        ({ state with documents := served.1, parsing := state.parsing.eraseIdx index },
          [.parsed waiting.params served.2])
    | state, .preload id =>
      match texts.registered (.string id) with
      | none => (state, [])
      | some code => ({ state with cache := state.cache.set (Value.string id).key code }, [])
    | state, .prewarm store id query =>
      ({ state with documents := state.documents.set store (Value.string id).key (texts.parse query) }, [])
    | state, .evictQuery key => ({ state with cache := state.cache.evict key }, [])
    | state, .evictDocument store key => ({ state with documents := state.documents.evict store key }, [])

/-- A text that is parsed under a key of a cache, and whether the key was
checked to stand for the text. -/
structure Use (Number : Type) where
  store : StoreName
  key : Option (Key Number)
  text : String
  verified : Bool
  deriving DecidableEq

def Parsing.use (waiting : Parsing Number hash) : Use Number where
  store := (pickDocumentCache waiting.params.extensions waiting.query).1
  key := (pickDocumentCache waiting.params.extensions waiting.query).2
  text := waiting.query
  verified := waiting.params.extensions.verified

/-- The use that prewarming makes of an entry. -/
def prewarmUse (texts : Texts Number Document) (hash : String → String) (store : StoreName) (id query : String) :
    Use Number where
  store := store
  key := (Value.string id).key
  text := query
  verified :=
    match store with
    | .preregistered => texts.registered (.string id) = some query
    | .persisted => hash query = id
    | .default => query = id

/-- What happens to the entries of the document caches. -/
inductive Touch (Number : Type) where
  | parsed (use : Use Number)
  | prewarmed (use : Use Number)
  | evicted (store : StoreName) (key : Key Number)

def Touch.use? : Touch Number → Option (Use Number)
  | .parsed use => some use
  | .prewarmed use => some use
  | .evicted _ _ => none

def touchedBy (texts : Texts Number Document) (state : ServerState Number Document hash) :
    ServerEvent Number hash → List (Touch Number)
  | .parse index => state.parsing[index]?.toList.map fun waiting => .parsed waiting.use
  | .prewarm store id query => [.prewarmed (prewarmUse texts hash store id query)]
  | .evictDocument store key => [.evicted store key]
  | .receive _ _ | .lookedUp _ _ | .preload _ | .evictQuery _ => []

def touches (texts : Texts Number Document) (events : List (ServerEvent Number hash)) : List (Touch Number) :=
  (machine texts hash).trace (touchedBy texts) events

/-- The texts parsed in a run and the keys they were parsed under. -/
def uses (texts : Texts Number Document) (events : List (ServerEvent Number hash)) : List (Use Number) :=
  (touches texts events).filterMap Touch.use?

/-- The use an entry is from: the last one prewarmed, and otherwise the first
one parsed, since the entry was last evicted. -/
def holder (touched : List (Touch Number)) (store : StoreName) (key : Key Number) : Option (Use Number) :=
  touched.foldl (fun held touch =>
    match touch with
    | .parsed use => if use.store = store ∧ use.key = some key then some (held.getD use) else held
    | .prewarmed use => if use.store = store ∧ use.key = some key then some use else held
    | .evicted store' key' => if store' = store ∧ key' = key then none else held) none

end Taql.Documents
