import Taql.Async
import Taql.Documents
import Taql.Jit
import Taql.Lru
import Taql.Validation

/-! `packages/caching/src/useUnifiedCaching.ts` and what it prewarms. Its stages are
async functions called one after another, and hand on the documents in an array
they share. Each parse makes a new document, which the caches know by identity. -/
namespace Taql.Prewarming
open Async Documents JavaScript Lru Prereg Runs Stores Validation

variable {Number Schema Ast Rule Issue Operation Input Result Variables : Type} {maxCacheSize : Nat}

/-- A parsed document; no two have one reference. -/
structure DocumentNode (Ast : Type) where
  reference : Nat
  ast : Ast
  deriving DecidableEq

/-- The key of an LRU cache; an object is one by its identity. -/
inductive StoreKey (Number : Type) where
  | primitive (key : Key Number)
  | object (identity : Nat)
  deriving DecidableEq

/-- What the caches use of the GraphQL library and of the compiler, and the dummy
variables of a document, where they can be built. -/
structure Libraries (Schema Ast Rule Issue Operation Input Result Variables : Type) where
  parse : String → Except JsError Ast
  validator : Validator Schema (DocumentNode Ast) Rule Issue
  compiler : Jit.Engine Schema (DocumentNode Ast) Operation Input Result
  dummyVariables : Schema → DocumentNode Ast → Except JsError Variables

/-- The stages that read the array of documents. -/
inductive Stage where
  | validation
  | jit
  | execute
  deriving DecidableEq

abbrev DocumentStore (Number Ast : Type) (maxCacheSize : Nat) :=
  LRUCache (StoreKey Number) (Except JsError (DocumentNode Ast)) maxCacheSize

/-- The caches, `documents`, and the objects made so far. No step reads `parsed`,
`reads` and `executed`: the documents parsed, what each stage found in the array,
and the documents executed. -/
structure Caches (Number Schema Ast Issue Input Result Variables : Type) (maxCacheSize : Nat) where
  stores : StoreName → DocumentStore Number Ast maxCacheSize
  validationCache : ValidationCache Schema (DocumentNode Ast) Issue
  jitCache : Option (Jit.CompiledQueryCache Schema (DocumentNode Ast) Input Result)
  documents : List (DocumentNode Ast)
  allocated : Nat
  parsed : List (DocumentNode Ast)
  reads : List (Stage × List (DocumentNode Ast))
  executed : List (DocumentNode Ast × Variables)

/-- New caches; there is one of compiled queries only with `useJit`. -/
def Caches.new (useJit : Bool) : Caches Number Schema Ast Issue Input Result Variables maxCacheSize where
  stores _ := .empty
  validationCache := .empty
  jitCache := if useJit then some .empty else none
  documents := []
  allocated := 0
  parsed := []
  reads := []
  executed := []

/-- A preregistered or persisted query. -/
structure Entry where
  id : String
  query : String
  deriving DecidableEq

/-- What there is to prewarm; a missing list is an empty one. -/
structure Prewarm (Schema : Type) where
  schema : Schema
  preregistered : List Entry
  persisted : List Entry

/-- `queries` is typed as the empty list. -/
def Prewarm.queries (_ : Prewarm Schema) : List String := []

variable [DecidableEq Number] [DecidableEq Schema] [DecidableEq Ast]

/-- `logPrewarm`, less what it logs. The entries are read when it is called. -/
def logPrewarm {σ α : Type} (entries : σ → List α) (call : α → Call σ JsError) : Call σ JsError :=
  async fun state =>
    if (entries state).isEmpty then plain id state else awaitAll ((entries state).map call) state

/-- `instrumentedParse`. -/
def instrumentedParse (libraries : Libraries Schema Ast Rule Issue Operation Input Result Variables) (query : String)
    (caches : Caches Number Schema Ast Issue Input Result Variables maxCacheSize) :
    Caches Number Schema Ast Issue Input Result Variables maxCacheSize × Except JsError (DocumentNode Ast) :=
  match libraries.parse query with
  | .error error => (caches, .error error)
  | .ok ast =>
    let document := ⟨caches.allocated, ast⟩
    ({ caches with allocated := caches.allocated + 1, parsed := caches.parsed ++ [document] }, .ok document)

section Stages

variable (libraries : Libraries Schema Ast Rule Issue Operation Input Result Variables)
  (caches : Caches Number Schema Ast Issue Input Result Variables maxCacheSize)

def Caches.set (store : StoreName) (key : StoreKey Number) (outcome : Except JsError (DocumentNode Ast)) :
    Caches Number Schema Ast Issue Input Result Variables maxCacheSize :=
  { caches with stores := Function.update caches.stores store ((caches.stores store).set key outcome) }

/-- `parseDocument`. What the parser throws is an error and is cached. -/
def parseDocument (store : StoreName) (id query : String) :
    Caches Number Schema Ast Issue Input Result Variables maxCacheSize :=
  match instrumentedParse libraries query caches with
  | (caches, .ok document) =>
    { caches with documents := caches.documents ++ [document] }.set store (.primitive (.string id)) (.ok document)
  | (caches, .error error) => caches.set store (.primitive (.string id)) (.error error)

/-- A stage finds the documents that are there when it is called. -/
def Caches.read (stage : Stage) : Caches Number Schema Ast Issue Input Result Variables maxCacheSize :=
  { caches with reads := caches.reads ++ [(stage, caches.documents)] }

/-- What `ValidationCache.prewarm` does for a document. -/
def validateDocument (schema : Schema) (document : DocumentNode Ast) :
    Caches Number Schema Ast Issue Input Result Variables maxCacheSize :=
  { caches with
    validationCache := Validation.prewarm libraries.validator caches.validationCache schema document }

/-- What `JitCache.prewarm` does for a document. -/
def compileDocument (schema : Schema) (document : DocumentNode Ast) :
    Caches Number Schema Ast Issue Input Result Variables maxCacheSize :=
  { caches with
    jitCache := caches.jitCache.map fun cache =>
      Jit.compile libraries.compiler cache (Jit.prewarmArgs libraries.compiler schema document) }

/-- What `prewarmExecutionCache` does for a document once it has variables. -/
def executeDocument (document : DocumentNode Ast) (variableValues : Variables) :
    Caches Number Schema Ast Issue Input Result Variables maxCacheSize :=
  { caches with executed := caches.executed ++ [(document, variableValues)] }

end Stages

section Calls

variable (libraries : Libraries Schema Ast Rule Issue Operation Input Result Variables) (prewarm : Prewarm Schema)

/-- A call that changes the caches. -/
abbrev CacheCall (Number Schema Ast Issue Input Result Variables : Type) (maxCacheSize : Nat) :=
  Call (Caches Number Schema Ast Issue Input Result Variables maxCacheSize) JsError

/-- `DocumentCache.prewarm`. -/
def documentPrewarm : CacheCall Number Schema Ast Issue Input Result Variables maxCacheSize :=
  logPrewarm (fun _ =>
    [logPrewarm (fun _ => prewarm.preregistered) fun entry => plain fun caches =>
        parseDocument libraries caches .preregistered entry.id entry.query,
      logPrewarm (fun _ => prewarm.persisted) fun entry => plain fun caches =>
        parseDocument libraries caches .persisted entry.id entry.query,
      logPrewarm (fun _ => prewarm.queries) fun query => plain fun caches =>
        parseDocument libraries caches .default query query]) id

/-- `ValidationCache.prewarm`. -/
def validationPrewarm : CacheCall Number Schema Ast Issue Input Result Variables maxCacheSize := fun caches =>
  logPrewarm Caches.documents (fun document => plain fun caches =>
    validateDocument libraries caches prewarm.schema document) (caches.read .validation)

/-- `jitCache?.prewarm`. -/
def jitPrewarm : CacheCall Number Schema Ast Issue Input Result Variables maxCacheSize := fun caches =>
  if caches.jitCache.isSome then
    logPrewarm Caches.documents (fun document => plain fun caches =>
      compileDocument libraries caches prewarm.schema document) (caches.read .jit)
  else plain id caches

/-- The function `prewarmExecutionCache` gives each document to. -/
def executionCall (document : DocumentNode Ast) :
    CacheCall Number Schema Ast Issue Input Result Variables maxCacheSize :=
  async fun caches =>
    match libraries.dummyVariables prewarm.schema document with
    | .error error => (caches, .error error)
    | .ok variableValues => awaitAll [plain fun caches => executeDocument caches document variableValues] caches

def prewarmExecutionCache : CacheCall Number Schema Ast Issue Input Result Variables maxCacheSize :=
  async fun caches =>
    awaitAll [logPrewarm Caches.documents (executionCall libraries prewarm)] (caches.read .execute)

/-- `useUnifiedCaching`, on new caches; without `prewarm` there is nothing to wait for. -/
def useUnifiedCaching (prewarm : Option (Prewarm Schema)) :
    CacheCall Number Schema Ast Issue Input Result Variables maxCacheSize :=
  async fun caches =>
    match prewarm with
    | none => plain id caches
    | some prewarm =>
      awaitAll [logPrewarm (fun _ => [documentPrewarm libraries prewarm, validationPrewarm libraries prewarm,
        jitPrewarm libraries prewarm, prewarmExecutionCache libraries prewarm]) id] caches

end Calls

/-- A request that reaches the parser: its extensions, its text, and the schema it
is validated against. -/
structure Request (Number Schema : Type) where
  extensions : Extensions Number
  source : String
  schema : Schema

/-- The texts that are parsed for a request, the schemas its document is validated
against, and what its text is parsed to, as far as it can tell. -/
structure Work (Schema Ast : Type) where
  parses : List String
  validates : List Schema
  served : Except JsError (DocumentNode Ast)

omit [DecidableEq Schema] [DecidableEq Ast] in
/-- Using an entry leaves every key with what it has. -/
theorem Caches.lookup_used (caches : Caches Number Schema Ast Issue Input Result Variables maxCacheSize)
    (used : StoreName) (key : StoreKey Number) (store : StoreName) (key' : StoreKey Number) :
    (Function.update caches.stores used ((caches.stores used).get key).1 store).lookup key' =
      (caches.stores store).lookup key' := by
  by_cases same : store = used
  · subst same
    rw [Function.update_self, LRUCache.lookup_get]
  · rw [Function.update_of_ne same]

section Requests

variable (libraries : Libraries Schema Ast Rule Issue Operation Input Result Variables) (registered : List Rule)
  (caches : Caches Number Schema Ast Issue Input Result Variables maxCacheSize) (request : Request Number Schema)

/-- The key as the cache has it. An object that came with a request is a new one. -/
def Caches.storeKey : Option (Key Number) →
    Caches Number Schema Ast Issue Input Result Variables maxCacheSize × StoreKey Number
  | some key => (caches, .primitive key)
  | none => ({ caches with allocated := caches.allocated + 1 }, .object caches.allocated)

/-- `onParse`, with the hook that runs after, and the texts parsed. -/
def onParse : Caches Number Schema Ast Issue Input Result Variables maxCacheSize ×
    Except JsError (DocumentNode Ast) × List String :=
  let picked := pickDocumentCache request.extensions request.source
  let keyed := caches.storeKey picked.2
  match (keyed.1.stores picked.1).get keyed.2 with
  | (store, some cached) =>
    ({ keyed.1 with stores := Function.update keyed.1.stores picked.1 store }, cached, [])
  | (_, none) =>
    let parsed := instrumentedParse libraries request.source keyed.1
    (parsed.1.set picked.1 keyed.2 parsed.2, parsed.2, [request.source])

/-- A request is parsed, and its document is validated. -/
def serve : Caches Number Schema Ast Issue Input Result Variables maxCacheSize × Work Schema Ast :=
  match onParse libraries caches request with
  | (caches, .error error, parses) => (caches, ⟨parses, [], .error error⟩)
  | (caches, .ok document, parses) =>
    ({ caches with
        validationCache :=
          (onValidate libraries.validator registered caches.validationCache request.schema document).1 },
      ⟨parses, if (caches.validationCache.get request.schema document).isSome then [] else [request.schema],
        .ok document⟩)

end Requests

/-- The requests after `useUnifiedCaching`, from the caches it leaves. -/
def machine (libraries : Libraries Schema Ast Rule Issue Operation Input Result Variables) (registered : List Rule)
    (caches : Caches Number Schema Ast Issue Input Result Variables maxCacheSize) :
    Machine (Caches Number Schema Ast Issue Input Result Variables maxCacheSize) (Request Number Schema)
      (Work Schema Ast) where
  start := caches
  step caches request :=
    let served := serve libraries registered caches request
    (served.1, [served.2])

end Taql.Prewarming
