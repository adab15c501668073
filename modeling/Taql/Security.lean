import Taql.Documents
import Taql.Headers

/-! `packages/security/src/index.ts`, and the order of the plugins in
`packages/server/src/useYoga.ts`: a request passes the security plugin, then the
automatic persisted queries, then the preregistered queries, and is parsed. -/
namespace Taql.Security
open Documents Headers JavaScript Prereg Runs Stores

variable {Number Document : Type} {hash : String → String}

/-- `SECURITY`. -/
structure SecurityConfig where
  trustByDefault : Bool
  runUntrustedOperations : Bool

/-- A request as the client sent it. -/
structure Request (Number : Type) where
  headers : GenericHeaders
  query : Option String
  extensions : Extensions Number

def trustClient (security : SecurityConfig) (headers : Option GenericHeaders) : Bool :=
  getHeaderOrDefault id headers "x-taql-trust-client" (if security.trustByDefault then "true" else "false") = "true"

def arbitraryOperation : JsError :=
  ⟨"GraphQLError", "Arbitrary operations not available to untrusted clients"⟩

variable [DecidableEq Number]

/-- `onParams` of `useTaqlSecurity`, which installs nothing where untrusted
operations may run: the query and the extensions it leaves. A query may repeat
the id. -/
def useTaqlSecurity (security : SecurityConfig) (request : Request Number) :
    Except JsError (Option String × Extensions Number) :=
  if security.runUntrustedOperations || trustClient security (some request.headers) then
    .ok (request.query, request.extensions)
  else
    let preRegisteredQueryId := request.extensions.preRegisteredQueryId
    if request.query.any fun query => query ≠ "" ∧ preRegisteredQueryId ≠ some (.string query) then
      .error arbitraryOperation
    else .ok (none, ⟨preRegisteredQueryId, none, none⟩)

variable [Zero Number] [One Number]

/-- The automatic persisted queries: a digest of the form they know is compared
with the query, or answered from the store, which holds texts under their own
digests. -/
def useAPQ (hash : String → String) (stored : Option String) (query : Option String) (extensions : Extensions Number) :
    Option (Params Number hash) :=
  match known : extensions.digest with
  | none => some ⟨query, extensions, by simp [known]⟩
  | some digest =>
    let text := query.or stored
    if same : text.map hash = some digest then some ⟨text, extensions, by simp [known, same]⟩ else none

/-- What reaches the preregistered queries of a request, if it gets that far. -/
def admitted (security : SecurityConfig) (hash : String → String) (stored : Option String) (request : Request Number) :
    Option (Params Number hash) :=
  (useTaqlSecurity security request).toOption.bind fun left => useAPQ hash stored left.1 left.2

/-- Requests arrive, with what the persisted queries store and the ids known by
then; everything else is as for the documents, where prewarming the preregistered
queries reads the database. -/
inductive ClientEvent (Number : Type) where
  | receive (request : Request Number) (stored : Option String) (knownQueries : List String)
  | lookedUp (index : Nat) (found : Bool)
  | parse (index : Nat)
  | preload (id : String)
  | prewarmPreregistered (id : String)
  | prewarmPersisted (id query : String)
  | evictQuery (key : Key Number)
  | evictDocument (store : StoreName) (key : Key Number)

/-- What an event is to the plugins after the persisted queries. -/
def ClientEvent.inner (security : SecurityConfig) (texts : Texts Number Document) (hash : String → String) :
    ClientEvent Number → Option (ServerEvent Number hash)
  | .receive request stored knownQueries =>
    (admitted security hash stored request).map fun params => .receive params knownQueries
  | .lookedUp index found => some (.lookedUp index found)
  | .parse index => some (.parse index)
  | .preload id => some (.preload id)
  | .prewarmPreregistered id => (texts.registered (.string id)).map (.prewarm .preregistered id)
  | .prewarmPersisted id query => some (.prewarm .persisted id query)
  | .evictQuery key => some (.evictQuery key)
  | .evictDocument store key => some (.evictDocument store key)

/-- The whole chain of plugins. A request that is refused early leaves nothing. -/
def machine (security : SecurityConfig) (texts : Texts Number Document) (hash : String → String) :
    Machine (ServerState Number Document hash) (ClientEvent Number) (Answer Number Document hash) where
  start := (Documents.machine texts hash).start
  step state event :=
    (event.inner security texts hash).elim (state, []) ((Documents.machine texts hash).step state)

end Taql.Security
