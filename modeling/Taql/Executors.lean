import Taql.MergedExtensions

/-! `packages/executors/src/index.ts`: how a subgraph is called, for one request or
for a batch of them, and how long it may take. -/
namespace Taql.Executors
open Context Deadlines Headers JavaScript MergedExtensions

/-- `UPSTREAM_TIMEOUT_PARAMS`, each a non-negative integer. -/
structure UpstreamTimeoutParams where
  upstreamTimeoutPaddingMillis : Nat
  upstreamTimeoutPaddingThreshold : Nat
  softMaxUpstreamTimeoutMillis : Nat
  hardMaxUpstreamTimeoutMillis : Nat

/-- The configuration of the timeouts: that of the fetches, and
`executionPaddingMillis`. -/
structure TimeoutParams where
  upstream : UpstreamTimeoutParams
  executionPaddingMillis : Nat

/-- What is used of a subgraph's configuration; `accessToken` is what its
provider answers, if it has one. -/
structure SubgraphConfig where
  url : String
  maxTimeoutMillis : Option Int
  accessToken : Option String

/-- `now` is what `Date.now()` answers. -/
def computeTimeout (params : TimeoutParams) (now : Int) (maxTimeout : JsNumber) : Option JsNumber → JsNumber
  | none => maxTimeout
  | some deadline => .min maxTimeout (.sub (.sub deadline (.num now)) (.num params.executionPaddingMillis))

/-! ### The headers of a fetch -/

/-- `headers.append`: names are valid, and in lower case as they are sent. -/
def append (headers : List (String × String)) (name value : String) : List (String × String) :=
  headers ++ [(name, value)]

/-- `headers.set`. -/
def set (headers : List (String × String)) (name value : String) : List (String × String) :=
  headers.filter (fun header => header.1 ≠ name) ++ [(name, value)]

def has (headers : List (String × String)) (name : String) : Bool := headers.any fun header => header.1 = name

/-- `headers.get`, which joins the values of a repeated name. -/
def get (headers : List (String × String)) (name : String) : Option String :=
  (GenericHeaders.collection headers).find name

/-- What is sent: with `timeout`, the fetch is given up after that many milliseconds. -/
structure Fetch where
  url : String
  headers : List (String × String)
  timeout : JsNumber

def noTimeRemaining (subgraph : SubgraphConfig) : JsError :=
  ⟨"Error", "Skipping upstream request to " ++ subgraph.url ++ ". No time remaining."⟩

/-- The timeout the upstream is told, which leaves time for the network. -/
def paddedTimeout (params : TimeoutParams) (timeout : JsNumber) : JsNumber :=
  .max (.num params.upstream.upstreamTimeoutPaddingThreshold)
    (.sub timeout (.num params.upstream.upstreamTimeoutPaddingMillis))

/-- `load`, up to the fetch. -/
def load (params : TimeoutParams) (subgraph : SubgraphConfig) (timeout : JsNumber) (forwardHeaders : TaqlHeaders)
    (upstreamHeaders : List (String × String)) : Except JsError Fetch :=
  let forwarded := (entries forwardHeaders).foldl
    (fun headers entry => entry.2.foldl (fun headers value => append headers entry.1 value) headers) []
  let attributed := upstreamHeaders.foldl (fun headers entry => set headers entry.1 entry.2) forwarded
  if timeout.lt (.num 0) then .error (noTimeRemaining subgraph)
  else
    let authorized := subgraph.accessToken.elim attributed fun token =>
      set attributed "x-oidc-authorization" ("Bearer " ++ token)
    let ready :=
      if has authorized "x-trip-iat" then authorized
      else (get authorized "authorization").elim authorized (set authorized "x-trip-iat")
    let timed := set ready "x-timeout" (paddedTimeout params timeout).render
    .ok ⟨subgraph.url, set timed "content-type" "application/json", timeout⟩

/-- The most a subgraph is given, whatever its configuration says. -/
def maxTimeout (params : TimeoutParams) (subgraph : SubgraphConfig) : JsNumber :=
  .min (.num params.upstream.hardMaxUpstreamTimeoutMillis)
    (.num (subgraph.maxTimeoutMillis.getD params.upstream.softMaxUpstreamTimeoutMillis))

/-- The function `bindLoad` makes for a subgraph; `getDeadline` may throw. -/
def bindLoad (params : TimeoutParams) (subgraph : SubgraphConfig) (getDeadline : T → Except JsError (Option JsNumber))
    (getUpstreamHeaders : T → List (String × String)) (now : Int) (request : T) (forwardHeaders : TaqlHeaders) :
    Except JsError Fetch := do
  let deadline ← getDeadline request
  load params subgraph (computeTimeout params now (maxTimeout params subgraph) deadline) forwardHeaders
    (getUpstreamHeaders request)

/-- The call of a subgraph for one request, which may be a merged one. -/
def makeRemoteExecutor (params : TimeoutParams) (subgraph : SubgraphConfig) (now : Int) (request : ExecutionRequest) :
    Except JsError Fetch :=
  bindLoad params subgraph (fun request => .ok (getDeadline request)) upstreamHeadersFromContext now request
    ((request.context.bind TaqlState.taql).elim [] TaqlContext.forwardHeaders)

/-- The call for a batch, in the Array and Legacy styles. -/
def arrayLoader (params : TimeoutParams) (subgraph : SubgraphConfig) (now : Int) (requests : List ExecutionRequest)
    (forwardHeaders : TaqlHeaders) : Except JsError Fetch :=
  bindLoad params subgraph pickDeadline mergeUpstreamHeaders now requests forwardHeaders

end Taql.Executors
