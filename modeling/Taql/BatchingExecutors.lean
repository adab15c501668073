import Taql.Executors
import Taql.MergedExtensions
import Taql.SubBatches

/-! `packages/batching/src/executors.ts`: the data loader in front of a
strategy, and how a subgraph is called for a sub-batch in each of the styles. The
loader itself is a dependency, of which only this is used: it gathers keys in order,
no more than its options allow, and settles each key from the array its batch
function resolves to. -/
namespace Taql.BatchingExecutors
open BatchByKey BatchingContext Context Deadlines Executors GroupingProofs Headers JavaScript MergedExtensions
open Strategies SubBatches

/-- How one key of a load is settled. A key may be fulfilled with undefined. -/
inductive Settled (R : Type) where
  | fulfilled (value : Option R)
  | rejected (error : JsError)
  deriving DecidableEq, Repr

/-- An `Error` in the array rejects its own key only. -/
def Settled.ofValue : Option (Except JsError R) → Settled R
  | some (.ok value) => .fulfilled (some value)
  | some (.error error) => .rejected error
  | none => .fulfilled none

/-- The keys of one dispatch. An array of another length than the keys, like a
rejection, fails every one of them; `mismatch` is the error raised for it. -/
def dispatch (mismatch : JsError) (keys : Nat) (values : Except JsError (List (Option (Except JsError R)))) :
    List (Settled R) :=
  match values with
  | .error error => List.replicate keys (.rejected error)
  | .ok values =>
    if values.length = keys then values.map Settled.ofValue else List.replicate keys (.rejected mismatch)

variable {runtime : Runtime} {R : Type}

/-- One dispatch of the loader `createBatchingExecutor` builds: the requests of
the dispatch are its keys, and the results the executor decodes from a body
are never `Error` instances. -/
def loadBatch (mismatch : JsError) (strategy : BatchingStrategy) (executor : TaqlBatchLoader R)
    (config : BatchingConfig) (state : PrivateState runtime) (requests : List TaqlRequest) : List (Settled R) :=
  dispatch mismatch requests.length
    ((STRATEGIES strategy executor config state requests).outcome.map fun results => results.map (Option.map .ok))

/-- The answer to the `number`-th sub-batch. -/
def answers (strategy : BatchingStrategy) (executor : TaqlBatchLoader R) (config : BatchingConfig)
    (state : PrivateState runtime) (requests : List TaqlRequest) : List (Settling (List R)) :=
  ((subBatches strategy config state requests).map strategy.toArgs).mapIdx fun number args => executor number args

theorem loadBatch_eq (mismatch : JsError) (strategy : BatchingStrategy) (executor : TaqlBatchLoader R)
    (config : BatchingConfig) (state : PrivateState runtime) (requests : List TaqlRequest) :
    loadBatch mismatch strategy executor config state requests = dispatch mismatch requests.length
      (((promiseAll (answers strategy executor config state requests)).bind
        (restoreOrder (subBatches strategy config state requests))).map
          fun results => results.map (Option.map .ok)) := by
  rw [loadBatch, outcome_eq]
  rfl

/-! ### Legacy endpoints -/

/-- What the batched endpoint of a legacy subgraph is sent. -/
structure LegacyBody (F : Type) where
  requests : List F
  requestContext : Option LegacyContext

/-- The `request` of `makeLegacyGqlExecutor`: the context is taken from the
first request. -/
def legacyBody (requestFormatter : TaqlRequest → F) (requests : List TaqlRequest) : LegacyBody F where
  requests := requests.map requestFormatter
  requestContext := (requests.head?.bind TaqlRequest.taql).map TaqlContext.legacyContext

/-! ### Styles

The Array and Legacy styles send the headers the strategy hands over; the Single style
sends a merged request, and those of its context. -/

inductive BatchStyle where
  | Single
  | Array
  | Legacy
  deriving DecidableEq, Repr

/-- The request objects behind the parts of them that the strategies read. -/
structure Executions where
  of : TaqlRequest → ExecutionRequest
  taql : ∀ request, (of request).context.bind TaqlState.taql = request.taql

def readOfUndefined : JsError := ⟨"TypeError", "Cannot read properties of undefined (reading 'operationType')"⟩

/-- The load function `createLoadFn` makes of an executor: one request is executed as
it is, several are merged first. -/
def createLoadFn (executor : ExecutionRequest → Except JsError R) : List ExecutionRequest → Except JsError R
  | [] => .error readOfUndefined
  | [request] => executor request
  | first :: rest => do executor (← mergeRequests first rest)

/-- The fetch for one call of the executor a style hands to the strategy. `subgraph`
is what that executor is made with, the rewritten configuration for Legacy. -/
def fetchFor (executions : Executions) (style : BatchStyle) (params : TimeoutParams) (subgraph : SubgraphConfig)
    (now : Int) (args : LoaderArgs) : Except JsError Fetch :=
  let requests := args.request.map executions.of
  match style with
  | .Single => createLoadFn (makeRemoteExecutor params subgraph now) requests
  | .Array | .Legacy => arrayLoader params subgraph now requests (args.forwardHeaders.getD [])

/-- The same fetch if no headers were forwarded: what the gateway sends of its own. -/
def ownFetch (executions : Executions) (style : BatchStyle) (params : TimeoutParams) (subgraph : SubgraphConfig)
    (now : Int) (args : LoaderArgs) : Except JsError Fetch :=
  let requests := args.request.map executions.of
  match style with
  | .Single =>
    createLoadFn (fun request => bindLoad params subgraph (fun request => .ok (getDeadline request))
      upstreamHeadersFromContext now request []) requests
  | .Array | .Legacy => arrayLoader params subgraph now requests []

/-- The headers of a request, none without a context. -/
def forwarded (request : TaqlRequest) : TaqlHeaders := (request.taql.map TaqlContext.forwardHeaders).getD []

end Taql.BatchingExecutors
