import Taql.BatchByKey
import Taql.BatchingContext

/-! `packages/batching/src/strategies.ts`: three ways to break the requests of
one load into sub-batches for a subgraph. -/
namespace Taql.Strategies
open JavaScript Headers Context BatchingContext BatchByKey

inductive OperationType where
  | query
  | mutation
  | subscription
  deriving DecidableEq, Repr

/-- `ref` tells request objects apart, so that equality of records is identity
of objects; `operation` is that of the operation the request selects. -/
structure TaqlRequest where
  ref : Nat
  operation : OperationType
  taql : Option TaqlContext
  deriving DecidableEq, Repr

/-- The batching configuration, once resolved. -/
structure BatchingConfig where
  waitMillis : Int
  maxSize : Option Nat

/-- A sub-batch id: a hash, a symbol, or the constant 0. -/
inductive SubBatchId where
  | hash (value : String)
  | symbol (number : Nat)
  | zero
  deriving DecidableEq, Repr

def TaqlRequest.deadline? (request : TaqlRequest) : Option JsNumber := request.taql.map TaqlContext.deadline

def seriesIdFn (request : TaqlRequest) : OperationType := request.operation

/-- A missing deadline sorts as 0 but fits no cluster. -/
def makeDeadlineClustering (config : BatchingConfig) : Clustering TaqlRequest where
  comparator := some fun lhs rhs => .sub (lhs.deadline?.getD (.num 0)) (rhs.deadline?.getD (.num 0))
  clusterable base update :=
    ((update.deadline?.getD .nan).sub (base.deadline?.getD .nan)).lt (.num config.waitMillis)

/-! ### Sub-batch ids and comparison -/

variable {runtime : Runtime}

abbrev Options (runtime : Runtime) := BatchingOptions (PrivateState runtime) TaqlRequest SubBatchId OperationType

/-- `Symbol()`, which no other value matches. -/
def freshId (state : PrivateState runtime) : SubBatchId × PrivateState runtime :=
  (.symbol state.drawSymbol.1, state.drawSymbol.2)

def byRequestId (state : PrivateState runtime) (request : TaqlRequest) : SubBatchId × PrivateState runtime :=
  match request.taql with
  | some ctx => (.symbol (state.requestUnique ctx).1, (state.requestUnique ctx).2)
  | none => freshId state

/-- An empty hash is falsy, so a symbol takes its place. -/
def byHeadersId (state : PrivateState runtime) (request : TaqlRequest) : SubBatchId × PrivateState runtime :=
  match request.taql with
  | some ctx =>
    let hash := state.batchByHeadersHash ctx
    if hash.1 = "" then freshId hash.2 else (.hash hash.1, hash.2)
  | none => freshId state

/-- Lists that are one object are equal item by item, so only two undefined
lists need the direct check. -/
def headersEqual : Option BatchHeaders → Option BatchHeaders → Bool
  | none, none => true
  | some lhs, some rhs =>
    lhs.length == rhs.length && (lhs.zip rhs).all fun pair => pair.1.1 == pair.2.1 && pair.1.2 == pair.2.2
  | _, _ => false

def byHeadersEq (state : PrivateState runtime) (lhs rhs : TaqlRequest) : Bool :=
  lhs = rhs || headersEqual (lhs.taql.map fun ctx => (state.batchByHeaders ctx).1)
    (rhs.taql.map fun ctx => (state.batchByHeaders ctx).1)

def byRequestOptions (config : BatchingConfig) : Options runtime where
  subBatchIdFn := byRequestId
  subBatchEqFn := none
  seriesIdFn := some seriesIdFn
  clustering := some (makeDeadlineClustering config)
  maxSize := config.maxSize

def byHeadersOptions (config : BatchingConfig) : Options runtime where
  subBatchIdFn := byHeadersId
  subBatchEqFn := some byHeadersEq
  seriesIdFn := some seriesIdFn
  clustering := some (makeDeadlineClustering config)
  maxSize := config.maxSize

/-- Every request has one id here, and the series of a request plays no part. -/
def insecureOptions (config : BatchingConfig) : Options runtime where
  subBatchIdFn state _ := (.zero, state)
  subBatchEqFn := none
  seriesIdFn := none
  clustering := some (makeDeadlineClustering config)
  maxSize := config.maxSize

/-! ### What the executor is handed -/

/-- The argument of a `TaqlBatchLoader`. -/
structure LoaderArgs where
  request : List TaqlRequest
  forwardHeaders : Option TaqlHeaders
  clientName : Option String
  deriving DecidableEq, Repr

/-- The headers and the client of the first request stand for all. -/
def firstArgs (subBatch : List (BatchEntry TaqlRequest)) : LoaderArgs :=
  let first := subBatch.head?.bind fun sub => sub.val.taql
  ⟨subBatch.map BatchEntry.val, first.map TaqlContext.forwardHeaders, first.map TaqlContext.client⟩

def insecureAllowedHeaders : List String :=
  ["x-guid", "x-request-id", "x-unique-id", "x-ta-unique-dec", "x-service-overrides"]

/-- Adds the values of one header to the set collected for its name. -/
def collectHeader (acc : TaqlHeaders) (next : String × List String) : TaqlHeaders :=
  if acc.any fun entry => entry.1 = next.1 then
    acc.map fun entry => if entry.1 = next.1 then (entry.1, (entry.2 ++ next.2).eraseDups) else entry
  else acc ++ [(next.1, next.2.eraseDups)]

def mergeInsecureHeaders (requests : List TaqlRequest) : TaqlHeaders :=
  let pairs := requests.flatMap fun request => entries ((request.taql.map TaqlContext.forwardHeaders).getD [])
  entries ((pairs.filter fun entry => insecureAllowedHeaders.contains entry.1).foldl collectHeader [])

/-- A client is named only when there is one name among the requests. -/
def insecureArgs (subBatch : List (BatchEntry TaqlRequest)) : LoaderArgs :=
  let request := subBatch.map BatchEntry.val
  let clientNames := ((request.filterMap fun r => r.taql.map TaqlContext.client).filter (· ≠ "")).eraseDups
  ⟨request, some (mergeInsecureHeaders request), if clientNames.length = 1 then clientNames.head? else none⟩

/-! ### The strategies -/

/-- A loader under a strategy, given the number of the call and its argument.
It may answer equal arguments differently. -/
abbrev TaqlBatchLoader (V : Type) := Nat → LoaderArgs → Settling (List V)

structure Loaded (runtime : Runtime) (V : Type) where
  calls : List LoaderArgs
  outcome : Except JsError (List (Option V))
  state : PrivateState runtime

/-- The body the strategies share: break the requests into sub-batches, call
the executor on each, await all the calls, and restore the order. -/
def load {V : Type} (options : Options runtime) (toArgs : List (BatchEntry TaqlRequest) → LoaderArgs)
    (executor : TaqlBatchLoader V) (state : PrivateState runtime) (requests : List TaqlRequest) : Loaded runtime V :=
  let batched := batchByKey runtime.sorting options state requests
  let calls := batched.1.map toArgs
  ⟨calls, (promiseAll (calls.mapIdx fun number args => executor number args)).bind (restoreOrder batched.1), batched.2⟩

def byRequestStrategy {V : Type} (executor : TaqlBatchLoader V) (config : BatchingConfig) :
    PrivateState runtime → List TaqlRequest → Loaded runtime V :=
  load (byRequestOptions config) firstArgs executor

def byHeadersStrategy {V : Type} (executor : TaqlBatchLoader V) (config : BatchingConfig) :
    PrivateState runtime → List TaqlRequest → Loaded runtime V :=
  load (byHeadersOptions config) firstArgs executor

def insecureStrategy {V : Type} (executor : TaqlBatchLoader V) (config : BatchingConfig) :
    PrivateState runtime → List TaqlRequest → Loaded runtime V :=
  load (insecureOptions config) insecureArgs executor

inductive BatchingStrategy where
  | Request
  | Headers
  | Insecure
  deriving DecidableEq, Repr

def STRATEGIES {V : Type} : BatchingStrategy → TaqlBatchLoader V → BatchingConfig →
    PrivateState runtime → List TaqlRequest → Loaded runtime V
  | .Request => byRequestStrategy
  | .Headers => byHeadersStrategy
  | .Insecure => insecureStrategy

def BatchingStrategy.options (config : BatchingConfig) : BatchingStrategy → Options runtime
  | Request => byRequestOptions config
  | Headers => byHeadersOptions config
  | Insecure => insecureOptions config

def BatchingStrategy.toArgs : BatchingStrategy → List (BatchEntry TaqlRequest) → LoaderArgs
  | Request | Headers => firstArgs
  | Insecure => insecureArgs

/-- The strategies differ in the options of the batching and in what they tell
the executor about a sub-batch. -/
theorem STRATEGIES_eq (strategy : BatchingStrategy) :
    (STRATEGIES strategy : TaqlBatchLoader V → BatchingConfig → PrivateState runtime → _) =
      fun executor config => load (strategy.options config) strategy.toArgs executor := by
  cases strategy <;> rfl

end Taql.Strategies
