import Mathlib.Logic.Function.Basic
import Taql.JavaScript
import Taql.Windows

/-! `packages/batching/src/utils.ts`: a list of values is broken into batches,
and the answers of the batches are put back in the order of the values. -/
namespace Taql.BatchByKey
open JavaScript

variable {σ T V U : Type}

/-- A value, with the index at which it appeared in the input. -/
structure BatchEntry (T : Type) where
  val : T
  idx : Nat
  deriving DecidableEq, Repr

structure Clustering (T : Type) where
  /-- Orders the items of a batch before it is broken into clusters. -/
  comparator : Option (T → T → JsNumber)
  /-- Compares an item with the first item of the open cluster. -/
  clusterable : T → T → Bool

/-- `σ` is the state the caller's methods read and write: `subBatchIdFn` may
draw a fresh symbol or fill a memo table, and `subBatchEqFn` reads what is
there once every key has been computed. -/
structure BatchingOptions (σ T V U : Type) where
  subBatchIdFn : σ → T → V × σ
  subBatchEqFn : Option (σ → T → T → Bool)
  seriesIdFn : Option (T → U)
  clustering : Option (Clustering T)
  maxSize : Option Nat

/-! ### Batches by series, key and comparison -/

/-- `results`, and `ids` from a key to its candidate batches. A batch is shared
by both in the source; here a candidate is its position in `results`. -/
structure Grouping (T V U : Type) where
  results : List (List (BatchEntry T))
  ids : V → List Nat
  series : Option U
  idx : Nat

/-- `seriesIdFn?.(val)`. -/
def seriesOf (seriesIdFn : Option (T → U)) (val : T) : Option U := seriesIdFn.map fun seriesId => seriesId val

def Grouping.empty : Grouping T V U := ⟨[], fun _ => [], none, 0⟩

section Grouping
variable [DecidableEq V] [DecidableEq U]

/-- A changed series id clears the key-to-batch map, which freezes the
existing batches. -/
def Grouping.enter (state : Grouping T V U) (series : Option U) : Grouping T V U :=
  { state with series, ids := if state.series = series then state.ids else fun _ => [] }

/-- `batchIdx`: the first candidate without a comparison, otherwise what
`findIndex` answers, `none` standing for -1. -/
def Grouping.batchIdx (state : Grouping T V U) (subBatchEqFn : Option (T → T → Bool))
    (val : T) (key : V) : Option Nat :=
  match subBatchEqFn with
  | none => some 0
  | some equal => (state.ids key).findIdx? fun batch =>
      (state.results[batch]?.bind List.head?).any fun first => equal first.val val

/-- The candidates once a full batch is removed from further consideration.
Those after it move up, so `batchIdx` may then name another batch. -/
def Grouping.dropFull (state : Grouping T V U) (maxSize : Option Nat) (key : V) (found : Option Nat) : List Nat :=
  match maxSize, found with
  | some maxSize, some position =>
    if ((state.ids key)[position]?.bind (state.results[·]?)).any fun batch => maxSize ≤ batch.length then
      (state.ids key).eraseIdx position
    else state.ids key
  | _, _ => state.ids key

/-- The body of the `forEach` over the keyed values. -/
def Grouping.add (subBatchEqFn : Option (T → T → Bool)) (seriesIdFn : Option (T → U)) (maxSize : Option Nat)
    (state : Grouping T V U) (keyed : T × V) : Grouping T V U :=
  let state := state.enter (seriesOf seriesIdFn keyed.1)
  let found := state.batchIdx subBatchEqFn keyed.1 keyed.2
  let candidates := state.dropFull maxSize keyed.2 found
  let entry : BatchEntry T := ⟨keyed.1, state.idx⟩
  match found.bind (candidates[·]?) with
  | some batch =>
    { state with
      results := state.results.modify batch (· ++ [entry])
      ids := Function.update state.ids keyed.2 candidates
      idx := state.idx + 1 }
  | none =>
    { state with
      results := state.results ++ [[entry]]
      ids := Function.update state.ids keyed.2 (candidates ++ [state.results.length])
      idx := state.idx + 1 }

def group (subBatchEqFn : Option (T → T → Bool)) (seriesIdFn : Option (T → U)) (maxSize : Option Nat)
    (keyed : List (T × V)) : Grouping T V U :=
  keyed.foldl (Grouping.add subBatchEqFn seriesIdFn maxSize) Grouping.empty

end Grouping

/-! ### Clusters -/

/-- The items of a batch in the order they are scanned. -/
def Clustering.ordered (sorting : ArraySort) (clustering : Clustering T) (batch : List (BatchEntry T)) :
    List (BatchEntry T) :=
  match clustering.comparator with
  | some comparator => sorting.sort (fun lhs rhs => comparator lhs.val rhs.val) batch
  | none => batch

def Clustering.fits (clustering : Clustering T) (base update : BatchEntry T) : Bool :=
  clustering.clusterable base.val update.val

/-- `clusters` after the scan: a cluster is pushed when an item is refused by
it, so the cluster still open at the end is not among them. -/
def Clustering.clusters (sorting : ArraySort) (clustering : Clustering T) (batch : List (BatchEntry T)) :
    List (List (BatchEntry T)) :=
  (Windows.scan clustering.fits (clustering.ordered sorting batch)).1

/-- `results.splice(i, 1, ...replacement)`. -/
def splice (results : List α) (i : Nat) (replacement : List α) : List α :=
  results.take i ++ replacement ++ results.drop (i + 1)

/-- The loop over the batches below `i`, last first, so that a replacement
leaves the positions still to come where they are. -/
def Clustering.replaceBelow (sorting : ArraySort) (clustering : Clustering T) :
    Nat → List (List (BatchEntry T)) → List (List (BatchEntry T))
  | 0, results => results
  | i + 1, results =>
    let clusters := clustering.clusters sorting (results[i]?.getD [])
    clustering.replaceBelow sorting i (if 1 < clusters.length then splice results i clusters else results)

/-! ### The two exports -/

/-- `vals.map((val) => ({ val, key: subBatchIdFn(val) }))`. -/
def keyAll (subBatchIdFn : σ → T → V × σ) : σ → List T → List (T × V) × σ
  | state, [] => ([], state)
  | state, val :: vals =>
    let keyed := subBatchIdFn state val
    let rest := keyAll subBatchIdFn keyed.2 vals
    ((val, keyed.1) :: rest.1, rest.2)

/-- The batches before clustering. A single value is not even given a key. -/
def batches [DecidableEq V] [DecidableEq U] (options : BatchingOptions σ T V U) (state : σ) (vals : List T) :
    List (List (BatchEntry T)) × σ :=
  match vals with
  | [val] => ([[⟨val, 0⟩]], state)
  | vals =>
    let keyed := keyAll options.subBatchIdFn state vals
    ((group (options.subBatchEqFn.map (· keyed.2)) options.seriesIdFn options.maxSize keyed.1).results, keyed.2)

/-- `batchByKey(vals, options)`, with the caller's state before and after. -/
def batchByKey [DecidableEq V] [DecidableEq U] (sorting : ArraySort) (options : BatchingOptions σ T V U)
    (state : σ) (vals : List T) : List (List (BatchEntry T)) × σ :=
  match vals with
  | [val] => ([[⟨val, 0⟩]], state)
  | vals =>
    let results := batches options state vals
    match options.clustering with
    | none => results
    | some clustering => (clustering.replaceBelow sorting results.1.length results.1, results.2)

/-- Reading `idx` of an absent entry. -/
def noEntry : JsError := ⟨"TypeError", "Cannot read properties of undefined (reading 'idx')"⟩

/-- `orderedResults[order[idx].idx] = result`. -/
def place (order : List (BatchEntry T)) (orderedResults : List (Option V)) (result : V × Nat) :
    Except JsError (List (Option V)) :=
  match order[result.2]? with
  | some entry => .ok (assign orderedResults entry.idx result.1)
  | none => .error noEntry

/-- `restoreOrder(batches, flattenedResults)`: position `k` of the flattened
results is written where the `k`-th entry of the flattened batches says. -/
def restoreOrder (batches : List (List (BatchEntry T))) (flattenedResults : List (List V)) :
    Except JsError (List (Option V)) :=
  flattenedResults.flatten.zipIdx.foldlM (place batches.flatten) (List.replicate batches.flatten.length none)

end Taql.BatchByKey
