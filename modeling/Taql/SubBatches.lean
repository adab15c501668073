import Taql.ClusteringProofs
import Taql.Strategies

/-! What a strategy hands to the executor, whichever strategy it is: each batch
of the grouping stage is replaced by its deadline clusters, and the requests of
a call are those of its sub-batch. -/
namespace Taql.SubBatches
open JavaScript Headers Context BatchingContext BatchByKey Strategies GroupingProofs ClusteringProofs

/-! ### Requests for the examples -/

/-- A query that forwards no headers. -/
def plainRequest (ref : Nat) (deadline : Int) : TaqlRequest :=
  ⟨ref, .query, some ⟨ref, [], .num deadline, ⟨"en-US", false, none, none⟩, none, "unknown"⟩⟩

/-- A query that forwards one user's authorization. -/
def userRequest (ref : Nat) (user : String) : TaqlRequest :=
  ⟨ref, .query, some ⟨ref, [("authorization", [user])], .num 0, ⟨"en-US", false, none, none⟩, none, "unknown"⟩⟩

def plainRuntime : Runtime := ⟨insertionSort, fun _ _ => 0, fun _ => "digest"⟩

abbrev plainState : PrivateState plainRuntime := PrivateState.empty

/-- The executor that answers each request by `answer`. -/
def answering (answer : TaqlRequest → V) : TaqlBatchLoader V := fun _ args => ⟨0, .ok (args.request.map answer)⟩

/-! ### Runs of one operation type -/

def operationAt (requests : List TaqlRequest) (k : Nat) : Option OperationType :=
  requests[k]?.map TaqlRequest.operation

/-- From one position of the input to another, every request has one operation type. -/
def SameRun (requests : List TaqlRequest) (one other : Nat) : Prop :=
  ∀ k ≤ max one other, min one other ≤ k → operationAt requests k = operationAt requests one

instance (requests : List TaqlRequest) (one other : Nat) : Decidable (SameRun requests one other) :=
  inferInstanceAs (Decidable (∀ k ≤ max one other, _))

theorem sameRun_equivalence (requests : List TaqlRequest) : Equivalence (SameRun requests) where
  refl one k high low := by
    obtain rfl : k = one := by omega
    rfl
  symm := by
    intro one other run k high low
    have others := run other (Nat.le_max_right _ _) (Nat.min_le_right _ _)
    rw [others]
    exact run k (by omega) (by omega)
  trans := by
    intro one between other first second k high low
    have middle := first between (Nat.le_max_right _ _) (Nat.min_le_right _ _)
    by_cases near : k ≤ max one between ∧ min one between ≤ k
    · exact first k near.1 near.2
    · rw [← middle]
      exact second k (by omega) (by omega)

/-- The series of a request is its operation type. -/
theorem seriesAt_keyAll {runtime : Runtime}
    (subBatchIdFn : PrivateState runtime → TaqlRequest → SubBatchId × PrivateState runtime)
    (state : PrivateState runtime) (requests : List TaqlRequest) (k : Nat) :
    seriesAt (some seriesIdFn) (keyAll subBatchIdFn state requests).1 k = operationAt requests k := by
  have vals := congrArg (·[k]?) (keyAll_vals subBatchIdFn state requests)
  simp only [List.getElem?_map] at vals
  rw [operationAt, ← vals, seriesAt]
  cases (keyAll subBatchIdFn state requests).1[k]? <;> rfl

/-! ### Batches and sub-batches -/

variable {runtime : Runtime} {V : Type} (strategy : BatchingStrategy) (config : BatchingConfig)
  (state : PrivateState runtime) (requests : List TaqlRequest)

/-- The batches before they are broken into deadline clusters. -/
def batched : List (List (BatchEntry TaqlRequest)) := (batches (strategy.options config) state requests).1

/-- The sub-batches handed to the executor. -/
def subBatches : List (List (BatchEntry TaqlRequest)) :=
  (batchByKey runtime.sorting (strategy.options config) state requests).1

theorem calls_eq (executor : TaqlBatchLoader V) :
    (STRATEGIES strategy executor config state requests).calls =
      (subBatches strategy config state requests).map strategy.toArgs := by
  rw [STRATEGIES_eq]
  rfl

theorem outcome_eq (executor : TaqlBatchLoader V) :
    (STRATEGIES strategy executor config state requests).outcome =
      (promiseAll (((subBatches strategy config state requests).map strategy.toArgs).mapIdx
        fun number args => executor number args)).bind (restoreOrder (subBatches strategy config state requests)) := by
  rw [STRATEGIES_eq]
  rfl

theorem toArgs_request (subBatch : List (BatchEntry TaqlRequest)) :
    (strategy.toArgs subBatch).request = subBatch.map BatchEntry.val := by
  cases strategy <;> rfl

theorem mem_toArgs {subBatch : List (BatchEntry TaqlRequest)} {request : TaqlRequest} :
    request ∈ (strategy.toArgs subBatch).request ↔ ∃ entry ∈ subBatch, entry.val = request := by
  rw [toArgs_request]
  exact List.mem_map

theorem subBatches_eq :
    subBatches strategy config state requests = (batched strategy config state requests).flatMap
      (replacement runtime.sorting (makeDeadlineClustering config)) := by
  apply batchByKey_eq
  cases strategy <;> rfl

theorem mem_subBatches {subBatch : List (BatchEntry TaqlRequest)} :
    subBatch ∈ subBatches strategy config state requests ↔ ∃ batch ∈ batched strategy config state requests,
      subBatch ∈ replacement runtime.sorting (makeDeadlineClustering config) batch := by
  rw [subBatches_eq, List.mem_flatMap]

theorem subBatches_filled {subBatch : List (BatchEntry TaqlRequest)}
    (member : subBatch ∈ subBatches strategy config state requests) : subBatch ≠ [] := by
  obtain ⟨batch, batchIn, partIn⟩ := (mem_subBatches strategy config state requests).mp member
  have sound := (batches_sound (strategy.options config) state requests).2 batch batchIn
  exact replacement_filled batch sound.nonempty subBatch partIn

private theorem flatMap_subperm {change : List α → List (List α)}
    (narrower : ∀ batch, (change batch).flatten.Subperm batch) (all : List (List α)) :
    (all.flatMap change).flatten.Subperm all.flatten := by
  induction all with
  | nil => exact List.Subperm.refl _
  | cons batch rest ih =>
    simp only [List.flatMap_cons, List.flatten_append, List.flatten_cons]
    exact (narrower batch).append ih

/-- No request is handed over twice. -/
theorem subBatches_subperm :
    (subBatches strategy config state requests).flatten.Subperm (entriesOf requests) := by
  rw [subBatches_eq]
  apply (flatMap_subperm replacement_subperm _).trans
  exact (batches_sound (strategy.options config) state requests).1.subperm

theorem mem_handed {entry : BatchEntry TaqlRequest}
    (member : entry ∈ (subBatches strategy config state requests).flatten) :
    requests[entry.idx]? = some entry.val :=
  mem_entriesOf.mp ((subBatches_subperm strategy config state requests).subset member)

theorem entry_handed {subBatch : List (BatchEntry TaqlRequest)}
    (listed : subBatch ∈ subBatches strategy config state requests) (member : entry ∈ subBatch) :
    requests[entry.idx]? = some entry.val :=
  mem_handed strategy config state requests (List.mem_flatten.mpr ⟨subBatch, listed, member⟩)

theorem handed_inside :
    ∀ entry ∈ (subBatches strategy config state requests).flatten, entry.idx < requests.length :=
  fun _ member => (List.getElem?_eq_some_iff.mp (mem_handed strategy config state requests member)).1

theorem handed_nodup : ((subBatches strategy config state requests).flatten.map BatchEntry.idx).Nodup := by
  have distinct : ((entriesOf requests).map BatchEntry.idx).Nodup := by
    rw [entriesOf_map_idx]
    exact List.nodup_range
  obtain ⟨kept, permuted, within⟩ := subBatches_subperm strategy config state requests
  exact ((permuted.map _).nodup_iff).mp (distinct.sublist (within.map _))

/-- Every request is handed over exactly when no batch loses an entry to
clustering. -/
theorem subBatches_perm_iff :
    (subBatches strategy config state requests).flatten.Perm (entriesOf requests) ↔
      ∀ batch ∈ batched strategy config state requests,
        (clusterWindows runtime.sorting (makeDeadlineClustering config) batch).length ≤ 2 := by
  have entries : (batched strategy config state requests).flatten.Perm (entriesOf requests) :=
    (batches_sound (strategy.options config) state requests).1
  rw [subBatches_eq]
  constructor
  · intro whole batch member
    rw [← replacement_perm_iff]
    have lengths := (whole.trans entries.symm).length_eq
    generalize batched strategy config state requests = all at member lengths
    clear whole entries
    -- No batch grows, so none of them may shrink either.
    apply (replacement_subperm batch).perm_of_length_le
    induction all with
    | nil => cases member
    | cons next rest ih =>
      simp only [List.flatMap_cons, List.flatten_append, List.flatten_cons, List.length_append] at lengths
      have nextLess : (replacement runtime.sorting (makeDeadlineClustering config) next).flatten.length ≤ _ :=
        (replacement_subperm next).length_le
      have restLess : (rest.flatMap (replacement runtime.sorting (makeDeadlineClustering config))).flatten.length ≤ _ :=
        (flatMap_subperm replacement_subperm rest).length_le
      rcases List.mem_cons.mp member with rfl | member
      · omega
      · exact ih member (by omega)
  · intro few
    refine List.Perm.trans ?_ entries
    generalize batched strategy config state requests = all at few
    clear entries
    induction all with
    | nil => exact .refl _
    | cons next rest ih =>
      simp only [List.flatMap_cons, List.flatten_append, List.flatten_cons]
      exact ((replacement_perm_iff next).mpr (few next (by simp))).append
        (ih fun batch member => few batch (by simp [member]))

end Taql.SubBatches
