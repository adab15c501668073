import Taql.BatchingExecutors

/-! Queries and mutations of one load. Two of the strategies freeze every batch
when the operation type changes; the third has one batch for all requests, and
only its deadline clusters can keep a mutation from a query before it. -/
namespace Taql.OperationSeparation
open JavaScript Context BatchingContext BatchByKey Strategies GroupingProofs ClusteringProofs SubBatches

variable {runtime : Runtime} (strategy : BatchingStrategy) (config : BatchingConfig)
  (state : PrivateState runtime) (requests : List TaqlRequest)

/-- Every sub-batch holds one operation type, and so does everything in the
input from one of its requests to another. -/
def Separated : Prop :=
  ∀ subBatch ∈ subBatches strategy config state requests, ∀ one ∈ subBatch, ∀ other ∈ subBatch,
    one.val.operation = other.val.operation ∧
      ∀ k, one.idx ≤ k → k ≤ other.idx → operationAt requests k = some one.val.operation

private theorem operationAt_handed (listed : subBatch ∈ subBatches strategy config state requests)
    (member : entry ∈ subBatch) : operationAt requests entry.idx = some entry.val.operation := by
  rw [operationAt, entry_handed strategy config state requests listed member]
  rfl

theorem separated_iff_sameRun :
    Separated strategy config state requests ↔
      ∀ subBatch ∈ subBatches strategy config state requests, ∀ one ∈ subBatch, ∀ other ∈ subBatch,
        SameRun requests one.idx other.idx := by
  refine forall₂_congr fun subBatch listed => ?_
  constructor
  · intro separated one oneIn other otherIn k high low
    rw [operationAt_handed strategy config state requests listed oneIn]
    rcases Nat.le_total one.idx other.idx with before | after
    · exact (separated one oneIn other otherIn).2 k (by omega) (by omega)
    · rw [(separated one oneIn other otherIn).1]
      exact (separated other otherIn one oneIn).2 k (by omega) (by omega)
  · intro runs one oneIn other otherIn
    have oneAt := operationAt_handed strategy config state requests listed oneIn
    have otherAt := operationAt_handed strategy config state requests listed otherIn
    have run := runs one oneIn other otherIn
    refine ⟨?_, fun k low high => (run k (by omega) (by omega)).trans oneAt⟩
    have same := run other.idx (Nat.le_max_right _ _) (Nat.min_le_right _ _)
    rw [oneAt, otherAt] at same
    exact (Option.some.inj same).symm

/-- A strategy that passes the series function keeps operation types apart. -/
theorem sameRun_of_series (passes : (strategy.options config : Options runtime).seriesIdFn = some seriesIdFn)
    (listed : subBatch ∈ subBatches strategy config state requests) :
    ∀ one ∈ subBatch, ∀ other ∈ subBatch, SameRun requests one.idx other.idx := by
  obtain ⟨batch, batchIn, partIn⟩ := (mem_subBatches strategy config state requests).mp listed
  have sound := (batches_sound (strategy.options config) state requests).2 batch batchIn
  rw [passes] at sound
  have run {one other : BatchEntry TaqlRequest} (oneIn : one ∈ subBatch) (otherIn : other ∈ subBatch)
      (before : one.idx ≤ other.idx) : SameRun requests one.idx other.idx := by
    intro k high low
    have run := sound.oneRun one (mem_of_mem_replacement partIn oneIn) other (mem_of_mem_replacement partIn otherIn) k
      (by omega) (by omega)
    rwa [seriesAt_keyAll, seriesAt_keyAll] at run
  intro one oneIn other otherIn
  rcases Nat.le_total one.idx other.idx with before | after
  · exact run oneIn otherIn before
  · exact (sameRun_equivalence requests).symm (run otherIn oneIn after)

variable {config requests} in
private theorem insecure_single (within : WithinCap config.maxSize requests.length) :
    (batched .Insecure config state requests).length ≤ 1 := by
  have keys : ∀ item ∈ (keyAll (insecureOptions config : Options runtime).subBatchIdFn state requests).1,
      item.2 = SubBatchId.zero := by
    refine keyAll_run (fun done _ => ∀ item ∈ done, item.2 = SubBatchId.zero) ?_ state requests (by simp)
    intro done _ request held item member
    rcases List.mem_append.mp member with member | member
    · exact held item member
    · rw [List.mem_singleton.mp member]
      rfl
  have counted := congrArg List.length
    (keyAll_vals (insecureOptions config : Options runtime).subBatchIdFn state requests)
  rw [List.length_map] at counted
  show (batches (insecureOptions config) state requests).1.length ≤ 1
  unfold batches
  split
  · exact Nat.le_refl _
  · exact group_single _ keys (by rwa [counted])

variable {config requests} in
/-- Within the cap the Insecure strategy has one batch, the whole input. -/
theorem insecure_batched (within : WithinCap config.maxSize requests.length) (some_ : requests ≠ []) :
    batched .Insecure config state requests = [entriesOf requests] := by
  have entries : (batched .Insecure config state requests).flatten.Perm (entriesOf requests) :=
    (batches_sound (insecureOptions config) state requests).1
  have sound := (batches_sound (insecureOptions config) state requests).2
  have single : (batched .Insecure config state requests).length ≤ 1 := insecure_single state within
  cases shape : batched .Insecure config state requests with
  | nil =>
    rw [shape] at entries
    have none_ := entries.length_eq
    rw [entriesOf_length] at none_
    exact absurd (List.length_eq_zero_iff.mp none_.symm) some_
  | cons batch rest =>
    rw [shape, List.length_cons] at single
    have only : rest = [] := List.length_eq_zero_iff.mp (by omega)
    subst only
    rw [shape, List.flatten_singleton] at entries
    have batchIn : batch ∈ batched .Insecure config state requests := by
      rw [shape]
      exact List.mem_singleton_self batch
    rw [eq_of_increasing entries (sound batch batchIn).increasing (entriesOf_increasing requests)]

/-- Operation types are kept apart exactly when the strategy is one of those that pass the
series function, or two requests that are next to each other by their deadlines have one
operation type from one to the other in the input, or are divided. -/
theorem operations_separated_iff (within : WithinCap config.maxSize requests.length) :
    Separated strategy config state requests ↔ strategy ≠ .Insecure ∨
      NeighboursAgree runtime.sorting (makeDeadlineClustering config)
        (fun one other => SameRun requests one.idx other.idx) (entriesOf requests) := by
  rw [separated_iff_sameRun]
  by_cases insecure : strategy = .Insecure
  · subst insecure
    have equivalence : Equivalence fun one other : BatchEntry TaqlRequest => SameRun requests one.idx other.idx :=
      (sameRun_equivalence requests).comap BatchEntry.idx
    rw [or_iff_right (not_not_intro rfl), ← replacement_agree_iff equivalence]
    by_cases none_ : requests = []
    · subst none_
      refine iff_of_true (fun subBatch listed => ?_) fun part listed one oneIn => ?_
      · exact fun one oneIn => nomatch mem_handed _ config state [] (List.mem_flatten.mpr ⟨subBatch, listed, oneIn⟩)
      · exact nomatch mem_of_mem_replacement listed oneIn
    · simp only [mem_subBatches, insecure_batched state within none_, List.mem_singleton, exists_eq_left]
  · refine iff_of_true (fun subBatch listed => ?_) (.inl insecure)
    cases strategy with
    | Request => exact sameRun_of_series .Request config state requests rfl listed
    | Headers => exact sameRun_of_series .Headers config state requests rfl listed
    | Insecure => exact absurd rfl insecure

/-- A query and a mutation with one deadline, and no headers to tell apart. -/
theorem operations_separated_headers :
    Separated .Headers ⟨10, some 2⟩ plainState
      [plainRequest 0 0, { plainRequest 1 0 with operation := .mutation }] := by
  refine (operations_separated_iff _ _ _ _ ?_).mpr (.inl (by decide))
  rintro cap ⟨⟩
  decide

/-- A query and a mutation with one deadline are handed over together. -/
theorem operations_merged :
    ¬ Separated .Insecure ⟨10, some 2⟩ plainState
      [plainRequest 0 0, { plainRequest 1 0 with operation := .mutation }] := by
  intro separated
  have same := separated [⟨plainRequest 0 0, 0⟩, ⟨{ plainRequest 1 0 with operation := .mutation }, 1⟩] (by decide)
    ⟨plainRequest 0 0, 0⟩ (by decide) ⟨{ plainRequest 1 0 with operation := .mutation }, 1⟩ (by decide)
  cases same.1

end Taql.OperationSeparation
