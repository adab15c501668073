import Taql.RestoreOrderProofs
import Taql.SubBatches

/-! When batching goes unnoticed. Clustering decides it: a batch whose
deadlines span two windows is handed over whole, so its members may be further
apart than the wait, and one that spans three or more loses its last window. -/
namespace Taql.BatchTransparency
open JavaScript Context BatchingContext BatchByKey Strategies GroupingProofs Windows ClusteringProofs
open RestoreOrderProofs SubBatches

/-- The deadline in milliseconds, of a request that has an integer one. -/
def millis (request : TaqlRequest) : Int :=
  match request.deadline? with
  | some (.num value) => value
  | _ => 0

def Timed (request : TaqlRequest) : Prop := request.deadline? = some (.num (millis request))

instance : DecidablePred Timed := fun request => inferInstanceAs (Decidable (request.deadline? = _))

def batchMillis (batch : List (BatchEntry TaqlRequest)) : List Int := batch.map fun entry => millis entry.val

section Windows
variable {sorting : ArraySort} {config : BatchingConfig} {batch : List (BatchEntry TaqlRequest)}

private theorem fits_millis (timed : ∀ entry ∈ batch, Timed entry.val) :
    ∀ base ∈ batch, ∀ update ∈ batch, (makeDeadlineClustering config).fits base update =
      decide (millis update.val - millis base.val < config.waitMillis) := by
  intro base baseIn update updateIn
  have baseTimed : base.val.deadline? = _ := timed base baseIn
  have updateTimed : update.val.deadline? = _ := timed update updateIn
  simp only [Clustering.fits, makeDeadlineClustering, baseTimed, updateTimed, Option.getD_some, JsNumber.sub_num,
    JsNumber.lt_num]

/-- Integer deadlines are sorted from soonest to latest. -/
private theorem ordered_millis (timed : ∀ entry ∈ batch, Timed entry.val) :
    ((makeDeadlineClustering config).ordered sorting batch).Pairwise
      fun first second => millis first.val ≤ millis second.val := by
  have consistent : ConsistentOn (fun lhs rhs : BatchEntry TaqlRequest =>
      JsNumber.sub (lhs.val.deadline?.getD (.num 0)) (rhs.val.deadline?.getD (.num 0))) batch := by
    refine consistentOn_of_key (fun entry => millis entry.val) ?_
    intro left leftIn right rightIn
    have leftTimed : left.val.deadline? = _ := timed left leftIn
    have rightTimed : right.val.deadline? = _ := timed right rightIn
    simp only [leftTimed, rightTimed, Option.getD_some, JsNumber.sub_num]
  apply (sorting.sorts _ batch consistent).imp_of_mem
  intro left right leftIn rightIn before
  have leftTimed : left.val.deadline? = _ := timed left ((sorting.permutes _ batch).mem_iff.mp leftIn)
  have rightTimed : right.val.deadline? = _ := timed right ((sorting.permutes _ batch).mem_iff.mp rightIn)
  simp only [notAfter, leftTimed, rightTimed, Option.getD_some, JsNumber.sub_num, decide_eq_true_eq] at before
  omega

private theorem fits_ordered (timed : ∀ entry ∈ batch, Timed entry.val) :
    ∀ base ∈ (makeDeadlineClustering config).ordered sorting batch,
      ∀ update ∈ (makeDeadlineClustering config).ordered sorting batch,
        (makeDeadlineClustering config).fits base update =
          decide (millis update.val - millis base.val < config.waitMillis) := by
  intro base baseIn update updateIn
  have permuted : ((makeDeadlineClustering config).ordered sorting batch).Perm batch := ordered_perm batch
  exact fits_millis timed base (permuted.mem_iff.mp baseIn) update (permuted.mem_iff.mp updateIn)

/-- A batch has as many windows as it has deadlines spaced a wait apart. -/
theorem le_windows_iff (sorting : ArraySort) (config : BatchingConfig) (timed : ∀ entry ∈ batch, Timed entry.val)
    (count : Nat) :
    count ≤ (clusterWindows sorting (makeDeadlineClustering config) batch).length ↔
      SpacedIn config.waitMillis (batchMillis batch) count := by
  rw [clusterWindows, le_length_windows_iff (fits_ordered timed) (ordered_millis timed)]
  have permuted : (((makeDeadlineClustering config).ordered sorting batch).map fun entry => millis entry.val).Perm
      (batchMillis batch) := (ordered_perm batch).map _
  exact ⟨fun spaced => spaced.perm permuted, fun spaced => SpacedIn.perm spaced permuted.symm⟩

theorem windows_narrow (timed : ∀ entry ∈ batch, Timed entry.val)
    (member : window ∈ clusterWindows sorting (makeDeadlineClustering config) batch) :
    window.Pairwise fun first second => |millis first.val - millis second.val| < config.waitMillis :=
  window_narrow (fits_ordered timed) (ordered_millis timed) (clusterWindows_splits batch) member

end Windows

variable {runtime : Runtime} {V : Type} (strategy : BatchingStrategy) (config : BatchingConfig)
  (state : PrivateState runtime) (requests : List TaqlRequest)

theorem mem_batched {batch : List (BatchEntry TaqlRequest)}
    (member : batch ∈ batched strategy config state requests) (held : entry ∈ batch) : entry.val ∈ requests := by
  have entries := (batches_sound (strategy.options config) state requests).1
  have listed := entries.mem_iff.mp (List.mem_flatten.mpr ⟨batch, member, held⟩)
  exact List.mem_of_getElem? (mem_entriesOf.mp listed)

private theorem calls_requests (executor : TaqlBatchLoader V) :
    (STRATEGIES strategy executor config state requests).calls.flatMap LoaderArgs.request =
      (subBatches strategy config state requests).flatten.map BatchEntry.val := by
  rw [calls_eq, List.flatMap_map, List.map_flatten, List.flatMap_def]
  simp only [toArgs_request]

/-- The requests handed over are those of the load exactly when the entries
are. -/
private theorem handed_perm_iff (executor : TaqlBatchLoader V) :
    ((STRATEGIES strategy executor config state requests).calls.flatMap LoaderArgs.request).Perm requests ↔
      (subBatches strategy config state requests).flatten.Perm (entriesOf requests) := by
  rw [calls_requests]
  constructor
  · intro handed
    apply (subBatches_subperm strategy config state requests).perm_of_length_le
    rw [entriesOf_length, ← handed.length_eq, List.length_map]
  · intro handed
    simpa only [entriesOf_map_val] using handed.map BatchEntry.val

private theorem handed_perm_iff_spaced (timed : ∀ request ∈ requests, Timed request) :
    (subBatches strategy config state requests).flatten.Perm (entriesOf requests) ↔
      ∀ batch ∈ batched strategy config state requests, ¬ SpacedIn config.waitMillis (batchMillis batch) 3 := by
  rw [subBatches_perm_iff]
  refine forall₂_congr fun batch member => ?_
  have batchTimed : ∀ entry ∈ batch, Timed entry.val :=
    fun entry held => timed _ (mem_batched strategy config state requests member held)
  rw [← le_windows_iff runtime.sorting config batchTimed]
  omega

/-- A pointwise executor's answers to the calls, all together. -/
private theorem promiseAll_pointwise {executor : TaqlBatchLoader V} {answer : TaqlRequest → V}
    (pointwise : ∀ number args, (executor number args).outcome = .ok (args.request.map answer))
    (subBatches : List (List (BatchEntry TaqlRequest))) :
    promiseAll ((subBatches.map strategy.toArgs).mapIdx fun number args => executor number args) =
      .ok (subBatches.map fun subBatch => subBatch.map fun entry => answer entry.val) := by
  rw [promiseAll_eq_ok]
  apply List.ext_getElem?
  intro number
  simp only [List.getElem?_map, List.getElem?_mapIdx]
  cases subBatches[number]? with
  | none => rfl
  | some subBatch => simp [pointwise, toArgs_request]

/-- The loader of every strategy resolves to the answer of each request, with
every request handed over once, exactly when no batch has three deadlines
spaced a wait apart. -/
theorem load_resolves_iff {executor : TaqlBatchLoader V} (answer : TaqlRequest → V)
    (pointwise : ∀ number args, (executor number args).outcome = .ok (args.request.map answer))
    (timed : ∀ request ∈ requests, Timed request) :
    ((STRATEGIES strategy executor config state requests).outcome =
        .ok (requests.map fun request => some (answer request)) ∧
      ((STRATEGIES strategy executor config state requests).calls.flatMap LoaderArgs.request).Perm requests) ↔
      ∀ batch ∈ batched strategy config state requests, ¬ SpacedIn config.waitMillis (batchMillis batch) 3 := by
  rw [← handed_perm_iff_spaced strategy config state requests timed, handed_perm_iff]
  constructor
  · exact And.right
  · intro whole
    refine ⟨?_, whole⟩
    rw [outcome_eq, promiseAll_pointwise strategy pointwise]
    exact restoreOrder_map whole answer

/-- Two requests, however far apart. -/
theorem load_resolves_pair :
    (STRATEGIES .Headers (answering TaqlRequest.ref) ⟨10, none⟩ plainState
        [plainRequest 0 100, plainRequest 1 200]).outcome = .ok [some 0, some 1] ∧
      ((STRATEGIES .Headers (answering TaqlRequest.ref) ⟨10, none⟩ plainState
        [plainRequest 0 100, plainRequest 1 200]).calls.flatMap LoaderArgs.request).Perm
          [plainRequest 0 100, plainRequest 1 200] := by
  refine (load_resolves_iff .Headers ⟨10, none⟩ plainState _ TaqlRequest.ref (fun _ _ => rfl) (by decide)).mpr ?_
  have few : ∀ batch ∈ batched .Headers ⟨10, none⟩ plainState [plainRequest 0 100, plainRequest 1 200],
      batch.length ≤ 2 := by decide
  intro batch member spaced
  have counted := spaced.count_le
  have short := few batch member
  simp only [batchMillis, List.length_map] at counted
  omega

/-- Three requests that are 100 ms apart, under a wait of 10 ms: the last is
handed to nobody and answered by nobody. -/
theorem load_loses_last :
    (∀ request ∈ [plainRequest 0 0, plainRequest 1 100, plainRequest 2 200], Timed request) ∧
      (STRATEGIES .Headers (answering TaqlRequest.ref) ⟨10, none⟩ plainState
        [plainRequest 0 0, plainRequest 1 100, plainRequest 2 200]).outcome.toOption = some [some 0, some 1] ∧
      ¬ ((STRATEGIES .Headers (answering TaqlRequest.ref) ⟨10, none⟩ plainState
        [plainRequest 0 0, plainRequest 1 100, plainRequest 2 200]).calls.flatMap LoaderArgs.request).Perm
          [plainRequest 0 0, plainRequest 1 100, plainRequest 2 200] := by
  decide

private theorem replacement_narrow_iff {batch : List (BatchEntry TaqlRequest)}
    (timed : ∀ entry ∈ batch, Timed entry.val) :
    (∀ part ∈ replacement runtime.sorting (makeDeadlineClustering config) batch,
        part.Pairwise fun first second => |millis first.val - millis second.val| < config.waitMillis) ↔
      (SpacedIn config.waitMillis (batchMillis batch) 2 → SpacedIn config.waitMillis (batchMillis batch) 3) := by
  have third := le_windows_iff runtime.sorting config timed 3
  unfold replacement
  rw [← third]
  by_cases many : 2 < (clusterWindows runtime.sorting (makeDeadlineClustering config) batch).length
  · rw [if_pos many]
    exact ⟨fun _ _ => many, fun _ part member => windows_narrow timed (List.dropLast_subset _ member)⟩
  · rw [if_neg many, List.forall_mem_singleton]
    have whole : batch.Pairwise (fun first second => |millis first.val - millis second.val| < config.waitMillis) ↔
        (batchMillis batch).Pairwise fun first second => |first - second| < config.waitMillis := by
      rw [batchMillis, List.pairwise_map]
    rw [whole, pairwise_near_iff]
    exact ⟨fun unspaced spaced => absurd spaced unspaced, fun reaches spaced => many (reaches spaced)⟩

/-- Requests handed over together have deadlines less than the wait apart
exactly when no batch spans two windows only. -/
theorem calls_narrow_iff (executor : TaqlBatchLoader V) (timed : ∀ request ∈ requests, Timed request) :
    (∀ call ∈ (STRATEGIES strategy executor config state requests).calls,
        call.request.Pairwise fun first second => |millis first - millis second| < config.waitMillis) ↔
      ∀ batch ∈ batched strategy config state requests,
        SpacedIn config.waitMillis (batchMillis batch) 2 → SpacedIn config.waitMillis (batchMillis batch) 3 := by
  have batchTimed : ∀ batch ∈ batched strategy config state requests, ∀ entry ∈ batch, Timed entry.val :=
    fun batch member entry held => timed _ (mem_batched strategy config state requests member held)
  rw [calls_eq, List.forall_mem_map, subBatches_eq]
  simp only [toArgs_request, List.pairwise_map, List.mem_flatMap]
  constructor
  · intro narrow batch member
    exact (replacement_narrow_iff config (batchTimed batch member)).mp
      fun part partIn => narrow part ⟨batch, member, partIn⟩
  · rintro spaced part ⟨batch, member, partIn⟩
    exact (replacement_narrow_iff config (batchTimed batch member)).mpr (spaced batch member) part partIn

/-- Two requests that are 5 ms apart, under a wait of 10 ms, handed over together. -/
theorem calls_narrow_pair :
    (STRATEGIES .Headers (answering TaqlRequest.ref) ⟨10, none⟩ plainState
        [plainRequest 0 0, plainRequest 1 5]).calls.length = 1 ∧
    ∀ call ∈ (STRATEGIES .Headers (answering TaqlRequest.ref) ⟨10, none⟩ plainState
        [plainRequest 0 0, plainRequest 1 5]).calls,
      call.request.Pairwise fun first second => |millis first - millis second| < 10 := by
  refine ⟨by decide, (calls_narrow_iff .Headers ⟨10, none⟩ plainState _ _ (by decide)).mpr ?_⟩
  have near : ∀ batch ∈ batched .Headers ⟨10, none⟩ plainState [plainRequest 0 0, plainRequest 1 5],
      (batchMillis batch).Pairwise fun first second => |first - second| < 10 := by decide
  intro batch member spaced
  exact absurd spaced ((pairwise_near_iff _ _).mp (near batch member))

/-- Two requests that are 100 ms apart are handed over together, under a wait
of 10 ms. -/
theorem calls_wide_pair :
    (∀ request ∈ [plainRequest 0 0, plainRequest 1 100], Timed request) ∧
      ¬ ∀ call ∈ (STRATEGIES .Headers (answering TaqlRequest.ref) ⟨10, none⟩ plainState
          [plainRequest 0 0, plainRequest 1 100]).calls,
        call.request.Pairwise fun first second => |millis first - millis second| < 10 := by
  decide

end Taql.BatchTransparency
