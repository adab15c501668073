import Mathlib.Data.List.Forall2
import Taql.BatchingExecutors
import Taql.RestoreOrderProofs

/-! Whether one sub-batch can tell from its results that there are others.
Results are put back by their position in the concatenation of all of them, so
an array of the wrong length moves every later one; and all calls are awaited
as one, so one rejection is everyone's. -/
namespace Taql.ResultIsolation
open JavaScript Context BatchingContext BatchByKey Strategies GroupingProofs RestoreOrderProofs SubBatches
open BatchingExecutors

/-! ### Positions in a concatenation -/

/-- Arrays of equal lengths, pairwise. -/
abbrev Aligned (left : List (List α)) (right : List (List β)) : Prop :=
  List.Forall₂ (fun one other => one.length = other.length) left right

theorem Aligned.flatten_length {left : List (List α)} {right : List (List β)} (aligned : Aligned left right) :
    left.flatten.length = right.flatten.length := by
  induction aligned with
  | nil => rfl
  | cons same _ ih => simp [same, ih]

/-- A position in one array is at the same place in both concatenations. -/
theorem Aligned.position {left : List (List α)} {right : List (List β)} (aligned : Aligned left right) {k p : Nat}
    {items : List α} {results : List β} (one : left[k]? = some items) (other : right[k]? = some results)
    (inside : p < items.length) :
    ∃ q : Nat, left.flatten[q]? = items[p]? ∧ right.flatten[q]? = results[p]? := by
  induction aligned generalizing k with
  | nil => cases one
  | @cons first second rest others same _ ih =>
    cases k with
    | zero =>
      cases one
      cases other
      refine ⟨p, ?_, ?_⟩
      · rw [List.flatten_cons, List.getElem?_append_left inside]
      · rw [List.flatten_cons, List.getElem?_append_left (same ▸ inside)]
    | succ k =>
      obtain ⟨q, here, there⟩ := ih (by simpa using one) (by simpa using other)
      refine ⟨first.length + q, ?_, ?_⟩
      · rw [List.flatten_cons, List.getElem?_append_right (Nat.le_add_right _ _), Nat.add_sub_cancel_left, here]
      · rw [List.flatten_cons, List.getElem?_append_right (by omega), same, Nat.add_sub_cancel_left, there]

/-- Every place in the concatenations is a position in one of the arrays. -/
theorem Aligned.place {left : List (List α)} {right : List (List β)} (aligned : Aligned left right) {q : Nat}
    (held : left.flatten[q]? = some item) :
    ∃ (k : Nat) (items : List α) (results : List β) (p : Nat), left[k]? = some items ∧ right[k]? = some results ∧
      items[p]? = some item ∧ items.length = results.length ∧ results[p]? = right.flatten[q]? := by
  induction aligned generalizing q with
  | nil => cases held
  | @cons first second rest others same _ ih =>
    rw [List.flatten_cons] at held
    by_cases inside : q < first.length
    · rw [List.getElem?_append_left inside] at held
      refine ⟨0, first, second, q, rfl, rfl, held, same, ?_⟩
      rw [List.flatten_cons, List.getElem?_append_left (same ▸ inside)]
    · rw [List.getElem?_append_right (Nat.le_of_not_lt inside)] at held
      obtain ⟨k, items, results, p, one, other, here, equal, there⟩ := ih held
      refine ⟨k + 1, items, results, p, by simpa using one, by simpa using other, here, equal, ?_⟩
      rw [there, List.flatten_cons, List.getElem?_append_right (by omega), same]

theorem aligned_iff {left : List (List α)} {right : List (List β)} :
    Aligned left right ↔ left.map List.length = right.map List.length := by
  rw [← List.forall₂_eq_eq_eq, List.forall₂_map_left_iff, List.forall₂_map_right_iff]

/-! ### One dispatch -/

/-- How many results a sub-batch was answered with. -/
def resultCount (answer : Settling (List R)) : Nat := (answer.outcome.toOption.getD []).length

/-- That many results, written through the entries handed over, make an array
of the length of the keys: they do not outnumber the entries, and either every
key was handed over or the last key is among those written. -/
def Spans (handed : List (BatchEntry T)) (keys results : Nat) : Prop :=
  results ≤ handed.length ∧ (handed.length = keys ∨ ∃ entry ∈ handed.take results, entry.idx + 1 = keys)

instance (handed : List (BatchEntry T)) (keys results : Nat) : Decidable (Spans handed keys results) :=
  inferInstanceAs (Decidable (_ ∧ _))

/-- The array `ordered` is as long as the keys, and each key reads what its
position among the entries handed over was answered with. -/
structure Restored (keys : Nat) (subBatches : List (List (BatchEntry T))) (answers : List (Settling (List R)))
    (results : List (List R)) (ordered : List (Option R)) : Prop where
  outcomes : answers.map Settling.outcome = results.map .ok
  spanned : Spans subBatches.flatten keys results.flatten.length
  full : ordered.length = keys
  reads : ∀ (q : Nat) entry, subBatches.flatten[q]? = some entry → readAt ordered entry.idx = results.flatten[q]?
  holes : ∀ index, index ∉ subBatches.flatten.map BatchEntry.idx → readAt ordered index = none

/-- What a dispatch can come to: a sub-batch is rejected and every key with
it; the array is not as long as the keys; or it is, and the keys read it. -/
inductive Dispatched (keys : Nat) (subBatches : List (List (BatchEntry T))) (answers : List (Settling (List R))) :
    List (Settled R) → Prop where
  | refused (one : ∃ answer ∈ answers, answer.outcome.isOk = false) (error : JsError) :
      Dispatched keys subBatches answers (List.replicate keys (.rejected error))
  | mislaid (results : List (List R)) (outcomes : answers.map Settling.outcome = results.map .ok)
      (unspanned : ¬ Spans subBatches.flatten keys results.flatten.length) (error : JsError) :
      Dispatched keys subBatches answers (List.replicate keys (.rejected error))
  | restored (results : List (List R)) (ordered : List (Option R))
      (restored : Restored keys subBatches answers results ordered) :
      Dispatched keys subBatches answers (ordered.map Settled.fulfilled)

theorem Restored.at_entry {subBatches : List (List (BatchEntry T))} {answers : List (Settling (List R))}
    (restored : Restored keys subBatches answers results ordered)
    (inside : ∀ entry ∈ subBatches.flatten, entry.idx < keys) {q : Nat}
    (placed : subBatches.flatten[q]? = some entry) : ordered[entry.idx]? = some results.flatten[q]? := by
  have below := inside entry (List.mem_of_getElem? placed)
  have read := restored.reads q entry placed
  rw [← restored.full] at below
  rw [readAt, List.getElem?_eq_getElem below, Option.join_some] at read
  rw [List.getElem?_eq_getElem below, read]

theorem Restored.at_hole {subBatches : List (List (BatchEntry T))} {answers : List (Settling (List R))}
    (restored : Restored keys subBatches answers results ordered) (below : index < keys)
    (absent : index ∉ subBatches.flatten.map BatchEntry.idx) : ordered[index]? = some none := by
  have read := restored.holes index absent
  rw [← restored.full] at below
  rw [readAt, List.getElem?_eq_getElem below, Option.join_some] at read
  rw [List.getElem?_eq_getElem below, read]

private theorem fulfilled_at {ordered : List (Option R)} {index : Nat} :
    (ordered.map Settled.fulfilled)[index]? = some (.fulfilled value) ↔ ordered[index]? = some value := by
  rw [List.getElem?_map, Option.map_eq_some_iff]
  simp

private theorem not_rejected_at {ordered : List (Option R)} {index : Nat} :
    (ordered.map Settled.fulfilled)[index]? ≠ some (.rejected error) := by
  rw [List.getElem?_map]
  intro rejected
  obtain ⟨_, _, impossible⟩ := Option.map_eq_some_iff.mp rejected
  cases impossible

private theorem rejected_at {keys index : Nat} (below : index < keys) (error : JsError) :
    (List.replicate keys (Settled.rejected (R := R) error))[index]? = some (.rejected error) := by
  rw [List.getElem?_replicate, if_pos below]

private theorem length_eq_iff {handed : List (BatchEntry T)} {keys results length : Nat}
    (room : results ≤ handed.length) (fewer : handed.length ≤ keys) (inside : ∀ entry ∈ handed, entry.idx < keys)
    (reach : ∀ index, index < length ↔ index < handed.length ∨
      ∃ (p : Nat), p < results ∧ ∃ entry, handed[p]? = some entry ∧ index ≤ entry.idx) :
    length = keys ↔ Spans handed keys results := by
  have bounded : length ≤ keys := by
    by_contra longer
    rcases (reach keys).mp (by omega) with past | ⟨p, _, entry, held, low⟩
    · omega
    · exact absurd (inside entry (List.mem_of_getElem? held)) (by omega)
  constructor
  · intro full
    refine ⟨room, ?_⟩
    by_cases every : handed.length = keys
    · exact .inl every
    · rcases (reach (keys - 1)).mp (by omega) with past | ⟨p, written, entry, held, low⟩
      · omega
      · have last := inside entry (List.mem_of_getElem? held)
        obtain ⟨here, rfl⟩ := List.getElem?_eq_some_iff.mp held
        exact .inr ⟨handed[p], List.mem_take_iff_getElem.mpr ⟨p, by omega, rfl⟩, by omega⟩
  · rintro ⟨_, every | ⟨entry, member, last⟩⟩
    · by_contra short
      have reached := (reach (keys - 1)).mpr (.inl (by omega))
      omega
    · obtain ⟨p, within, rfl⟩ := List.mem_take_iff_getElem.mp member
      have reached := (reach (keys - 1)).mpr
        (.inr ⟨p, by omega, _, List.getElem?_eq_getElem (by omega), by omega⟩)
      omega

section Dispatch
variable {runtime : Runtime} {R : Type} (mismatch : JsError) (strategy : BatchingStrategy)
  (executor : TaqlBatchLoader R) (config : BatchingConfig) (state : PrivateState runtime) (requests : List TaqlRequest)

private theorem ofValue_ok (values : List (Option R)) :
    (values.map (Option.map Except.ok)).map Settled.ofValue = values.map Settled.fulfilled := by
  rw [List.map_map]
  refine List.map_congr_left fun value _ => ?_
  cases value <;> rfl

theorem loadBatch_dispatched :
    Dispatched requests.length (subBatches strategy config state requests)
      (answers strategy executor config state requests)
      (loadBatch mismatch strategy executor config state requests) := by
  have distinct := handed_nodup strategy config state requests
  have inside := handed_inside strategy config state requests
  have fewer := (subBatches_subperm strategy config state requests).length_le
  rw [entriesOf_length] at fewer
  rw [loadBatch_eq]
  generalize subBatches strategy config state requests = handed at distinct inside fewer ⊢
  cases settled : promiseAll (answers strategy executor config state requests) with
  | error error =>
    obtain ⟨answer, member, refused⟩ := promiseAll_eq_error settled
    exact .refused ⟨answer, member, refused⟩ error
  | ok results =>
    have outcomes := promiseAll_eq_ok.mp settled
    simp only [Except.bind]
    by_cases room : results.flatten.length ≤ handed.flatten.length
    · obtain ⟨ordered, restored, reads, holes, lengths⟩ := restoreOrder_spec distinct room
      rw [restored]
      simp only [Except.map, dispatch, List.length_map, ofValue_ok]
      have spans : ordered.length = requests.length ↔ Spans handed.flatten requests.length results.flatten.length :=
        length_eq_iff room fewer inside lengths
      by_cases full : ordered.length = requests.length
      · rw [if_pos full]
        exact .restored results ordered ⟨outcomes, spans.mp full, full, reads, holes⟩
      · rw [if_neg full]
        exact .mislaid results outcomes (fun spanned => full (spans.mpr spanned)) mismatch
    · rw [restoreOrder_run, if_neg room]
      exact .mislaid results outcomes (fun spanned => room spanned.1) noEntry

/-- Every key is settled. -/
theorem loadBatch_length :
    (loadBatch mismatch strategy executor config state requests).length = requests.length := by
  have dispatched := loadBatch_dispatched mismatch strategy executor config state requests
  generalize loadBatch mismatch strategy executor config state requests = settled at dispatched ⊢
  cases dispatched with
  | refused | mislaid => rw [List.length_replicate]
  | restored results ordered restored => rw [List.length_map, restored.full]

theorem answers_length :
    (answers strategy executor config state requests).length = (subBatches strategy config state requests).length := by
  simp [answers]

/-- Every request is handed over when as many are as there are. -/
theorem handed_all (every : (subBatches strategy config state requests).flatten.length = requests.length)
    {index : Nat} (inside : index < requests.length) :
    index ∈ (subBatches strategy config state requests).flatten.map BatchEntry.idx := by
  have whole := (subBatches_subperm strategy config state requests).perm_of_length_le
    (by rw [entriesOf_length, every])
  rw [(whole.map BatchEntry.idx).mem_iff, entriesOf_map_idx]
  exact List.mem_range.mpr inside

/-- A lost request has an index that is not handed over. -/
theorem missing_index (lost : (subBatches strategy config state requests).flatten.length ≠ requests.length) :
    ∃ index, index < requests.length ∧
      index ∉ (subBatches strategy config state requests).flatten.map BatchEntry.idx := by
  by_contra every
  have covered : List.range requests.length ⊆
      (subBatches strategy config state requests).flatten.map BatchEntry.idx := by
    intro index below
    by_contra absent
    exact every ⟨index, List.mem_range.mp below, absent⟩
  have many := (List.nodup_range.subperm covered).length_le
  have fewer := (subBatches_subperm strategy config state requests).length_le
  rw [List.length_range, List.length_map] at many
  rw [entriesOf_length] at fewer
  exact lost (Nat.le_antisymm fewer many)

end Dispatch

/-! ### Results -/

section Results
variable {runtime : Runtime} {R : Type} (mismatch : JsError) (strategy : BatchingStrategy)
  (executor : TaqlBatchLoader R) (config : BatchingConfig) (state : PrivateState runtime) (requests : List TaqlRequest)

/-- A request is only ever resolved with the result at its own position in the
array returned for its own sub-batch, and an array of the wrong length rejects
the requests of its sub-batch. -/
structure ResultsIsolated : Prop where
  own : ∀ (index : Nat) value,
    (loadBatch mismatch strategy executor config state requests)[index]? = some (.fulfilled value) →
      ∃ k : Nat, ∃ subBatch answer results, (subBatches strategy config state requests)[k]? = some subBatch ∧
        (answers strategy executor config state requests)[k]? = some answer ∧ answer.outcome = .ok results ∧
        ∃ p : Nat, ∃ entry result, subBatch[p]? = some entry ∧ entry.idx = index ∧ results[p]? = some result ∧
          value = some result
  counted : ∀ (k : Nat) subBatch answer results, (subBatches strategy config state requests)[k]? = some subBatch →
    (answers strategy executor config state requests)[k]? = some answer → answer.outcome = .ok results →
      results.length ≠ subBatch.length → ∀ entry ∈ subBatch, ∃ error,
        (loadBatch mismatch strategy executor config state requests)[entry.idx]? = some (.rejected error)

private theorem counts_eq {answers : List (Settling (List R))} {results : List (List R)}
    (outcomes : answers.map Settling.outcome = results.map .ok) :
    answers.map resultCount = results.map List.length := by
  have counts := congrArg (List.map fun outcome : Except JsError (List R) => (outcome.toOption.getD []).length) outcomes
  rw [List.map_map, List.map_map] at counts
  exact counts

private theorem none_refused {answers : List (Settling (List R))} {results : List (List R)}
    (outcomes : answers.map Settling.outcome = results.map .ok) :
    ¬ ∃ answer ∈ answers, answer.outcome.isOk = false := by
  rintro ⟨answer, member, refused⟩
  have listed : answer.outcome ∈ results.map .ok := outcomes ▸ List.mem_map_of_mem member
  obtain ⟨result, _, same⟩ := List.mem_map.mp listed
  rw [← same] at refused
  cases refused

private theorem outcome_at {answers : List (Settling (List R))} {results : List (List R)}
    (outcomes : answers.map Settling.outcome = results.map .ok) {k : Nat} (held : results[k]? = some result) :
    ∃ answer, answers[k]? = some answer ∧ answer.outcome = .ok result := by
  have there := congrArg (·[k]?) outcomes
  simp only [List.getElem?_map, held, Option.map_some] at there
  exact Option.map_eq_some_iff.mp there

private theorem result_at {answers : List (Settling (List R))} {results : List (List R)}
    (outcomes : answers.map Settling.outcome = results.map .ok) {k : Nat} (held : answers[k]? = some answer)
    (resolved : answer.outcome = .ok result) : results[k]? = some result := by
  have there := congrArg (·[k]?) outcomes
  simp only [List.getElem?_map, held, Option.map_some, resolved] at there
  obtain ⟨other, here, same⟩ := Option.map_eq_some_iff.mp there.symm
  cases same
  exact here

section Cases
variable {mismatch strategy executor config state requests} {results : List (List R)} {ordered : List (Option R)}

private theorem isolated_of_rejected
    (settles : loadBatch mismatch strategy executor config state requests =
      List.replicate requests.length (.rejected error)) :
    ResultsIsolated mismatch strategy executor config state requests := by
  refine ⟨?_, ?_⟩
  · intro index value fulfilled
    rw [settles] at fulfilled
    cases List.eq_of_mem_replicate (List.mem_of_getElem? fulfilled)
  · intro k subBatch answer results here _ _ _ entry member
    refine ⟨error, ?_⟩
    rw [settles]
    exact rejected_at (handed_inside strategy config state requests entry
      (List.mem_flatten.mpr ⟨subBatch, List.mem_of_getElem? here, member⟩)) error

/-- A request lost to clustering would be resolved with undefined. -/
private theorem every_of_isolated
    (settles : loadBatch mismatch strategy executor config state requests = ordered.map Settled.fulfilled)
    (restored : Restored requests.length (subBatches strategy config state requests)
      (answers strategy executor config state requests) results ordered)
    (isolated : ResultsIsolated mismatch strategy executor config state requests) :
    (subBatches strategy config state requests).flatten.length = requests.length := by
  by_contra lost
  obtain ⟨index, below, absent⟩ := missing_index strategy config state requests lost
  have undefined := fulfilled_at.mpr (restored.at_hole below absent)
  rw [← settles] at undefined
  obtain ⟨_, _, _, _, _, _, _, _, _, _, _, _, _, same⟩ := isolated.own index none undefined
  cases same

/-- No key is rejected, so no sub-batch can have been answered with the wrong
number of results. -/
private theorem counts_of_isolated
    (settles : loadBatch mismatch strategy executor config state requests = ordered.map Settled.fulfilled)
    (restored : Restored requests.length (subBatches strategy config state requests)
      (answers strategy executor config state requests) results ordered)
    (isolated : ResultsIsolated mismatch strategy executor config state requests) :
    results.map List.length = (subBatches strategy config state requests).map List.length := by
  have sameLength : results.length = (subBatches strategy config state requests).length := by
    rw [← answers_length strategy executor config state requests]
    simpa only [List.length_map] using (congrArg List.length restored.outcomes).symm
  apply List.ext_getElem (by simpa only [List.length_map] using sameLength)
  intro k before _
  rw [List.length_map] at before
  rw [List.getElem_map, List.getElem_map]
  have here := List.getElem?_eq_getElem (sameLength ▸ before)
  obtain ⟨answer, answered, resolved⟩ := outcome_at restored.outcomes (List.getElem?_eq_getElem before)
  by_contra differ
  obtain ⟨entry, member⟩ := List.exists_mem_of_ne_nil _
    (subBatches_filled strategy config state requests (List.mem_of_getElem? here))
  obtain ⟨error, rejected⟩ := isolated.counted k _ answer _ here answered resolved differ entry member
  rw [settles] at rejected
  exact not_rejected_at rejected

private theorem isolated_of_counts
    (settles : loadBatch mismatch strategy executor config state requests = ordered.map Settled.fulfilled)
    (restored : Restored requests.length (subBatches strategy config state requests)
      (answers strategy executor config state requests) results ordered)
    (every : (subBatches strategy config state requests).flatten.length = requests.length)
    (counts : results.map List.length = (subBatches strategy config state requests).map List.length) :
    ResultsIsolated mismatch strategy executor config state requests := by
  have aligned : Aligned (subBatches strategy config state requests) results := aligned_iff.mpr counts.symm
  refine ⟨?_, ?_⟩
  · intro index value fulfilled
    rw [settles] at fulfilled
    have held := fulfilled_at.mp fulfilled
    have below := restored.full ▸ (List.getElem?_eq_some_iff.mp held).1
    obtain ⟨entry, member, rfl⟩ := List.mem_map.mp (handed_all strategy config state requests every below)
    obtain ⟨q, placed⟩ := List.mem_iff_getElem?.mp member
    have read := restored.at_entry (handed_inside strategy config state requests) placed
    obtain ⟨k, subBatch, own, p, here, there, at_, same, answered⟩ := aligned.place placed
    obtain ⟨answer, resolves, outcome⟩ := outcome_at restored.outcomes there
    have short : p < own.length := same ▸ (List.getElem?_eq_some_iff.mp at_).1
    have result := List.getElem?_eq_getElem short
    refine ⟨k, subBatch, answer, own, here, resolves, outcome, p, entry, own[p], at_, rfl, result, ?_⟩
    rw [held, ← answered, result] at read
    exact Option.some.inj read
  · intro k subBatch answer own here resolves outcome differ
    have there := result_at restored.outcomes resolves outcome
    have same := congrArg (·[k]?) counts
    simp only [List.getElem?_map, here, there, Option.map_some, Option.some.injEq] at same
    exact absurd same differ

end Cases

/-- The results of a load stay with their sub-batches exactly when one of them
is rejected, the results do not span the keys, or every request is handed over
and every sub-batch gets as many results as it has requests. -/
theorem results_isolated_iff :
    ResultsIsolated mismatch strategy executor config state requests ↔
      (∃ answer ∈ answers strategy executor config state requests, answer.outcome.isOk = false) ∨
      ¬ Spans (subBatches strategy config state requests).flatten requests.length
        ((answers strategy executor config state requests).map resultCount).sum ∨
      ((subBatches strategy config state requests).flatten.length = requests.length ∧
        (answers strategy executor config state requests).map resultCount =
          (subBatches strategy config state requests).map List.length) := by
  have dispatched := loadBatch_dispatched mismatch strategy executor config state requests
  generalize settles : loadBatch mismatch strategy executor config state requests = settled at dispatched
  cases dispatched with
  | refused one error => exact ⟨fun _ => .inl one, fun _ => isolated_of_rejected settles⟩
  | mislaid results outcomes unspanned error =>
    rw [counts_eq outcomes, ← List.length_flatten]
    exact ⟨fun _ => .inr (.inl unspanned), fun _ => isolated_of_rejected settles⟩
  | restored results ordered restored =>
    rw [counts_eq restored.outcomes, ← List.length_flatten]
    constructor
    · intro isolated
      exact .inr (.inr ⟨every_of_isolated settles restored isolated, counts_of_isolated settles restored isolated⟩)
    · rintro (one | unspanned | ⟨every, counts⟩)
      · exact absurd one (none_refused restored.outcomes)
      · exact absurd restored.spanned unspanned
      · exact isolated_of_counts settles restored every counts

/-- Two users' requests, whose sub-batches are answered with two results and
with none: the second user gets the second result of the first. -/
theorem results_cross_users :
    loadBatch ⟨"TypeError", "length"⟩ .Headers
        (fun number _ => ⟨0, .ok (if number = 0 then ["first", "second"] else [])⟩) ⟨10, none⟩ plainState
        [userRequest 0 "alice", userRequest 1 "bob"] =
      [.fulfilled (some "first"), .fulfilled (some "second")] ∧
    ¬ ResultsIsolated ⟨"TypeError", "length"⟩ .Headers
        (fun number _ => ⟨0, .ok (if number = 0 then ["first", "second"] else [])⟩)
        ⟨10, none⟩ plainState [userRequest 0 "alice", userRequest 1 "bob"] := by
  have crossed : loadBatch ⟨"TypeError", "length"⟩ .Headers
      (fun number _ => ⟨0, .ok (if number = 0 then ["first", "second"] else [])⟩)
      ⟨10, none⟩ plainState [userRequest 0 "alice", userRequest 1 "bob"] =
        [.fulfilled (some "first"), .fulfilled (some "second")] := rfl
  refine ⟨crossed, ?_⟩
  rintro ⟨_, counted⟩
  obtain ⟨error, rejected⟩ := counted 1 [⟨userRequest 1 "bob", 1⟩] ⟨0, .ok []⟩ [] rfl rfl rfl (by simp)
    _ List.mem_cons_self
  rw [crossed] at rejected
  cases rejected

/-! ### Rejections -/

/-- A request whose sub-batch resolves gets its own result, and only those
whose sub-batch rejects are rejected. -/
structure FailuresIsolated : Prop where
  succeeded : ∀ (k : Nat) subBatch answer results, (subBatches strategy config state requests)[k]? = some subBatch →
    (answers strategy executor config state requests)[k]? = some answer → answer.outcome = .ok results →
      ∀ (p : Nat) entry, subBatch[p]? = some entry →
        (loadBatch mismatch strategy executor config state requests)[entry.idx]? = some (.fulfilled results[p]?)
  failed : ∀ (index : Nat) error,
    (loadBatch mismatch strategy executor config state requests)[index]? = some (.rejected error) →
      ∃ k : Nat, ∃ subBatch answer, (subBatches strategy config state requests)[k]? = some subBatch ∧
        (answers strategy executor config state requests)[k]? = some answer ∧ answer.outcome.isOk = false ∧
        ∃ entry ∈ subBatch, entry.idx = index

private theorem answer_at {k : Nat} {subBatch : List (BatchEntry TaqlRequest)}
    (here : (subBatches strategy config state requests)[k]? = some subBatch) :
    (answers strategy executor config state requests)[k]? = some (executor k (strategy.toArgs subBatch)) := by
  simp [answers, List.getElem?_mapIdx, here]

private theorem aligned_of_correct
    (correct : ∀ number args results, (executor number args).outcome = .ok results →
      results.length = args.request.length) {results : List (List R)}
    (outcomes : (answers strategy executor config state requests).map Settling.outcome = results.map .ok) :
    Aligned (subBatches strategy config state requests) results := by
  rw [aligned_iff]
  apply List.ext_getElem?
  intro k
  have there := congrArg (·[k]?) outcomes
  simp only [List.getElem?_map] at there ⊢
  cases here : (subBatches strategy config state requests)[k]? with
  | none =>
    have past : (answers strategy executor config state requests)[k]? = none := by
      rw [List.getElem?_eq_none_iff, answers_length]
      exact List.getElem?_eq_none_iff.mp here
    rw [past, Option.map_none] at there
    rw [Option.map_none, Option.map_eq_none_iff.mp there.symm, Option.map_none]
  | some subBatch =>
    rw [answer_at strategy executor config state requests here, Option.map_some] at there
    obtain ⟨own, held, same⟩ := Option.map_eq_some_iff.mp there.symm
    have full := correct k (strategy.toArgs subBatch) own same.symm
    rw [toArgs_request, List.length_map] at full
    rw [held, Option.map_some, Option.map_some, full]

section Cases
variable {mismatch strategy executor config state requests} {results : List (List R)} {ordered : List (Option R)}

/-- Where every key is rejected, every sub-batch is, and no request is lost. -/
private theorem refused_of_isolated
    (settles : loadBatch mismatch strategy executor config state requests =
      List.replicate requests.length (.rejected error))
    (isolated : FailuresIsolated mismatch strategy executor config state requests) :
    (∀ answer ∈ answers strategy executor config state requests, answer.outcome.isOk = false) ∧
      (subBatches strategy config state requests).flatten.length = requests.length := by
  constructor
  · intro answer member
    obtain ⟨k, held⟩ := List.mem_iff_getElem?.mp member
    have before := (List.getElem?_eq_some_iff.mp held).1
    rw [answers_length] at before
    have here := List.getElem?_eq_getElem before
    obtain ⟨first, others, shape⟩ := List.exists_cons_of_ne_nil
      (subBatches_filled strategy config state requests (List.mem_of_getElem? here))
    cases outcome : answer.outcome with
    | error error => rfl
    | ok results =>
      have fulfilled := isolated.succeeded k _ answer results here held outcome 0 first (by rw [shape]; rfl)
      rw [settles] at fulfilled
      cases List.eq_of_mem_replicate (List.mem_of_getElem? fulfilled)
  · by_contra lost
    obtain ⟨index, below, absent⟩ := missing_index strategy config state requests lost
    have rejected := rejected_at (R := R) below error
    rw [← settles] at rejected
    obtain ⟨k, subBatch, answer, here, _, _, entry, member, rfl⟩ := isolated.failed index error rejected
    exact absent (List.mem_map_of_mem (List.mem_flatten.mpr ⟨subBatch, List.mem_of_getElem? here, member⟩))

private theorem isolated_of_restored
    (settles : loadBatch mismatch strategy executor config state requests = ordered.map Settled.fulfilled)
    (restored : Restored requests.length (subBatches strategy config state requests)
      (answers strategy executor config state requests) results ordered)
    (aligned : Aligned (subBatches strategy config state requests) results) :
    FailuresIsolated mismatch strategy executor config state requests := by
  refine ⟨?_, ?_⟩
  · intro k subBatch answer own here held outcome p entry at_
    obtain ⟨q, placed, answered⟩ := aligned.position here (result_at restored.outcomes held outcome)
      (List.getElem?_eq_some_iff.mp at_).1
    rw [settles, fulfilled_at, ← answered]
    exact restored.at_entry (handed_inside strategy config state requests) (placed.trans at_)
  · intro index error rejected
    rw [settles] at rejected
    exact absurd rejected not_rejected_at

private theorem isolated_of_refused
    (refused : ∀ answer ∈ answers strategy executor config state requests, answer.outcome.isOk = false)
    (every : (subBatches strategy config state requests).flatten.length = requests.length) :
    FailuresIsolated mismatch strategy executor config state requests := by
  refine ⟨?_, ?_⟩
  · intro k subBatch answer results _ held outcome
    have impossible := refused answer (List.mem_of_getElem? held)
    rw [outcome] at impossible
    cases impossible
  · intro index error rejected
    have counted := loadBatch_length mismatch strategy executor config state requests
    have below := counted ▸ (List.getElem?_eq_some_iff.mp rejected).1
    obtain ⟨entry, member, at_⟩ := List.mem_map.mp (handed_all strategy config state requests every below)
    obtain ⟨subBatch, listed, member⟩ := List.mem_flatten.mp member
    obtain ⟨k, here⟩ := List.mem_iff_getElem?.mp listed
    have held := answer_at strategy executor config state requests here
    exact ⟨k, subBatch, _, here, held, refused _ (List.mem_of_getElem? held), entry, member, at_⟩

end Cases

/-- The last request is handed over, if there is one. -/
def LastHanded : Prop :=
  requests = [] ∨ ∃ entry ∈ (subBatches strategy config state requests).flatten, entry.idx + 1 = requests.length

private theorem spans_iff_last {results : List (List R)}
    (aligned : Aligned (subBatches strategy config state requests) results) :
    Spans (subBatches strategy config state requests).flatten requests.length results.flatten.length ↔
      LastHanded strategy config state requests := by
  have fewer := (subBatches_subperm strategy config state requests).length_le
  rw [entriesOf_length] at fewer
  rw [← aligned.flatten_length, Spans, List.take_length]
  unfold LastHanded
  constructor
  · rintro ⟨_, every | last⟩
    · by_cases none_ : requests = []
      · exact .inl none_
      · have some_ := List.length_pos_iff.mpr none_
        obtain ⟨entry, member, at_⟩ := List.mem_map.mp
          (handed_all strategy config state requests every (Nat.sub_lt some_ Nat.one_pos))
        exact .inr ⟨entry, member, by omega⟩
    · exact .inr last
  · rintro (none_ | last)
    · refine ⟨Nat.le_refl _, .inl ?_⟩
      rw [none_, List.length_nil] at fewer ⊢
      exact Nat.le_zero.mp fewer
    · exact ⟨Nat.le_refl _, .inr last⟩

/-- With an executor that answers in full or rejects, failures stay with their
sub-batches exactly when none rejects and the last request is handed over, or
all reject and every request is handed over. -/
theorem failures_isolated_iff
    (correct : ∀ number args results, (executor number args).outcome = .ok results →
      results.length = args.request.length) :
    FailuresIsolated mismatch strategy executor config state requests ↔
      ((∀ answer ∈ answers strategy executor config state requests, answer.outcome.isOk = true) ∧
        LastHanded strategy config state requests) ∨
      ((∀ answer ∈ answers strategy executor config state requests, answer.outcome.isOk = false) ∧
        (subBatches strategy config state requests).flatten.length = requests.length) := by
  have dispatched := loadBatch_dispatched mismatch strategy executor config state requests
  generalize settles : loadBatch mismatch strategy executor config state requests = settled at dispatched
  cases dispatched with
  | refused one error =>
    refine ⟨fun isolated => .inr (refused_of_isolated settles isolated), ?_⟩
    rintro (⟨resolved, _⟩ | ⟨refused, every⟩)
    · obtain ⟨answer, member, refused⟩ := one
      rw [resolved answer member] at refused
      cases refused
    · exact isolated_of_refused refused every
  | mislaid results outcomes unspanned error =>
    have aligned := aligned_of_correct strategy executor config state requests correct outcomes
    refine ⟨fun isolated => .inr (refused_of_isolated settles isolated), ?_⟩
    rintro (⟨_, last⟩ | ⟨refused, every⟩)
    · exact absurd ((spans_iff_last strategy config state requests aligned).mpr last) unspanned
    · exact isolated_of_refused refused every
  | restored results ordered restored =>
    have aligned := aligned_of_correct strategy executor config state requests correct restored.outcomes
    refine ⟨fun _ => .inl ⟨?_, (spans_iff_last strategy config state requests aligned).mp restored.spanned⟩, ?_⟩
    · intro answer member
      by_contra refused
      exact none_refused restored.outcomes ⟨answer, member, by simpa using refused⟩
    · exact fun _ => isolated_of_restored settles restored aligned

/-- Two users' requests, each answered. -/
theorem failures_isolated_pair :
    FailuresIsolated ⟨"TypeError", "length"⟩ .Headers (answering TaqlRequest.ref) ⟨10, none⟩ plainState
      [userRequest 0 "alice", userRequest 1 "bob"] := by
  refine (failures_isolated_iff _ _ _ _ _ _ ?_).mpr (.inl ⟨by decide, .inr (by decide)⟩)
  rintro number args results resolved
  cases resolved
  exact List.length_map _

/-- Two users' requests, of which the first is rejected: so is the second. -/
theorem failures_cross_users :
    loadBatch ⟨"TypeError", "length"⟩ .Headers
        (fun number args =>
          if number = 0 then ⟨0, .error ⟨"Error", "deadline"⟩⟩ else answering TaqlRequest.ref number args)
        ⟨10, none⟩ plainState [userRequest 0 "alice", userRequest 1 "bob"] =
      [.rejected ⟨"Error", "deadline"⟩, .rejected ⟨"Error", "deadline"⟩] ∧
    ¬ FailuresIsolated ⟨"TypeError", "length"⟩ .Headers
        (fun number args =>
          if number = 0 then ⟨0, .error ⟨"Error", "deadline"⟩⟩ else answering TaqlRequest.ref number args)
        ⟨10, none⟩ plainState [userRequest 0 "alice", userRequest 1 "bob"] := by
  have crossed : loadBatch ⟨"TypeError", "length"⟩ .Headers
      (fun number args =>
        if number = 0 then ⟨0, .error ⟨"Error", "deadline"⟩⟩ else answering TaqlRequest.ref number args)
      ⟨10, none⟩ plainState [userRequest 0 "alice", userRequest 1 "bob"] =
        [.rejected ⟨"Error", "deadline"⟩, .rejected ⟨"Error", "deadline"⟩] := rfl
  refine ⟨crossed, ?_⟩
  rintro ⟨succeeded, _⟩
  have fulfilled := succeeded 1 [⟨userRequest 1 "bob", 1⟩] ⟨0, .ok [1]⟩ [1] rfl rfl rfl 0 _ rfl
  rw [crossed] at fulfilled
  cases fulfilled

end Results

end Taql.ResultIsolation
