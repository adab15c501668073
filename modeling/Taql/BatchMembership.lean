import Mathlib.Order.Defs.Unbundled
import Taql.ClusteringProofs
import Taql.OpenBatches

/-! Which values share a batch, where batches have no cap and are not clustered.
Every value since the series last changed is then still in a candidate of its key,
so a value that is related to it joins it there. -/
namespace Taql.BatchMembership
open BatchByKey GroupingProofs ClusteringProofs OpenBatches

variable {σ T V U : Type}

/-- Two positions of the input belong together. -/
def Together (subBatchEqFn : Option (T → T → Bool)) (seriesIdFn : Option (T → U)) (keyed : List (T × V)) (i j : Nat)
    (lhs rhs : T) : Prop :=
  keyAt keyed i = keyAt keyed j ∧ related subBatchEqFn lhs rhs = true ∧
    ∀ k, i ≤ k → k ≤ j → seriesAt seriesIdFn keyed k = seriesAt seriesIdFn keyed i

/-- What the batches of some keyed values are. -/
structure Batched (subBatchEqFn : Option (T → T → Bool)) (seriesIdFn : Option (T → U)) (keyed : List (T × V))
    (batches : List (List (BatchEntry T))) : Prop where
  together : ∀ i j lhs rhs, i < j → (keyed.map Prod.fst)[i]? = some lhs → (keyed.map Prod.fst)[j]? = some rhs →
    ((∃ batch ∈ batches, ⟨lhs, i⟩ ∈ batch ∧ ⟨rhs, j⟩ ∈ batch) ↔ Together subBatchEqFn seriesIdFn keyed i j lhs rhs)
  entries : batches.flatten.Perm (entriesOf (keyed.map Prod.fst))
  filled : ∀ batch ∈ batches, batch ≠ []
  increasing : ∀ batch ∈ batches, batch.Pairwise fun first second => first.idx < second.idx
  ordered : (batches.filterMap List.head?).Pairwise fun first second => first.idx < second.idx

section Order
variable {subBatchEqFn : Option (T → T → Bool)} {seriesIdFn : Option (T → U)} {maxSize : Option Nat}
  {done : List (T × V)} {state : Grouping T V U} [DecidableEq U] [DecidableEq V]

private theorem heads_modify {results : List (List (BatchEntry T))} (filled : ∀ items ∈ results, items ≠ [])
    (batch : Nat) (entry : BatchEntry T) :
    (results.modify batch (· ++ [entry])).filterMap List.head? = results.filterMap List.head? := by
  induction results generalizing batch with
  | nil => cases batch <;> rfl
  | cons items rest ih =>
    obtain ⟨first, others, rfl⟩ := List.exists_cons_of_ne_nil (filled items List.mem_cons_self)
    cases batch with
    | zero => rfl
    | succ batch =>
      simp [ih fun items member => filled items (List.mem_cons_of_mem _ member)]

/-- A batch comes after those that were opened before it. -/
theorem group_ordered (keyed : List (T × V)) :
    ((group subBatchEqFn seriesIdFn maxSize keyed).results.filterMap List.head?).Pairwise fun first second =>
      first.idx < second.idx := by
  induction keyed using List.reverseRecOn with
  | nil => exact List.Pairwise.nil
  | append_singleton done item ih =>
    have grouped : Grouped seriesIdFn done (group subBatchEqFn seriesIdFn maxSize done) := group_grouped done
    have added : Placed subBatchEqFn seriesIdFn maxSize _ item _ := add_placed grouped item
    rw [← group_snoc] at added
    generalize group subBatchEqFn seriesIdFn maxSize (done ++ [item]) = after at added ⊢
    cases added with
    | join joining candidate takes room | misplace _ _ joining _ shape takes full =>
      rw [joined, heads_modify fun items member => (grouped.sound items member).nonempty]
      exact ih
    | first refused | renew before dropped shape takes full =>
      rw [opened, List.filterMap_append]
      refine List.pairwise_append.mpr ⟨ih, List.pairwise_singleton _ _, ?_⟩
      intro first earlier last isLast
      obtain ⟨items, member, head⟩ := List.mem_filterMap.mp earlier
      rw [List.mem_singleton.mp isLast, grouped.counted]
      exact (grouped.sound items member).inside first (List.mem_of_mem_head? head)

/-- Every value of the current run is in a candidate of its key. -/
def Kept (seriesIdFn : Option (T → U)) (done : List (T × V)) (state : Grouping T V U) : Prop :=
  ∀ series (i : Nat) item, done[i]? = some item →
    (∀ k, i ≤ k → k < done.length → seriesAt seriesIdFn done k = series) →
      ∃ batch ∈ (state.enter series).ids item.2, ∃ items, state.results[batch]? = some items ∧ ⟨item.1, i⟩ ∈ items

omit [DecidableEq U] [DecidableEq V] in
private theorem not_full (batch : Nat) (results : List (List (BatchEntry T))) : ¬Full none results batch := by
  rintro ⟨cap, _, capped, _⟩
  cases capped

/-- Without a cap a candidate stays one. -/
theorem kept_add (grouped : Grouped seriesIdFn done state) (kept : Kept seriesIdFn done state) (item : T × V) :
    Kept seriesIdFn (done ++ [item]) (state.add subBatchEqFn seriesIdFn none item) := by
  have grows {batch : Nat} {items : List (BatchEntry T)} (held : state.results[batch]? = some items) : ∃ items',
      (state.add subBatchEqFn seriesIdFn none item).results[batch]? = some items' ∧ items ⊆ items' :=
    add_grows grouped item held
  have added : Placed subBatchEqFn seriesIdFn none state item _ := add_placed grouped item
  generalize state.add subBatchEqFn seriesIdFn none item = after at added grows ⊢
  -- The candidates of the value's series are all there, and the value is in one of its key.
  obtain ⟨enters, stays, batch, candidate, items, held, isThere⟩ :
      after.series = seriesOf seriesIdFn item.1 ∧
      (∀ key, ∀ batch ∈ (state.enter (seriesOf seriesIdFn item.1)).ids key, batch ∈ after.ids key) ∧
      ∃ batch ∈ after.ids item.2, ∃ items, after.results[batch]? = some items ∧ ⟨item.1, done.length⟩ ∈ items := by
    cases added with
    | join batch candidate takes room =>
      obtain ⟨items, _, held, _, _⟩ := head_of_candidate grouped candidate
      refine ⟨rfl, fun key other member => ?_, batch, ?_, items ++ [⟨item.1, done.length⟩], ?_, by simp⟩
      · rwa [joined, candidatesOf, Function.update_eq_self]
      · simpa [joined] using candidate
      · simp [joined, held, grouped.counted]
    | first refused =>
      refine ⟨rfl, fun key other member => ?_, state.results.length, by simp [opened], _,
        List.getElem?_concat_length, by simp [grouped.counted]⟩
      rw [opened_ids]
      split
      · rename_i same
        subst same
        exact List.mem_append_left _ member
      · exact member
    | renew _ _ _ _ full | misplace _ _ _ _ _ _ full => exact absurd full (not_full _ _)
  intro series i earlier at_ run
  have inside : i < done.length + 1 := by simpa using (List.getElem?_eq_some_iff.mp at_).1
  have last := run done.length (by omega) (by simp)
  rw [seriesAt_last] at last
  subst last
  have entered : (after.enter (seriesOf seriesIdFn item.1)).ids = after.ids := if_pos enters
  rw [entered]
  by_cases new : i = done.length
  · subst new
    rw [List.getElem?_concat_length] at at_
    cases at_
    exact ⟨batch, candidate, items, held, isThere⟩
  · have before : i < done.length := by omega
    rw [List.getElem?_append_left before] at at_
    obtain ⟨batch, candidate, items, held, isThere⟩ :=
      kept (seriesOf seriesIdFn item.1) i earlier at_ fun k low high => by
      rw [← seriesAt_append high]
      exact run k low (by simp; omega)
    obtain ⟨items', held', more⟩ := grows held
    exact ⟨batch, stays _ _ candidate, items', held', more isThere⟩

theorem group_kept (keyed : List (T × V)) :
    Kept seriesIdFn keyed (group subBatchEqFn seriesIdFn none keyed) := by
  induction keyed using List.reverseRecOn with
  | nil => exact fun series i item at_ => by cases at_
  | append_singleton done item ih =>
    rw [group_snoc]
    exact kept_add (group_grouped done) ih item

theorem group_open (comparable : Comparable subBatchEqFn) (keyed : List (T × V)) :
    Open subBatchEqFn seriesIdFn keyed (group subBatchEqFn seriesIdFn none keyed) := by
  induction keyed using List.reverseRecOn with
  | nil => exact open_empty
  | append_singleton done item ih =>
    rw [group_snoc]
    apply ih.add (group_grouped done) comparable
    rintro ⟨_, _, _, _, _, _, full⟩
    exact not_full _ _ full

/-- The last value joins the batch of an earlier one of its run that has its key and is
related to it. -/
private theorem joins_of_kept (comparable : Comparable subBatchEqFn) (done : List (T × V)) {item earlier : T × V}
    {i : Nat}
    (at_ : done[i]? = some earlier) (sameKey : earlier.2 = item.2)
    (relates : related subBatchEqFn earlier.1 item.1 = true)
    (run : ∀ k, i ≤ k → k < done.length → seriesAt seriesIdFn done k = seriesOf seriesIdFn item.1) :
    ∃ batch ∈ (group subBatchEqFn seriesIdFn none (done ++ [item])).results,
      ⟨earlier.1, i⟩ ∈ batch ∧ ⟨item.1, done.length⟩ ∈ batch := by
  have grouped : Grouped seriesIdFn done (group subBatchEqFn seriesIdFn none done) := group_grouped done
  have held : Open subBatchEqFn seriesIdFn done (group subBatchEqFn seriesIdFn none done) := group_open comparable done
  have kept : Kept seriesIdFn done (group subBatchEqFn seriesIdFn none done) := group_kept done
  obtain ⟨batch, candidate, items, inBatch, isThere⟩ := kept (seriesOf seriesIdFn item.1) i earlier at_ run
  rw [sameKey] at candidate
  have takes := held.takes_of_mem comparable inBatch isThere relates
  have added : Placed subBatchEqFn seriesIdFn none _ item _ := add_placed grouped item
  rw [← group_snoc] at added
  generalize group subBatchEqFn seriesIdFn none (done ++ [item]) = after at added ⊢
  cases added with
  | join joining candidate' takes' room =>
    obtain rfl := held.entered_unique candidate candidate' takes takes'
    refine ⟨items ++ [⟨item.1, done.length⟩], ?_, List.mem_append_left _ isThere, by simp⟩
    apply List.mem_of_getElem? (i := batch)
    simp [joined, inBatch, grouped.counted]
  | first refused => exact absurd takes (refused batch candidate)
  | renew _ _ _ _ full | misplace _ _ _ _ _ _ full => exact absurd full (not_full _ _)

private theorem together_of_kept (comparable : Comparable subBatchEqFn) (keyed : List (T × V)) :
    ∀ i j lhs rhs, i < j → (keyed.map Prod.fst)[i]? = some lhs → (keyed.map Prod.fst)[j]? = some rhs →
      Together subBatchEqFn seriesIdFn keyed i j lhs rhs →
      ∃ batch ∈ (group subBatchEqFn seriesIdFn none keyed).results, ⟨lhs, i⟩ ∈ batch ∧ ⟨rhs, j⟩ ∈ batch := by
  induction keyed using List.reverseRecOn with
  | nil => exact fun i j lhs rhs _ at_ => by cases at_
  | append_singleton done item ih =>
    intro i j lhs rhs before atI atJ together
    have inside : j < done.length + 1 := by simpa using (List.getElem?_eq_some_iff.mp atJ).1
    have first : i < done.length := by omega
    obtain ⟨sameKey, relates, run⟩ := together
    rw [keyAt_append first] at sameKey
    have runDone (k) (low : i ≤ k) (high : k < done.length) (upper : k ≤ j) :
        seriesAt seriesIdFn done k = seriesAt seriesIdFn done i := by
      rw [← seriesAt_append high, ← seriesAt_append first]
      exact run k low upper
    rw [List.map_append] at atI atJ
    rw [List.getElem?_append_left (by simpa using first)] at atI
    by_cases new : j = done.length
    · subst new
      rw [List.getElem?_append_right (by simp)] at atJ
      obtain rfl : item.1 = rhs := by simpa using atJ
      rw [keyAt_last] at sameKey
      obtain ⟨earlier, atEarlier, earlierKey⟩ := Option.map_eq_some_iff.mp sameKey
      obtain rfl : earlier.1 = lhs := by simpa [atEarlier] using atI
      have lastSeries := run done.length (by omega) (Nat.le_refl _)
      rw [seriesAt_last, seriesAt_append first] at lastSeries
      exact joins_of_kept comparable done atEarlier earlierKey relates
        fun k low high => (runDone k low high high.le).trans lastSeries.symm
    · have second : j < done.length := by omega
      have grouped : Grouped seriesIdFn done (group subBatchEqFn seriesIdFn none done) := group_grouped done
      rw [List.getElem?_append_left (by simpa using second)] at atJ
      rw [keyAt_append second] at sameKey
      obtain ⟨items, listed, firstIn, secondIn⟩ := ih i j lhs rhs before atI atJ
        ⟨sameKey, relates, fun k low upper => runDone k low (by omega) upper⟩
      obtain ⟨batch, at_⟩ := List.mem_iff_getElem?.mp listed
      rw [group_snoc]
      obtain ⟨items', at', more⟩ := add_grows grouped item at_
      exact ⟨items', List.mem_of_getElem? at', more firstIn, more secondIn⟩

/-- Without a cap the batches are the classes of `Together`, in the order of their
first entries. -/
theorem group_batched (comparable : Comparable subBatchEqFn) (keyed : List (T × V)) :
    Batched subBatchEqFn seriesIdFn keyed (group subBatchEqFn seriesIdFn none keyed).results := by
  have grouped : Grouped seriesIdFn keyed (group subBatchEqFn seriesIdFn none keyed) := group_grouped keyed
  have held : Open subBatchEqFn seriesIdFn keyed (group subBatchEqFn seriesIdFn none keyed) :=
    group_open comparable keyed
  refine ⟨?_, grouped.entries, fun batch member => (grouped.sound batch member).nonempty,
    fun batch member => (grouped.sound batch member).increasing, group_ordered keyed⟩
  intro i j lhs rhs before atI atJ
  constructor
  · rintro ⟨batch, member, firstIn, secondIn⟩
    have sound := grouped.sound batch member
    exact ⟨sound.oneKey _ firstIn _ secondIn,
      held.related_of_mem comparable member sound.increasing firstIn secondIn before,
      sound.oneRun _ firstIn _ secondIn⟩
  · exact together_of_kept comparable keyed i j lhs rhs before atI atJ

end Order

section Whole
variable [DecidableEq V] [DecidableEq U]

/-- The batches are what the loop over the keyed values answers, for one value too,
and two values share one when they belong together. -/
theorem batchByKey_batched (sorting : JavaScript.ArraySort) (options : BatchingOptions σ T V U)
    (uncapped : options.maxSize = none) (unclustered : options.clustering = none)
    (comparable : ∀ state, Comparable (options.subBatchEqFn.map (· state))) (state : σ) (vals : List T) :
    let keyed := keyAll options.subBatchIdFn state vals
    let subBatchEqFn := options.subBatchEqFn.map (· keyed.2)
    let batches := (batchByKey sorting options state vals).1
    keyed.1.map Prod.fst = vals ∧
      batches = (group subBatchEqFn options.seriesIdFn none keyed.1).results ∧
      Batched subBatchEqFn options.seriesIdFn keyed.1 batches := by
  intro keyed subBatchEqFn batches
  have grouped : batches = (group subBatchEqFn options.seriesIdFn none keyed.1).results := by
    rw [← uncapped, ← batches_eq_group options state vals]
    exact congrArg Prod.fst (batchByKey_unclustered options unclustered state vals)
  refine ⟨keyAll_vals _ state vals, grouped, ?_⟩
  rw [grouped]
  exact group_batched (comparable keyed.2) keyed.1

/-- Values of one parity under one key, in runs of values below and from ten on. -/
theorem batchByKey_batched_parity :
    let options : BatchingOptions Unit Nat Nat Bool :=
      ⟨fun state val => (val % 3, state), some fun _ lhs rhs => lhs % 2 == rhs % 2, some fun val => val < 10, none,
        none⟩
    let keyed := keyAll options.subBatchIdFn () [1, 4, 7, 13, 19]
    let subBatchEqFn := options.subBatchEqFn.map (· keyed.2)
    let batches := (batchByKey JavaScript.insertionSort options () [1, 4, 7, 13, 19]).1
    keyed.1.map Prod.fst = [1, 4, 7, 13, 19] ∧
      batches = (group subBatchEqFn options.seriesIdFn none keyed.1).results ∧
      Batched subBatchEqFn options.seriesIdFn keyed.1 batches := by
  apply batchByKey_batched
  · rfl
  · rfl
  · intro state
    constructor
    · intro lhs rhs same
      simp only [related, Option.map_some, Option.all_some, beq_iff_eq] at same ⊢
      exact same.symm
    · intro lhs between rhs same same'
      simp only [related, Option.map_some, Option.all_some, beq_iff_eq] at same same' ⊢
      exact same.trans same'

end Whole

end Taql.BatchMembership
