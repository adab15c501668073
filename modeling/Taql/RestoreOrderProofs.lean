import Mathlib.Data.List.Nodup
import Taql.ClusteringProofs

/-! `restoreOrder` writes the flattened results through the flattened batches.
Its result is known position by position, whatever the lengths of the result
arrays are; with one result for every entry it is the map over the values, and so
it undoes `batchByKey`. -/
namespace Taql.RestoreOrderProofs
open JavaScript BatchByKey GroupingProofs ClusteringProofs

variable {σ T U V W : Type}

private theorem place_run (order : List (BatchEntry T)) (results : List V) (done : Nat)
    (items : List (Option V)) :
    (results.zipIdx done).foldlM (place order) items =
      if done + results.length ≤ order.length ∨ results = [] then
        (.ok (assignAll items (((order.drop done).map BatchEntry.idx).zip results)) : Except JsError _)
      else .error noEntry := by
  induction results generalizing done items with
  | nil => simp [assignAll, pure, Except.pure]
  | cons result results ih =>
    rw [List.zipIdx_cons, List.foldlM_cons, place]
    by_cases room : done < order.length
    · simp only [List.getElem?_eq_getElem room]
      change (results.zipIdx (done + 1)).foldlM (place order) _ = _
      rw [ih, List.drop_eq_getElem_cons room, List.map_cons, List.zip_cons_cons]
      by_cases empty : results = []
      · subst empty
        rw [if_pos (.inr rfl), if_pos (.inl (Nat.succ_le_of_lt room))]
        rfl
      · have same : done + 1 + results.length ≤ order.length ↔ done + (result :: results).length ≤ order.length := by
          simp only [List.length_cons]
          omega
        simp only [empty, or_false, same, List.cons_ne_nil]
        rfl
    · simp only [List.getElem?_eq_none (Nat.le_of_not_lt room)]
      rw [if_neg (by simp; omega)]
      rfl

/-- More results than entries is an error; otherwise every result is written
to its entry's index. -/
theorem restoreOrder_run (batches : List (List (BatchEntry T))) (results : List (List V)) :
    restoreOrder batches results =
      if results.flatten.length ≤ batches.flatten.length then
        .ok (assignAll (List.replicate batches.flatten.length none)
          ((batches.flatten.map BatchEntry.idx).zip results.flatten))
      else .error noEntry := by
  rw [restoreOrder, place_run]
  by_cases room : results.flatten.length ≤ batches.flatten.length
  · rw [if_pos (.inl (by simpa only [Nat.zero_add] using room)), if_pos room, List.drop_zero]
  · have some_ : results.flatten ≠ [] := by
      intro empty
      simp [empty] at room
    simp only [Nat.zero_add, room, some_, or_self, if_false]

private theorem zip_names (left : List α) (right : List β) :
    (left.zip right).map Prod.fst = left.take right.length := by
  induction left generalizing right with
  | nil => simp
  | cons head left ih =>
    cases right with
    | nil => rfl
    | cons value right => simp [ih]

/-- The array when there are no more results than entries: the entry at
position `p` of the flattened batches gets result `p` of the flattened results,
and the array reaches just past the greatest index written. -/
theorem restoreOrder_spec {batches : List (List (BatchEntry T))} {results : List (List V)}
    (distinct : (batches.flatten.map BatchEntry.idx).Nodup)
    (room : results.flatten.length ≤ batches.flatten.length) :
    ∃ ordered, restoreOrder batches results = .ok ordered ∧
      (∀ (p : Nat) entry, batches.flatten[p]? = some entry → readAt ordered entry.idx = results.flatten[p]?) ∧
      (∀ index, index ∉ batches.flatten.map BatchEntry.idx → readAt ordered index = none) ∧
      (∀ index, index < ordered.length ↔ index < batches.flatten.length ∨
        ∃ (p : Nat), p < results.flatten.length ∧ ∃ entry, batches.flatten[p]? = some entry ∧ index ≤ entry.idx) := by
  rw [restoreOrder_run, if_pos room]
  generalize batches.flatten = order at distinct room ⊢
  generalize results.flatten = answers at room ⊢
  have names := zip_names (order.map BatchEntry.idx) answers
  have blank : ∀ index, readAt (List.replicate order.length (none : Option V)) index = none := by
    intro index
    simp only [readAt, List.getElem?_replicate]
    split <;> rfl
  refine ⟨_, rfl, ?_, ?_, ?_⟩
  · intro p entry at_
    have here : (order.map BatchEntry.idx)[p]? = some entry.idx := by simp [at_]
    by_cases answered : p < answers.length
    · rw [List.getElem?_eq_getElem answered]
      apply read_assignAll_of_mem
      · rw [names]
        exact distinct.sublist (List.take_sublist _ _)
      · apply List.mem_of_getElem? (i := p)
        rw [List.getElem?_zip_eq_some]
        exact ⟨here, List.getElem?_eq_getElem answered⟩
    · rw [List.getElem?_eq_none (Nat.le_of_not_lt answered), read_assignAll_of_notMem, blank]
      rw [names]
      intro member
      obtain ⟨q, before, same⟩ := List.mem_take_iff_getElem.mp member
      have there : (order.map BatchEntry.idx)[q]? = some entry.idx :=
        List.getElem?_eq_some_iff.mpr ⟨by omega, same⟩
      have equal := (List.nodup_iff_getElem?_ne_getElem?.mp distinct)
      have apart : q < p := by omega
      exact equal q p apart (List.getElem?_eq_some_iff.mp here).1 (there.trans here.symm)
  · intro index absent
    rw [read_assignAll_of_notMem, blank]
    rw [names]
    exact fun member => absent (List.take_subset _ _ member)
  · intro index
    rw [lt_length_assignAll, List.length_replicate]
    apply or_congr Iff.rfl
    constructor
    · rintro ⟨⟨name, value⟩, member, low⟩
      obtain ⟨p, at_⟩ := List.mem_iff_getElem?.mp member
      obtain ⟨named, answered⟩ := List.getElem?_zip_eq_some.mp at_
      rw [List.getElem?_map] at named
      obtain ⟨entry, held, rfl⟩ := Option.map_eq_some_iff.mp named
      exact ⟨p, (List.getElem?_eq_some_iff.mp answered).1, entry, held, low⟩
    · rintro ⟨p, answered, entry, held, low⟩
      refine ⟨(entry.idx, answers[p]), ?_, low⟩
      apply List.mem_of_getElem? (i := p)
      rw [List.getElem?_zip_eq_some]
      exact ⟨by simp [held], List.getElem?_eq_getElem answered⟩

/-- When the batches hold every entry, and every entry is answered from its
value, the answers come back in the order of the values. -/
theorem restoreOrder_map {batches : List (List (BatchEntry T))} {vals : List T}
    (whole : batches.flatten.Perm (entriesOf vals)) (transform : T → V) :
    restoreOrder batches (batches.map fun batch => batch.map fun entry => transform entry.val) =
      .ok (vals.map fun val => some (transform val)) := by
  have answers : (batches.map fun batch => batch.map fun entry => transform entry.val).flatten =
      batches.flatten.map fun entry => transform entry.val := by
    rw [List.map_flatten]
  have counted : batches.flatten.length = vals.length := by
    rw [whole.length_eq, entriesOf_length]
  have distinct : (batches.flatten.map BatchEntry.idx).Nodup := by
    rw [(whole.map BatchEntry.idx).nodup_iff, entriesOf_map_idx]
    exact List.nodup_range
  have room : (batches.map fun batch => batch.map fun entry => transform entry.val).flatten.length ≤
      batches.flatten.length := by rw [answers, List.length_map]
  obtain ⟨ordered, restored, reads, _, lengths⟩ := restoreOrder_spec distinct room
  rw [restored, answers] at *
  congr 1
  rw [show vals.map (fun val => some (transform val)) = (vals.map transform).map some by simp [Function.comp_def]]
  apply eq_map_some_of_read
  · rw [List.length_map]
    apply Nat.le_antisymm
    · by_contra longer
      rcases (lengths vals.length).mp (by omega) with past | ⟨p, _, entry, held, low⟩
      · omega
      · have known := mem_entriesOf.mp (whole.mem_iff.mp (List.mem_of_getElem? held))
        have inside := (List.getElem?_eq_some_iff.mp known).1
        omega
    · by_contra shorter
      exact shorter (Nat.le_of_not_lt fun short =>
        absurd ((lengths ordered.length).mpr (.inl (by omega))) (Nat.lt_irrefl _))
  · intro position inside
    rw [List.length_map] at inside
    have listed : (⟨vals[position], position⟩ : BatchEntry T) ∈ batches.flatten :=
      whole.mem_iff.mpr (mem_entriesOf.mpr (List.getElem?_eq_getElem inside))
    obtain ⟨p, held⟩ := List.mem_iff_getElem?.mp listed
    rw [reads p _ held, List.getElem?_map, held, List.getElem?_map, List.getElem?_eq_getElem inside]
    rfl

/-! ### The round trip -/

variable [DecidableEq V] [DecidableEq U]

/-- Whatever the batches are, putting the answers of their entries back in order
answers the values. -/
theorem restoreOrder_batchByKey (sorting : ArraySort) (options : BatchingOptions σ T V U)
    (unclustered : options.clustering = none) (state : σ) (vals : List T) (transform : T → W) :
    restoreOrder (batchByKey sorting options state vals).1
        ((batchByKey sorting options state vals).1.map fun batch => batch.map fun entry => transform entry.val) =
      .ok (vals.map fun val => some (transform val)) := by
  rw [batchByKey_unclustered options unclustered]
  have whole := (batches_sound options state vals).1
  exact restoreOrder_map whole transform

/-- Batches of two values at most, and a comparison that is no equivalence. -/
theorem restoreOrder_batchByKey_capped :
    let options : BatchingOptions Unit Nat Nat Bool :=
      ⟨fun state val => (val % 3, state), some fun _ lhs rhs => lhs < rhs, some fun val => val < 10, none, some 2⟩
    restoreOrder (batchByKey insertionSort options () [4, 1, 7, 13, 10, 2]).1
        ((batchByKey insertionSort options () [4, 1, 7, 13, 10, 2]).1.map fun batch =>
          batch.map fun entry => entry.val * 2) =
      .ok ([4, 1, 7, 13, 10, 2].map fun val => some (val * 2)) :=
  restoreOrder_batchByKey insertionSort _ rfl () [4, 1, 7, 13, 10, 2] (· * 2)

end Taql.RestoreOrderProofs
