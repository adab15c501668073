import Mathlib.Data.List.Flatten
import Taql.GroupingProofs

/-! The clustering stage of `batchByKey`. The backwards loop is a replacement
of each batch on its own, and the clusters put in a batch's place are all its
windows but the last: a batch of two windows is kept whole, and one of more
loses the last of them. -/
namespace Taql.ClusteringProofs
open JavaScript BatchByKey GroupingProofs Windows

variable {σ T V U : Type} {sorting : ArraySort} {clustering : Clustering T}

/-- The windows of a batch in scan order, the one left open included. -/
def clusterWindows (sorting : ArraySort) (clustering : Clustering T) (batch : List (BatchEntry T)) :
    List (List (BatchEntry T)) :=
  windows clustering.fits (clustering.ordered sorting batch)

/-- What the loop puts in the place of a batch. -/
def replacement (sorting : ArraySort) (clustering : Clustering T) (batch : List (BatchEntry T)) :
    List (List (BatchEntry T)) :=
  if 2 < (clusterWindows sorting clustering batch).length then
    (clusterWindows sorting clustering batch).dropLast
  else [batch]

theorem ordered_perm (batch : List (BatchEntry T)) : (clustering.ordered sorting batch).Perm batch := by
  unfold Clustering.ordered
  split
  · exact sorting.permutes _ batch
  · exact .refl batch

theorem clusterWindows_splits (batch : List (BatchEntry T)) :
    Splits clustering.fits (clustering.ordered sorting batch) (clusterWindows sorting clustering batch) :=
  windows_splits _ _

theorem clusterWindows_flatten (batch : List (BatchEntry T)) :
    (clusterWindows sorting clustering batch).flatten.Perm batch := by
  rw [(clusterWindows_splits batch).flatten]
  exact ordered_perm batch

theorem clusters_eq_dropLast (batch : List (BatchEntry T)) :
    clustering.clusters sorting batch = (clusterWindows sorting clustering batch).dropLast :=
  closed_eq_dropLast _ _

private theorem splice_take (results : List α) (inside : i < results.length) (put : List α) :
    (splice results i put).take i = results.take i := by
  simp [splice, Nat.min_eq_left inside.le]

private theorem splice_drop (results : List α) (inside : i < results.length) (put : List α) :
    (splice results i put).drop i = put ++ results.drop (i + 1) := by
  simp [splice, Nat.min_eq_left inside.le]

private theorem replaceBelow_eq (results : List (List (BatchEntry T))) (i : Nat) (inside : i ≤ results.length) :
    clustering.replaceBelow sorting i results =
      (results.take i).flatMap (replacement sorting clustering) ++ results.drop i := by
  induction i generalizing results with
  | zero => simp [Clustering.replaceBelow]
  | succ i ih =>
    have here : i < results.length := inside
    have cut : (results.take (i + 1)).flatMap (replacement sorting clustering) =
        (results.take i).flatMap (replacement sorting clustering) ++ replacement sorting clustering results[i] := by
      rw [List.take_succ_eq_append_getElem here, List.flatMap_append, List.flatMap_singleton]
    unfold Clustering.replaceBelow
    simp only [clusters_eq_dropLast, List.length_dropLast, List.getElem?_eq_getElem here, Option.getD_some]
    rw [cut, List.append_assoc]
    by_cases many : 2 < (clusterWindows sorting clustering results[i]).length
    · have room : i ≤ (splice results i (clusterWindows sorting clustering results[i]).dropLast).length := by
        simp only [splice, List.length_append, List.length_take]
        omega
      rw [if_pos (by omega), ih _ room, splice_take results here, splice_drop results here, replacement, if_pos many]
    · rw [if_neg (by omega), ih _ here.le, List.drop_eq_getElem_cons here, replacement, if_neg many]
      rfl

/-- A batch is never split into more windows than it has entries. -/
theorem clusterWindows_length_le (batch : List (BatchEntry T)) :
    (clusterWindows sorting clustering batch).length ≤ batch.length := by
  rw [← (clusterWindows_flatten batch).length_eq, List.length_flatten]
  have greedy : Splits _ _ (clusterWindows sorting clustering batch) := clusterWindows_splits batch
  have filled := greedy.nonempty
  clear greedy
  generalize clusterWindows sorting clustering batch = split at filled ⊢
  induction split with
  | nil => simp
  | cons window rest ih =>
    have one := List.length_pos_iff.mpr (filled window (by simp))
    have others := ih fun other member => filled other (by simp [member])
    simp only [List.length_cons, List.map_cons, List.sum_cons]
    omega

/-- The clusters replacing a batch are filled, and hold only its entries. -/
theorem replacement_filled (batch : List (BatchEntry T)) (filled : batch ≠ []) :
    ∀ part ∈ replacement sorting clustering batch, part ≠ [] := by
  intro part member
  unfold replacement at member
  split at member
  · exact (clusterWindows_splits batch).nonempty part (List.dropLast_subset _ member)
  · rwa [List.mem_singleton.mp member]

theorem replacement_subperm (batch : List (BatchEntry T)) :
    (replacement sorting clustering batch).flatten.Subperm batch := by
  unfold replacement
  split
  · exact ((List.dropLast_sublist _).flatten.subperm).trans (clusterWindows_flatten batch).subperm
  · simpa using List.Subperm.refl batch

theorem mem_of_mem_replacement (part_in : part ∈ replacement sorting clustering batch) (member : entry ∈ part) :
    entry ∈ batch :=
  (replacement_subperm batch).subset (List.mem_flatten.mpr ⟨part, part_in, member⟩)

/-- A batch loses entries to clustering exactly when it has three windows or
more: the entries of the last are in no cluster. -/
theorem replacement_perm_iff (batch : List (BatchEntry T)) :
    (replacement sorting clustering batch).flatten.Perm batch ↔
      (clusterWindows sorting clustering batch).length ≤ 2 := by
  unfold replacement
  split
  · rename_i many
    refine ⟨fun kept => ?_, fun few => absurd few (by omega)⟩
    exfalso
    have split : clusterWindows sorting clustering batch ≠ [] := List.ne_nil_of_length_pos (by omega)
    have lost := (clusterWindows_splits batch).nonempty _ (List.getLast_mem split)
    have whole : (clusterWindows sorting clustering batch).flatten.length = batch.length :=
      (clusterWindows_flatten batch).length_eq
    rw [← List.dropLast_append_getLast split] at whole
    have positive := List.length_pos_iff.mpr lost
    simp only [List.flatten_append, List.flatten_singleton, List.length_append] at whole
    have := kept.length_eq
    omega
  · rename_i few
    simpa using few

/-- Nothing is done to a batch of one. -/
theorem mem_replacement_singleton (member : part ∈ replacement sorting clustering [entry]) : part = [entry] := by
  unfold replacement at member
  have few : (clusterWindows sorting clustering _).length ≤ _ := clusterWindows_length_le [entry]
  rw [List.length_singleton] at few
  rw [if_neg (by omega)] at member
  exact List.mem_singleton.mp member

/-- Any two neighbours in the order in which entries are clustered are related, or the
clusters are divided between them. -/
def NeighboursAgree (sorting : ArraySort) (clustering : Clustering T) (related : BatchEntry T → BatchEntry T → Prop)
    (entries : List (BatchEntry T)) : Prop :=
  let order := clustering.ordered sorting entries
  ∀ (position : Nat) one other, order[position]? = some one → order[position + 1]? = some other →
    related one other ∨ Divides clustering.fits order (position + 1)

theorem neighboursAgree_of_all {related : BatchEntry T → BatchEntry T → Prop} {entries : List (BatchEntry T)}
    (all : ∀ one ∈ entries, ∀ other ∈ entries, related one other) :
    NeighboursAgree sorting clustering related entries := by
  intro position one other oneAt otherAt
  have input {entry : BatchEntry T} {at' : Nat} (held : (clustering.ordered sorting entries)[at']? = some entry) :
      entry ∈ entries := (ordered_perm entries).subset (List.mem_of_getElem? held)
  exact .inl (all one (input oneAt) other (input otherAt))

private theorem chain_iff_all {related : α → α → Prop} (equivalence : Equivalence related) (items : List α) :
    items.IsChain related ↔ ∀ one ∈ items, ∀ other ∈ items, related one other := by
  have : IsTrans α related := ⟨fun _ _ _ => equivalence.trans⟩
  have : Std.Symm related := ⟨fun _ _ => equivalence.symm⟩
  rw [List.isChain_iff_pairwise]
  constructor
  · intro chain one oneIn other otherIn
    exact chain.forall_of_forall (fun item _ => equivalence.refl item) oneIn otherIn
  · exact List.pairwise_of_forall_mem_list

/-- What replaces a batch is alike throughout when neighbours in the order of clustering
are, or are divided. -/
theorem replacement_agree_iff {related : BatchEntry T → BatchEntry T → Prop} (equivalence : Equivalence related)
    (batch : List (BatchEntry T)) :
    (∀ part ∈ replacement sorting clustering batch, ∀ one ∈ part, ∀ other ∈ part, related one other) ↔
      NeighboursAgree sorting clustering related batch := by
  have whole : (∀ one ∈ batch, ∀ other ∈ batch, related one other) ↔
      ∀ one ∈ clustering.ordered sorting batch, ∀ other ∈ clustering.ordered sorting batch, related one other := by
    simp only [(ordered_perm batch).mem_iff]
  unfold NeighboursAgree
  rw [← parts_chain_iff]
  simp only [chain_iff_all equivalence, ← whole]
  unfold replacement clusterWindows
  split
  next many => simp [many, Nat.not_le_of_lt many]
  next few => simp [few, Nat.le_of_not_lt few]

/-! ### The whole function -/

theorem keyAll_vals (subBatchIdFn : σ → T → V × σ) (state : σ) (vals : List T) :
    (keyAll subBatchIdFn state vals).1.map Prod.fst = vals := by
  induction vals generalizing state with
  | nil => rfl
  | cons val vals ih => simp [keyAll, ih]

/-- What holds of the keyed values and the caller's state before a value is
keyed, and holds again after it, holds when all are. -/
theorem keyAll_run {subBatchIdFn : σ → T → V × σ} (Inv : List (T × V) → σ → Prop)
    (keeps : ∀ done state val, Inv done state →
      Inv (done ++ [(val, (subBatchIdFn state val).1)]) (subBatchIdFn state val).2)
    (state : σ) (vals : List T) (start : Inv [] state) :
    Inv (keyAll subBatchIdFn state vals).1 (keyAll subBatchIdFn state vals).2 := by
  suffices ∀ done state, Inv done state →
      Inv (done ++ (keyAll subBatchIdFn state vals).1) (keyAll subBatchIdFn state vals).2 by
    simpa using this [] state start
  induction vals with
  | nil =>
    intro done state held
    simpa [keyAll] using held
  | cons val vals ih =>
    intro done state held
    have after := ih _ _ (keeps done state val held)
    rwa [List.append_assoc] at after

variable [DecidableEq V] [DecidableEq U]

/-- Without clustering the batches are those of the loop, for a single value too. -/
theorem batches_eq_group (options : BatchingOptions σ T V U) (state : σ) (vals : List T) :
    (batches options state vals).1 =
      (group (options.subBatchEqFn.map (· (keyAll options.subBatchIdFn state vals).2)) options.seriesIdFn
        options.maxSize (keyAll options.subBatchIdFn state vals).1).results := by
  unfold batches
  split
  · rename_i val
    have single (item : T × V) : (group (options.subBatchEqFn.map (· (keyAll options.subBatchIdFn state [val]).2))
        options.seriesIdFn options.maxSize [item]).results = [[⟨item.1, 0⟩]] := by
      cases options.subBatchEqFn <;> cases options.maxSize <;>
        simp [group, Grouping.add, Grouping.batchIdx, Grouping.dropFull, Grouping.enter, Grouping.empty]
    exact (single (val, (options.subBatchIdFn state val).1)).symm
  · rfl

theorem batchByKey_unclustered (options : BatchingOptions σ T V U) (unclustered : options.clustering = none)
    (state : σ) (vals : List T) : batchByKey sorting options state vals = batches options state vals := by
  unfold batchByKey
  split
  · rfl
  · rw [unclustered]

/-- The batches before clustering hold every entry of the input once, and
satisfy the invariants of the loop. -/
theorem batches_sound (options : BatchingOptions σ T V U) (state : σ) (vals : List T) :
    (batches options state vals).1.flatten.Perm (entriesOf vals) ∧
      ∀ items ∈ (batches options state vals).1,
        SoundBatch options.seriesIdFn (keyAll options.subBatchIdFn state vals).1 items := by
  rw [batches_eq_group]
  have grouped : Grouped options.seriesIdFn _ (group (options.subBatchEqFn.map
      (· (keyAll options.subBatchIdFn state vals).2)) options.seriesIdFn options.maxSize
      (keyAll options.subBatchIdFn state vals).1) := group_grouped _
  exact ⟨by simpa only [keyAll_vals] using grouped.entries, grouped.sound⟩

/-- Within the cap, a batch agrees with its first entry, by the comparison made
in the state the keys leave behind. -/
theorem batches_agree (options : BatchingOptions σ T V U) {equal : σ → T → T → Bool}
    (compares : options.subBatchEqFn = some equal) (state : σ) {vals : List T}
    (within : WithinCap options.maxSize vals.length) :
    ∀ items ∈ (batches options state vals).1, ∃ after, ∀ first rest, items = first :: rest →
      ∀ entry ∈ rest, equal after first.val entry.val = true := by
  have counted := congrArg List.length (keyAll_vals options.subBatchIdFn state vals)
  rw [List.length_map] at counted
  rw [batches_eq_group, compares]
  exact fun items member => ⟨_, group_agrees _ (by rwa [counted]) items member⟩

/-- With clustering, each batch is replaced on its own. -/
theorem batchByKey_eq (options : BatchingOptions σ T V U) (clusters : options.clustering = some clustering)
    (state : σ) (vals : List T) :
    (batchByKey sorting options state vals).1 =
      (batches options state vals).1.flatMap (replacement sorting clustering) := by
  unfold batchByKey
  split
  · rename_i val
    have few : ¬ 2 < (clusterWindows sorting clustering [(⟨val, 0⟩ : BatchEntry T)]).length := by
      have one : (clusterWindows sorting clustering _).length ≤ _ := clusterWindows_length_le [⟨val, 0⟩]
      simp only [List.length_singleton] at one
      omega
    simp [batches, replacement, few]
  · simp only [clusters]
    rw [replaceBelow_eq _ _ (Nat.le_refl _)]
    simp

end Taql.ClusteringProofs
