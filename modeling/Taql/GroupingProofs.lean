import Mathlib.Data.List.Basic
import Mathlib.Tactic.Common
import Taql.BatchByKey

/-! The grouping loop of `batchByKey`, before clustering: no value is lost or
repeated, a batch holds one key and lies within one run of the series, and a
batch that never fills agrees with its first entry. One lemma says what a step
can do; every invariant is derived from it. -/
namespace Taql.GroupingProofs
open BatchByKey

variable {T V U : Type}

/-- The entries of the input, each value with its index. -/
def entriesOf (vals : List T) : List (BatchEntry T) :=
  vals.zipIdx.map fun item => ⟨item.1, item.2⟩

def keyAt (keyed : List (T × V)) (k : Nat) : Option V := keyed[k]?.map Prod.snd

/-- The series id of one input position, undefined past the end and when there
is no series function. -/
def seriesAt (seriesIdFn : Option (T → U)) (keyed : List (T × V)) (k : Nat) : Option U :=
  keyed[k]?.bind fun item => seriesOf seriesIdFn item.1

@[simp] theorem entriesOf_length (vals : List T) : (entriesOf vals).length = vals.length := by
  simp [entriesOf]

theorem entriesOf_append (vals : List T) (val : T) :
    entriesOf (vals ++ [val]) = entriesOf vals ++ [⟨val, vals.length⟩] := by
  simp [entriesOf, List.zipIdx_append]

theorem mem_entriesOf {vals : List T} {entry : BatchEntry T} :
    entry ∈ entriesOf vals ↔ vals[entry.idx]? = some entry.val := by
  simp only [entriesOf, List.mem_map, Prod.exists, List.mk_mem_zipIdx_iff_getElem?]
  constructor
  · rintro ⟨val, idx, held, rfl⟩
    exact held
  · intro held
    exact ⟨entry.val, entry.idx, held, rfl⟩

theorem entriesOf_map_idx (vals : List T) : (entriesOf vals).map BatchEntry.idx = List.range vals.length := by
  simp [entriesOf, Function.comp_def, List.range_eq_range']

theorem entriesOf_increasing (vals : List T) :
    (entriesOf vals).Pairwise fun first second => first.idx < second.idx := by
  rw [← List.pairwise_map (f := BatchEntry.idx) (R := (· < ·)), entriesOf_map_idx]
  exact List.pairwise_lt_range

/-- Entries in the order of the input are in no other. -/
theorem eq_of_increasing {one other : List (BatchEntry T)} (same : one.Perm other)
    (oneIncreasing : one.Pairwise fun first second => first.idx < second.idx)
    (otherIncreasing : other.Pairwise fun first second => first.idx < second.idx) : one = other := by
  refine same.eq_of_pairwise ?_ oneIncreasing otherIncreasing
  intro first second _ _ before after
  exact absurd (before.trans after) (Nat.lt_irrefl _)

theorem nodup_of_increasing {entries : List (BatchEntry T)}
    (increasing : entries.Pairwise fun first second => first.idx < second.idx) : entries.Nodup :=
  increasing.imp fun before same => by simp [same] at before

theorem entriesOf_map_val (vals : List T) : (entriesOf vals).map BatchEntry.val = vals := by
  simp [entriesOf, Function.comp_def]

theorem keyAt_append {done : List (T × V)} (before : k < done.length) :
    keyAt (done ++ [item]) k = keyAt done k := by
  simp [keyAt, List.getElem?_append_left before]

theorem keyAt_last (done : List (T × V)) (item : T × V) :
    keyAt (done ++ [item]) done.length = some item.2 := by
  simp [keyAt]

theorem seriesAt_append {done : List (T × V)} (before : k < done.length) :
    seriesAt seriesIdFn (done ++ [item]) k = seriesAt seriesIdFn done k := by
  simp [seriesAt, List.getElem?_append_left before]

theorem seriesAt_last (done : List (T × V)) (item : T × V) :
    seriesAt seriesIdFn (done ++ [item]) done.length = seriesOf seriesIdFn item.1 := by
  simp [seriesAt]

section Steps
variable {subBatchEqFn : Option (T → T → Bool)} {seriesIdFn : Option (T → U)} {maxSize : Option Nat}

theorem mem_enter_ids [DecidableEq U] {state : Grouping T V U} :
    batch ∈ (state.enter series).ids key ↔ state.series = series ∧ batch ∈ state.ids key := by
  simp only [Grouping.enter]
  split <;> simp_all

private theorem dropFull_sublist (state : Grouping T V U) (maxSize : Option Nat) (key : V) (found : Option Nat) :
    (state.dropFull maxSize key found).Sublist (state.ids key) := by
  unfold Grouping.dropFull
  split
  · split
    · exact List.eraseIdx_sublist _ _
    · exact .refl _
  · exact .refl _

/-- No batch has reached the size cap. -/
def Unfilled (maxSize : Option Nat) (results : List (List (BatchEntry T))) : Prop :=
  ∀ cap, maxSize = some cap → ∀ items ∈ results, items.length < cap

private theorem dropFull_unfilled (state : Grouping T V U) (unfilled : Unfilled maxSize state.results) :
    state.dropFull maxSize key found = state.ids key := by
  unfold Grouping.dropFull
  split
  · rename_i cap position
    split
    · rename_i full
      obtain ⟨items, held, reached⟩ := (Option.any_eq_true _ _).mp full
      obtain ⟨batch, _, held⟩ := Option.bind_eq_some_iff.mp held
      have below := unfilled cap rfl items (List.mem_of_getElem? held)
      simp only [decide_eq_true_eq] at reached
      omega
    · rfl
  · rfl

/-- The comparison accepts the first entry of the batch. -/
def Accepts (subBatchEqFn : Option (T → T → Bool)) (results : List (List (BatchEntry T))) (batch : Nat) (val : T) :
    Prop :=
  ∀ equal, subBatchEqFn = some equal →
    ∃ items first, results[batch]? = some items ∧ items.head? = some first ∧ equal first.val val = true

theorem batchIdx_accepts (state : Grouping T V U)
    (found : state.batchIdx subBatchEqFn val key = some position)
    (candidate : (state.ids key)[position]? = some batch) : Accepts subBatchEqFn state.results batch val := by
  rintro equal rfl
  obtain ⟨inside, answer, _⟩ := List.findIdx?_eq_some_iff_getElem.mp found
  have same : (state.ids key)[position] = batch := by
    rw [List.getElem?_eq_getElem inside] at candidate
    exact Option.some.inj candidate
  rw [same] at answer
  obtain ⟨first, held, matched⟩ := (Option.any_eq_true _ _).mp answer
  obtain ⟨items, inResults, head⟩ := Option.bind_eq_some_iff.mp held
  exact ⟨items, first, inResults, head, matched⟩

theorem batchIdx_refuses {state : Grouping T V U}
    (unmatched : (state.batchIdx subBatchEqFn val key).bind ((state.ids key)[·]?) = none) :
    ∀ batch ∈ state.ids key, ¬ Accepts subBatchEqFn state.results batch val := by
  intro batch candidate accepted
  cases subBatchEqFn with
  | none =>
    have empty : state.ids key = [] := by simpa [Grouping.batchIdx] using unmatched
    simp [empty] at candidate
  | some equal =>
    obtain ⟨items, first, held, head, matched⟩ := accepted equal rfl
    cases found : state.batchIdx (some equal) val key with
    | none =>
      have refused := List.findIdx?_eq_none_iff.mp found batch candidate
      simp [held, head, matched] at refused
    | some position =>
      obtain ⟨inside, _, _⟩ := List.findIdx?_eq_some_iff_getElem.mp found
      simp [found, List.getElem?_eq_getElem inside] at unmatched

variable [DecidableEq V] [DecidableEq U]

/-- Everything one step can do. The value joins a candidate of its key, or
opens a batch; the candidates of its key otherwise only shrink, and those of
the other keys stay. While no batch is full, none is dropped, a batch is joined
only if the comparison accepts its first entry, and one is opened only if every
candidate was refused. -/
inductive Adds (subBatchEqFn : Option (T → T → Bool)) (seriesIdFn : Option (T → U)) (maxSize : Option Nat)
    (state : Grouping T V U) (item : T × V) : Grouping T V U → Prop where
  | join (candidates : List Nat)
      (kept : candidates.Sublist ((state.enter (seriesOf seriesIdFn item.1)).ids item.2))
      (batch : Nat) (chosen : batch ∈ candidates)
      (accepted : Unfilled maxSize state.results → Accepts subBatchEqFn state.results batch item.1) :
      Adds subBatchEqFn seriesIdFn maxSize state item
        ⟨state.results.modify batch (· ++ [⟨item.1, state.idx⟩]),
          Function.update (state.enter (seriesOf seriesIdFn item.1)).ids item.2 candidates,
          seriesOf seriesIdFn item.1, state.idx + 1⟩
  | start (candidates : List Nat)
      (kept : candidates.Sublist ((state.enter (seriesOf seriesIdFn item.1)).ids item.2))
      (refused : Unfilled maxSize state.results →
        ∀ batch ∈ (state.enter (seriesOf seriesIdFn item.1)).ids item.2,
          ¬ Accepts subBatchEqFn state.results batch item.1) :
      Adds subBatchEqFn seriesIdFn maxSize state item
        ⟨state.results ++ [[⟨item.1, state.idx⟩]],
          Function.update (state.enter (seriesOf seriesIdFn item.1)).ids item.2
            (candidates ++ [state.results.length]),
          seriesOf seriesIdFn item.1, state.idx + 1⟩

theorem add_adds (state : Grouping T V U) (item : T × V) :
    Adds subBatchEqFn seriesIdFn maxSize state item (state.add subBatchEqFn seriesIdFn maxSize item) := by
  let entered := state.enter (seriesOf seriesIdFn item.1)
  let found := entered.batchIdx subBatchEqFn item.1 item.2
  have kept : (entered.dropFull maxSize item.2 found).Sublist (entered.ids item.2) := dropFull_sublist ..
  have whole (unfilled : Unfilled maxSize state.results) :
      entered.dropFull maxSize item.2 found = entered.ids item.2 :=
    dropFull_unfilled entered unfilled
  unfold Grouping.add
  simp only
  cases chosen : found.bind ((entered.dropFull maxSize item.2 found)[·]?) with
  | none =>
    refine .start _ kept ?_
    intro unfilled
    rw [whole unfilled] at chosen
    exact batchIdx_refuses chosen
  | some batch =>
    obtain ⟨position, at_, candidate⟩ := Option.bind_eq_some_iff.mp chosen
    refine .join _ kept batch (List.mem_of_getElem? candidate) ?_
    intro unfilled
    rw [whole unfilled] at candidate
    exact batchIdx_accepts entered at_ candidate

end Steps

/-! ### One batch -/

/-- What every batch satisfies once the values `done` have been added: its
entries stand in input order, under one key, and everything in the input from
one of them to another has the series id of the first. -/
structure SoundBatch (seriesIdFn : Option (T → U)) (done : List (T × V)) (items : List (BatchEntry T)) : Prop where
  nonempty : items ≠ []
  inside : ∀ entry ∈ items, entry.idx < done.length
  increasing : items.Pairwise fun first second => first.idx < second.idx
  oneKey : ∀ first ∈ items, ∀ second ∈ items, keyAt done first.idx = keyAt done second.idx
  oneRun : ∀ first ∈ items, ∀ second ∈ items, ∀ k, first.idx ≤ k → k ≤ second.idx →
    seriesAt seriesIdFn done k = seriesAt seriesIdFn done first.idx

/-- A batch that a value of this key may still join: no series id since any of
its entries differs from the current one. -/
def Live (seriesIdFn : Option (T → U)) (done : List (T × V)) (key : V) (series : Option U)
    (items : List (BatchEntry T)) : Prop :=
  ∀ entry ∈ items, keyAt done entry.idx = some key ∧
    ∀ k, entry.idx ≤ k → k < done.length → seriesAt seriesIdFn done k = series

section OneBatch
variable {seriesIdFn : Option (T → U)} {done : List (T × V)} {items : List (BatchEntry T)}

private theorem SoundBatch.extend (sound : SoundBatch seriesIdFn done items) (item : T × V) :
    SoundBatch seriesIdFn (done ++ [item]) items where
  nonempty := sound.nonempty
  inside entry member := by
    have := sound.inside entry member
    simp only [List.length_append, List.length_singleton]
    omega
  increasing := sound.increasing
  oneKey first firstIn second secondIn := by
    rw [keyAt_append (sound.inside first firstIn), keyAt_append (sound.inside second secondIn)]
    exact sound.oneKey first firstIn second secondIn
  oneRun first firstIn second secondIn k low high := by
    have bound := sound.inside second secondIn
    rw [seriesAt_append (by omega), seriesAt_append (by omega)]
    exact sound.oneRun first firstIn second secondIn k low high

theorem soundBatch_single (done : List (T × V)) (item : T × V) :
    SoundBatch seriesIdFn (done ++ [item]) [⟨item.1, done.length⟩] where
  nonempty := by simp
  inside := by simp
  increasing := List.pairwise_singleton _ _
  oneKey := by simp
  oneRun := by
    simp only [List.mem_singleton, forall_eq]
    intro k low high
    rw [Nat.le_antisymm high low]

/-- An entry whose key no other value has is a batch of its own. -/
theorem SoundBatch.alone {keyed : List (T × V)}
    (sound : SoundBatch seriesIdFn keyed items) (member : entry ∈ items)
    (unmatched : ∀ k, k ≠ entry.idx → keyAt keyed k ≠ keyAt keyed entry.idx) : items = [entry] := by
  have same : ∀ other ∈ items, other.idx = entry.idx := by
    intro other held
    by_contra differ
    exact unmatched other.idx differ (sound.oneKey other held entry member)
  cases items with
  | nil => cases member
  | cons first rest =>
    cases rest with
    | nil => rw [List.mem_singleton.mp member]
    | cons second rest =>
      have before := (List.pairwise_cons.mp sound.increasing).1 second (by simp)
      rw [same first (by simp), same second (by simp)] at before
      exact absurd before (Nat.lt_irrefl _)

private theorem SoundBatch.snoc (sound : SoundBatch seriesIdFn done items) (item : T × V)
    (live : Live seriesIdFn done item.2 series items) (same : series = seriesOf seriesIdFn item.1) :
    SoundBatch seriesIdFn (done ++ [item]) (items ++ [⟨item.1, done.length⟩]) where
  nonempty := by simp
  inside := by
    intro entry member
    rcases List.mem_append.mp member with member | member
    · exact (sound.extend item).inside entry member
    · simp [List.mem_singleton.mp member]
  increasing := by
    refine List.pairwise_append.mpr ⟨sound.increasing, List.pairwise_singleton _ _, ?_⟩
    intro first firstIn second secondIn
    simpa [List.mem_singleton.mp secondIn] using sound.inside first firstIn
  oneKey := by
    have keys : ∀ entry ∈ items ++ [⟨item.1, done.length⟩], keyAt (done ++ [item]) entry.idx = some item.2 := by
      intro entry member
      rcases List.mem_append.mp member with member | member
      · rw [keyAt_append (sound.inside entry member)]
        exact (live entry member).1
      · rw [List.mem_singleton.mp member]
        exact keyAt_last done item
    intro first firstIn second secondIn
    rw [keys first firstIn, keys second secondIn]
  oneRun := by
    intro first firstIn second secondIn k low high
    rcases List.mem_append.mp firstIn with firstIn | firstIn
    · rcases List.mem_append.mp secondIn with secondIn | secondIn
      · exact (sound.extend item).oneRun first firstIn second secondIn k low high
      · -- From an old entry to the new one, the whole stretch has the current series id.
        have start := (live first firstIn).2 first.idx (Nat.le_refl _) (sound.inside first firstIn)
        rw [seriesAt_append (sound.inside first firstIn), start]
        rw [List.mem_singleton.mp secondIn] at high
        by_cases last : k = done.length
        · rw [last, seriesAt_last, same]
        · have before : k < done.length := by
            simp only at high
            omega
          rw [seriesAt_append before]
          exact (live first firstIn).2 k low before
    · rw [List.mem_singleton.mp firstIn] at low ⊢
      have bound : second.idx ≤ done.length := by
        rcases List.mem_append.mp secondIn with secondIn | secondIn
        · exact Nat.le_of_lt (sound.inside second secondIn)
        · simp [List.mem_singleton.mp secondIn]
      have last : k = done.length := by
        simp only at low
        omega
      rw [last]

private theorem Live.extend (live : Live seriesIdFn done key series items)
    (inside : ∀ entry ∈ items, entry.idx < done.length) (item : T × V)
    (same : series = seriesOf seriesIdFn item.1) : Live seriesIdFn (done ++ [item]) key series items := by
  intro entry member
  refine ⟨(keyAt_append (inside entry member)).trans (live entry member).1, ?_⟩
  intro k low high
  by_cases last : k = done.length
  · rw [last, seriesAt_last, same]
  · simp only [List.length_append, List.length_singleton] at high
    have before : k < done.length := by omega
    rw [seriesAt_append before]
    exact (live entry member).2 k low before

private theorem live_new (done : List (T × V)) (item : T × V) :
    Live seriesIdFn (done ++ [item]) item.2 (seriesOf seriesIdFn item.1) [⟨item.1, done.length⟩] := by
  intro entry member
  rw [List.mem_singleton.mp member]
  refine ⟨keyAt_last done item, ?_⟩
  intro k low high
  simp only [List.length_append, List.length_singleton] at low high
  have last : k = done.length := by omega
  rw [last]
  exact seriesAt_last done item

end OneBatch

/-! ### The loop -/

theorem mem_modify {results : List (List α)} (member : items ∈ results.modify batch change) :
    items ∈ results ∨ ∃ before, results[batch]? = some before ∧ items = change before := by
  obtain ⟨position, held⟩ := List.mem_iff_getElem?.mp member
  rw [List.getElem?_modify] at held
  by_cases here : batch = position
  · subst here
    obtain ⟨before, old, rfl⟩ := Option.map_eq_some_iff.mp (by simpa using held)
    exact .inr ⟨before, old, rfl⟩
  · exact .inl (List.mem_of_getElem? (by simpa [here] using held))

private theorem flatten_modify (results : List (List α)) (held : results[batch]? = some before) (entry : α) :
    (results.modify batch (· ++ [entry])).flatten.Perm (results.flatten ++ [entry]) := by
  induction results generalizing batch with
  | nil => simp at held
  | cons items rest ih =>
    cases batch with
    | zero =>
      simp only [List.modify_zero_cons, List.flatten_cons, List.append_assoc]
      exact List.Perm.append_left items List.perm_append_comm
    | succ batch =>
      simp only [List.modify_succ_cons, List.flatten_cons, List.append_assoc]
      exact (ih (by simpa using held)).append_left items

/-- What holds of the grouping once the values `done` have been added. -/
structure Grouped (seriesIdFn : Option (T → U)) (done : List (T × V)) (state : Grouping T V U) : Prop where
  counted : state.idx = done.length
  entries : state.results.flatten.Perm (entriesOf (done.map Prod.fst))
  sound : ∀ items ∈ state.results, SoundBatch seriesIdFn done items
  live : ∀ key, ∀ batch ∈ state.ids key, ∃ items, state.results[batch]? = some items ∧
    Live seriesIdFn done key state.series items

section Loop
variable {subBatchEqFn : Option (T → T → Bool)} {seriesIdFn : Option (T → U)} {maxSize : Option Nat}

theorem grouped_empty : Grouped seriesIdFn ([] : List (T × V)) Grouping.empty where
  counted := rfl
  entries := .refl _
  sound := by simp [Grouping.empty]
  live := by simp [Grouping.empty]

/-- The caller's promise under which no batch reaches the size cap. -/
def WithinCap (maxSize : Option Nat) (count : Nat) : Prop := ∀ cap, maxSize = some cap → count ≤ cap

theorem WithinCap.mono (within : WithinCap maxSize count) (fewer : count' ≤ count) : WithinCap maxSize count' :=
  fun cap capped => fewer.trans (within cap capped)

private theorem Grouped.unfilled (grouped : Grouped seriesIdFn done state)
    (within : WithinCap maxSize (done.length + 1)) : Unfilled maxSize state.results := by
  intro cap capped items member
  have whole : items.length ≤ state.results.flatten.length :=
    (List.sublist_flatten_of_mem member).length_le
  rw [grouped.entries.length_eq, entriesOf_length, List.length_map] at whole
  have := within cap capped
  omega

variable [DecidableEq U]

theorem Grouped.entered (grouped : Grouped seriesIdFn done state)
    (candidate : batch ∈ (state.enter series).ids key) :
    ∃ items, state.results[batch]? = some items ∧ Live seriesIdFn done key series items ∧
      SoundBatch seriesIdFn done items := by
  obtain ⟨rfl, kept⟩ := mem_enter_ids.mp candidate
  obtain ⟨items, held, live⟩ := grouped.live key batch kept
  exact ⟨items, held, live, grouped.sound items (List.mem_of_getElem? held)⟩

/-- Two live batches of different keys are different batches. -/
private theorem Grouped.key_unique (grouped : Grouped seriesIdFn done state)
    (first : batch ∈ (state.enter series).ids key) (second : batch ∈ (state.enter series).ids key') :
    key = key' := by
  obtain ⟨items, held, live, sound⟩ := grouped.entered first
  obtain ⟨items', held', live', _⟩ := grouped.entered second
  cases held.symm.trans held'
  obtain ⟨entry, member⟩ := List.exists_mem_of_ne_nil items sound.nonempty
  exact Option.some.inj ((live entry member).1.symm.trans (live' entry member).1)

/-- What the candidates name stays live when the value's own entry is not added to it. -/
private theorem Grouped.still_live (grouped : Grouped seriesIdFn done state) (item : T × V)
    (candidate : batch ∈ (state.enter (seriesOf seriesIdFn item.1)).ids key) :
    ∃ items, state.results[batch]? = some items ∧
      Live seriesIdFn (done ++ [item]) key (seriesOf seriesIdFn item.1) items := by
  obtain ⟨items, held, live, sound⟩ := grouped.entered candidate
  exact ⟨items, held, live.extend sound.inside item rfl⟩

variable [DecidableEq V]

private theorem Grouped.join (grouped : Grouped seriesIdFn done state) (item : T × V) {candidates : List Nat}
    (kept : candidates.Sublist ((state.enter (seriesOf seriesIdFn item.1)).ids item.2))
    (chosen : batch ∈ candidates) :
    Grouped seriesIdFn (done ++ [item])
      ⟨state.results.modify batch (· ++ [⟨item.1, done.length⟩]),
        Function.update (state.enter (seriesOf seriesIdFn item.1)).ids item.2 candidates,
        seriesOf seriesIdFn item.1, done.length + 1⟩ := by
  obtain ⟨before, held, joins, soundBefore⟩ := grouped.entered (kept.subset chosen)
  refine ⟨by simp, ?entries, ?sound, ?live⟩
  case entries =>
    rw [List.map_append, List.map_singleton, entriesOf_append, List.length_map]
    exact (flatten_modify _ held _).trans (grouped.entries.append_right _)
  case sound =>
    intro items member
    rcases mem_modify member with member | ⟨old, heldOld, rfl⟩
    · exact (grouped.sound items member).extend item
    · cases held.symm.trans heldOld
      exact soundBefore.snoc item joins rfl
  case live =>
    intro key other candidate
    dsimp only at candidate ⊢
    by_cases sameKey : key = item.2
    · subst sameKey
      rw [Function.update_self] at candidate
      obtain ⟨items, heldItems, live⟩ := grouped.still_live item (kept.subset candidate)
      by_cases here : batch = other
      · subst here
        refine ⟨items ++ [⟨item.1, done.length⟩], by simp [heldItems], ?_⟩
        intro entry member
        rcases List.mem_append.mp member with member | member
        · exact live entry member
        · exact live_new done item entry member
      · exact ⟨items, by simp [here, heldItems], live⟩
    · rw [Function.update_of_ne sameKey] at candidate
      obtain ⟨items, heldItems, live⟩ := grouped.still_live item candidate
      have apart : batch ≠ other := by
        rintro rfl
        exact sameKey (grouped.key_unique candidate (kept.subset chosen))
      exact ⟨items, by simp [apart, heldItems], live⟩

private theorem Grouped.start (grouped : Grouped seriesIdFn done state) (item : T × V) {candidates : List Nat}
    (kept : candidates.Sublist ((state.enter (seriesOf seriesIdFn item.1)).ids item.2)) :
    Grouped seriesIdFn (done ++ [item])
      ⟨state.results ++ [[⟨item.1, done.length⟩]],
        Function.update (state.enter (seriesOf seriesIdFn item.1)).ids item.2
          (candidates ++ [state.results.length]),
        seriesOf seriesIdFn item.1, done.length + 1⟩ := by
  have old : ∀ {key other}, other ∈ (state.enter (seriesOf seriesIdFn item.1)).ids key →
      ∃ items, (state.results ++ [[⟨item.1, done.length⟩]])[other]? = some items ∧
        Live seriesIdFn (done ++ [item]) key (seriesOf seriesIdFn item.1) items := by
    intro key other candidate
    obtain ⟨items, held, live⟩ := grouped.still_live item candidate
    have inside : other < state.results.length := (List.getElem?_eq_some_iff.mp held).1
    exact ⟨items, by rw [List.getElem?_append_left inside, held], live⟩
  refine ⟨by simp, ?entries, ?sound, ?live⟩
  case entries =>
    rw [List.map_append, List.map_singleton, entriesOf_append, List.length_map]
    simpa using grouped.entries.append_right [⟨item.1, done.length⟩]
  case sound =>
    intro items member
    rcases List.mem_append.mp member with member | member
    · exact (grouped.sound items member).extend item
    · rw [List.mem_singleton.mp member]
      exact soundBatch_single done item
  case live =>
    intro key other candidate
    dsimp only at candidate ⊢
    by_cases sameKey : key = item.2
    · subst sameKey
      rw [Function.update_self] at candidate
      rcases List.mem_append.mp candidate with candidate | candidate
      · exact old (kept.subset candidate)
      · rw [List.mem_singleton.mp candidate]
        exact ⟨_, by simp, live_new done item⟩
    · rw [Function.update_of_ne sameKey] at candidate
      exact old candidate

theorem Grouped.add (grouped : Grouped seriesIdFn done state) (item : T × V) :
    Grouped seriesIdFn (done ++ [item]) (state.add subBatchEqFn seriesIdFn maxSize item) := by
  have added : Adds subBatchEqFn seriesIdFn maxSize state item _ := add_adds state item
  generalize state.add subBatchEqFn seriesIdFn maxSize item = after at added ⊢
  cases added with
  | join candidates kept batch chosen accepted =>
    rw [grouped.counted]
    exact grouped.join item kept chosen
  | start candidates kept refused =>
    rw [grouped.counted]
    exact grouped.start item kept

/-- The invariants of the loop hold of what it returns. -/
theorem group_grouped (keyed : List (T × V)) :
    Grouped seriesIdFn keyed (group subBatchEqFn seriesIdFn maxSize keyed) := by
  induction keyed using List.reverseRecOn with
  | nil => exact grouped_empty
  | append_singleton done item ih =>
    rw [group, List.foldl_append]
    exact ih.add item

/-! ### Batches that never fill -/

private theorem group_append (done : List (T × V)) (item : T × V) :
    Adds subBatchEqFn seriesIdFn maxSize (group subBatchEqFn seriesIdFn maxSize done) item
      (group subBatchEqFn seriesIdFn maxSize (done ++ [item])) := by
  rw [group, group, List.foldl_append]
  exact add_adds _ item

/-- Within the cap, the batches are those there are without it. -/
theorem group_within (keyed : List (T × V)) (within : WithinCap maxSize keyed.length) :
    group subBatchEqFn seriesIdFn maxSize keyed = group subBatchEqFn seriesIdFn none keyed := by
  induction keyed using List.reverseRecOn with
  | nil => rfl
  | append_singleton done item ih =>
    rw [List.length_append, List.length_singleton] at within
    have grouped : Grouped seriesIdFn done (group subBatchEqFn seriesIdFn none done) := group_grouped done
    have unfilled := grouped.unfilled within
    have same := ih (within.mono (Nat.le_succ _))
    unfold group at same unfilled ⊢
    rw [List.foldl_append, List.foldl_append, same]
    simp only [List.foldl_cons, List.foldl_nil, Grouping.add]
    rw [dropFull_unfilled (Grouping.enter _ _) unfilled, dropFull_unfilled]
    rintro cap ⟨⟩

/-- Within the cap, the comparison accepts every entry of a batch against the
batch's first one. -/
theorem group_agrees {equal : T → T → Bool} (keyed : List (T × V)) (within : WithinCap maxSize keyed.length) :
    ∀ items ∈ (group (some equal) seriesIdFn maxSize keyed).results, ∀ first rest, items = first :: rest →
      ∀ entry ∈ rest, equal first.val entry.val = true := by
  induction keyed using List.reverseRecOn with
  | nil => simp [group, Grouping.empty]
  | append_singleton done item ih =>
    rw [List.length_append, List.length_singleton] at within
    have before := ih (within.mono (Nat.le_succ _))
    have grouped : Grouped seriesIdFn done (group (some equal) seriesIdFn maxSize done) := group_grouped done
    have unfilled := grouped.unfilled within
    have added : Adds (some equal) seriesIdFn maxSize _ item _ := group_append done item
    generalize group (some equal) seriesIdFn maxSize (done ++ [item]) = after at added ⊢
    cases added with
    | join candidates kept batch chosen accepted =>
      intro items member first rest shape entry inRest
      rcases mem_modify member with member | ⟨old, held, joined⟩
      · exact before items member first rest shape entry inRest
      · obtain ⟨same, head, heldSame, isHead, matched⟩ := accepted unfilled equal rfl
        cases held.symm.trans heldSame
        cases old with
        | nil => simp at isHead
        | cons base others =>
          cases isHead
          rw [shape, List.cons_append] at joined
          cases joined
          rcases List.mem_append.mp inRest with inOld | isNew
          · exact before _ (List.mem_of_getElem? held) _ others rfl entry inOld
          · rw [List.mem_singleton.mp isNew]
            exact matched
    | start candidates kept refused =>
      intro items member first rest shape entry inRest
      rcases List.mem_append.mp member with member | member
      · exact before items member first rest shape entry inRest
      · rw [List.mem_singleton.mp member] at shape
        cases shape
        cases inRest

/-- With one key, no comparison, no series and room for every value, there is
a single batch. -/
theorem group_single {key : V} (keyed : List (T × V)) (oneKey : ∀ item ∈ keyed, item.2 = key)
    (within : WithinCap maxSize keyed.length) :
    (group none (none : Option (T → U)) maxSize keyed).results.length ≤ 1 := by
  suffices ∃ state, group none (none : Option (T → U)) maxSize keyed = state ∧ state.series = none ∧
      (state.results = [] ∨ state.results.length = 1 ∧ state.ids key ≠ []) by
    obtain ⟨state, rfl, _, empty | ⟨single, _⟩⟩ := this
    · simp [empty]
    · exact single.le
  induction keyed using List.reverseRecOn with
  | nil => exact ⟨_, rfl, rfl, .inl rfl⟩
  | append_singleton done item ih =>
    rw [List.length_append, List.length_singleton] at within
    obtain ⟨state, ran, unset, shape⟩ :=
      ih (fun other member => oneKey other (by simp [member])) (within.mono (Nat.le_succ _))
    have grouped : Grouped none done (group none (none : Option (T → U)) maxSize done) := group_grouped done
    have unfilled := grouped.unfilled within
    have added : Adds none (none : Option (T → U)) maxSize _ item _ := group_append done item
    generalize group none (none : Option (T → U)) maxSize (done ++ [item]) = after at added ⊢
    rw [ran] at added unfilled
    have entered : (state.enter (seriesOf (none : Option (T → U)) item.1)).ids = state.ids := by
      simp [Grouping.enter, seriesOf, unset]
    have sameKey := oneKey item (by simp)
    subst sameKey
    refine ⟨after, rfl, ?_⟩
    cases added with
    | join candidates kept batch chosen accepted =>
      rw [entered] at kept
      refine ⟨rfl, ?_⟩
      rcases shape with empty | ⟨single, candidate⟩
      · exact .inl (by simp [empty])
      · refine .inr ⟨by simpa using single, ?_⟩
        simpa using List.ne_nil_of_mem chosen
    | start candidates kept refused =>
      rw [entered] at refused
      refine ⟨rfl, ?_⟩
      rcases shape with empty | ⟨single, candidate⟩
      · exact .inr ⟨by simp [empty], by simp⟩
      · -- A candidate was there, and nothing refuses it.
        obtain ⟨batch, member⟩ := List.exists_mem_of_ne_nil _ candidate
        exact absurd (fun equal compares => nomatch compares) (refused unfilled batch member)

end Loop

end Taql.GroupingProofs
