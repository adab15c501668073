import Taql.ClusteringProofs
import Taql.OpenBatches

/-! Batches with a cap. As long as no value is put where it does not belong, how many
values of its kind the run already holds tells how full the batch is that takes the
next one. A full batch that is not the last candidate is where the cap goes wrong. -/
namespace Taql.SizeCap
open BatchByKey GroupingProofs ClusteringProofs OpenBatches

variable {σ T V U : Type} [DecidableEq V]

/-- How many values of a run have the key of a value and are related to it. -/
def peers (subBatchEqFn : Option (T → T → Bool)) (run : List (T × V)) (item : T × V) : Nat :=
  run.countP fun earlier => earlier.2 = item.2 && related subBatchEqFn earlier.1 item.1

/-- The last value of a run, newest first, that is the first of a full count of its kind. -/
def lastOpener (subBatchEqFn : Option (T → T → Bool)) (cap : Nat) (key : V) : List (T × V) → Option T
  | [] => none
  | item :: run =>
    if item.2 = key ∧ cap ∣ peers subBatchEqFn run item then some item.1 else lastOpener subBatchEqFn cap key run

/-- The batches of the value's kind are full, and one of another kind was opened last. -/
def Overtaken (subBatchEqFn : Option (T → T → Bool)) (cap : Nat) (run : List (T × V)) (item : T × V) : Prop :=
  0 < peers subBatchEqFn run item ∧ cap ∣ peers subBatchEqFn run item ∧
    ∃ last, lastOpener subBatchEqFn cap item.2 run = some last ∧ related subBatchEqFn last item.1 = false

/-- What a batch must be: within the cap, of one key, of values related to each other. -/
structure SoundCapped (subBatchEqFn : Option (T → T → Bool)) (cap : Nat) (keyed : List (T × V))
    (batch : List (BatchEntry T)) : Prop where
  within : batch.length ≤ cap
  oneKey : ∀ first ∈ batch, ∀ second ∈ batch, keyAt keyed first.idx = keyAt keyed second.idx
  related : ∀ first ∈ batch, ∀ second ∈ batch, related subBatchEqFn first.val second.val = true

/-- What holds of the batches as long as every value was put where it belongs. -/
structure Capped [DecidableEq U] (subBatchEqFn : Option (T → T → Bool)) (seriesIdFn : Option (T → U)) (cap : Nat)
    (done : List (T × V)) (state : Grouping T V U) : Prop where
  within : ∀ items ∈ state.results, items.length ≤ cap
  counted : ∀ series key, ∀ batch ∈ (state.enter series).ids key, ∀ items, state.results[batch]? = some items →
    ∀ val, Takes subBatchEqFn state.results batch val →
      ∃ full, peers subBatchEqFn (currentRun seriesIdFn done series) (val, key) = cap * full + items.length
  last : ∀ series key before batch, (state.enter series).ids key = before ++ [batch] →
    ∃ first, headOf state.results batch = some first ∧
      lastOpener subBatchEqFn cap key (currentRun seriesIdFn done series) = some first.val

section Steps
variable {subBatchEqFn : Option (T → T → Bool)} {seriesIdFn : Option (T → U)} {cap : Nat} {done : List (T × V)}
  {state : Grouping T V U} {item : T × V} [DecidableEq U]

theorem peers_cons (run : List (T × V)) (earlier item : T × V) :
    peers subBatchEqFn (earlier :: run) item = peers subBatchEqFn run item +
      if earlier.2 = item.2 ∧ related subBatchEqFn earlier.1 item.1 = true then 1 else 0 := by
  simp [peers, List.countP_cons]

theorem peers_congr (comparable : Comparable subBatchEqFn) (run : List (T × V)) (key : V) {lhs rhs : T}
    (same : related subBatchEqFn lhs rhs = true) :
    peers subBatchEqFn run (lhs, key) = peers subBatchEqFn run (rhs, key) := by
  unfold peers
  congr 1
  funext earlier
  congr 1
  rw [Bool.eq_iff_iff]
  constructor
  · intro relates
    exact comparable.transitive _ _ _ relates same
  · intro relates
    exact comparable.transitive _ _ _ relates (comparable.symmetric _ _ same)

omit [DecidableEq V] in
/-- A candidate of two keys has one key. -/
private theorem key_of_candidate (grouped : Grouped seriesIdFn done state) {series : Option U} {key key' : V}
    {batch : Nat} (candidate : batch ∈ (state.enter series).ids key)
    (candidate' : batch ∈ (state.enter series).ids key') : key = key' := by
  obtain ⟨items, held, live, sound⟩ := grouped.entered candidate
  obtain ⟨items', held', live', _⟩ := grouped.entered candidate'
  cases held.symm.trans held'
  obtain ⟨first, rest, rfl⟩ := List.exists_cons_of_ne_nil sound.nonempty
  exact Option.some.inj ((live first List.mem_cons_self).1.symm.trans (live' first List.mem_cons_self).1)

theorem capped_empty : Capped subBatchEqFn seriesIdFn cap ([] : List (T × V)) Grouping.empty where
  within items member := by cases member
  counted series key batch member := by cases (mem_enter_ids.mp member).2
  last series key before batch shape := by
    have member : batch ∈ (Grouping.empty.enter series : Grouping T V U).ids key := by simp [shape]
    cases (mem_enter_ids.mp member).2

/-- A batch that takes a value is full when a full count of its kind is there. -/
theorem Capped.full_iff (capped : Capped subBatchEqFn seriesIdFn cap done state)
    (grouped : Grouped seriesIdFn done state) {batch : Nat} (candidate : batch ∈ candidatesOf seriesIdFn state item)
    (takes : Takes subBatchEqFn state.results batch item.1) :
    Full (some cap) state.results batch ↔
      cap ∣ peers subBatchEqFn (currentRun seriesIdFn done (seriesOf seriesIdFn item.1)) item := by
  obtain ⟨items, held, _, sound⟩ := grouped.entered candidate
  obtain ⟨full, counts⟩ := capped.counted _ _ batch candidate items held _ takes
  have some_ := List.length_pos_iff.mpr sound.nonempty
  have most := capped.within items (List.mem_of_getElem? held)
  rw [counts, Nat.dvd_add_right (Nat.dvd_mul_right cap full)]
  constructor
  · rintro ⟨_, _, capIs, held', reached⟩
    cases capIs
    cases held.symm.trans held'
    rw [Nat.le_antisymm most reached]
  · intro divides
    exact ⟨cap, items, rfl, held, Nat.le_of_dvd some_ divides⟩

/-- A value no candidate takes is the first of its kind. -/
theorem peers_of_refused (held : Open subBatchEqFn seriesIdFn done state) (comparable : Comparable subBatchEqFn)
    (refused : ∀ batch ∈ candidatesOf seriesIdFn state item, ¬Takes subBatchEqFn state.results batch item.1) :
    peers subBatchEqFn (currentRun seriesIdFn done (seriesOf seriesIdFn item.1)) item = 0 := by
  refine List.countP_eq_zero.mpr fun earlier member alike => ?_
  obtain ⟨sameKey, relates⟩ := Bool.and_eq_true_iff.mp alike
  have itself := comparable.transitive _ _ _ relates (comparable.symmetric _ _ relates)
  obtain ⟨batch, candidate, first, head, takes⟩ := held.covers _ earlier member itself
  rw [of_decide_eq_true sameKey] at candidate
  exact refused batch candidate ⟨first, head, comparable.transitive _ _ _ takes relates⟩

/-- The overtaken values are those put where they do not belong. -/
theorem misplaced_iff (capped : Capped subBatchEqFn seriesIdFn cap done state)
    (held : Open subBatchEqFn seriesIdFn done state) (grouped : Grouped seriesIdFn done state)
    (comparable : Comparable subBatchEqFn) :
    Misplaced subBatchEqFn seriesIdFn (some cap) state item ↔
      Overtaken subBatchEqFn cap (currentRun seriesIdFn done (seriesOf seriesIdFn item.1)) item := by
  constructor
  · rintro ⟨before, batch, next, after, shape, takes, full⟩
    have candidate : batch ∈ candidatesOf seriesIdFn state item := by simp [shape]
    have divides := (capped.full_iff grouped candidate takes).mp full
    obtain ⟨items, at_, _, sound⟩ := grouped.entered candidate
    obtain ⟨count, counts⟩ := capped.counted _ _ batch candidate items at_ _ takes
    have some_ := List.length_pos_iff.mpr sound.nonempty
    refine ⟨by rw [counts]; omega, divides, ?_⟩
    -- The last candidate is another batch, and no two take the value.
    obtain ⟨others, last, ends⟩ : ∃ others last, next :: after = others ++ [last] :=
      ⟨_, _, (List.dropLast_append_getLast (List.cons_ne_nil next after)).symm⟩
    rw [ends] at shape
    obtain ⟨first, head, opener⟩ := capped.last _ _ (before ++ batch :: others) last (by
      rw [List.append_assoc, List.cons_append]
      exact shape)
    refine ⟨first.val, opener, Bool.eq_false_iff.mpr fun relates => ?_⟩
    exact held.taken_once shape takes (by simp) ⟨first, head, relates⟩
  · rintro ⟨some_, divides, last, opener, stranger⟩
    by_cases refused : ∀ batch ∈ candidatesOf seriesIdFn state item, ¬Takes subBatchEqFn state.results batch item.1
    · rw [peers_of_refused held comparable refused] at some_
      exact absurd some_ (Nat.lt_irrefl _)
    · simp only [not_forall, not_not] at refused
      obtain ⟨batch, candidate, takes⟩ := refused
      obtain ⟨before, after, shape⟩ := List.append_of_mem candidate
      have full := (capped.full_iff grouped candidate takes).mpr divides
      cases after with
      | cons next after => exact ⟨before, batch, next, after, shape, takes, full⟩
      | nil =>
        -- The last opener would be the first of the value's own batch.
        obtain ⟨first, head, opens⟩ := capped.last _ _ before batch shape
        obtain ⟨first', head', relates⟩ := takes
        cases head.symm.trans head'
        cases opens.symm.trans opener
        rw [relates] at stranger
        cases stranger

omit [DecidableEq V] in
/-- Past a value, the candidates of a series are there only for the value's own. -/
private theorem series_of_candidate {after : Grouping T V U} (enters : after.series = seriesOf seriesIdFn item.1)
    {series : Option U} {key : V} {batch : Nat} (candidate : batch ∈ (after.enter series).ids key) :
    seriesOf seriesIdFn item.1 = series ∧ (after.enter series).ids = after.ids := by
  have same := (mem_enter_ids.mp candidate).1
  exact ⟨enters.symm.trans same, if_pos same⟩

/-- A value joins a batch that takes it and has room. -/
theorem Capped.join (capped : Capped subBatchEqFn seriesIdFn cap done state)
    (held : Open subBatchEqFn seriesIdFn done state) (grouped : Grouped seriesIdFn done state)
    (comparable : Comparable subBatchEqFn) {joining : Nat}
    (candidate : joining ∈ candidatesOf seriesIdFn state item)
    (takes : Takes subBatchEqFn state.results joining item.1) (room : ¬Full (some cap) state.results joining) :
    Capped subBatchEqFn seriesIdFn cap (done ++ [item])
      (joined seriesIdFn state item (candidatesOf seriesIdFn state item) joining) := by
  have same : (joined seriesIdFn state item (candidatesOf seriesIdFn state item) joining).ids =
      (state.enter (seriesOf seriesIdFn item.1)).ids := Function.update_eq_self ..
  have notFull := mt (capped.full_iff grouped candidate takes).mpr room
  refine ⟨fun items member => ?_, ?_, ?_⟩
  · rcases mem_modify member with member | ⟨old, at_, rfl⟩
    · exact capped.within items member
    · have below : ¬cap ≤ old.length := fun reached => room ⟨cap, old, rfl, at_, reached⟩
      rw [List.length_append, List.length_singleton]
      omega
  · intro series key batch member items at_ val takes'
    obtain ⟨rfl, entered⟩ := series_of_candidate rfl member
    rw [entered, same] at member
    rw [takes_joined grouped] at takes'
    rw [currentRun_snoc, if_pos rfl, peers_cons]
    by_cases here : joining = batch
    · subst here
      obtain ⟨old, held', _⟩ := grouped.entered candidate
      obtain ⟨full, counts⟩ := capped.counted _ _ joining member old held' val takes'
      obtain rfl : items = old ++ [⟨item.1, state.idx⟩] := by simpa [joined, held'] using at_.symm
      rw [if_pos ⟨key_of_candidate grouped candidate member, related_of_takes comparable takes takes'⟩, counts]
      exact ⟨full, by simp [Nat.add_assoc]⟩
    · have at_ : state.results[batch]? = some items := by simpa [joined, here] using at_
      obtain ⟨full, counts⟩ := capped.counted _ _ batch member items at_ val takes'
      rw [if_neg, counts]
      · exact ⟨full, rfl⟩
      · rintro ⟨rfl, relates⟩
        exact here (held.entered_unique candidate member takes (takes'.of_related comparable relates))
  · intro series key before batch shape
    have member : batch ∈ ((joined seriesIdFn state item (candidatesOf seriesIdFn state item) joining).enter
        series).ids key := by simp [shape]
    obtain ⟨rfl, entered⟩ := series_of_candidate rfl member
    rw [entered, same] at shape
    obtain ⟨first, head, opener⟩ := capped.last _ key before batch shape
    refine ⟨first, ?_, ?_⟩
    · rw [joined, headOf_modify fun items member => (grouped.sound items member).nonempty]
      exact head
    · rw [currentRun_snoc, if_pos rfl, lastOpener, if_neg fun opens => notFull opens.2]
      exact opener

/-- The new batch is the first of its kind after a full count, and the others have no
value of its kind that is to come. -/
private theorem Capped.start_counted (capped : Capped subBatchEqFn seriesIdFn cap done state)
    (grouped : Grouped seriesIdFn done state)
    (comparable : Comparable subBatchEqFn) {kept : List Nat} (keeps : kept.Sublist (candidatesOf seriesIdFn state item))
    (refused : ∀ batch ∈ kept, ¬Takes subBatchEqFn state.results batch item.1)
    (divides : cap ∣ peers subBatchEqFn (currentRun seriesIdFn done (seriesOf seriesIdFn item.1)) item)
    (series : Option U) (key : V) (batch : Nat)
    (member : batch ∈ ((opened seriesIdFn state item kept).enter series).ids key) (items : List (BatchEntry T))
    (at_ : (opened seriesIdFn state item kept).results[batch]? = some items) (val : T)
    (takes : Takes subBatchEqFn (opened seriesIdFn state item kept).results batch val) :
    ∃ full, peers subBatchEqFn (currentRun seriesIdFn (done ++ [item]) series) (val, key) =
      cap * full + items.length := by
  obtain ⟨rfl, entered⟩ := series_of_candidate rfl member
  rw [entered, opened_ids] at member
  rw [takes_opened] at takes
  rw [currentRun_snoc, if_pos rfl, peers_cons]
  by_cases new : batch = state.results.length
  · subst new
    rw [if_pos rfl] at takes
    obtain rfl : items = [⟨item.1, state.idx⟩] := by simpa [opened] using at_.symm
    split at member
    · rename_i sameKey
      subst sameKey
      obtain ⟨full, counts⟩ := divides
      rw [if_pos ⟨rfl, takes⟩, ← peers_congr comparable _ _ takes, counts]
      exact ⟨full, rfl⟩
    · exact absurd (lt_of_candidate grouped member) (Nat.lt_irrefl _)
  · rw [if_neg new] at takes
    have old : batch ∈ (state.enter (seriesOf seriesIdFn item.1)).ids key := by
      split at member
      · rename_i sameKey
        rw [sameKey]
        exact keeps.subset (by simpa [new] using member)
      · exact member
    rw [opened, List.getElem?_append_left (lt_of_candidate grouped old)] at at_
    obtain ⟨full, counts⟩ := capped.counted _ _ batch old items at_ val takes
    rw [if_neg, counts]
    · exact ⟨full, rfl⟩
    · rintro ⟨rfl, relates⟩
      rw [if_pos rfl] at member
      exact refused batch (by simpa [new] using member) (takes.of_related comparable relates)

/-- A value opens a batch when a full count of its kind is there. -/
theorem Capped.start (capped : Capped subBatchEqFn seriesIdFn cap done state) (positive : 1 ≤ cap)
    (grouped : Grouped seriesIdFn done state)
    (comparable : Comparable subBatchEqFn) {kept : List Nat} (keeps : kept.Sublist (candidatesOf seriesIdFn state item))
    (refused : ∀ batch ∈ kept, ¬Takes subBatchEqFn state.results batch item.1)
    (divides : cap ∣ peers subBatchEqFn (currentRun seriesIdFn done (seriesOf seriesIdFn item.1)) item) :
    Capped subBatchEqFn seriesIdFn cap (done ++ [item]) (opened seriesIdFn state item kept) := by
  refine ⟨fun items member => ?_, capped.start_counted grouped comparable keeps refused divides, ?_⟩
  · rcases List.mem_append.mp member with member | member
    · exact capped.within items member
    · rw [List.mem_singleton.mp member]
      exact positive
  · intro series key before batch shape
    have member : batch ∈ ((opened seriesIdFn state item kept).enter series).ids key := by simp [shape]
    obtain ⟨rfl, entered⟩ := series_of_candidate rfl member
    rw [entered, opened_ids] at shape
    rw [currentRun_snoc, if_pos rfl, lastOpener, opened, headOf_append]
    split at shape
    · rename_i sameKey
      obtain ⟨_, newest⟩ := List.append_inj' shape rfl
      cases newest
      exact ⟨_, if_pos rfl, if_pos ⟨sameKey.symm, divides⟩⟩
    · rename_i otherKey
      obtain ⟨first, head, opener⟩ := capped.last _ key before batch shape
      have candidate : batch ∈ (state.enter (seriesOf seriesIdFn item.1)).ids key := by simp [shape]
      have below := lt_of_candidate grouped candidate
      refine ⟨first, ?_, ?_⟩
      · rw [if_neg (Nat.ne_of_lt below)]
        exact head
      · rw [if_neg fun opens => otherKey opens.1.symm]
        exact opener

theorem Capped.add (capped : Capped subBatchEqFn seriesIdFn cap done state) (positive : 1 ≤ cap)
    (held : Open subBatchEqFn seriesIdFn done state) (grouped : Grouped seriesIdFn done state)
    (comparable : Comparable subBatchEqFn) (placed : ¬Misplaced subBatchEqFn seriesIdFn (some cap) state item) :
    Capped subBatchEqFn seriesIdFn cap (done ++ [item]) (state.add subBatchEqFn seriesIdFn (some cap) item) := by
  have added : Placed subBatchEqFn seriesIdFn (some cap) state item _ := add_placed grouped item
  generalize state.add subBatchEqFn seriesIdFn (some cap) item = after at added ⊢
  cases added with
  | join batch candidate takes room => exact capped.join held grouped comparable candidate takes room
  | first refused =>
    apply capped.start positive grouped comparable (List.Sublist.refl _) refused
    rw [peers_of_refused held comparable refused]
    exact Nat.dvd_zero cap
  | renew before batch shape takes full =>
    have candidate : batch ∈ candidatesOf seriesIdFn state item := by simp [shape]
    apply capped.start positive grouped comparable
    · rw [shape]
      exact List.sublist_append_left _ _
    · intro other stays
      exact held.taken_once shape takes (List.mem_append_left _ stays)
    · exact (capped.full_iff grouped candidate takes).mp full
  | misplace before batch next after shape takes full =>
    exact absurd ⟨before, batch, next, after, shape, takes, full⟩ placed

end Steps

/-! ### Whole runs of the loop -/

section Runs
variable {subBatchEqFn : Option (T → T → Bool)} {seriesIdFn : Option (T → U)} {cap : Nat} [DecidableEq U]

/-- No value was overtaken when its turn came. -/
def Unovertaken (subBatchEqFn : Option (T → T → Bool)) (seriesIdFn : Option (T → U)) (cap : Nat)
    (keyed : List (T × V)) : Prop :=
  ∀ (k : Nat) item, keyed[k]? = some item →
    ¬Overtaken subBatchEqFn cap (currentRun seriesIdFn (keyed.take k) (seriesOf seriesIdFn item.1)) item

theorem unovertaken_snoc (done : List (T × V)) (item : T × V) :
    Unovertaken subBatchEqFn seriesIdFn cap (done ++ [item]) ↔
      Unovertaken subBatchEqFn seriesIdFn cap done ∧
        ¬Overtaken subBatchEqFn cap (currentRun seriesIdFn done (seriesOf seriesIdFn item.1)) item := by
  constructor
  · intro all
    refine ⟨fun k earlier at_ => ?_, ?_⟩
    · have inside := (List.getElem?_eq_some_iff.mp at_).1
      have here := all k earlier (by rw [List.getElem?_append_left inside, at_])
      rwa [List.take_append_of_le_length inside.le] at here
    · simpa using all done.length item List.getElem?_concat_length
  · rintro ⟨all, last⟩ k earlier at_
    by_cases inside : k < done.length
    · rw [List.getElem?_append_left inside] at at_
      rw [List.take_append_of_le_length inside.le]
      exact all k earlier at_
    · have bound : k < done.length + 1 := by simpa using (List.getElem?_eq_some_iff.mp at_).1
      obtain rfl : k = done.length := by omega
      rw [List.getElem?_concat_length] at at_
      cases at_
      simpa using last

/-- As long as no value is overtaken, the invariants hold. -/
theorem group_capped (positive : 1 ≤ cap) (comparable : Comparable subBatchEqFn) (keyed : List (T × V))
    (all : Unovertaken subBatchEqFn seriesIdFn cap keyed) :
    Open subBatchEqFn seriesIdFn keyed (group subBatchEqFn seriesIdFn (some cap) keyed) ∧
      Capped subBatchEqFn seriesIdFn cap keyed (group subBatchEqFn seriesIdFn (some cap) keyed) := by
  induction keyed using List.reverseRecOn with
  | nil => exact ⟨open_empty, capped_empty⟩
  | append_singleton done item ih =>
    obtain ⟨before, last⟩ := (unovertaken_snoc done item).mp all
    obtain ⟨held, capped⟩ := ih before
    have grouped : Grouped seriesIdFn done (group subBatchEqFn seriesIdFn (some cap) done) := group_grouped done
    have placed := mt (misplaced_iff capped held grouped comparable).mp last
    rw [group_snoc]
    exact ⟨held.add grouped comparable placed, capped.add positive held grouped comparable placed⟩

/-- A misplaced value is in a batch with one it is not related to. -/
theorem stranger_of_misplaced {done : List (T × V)} {state : Grouping T V U} {item : T × V}
    (held : Open subBatchEqFn seriesIdFn done state) (grouped : Grouped seriesIdFn done state)
    (misplaced : Misplaced subBatchEqFn seriesIdFn (some cap) state item) :
    ∃ batch ∈ (state.add subBatchEqFn seriesIdFn (some cap) item).results, ∃ first ∈ batch, ∃ second ∈ batch,
      related subBatchEqFn first.val second.val = false := by
  obtain ⟨before, batch, next, after, shape, takes, full⟩ := misplaced
  have candidate : batch ∈ candidatesOf seriesIdFn state item := by simp [shape]
  have only {other : Nat} (candidate' : other ∈ candidatesOf seriesIdFn state item)
      (takes' : Takes subBatchEqFn state.results other item.1) : other = batch :=
    held.entered_unique candidate' candidate takes' takes
  have added : Placed subBatchEqFn seriesIdFn (some cap) state item _ := add_placed grouped item
  generalize state.add subBatchEqFn seriesIdFn (some cap) item = state' at added ⊢
  cases added with
  | join other candidate' takes' room =>
    rw [only candidate' takes'] at room
    exact absurd full room
  | first refused => exact absurd takes (refused batch candidate)
  | renew before' other shape' takes' _ =>
    -- The batch would be the last candidate, but there is one after it.
    rw [shape'] at shape
    have twice := congrArg (fun candidates => batch ∈ candidates.dropLast) shape
    have among : batch ∈ before' := by simpa using twice
    exact absurd takes (held.taken_once shape' takes' (List.mem_append_left _ among))
  | misplace before' other next' after' shape' takes' _ =>
    have isCandidate : next' ∈ candidatesOf seriesIdFn state item := by simp [shape']
    obtain ⟨items, first, at_, head, isHead⟩ := head_of_candidate grouped isCandidate
    refine ⟨items ++ [⟨item.1, state.idx⟩], ?_, first, List.mem_append_left _ (List.mem_of_mem_head? head),
      ⟨item.1, state.idx⟩, by simp, ?_⟩
    · apply List.mem_of_getElem? (i := next')
      simp [joined, at_]
    · refine Bool.eq_false_iff.mpr fun relates => ?_
      exact held.taken_once shape' takes' (by simp) ⟨first, isHead, relates⟩

/-- Once a value was overtaken, two values that are not related share a batch. -/
theorem unovertaken_of_related (positive : 1 ≤ cap) (comparable : Comparable subBatchEqFn) (keyed : List (T × V))
    (alike : ∀ batch ∈ (group subBatchEqFn seriesIdFn (some cap) keyed).results, ∀ first ∈ batch, ∀ second ∈ batch,
      related subBatchEqFn first.val second.val = true) :
    Unovertaken subBatchEqFn seriesIdFn cap keyed := by
  induction keyed using List.reverseRecOn with
  | nil => exact fun k item at_ => by cases at_
  | append_singleton done item ih =>
    have grouped : Grouped seriesIdFn done (group subBatchEqFn seriesIdFn (some cap) done) := group_grouped done
    rw [group_snoc] at alike
    have before : Unovertaken subBatchEqFn seriesIdFn cap done := by
      apply ih
      intro batch member first firstIn second secondIn
      obtain ⟨position, at_⟩ := List.mem_iff_getElem?.mp member
      obtain ⟨batch', at', more⟩ := add_grows grouped item at_
      exact alike batch' (List.mem_of_getElem? at') first (more firstIn) second (more secondIn)
    obtain ⟨held, capped⟩ := group_capped positive comparable done before
    refine (unovertaken_snoc done item).mpr ⟨before, fun overtaken => ?_⟩
    have misplaced := (misplaced_iff capped held grouped comparable).mpr overtaken
    obtain ⟨batch, member, first, firstIn, second, secondIn, strangers⟩ := stranger_of_misplaced held grouped misplaced
    rw [alike batch member first firstIn second secondIn] at strangers
    cases strangers

/-- The batches are sound when no value is overtaken. -/
theorem group_sound_iff (positive : 1 ≤ cap) (comparable : Comparable subBatchEqFn)
    (reflexive : ∀ val, related subBatchEqFn val val = true) (keyed : List (T × V)) :
    (∀ batch ∈ (group subBatchEqFn seriesIdFn (some cap) keyed).results, SoundCapped subBatchEqFn cap keyed batch) ↔
      Unovertaken subBatchEqFn seriesIdFn cap keyed := by
  constructor
  · intro sound
    apply unovertaken_of_related positive comparable
    intro batch member
    exact (sound batch member).related
  · intro all batch member
    have grouped : Grouped seriesIdFn keyed (group subBatchEqFn seriesIdFn (some cap) keyed) := group_grouped keyed
    obtain ⟨held, capped⟩ := group_capped positive comparable keyed all
    have sound := grouped.sound batch member
    refine ⟨capped.within batch member, sound.oneKey, fun first firstIn second secondIn => ?_⟩
    rcases Nat.lt_trichotomy first.idx second.idx with before | same | after
    · exact held.related_of_mem comparable member sound.increasing firstIn secondIn before
    · have distinct : (batch.map BatchEntry.idx).Nodup :=
        (List.pairwise_map.mpr sound.increasing).imp Nat.ne_of_lt
      rw [List.inj_on_of_nodup_map distinct firstIn secondIn same]
      exact reflexive _
    · exact comparable.symmetric _ _
        (held.related_of_mem comparable member sound.increasing secondIn firstIn after)

end Runs

/-- Every batch is within the cap, of one key and of values that may share it, exactly
when no value was overtaken. -/
theorem batchByKey_capped_iff [DecidableEq U] (sorting : JavaScript.ArraySort) (options : BatchingOptions σ T V U)
    {cap : Nat} (capped : options.maxSize = some cap) (positive : 1 ≤ cap) (unclustered : options.clustering = none)
    (comparable : ∀ state, Comparable (options.subBatchEqFn.map (· state)))
    (reflexive : ∀ state val, related (options.subBatchEqFn.map (· state)) val val = true)
    (state : σ) (vals : List T) :
    let keyed := keyAll options.subBatchIdFn state vals
    let subBatchEqFn := options.subBatchEqFn.map (· keyed.2)
    (∀ batch ∈ (batchByKey sorting options state vals).1, SoundCapped subBatchEqFn cap keyed.1 batch) ↔
      Unovertaken subBatchEqFn options.seriesIdFn cap keyed.1 := by
  intro keyed subBatchEqFn
  rw [batchByKey_unclustered options unclustered, batches_eq_group, capped]
  exact group_sound_iff positive (comparable keyed.2) (reflexive keyed.2) keyed.1

/-- Numbers of one key, that may share a batch when they are equal. -/
def equalNumbers (cap : Nat) : BatchingOptions Unit Nat Unit Unit :=
  ⟨fun state _ => ((), state), some fun _ lhs rhs => lhs == rhs, none, none, some cap⟩

theorem batchByKey_capped_equals :
    let keyed := keyAll (equalNumbers 2).subBatchIdFn () [1, 2, 1, 2, 2, 1, 1]
    let subBatchEqFn := (equalNumbers 2).subBatchEqFn.map (· keyed.2)
    (∀ batch ∈ (batchByKey JavaScript.insertionSort (equalNumbers 2) () [1, 2, 1, 2, 2, 1, 1]).1,
      SoundCapped subBatchEqFn 2 keyed.1 batch) ↔
      Unovertaken subBatchEqFn (equalNumbers 2).seriesIdFn 2 keyed.1 := by
  apply batchByKey_capped_iff
  · rfl
  · decide
  · rfl
  · intro state
    constructor <;> simp [equalNumbers, related]
  · simp [equalNumbers, related]

/-- With a cap of one, a value joins another that it must not share a batch with. -/
theorem batchByKey_joins_stranger :
    let options := equalNumbers 1
    let keyed := keyAll options.subBatchIdFn () [1, 2, 1]
    ¬∀ batch ∈ (batchByKey JavaScript.insertionSort options () [1, 2, 1]).1,
      SoundCapped (options.subBatchEqFn.map (· keyed.2)) 1 keyed.1 batch := by
  intro options keyed sound
  have joins : [⟨2, 1⟩, ⟨1, 2⟩] ∈ (batchByKey JavaScript.insertionSort options () [1, 2, 1]).1 := by decide
  have short := (sound _ joins).within
  exact absurd short (by decide)

end Taql.SizeCap
