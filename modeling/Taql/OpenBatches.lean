import Mathlib.Data.List.TakeWhile
import Taql.GroupingProofs

/-! The batches of the grouping loop that a value may still join. Under one key no
two of them would take the same value, and they take every value of the current run
of the series again. One lemma says where a value is put, one branch of which puts
it where it does not belong. -/
namespace Taql.OpenBatches
open BatchByKey GroupingProofs

variable {T V U : Type}

/-- Whether a value may join another; without a comparison any may. -/
def related (subBatchEqFn : Option (T → T → Bool)) (lhs rhs : T) : Bool :=
  subBatchEqFn.all fun equal => equal lhs rhs

/-- What the comparison has to be. -/
structure Comparable (subBatchEqFn : Option (T → T → Bool)) : Prop where
  symmetric : ∀ lhs rhs, related subBatchEqFn lhs rhs = true → related subBatchEqFn rhs lhs = true
  transitive : ∀ lhs between rhs, related subBatchEqFn lhs between = true → related subBatchEqFn between rhs = true →
    related subBatchEqFn lhs rhs = true

/-- The first entry of a batch. -/
def headOf (results : List (List (BatchEntry T))) (batch : Nat) : Option (BatchEntry T) :=
  results[batch]?.bind List.head?

/-- The batch takes the value. -/
def Takes (subBatchEqFn : Option (T → T → Bool)) (results : List (List (BatchEntry T))) (batch : Nat) (val : T) :
    Prop :=
  ∃ first, headOf results batch = some first ∧ related subBatchEqFn first.val val = true

/-- The batch has reached the cap, if there is one. -/
def Full (maxSize : Option Nat) (results : List (List (BatchEntry T))) (batch : Nat) : Prop :=
  ∃ cap items, maxSize = some cap ∧ results[batch]? = some items ∧ cap ≤ items.length

theorem Comparable.congr {subBatchEqFn : Option (T → T → Bool)} (comparable : Comparable subBatchEqFn)
    {lhs rhs other : T}
    (same : related subBatchEqFn lhs rhs = true) :
    related subBatchEqFn lhs other = related subBatchEqFn rhs other := by
  rw [Bool.eq_iff_iff]
  constructor
  · exact comparable.transitive rhs lhs other (comparable.symmetric lhs rhs same)
  · exact comparable.transitive lhs rhs other same

section Heads
variable {results : List (List (BatchEntry T))}

theorem headOf_append (batch : Nat) (entry : BatchEntry T) :
    headOf (results ++ [[entry]]) batch = if batch = results.length then some entry else headOf results batch := by
  unfold headOf
  split
  · rename_i last
    simp [last]
  · rename_i other
    rw [List.getElem?_append]
    split
    · rfl
    · rw [List.getElem?_eq_none (by simp; omega), List.getElem?_eq_none (by omega)]

theorem headOf_modify (filled : ∀ items ∈ results, items ≠ []) (joined batch : Nat) (entry : BatchEntry T) :
    headOf (results.modify joined (· ++ [entry])) batch = headOf results batch := by
  unfold headOf
  rw [List.getElem?_modify]
  cases held : results[batch]? with
  | none => rfl
  | some items =>
    obtain ⟨first, rest, rfl⟩ := List.exists_cons_of_ne_nil (filled items (List.mem_of_getElem? held))
    by_cases here : joined = batch <;> simp [here]

end Heads

/-! ### Where a value is put -/

section Steps
variable {subBatchEqFn : Option (T → T → Bool)} {seriesIdFn : Option (T → U)} {maxSize : Option Nat}
  {done : List (T × V)} {state : Grouping T V U} [DecidableEq U]

/-- The candidates of a value. -/
def candidatesOf (seriesIdFn : Option (T → U)) (state : Grouping T V U) (item : T × V) : List Nat :=
  (state.enter (seriesOf seriesIdFn item.1)).ids item.2

theorem head_of_candidate (grouped : Grouped seriesIdFn done state) {item : T × V} {batch : Nat}
    (candidate : batch ∈ candidatesOf seriesIdFn state item) :
    ∃ items first, state.results[batch]? = some items ∧ items.head? = some first ∧
      headOf state.results batch = some first := by
  obtain ⟨items, held, _, sound⟩ := grouped.entered candidate
  obtain ⟨first, rest, rfl⟩ := List.exists_cons_of_ne_nil sound.nonempty
  exact ⟨_, first, held, rfl, by simp [headOf, held]⟩

private theorem takes_iff_accepts (grouped : Grouped seriesIdFn done state) {item : T × V} {batch : Nat}
    (candidate : batch ∈ candidatesOf seriesIdFn state item) :
    Takes subBatchEqFn state.results batch item.1 ↔ Accepts subBatchEqFn state.results batch item.1 := by
  obtain ⟨items, first, held, head, isHead⟩ := head_of_candidate grouped candidate
  constructor
  · rintro ⟨other, isOther, takes⟩ equal rfl
    cases isHead.symm.trans isOther
    exact ⟨items, first, held, head, takes⟩
  · intro accepts
    refine ⟨first, isHead, ?_⟩
    cases subBatchEqFn with
    | none => rfl
    | some equal =>
      obtain ⟨items', first', held', head', matched⟩ := accepts equal rfl
      cases held.symm.trans held'
      cases head.symm.trans head'
      exact matched

variable [DecidableEq V]

/-- The state after a value has been put into a batch, or has opened one. -/
def joined (seriesIdFn : Option (T → U)) (state : Grouping T V U) (item : T × V) (candidates : List Nat)
    (batch : Nat) : Grouping T V U :=
  ⟨state.results.modify batch (· ++ [⟨item.1, state.idx⟩]),
    Function.update (state.enter (seriesOf seriesIdFn item.1)).ids item.2 candidates,
    seriesOf seriesIdFn item.1, state.idx + 1⟩

def opened (seriesIdFn : Option (T → U)) (state : Grouping T V U) (item : T × V) (candidates : List Nat) :
    Grouping T V U :=
  ⟨state.results ++ [[⟨item.1, state.idx⟩]],
    Function.update (state.enter (seriesOf seriesIdFn item.1)).ids item.2 (candidates ++ [state.results.length]),
    seriesOf seriesIdFn item.1, state.idx + 1⟩

theorem opened_ids (state : Grouping T V U) (item : T × V) (candidates : List Nat) (key : V) :
    (opened seriesIdFn state item candidates).ids key =
      if key = item.2 then candidates ++ [state.results.length]
      else (state.enter (seriesOf seriesIdFn item.1)).ids key :=
  Function.update_apply ..

/-- Where a value is put. A full batch that takes it is dropped; the value opens a
batch if none comes after, and otherwise joins the next, which did not take it. -/
inductive Placed (subBatchEqFn : Option (T → T → Bool)) (seriesIdFn : Option (T → U)) (maxSize : Option Nat)
    (state : Grouping T V U) (item : T × V) : Grouping T V U → Prop where
  | join (batch : Nat) (candidate : batch ∈ candidatesOf seriesIdFn state item)
      (takes : Takes subBatchEqFn state.results batch item.1) (room : ¬Full maxSize state.results batch) :
      Placed subBatchEqFn seriesIdFn maxSize state item
        (joined seriesIdFn state item (candidatesOf seriesIdFn state item) batch)
  | first (refused : ∀ batch ∈ candidatesOf seriesIdFn state item, ¬Takes subBatchEqFn state.results batch item.1) :
      Placed subBatchEqFn seriesIdFn maxSize state item
        (opened seriesIdFn state item (candidatesOf seriesIdFn state item))
  | renew (before : List Nat) (batch : Nat) (shape : candidatesOf seriesIdFn state item = before ++ [batch])
      (takes : Takes subBatchEqFn state.results batch item.1) (full : Full maxSize state.results batch) :
      Placed subBatchEqFn seriesIdFn maxSize state item (opened seriesIdFn state item before)
  | misplace (before : List Nat) (batch next : Nat) (after : List Nat)
      (shape : candidatesOf seriesIdFn state item = before ++ batch :: next :: after)
      (takes : Takes subBatchEqFn state.results batch item.1) (full : Full maxSize state.results batch) :
      Placed subBatchEqFn seriesIdFn maxSize state item
        (joined seriesIdFn state item (before ++ next :: after) next)

omit [DecidableEq U] [DecidableEq V] in
private theorem dropFull_of_full {key : V} {position batch : Nat} (at_ : (state.ids key)[position]? = some batch)
    (full : Full maxSize state.results batch) :
    state.dropFull maxSize key (some position) = (state.ids key).eraseIdx position := by
  obtain ⟨cap, items, rfl, held, reached⟩ := full
  simp [Grouping.dropFull, at_, held, reached]

omit [DecidableEq U] [DecidableEq V] in
private theorem dropFull_of_room {key : V} {position batch : Nat} (at_ : (state.ids key)[position]? = some batch)
    (room : ¬Full maxSize state.results batch) :
    state.dropFull maxSize key (some position) = state.ids key := by
  cases maxSize with
  | none => rfl
  | some cap =>
    cases held : state.results[batch]? with
    | none => simp [Grouping.dropFull, at_, held]
    | some items =>
      have below : ¬cap ≤ items.length := fun reached => room ⟨cap, items, rfl, held, reached⟩
      simp [Grouping.dropFull, at_, held, below]

omit [DecidableEq U] [DecidableEq V] in
private theorem dropFull_of_none {key : V} {position : Nat} (at_ : (state.ids key)[position]? = none) :
    state.dropFull maxSize key (some position) = state.ids key := by
  cases maxSize <;> simp [Grouping.dropFull, at_]

theorem add_placed (grouped : Grouped seriesIdFn done state) (item : T × V) :
    Placed subBatchEqFn seriesIdFn maxSize state item (state.add subBatchEqFn seriesIdFn maxSize item) := by
  let entered := state.enter (seriesOf seriesIdFn item.1)
  have refuses {found : Option Nat} (is : entered.batchIdx subBatchEqFn item.1 item.2 = found)
      (none : found.bind ((entered.ids item.2)[·]?) = none) :
      ∀ batch ∈ candidatesOf seriesIdFn state item, ¬Takes subBatchEqFn state.results batch item.1 := by
    have refused : ∀ batch ∈ entered.ids item.2, ¬Accepts subBatchEqFn entered.results batch item.1 :=
      batchIdx_refuses (by rw [is]; exact none)
    intro batch candidate
    rw [takes_iff_accepts grouped candidate]
    exact refused batch candidate
  unfold Grouping.add
  simp only
  cases found : entered.batchIdx subBatchEqFn item.1 item.2 with
  | none =>
    have kept : entered.dropFull maxSize item.2 none = entered.ids item.2 := by
      cases maxSize <;> rfl
    rw [kept]
    exact .first (refuses found rfl)
  | some position =>
    cases at_ : (entered.ids item.2)[position]? with
    | none =>
      rw [dropFull_of_none at_, Option.bind_some, at_]
      exact .first (refuses found (by simpa using at_))
    | some batch =>
      have candidate : batch ∈ candidatesOf seriesIdFn state item := List.mem_of_getElem? at_
      have takes := (takes_iff_accepts grouped candidate).mpr (batchIdx_accepts entered found at_)
      by_cases full : Full maxSize state.results batch
      · obtain ⟨inside, here⟩ := List.getElem?_eq_some_iff.mp at_
        have shape : entered.ids item.2 =
            (entered.ids item.2).take position ++ batch :: (entered.ids item.2).drop (position + 1) := by
          rw [← here, ← List.drop_eq_getElem_cons inside, List.take_append_drop]
        rw [dropFull_of_full at_ full, List.eraseIdx_eq_take_drop_succ, Option.bind_some,
          List.getElem?_append_right (List.length_take_le _ _), List.length_take, Nat.min_eq_left inside.le,
          Nat.sub_self]
        cases rest : (entered.ids item.2).drop (position + 1) with
        | nil =>
          rw [rest] at shape
          rw [List.append_nil]
          exact .renew _ batch shape takes full
        | cons next after =>
          rw [rest] at shape
          exact .misplace _ batch next after shape takes full
      · rw [dropFull_of_room at_ full, Option.bind_some, at_]
        exact .join batch candidate takes full

/-! ### What the candidates take -/

omit [DecidableEq V] in
/-- The values since the series last changed, latest first. -/
def currentRun (seriesIdFn : Option (T → U)) (done : List (T × V)) (series : Option U) : List (T × V) :=
  done.reverse.takeWhile fun item => seriesOf seriesIdFn item.1 = series

omit [DecidableEq V] in
theorem currentRun_snoc (done : List (T × V)) (item : T × V) (series : Option U) :
    currentRun seriesIdFn (done ++ [item]) series =
      if seriesOf seriesIdFn item.1 = series then item :: currentRun seriesIdFn done series else [] := by
  simp [currentRun, List.takeWhile_cons]

/-- What holds of the candidates as long as every value was put where it belongs:
each value of the run is taken by one, and by no other. -/
structure Open (subBatchEqFn : Option (T → T → Bool)) (seriesIdFn : Option (T → U)) (done : List (T × V))
    (state : Grouping T V U) : Prop where
  covers : ∀ series, ∀ earlier ∈ currentRun seriesIdFn done series, related subBatchEqFn earlier.1 earlier.1 = true →
    ∃ batch ∈ (state.enter series).ids earlier.2, Takes subBatchEqFn state.results batch earlier.1
  nodup : ∀ key, (state.ids key).Nodup
  unique : ∀ key, ∀ batch ∈ state.ids key, ∀ other ∈ state.ids key, ∀ val,
    Takes subBatchEqFn state.results batch val → Takes subBatchEqFn state.results other val → batch = other
  agrees : ∀ items ∈ state.results, ∀ first rest, items = first :: rest → ∀ entry ∈ rest,
    related subBatchEqFn first.val entry.val = true

omit [DecidableEq V] in
theorem open_empty : Open subBatchEqFn seriesIdFn ([] : List (T × V)) Grouping.empty where
  covers series earlier member := by cases member
  nodup key := List.nodup_nil
  unique key batch member := by cases member
  agrees items member := by cases member

omit [DecidableEq V] in
theorem Open.entered_nodup (held : Open subBatchEqFn seriesIdFn done state) (series : Option U) (key : V) :
    ((state.enter series).ids key).Nodup := by
  unfold Grouping.enter
  simp only
  split
  · exact held.nodup key
  · exact List.nodup_nil

omit [DecidableEq V] in
/-- Two candidates that take one value are one. -/
theorem Open.entered_unique (held : Open subBatchEqFn seriesIdFn done state) {series : Option U} {key : V}
    {batch other : Nat} (candidate : batch ∈ (state.enter series).ids key)
    (candidate' : other ∈ (state.enter series).ids key) {val : T}
    (takes : Takes subBatchEqFn state.results batch val)
    (takes' : Takes subBatchEqFn state.results other val) : batch = other :=
  held.unique key batch (mem_enter_ids.mp candidate).2 other (mem_enter_ids.mp candidate').2 val takes takes'

omit [DecidableEq V] in
/-- No candidate but one takes the value. -/
theorem Open.taken_once (held : Open subBatchEqFn seriesIdFn done state) {item : T × V} {before after : List Nat}
    {batch other : Nat} (shape : candidatesOf seriesIdFn state item = before ++ batch :: after)
    (takes : Takes subBatchEqFn state.results batch item.1) (member : other ∈ before ++ after) :
    ¬Takes subBatchEqFn state.results other item.1 := by
  intro takes'
  have nodup : (candidatesOf seriesIdFn state item).Nodup := held.entered_nodup _ item.2
  rw [shape, List.nodup_middle, List.nodup_cons] at nodup
  have candidate : batch ∈ candidatesOf seriesIdFn state item := by simp [shape]
  have candidate' : other ∈ candidatesOf seriesIdFn state item := by
    rw [shape]
    exact (List.perm_middle.mem_iff).mpr (List.mem_cons_of_mem _ member)
  obtain rfl := held.entered_unique candidate candidate' takes takes'
  exact nodup.1 member

omit [DecidableEq U] [DecidableEq V] in
theorem Takes.of_related {results : List (List (BatchEntry T))} (comparable : Comparable subBatchEqFn) {batch : Nat}
    {val other : T} (takes : Takes subBatchEqFn results batch val) (relates : related subBatchEqFn other val = true) :
    Takes subBatchEqFn results batch other := by
  obtain ⟨first, head, matches_⟩ := takes
  exact ⟨first, head, comparable.transitive _ _ _ matches_ (comparable.symmetric _ _ relates)⟩

omit [DecidableEq U] [DecidableEq V] in
/-- What takes two values relates them. -/
theorem related_of_takes (comparable : Comparable subBatchEqFn) {batch : Nat} {val other : T}
    (takes : Takes subBatchEqFn state.results batch val) (takes' : Takes subBatchEqFn state.results batch other) :
    related subBatchEqFn val other = true := by
  obtain ⟨first, head, relates⟩ := takes
  obtain ⟨first', head', relates'⟩ := takes'
  cases head.symm.trans head'
  exact comparable.transitive _ _ _ (comparable.symmetric _ _ relates) relates'

omit [DecidableEq V] in
/-- A batch takes what is related to any of its values. -/
theorem Open.takes_of_mem (held : Open subBatchEqFn seriesIdFn done state) (comparable : Comparable subBatchEqFn)
    {batch : Nat} {items : List (BatchEntry T)} (at_ : state.results[batch]? = some items) {entry : BatchEntry T}
    (member : entry ∈ items) {val : T} (relates : related subBatchEqFn entry.val val = true) :
    Takes subBatchEqFn state.results batch val := by
  cases items with
  | nil => cases member
  | cons first rest =>
    refine ⟨first, by simp [headOf, at_], ?_⟩
    rcases List.mem_cons.mp member with rfl | inRest
    · exact relates
    · have agrees := held.agrees _ (List.mem_of_getElem? at_) first rest rfl entry inRest
      exact comparable.transitive _ _ _ agrees relates

omit [DecidableEq V] in
/-- Whatever shares a batch is related. -/
theorem Open.related_of_mem (held : Open subBatchEqFn seriesIdFn done state) (comparable : Comparable subBatchEqFn)
    {items : List (BatchEntry T)} (listed : items ∈ state.results)
    (increasing : items.Pairwise fun first second => first.idx < second.idx) {first second : BatchEntry T}
    (firstIn : first ∈ items) (secondIn : second ∈ items) (before : first.idx < second.idx) :
    related subBatchEqFn first.val second.val = true := by
  cases items with
  | nil => cases firstIn
  | cons base rest =>
    have agrees := held.agrees _ listed base rest rfl
    have least := (List.pairwise_cons.mp increasing).1
    rcases List.mem_cons.mp secondIn with rfl | secondRest
    · rcases List.mem_cons.mp firstIn with rfl | firstRest
      · exact absurd before (Nat.lt_irrefl _)
      · exact absurd before (Nat.lt_asymm (least first firstRest))
    · rcases List.mem_cons.mp firstIn with rfl | firstRest
      · exact agrees second secondRest
      · exact comparable.transitive _ _ _ (comparable.symmetric _ _ (agrees first firstRest)) (agrees second secondRest)

section Join
variable {item : T × V} {joining : Nat}

theorem takes_joined (grouped : Grouped seriesIdFn done state) (candidates : List Nat) (batch : Nat) (val : T) :
    Takes subBatchEqFn (joined seriesIdFn state item candidates joining).results batch val ↔
      Takes subBatchEqFn state.results batch val := by
  unfold Takes
  rw [joined, headOf_modify fun items member => (grouped.sound items member).nonempty]

/-- A value that joins a batch that takes it leaves the candidates as they are. -/
theorem Open.join (held : Open subBatchEqFn seriesIdFn done state) (grouped : Grouped seriesIdFn done state)
    (candidate : joining ∈ candidatesOf seriesIdFn state item)
    (takes : Takes subBatchEqFn state.results joining item.1) :
    Open subBatchEqFn seriesIdFn (done ++ [item])
      (joined seriesIdFn state item (candidatesOf seriesIdFn state item) joining) := by
  have same : (joined seriesIdFn state item (candidatesOf seriesIdFn state item) joining).ids =
      (state.enter (seriesOf seriesIdFn item.1)).ids := Function.update_eq_self ..
  refine ⟨?_, fun key => ?_, fun key batch member other member' val => ?_, ?_⟩
  · intro series earlier member relates
    rw [currentRun_snoc] at member
    split at member
    · rename_i enters
      subst enters
      have entered : ((joined seriesIdFn state item (candidatesOf seriesIdFn state item) joining).enter
          (seriesOf seriesIdFn item.1)).ids = (state.enter (seriesOf seriesIdFn item.1)).ids := by
        rw [Grouping.enter, ← same]
        exact if_pos rfl
      simp only [entered, takes_joined grouped]
      rcases List.mem_cons.mp member with rfl | member
      · exact ⟨joining, candidate, takes⟩
      · exact held.covers _ earlier member relates
    · cases member
  · rw [same]
    exact held.entered_nodup _ key
  · rw [same] at member member'
    simp only [takes_joined grouped]
    exact held.entered_unique member member'
  · intro items member first rest shape entry inRest
    rcases mem_modify member with member | ⟨old, heldOld, joined⟩
    · exact held.agrees items member first rest shape entry inRest
    · obtain ⟨head, isHead, relates⟩ := takes
      cases old with
      | nil => exact absurd rfl (grouped.sound [] (List.mem_of_getElem? heldOld)).nonempty
      | cons base others =>
        rw [shape, List.cons_append] at joined
        cases joined
        rw [headOf, heldOld] at isHead
        cases isHead
        rcases List.mem_append.mp inRest with inOld | isNew
        · exact held.agrees _ (List.mem_of_getElem? heldOld) _ others rfl entry inOld
        · rw [List.mem_singleton.mp isNew]
          exact relates

end Join

section Start
variable {item : T × V} {kept : List Nat}

omit [DecidableEq V] in
theorem lt_of_candidate (grouped : Grouped seriesIdFn done state) {series : Option U} {key : V} {batch : Nat}
    (candidate : batch ∈ (state.enter series).ids key) : batch < state.results.length := by
  obtain ⟨items, held, _⟩ := grouped.entered candidate
  exact (List.getElem?_eq_some_iff.mp held).1

theorem takes_opened (batch : Nat) (val : T) :
    Takes subBatchEqFn (opened seriesIdFn state item kept).results batch val ↔
      if batch = state.results.length then related subBatchEqFn item.1 val = true
      else Takes subBatchEqFn state.results batch val := by
  unfold Takes
  rw [opened, headOf_append]
  split <;> simp

/-- The candidates take what they took, and the batch that is opened what is related
to its value. -/
private theorem takes_old (grouped : Grouped seriesIdFn done state) {key : V} {batch : Nat}
    (candidate : batch ∈ (state.enter (seriesOf seriesIdFn item.1)).ids key) (val : T) :
    Takes subBatchEqFn (opened seriesIdFn state item kept).results batch val ↔
      Takes subBatchEqFn state.results batch val := by
  rw [takes_opened, if_neg (Nat.ne_of_lt (lt_of_candidate grouped candidate))]

private theorem takes_new (val : T) :
    Takes subBatchEqFn (opened seriesIdFn state item kept).results state.results.length val ↔
      related subBatchEqFn item.1 val = true := by
  rw [takes_opened, if_pos rfl]

/-- What a candidate takes that refused the value, the batch of the value does not take. -/
private theorem takes_apart (grouped : Grouped seriesIdFn done state) (comparable : Comparable subBatchEqFn)
    {key : V} {batch : Nat} (candidate : batch ∈ (state.enter (seriesOf seriesIdFn item.1)).ids key)
    (refused : ¬Takes subBatchEqFn state.results batch item.1) {val : T}
    (takes : Takes subBatchEqFn (opened seriesIdFn state item kept).results batch val) :
    ¬Takes subBatchEqFn (opened seriesIdFn state item kept).results state.results.length val := by
  rw [takes_old grouped candidate] at takes
  rw [takes_new]
  intro relates
  exact refused (takes.of_related comparable relates)

/-- A value of the run is taken where it was, or by the new batch where its own was dropped. -/
private theorem Open.start_covers (held : Open subBatchEqFn seriesIdFn done state)
    (grouped : Grouped seriesIdFn done state) (comparable : Comparable subBatchEqFn)
    (dropped : ∀ batch ∈ candidatesOf seriesIdFn state item, batch ∉ kept →
      Takes subBatchEqFn state.results batch item.1)
    (series : Option U) (earlier : T × V) (member : earlier ∈ currentRun seriesIdFn (done ++ [item]) series)
    (relates : related subBatchEqFn earlier.1 earlier.1 = true) :
    ∃ batch ∈ ((opened seriesIdFn state item kept).enter series).ids earlier.2,
      Takes subBatchEqFn (opened seriesIdFn state item kept).results batch earlier.1 := by
  rw [currentRun_snoc] at member
  split at member
  · rename_i enters
    subst enters
    have entered : ((opened seriesIdFn state item kept).enter (seriesOf seriesIdFn item.1)).ids =
        (opened seriesIdFn state item kept).ids := if_pos rfl
    rw [entered, opened_ids]
    rcases List.mem_cons.mp member with rfl | member
    · exact ⟨state.results.length, by simp, (takes_new _).mpr relates⟩
    · obtain ⟨batch, candidate, takes⟩ := held.covers _ earlier member relates
      split
      · rename_i sameKey
        rw [sameKey] at candidate
        by_cases stays : batch ∈ kept
        · exact ⟨batch, List.mem_append_left _ stays, (takes_old grouped candidate _).mpr takes⟩
        · have alike := related_of_takes comparable (dropped batch candidate stays) takes
          exact ⟨state.results.length, by simp, (takes_new _).mpr alike⟩
      · exact ⟨batch, candidate, (takes_old grouped candidate _).mpr takes⟩
  · cases member

private theorem Open.start_unique (held : Open subBatchEqFn seriesIdFn done state)
    (grouped : Grouped seriesIdFn done state) (comparable : Comparable subBatchEqFn)
    (keeps : kept.Sublist (candidatesOf seriesIdFn state item))
    (refused : ∀ batch ∈ kept, ¬Takes subBatchEqFn state.results batch item.1)
    (key : V) (batch : Nat) (member : batch ∈ (opened seriesIdFn state item kept).ids key)
    (other : Nat) (member' : other ∈ (opened seriesIdFn state item kept).ids key) (val : T)
    (takes : Takes subBatchEqFn (opened seriesIdFn state item kept).results batch val)
    (takes' : Takes subBatchEqFn (opened seriesIdFn state item kept).results other val) : batch = other := by
  have old {key : V} {batch other : Nat} (candidate : batch ∈ (state.enter (seriesOf seriesIdFn item.1)).ids key)
      (candidate' : other ∈ (state.enter (seriesOf seriesIdFn item.1)).ids key)
      (takes : Takes subBatchEqFn (opened seriesIdFn state item kept).results batch val)
      (takes' : Takes subBatchEqFn (opened seriesIdFn state item kept).results other val) : batch = other :=
    held.entered_unique candidate candidate' ((takes_old grouped candidate val).mp takes)
      ((takes_old grouped candidate' val).mp takes')
  rw [opened_ids] at member member'
  split at member
  · rename_i sameKey
    rw [if_pos sameKey] at member'
    rcases List.mem_append.mp member with stays | last <;> rcases List.mem_append.mp member' with stays' | last'
    · exact old (keeps.subset stays) (keeps.subset stays') takes takes'
    · rw [List.mem_singleton.mp last'] at takes'
      exact absurd takes' (takes_apart grouped comparable (keeps.subset stays) (refused batch stays) takes)
    · rw [List.mem_singleton.mp last] at takes
      exact absurd takes (takes_apart grouped comparable (keeps.subset stays') (refused other stays') takes')
    · rw [List.mem_singleton.mp last, List.mem_singleton.mp last']
  · rename_i otherKey
    rw [if_neg otherKey] at member'
    exact old member member' takes takes'

/-- A value that opens a batch takes the place of what is dropped, which took it too. -/
theorem Open.start (held : Open subBatchEqFn seriesIdFn done state) (grouped : Grouped seriesIdFn done state)
    (comparable : Comparable subBatchEqFn) (keeps : kept.Sublist (candidatesOf seriesIdFn state item))
    (refused : ∀ batch ∈ kept, ¬Takes subBatchEqFn state.results batch item.1)
    (dropped : ∀ batch ∈ candidatesOf seriesIdFn state item, batch ∉ kept →
      Takes subBatchEqFn state.results batch item.1) :
    Open subBatchEqFn seriesIdFn (done ++ [item]) (opened seriesIdFn state item kept) := by
  refine ⟨held.start_covers grouped comparable dropped, fun key => ?_,
    held.start_unique grouped comparable keeps refused, ?_⟩
  · rw [opened_ids]
    split
    · refine List.nodup_append.mpr ⟨(held.entered_nodup _ _).sublist keeps, List.nodup_singleton _, ?_⟩
      intro batch member last isLast same
      have below := lt_of_candidate grouped (keeps.subset member)
      rw [same, List.mem_singleton.mp isLast] at below
      exact absurd below (Nat.lt_irrefl _)
    · exact held.entered_nodup _ key
  · intro items member first rest shape entry inRest
    rcases List.mem_append.mp member with member | member
    · exact held.agrees items member first rest shape entry inRest
    · rw [List.mem_singleton.mp member] at shape
      cases shape
      cases inRest

end Start

/-! ### The loop -/

/-- The value is taken by a full batch that is not the last candidate. -/
def Misplaced (subBatchEqFn : Option (T → T → Bool)) (seriesIdFn : Option (T → U)) (maxSize : Option Nat)
    (state : Grouping T V U) (item : T × V) : Prop :=
  ∃ before batch next after, candidatesOf seriesIdFn state item = before ++ batch :: next :: after ∧
    Takes subBatchEqFn state.results batch item.1 ∧ Full maxSize state.results batch

theorem Open.add (held : Open subBatchEqFn seriesIdFn done state) (grouped : Grouped seriesIdFn done state)
    (comparable : Comparable subBatchEqFn) {item : T × V}
    (placed : ¬Misplaced subBatchEqFn seriesIdFn maxSize state item) :
    Open subBatchEqFn seriesIdFn (done ++ [item]) (state.add subBatchEqFn seriesIdFn maxSize item) := by
  have added : Placed subBatchEqFn seriesIdFn maxSize state item _ := add_placed grouped item
  generalize state.add subBatchEqFn seriesIdFn maxSize item = after at added ⊢
  cases added with
  | join batch candidate takes room => exact held.join grouped candidate takes
  | first refused =>
    apply held.start grouped comparable (List.Sublist.refl _) refused
    intro batch candidate stays
    exact absurd candidate stays
  | renew before batch shape takes full =>
    apply held.start grouped comparable
    · rw [shape]
      exact List.sublist_append_left _ _
    · intro other stays
      exact held.taken_once shape takes (List.mem_append_left _ stays)
    · intro other candidate' leaves
      rw [shape] at candidate'
      obtain rfl : other = batch := by simpa [leaves] using candidate'
      exact takes
  | misplace before batch next after shape takes full =>
    exact absurd ⟨before, batch, next, after, shape, takes, full⟩ placed

theorem group_snoc (done : List (T × V)) (item : T × V) :
    group subBatchEqFn seriesIdFn maxSize (done ++ [item]) =
      (group subBatchEqFn seriesIdFn maxSize done).add subBatchEqFn seriesIdFn maxSize item := by
  rw [group, List.foldl_append]
  rfl

/-- Batches only grow. -/
theorem add_grows (grouped : Grouped seriesIdFn done state) (item : T × V) {batch : Nat}
    {items : List (BatchEntry T)} (held : state.results[batch]? = some items) :
    ∃ items', (state.add subBatchEqFn seriesIdFn maxSize item).results[batch]? = some items' ∧ items ⊆ items' := by
  have added : Placed subBatchEqFn seriesIdFn maxSize state item _ := add_placed grouped item
  have inside : batch < state.results.length := (List.getElem?_eq_some_iff.mp held).1
  generalize state.add subBatchEqFn seriesIdFn maxSize item = after at added ⊢
  cases added with
  | join joining candidate takes room | misplace _ _ joining _ shape takes full =>
    by_cases here : joining = batch
    · exact ⟨items ++ [⟨item.1, state.idx⟩], by simp [joined, here, held], List.subset_append_left _ _⟩
    · exact ⟨items, by simp [joined, here, held], List.Subset.refl _⟩
  | first refused | renew before dropped shape takes full =>
    exact ⟨items, by rw [opened, List.getElem?_append_left inside, held], List.Subset.refl _⟩

end Steps

end Taql.OpenBatches
