import Taql.BatchMembership
import Taql.HeaderIsolation

/-! The batches of the Headers strategy, said of the requests: those that carry the same
headers, where their digest is not empty, and between which the operation type does not
change. The state of the contexts and the collation play no part in it. -/
namespace Taql.HeaderBatches
open JavaScript Context BatchingContext BatchByKey Strategies GroupingProofs OpenBatches BatchMembership
open ClusteringProofs
open SubBatches HeaderIsolation

variable {runtime : Runtime} {config : BatchingConfig} {state : PrivateState runtime} {requests : List TaqlRequest}

/-- The headers by which a request may be batched with others: those with a digest. -/
def hashedHeaders (runtime : Runtime) (request : TaqlRequest) : Option BatchHeaders :=
  (comparedHeaders runtime request).filter fun headers => runtime.hashHeaders headers ≠ ""

/-- Two requests of the input that the strategy does not tell apart. -/
def Alike (runtime : Runtime) (requests : List TaqlRequest) (one other : BatchEntry TaqlRequest) : Prop :=
  one = other ∨ (hashedHeaders runtime one.val).isSome ∧
    hashedHeaders runtime one.val = hashedHeaders runtime other.val ∧ SameRun requests one.idx other.idx

instance (runtime : Runtime) (requests : List TaqlRequest) (one : BatchEntry TaqlRequest) :
    DecidablePred (Alike runtime requests one) :=
  fun other => inferInstanceAs (Decidable (one = other ∨ _))

theorem Alike.symm {one other : BatchEntry TaqlRequest} (alike : Alike runtime requests one other) :
    Alike runtime requests other one := by
  rcases alike with same | ⟨hashed, same, run⟩
  · exact .inl same.symm
  · exact .inr ⟨same ▸ hashed, same.symm, (sameRun_equivalence requests).symm run⟩

/-! ### Keys and comparison -/

theorem byHeadersEq_iff (state : PrivateState runtime) (lhs rhs : TaqlRequest) :
    byHeadersEq state lhs rhs = true ↔ comparedHeaders runtime lhs = comparedHeaders runtime rhs := by
  refine ⟨byHeadersEq_eq, fun same => ?_⟩
  simp only [byHeadersEq, PrivateState.batchByHeaders_fst, Bool.or_eq_true, headersEqual_iff]
  exact .inr same

theorem comparable (state : PrivateState runtime) : Comparable (some (byHeadersEq state)) := by
  constructor
  · intro lhs rhs same
    simp only [related, Option.all_some, byHeadersEq_iff] at same ⊢
    exact same.symm
  · intro lhs between rhs first second
    simp only [related, Option.all_some, byHeadersEq_iff] at first second ⊢
    exact first.trans second

/-- The key of a request is the digest of its headers, or a symbol. -/
def KeyedByHeaders (runtime : Runtime) (item : TaqlRequest × SubBatchId) : Prop :=
  match hashedHeaders runtime item.1 with
  | some headers => item.2 = .hash (runtime.hashHeaders headers)
  | none => ∃ number, item.2 = .symbol number

theorem keyedByHeaders_keyAll (state : PrivateState runtime) (requests : List TaqlRequest) :
    ∀ item ∈ (keyAll byHeadersId state requests).1, KeyedByHeaders runtime item := by
  refine keyAll_run (fun done _ => ∀ item ∈ done, KeyedByHeaders runtime item) ?_ state requests (by simp)
  intro done state request held item member
  rcases List.mem_append.mp member with member | member
  · exact held item member
  · rw [List.mem_singleton.mp member, KeyedByHeaders]
    unfold byHeadersId hashedHeaders comparedHeaders
    cases request.taql with
    | none => exact ⟨_, rfl⟩
    | some ctx =>
      simp only [PrivateState.batchByHeadersHash_fst, Runtime.batchByHeadersHash, Option.map_some, Option.filter_some]
      by_cases empty : runtime.hashHeaders (runtime.batchByHeaders ctx) = ""
      · simp only [empty, if_true, ne_eq, not_true, decide_false, Bool.false_eq_true, if_false]
        exact ⟨_, rfl⟩
      · simp [empty]

/-! ### Who is batched with whom -/

theorem batched_headers (within : WithinCap config.maxSize requests.length) :
    Batched (some (byHeadersEq (keyAll byHeadersId state requests).2)) (some seriesIdFn)
      (keyAll byHeadersId state requests).1 (batched .Headers config state requests) := by
  have counted : (keyAll byHeadersId state requests).1.length = requests.length := by
    rw [← List.length_map, keyAll_vals]
  have same : batched .Headers config state requests = _ := batches_eq_group (byHeadersOptions config) state requests
  rw [same, group_within _ (counted ▸ within)]
  exact group_batched (comparable _) _

theorem hashed_of_compared {one other : TaqlRequest}
    (same : comparedHeaders runtime one = comparedHeaders runtime other) :
    hashedHeaders runtime one = hashedHeaders runtime other := by
  rw [hashedHeaders, same, hashedHeaders]

theorem compared_of_hashed {one other : TaqlRequest} (some_ : (hashedHeaders runtime one).isSome)
    (same : hashedHeaders runtime one = hashedHeaders runtime other) :
    comparedHeaders runtime one = comparedHeaders runtime other := by
  obtain ⟨headers, has⟩ := Option.isSome_iff_exists.mp some_
  have otherHas := same.symm.trans has
  rw [(Option.filter_eq_some_iff.mp has).1, (Option.filter_eq_some_iff.mp otherHas).1]

/-- For an earlier and a later request. -/
private theorem together_iff_alike {one other : BatchEntry TaqlRequest} (before : one.idx < other.idx)
    (oneAt : requests[one.idx]? = some one.val) (otherAt : requests[other.idx]? = some other.val) :
    Together (some (byHeadersEq (keyAll byHeadersId state requests).2)) (some seriesIdFn)
      (keyAll byHeadersId state requests).1 one.idx other.idx one.val other.val ↔ Alike runtime requests one other := by
  have keyed := keyAll_vals byHeadersId state requests
  rw [← keyed, List.getElem?_map] at oneAt otherAt
  obtain ⟨oneItem, oneHeld, oneIs⟩ := Option.map_eq_some_iff.mp oneAt
  obtain ⟨otherItem, otherHeld, otherIs⟩ := Option.map_eq_some_iff.mp otherAt
  have oneKey := keyedByHeaders_keyAll state requests oneItem (List.mem_of_getElem? oneHeld)
  have otherKey := keyedByHeaders_keyAll state requests otherItem (List.mem_of_getElem? otherHeld)
  rw [KeyedByHeaders, oneIs] at oneKey
  rw [KeyedByHeaders, otherIs] at otherKey
  have run : (∀ k, one.idx ≤ k → k ≤ other.idx → seriesAt (some seriesIdFn) (keyAll byHeadersId state requests).1 k =
      seriesAt (some seriesIdFn) (keyAll byHeadersId state requests).1 one.idx) ↔
        SameRun requests one.idx other.idx := by
    simp only [seriesAt_keyAll, SameRun, max_eq_right before.le, min_eq_left before.le]
    exact ⟨fun all k high low => all k low high, fun all k low high => all k high low⟩
  unfold Together
  rw [run, keyAt, keyAt, oneHeld, otherHeld]
  simp only [related, Option.all_some, byHeadersEq_iff, Option.map_some, Option.some.injEq]
  constructor
  · rintro ⟨sameKey, compared, run⟩
    refine .inr ⟨?_, hashed_of_compared compared, run⟩
    cases hashed : hashedHeaders runtime one.val with
    | some headers => rfl
    | none =>
      -- No two requests have one symbol.
      rw [hashed] at oneKey
      obtain ⟨number, isSymbol⟩ := oneKey
      have apart := (symbolsApart_keyAll state requests).apart
      obtain ⟨oneInside, rfl⟩ := List.getElem?_eq_some_iff.mp oneHeld
      obtain ⟨otherInside, rfl⟩ := List.getElem?_eq_some_iff.mp otherHeld
      exact absurd (sameKey ▸ isSymbol)
        (List.pairwise_iff_getElem.mp apart _ _ oneInside otherInside before number isSymbol)
  · rintro (rfl | ⟨hashed, same, run⟩)
    · exact absurd before (Nat.lt_irrefl _)
    · refine ⟨?_, compared_of_hashed hashed same, run⟩
      obtain ⟨headers, has⟩ := Option.isSome_iff_exists.mp hashed
      rw [has] at oneKey same
      rw [← same] at otherKey
      exact oneKey.trans otherKey.symm

theorem batched_together_iff (within : WithinCap config.maxSize requests.length) {one other : BatchEntry TaqlRequest}
    (oneIn : one ∈ entriesOf requests) (otherIn : other ∈ entriesOf requests) :
    (∃ batch ∈ batched .Headers config state requests, one ∈ batch ∧ other ∈ batch) ↔
      Alike runtime requests one other := by
  have whole : Batched _ _ _ (batched .Headers config state requests) := batched_headers within
  have oneAt := mem_entriesOf.mp oneIn
  have otherAt := mem_entriesOf.mp otherIn
  have keyed := keyAll_vals byHeadersId state requests
  rcases Nat.lt_trichotomy one.idx other.idx with before | same | after
  · rw [← together_iff_alike before oneAt otherAt]
    exact whole.together _ _ _ _ before (by rwa [keyed]) (by rwa [keyed])
  · have equal : one = other := by
      obtain ⟨oneVal, oneIdx⟩ := one
      obtain ⟨otherVal, otherIdx⟩ := other
      cases same
      cases oneAt.symm.trans otherAt
      rfl
    subst equal
    refine iff_of_true ?_ (.inl rfl)
    obtain ⟨batch, batchIn, held⟩ := List.mem_flatten.mp (whole.entries.mem_iff.mpr (by rwa [keyed]))
    exact ⟨batch, batchIn, held, held⟩
  · have there : (∃ batch ∈ batched .Headers config state requests, other ∈ batch ∧ one ∈ batch) ↔ _ :=
      (whole.together _ _ _ _ after (by rwa [keyed]) (by rwa [keyed])).trans (together_iff_alike after otherAt oneAt)
    simp only [and_comm (a := one ∈ _), there]
    exact ⟨Alike.symm, Alike.symm⟩

/-- A batch is made of the requests that are alike to one of its members. -/
theorem batch_eq_alike (within : WithinCap config.maxSize requests.length) {batch : List (BatchEntry TaqlRequest)}
    (batchIn : batch ∈ batched .Headers config state requests) {member : BatchEntry TaqlRequest}
    (held : member ∈ batch) :
    batch = (entriesOf requests).filter fun other => Alike runtime requests member other := by
  have whole : Batched _ _ _ (batched .Headers config state requests) := batched_headers within
  have keyed := keyAll_vals byHeadersId state requests
  have entries : (batched .Headers config state requests).flatten.Perm (entriesOf requests) := by
    have held := whole.entries
    rwa [keyed] at held
  have inInput {batch' : List (BatchEntry TaqlRequest)} (listed : batch' ∈ batched .Headers config state requests)
      {entry : BatchEntry TaqlRequest} (entryIn : entry ∈ batch') : entry ∈ entriesOf requests :=
    entries.subset (List.mem_flatten.mpr ⟨batch', listed, entryIn⟩)
  have increasing := entriesOf_increasing requests
  have nodup : (batched .Headers config state requests).flatten.Nodup :=
    entries.nodup_iff.mpr (nodup_of_increasing increasing)
  have alone {batch' : List (BatchEntry TaqlRequest)} (listed : batch' ∈ batched .Headers config state requests)
      (also : member ∈ batch') : batch' = batch := by
    by_contra differ
    have : Std.Symm (List.Disjoint : List (BatchEntry TaqlRequest) → _) :=
      ⟨fun _ _ apart _ first second => apart second first⟩
    exact (List.nodup_flatten.mp nodup).2.forall listed batchIn differ also held
  have batchIncreasing := whole.increasing batch batchIn
  have filtered := increasing.filter fun other => decide (Alike runtime requests member other)
  apply eq_of_increasing _ batchIncreasing filtered
  apply (List.perm_ext_iff_of_nodup (nodup_of_increasing batchIncreasing) (nodup_of_increasing filtered)).mpr
  intro entry
  rw [List.mem_filter, decide_eq_true_iff]
  constructor
  · intro entryIn
    have entryInput := inInput batchIn entryIn
    exact ⟨entryInput,
      (batched_together_iff within (inInput batchIn held) entryInput).mp ⟨batch, batchIn, held, entryIn⟩⟩
  · rintro ⟨entryInput, alike⟩
    obtain ⟨batch', listed, also, entryIn⟩ :=
      (batched_together_iff within (inInput batchIn held) entryInput).mpr alike
    exact alone listed also ▸ entryIn

/-- The batches are the requests that are alike to one of them, for each of the input. -/
theorem mem_batched_iff (within : WithinCap config.maxSize requests.length) (batch : List (BatchEntry TaqlRequest)) :
    batch ∈ batched .Headers config state requests ↔ ∃ member ∈ entriesOf requests,
      batch = (entriesOf requests).filter fun other => Alike runtime requests member other := by
  have entries : (batched .Headers config state requests).flatten.Perm (entriesOf requests) :=
    (batches_sound (byHeadersOptions config) state requests).1
  constructor
  · intro batchIn
    have sound := (batches_sound (byHeadersOptions config) state requests).2 batch batchIn
    obtain ⟨member, held⟩ := List.exists_mem_of_ne_nil batch sound.nonempty
    exact ⟨member, entries.subset (List.mem_flatten.mpr ⟨batch, batchIn, held⟩), batch_eq_alike within batchIn held⟩
  · rintro ⟨member, input, rfl⟩
    obtain ⟨batch, batchIn, held⟩ := List.mem_flatten.mp (entries.symm.subset input)
    rwa [← batch_eq_alike within batchIn held]

end Taql.HeaderBatches
