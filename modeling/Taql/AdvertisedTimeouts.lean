import Mathlib.Order.MinMax
import Taql.UpstreamTimeouts

/-! The timeout a subgraph is told against the one its fetch has. What is told is
padded down, but never below the threshold of the padding, and so it is more than
there is where less than the threshold is left. -/
namespace Taql.AdvertisedTimeouts
open Deadlines Executors Headers JavaScript MergedExtensions UpstreamTimeouts

theorem get_set (headers : List (String × String)) (name value : String) :
    get (set headers name value) name = some value := by
  have gone : (headers.filter fun header => header.1 ≠ name).filter (fun header => header.1 = name) = [] := by
    rw [List.filter_filter]
    apply List.filter_eq_nil_iff.mpr
    simp
  unfold Executors.get Executors.set GenericHeaders.find
  dsimp only
  rw [List.filter_append, gone]
  simp [String.intercalate_singleton]

theorem get_set_of_ne (headers : List (String × String)) {name other : String} (value : String)
    (differ : other ≠ name) :
    get (set headers other value) name = get headers name := by
  unfold Executors.get Executors.set GenericHeaders.find
  dsimp only
  rw [List.filter_append, List.filter_filter]
  have rest : headers.filter (fun header => decide (header.1 = name) && decide (header.1 ≠ other)) =
      headers.filter fun header => header.1 = name := by
    refine List.filter_congr fun header _ => ?_
    by_cases same : header.1 = name
    · simp [same, differ.symm]
    · simp [same]
  rw [rest]
  simp [differ]

/-- What a fetch tells the subgraph, and what it may take itself. -/
structure Advertises (params : TimeoutParams) (fetch : Fetch) (advertised enforced : Int) : Prop where
  sent : get fetch.headers "x-timeout" = some (JsNumber.num advertised).render
  padded : paddedTimeout params fetch.timeout = .num advertised
  timeout : fetch.timeout = .num enforced

/-- No more is advertised than there is. -/
structure Honest (params : TimeoutParams) (now : Int) (deadlines : List Int) (advertised enforced : Int) : Prop where
  within : advertised ≤ enforced
  remaining : ∀ deadline ∈ deadlines, advertised ≤ deadline - now
  hard : advertised ≤ params.upstream.hardMaxUpstreamTimeoutMillis

/-- Everything that bounds the timeout of a batch. -/
def limits (params : TimeoutParams) (subgraph : SubgraphConfig) (now : Int) (deadlines : List Int) : List Int :=
  params.upstream.hardMaxUpstreamTimeoutMillis ::
    subgraph.maxTimeoutMillis.getD params.upstream.softMaxUpstreamTimeoutMillis ::
      deadlines.map fun deadline => deadline - now - params.executionPaddingMillis

/-- There is no time at all, or as much as the threshold. -/
def OutsideBand (params : TimeoutParams) (limits : List Int) : Prop :=
  (∃ limit ∈ limits, limit < 0) ∨ ∀ limit ∈ limits, params.upstream.upstreamTimeoutPaddingThreshold ≤ limit

theorem load_advertises {params : TimeoutParams} {subgraph : SubgraphConfig} {timeout : Int}
    {forwardHeaders : TaqlHeaders} {upstreamHeaders : List (String × String)} {fetch : Fetch}
    (loaded : load params subgraph (.num timeout) forwardHeaders upstreamHeaders = .ok fetch) :
    Advertises params fetch
      (max params.upstream.upstreamTimeoutPaddingThreshold (timeout - params.upstream.upstreamTimeoutPaddingMillis))
      timeout := by
  unfold load at loaded
  dsimp only at loaded
  split at loaded
  · cases loaded
  · cases loaded
    refine ⟨?_, rfl, rfl⟩
    rw [get_set_of_ne _ _ (by decide), get_set]
    rfl

/-- The least of the limits is what a fetch may take. -/
theorem least_limit (params : TimeoutParams) (subgraph : SubgraphConfig) (now : Int) {deadlines : List Int}
    {least : Int}
    (isLeast : deadlines.min? = some least) :
    ∃ limit, computeTimeout params now (maxTimeout params subgraph) (some (.num least)) = .num limit ∧
      limit ∈ limits params subgraph now deadlines ∧ ∀ other ∈ limits params subgraph now deadlines, limit ≤ other := by
  obtain ⟨member, below⟩ := List.min?_eq_some_iff.mp isLeast
  refine ⟨_, rfl, ?_, ?_⟩
  · have among : least - now - params.executionPaddingMillis ∈ limits params subgraph now deadlines :=
      List.mem_cons_of_mem _ (List.mem_cons_of_mem _ (List.mem_map_of_mem member))
    rcases min_choice (min (params.upstream.hardMaxUpstreamTimeoutMillis : Int)
      (subgraph.maxTimeoutMillis.getD params.upstream.softMaxUpstreamTimeoutMillis))
      (least - now - params.executionPaddingMillis) with is | is
    · rw [is]
      rcases min_choice (params.upstream.hardMaxUpstreamTimeoutMillis : Int)
        (subgraph.maxTimeoutMillis.getD params.upstream.softMaxUpstreamTimeoutMillis) with is' | is'
      · rw [is']
        exact List.mem_cons_self
      · rw [is']
        exact List.mem_cons_of_mem _ List.mem_cons_self
    · rw [is]
      exact among
  · intro other held
    rcases List.mem_cons.mp held with rfl | held
    · exact (min_le_left _ _).trans (min_le_left _ _)
    · rcases List.mem_cons.mp held with rfl | held
      · exact (min_le_left _ _).trans (min_le_right _ _)
      · obtain ⟨deadline, listed, rfl⟩ := List.mem_map.mp held
        have earlier := below deadline listed
        refine (min_le_right _ _).trans ?_
        omega

/-- The fetches of a call advertise no more than there is. -/
def AllHonest (params : TimeoutParams) (now : Int) (deadlines : List Int) (called : Except JsError Fetch) : Prop :=
  ∀ fetch, called = .ok fetch →
    ∃ advertised enforced, Advertises params fetch advertised enforced ∧ Honest params now deadlines advertised enforced

theorem bindLoad_honest_iff (params : TimeoutParams) (subgraph : SubgraphConfig)
    {getDeadline : T → Except JsError (Option JsNumber)} (getUpstreamHeaders : T → List (String × String)) (now : Int)
    {request : T} (forwardHeaders : TaqlHeaders) {deadlines : List Int} {least : Int}
    (isLeast : deadlines.min? = some least) (got : getDeadline request = .ok (some (.num least))) :
    AllHonest params now deadlines
        (bindLoad params subgraph getDeadline getUpstreamHeaders now request forwardHeaders) ↔
      OutsideBand params (limits params subgraph now deadlines) := by
  obtain ⟨limit, is, among, below⟩ := least_limit params subgraph now isLeast
  have called : bindLoad params subgraph getDeadline getUpstreamHeaders now request forwardHeaders =
      load params subgraph (.num limit) forwardHeaders (getUpstreamHeaders request) := by
    unfold bindLoad
    rw [got, ← is]
    rfl
  rw [called]
  rcases load_timeout params subgraph (.num limit) forwardHeaders (getUpstreamHeaders request) with
    ⟨low, refused⟩ | ⟨kept, fetch, loaded, _⟩
  · rw [JsNumber.lt_num, decide_eq_true_eq] at low
    constructor
    · intro _
      exact .inl ⟨limit, among, low⟩
    · intro _ fetch loaded
      rw [refused] at loaded
      cases loaded
  · rw [JsNumber.lt_num, decide_eq_false_iff_not, Int.not_lt] at kept
    have advertises := load_advertises loaded
    constructor
    · intro honest
      obtain ⟨advertised, enforced, advertises', honest⟩ := honest fetch loaded
      cases advertises.padded.symm.trans advertises'.padded
      cases advertises.timeout.symm.trans advertises'.timeout
      refine .inr fun other held => ?_
      exact (le_max_left _ _).trans (honest.within.trans (below other held))
    · rintro (⟨other, held, low⟩ | enough) fetch' loaded'
      · exact absurd low (Int.not_lt.mpr (kept.trans (below other held)))
      · cases loaded.symm.trans loaded'
        have within : max (params.upstream.upstreamTimeoutPaddingThreshold : Int)
            (limit - params.upstream.upstreamTimeoutPaddingMillis) ≤ limit := by
          have threshold := enough limit among
          omega
        refine ⟨_, _, advertises, within, fun deadline listed => ?_, within.trans (below _ List.mem_cons_self)⟩
        have left := below _ (List.mem_cons_of_mem _ (List.mem_cons_of_mem _ (List.mem_map_of_mem listed)))
        omega

/-- A batch in any style, and each of its requests alone, is told of no more time than
there is exactly when there is none, or as much as the threshold. -/
theorem advertised_timeout_iff (params : TimeoutParams) (subgraph : SubgraphConfig) (now : Int)
    (forwardHeaders : TaqlHeaders) {batch : List ExecutionRequest} (filled : batch ≠ []) {deadlines : List Int}
    (timed : batch.map getDeadline = deadlines.map fun deadline => some (.num deadline)) :
    (AllHonest params now deadlines (arrayLoader params subgraph now batch forwardHeaders) ↔
      OutsideBand params (limits params subgraph now deadlines)) ∧
    (∀ first rest merged, batch = first :: rest → mergeRequests first rest = .ok merged →
      (AllHonest params now deadlines (makeRemoteExecutor params subgraph now merged) ↔
        OutsideBand params (limits params subgraph now deadlines))) ∧
    ∀ request ∈ batch, ∃ deadline ∈ deadlines, getDeadline request = some (.num deadline) ∧
      (AllHonest params now [deadline] (makeRemoteExecutor params subgraph now request) ↔
        OutsideBand params (limits params subgraph now [deadline])) := by
  have some_ : deadlines ≠ [] := by
    rintro rfl
    exact filled (List.map_eq_nil_iff.mp timed)
  obtain ⟨least, isLeast⟩ := Option.ne_none_iff_exists'.mp (mt List.min?_eq_none_iff.mp some_)
  have picked : (batch.map getDeadline).foldl reduceDeadlines none = some (.num least) := by
    rw [timed, foldl_reduceDeadlines_num, isLeast]
    rfl
  refine ⟨?_, fun first rest merged split merges => ?_, fun request member => ?_⟩
  · apply bindLoad_honest_iff params subgraph mergeUpstreamHeaders now forwardHeaders isLeast
    rw [pickDeadline_eq_ok filled, picked]
  · apply bindLoad_honest_iff params subgraph upstreamHeadersFromContext now _ isLeast
    rw [getDeadline_merged merges, ← split, picked]
    rfl
  · have listed : getDeadline request ∈ deadlines.map fun deadline => some (JsNumber.num deadline) := by
      rw [← timed]
      exact List.mem_map_of_mem member
    obtain ⟨deadline, among, is⟩ := List.mem_map.mp listed
    refine ⟨deadline, among, is.symm, ?_⟩
    apply bindLoad_honest_iff params subgraph upstreamHeadersFromContext now _ rfl
    exact congrArg Except.ok is.symm

/-- A request with nothing but a deadline. -/
def due (deadline : Int) : ExecutionRequest := ⟨some ⟨fun _ => none, some (.num deadline)⟩, none⟩

theorem advertised_timeout_second :
    AllHonest defaultTimeouts 0 [1000, 3000] (arrayLoader defaultTimeouts hotels 0 [due 1000, due 3000] []) := by
  have timed : [due 1000, due 3000].map getDeadline = [1000, 3000].map fun deadline => some (.num deadline) := rfl
  apply (advertised_timeout_iff defaultTimeouts hotels 0 [] (List.cons_ne_nil _ _) timed).1.mpr
  right
  decide

/-- With ten milliseconds left under the defaults, the subgraph is told of twenty-five. -/
theorem advertised_timeout_short :
    ¬AllHonest defaultTimeouts 0 [35] (makeRemoteExecutor defaultTimeouts hotels 0 (due 35)) := by
  intro honest
  obtain ⟨advertised, enforced, advertises, honest⟩ := honest _ rfl
  cases advertises.padded
  cases advertises.timeout
  exact absurd honest.within (by decide)

end Taql.AdvertisedTimeouts
