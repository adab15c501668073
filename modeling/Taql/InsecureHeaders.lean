import Taql.AdvertisedTimeouts
import Taql.BatchingExecutors

/-! The headers of a sub-batch of the Insecure strategy. What the strategy hands over
has every value of an allowed name once, in the order they are met, and nothing else;
what is sent is that in the Array and Legacy styles, while the Single style sends what
the first request forwards. -/
namespace Taql.InsecureHeaders
open BatchingExecutors Context Deadlines Executors Headers JavaScript MergedExtensions Strategies SubBatches
open UpstreamTimeouts

/-! ### Sets of values -/

/-- The values of a set some values were added to: each once, in the order they were
first added. -/
structure FirstOccurrences (added kept : List String) : Prop where
  nodup : kept.Nodup
  mem : ∀ value, value ∈ kept ↔ value ∈ added
  ordered : kept.Pairwise fun earlier later => added.idxOf earlier < added.idxOf later

private theorem eraseDups_snoc (values : List String) (value : String) :
    (values ++ [value]).eraseDups = values.eraseDups ++ if value ∈ values then [] else [value] := by
  rw [List.eraseDups_append]
  by_cases known : value ∈ values <;> simp [List.removeAll, List.eraseDups_cons, known]

theorem firstOccurrences_eraseDups (values : List String) : FirstOccurrences values values.eraseDups := by
  refine ⟨?_, fun value => List.mem_eraseDups, ?_⟩
  · induction values using List.reverseRecOn with
    | nil => exact List.nodup_nil
    | append_singleton values value ih =>
      rw [eraseDups_snoc]
      split
      · rwa [List.append_nil]
      · rename_i fresh
        rw [List.nodup_append]
        refine ⟨ih, List.nodup_singleton _, ?_⟩
        rintro other held _ (_ | ⟨_, ⟨⟩⟩) rfl
        exact fresh (List.mem_eraseDups.mp held)
  · induction values using List.reverseRecOn with
    | nil => exact List.Pairwise.nil
    | append_singleton values value ih =>
      have earlier : values.eraseDups.Pairwise fun earlier later =>
          (values ++ [value]).idxOf earlier < (values ++ [value]).idxOf later := by
        refine ih.imp_of_mem fun {one other} oneHeld otherHeld before => ?_
        rwa [List.idxOf_append_of_mem (List.mem_eraseDups.mp oneHeld),
          List.idxOf_append_of_mem (List.mem_eraseDups.mp otherHeld)]
      rw [eraseDups_snoc]
      split
      · rwa [List.append_nil]
      · rename_i fresh
        rw [List.pairwise_append]
        refine ⟨earlier, List.pairwise_singleton _ _, ?_⟩
        rintro one held _ (_ | ⟨_, ⟨⟩⟩)
        have known : one ∈ values := List.mem_eraseDups.mp held
        rw [List.idxOf_append_of_mem known, List.idxOf_append_of_notMem fresh]
        exact Nat.lt_of_lt_of_le (List.idxOf_lt_length_of_mem known) (Nat.le_add_right _ _)

theorem eraseDups_of_nodup {values : List String} (nodup : values.Nodup) : values.eraseDups = values := by
  induction values using List.reverseRecOn with
  | nil => rfl
  | append_singleton values value ih =>
    obtain ⟨distinct, _, apart⟩ := List.nodup_append.mp nodup
    have fresh : value ∉ values := fun known => apart value known value (List.mem_singleton_self _) rfl
    rw [eraseDups_snoc, ih distinct, if_neg fresh]

/-- Adding what a set holds, and then some more values. -/
theorem eraseDups_eraseDups_append (added more : List String) :
    (added.eraseDups ++ more).eraseDups = (added ++ more).eraseDups := by
  have same : more.removeAll added.eraseDups = more.removeAll added := by
    simp [List.removeAll]
  rw [List.eraseDups_append, List.eraseDups_append, same,
    eraseDups_of_nodup (firstOccurrences_eraseDups added).nodup]

/-- The values added first are all there is exactly when they are distinct and the
others are among them. -/
theorem firstOccurrences_prefix_iff (added more : List String) :
    FirstOccurrences (added ++ more) added ↔ added.Nodup ∧ ∀ value ∈ more, value ∈ added := by
  constructor
  · intro first
    exact ⟨first.nodup, fun value member => (first.mem value).mpr (List.mem_append_right _ member)⟩
  · rintro ⟨nodup, covered⟩
    have none : more.removeAll added = [] := by
      simpa [List.removeAll, List.filter_eq_nil_iff] using covered
    have whole : (added ++ more).eraseDups = added := by
      rw [List.eraseDups_append, none, List.eraseDups_nil, List.append_nil, eraseDups_of_nodup nodup]
    have first := firstOccurrences_eraseDups (added ++ more)
    rwa [whole] at first

/-! ### The merge -/

/-- The headers the members of a sub-batch forward, one value each. -/
def forwardedPairs (members : List TaqlRequest) : List (String × String) :=
  members.flatMap fun member => headerPairs (forwarded member)

theorem valuesOf_append (pairs more : List (String × String)) (name : String) :
    valuesOf (pairs ++ more) name = valuesOf pairs name ++ valuesOf more name := by
  unfold valuesOf
  rw [List.filter_append, List.map_append]

theorem headerPairs_append (headers more : TaqlHeaders) :
    headerPairs (headers ++ more) = headerPairs headers ++ headerPairs more := List.flatMap_append

theorem valuesOf_headerPairs (headers : TaqlHeaders) (name : String) :
    valuesOf (headerPairs headers) name = (headers.filter fun entry => entry.1 = name).flatMap Prod.snd := by
  induction headers with
  | nil => rfl
  | cons entry rest ih =>
    rw [headerPairs_cons, valuesOf_append, ih, List.filter_cons]
    by_cases same : entry.1 = name <;> simp [valuesOf, same, List.filter_map, Function.comp_def]

/-- Names that are no array indices keep their place. -/
theorem valuesOf_entries {name : String} (plain : arrayIndex name = none) (headers : TaqlHeaders) :
    valuesOf (headerPairs (entries headers)) name = valuesOf (headerPairs headers) name := by
  have sorted : ((headers.filter fun entry => (arrayIndex entry.1).isSome).insertionSort
      fun left right => (arrayIndex left.1).getD 0 ≤ (arrayIndex right.1).getD 0).filter
        (fun entry => entry.1 = name) = [] := by
    refine List.filter_eq_nil_iff.mpr fun entry member => ?_
    have index := (List.mem_filter.mp ((List.perm_insertionSort _ _).mem_iff.mp member)).2
    rintro named
    rw [of_decide_eq_true named, plain] at index
    cases index
  have others : (headers.filter fun entry => (arrayIndex entry.1).isNone).filter (fun entry => entry.1 = name) =
      headers.filter fun entry => entry.1 = name := by
    rw [List.filter_filter]
    refine List.filter_congr fun entry _ => ?_
    by_cases same : entry.1 = name <;> simp [same, plain]
  rw [valuesOf_headerPairs, valuesOf_headerPairs, entries, List.filter_append, sorted, others, List.nil_append]

theorem allowed_plain : ∀ name ∈ insecureAllowedHeaders, arrayIndex name = none := by decide

/-- An object with the set of the values that some headers have under each name. -/
structure Collected (headers acc : TaqlHeaders) : Prop where
  distinct : (acc.map Prod.fst).Nodup
  values : ∀ name, valuesOf (headerPairs acc) name = (valuesOf (headerPairs headers) name).eraseDups

private theorem filter_of_mem {acc : TaqlHeaders} (distinct : (acc.map Prod.fst).Nodup) {entry : String × List String}
    (member : entry ∈ acc) : (acc.filter fun other => other.1 = entry.1) = [entry] := by
  induction acc with
  | nil => cases member
  | cons head rest ih =>
    obtain ⟨fresh, distinct⟩ := List.nodup_cons.mp distinct
    rw [List.filter_cons]
    rcases List.mem_cons.mp member with rfl | member
    · have others : (rest.filter fun other => other.1 = entry.1) = [] := by
        refine List.filter_eq_nil_iff.mpr fun other held same => fresh ?_
        exact List.mem_map.mpr ⟨other, held, of_decide_eq_true same⟩
      simp [others]
    · have apart : head.1 ≠ entry.1 := fun same => fresh (same ▸ List.mem_map_of_mem member)
      simp [apart, ih distinct member]

private theorem names_collectHeader {acc : TaqlHeaders} (distinct : (acc.map Prod.fst).Nodup)
    (next : String × List String) : ((collectHeader acc next).map Prod.fst).Nodup := by
  unfold collectHeader
  split
  · have names : acc.map (Prod.fst ∘ fun entry : String × List String =>
        if entry.1 = next.1 then (entry.1, (entry.2 ++ next.2).eraseDups) else entry) = acc.map Prod.fst := by
      refine List.map_congr_left fun entry _ => ?_
      simp only [Function.comp_apply]
      split <;> rfl
    rwa [List.map_map, names]
  · rename_i absent
    rw [List.map_append, List.nodup_append]
    refine ⟨distinct, List.nodup_singleton _, ?_⟩
    rintro _ held _ (_ | ⟨_, ⟨⟩⟩) rfl
    obtain ⟨entry, member, same⟩ := List.mem_map.mp held
    exact absent (List.any_eq_true.mpr ⟨entry, member, by simp [same]⟩)

/-- A step adds the values of one header to the set of its name. -/
theorem valuesOf_collectHeader {acc : TaqlHeaders} (distinct : (acc.map Prod.fst).Nodup)
    (next : String × List String) (name : String) :
    valuesOf (headerPairs (collectHeader acc next)) name =
      if next.1 = name then (valuesOf (headerPairs acc) name ++ next.2).eraseDups
      else valuesOf (headerPairs acc) name := by
  unfold collectHeader
  simp only [valuesOf_headerPairs]
  split
  · rename_i present
    have keeps : ((fun entry => decide (entry.1 = name)) ∘ fun entry : String × List String =>
        if entry.1 = next.1 then (entry.1, (entry.2 ++ next.2).eraseDups) else entry) =
          fun entry => decide (entry.1 = name) := by
      funext entry
      simp only [Function.comp_apply]
      split <;> rfl
    rw [List.filter_map, keeps]
    by_cases same : next.1 = name
    · obtain ⟨entry, member, held⟩ := List.any_eq_true.mp present
      have own : entry.1 = name := (of_decide_eq_true held).trans same
      subst own
      rw [filter_of_mem distinct member, if_pos same]
      simp [same]
    · rw [if_neg same]
      refine congrArg (List.flatMap Prod.snd) ((List.map_congr_left fun entry held => ?_).trans (List.map_id _))
      have own : entry.1 = name := of_decide_eq_true (List.mem_filter.mp held).2
      exact if_neg fun again : entry.1 = next.1 => same (again.symm.trans own)
  · rename_i absent
    rw [List.filter_append, List.flatMap_append]
    by_cases same : next.1 = name
    · have fresh : (acc.filter fun entry => entry.1 = name) = [] := by
        refine List.filter_eq_nil_iff.mpr fun entry member held => absent ?_
        exact List.any_eq_true.mpr ⟨entry, member, by simpa [same] using held⟩
      simp [fresh, same]
    · simp [same]

theorem collected_foldl (headers : TaqlHeaders) : Collected headers (headers.foldl collectHeader []) := by
  induction headers using List.reverseRecOn with
  | nil => exact ⟨List.nodup_nil, fun _ => rfl⟩
  | append_singleton headers next ih =>
    rw [List.foldl_append]
    refine ⟨names_collectHeader ih.distinct next, fun name => ?_⟩
    simp only [List.foldl_cons, List.foldl_nil]
    rw [valuesOf_collectHeader ih.distinct, ih.values, headerPairs_append, valuesOf_append,
      valuesOf_headerPairs [next]]
    by_cases same : next.1 = name
    · simp [same, eraseDups_eraseDups_append]
    · simp [same]

/-- The merged headers have, under each allowed name, the values the members forward. -/
theorem valuesOf_mergeInsecureHeaders (members : List TaqlRequest) {name : String}
    (allowed : name ∈ insecureAllowedHeaders) :
    valuesOf (headerPairs (mergeInsecureHeaders members)) name =
      (valuesOf (forwardedPairs members) name).eraseDups := by
  have plain := allowed_plain name allowed
  have listed (headers : TaqlHeaders) :
      valuesOf (headerPairs (headers.filter fun entry => insecureAllowedHeaders.contains entry.1)) name =
        valuesOf (headerPairs headers) name := by
    rw [valuesOf_headerPairs, valuesOf_headerPairs, List.filter_filter]
    refine congrArg (List.flatMap Prod.snd) (List.filter_congr fun entry _ => ?_)
    by_cases same : entry.1 = name <;> simp [same, allowed]
  unfold mergeInsecureHeaders
  rw [valuesOf_entries plain, (collected_foldl _).values, listed]
  refine congrArg List.eraseDups ?_
  induction members with
  | nil => rfl
  | cons member rest ih =>
    unfold forwardedPairs at ih ⊢
    rw [List.flatMap_cons, List.flatMap_cons, headerPairs_append, valuesOf_append, valuesOf_append,
      valuesOf_entries plain, ih]
    rfl

private theorem names_foldl (allowed : String → Prop) {headers acc : TaqlHeaders}
    (listed : ∀ entry ∈ headers, allowed entry.1) (held : ∀ entry ∈ acc, allowed entry.1) :
    ∀ entry ∈ headers.foldl collectHeader acc, allowed entry.1 := by
  induction headers generalizing acc with
  | nil => exact held
  | cons next rest ih =>
    obtain ⟨nextListed, restListed⟩ := List.forall_mem_cons.mp listed
    refine ih restListed fun entry member => ?_
    unfold collectHeader at member
    split at member
    · obtain ⟨entry, before, rfl⟩ := List.mem_map.mp member
      split <;> exact held entry before
    · rcases List.mem_append.mp member with member | member
      · exact held entry member
      · rwa [List.mem_singleton.mp member]

theorem names_mergeInsecureHeaders (members : List TaqlRequest) :
    ∀ entry ∈ mergeInsecureHeaders members, entry.1 ∈ insecureAllowedHeaders := by
  intro entry member
  refine names_foldl (· ∈ insecureAllowedHeaders) (fun entry member => ?_) (by simp) entry
    ((entries_perm _).mem_iff.mp member)
  exact List.contains_iff_mem.mp (List.mem_filter.mp member).2

/-! ### What is sent -/

/-- What is sent for the members of a sub-batch: under an allowed name every value that
some member forwards, once, in the order they first occur; under any other name what
the gateway sends of its own, which is no credential. -/
structure Merged (members : List TaqlRequest) (own sent : List (String × String)) : Prop where
  allowed : ∀ name ∈ insecureAllowedHeaders,
    FirstOccurrences (valuesOf (forwardedPairs members) name) (valuesOf sent name)
  others : ∀ name ∉ insecureAllowedHeaders, valuesOf sent name = valuesOf own name
  credentials : ∀ name ∈ ["authorization", "x-trip-iat"], valuesOf sent name = []

/-- The strategy hands over just what it should. -/
theorem merged_mergeInsecureHeaders (members : List TaqlRequest) :
    Merged members [] (headerPairs (mergeInsecureHeaders members)) := by
  have silent (name : String) (stray : name ∉ insecureAllowedHeaders) :
      valuesOf (headerPairs (mergeInsecureHeaders members)) name = [] := by
    rw [valuesOf_headerPairs]
    refine List.flatMap_eq_nil_iff.mpr fun entry member => absurd ?_ stray
    obtain ⟨held, named⟩ := List.mem_filter.mp member
    exact of_decide_eq_true named ▸ names_mergeInsecureHeaders members entry held
  refine ⟨fun name allowed => ?_, silent, fun name credential => silent name ?_⟩
  · rw [valuesOf_mergeInsecureHeaders members allowed]
    exact firstOccurrences_eraseDups _
  · revert name
    decide

/-! ### The headers of a fetch -/

theorem valuesOf_set (headers : List (String × String)) (name value other : String) :
    valuesOf (set headers name value) other = if name = other then [value] else valuesOf headers other := by
  unfold Executors.set
  rw [valuesOf_snoc]
  unfold valuesOf
  rw [List.filter_filter]
  by_cases same : name = other
  · subst same
    simp
  · rw [if_neg same, if_neg same, List.append_nil]
    refine congrArg (List.map Prod.snd) (List.filter_congr fun header _ => ?_)
    by_cases own : header.1 = other <;> simp [own, Ne.symm same]

theorem valuesOf_eq_nil {headers : List (String × String)} {name : String} :
    valuesOf headers name = [] ↔ name ∉ headers.map Prod.fst := by
  rw [valuesOf, List.map_eq_nil_iff, List.filter_eq_nil_iff, List.mem_map]
  constructor
  · rintro none ⟨header, member, rfl⟩
    exact none header member (decide_eq_true rfl)
  · intro absent header member named
    exact absent ⟨header, member, of_decide_eq_true named⟩

/-- Headers set one after the other. -/
def setAll (sets headers : List (String × String)) : List (String × String) :=
  sets.foldl (fun headers header => set headers header.1 header.2) headers

theorem valuesOf_setAll (sets : List (String × String)) (name : String) :
    (name ∉ sets.map Prod.fst ∧ ∀ headers, valuesOf (setAll sets headers) name = valuesOf headers name) ∨
      name ∈ sets.map Prod.fst ∧ ∃ value, ∀ headers, valuesOf (setAll sets headers) name = [value] := by
  unfold setAll
  induction sets using List.reverseRecOn with
  | nil => exact .inl ⟨by simp, fun _ => rfl⟩
  | append_singleton sets last ih =>
    simp only [List.foldl_append, List.foldl_cons, List.foldl_nil, valuesOf_set, List.map_append, List.mem_append]
    by_cases same : last.1 = name
    · exact .inr ⟨by simp [same], last.2, fun _ => if_pos same⟩
    · have differ : name ∉ [last].map Prod.fst := by simpa using Ne.symm same
      simp only [if_neg same, differ, or_false]
      exact ih

/-- The copy of the authorization into a second header that is not there. -/
def copyAuthorization (headers : List (String × String)) : List (String × String) :=
  if has headers "x-trip-iat" then headers
  else (get headers "authorization").elim headers (set headers "x-trip-iat")

theorem copyAuthorization_given {headers : List (String × String)} (given : valuesOf headers "x-trip-iat" ≠ []) :
    copyAuthorization headers = headers := by
  refine if_pos (List.any_eq_true.mpr ?_)
  rw [ne_eq, valuesOf_eq_nil, not_not] at given
  obtain ⟨header, member, named⟩ := List.mem_map.mp given
  exact ⟨header, member, decide_eq_true named⟩

theorem copyAuthorization_none {headers : List (String × String)} (none : valuesOf headers "authorization" = []) :
    copyAuthorization headers = headers := by
  have absent : get headers "authorization" = Option.none := by
    unfold valuesOf at none
    unfold Executors.get GenericHeaders.find
    dsimp only
    rw [none]
  unfold copyAuthorization
  rw [absent]
  exact ite_self _

theorem valuesOf_copyAuthorization (headers : List (String × String)) {name : String} (other : name ≠ "x-trip-iat") :
    valuesOf (copyAuthorization headers) name = valuesOf headers name := by
  unfold copyAuthorization
  split
  · rfl
  · cases get headers "authorization" with
    | none => rfl
    | some value =>
      rw [Option.elim_some, valuesOf_set, if_neg (Ne.symm other)]

/-- Which headers of a fetch are the gateway's own, and which are those forwarded. -/
structure Sends (pairs own sent : List (String × String)) : Prop where
  overwritten : ∀ name ∈ own.map Prod.fst, valuesOf sent name = valuesOf own name
  kept : ∀ name ∉ own.map Prod.fst, name ≠ "x-trip-iat" → valuesOf sent name = valuesOf pairs name
  given : valuesOf pairs "x-trip-iat" ≠ [] → valuesOf sent "x-trip-iat" = valuesOf pairs "x-trip-iat"
  copied : valuesOf pairs "authorization" = [] → valuesOf sent "x-trip-iat" = valuesOf pairs "x-trip-iat"
  plain : ∀ name ∈ own.map Prod.fst, name ∉ insecureAllowedHeaders ∧ name ∉ ["authorization", "x-trip-iat"]

def servicingNames : List String := ["x-taql-servicing-query-ids", "x-taql-servicing-operation-names"]

/-- What a fetch sets, whatever is forwarded, besides the timeout and the content type. -/
def sets (subgraph : SubgraphConfig) (upstreamHeaders : List (String × String)) : List (String × String) :=
  upstreamHeaders ++ subgraph.accessToken.toList.map fun token => ("x-oidc-authorization", "Bearer " ++ token)

/-- The headers of a fetch that is not refused. -/
def fetchHeaders (params : TimeoutParams) (subgraph : SubgraphConfig) (timeout : JsNumber)
    (upstreamHeaders pairs : List (String × String)) : List (String × String) :=
  set (set (copyAuthorization (setAll (sets subgraph upstreamHeaders) pairs)) "x-timeout"
    (paddedTimeout params timeout).render) "content-type" "application/json"

private theorem foldl_append (headers : TaqlHeaders) (held : List (String × String)) :
    headers.foldl
        (fun headers entry => entry.2.foldl (fun headers value => append headers entry.1 value) headers) held =
      held ++ headerPairs headers := by
  induction headers generalizing held with
  | nil => simp [headerPairs]
  | cons entry rest ih =>
    have one (values : List String) (held : List (String × String)) :
        values.foldl (fun headers value => append headers entry.1 value) held =
          held ++ values.map fun value => (entry.1, value) := by
      induction values generalizing held with
      | nil => simp
      | cons value values ih =>
        rw [List.foldl_cons, ih]
        simp [append]
    rw [List.foldl_cons, one, ih, headerPairs_cons, List.append_assoc]

theorem load_eq (params : TimeoutParams) (subgraph : SubgraphConfig) (timeout : JsNumber)
    (forwardHeaders : TaqlHeaders) (upstreamHeaders : List (String × String)) :
    load params subgraph timeout forwardHeaders upstreamHeaders =
      if timeout.lt (.num 0) then .error (noTimeRemaining subgraph)
      else .ok ⟨subgraph.url,
        fetchHeaders params subgraph timeout upstreamHeaders (headerPairs (entries forwardHeaders)), timeout⟩ := by
  unfold Executors.load fetchHeaders copyAuthorization setAll sets
  rw [foldl_append, List.nil_append, List.foldl_append]
  cases subgraph.accessToken <;> rfl

theorem valuesOf_fetchHeaders (params : TimeoutParams) (subgraph : SubgraphConfig) (timeout : JsNumber)
    (upstreamHeaders pairs : List (String × String)) (name : String) :
    valuesOf (fetchHeaders params subgraph timeout upstreamHeaders pairs) name =
      if "content-type" = name then ["application/json"]
      else if "x-timeout" = name then [(paddedTimeout params timeout).render]
      else valuesOf (copyAuthorization (setAll (sets subgraph upstreamHeaders) pairs)) name := by
  unfold fetchHeaders
  rw [valuesOf_set, valuesOf_set]

theorem names_sets (subgraph : SubgraphConfig) {upstreamHeaders : List (String × String)}
    (servicing : ∀ header ∈ upstreamHeaders, header.1 ∈ servicingNames) :
    ∀ name ∈ (sets subgraph upstreamHeaders).map Prod.fst, name ∈ "x-oidc-authorization" :: servicingNames := by
  intro name member
  unfold sets at member
  obtain ⟨header, held, rfl⟩ := List.mem_map.mp member
  rcases List.mem_append.mp held with held | held
  · exact List.mem_cons_of_mem _ (servicing header held)
  · obtain ⟨token, _, rfl⟩ := List.mem_map.mp held
    exact List.mem_cons_self

private theorem setAll_passes (subgraph : SubgraphConfig) {upstreamHeaders : List (String × String)}
    (servicing : ∀ header ∈ upstreamHeaders, header.1 ∈ servicingNames) {name : String}
    (unset : name ∉ "x-oidc-authorization" :: servicingNames) (pairs : List (String × String)) :
    valuesOf (setAll (sets subgraph upstreamHeaders) pairs) name = valuesOf pairs name := by
  rcases valuesOf_setAll (sets subgraph upstreamHeaders) name with ⟨_, same⟩ | ⟨member, _⟩
  · exact same pairs
  · exact absurd (names_sets subgraph servicing name member) unset

private theorem authorization_passes (subgraph : SubgraphConfig) {upstreamHeaders : List (String × String)}
    (servicing : ∀ header ∈ upstreamHeaders, header.1 ∈ servicingNames) (pairs : List (String × String)) :
    valuesOf (setAll (sets subgraph upstreamHeaders) pairs) "authorization" = valuesOf pairs "authorization" :=
  setAll_passes subgraph servicing (by decide) pairs

/-- What is forwarded as `x-trip-iat`, unless it is copied. -/
private theorem valuesOf_iat (params : TimeoutParams) (subgraph : SubgraphConfig) (timeout : JsNumber)
    {upstreamHeaders : List (String × String)} (servicing : ∀ header ∈ upstreamHeaders, header.1 ∈ servicingNames)
    (pairs : List (String × String)) :
    valuesOf (setAll (sets subgraph upstreamHeaders) pairs) "x-trip-iat" = valuesOf pairs "x-trip-iat" ∧
      valuesOf (fetchHeaders params subgraph timeout upstreamHeaders pairs) "x-trip-iat" =
        valuesOf (copyAuthorization (setAll (sets subgraph upstreamHeaders) pairs)) "x-trip-iat" := by
  refine ⟨setAll_passes subgraph servicing (by decide) pairs, ?_⟩
  rw [valuesOf_fetchHeaders, if_neg (by decide), if_neg (by decide)]

/-- The names of a fetch that forwards nothing. -/
theorem mem_ownNames (params : TimeoutParams) (subgraph : SubgraphConfig) (timeout : JsNumber)
    {upstreamHeaders : List (String × String)} (servicing : ∀ header ∈ upstreamHeaders, header.1 ∈ servicingNames)
    {name : String} :
    name ∈ (fetchHeaders params subgraph timeout upstreamHeaders []).map Prod.fst ↔
      name = "content-type" ∨ name = "x-timeout" ∨ name ∈ (sets subgraph upstreamHeaders).map Prod.fst := by
  have unauthorized : valuesOf (setAll (sets subgraph upstreamHeaders) []) "authorization" = [] :=
    authorization_passes subgraph servicing []
  rw [← not_iff_not, ← valuesOf_eq_nil, valuesOf_fetchHeaders, copyAuthorization_none unauthorized]
  by_cases typed : "content-type" = name
  · simp [typed]
  · by_cases timed : "x-timeout" = name
    · rw [if_neg typed, if_pos timed]
      simp [timed]
    · simp only [if_neg typed, if_neg timed, Ne.symm typed, Ne.symm timed, false_or]
      rcases valuesOf_setAll (sets subgraph upstreamHeaders) name with ⟨absent, same⟩ | ⟨member, value, same⟩
      · exact iff_of_true (same []) absent
      · rw [same]
        exact iff_of_false (List.cons_ne_nil _ _) (not_not.mpr member)

/-- What is left of the headers forwarded. -/
theorem sends_fetchHeaders (params : TimeoutParams) (subgraph : SubgraphConfig) (timeout : JsNumber)
    {upstreamHeaders : List (String × String)} (servicing : ∀ header ∈ upstreamHeaders, header.1 ∈ servicingNames)
    (pairs : List (String × String)) :
    Sends pairs (fetchHeaders params subgraph timeout upstreamHeaders [])
      (fetchHeaders params subgraph timeout upstreamHeaders pairs) := by
  have named := names_sets subgraph servicing
  obtain ⟨passed, sent⟩ := valuesOf_iat params subgraph timeout servicing pairs
  refine ⟨fun name own => ?_, fun name stray other => ?_, fun given => ?_, fun none => ?_, fun name own => ?_⟩
  · rw [valuesOf_fetchHeaders, valuesOf_fetchHeaders]
    rcases (mem_ownNames params subgraph timeout servicing).mp own with rfl | rfl | member
    · rfl
    · rfl
    · have other : name ≠ "x-trip-iat" := by
        rintro rfl
        exact absurd (named _ member) (by decide)
      rcases valuesOf_setAll (sets subgraph upstreamHeaders) name with ⟨absent, _⟩ | ⟨_, value, same⟩
      · exact absurd member absent
      · rw [valuesOf_copyAuthorization _ other, valuesOf_copyAuthorization _ other, same, same]
  · rw [mem_ownNames params subgraph timeout servicing, not_or, not_or] at stray
    rw [valuesOf_fetchHeaders, if_neg (Ne.symm stray.1), if_neg (Ne.symm stray.2.1),
      valuesOf_copyAuthorization _ other]
    rcases valuesOf_setAll (sets subgraph upstreamHeaders) name with ⟨_, same⟩ | ⟨member, _⟩
    · exact same pairs
    · exact absurd member stray.2.2
  · rw [← passed] at given
    rw [sent, copyAuthorization_given given, passed]
  · rw [← authorization_passes subgraph servicing pairs] at none
    rw [sent, copyAuthorization_none none, passed]
  · have known : name ∈ "content-type" :: "x-timeout" :: "x-oidc-authorization" :: servicingNames := by
      rcases (mem_ownNames params subgraph timeout servicing).mp own with rfl | rfl | member
      · exact List.mem_cons_self
      · exact List.mem_cons_of_mem _ List.mem_cons_self
      · exact List.mem_cons_of_mem _ (List.mem_cons_of_mem _ (named name member))
    clear own
    revert name
    decide

/-- Of a fetch, what is sent for the members is right exactly when what it forwards is,
apart from headers that the gateway overwrites. -/
theorem merged_iff {members : List TaqlRequest} {pairs own sent : List (String × String)}
    (sends : Sends pairs own sent) :
    Merged members own sent ↔
      (∀ name ∈ insecureAllowedHeaders,
        FirstOccurrences (valuesOf (forwardedPairs members) name) (valuesOf pairs name)) ∧
        ∀ header ∈ pairs, header.1 ∈ insecureAllowedHeaders ∨ header.1 ∈ own.map Prod.fst := by
  have untouched {name : String} (allowed : name ∈ insecureAllowedHeaders) :
      valuesOf sent name = valuesOf pairs name := by
    refine sends.kept name (fun own => (sends.plain name own).1 allowed) ?_
    rintro rfl
    exact absurd allowed (by decide)
  constructor
  · intro merged
    refine ⟨fun name allowed => untouched allowed ▸ merged.allowed name allowed, fun header member => ?_⟩
    by_contra neither
    obtain ⟨stray, notOwn⟩ := not_or.mp neither
    have filled : valuesOf pairs header.1 ≠ [] := fun none =>
      valuesOf_eq_nil.mp none (List.mem_map_of_mem member)
    have silent : valuesOf sent header.1 = [] := (merged.others _ stray).trans (valuesOf_eq_nil.mpr notOwn)
    by_cases iat : header.1 = "x-trip-iat"
    · rw [iat] at filled silent
      exact filled ((sends.given filled).symm.trans silent)
    · exact filled ((sends.kept _ notOwn iat).symm.trans silent)
  · rintro ⟨allowed, quiet⟩
    have none {name : String} (stray : name ∉ insecureAllowedHeaders) (notOwn : name ∉ own.map Prod.fst) :
        valuesOf pairs name = [] := by
      rw [valuesOf_eq_nil]
      intro member
      obtain ⟨header, held, rfl⟩ := List.mem_map.mp member
      rcases quiet header held with listed | listed
      · exact stray listed
      · exact notOwn listed
    have strays : ∀ name ∈ ["authorization", "x-trip-iat"], name ∉ insecureAllowedHeaders := by decide
    have credential (name : String) (listed : name ∈ ["authorization", "x-trip-iat"]) :
        valuesOf sent name = [] ∧ valuesOf own name = [] := by
      have notOwn : name ∉ own.map Prod.fst := fun own => (sends.plain name own).2 listed
      have stray := strays name listed
      refine ⟨?_, valuesOf_eq_nil.mpr notOwn⟩
      by_cases iat : name = "x-trip-iat"
      · subst iat
        rw [sends.copied (none (by decide) fun own => (sends.plain _ own).2 (by decide)), none stray notOwn]
      · rw [sends.kept name notOwn iat, none stray notOwn]
    refine ⟨fun name listed => (untouched listed).symm ▸ allowed name listed, fun name stray => ?_,
      fun name listed => (credential name listed).1⟩
    by_cases notOwn : name ∈ own.map Prod.fst
    · exact sends.overwritten name notOwn
    · by_cases iat : name = "x-trip-iat"
      · subst iat
        obtain ⟨sentNone, ownNone⟩ := credential "x-trip-iat" (by decide)
        exact sentNone.trans ownNone.symm
      · rw [sends.kept name notOwn iat, none stray notOwn, valuesOf_eq_nil.mpr notOwn]

/-! ### The styles -/

theorem servicing_fromContext (request : ExecutionRequest) :
    ∀ header ∈ upstreamHeadersFromContext request, header.1 ∈ servicingNames := by
  intro header member
  rcases List.mem_append.mp member with member | member
  · obtain ⟨id, _, rfl⟩ := List.mem_map.mp member
    exact List.mem_cons_self
  · obtain ⟨name, _, rfl⟩ := List.mem_map.mp member
    exact List.mem_cons_of_mem _ List.mem_cons_self

theorem servicing_merged (requests : List ExecutionRequest) :
    ∀ header ∈ mergeUpstreamHeaders requests, header.1 ∈ servicingNames := by
  intro header member
  obtain ⟨name, named, rfl⟩ := List.mem_map.mp member
  obtain ⟨pair, held, rfl⟩ := List.mem_map.mp (List.mem_eraseDups.mp named)
  obtain ⟨request, _, own⟩ := List.mem_flatMap.mp held
  exact servicing_fromContext request pair own

theorem bindLoad_sends {params : TimeoutParams} {subgraph : SubgraphConfig}
    {getDeadline : T → Except JsError (Option JsNumber)} {getUpstreamHeaders : T → List (String × String)} {now : Int}
    {request : T} {forwardHeaders : TaqlHeaders}
    (servicing : ∀ header ∈ getUpstreamHeaders request, header.1 ∈ servicingNames)
    (sent : bindLoad params subgraph getDeadline getUpstreamHeaders now request forwardHeaders = .ok fetch) :
    ∃ own, bindLoad params subgraph getDeadline getUpstreamHeaders now request [] = .ok own ∧
      Sends (headerPairs (entries forwardHeaders)) own.headers fetch.headers := by
  unfold bindLoad at sent ⊢
  cases dated : getDeadline request with
  | error error =>
    rw [dated] at sent
    cases sent
  | ok deadline =>
    rw [dated] at sent
    simp only [bind, Except.bind, load_eq] at sent ⊢
    split at sent
    · cases sent
    · rename_i positive
      cases sent
      rw [if_neg positive]
      exact ⟨_, rfl, sends_fetchHeaders params subgraph _ servicing _⟩

/-- What a style makes a fetch forward. -/
def forwards (style : BatchStyle) (args : LoaderArgs) : TaqlHeaders :=
  match style with
  | .Single => args.request.head?.elim [] forwarded
  | .Array | .Legacy => args.forwardHeaders.getD []

theorem makeRemoteExecutor_sends {executions : Executions} {params : TimeoutParams} {subgraph : SubgraphConfig}
    {now : Int} {first : TaqlRequest} {request : ExecutionRequest}
    (context : request.context = (executions.of first).context)
    (sent : makeRemoteExecutor params subgraph now request = .ok fetch) :
    ∃ own, bindLoad params subgraph (fun request => .ok (getDeadline request)) upstreamHeadersFromContext now
        request [] = .ok own ∧
      Sends (headerPairs (entries (forwarded first))) own.headers fetch.headers := by
  have same : (request.context.bind TaqlState.taql).elim [] TaqlContext.forwardHeaders = forwarded first := by
    rw [context, executions.taql, forwarded]
    cases first.taql <;> rfl
  unfold makeRemoteExecutor at sent
  rw [same] at sent
  exact bindLoad_sends (servicing_fromContext request) sent

theorem mergeRequests_context {first : ExecutionRequest} {rest : List ExecutionRequest} {merged : ExecutionRequest}
    (made : mergeRequests first rest = .ok merged) : merged.context = first.context := by
  unfold mergeRequests at made
  cases reduced : mergeExtensions (first :: rest) with
  | error error =>
    rw [reduced] at made
    cases made
  | ok extensions =>
    rw [reduced] at made
    cases made
    rfl

theorem fetchFor_sends {executions : Executions} {style : BatchStyle} {params : TimeoutParams}
    {subgraph : SubgraphConfig} {now : Int} {args : LoaderArgs}
    (sent : fetchFor executions style params subgraph now args = .ok fetch) :
    ∃ own, ownFetch executions style params subgraph now args = .ok own ∧
      Sends (headerPairs (entries (forwards style args))) own.headers fetch.headers := by
  cases style with
  | Array => exact bindLoad_sends (servicing_merged _) sent
  | Legacy => exact bindLoad_sends (servicing_merged _) sent
  | Single =>
    obtain ⟨members, forwardHeaders, clientName⟩ := args
    simp only [fetchFor, ownFetch, forwards] at sent ⊢
    cases members with
    | nil => cases sent
    | cons first rest =>
      cases rest with
      | nil => exact makeRemoteExecutor_sends rfl sent
      | cons second rest =>
        simp only [List.map_cons, createLoadFn] at sent ⊢
        cases made : mergeRequests (executions.of first) (executions.of second :: rest.map executions.of) with
        | error error =>
          rw [made] at sent
          cases sent
        | ok merged =>
          rw [made] at sent
          exact makeRemoteExecutor_sends (mergeRequests_context made) sent

/-- Merged headers are sent as they are. -/
theorem merged_of_sends {members : List TaqlRequest} {own sent : List (String × String)}
    (sends : Sends (headerPairs (entries (mergeInsecureHeaders members))) own sent) : Merged members own sent := by
  refine (merged_iff sends).mpr ⟨fun name allowed => ?_, fun header member => .inl ?_⟩
  · rw [valuesOf_entries (allowed_plain name allowed)]
    exact (merged_mergeInsecureHeaders members).allowed name allowed
  · obtain ⟨entry, held, inside⟩ := List.mem_flatMap.mp member
    obtain ⟨value, _, rfl⟩ := List.mem_map.mp inside
    exact names_mergeInsecureHeaders members entry ((entries_perm _).mem_iff.mp held)

/-- The first member forwards all that any of them does, each value once, and nothing
else that the gateway does not overwrite. -/
structure SpeaksForAll (own : List (String × String)) (first : TaqlRequest) (rest : List TaqlRequest) : Prop where
  nodup : ∀ name ∈ insecureAllowedHeaders, (valuesOf (headerPairs (forwarded first)) name).Nodup
  covers : ∀ name ∈ insecureAllowedHeaders, ∀ value ∈ valuesOf (forwardedPairs rest) name,
    value ∈ valuesOf (headerPairs (forwarded first)) name
  quiet : ∀ header ∈ headerPairs (forwarded first),
    header.1 ∈ insecureAllowedHeaders ∨ header.1 ∈ own.map Prod.fst

theorem merged_first_iff {first : TaqlRequest} {rest : List TaqlRequest} {own sent : List (String × String)}
    (sends : Sends (headerPairs (entries (forwarded first))) own sent) :
    Merged (first :: rest) own sent ↔ SpeaksForAll own first rest := by
  have all : forwardedPairs (first :: rest) = headerPairs (forwarded first) ++ forwardedPairs rest := rfl
  have listed : ∀ header, header ∈ headerPairs (entries (forwarded first)) ↔ header ∈ headerPairs (forwarded first) :=
    fun header => ((entries_perm (forwarded first)).flatMap_right _).mem_iff
  have firsts {name : String} (allowed : name ∈ insecureAllowedHeaders) :
      FirstOccurrences (valuesOf (forwardedPairs (first :: rest)) name)
          (valuesOf (headerPairs (entries (forwarded first))) name) ↔
        (valuesOf (headerPairs (forwarded first)) name).Nodup ∧ ∀ value ∈ valuesOf (forwardedPairs rest) name,
          value ∈ valuesOf (headerPairs (forwarded first)) name := by
    rw [valuesOf_entries (allowed_plain name allowed), all, valuesOf_append, firstOccurrences_prefix_iff]
  rw [merged_iff sends]
  constructor
  · rintro ⟨values, quiet⟩
    exact ⟨fun name allowed => ((firsts allowed).mp (values name allowed)).1,
      fun name allowed => ((firsts allowed).mp (values name allowed)).2,
      fun header member => quiet header ((listed header).mpr member)⟩
  · rintro ⟨nodup, covers, quiet⟩
    exact ⟨fun name allowed => (firsts allowed).mpr ⟨nodup name allowed, covers name allowed⟩,
      fun header member => quiet header ((listed header).mp member)⟩

theorem calls_insecure {runtime : BatchingContext.Runtime} {V : Type} {executor : TaqlBatchLoader V}
    {config : BatchingConfig} {state : BatchingContext.PrivateState runtime} {requests : List TaqlRequest}
    {args : LoaderArgs} (called : args ∈ (insecureStrategy executor config state requests).calls) :
    args.forwardHeaders = some (mergeInsecureHeaders args.request) := by
  obtain ⟨subBatch, _, rfl⟩ := List.mem_map.mp called
  rfl

/-- What the Insecure strategy hands over for a sub-batch is always right. What is then
sent for it is right in the Array and the Legacy style, and in the Single style exactly
when the first request speaks for all. -/
theorem insecure_headers_iff {runtime : BatchingContext.Runtime} {V : Type} (executor : TaqlBatchLoader V)
    (config : BatchingConfig) (state : BatchingContext.PrivateState runtime) (requests : List TaqlRequest)
    {args : LoaderArgs} (called : args ∈ (insecureStrategy executor config state requests).calls) :
    ∃ merged, args.forwardHeaders = some merged ∧ Merged args.request [] (headerPairs merged) ∧
      ∀ executions style params subgraph now fetch, fetchFor executions style params subgraph now args = .ok fetch →
        ∃ own, ownFetch executions style params subgraph now args = .ok own ∧
          (Merged args.request own.headers fetch.headers ↔
            (style = .Single → ∀ first rest, args.request = first :: rest → SpeaksForAll own.headers first rest)) := by
  have handed := calls_insecure called
  refine ⟨_, handed, merged_mergeInsecureHeaders args.request,
    fun executions style params subgraph now fetch sent => ?_⟩
  obtain ⟨own, bare, sends⟩ := fetchFor_sends sent
  refine ⟨own, bare, ?_⟩
  cases style with
  | Array =>
    rw [forwards, handed] at sends
    exact iff_of_true (merged_of_sends sends) (fun never => absurd never (by simp))
  | Legacy =>
    rw [forwards, handed] at sends
    exact iff_of_true (merged_of_sends sends) (fun never => absurd never (by simp))
  | Single =>
    obtain ⟨members, forwardHeaders, clientName⟩ := args
    cases members with
    | nil => cases sent
    | cons first rest =>
      refine (merged_first_iff sends).trans ⟨?_, fun all => all rfl first rest rfl⟩
      rintro speaks _ _ _ ⟨⟩
      exact speaks

/-- A query that forwards some headers. -/
def forwarding (ref : Nat) (headers : TaqlHeaders) : TaqlRequest :=
  ⟨ref, .query, some { timedContext with ref, forwardHeaders := headers }⟩

/-- Requests that are nothing but their contexts. -/
def bareExecutions : Executions where
  of request := ⟨none, request.taql.map fun taql => ⟨none, some taql⟩⟩
  taql request := by rcases request with ⟨_, _, _ | _⟩ <;> rfl

/-- One user's request, and a traced one of somebody else. -/
def alicesBatch : List TaqlRequest :=
  [forwarding 0 [("authorization", ["Bearer alice"])], forwarding 1 [("x-request-id", ["7", "8", "7"])]]

def alicesArgs : LoaderArgs := ⟨alicesBatch, some [("x-request-id", ["7", "8"])], some "web"⟩

theorem insecure_headers_array : ∃ fetch own,
    alicesArgs ∈ (insecureStrategy (answering TaqlRequest.ref) ⟨10, none⟩ plainState alicesBatch).calls ∧
    fetchFor bareExecutions .Array defaultTimeouts hotels 1699999999000 alicesArgs = .ok fetch ∧
    Merged alicesBatch own fetch.headers := by
  have called :
      alicesArgs ∈ (insecureStrategy (answering TaqlRequest.ref) ⟨10, none⟩ plainState alicesBatch).calls := by
    decide
  obtain ⟨_, _, _, sends⟩ := insecure_headers_iff _ _ _ _ called
  obtain ⟨own, _, right⟩ := sends bareExecutions .Array defaultTimeouts hotels 1699999999000 _ rfl
  exact ⟨_, own.headers, called, rfl, right.mpr fun never => absurd never (by simp)⟩

/-- In the Single style both requests are sent with the credentials of the first, and
without the headers of the second. -/
theorem insecure_headers_single : ∃ fetch own,
    alicesArgs ∈ (insecureStrategy (answering TaqlRequest.ref) ⟨10, none⟩ plainState alicesBatch).calls ∧
    fetchFor bareExecutions .Single defaultTimeouts hotels 1699999999000 alicesArgs = .ok fetch ∧
    ownFetch bareExecutions .Single defaultTimeouts hotels 1699999999000 alicesArgs = .ok own ∧
    valuesOf fetch.headers "authorization" = ["Bearer alice"] ∧ valuesOf fetch.headers "x-request-id" = [] ∧
    ¬Merged alicesBatch own.headers fetch.headers := by
  refine ⟨_, _, by decide, rfl, rfl, rfl, rfl, fun merged => ?_⟩
  exact absurd (merged.credentials "authorization" (by decide)) (by decide)

end Taql.InsecureHeaders
