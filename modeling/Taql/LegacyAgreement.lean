import Taql.BatchingExecutors
import Taql.HeaderBatches

/-! The context a legacy subgraph is sent with a sub-batch. Of its four fields
two come from headers that are forwarded, so requests that are batched by their
forwarded headers agree on them; the locale and the client's address do not. -/
namespace Taql.LegacyAgreement
open JavaScript Headers Context BatchingContext BatchByKey Strategies GroupingProofs ClusteringProofs SubBatches
open BatchingExecutors HeaderIsolation HeaderBatches

/-! ### From headers to the context and back -/

/-- The value of a header that comes in one string. -/
def single (headers : IncomingHttpHeaders) (name : String) : Option String :=
  match headers.properties.find? fun property => property.1 = name with
  | some (_, .one value) => some value
  | _ => none

theorem getHeaderOrDefault_single (inject : String → α) (headers : IncomingHttpHeaders) (name : String)
    (joined : name ≠ "set-cookie") (defaultV : α) :
    getHeaderOrDefault inject (GenericHeaders.plain headers.properties) name defaultV =
      match single headers name with
      | some value => if value = "" then defaultV else inject value
      | none => defaultV := by
  simp only [getHeaderOrDefault, Option.bind_some, GenericHeaders.find, single]
  cases found : headers.properties.find? fun property => property.1 = name with
  | none => rfl
  | some property =>
    obtain ⟨key, value⟩ := property
    cases value with
    | absent => rfl
    | one value =>
      by_cases empty : value = ""
      · simp [HeaderValue.flat, empty]
      · simp [HeaderValue.flat, empty]
    | many values =>
      have same : key = name := by simpa using List.find?_some found
      exact absurd (same ▸ headers.joined key values (List.mem_of_find?_eq_some found)) joined

private theorem name_of_forwardable (passed : forwardable pair = some passing) : passing.1 = pair.1 := by
  unfold forwardable at passed
  split at passed
  · obtain ⟨value, _, rfl⟩ := Option.map_eq_some_iff.mp passed
    rfl
  · cases passed

private theorem no_pairs {properties : List (String × HeaderValue)} {name : String}
    (absent : name ∉ properties.map Prod.fst) :
    (((GenericHeaders.plain properties).pairs.filterMap forwardable).filter fun pair => pair.1 = name) = [] := by
  rw [List.filter_eq_nil_iff]
  intro passing member named
  obtain ⟨pair, offered, passed⟩ := List.mem_filterMap.mp member
  obtain ⟨property, held, inProperty⟩ := List.mem_flatMap.mp offered
  obtain ⟨value, _, rfl⟩ := List.mem_map.mp inProperty
  have same : passing.1 = name := by simpa using named
  rw [name_of_forwardable passed] at same
  exact absent (same ▸ List.mem_map_of_mem held)

private theorem single_pairs {properties : List (String × HeaderValue)} {name : String}
    (distinct : (properties.map Prod.fst).Nodup) (forwarded : enumHas forwardHeader name = true)
    (joined : ∀ values, (name, HeaderValue.many values) ∉ properties) :
    (((GenericHeaders.plain properties).pairs.filterMap forwardable).filter fun pair => pair.1 = name) =
      match properties.find? fun property => property.1 = name with
      | some (_, .one value) => [(name, value)]
      | _ => [] := by
  induction properties with
  | nil => rfl
  | cons property rest ih =>
    rw [List.map_cons, List.nodup_cons] at distinct
    have cut : (GenericHeaders.plain (property :: rest)).pairs =
        (GenericHeaders.plain [property]).pairs ++ (GenericHeaders.plain rest).pairs := by
      simp [GenericHeaders.pairs]
    rw [cut, List.filterMap_append, List.filter_append, List.find?_cons]
    by_cases same : property.1 = name
    · obtain ⟨key, value⟩ := property
      simp only at same
      subst same
      rw [no_pairs distinct.1, List.append_nil]
      cases value with
      | absent => simp [GenericHeaders.pairs, HeaderValue.flat, forwardable]
      | one value => simp [GenericHeaders.pairs, HeaderValue.flat, forwardable, forwarded]
      | many values => exact absurd List.mem_cons_self (joined values)
    · have others := ih distinct.2 fun values member => joined values (List.mem_cons_of_mem _ member)
      rw [no_pairs (by simpa using Ne.symm same), others, List.nil_append]
      simp [same]

theorem buildContext_ok {params : ExecutionTimeoutParams} {headers : GenericHeaders}
    (built : buildContext params now ref headers = .ok ctx) :
    forwardableHeaders headers = .ok ctx.forwardHeaders ∧ ctx.legacyContext = legacyContextFromHeaders headers := by
  unfold buildContext at built
  cases forwarded : forwardableHeaders headers with
  | error error =>
    rw [forwarded] at built
    cases built
  | ok forwardHeaders =>
    rw [forwarded] at built
    cases built
    exact ⟨rfl, rfl⟩

/-- A context built from the headers the server hands over. -/
def Built (ctx : TaqlContext) (headers : IncomingHttpHeaders) : Prop :=
  ∃ params now ref, buildContext params now ref (.plain headers.properties) = .ok ctx

/-- A header that is forwarded and not ignored is in what requests share. -/
private theorem filter_shared (built : Built ctx headers) {name : String}
    (forwarded : enumHas forwardHeader name = true) (joined : name ≠ "set-cookie")
    (kept : name ≠ "x-guid" ∧ name ≠ "x-request-id") :
    Multiset.filter (fun pair => pair.1 = name) (sharedHeaders ctx.forwardHeaders) =
      (((single headers name).toList.map fun value => (name, value) : List (String × String)) :
        Multiset (String × String)) := by
  obtain ⟨params, now, ref, built⟩ := built
  have copied := copyHeaders_pairs (buildContext_ok built).1
  rw [sharedHeaders, Multiset.coe_eq_coe.mpr copied, Multiset.filter_filter, Multiset.filter_coe]
  have both : ∀ pair : String × String,
      (pair.1 = name ∧ pair.1 ≠ "x-guid" ∧ pair.1 ≠ "x-request-id") ↔ pair.1 = name := by
    rintro ⟨key, value⟩
    exact ⟨And.left, fun same => ⟨same, same ▸ kept⟩⟩
  simp only [both, Option.elim_some]
  rw [single_pairs headers.distinct forwarded fun values member => joined (headers.joined name values member), single]
  split <;> rfl

/-- Two contexts that share their headers were built from the same value of
any one header that is forwarded and not ignored. -/
theorem single_shared (built : Built ctx headers) (built' : Built ctx' headers')
    (shared : sharedHeaders ctx.forwardHeaders = sharedHeaders ctx'.forwardHeaders) {name : String}
    (forwarded : enumHas forwardHeader name = true) (joined : name ≠ "set-cookie")
    (kept : name ≠ "x-guid" ∧ name ≠ "x-request-id") : single headers name = single headers' name := by
  have same := filter_shared built forwarded joined kept
  rw [shared, filter_shared built' forwarded joined kept, Multiset.coe_eq_coe] at same
  cases one : single headers name <;> cases other : single headers' name <;> simp_all

/-- Shared headers fix the debug flag and the unique id of the context. -/
theorem legacyContext_shared (built : Built ctx headers) (built' : Built ctx' headers')
    (shared : sharedHeaders ctx.forwardHeaders = sharedHeaders ctx'.forwardHeaders) :
    ctx.legacyContext.debugToolEnabled = ctx'.legacyContext.debugToolEnabled ∧
      ctx.legacyContext.uniqueId = ctx'.legacyContext.uniqueId := by
  have debug : single headers "x-tripadvisor-graphql-debug" = single headers' "x-tripadvisor-graphql-debug" :=
    single_shared built built' shared (by decide) (by decide) (by decide)
  have unique : single headers "x-unique-id" = single headers' "x-unique-id" :=
    single_shared built built' shared (by decide) (by decide) (by decide)
  obtain ⟨params, now, ref, built⟩ := built
  obtain ⟨params', now', ref', built'⟩ := built'
  rw [(buildContext_ok built).2, (buildContext_ok built').2]
  constructor
  · simp only [legacyContextFromHeaders]
    rw [getHeaderOrDefault_single _ _ _ (by decide), getHeaderOrDefault_single _ _ _ (by decide), debug]
  · simp only [legacyContextFromHeaders]
    rw [getHeaderOrDefault_single _ _ _ (by decide), getHeaderOrDefault_single _ _ _ (by decide), unique]

/-! ### One sub-batch -/

section Agreement
variable {runtime : Runtime} {V F : Type} (strategy : BatchingStrategy) (config : BatchingConfig)
  (state : PrivateState runtime) (requests : List TaqlRequest) (executor : TaqlBatchLoader V)
  (requestFormatter : TaqlRequest → F)

def legacyContext (request : TaqlRequest) : Option LegacyContext := request.taql.map TaqlContext.legacyContext

/-- Every request of a call is executed under its own context. -/
def LegacyAgrees (call : LoaderArgs) : Prop :=
  ∀ request ∈ call.request, (legacyBody requestFormatter call.request).requestContext = legacyContext request

instance : Decidable (LegacyAgrees requestFormatter call) :=
  inferInstanceAs (Decidable (∀ request ∈ call.request, _))

/-- The locale and the client's address, which no forwarded header tells. -/
def placeOf (request : TaqlRequest) : Option (String × Option String) :=
  (legacyContext request).map fun context => (context.locale, context.userClientIP)

variable {strategy config state requests} in
private theorem mem_requests (listed : subBatch ∈ subBatches strategy config state requests) (held : entry ∈ subBatch) :
    entry.val ∈ requests :=
  List.mem_of_getElem? (entry_handed strategy config state requests listed held)

variable {config state requests} in
private theorem headers_agree {subBatch : List (BatchEntry TaqlRequest)} {first request : BatchEntry TaqlRequest}
    (within : WithinCap config.maxSize requests.length)
    (built : ∀ request ∈ requests, ∀ ctx, request.taql = some ctx → ∃ headers, Built ctx headers)
    (listed : subBatch ∈ subBatches .Headers config state requests) (firstIn : first ∈ subBatch)
    (requestIn : request ∈ subBatch) (place : placeOf first.val = placeOf request.val) :
    legacyContext first.val = legacyContext request.val := by
  have compared := compared_alike within listed firstIn requestIn
  cases firstHas : first.val.taql with
  | none =>
    rw [comparedHeaders, comparedHeaders, firstHas, Option.map_none, eq_comm, Option.map_eq_none_iff] at compared
    rw [legacyContext, legacyContext, firstHas, compared]
  | some ctx =>
    cases requestHas : request.val.taql with
    | none =>
      rw [comparedHeaders, comparedHeaders, firstHas, requestHas] at compared
      cases compared
    | some ctx' =>
      obtain ⟨headers, ctxBuilt⟩ := built _ (mem_requests listed firstIn) ctx firstHas
      obtain ⟨headers', ctxBuilt'⟩ := built _ (mem_requests listed requestIn) ctx' requestHas
      obtain ⟨debug, unique⟩ :=
        legacyContext_shared ctxBuilt ctxBuilt' (shared_of_compared compared firstHas requestHas)
      simp only [placeOf, legacyContext, firstHas, requestHas, Option.map_some, Option.some.injEq,
        Prod.mk.injEq] at place
      obtain ⟨locale, address⟩ := place
      simp only [legacyContext, firstHas, requestHas, Option.map_some, Option.some.injEq]
      exact LegacyContext.ext locale debug unique address

/-- The one context that is sent is that of every request when they all have one place. -/
private theorem agrees_iff_place (within : WithinCap config.maxSize requests.length)
    (built : ∀ request ∈ requests, ∀ ctx, request.taql = some ctx → ∃ headers, Built ctx headers)
    {subBatch : List (BatchEntry TaqlRequest)} (listed : subBatch ∈ subBatches .Headers config state requests) :
    LegacyAgrees requestFormatter (firstArgs subBatch) ↔
      ∀ one ∈ subBatch, ∀ other ∈ subBatch, placeOf one.val = placeOf other.val := by
  constructor
  · intro agrees one oneIn other otherIn
    have same :=
      (agrees one.val (List.mem_map_of_mem oneIn)).symm.trans (agrees other.val (List.mem_map_of_mem otherIn))
    rw [placeOf, same, placeOf]
  · intro places request requestIn
    obtain ⟨entry, held, rfl⟩ := List.mem_map.mp requestIn
    cases subBatch with
    | nil => cases held
    | cons first rest =>
      have sent : (legacyBody requestFormatter (firstArgs (first :: rest)).request).requestContext =
          legacyContext first.val := rfl
      rw [sent]
      exact headers_agree within built listed List.mem_cons_self held (places first List.mem_cons_self entry held)

/-- Every request is executed under its own legacy context exactly when the strategy goes
by the context object, or requests that carry the same headers, and are next to each
other by their deadlines among those that do, have one locale and one client address
or are divided. -/
theorem legacy_agrees_iff (byContext : strategy ≠ .Insecure)
    (within : WithinCap config.maxSize requests.length)
    (built : ∀ request ∈ requests, ∀ ctx, request.taql = some ctx → ∃ headers, Built ctx headers) :
    (∀ call ∈ (STRATEGIES strategy executor config state requests).calls, LegacyAgrees requestFormatter call) ↔
      strategy = .Request ∨ ∀ member ∈ entriesOf requests,
        NeighboursAgree runtime.sorting (makeDeadlineClustering config)
          (fun one other => placeOf one.val = placeOf other.val)
          ((entriesOf requests).filter fun other => Alike runtime requests member other) := by
  rw [calls_eq, List.forall_mem_map]
  cases strategy with
  | Insecure => exact absurd rfl byContext
  | Request =>
    refine iff_of_true (fun subBatch listed request requestIn => ?_) (.inl rfl)
    obtain ⟨entry, held, rfl⟩ := (mem_toArgs ..).mp requestIn
    cases subBatch with
    | nil => cases held
    | cons first rest =>
      have sent : (legacyBody requestFormatter (firstArgs (first :: rest)).request).requestContext =
          legacyContext first.val := rfl
      refine sent.trans ?_
      rw [legacyContext, legacyContext, contexts_shared listed List.mem_cons_self held]
  | Headers =>
    have equivalence : Equivalence fun one other : BatchEntry TaqlRequest => placeOf one.val = placeOf other.val :=
      eq_equivalence.comap fun entry : BatchEntry TaqlRequest => placeOf entry.val
    rw [or_iff_right nofun]
    simp only [← replacement_agree_iff equivalence]
    calc (∀ subBatch ∈ subBatches .Headers config state requests, LegacyAgrees requestFormatter (firstArgs subBatch))
      _ ↔ ∀ subBatch ∈ subBatches .Headers config state requests, ∀ one ∈ subBatch, ∀ other ∈ subBatch,
            placeOf one.val = placeOf other.val :=
        forall₂_congr fun subBatch listed => agrees_iff_place config state requests requestFormatter within built listed
      _ ↔ ∀ member ∈ entriesOf requests, ∀ part ∈ replacement runtime.sorting (makeDeadlineClustering config)
            ((entriesOf requests).filter fun other => Alike runtime requests member other),
          ∀ one ∈ part, ∀ other ∈ part, placeOf one.val = placeOf other.val := by
        simp only [mem_subBatches, mem_batched_iff within]
        constructor
        · exact fun all member input part partIn => all part ⟨_, ⟨member, input, rfl⟩, partIn⟩
        · rintro all part ⟨_, ⟨member, input, rfl⟩, partIn⟩
          exact all member input part partIn

end Agreement

/-- A request as it is made of the headers the server hands over. -/
def visit (ref : Nat) (headers : IncomingHttpHeaders) : TaqlRequest :=
  ⟨ref, .query, (buildContext ⟨1000, 3500⟩ 0 ref (.plain headers.properties)).toOption⟩

theorem visit_built (known : (visit ref headers).taql = some ctx) : Built ctx headers := by
  refine ⟨⟨1000, 3500⟩, 0, ref, ?_⟩
  simp only [visit] at known
  cases context : buildContext ⟨1000, 3500⟩ 0 ref (.plain headers.properties) with
  | error error =>
    rw [context] at known
    cases known
  | ok built =>
    rw [context] at known
    cases known
    rfl

/-- The headers of a visitor who reads one language. -/
def reading (locale : String) : IncomingHttpHeaders :=
  ⟨[("x-tripadvisor-locale", .one locale)], List.nodup_singleton _, by simp⟩

/-- Two visitors who read one language, handed over together. -/
theorem legacy_agrees_one_locale :
    (STRATEGIES .Headers (answering TaqlRequest.ref) ⟨10, some 2⟩ plainState
      [visit 0 (reading "fr-FR"), visit 1 (reading "fr-FR")]).calls.length = 1 ∧
    ∀ call ∈ (STRATEGIES .Headers (answering TaqlRequest.ref) ⟨10, some 2⟩ plainState
      [visit 0 (reading "fr-FR"), visit 1 (reading "fr-FR")]).calls, LegacyAgrees TaqlRequest.ref call := by
  refine ⟨by decide, (legacy_agrees_iff _ _ _ _ _ _ (by decide) ?_ ?_).mpr (.inr fun member _ => ?_)⟩
  · rintro cap ⟨⟩
    decide
  · intro request member ctx known
    simp only [List.mem_cons, List.not_mem_nil, or_false] at member
    rcases member with rfl | rfl
    · exact ⟨_, visit_built known⟩
    · exact ⟨_, visit_built known⟩
  · refine neighboursAgree_of_all fun one oneIn other otherIn => ?_
    have places : ∀ entry ∈ entriesOf [visit 0 (reading "fr-FR"), visit 1 (reading "fr-FR")],
        placeOf entry.val = some ("fr-FR", none) := by decide
    rw [places one (List.mem_of_mem_filter oneIn), places other (List.mem_of_mem_filter otherIn)]

/-- A visitor who reads German is served in the language of one who reads
French. -/
theorem legacy_crosses_locales :
    (∀ request ∈ [visit 0 (reading "fr-FR"), visit 1 (reading "de-DE")], ∀ ctx, request.taql = some ctx →
      ∃ headers, Built ctx headers) ∧
    ¬ ∀ call ∈ (STRATEGIES .Headers (answering TaqlRequest.ref) ⟨10, some 2⟩ plainState
      [visit 0 (reading "fr-FR"), visit 1 (reading "de-DE")]).calls, LegacyAgrees TaqlRequest.ref call := by
  refine ⟨?_, by decide⟩
  intro request member ctx known
  simp only [List.mem_cons, List.not_mem_nil, or_false] at member
  rcases member with rfl | rfl
  · exact ⟨_, visit_built known⟩
  · exact ⟨_, visit_built known⟩

end Taql.LegacyAgreement
