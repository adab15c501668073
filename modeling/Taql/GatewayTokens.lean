import Taql.Context
import Taql.InsecureHeaders
import Taql.ServiceOverrides

/-! The tokens the gateway authenticates itself with: `subgraphAuthProvider` and `bindLoad`
of `packages/executors/src/index.ts`, and `getLegacySubgraph` of
`packages/schema/src/legacy.ts`. A load of a subgraph sends the token of its own provider
or none, and never over cleartext; what loads the schema of an override asks for the
token by one URL and sends it to another. -/
namespace Taql.GatewayTokens
open BatchingContext BatchingExecutors Context Deadlines Executors Headers InsecureHeaders JavaScript
open MergedExtensions ServiceOverrides Strategies SubBatches UpstreamTimeouts Urls

/-- The audience and the scopes are read from the URL. -/
structure AuthProvider where
  url : Url
  domain : String

/-- No provider without a domain, and none for an empty one. -/
def subgraphAuthProvider (url : Url) (oidcLiteAuthorizationDomain : Option String) : Option AuthProvider :=
  (oidcLiteAuthorizationDomain.filter fun domain => domain ≠ "").map fun domain => ⟨url, domain⟩

/-- What the `getAuth` of a provider comes to at some time: a token, none, or an error. -/
abbrev Auth := AuthProvider → Except JsError (Option String)

/-- `(await authProvider?.getAuth())?.accessToken`. -/
def accessToken (auth : Auth) (authProvider : Option AuthProvider) : Except JsError (Option String) :=
  authProvider.elim (.ok none) auth

/-- `legacyHttpsAgent` presents the client certificate, where there is one. -/
inductive Agent where
  | httpAgent
  | httpsAgent
  | legacyHttpsAgent
  deriving DecidableEq, Repr

/-- A request as it goes out. -/
structure Sent where
  url : Url
  agent : Agent
  headers : List (String × String)

/-- The tokens a request carries. -/
def Sent.tokens (sent : Sent) : List String := valuesOf sent.headers "x-oidc-authorization"

/-- It carries a token that can be read on the way. -/
def Sent.Exposed (sent : Sent) : Prop := sent.url.protocol = "http:" ∧ sent.tokens ≠ []

/-! ### The loads of a subgraph -/

/-- What is used of a subgraph's configuration. -/
structure SubgraphExecutorConfig where
  url : Url
  oidcLiteAuthorizationDomain : Option String
  maxTimeoutMillis : Option Int
  batching : Option BatchStyle

def cleartext (url : String) : JsError :=
  ⟨"Error", "Subgraph misconfiguration for: " ++ url ++
    ". Refusing to send authentication headers over cleartext http."⟩

/-- A subgraph that loads are bound to. -/
structure BoundSubgraph where
  config : SubgraphExecutorConfig
  authProvider : Option AuthProvider
  agent : Agent

/-- `bindLoad`, up to the function it makes. `href` writes a URL out. -/
def bindLoad (href : Url → String) (config : SubgraphExecutorConfig) : Except JsError BoundSubgraph :=
  let authProvider := subgraphAuthProvider config.url config.oidcLiteAuthorizationDomain
  if config.url.protocol = "http:" && authProvider.isSome then .error (cleartext (href config.url))
  else .ok ⟨config, authProvider,
    if config.url.protocol = "http:" then .httpAgent
    else if authProvider.isNone then .legacyHttpsAgent else .httpsAgent⟩

/-- `text.replace(pattern, replacement)`: the first place where the pattern stands. -/
def replace (pattern replacement : List Char) : List Char → List Char
  | [] => if pattern.isEmpty then replacement else []
  | char :: rest =>
    if pattern.isPrefixOf (char :: rest) then replacement ++ (char :: rest).drop pattern.length
    else char :: replace pattern replacement rest

/-- The capital is in no scheme and in no host, so that only the path is rewritten. -/
def rewriteLegacyConfig (config : SubgraphExecutorConfig) : SubgraphExecutorConfig :=
  let pathname := replace "graphqlUnwrapped".toList "graphqlBatched".toList config.url.pathname.toList
  { config with url := { config.url with pathname := String.ofList pathname } }

/-- What the executor of a subgraph loads with: every load of it is bound to one
configuration. -/
def createExecutor (href : Url → String) (config : SubgraphExecutorConfig) : Except JsError BoundSubgraph :=
  match config.batching with
  | some .Legacy => bindLoad href (rewriteLegacyConfig config)
  | _ => bindLoad href config

/-- What an executor loads at once: a request of its own, a legacy batch of one request,
or what a strategy hands over. -/
inductive Load where
  | remote (request : TaqlRequest)
  | singleton (request : TaqlRequest)
  | batch (style : BatchStyle) (args : LoaderArgs)

/-- The fetch of a load with some token. -/
def fetchOf (executions : Executions) (params : TimeoutParams) (subgraph : SubgraphConfig) (now : Int) :
    Load → Except JsError Fetch
  | .remote request => makeRemoteExecutor params subgraph now (executions.of request)
  | .singleton request => arrayLoader params subgraph now [executions.of request] (forwarded request)
  | .batch style args => fetchFor executions style params subgraph now args

/-- The token is asked for when the load is not refused before. -/
def BoundSubgraph.load (href : Url → String) (executions : Executions) (params : TimeoutParams) (auth : Auth)
    (now : Int) (subgraph : BoundSubgraph) (load : Load) : Except JsError Sent := do
  let fetch (token : Option String) :=
    fetchOf executions params ⟨href subgraph.config.url, subgraph.config.maxTimeoutMillis, token⟩ now load
  let _ ← fetch none
  let token ← accessToken auth subgraph.authProvider
  let fetch ← fetch token
  .ok ⟨subgraph.config.url, subgraph.agent, fetch.headers⟩

/-- The loads that an executor with some batching makes of requests. -/
inductive Loads (runtime : Runtime) (requests : List TaqlRequest) : Option BatchStyle → Load → Prop where
  | remote (style : Option BatchStyle) (plain : style ≠ some .Legacy) (request : TaqlRequest)
      (asked : request ∈ requests) : Loads runtime requests style (.remote request)
  | singleton (request : TaqlRequest) (asked : request ∈ requests) :
      Loads runtime requests (some .Legacy) (.singleton request)
  | batch {V : Type} (style : BatchStyle) (strategy : BatchingStrategy) (executor : TaqlBatchLoader V)
      (config : BatchingConfig) (state : PrivateState runtime) (args : LoaderArgs)
      (called : args ∈ (STRATEGIES strategy executor config state requests).calls) :
      Loads runtime requests (some style) (.batch style args)

/-- The context of the request, if it has one, was built from headers. -/
def Received (request : TaqlRequest) : Prop :=
  ∀ context, request.taql = some context → ∃ headers, forwardableHeaders headers = .ok context.forwardHeaders

/-! ### The schema of the legacy subgraph -/

/-- What is used of the arguments of `getLegacySubgraph`. -/
structure LegacyArgs where
  url : Url
  oidcLiteAuthorizationDomain : Option String
  legacySVCO : Option String

def rootUrl (hosts : Url.HostParser) (args : LegacyArgs) : Url :=
  match args.legacySVCO with
  | none => args.url
  | some legacySVCO => if legacySVCO = "" then args.url else legacyHostOverride hosts args.url legacySVCO

/-- `new URL(path.join(url.href, segment))` of a URL with a host and no query: slashes are
not repeated. -/
def joined (url : Url) (segment : String) : Url :=
  let segments := (split '/' url.pathname ++ split '/' segment).filter fun segment => segment ≠ ""
  { url with pathname := "/" ++ "/".intercalate segments }

/-- A character of a header's value: a tab, or one of Latin 1 that is no control. -/
def legal (char : Char) : Bool :=
  char = '\t' || 32 ≤ char.toNat && char.toNat ≤ 126 || 128 ≤ char.toNat && char.toNat ≤ 255

/-- `append` of the headers of `node-fetch`, which refuse some values. -/
def appendLegal (headers : List (String × String)) (name value : String) : Except JsError (List (String × String)) :=
  if value.toList.all legal then .ok (append headers name value)
  else .error ⟨"TypeError", value ++ " is not a legal HTTP header value"⟩

def onlyAbsolute : JsError := ⟨"TypeError", "Only absolute URLs are supported"⟩

def onlyHttp : JsError := ⟨"TypeError", "Only HTTP(S) protocols are supported"⟩

/-- `fetch` of `node-fetch`, up to the request it sends. -/
def fetched (sent : Sent) : Except JsError Sent :=
  -- `path.join` leaves no host of a file's URL.
  if sent.url.hostname = "" || sent.url.protocol = "file:" then .error onlyAbsolute
  else if sent.url.protocol = "http:" || sent.url.protocol = "https:" then .ok sent
  else .error onlyHttp

/-- The request of `getLegacySubgraph`. -/
def schemaFetch (hosts : Url.HostParser) (auth : Auth) (args : LegacyArgs) : Except JsError Sent := do
  let schemaUrl := joined (rootUrl hosts args) "Schema"
  let token ← accessToken auth (subgraphAuthProvider args.url args.oidcLiteAuthorizationDomain)
  let authorized ← token.elim (.ok []) fun token => appendLegal [] "x-oidc-authorization" ("Bearer " ++ token)
  let headers ← args.legacySVCO.elim (.ok authorized) (appendLegal authorized "x-service-overrides")
  fetched ⟨schemaUrl, if schemaUrl.protocol = "https:" then .legacyHttpsAgent else .httpAgent, headers⟩

/-- What the loads of the legacy subgraph are bound to: `executorConfig`. -/
def legacyConfig (hosts : Url.HostParser) (args : LegacyArgs) (maxTimeoutMillis : Option Int)
    (style : BatchStyle) : SubgraphExecutorConfig :=
  ⟨joined (rootUrl hosts args) "v1/graphqlBatched", args.oidcLiteAuthorizationDomain, maxTimeoutMillis, some style⟩

/-! ### What a fetch carries -/

/-- The headers of a request never name a token. -/
theorem token_unlisted : enumHas forwardHeader "x-oidc-authorization" = false := by decide

/-- The tokens of a bound load: its own, or what is forwarded under that name. -/
theorem bindLoad_tokens {params : TimeoutParams} {subgraph : SubgraphConfig}
    {getDeadline : T → Except JsError (Option JsNumber)} {getUpstreamHeaders : T → List (String × String)} {now : Int}
    {request : T} {forwardHeaders : TaqlHeaders}
    (servicing : ∀ header ∈ getUpstreamHeaders request, header.1 ∈ servicingNames)
    (silent : valuesOf (headerPairs forwardHeaders) "x-oidc-authorization" = [])
    (sent : Executors.bindLoad params subgraph getDeadline getUpstreamHeaders now request forwardHeaders = .ok fetch) :
    valuesOf fetch.headers "x-oidc-authorization" = subgraph.accessToken.toList.map ("Bearer " ++ ·) := by
  have plain : arrayIndex "x-oidc-authorization" = none := by decide
  have unset : "x-oidc-authorization" ∉ (getUpstreamHeaders request).map Prod.fst := by
    intro member
    obtain ⟨header, held, named⟩ := List.mem_map.mp member
    exact absurd (named ▸ servicing header held) (by decide)
  unfold Executors.bindLoad at sent
  cases dated : getDeadline request with
  | error error =>
    rw [dated] at sent
    cases sent
  | ok deadline =>
    rw [dated] at sent
    simp only [bind, Except.bind, load_eq] at sent
    split at sent
    · cases sent
    · cases sent
      rw [valuesOf_fetchHeaders, if_neg (by decide), if_neg (by decide), valuesOf_copyAuthorization _ (by decide)]
      cases carried : subgraph.accessToken with
      | none =>
        rcases valuesOf_setAll (sets subgraph (getUpstreamHeaders request)) "x-oidc-authorization" with
          ⟨_, same⟩ | ⟨member, _⟩
        · rw [same, valuesOf_entries plain, silent]
          rfl
        · rw [sets, carried] at member
          exact absurd (by simpa using member) unset
      | some token =>
        have last (pairs : List (String × String)) : setAll (sets subgraph (getUpstreamHeaders request)) pairs =
            set (setAll (getUpstreamHeaders request) pairs) "x-oidc-authorization" ("Bearer " ++ token) := by
          unfold setAll sets
          rw [carried, List.foldl_append]
          rfl
        rw [last, valuesOf_set, if_pos rfl]
        rfl

/-- What a request forwards under a name that the allow-list does not have. -/
theorem forwarded_silent {request : TaqlRequest} (received : Received request) :
    valuesOf (headerPairs (forwarded request)) "x-oidc-authorization" = [] := by
  unfold forwarded
  cases has : request.taql with
  | none => rfl
  | some context =>
    obtain ⟨headers, copied⟩ := received context has
    rw [Option.map_some, Option.getD_some, valuesOf_eq_nil]
    intro named
    obtain ⟨⟨name, value⟩, member, rfl⟩ := List.mem_map.mp named
    have passes := (copyHeaders_pairs copied).mem_iff.mp member
    exact absurd (mem_forwardable.mp passes).2 (by simp [token_unlisted])

theorem merged_silent (members : List TaqlRequest) :
    valuesOf (headerPairs (mergeInsecureHeaders members)) "x-oidc-authorization" = [] := by
  rw [valuesOf_eq_nil]
  intro named
  obtain ⟨header, member, is⟩ := List.mem_map.mp named
  obtain ⟨entry, held, inside⟩ := List.mem_flatMap.mp member
  obtain ⟨value, _, rfl⟩ := List.mem_map.mp inside
  have allowed := names_mergeInsecureHeaders members entry held
  rw [show entry.1 = "x-oidc-authorization" from is] at allowed
  exact absurd allowed (by decide)

section Loads
variable {executions : Executions} {params : TimeoutParams} {subgraph : SubgraphConfig} {now : Int}

theorem makeRemoteExecutor_tokens {request : ExecutionRequest} {first : TaqlRequest} (received : Received first)
    (context : request.context = (executions.of first).context)
    (sent : makeRemoteExecutor params subgraph now request = .ok fetch) :
    valuesOf fetch.headers "x-oidc-authorization" = subgraph.accessToken.toList.map ("Bearer " ++ ·) := by
  have same : (request.context.bind TaqlState.taql).elim [] TaqlContext.forwardHeaders = forwarded first := by
    rw [context, executions.taql, forwarded]
    cases first.taql <;> rfl
  unfold makeRemoteExecutor at sent
  rw [same] at sent
  exact bindLoad_tokens (servicing_fromContext request) (forwarded_silent received) sent

theorem fetchFor_tokens {style : BatchStyle} {args : LoaderArgs} (received : ∀ request ∈ args.request, Received request)
    (silent : valuesOf (headerPairs (args.forwardHeaders.getD [])) "x-oidc-authorization" = [])
    (sent : fetchFor executions style params subgraph now args = .ok fetch) :
    valuesOf fetch.headers "x-oidc-authorization" = subgraph.accessToken.toList.map ("Bearer " ++ ·) := by
  cases style with
  | Array => exact bindLoad_tokens (servicing_merged _) silent sent
  | Legacy => exact bindLoad_tokens (servicing_merged _) silent sent
  | Single =>
    obtain ⟨members, forwardHeaders, clientName⟩ := args
    simp only [fetchFor] at sent
    cases members with
    | nil => cases sent
    | cons first rest =>
      have own := received first List.mem_cons_self
      cases rest with
      | nil => exact makeRemoteExecutor_tokens own rfl sent
      | cons second rest =>
        simp only [List.map_cons, createLoadFn] at sent
        cases made : mergeRequests (executions.of first) (executions.of second :: rest.map executions.of) with
        | error error =>
          rw [made] at sent
          cases sent
        | ok merged =>
          rw [made] at sent
          exact makeRemoteExecutor_tokens own (mergeRequests_context made) sent

/-- What a strategy hands over forwards no token, in none of the strategies. -/
theorem calls_silent {runtime : Runtime} {V : Type} {strategy : BatchingStrategy} {executor : TaqlBatchLoader V}
    {config : BatchingConfig} {state : PrivateState runtime} {requests : List TaqlRequest} {args : LoaderArgs}
    (received : ∀ request ∈ requests, Received request)
    (called : args ∈ (STRATEGIES strategy executor config state requests).calls) :
    (∀ request ∈ args.request, Received request) ∧
      valuesOf (headerPairs (args.forwardHeaders.getD [])) "x-oidc-authorization" = [] := by
  rw [calls_eq] at called
  obtain ⟨subBatch, listed, rfl⟩ := List.mem_map.mp called
  have members : ∀ entry ∈ subBatch, Received entry.val := fun entry held =>
    received _ (List.mem_of_getElem? (entry_handed strategy config state requests listed held))
  refine ⟨fun request member => ?_, ?_⟩
  · obtain ⟨entry, held, rfl⟩ := (mem_toArgs ..).mp member
    exact members entry held
  · have first : valuesOf (headerPairs ((firstArgs subBatch).forwardHeaders.getD [])) "x-oidc-authorization" = [] := by
      cases subBatch with
      | nil => rfl
      | cons entry rest => exact forwarded_silent (members entry List.mem_cons_self)
    cases strategy with
    | Request => exact first
    | Headers => exact first
    | Insecure => exact merged_silent _

theorem fetchOf_tokens {runtime : Runtime} {requests : List TaqlRequest} {batching : Option BatchStyle} {load : Load}
    (received : ∀ request ∈ requests, Received request) (loads : Loads runtime requests batching load)
    (sent : fetchOf executions params subgraph now load = .ok fetch) :
    valuesOf fetch.headers "x-oidc-authorization" = subgraph.accessToken.toList.map ("Bearer " ++ ·) := by
  cases loads with
  | remote style plain request asked => exact makeRemoteExecutor_tokens (received request asked) rfl sent
  | singleton request asked =>
    exact bindLoad_tokens (servicing_merged _) (forwarded_silent (received request asked)) sent
  | batch style strategy executor config state args called =>
    obtain ⟨members, silent⟩ := calls_silent received called
    exact fetchFor_tokens members silent sent

end Loads

/-! ### Where the tokens of the loads go -/

theorem bindLoad_ok {href : Url → String} {config : SubgraphExecutorConfig}
    (bound : bindLoad href config = .ok subgraph) :
    subgraph.config = config ∧
      subgraph.authProvider = subgraphAuthProvider config.url config.oidcLiteAuthorizationDomain ∧
      (subgraph.authProvider.isSome → config.url.protocol ≠ "http:" ∧ subgraph.agent = .httpsAgent) := by
  unfold bindLoad at bound
  by_cases refused : (config.url.protocol = "http:" &&
      (subgraphAuthProvider config.url config.oidcLiteAuthorizationDomain).isSome) = true
  · rw [if_pos refused] at bound
    cases bound
  · rw [if_neg refused, Except.ok.injEq] at bound
    subst bound
    refine ⟨rfl, rfl, fun provided => ?_⟩
    have secure : config.url.protocol ≠ "http:" := fun http => refused (by simp [http, provided])
    refine ⟨secure, ?_⟩
    simp only [if_neg secure, Option.isNone_eq_false_iff.mpr provided]
    rfl

theorem bindLoad_refused {href : Url → String} {config : SubgraphExecutorConfig} (http : config.url.protocol = "http:")
    (provided : (subgraphAuthProvider config.url config.oidcLiteAuthorizationDomain).isSome) :
    bindLoad href config = .error (cleartext (href config.url)) := if_pos (by simp [http, provided])

theorem protocol_rewriteLegacyConfig (config : SubgraphExecutorConfig) :
    (rewriteLegacyConfig config).url.protocol = config.url.protocol := rfl

theorem createExecutor_refused {href : Url → String} {config : SubgraphExecutorConfig}
    (http : config.url.protocol = "http:")
    (provided : ∀ url, (subgraphAuthProvider url config.oidcLiteAuthorizationDomain).isSome) :
    ∃ url, createExecutor href config = .error (cleartext url) := by
  unfold createExecutor
  split
  · refine ⟨_, bindLoad_refused ?_ (provided _)⟩
    rw [protocol_rewriteLegacyConfig, http]
  · exact ⟨_, bindLoad_refused http (provided _)⟩

theorem createExecutor_domain {href : Url → String} {config : SubgraphExecutorConfig}
    (made : createExecutor href config = .ok subgraph) :
    bindLoad href subgraph.config = .ok subgraph ∧
      subgraph.config.oidcLiteAuthorizationDomain = config.oidcLiteAuthorizationDomain := by
  unfold createExecutor at made
  split at made
  · have is := (bindLoad_ok made).1
    exact ⟨is ▸ made, by rw [is]; rfl⟩
  · have is := (bindLoad_ok made).1
    exact ⟨is ▸ made, by rw [is]⟩

/-- A load carries what the provider of the very URL it goes to answers, and nothing in
its place: no header of a client becomes a token. With a token it goes out over TLS and
without the client certificate. -/
structure Guarded (auth : Auth) (domain : Option String) (sent : Sent) : Prop where
  own : ∃ token, accessToken auth (subgraphAuthProvider sent.url domain) = .ok token ∧
    sent.tokens = token.toList.map ("Bearer " ++ ·)
  hidden : ¬sent.Exposed
  alone : sent.tokens ≠ [] → sent.agent = .httpsAgent

/-- In every style and strategy, whatever the clients send. -/
theorem load_guarded {href : Url → String} {config : SubgraphExecutorConfig} {executions : Executions}
    {params : TimeoutParams} {auth : Auth} {now : Int} {runtime : Runtime} {requests : List TaqlRequest} {load : Load}
    (made : createExecutor href config = .ok subgraph) (received : ∀ request ∈ requests, Received request)
    (loads : Loads runtime requests config.batching load)
    (answered : subgraph.load href executions params auth now load = .ok sent) :
    Guarded auth config.oidcLiteAuthorizationDomain sent := by
  obtain ⟨bound, domain⟩ := createExecutor_domain made
  obtain ⟨_, provider, guarded⟩ := bindLoad_ok bound
  unfold BoundSubgraph.load at answered
  dsimp only at answered
  cases ready : fetchOf executions params ⟨href subgraph.config.url, subgraph.config.maxTimeoutMillis, none⟩ now
      load with
  | error error =>
    rw [ready] at answered
    cases answered
  | ok fetch =>
    cases asked : accessToken auth subgraph.authProvider with
    | error error =>
      rw [ready, asked] at answered
      cases answered
    | ok token =>
      cases fetched : fetchOf executions params ⟨href subgraph.config.url, subgraph.config.maxTimeoutMillis, token⟩ now
          load with
      | error error =>
        simp only [ready, asked, fetched, bind, Except.bind] at answered
        cases answered
      | ok fetch =>
        simp only [ready, asked, fetched, bind, Except.bind, Except.ok.injEq] at answered
        subst answered
        have tokens := fetchOf_tokens received loads fetched
        have provided : valuesOf fetch.headers "x-oidc-authorization" ≠ [] → subgraph.authProvider.isSome := by
          intro carries
          by_contra absent
          rw [Option.not_isSome_iff_eq_none.mp absent] at asked
          cases asked
          exact carries tokens
        refine ⟨⟨token, ?_, tokens⟩, fun exposed => ?_, fun carries => ?_⟩
        · rwa [← domain, ← provider]
        · exact (guarded (provided exposed.2)).1 exposed.1
        · exact (guarded (provided carries)).2

def hotelsConfig : SubgraphExecutorConfig where
  url := { legacyUrl with scheme := "https", grammar := rfl, portStray := noPort_stray "https" }
  oidcLiteAuthorizationDomain := some "oidc"
  maxTimeoutMillis := none
  batching := some .Array

def forgedHeaders : GenericHeaders :=
  .plain [("authorization", .one "Bearer alice"), ("x-oidc-authorization", .one "Bearer forged")]

def forged : TaqlRequest := forwarding 0 [("authorization", ["Bearer alice"])]

/-- The token of a client is dropped, and that of the gateway goes out in a batch. -/
theorem load_guarded_forged : ∃ subgraph sent, createExecutor (fun _ => "https://hotels/") hotelsConfig = .ok subgraph ∧
    subgraph.load (fun _ => "https://hotels/") bareExecutions defaultTimeouts (fun _ => .ok (some "own")) 1699999999000
      (.batch .Array ⟨[forged], some [("authorization", ["Bearer alice"])], some "web"⟩) = .ok sent ∧
    Guarded (fun _ => .ok (some "own")) (some "oidc") sent ∧ sent.tokens = ["Bearer own"] := by
  have called : ⟨[forged], some [("authorization", ["Bearer alice"])], some "web"⟩ ∈
      (STRATEGIES .Headers (answering TaqlRequest.ref) ⟨10, none⟩ plainState [forged]).calls := by decide
  have received : ∀ request ∈ [forged], Received request := by
    intro request member
    rw [List.mem_singleton] at member
    subst member
    rintro _ ⟨⟩
    exact ⟨forgedHeaders, rfl⟩
  refine ⟨_, _, rfl, rfl, ?_, ?_⟩
  · exact @load_guarded _ _ (fun _ => "https://hotels/") hotelsConfig bareExecutions
      defaultTimeouts _ 1699999999000 _ _ _
      rfl received (.batch .Array .Headers _ _ _ _ called) rfl
  · rfl

/-! ### Where the schema is loaded from -/

theorem separator_notMem_split (separator : Char) (text : String) :
    ∀ part ∈ split separator text, separator ∉ part.toList := by
  intro part member
  obtain ⟨chars, cut, rfl⟩ := List.mem_map.mp member
  rw [String.toList_ofList]
  clear member
  revert chars
  induction text.toList with
  | nil => simp
  | cons char rest ih =>
    intro chars cut
    rw [List.splitOn_cons_eq_if_modifyHead] at cut
    by_cases same : char = separator
    · rw [if_pos (beq_iff_eq.mpr same), List.mem_cons] at cut
      rcases cut with rfl | cut
      · exact List.not_mem_nil
      · exact ih chars cut
    · rw [if_neg (by simpa using same)] at cut
      obtain ⟨first, others, are⟩ := List.exists_cons_of_ne_nil (List.splitOn_ne_nil separator rest)
      rw [are] at cut ih
      rcases List.mem_cons.mp cut with rfl | cut
      · rw [List.mem_cons, not_or]
        exact ⟨Ne.symm same, ih first List.mem_cons_self⟩
      · exact ih chars (List.mem_cons_of_mem _ cut)

/-- A part as a scheme is read from it: without blanks, in lower case. -/
def spelled (part : String) : String := String.ofList ((Url.stripped part).map Char.toLower)

/-- The last line for the legacy subgraph names `http` as the protocol. -/
def NamesHttp (legacySVCO : String) : Prop := ∃ part ∈ (legacyOverride legacySVCO)[2]?, spelled part = "http"

theorem colon_notMem_legacyOverride (legacySVCO : String) :
    ∀ part ∈ legacyOverride legacySVCO, ':' ∉ part.toList := by
  intro part member
  rw [legacyOverride_eq] at member
  cases last : (legacyLines legacySVCO).getLast? with
  | none =>
    rw [last] at member
    cases member
  | some line =>
    rw [last] at member
    exact separator_notMem_split ':' _ part member

/-- A URL of TLS becomes one of cleartext just by this name. -/
theorem scheme_setProtocol_http {url : Url} (secure : url.scheme = "https") {part : String}
    (plain : ':' ∉ part.toList) : (url.setProtocol (part ++ ":")).scheme = "http" ↔ spelled part = "http" := by
  have cut : ((Url.stripped (part ++ ":")).takeWhile fun char => char ≠ ':') = Url.stripped part := by
    have colon : Url.stripped (part ++ ":") = Url.stripped part ++ [':'] := by
      unfold Url.stripped
      rw [String.toList_append, List.filter_append]
      rfl
    have before : ∀ char ∈ Url.stripped part, decide (char ≠ ':') = true := fun char member =>
      decide_eq_true fun same => plain (same ▸ (List.mem_filter.mp member).1)
    rw [colon, List.takeWhile_append_of_pos before, List.takeWhile_cons_of_neg (by simp), List.append_nil]
  unfold Url.setProtocol
  simp only [cut]
  by_cases named : spelled part = "http"
  · have chars : (Url.stripped part).map Char.toLower = "http".toList := by
      rw [← named, spelled, String.toList_ofList]
    have admitted : url.admits "http" = true := by simp [Url.admits, secure, special]
    have valid : validScheme "http".toList = true := rfl
    simp only [chars, String.ofList_toList, admitted, valid, named, ↓reduceDIte, ↓reduceIte]
  · have kept : url.scheme ≠ "http" := secure ▸ by decide
    refine iff_of_false ?_ named
    split
    · split
      · exact named
      · exact kept
    · exact kept

theorem scheme_withOverride {hosts : Url.HostParser} {url : Url} (secure : url.scheme = "https") {parts : List String}
    (plain : ∀ part ∈ parts, ':' ∉ part.toList) :
    (withOverride hosts url parts).scheme = "http" ↔ ∃ part ∈ parts[2]?, spelled part = "http" := by
  unfold withOverride
  dsimp only
  rw [Url.clearPathname_scheme]
  generalize held : (url.setHostname hosts (parts[0]?.getD url.hostname)).setPort
    (parts[1]?.getD (url.setHostname hosts (parts[0]?.getD url.hostname)).portText) = ported
  have same : ported.scheme = "https" := by rw [← held, Url.scheme_setPort, Url.scheme_setHostname, secure]
  have differs : ported.scheme ≠ "http" := same ▸ by decide
  cases third : parts[2]? with
  | none =>
    rw [Option.getD_none, if_pos rfl, Url.setProtocol_own]
    exact iff_of_false differs (by simp)
  | some part =>
    simp only [Option.getD_some, Option.mem_some_iff, exists_eq_left']
    by_cases empty : part = ""
    · rw [if_pos empty, Url.setProtocol_own, empty]
      exact iff_of_false differs (by decide)
    · rw [if_neg empty]
      exact scheme_setProtocol_http same (plain part (List.mem_of_getElem? third))

theorem protocol_legacyConfig (hosts : Url.HostParser) (args : LegacyArgs) (maxTimeoutMillis : Option Int)
    (style : BatchStyle) :
    (legacyConfig hosts args maxTimeoutMillis style).url.protocol = (rootUrl hosts args).protocol := rfl

theorem scheme_rootUrl {hosts : Url.HostParser} {args : LegacyArgs} (secure : args.url.scheme = "https") :
    (rootUrl hosts args).scheme = "http" ↔ ∃ legacySVCO ∈ args.legacySVCO, NamesHttp legacySVCO := by
  unfold rootUrl
  cases given : args.legacySVCO with
  | none => exact iff_of_false (secure ▸ by decide) (by simp)
  | some legacySVCO =>
    simp only [Option.mem_some_iff, exists_eq_left']
    by_cases empty : legacySVCO = ""
    · rw [if_pos empty, empty]
      refine iff_of_false (secure ▸ by decide) ?_
      rintro ⟨part, member, _⟩
      exact absurd member (by simp [legacyOverride, split, startsWith])
    · rw [if_neg empty]
      exact scheme_withOverride secure (colon_notMem_legacyOverride legacySVCO)

/-- What can be fetched: a URL with a host, over one of two protocols. -/
def Fetchable (url : Url) : Prop := url.hostname ≠ "" ∧ (url.scheme = "http" ∨ url.scheme = "https")

theorem fetched_eq_ok {sent other : Sent} : fetched sent = .ok other ↔ Fetchable sent.url ∧ other = sent := by
  have file : sent.url.protocol = "file:" ↔ sent.url.scheme = "file" := sent.url.protocol_eq_iff "file"
  have http : sent.url.protocol = "http:" ↔ sent.url.scheme = "http" := sent.url.protocol_eq_iff "http"
  have https : sent.url.protocol = "https:" ↔ sent.url.scheme = "https" := sent.url.protocol_eq_iff "https"
  unfold fetched Fetchable
  simp only [Bool.or_eq_true, decide_eq_true_eq, file, http, https]
  split
  · next refused =>
    refine iff_of_false nofun fun ⟨⟨hosted, scheme⟩, _⟩ => ?_
    rcases refused with bare | file
    · exact hosted bare
    · rcases scheme with scheme | scheme <;> exact absurd (file.symm.trans scheme) (by decide)
  · next admitted =>
    rw [not_or] at admitted
    split
    · next scheme => exact ⟨fun same => ⟨⟨admitted.1, scheme⟩, (Except.ok.inj same).symm⟩, fun both => both.2 ▸ rfl⟩
    · next other => exact iff_of_false nofun fun both => other both.1.2

theorem appendLegal_eq_ok {headers others : List (String × String)} {name value : String} :
    appendLegal headers name value = .ok others ↔
      value.toList.all legal = true ∧ others = append headers name value := by
  unfold appendLegal
  split
  · next allowed => simp [allowed, eq_comm]
  · next refused => exact iff_of_false nofun fun both => refused both.1

/-- What a gateway sends that loads the schema of an override with the token it has for its
legacy subgraph: to the overridden URL, and in cleartext exactly when the override names
`http`. The executor is refused all the same, when the token is out. -/
structure Leaks (hosts : Url.HostParser) (href : Url → String) (args : LegacyArgs) (token : String) (sent : Sent) :
    Prop where
  url : sent.url = joined (rootUrl hosts args) "Schema"
  carried : sent.tokens = ["Bearer " ++ token]
  exposed : sent.Exposed ↔ ∃ legacySVCO ∈ args.legacySVCO, NamesHttp legacySVCO
  refused : sent.Exposed → ∀ maxTimeoutMillis style, ∃ url,
    createExecutor href (legacyConfig hosts args maxTimeoutMillis style) = .error (cleartext url)

/-- A header can have the token for its value, and the override. -/
def LegalHeaders (args : LegacyArgs) (token : String) : Prop :=
  ("Bearer " ++ token).toList.all legal = true ∧ ∀ legacySVCO ∈ args.legacySVCO, legacySVCO.toList.all legal = true

/-- The headers of the request. -/
def schemaHeaders (args : LegacyArgs) (token : String) : List (String × String) :=
  let authorized := append [] "x-oidc-authorization" ("Bearer " ++ token)
  args.legacySVCO.elim authorized (append authorized "x-service-overrides")

theorem headers_eq_ok {args : LegacyArgs} {token : String} {headers : List (String × String)} :
    (appendLegal [] "x-oidc-authorization" ("Bearer " ++ token) >>= fun authorized =>
        args.legacySVCO.elim (.ok authorized) (appendLegal authorized "x-service-overrides")) = .ok headers ↔
      LegalHeaders args token ∧ headers = schemaHeaders args token := by
  unfold LegalHeaders schemaHeaders
  rw [bind_eq_ok]
  cases given : args.legacySVCO with
  | none =>
    simp only [appendLegal_eq_ok, Option.elim_none, Except.ok.injEq]
    constructor
    · rintro ⟨_, ⟨legal, rfl⟩, rfl⟩
      exact ⟨⟨legal, nofun⟩, rfl⟩
    · rintro ⟨⟨legal, _⟩, rfl⟩
      exact ⟨_, ⟨legal, rfl⟩, rfl⟩
  | some legacySVCO =>
    simp only [appendLegal_eq_ok, Option.elim_some, Option.mem_some_iff, forall_eq']
    constructor
    · rintro ⟨_, ⟨legal, rfl⟩, legal', rfl⟩
      exact ⟨⟨legal, legal'⟩, rfl⟩
    · rintro ⟨⟨legal, legal'⟩, rfl⟩
      exact ⟨_, ⟨legal, rfl⟩, legal', rfl⟩

/-- With a token, the request goes out where it has headers and a URL that can be fetched. -/
theorem schemaFetch_eq_ok {hosts : Url.HostParser} {auth : Auth} {args : LegacyArgs} {token : String}
    (asked : accessToken auth (subgraphAuthProvider args.url args.oidcLiteAuthorizationDomain) = .ok (some token))
    {sent : Sent} : schemaFetch hosts auth args = .ok sent ↔
      (LegalHeaders args token ∧ Fetchable (rootUrl hosts args)) ∧
        sent = ⟨joined (rootUrl hosts args) "Schema",
          if (rootUrl hosts args).protocol = "https:" then .legacyHttpsAgent else .httpAgent,
          schemaHeaders args token⟩ := by
  have ran : schemaFetch hosts auth args =
      ((appendLegal [] "x-oidc-authorization" ("Bearer " ++ token) >>= fun authorized =>
        args.legacySVCO.elim (.ok authorized) (appendLegal authorized "x-service-overrides")) >>= fun headers =>
          fetched ⟨joined (rootUrl hosts args) "Schema",
            if (rootUrl hosts args).protocol = "https:" then .legacyHttpsAgent else .httpAgent, headers⟩) := by
    unfold schemaFetch
    rw [asked]
    simp only [bind, Except.bind, Option.elim_some]
    cases appendLegal [] "x-oidc-authorization" ("Bearer " ++ token) <;> rfl
  rw [ran, bind_eq_ok]
  simp only [headers_eq_ok, fetched_eq_ok]
  constructor
  · rintro ⟨_, ⟨legal, rfl⟩, fetchable, rfl⟩
    exact ⟨⟨legal, fetchable⟩, rfl⟩
  · rintro ⟨⟨legal, fetchable⟩, rfl⟩
    exact ⟨_, ⟨legal, rfl⟩, fetchable, rfl⟩

/-- A gateway that authenticates itself to its legacy subgraph over TLS sends a request for
the schema of an override if it can be sent at all, and the token with it. -/
theorem schema_leaks_iff (hosts : Url.HostParser) (href : Url → String) {auth : Auth} {args : LegacyArgs}
    {domain token : String} (secure : args.url.scheme = "https")
    (given : args.oidcLiteAuthorizationDomain = some domain)
    (named : domain ≠ "") (answered : auth ⟨args.url, domain⟩ = .ok (some token)) :
    ((∃ sent, schemaFetch hosts auth args = .ok sent) ↔ LegalHeaders args token ∧ Fetchable (rootUrl hosts args)) ∧
      ∀ sent, schemaFetch hosts auth args = .ok sent → Leaks hosts href args token sent := by
  have provided (url : Url) : subgraphAuthProvider url args.oidcLiteAuthorizationDomain = some ⟨url, domain⟩ := by
    unfold subgraphAuthProvider
    rw [given]
    simp [named]
  have asked :
      accessToken auth (subgraphAuthProvider args.url args.oidcLiteAuthorizationDomain) = .ok (some token) := by
    rw [provided, accessToken, Option.elim_some, answered]
  have refused (http : (rootUrl hosts args).protocol = "http:") (maxTimeoutMillis : Option Int) (style : BatchStyle) :
      ∃ url, createExecutor href (legacyConfig hosts args maxTimeoutMillis style) = .error (cleartext url) := by
    have some_ (url : Url) : (subgraphAuthProvider url args.oidcLiteAuthorizationDomain).isSome := by
      rw [provided]
      rfl
    exact createExecutor_refused ((protocol_legacyConfig hosts args maxTimeoutMillis style).trans http) some_
  refine ⟨by simp only [schemaFetch_eq_ok asked, exists_and_left, exists_eq, and_true], fun sent out => ?_⟩
  obtain ⟨_, rfl⟩ := (schemaFetch_eq_ok asked).mp out
  have carried : valuesOf (schemaHeaders args token) "x-oidc-authorization" = ["Bearer " ++ token] := by
    unfold schemaHeaders
    cases args.legacySVCO <;> rfl
  refine ⟨rfl, carried, ?_, fun exposed => refused exposed.1⟩
  rw [← scheme_rootUrl secure, ← Url.protocol_eq_iff _ "http"]
  exact and_iff_left fun none => List.cons_ne_nil _ _ (carried.symm.trans none)

/-- The legacy subgraph by TLS, and an override that names its protocol in capitals. -/
def legacyArgs : LegacyArgs := ⟨hotelsConfig.url, some "oidc", some "taql*x|graphql*staging:8080:HTTP"⟩

theorem schema_leaks_capitals : ∃ sent, schemaFetch literalHosts (fun _ => .ok (some "own")) legacyArgs = .ok sent ∧
    Leaks literalHosts (fun _ => "") legacyArgs "own" sent ∧ sent.url.host = some "staging" ∧ sent.Exposed := by
  obtain ⟨goes, leaks⟩ := @schema_leaks_iff literalHosts (fun _ => "") (fun _ => .ok (some "own")) legacyArgs
    "oidc" "own" rfl rfl (by decide) rfl
  have legal : LegalHeaders legacyArgs "own" := by
    refine ⟨by decide, ?_⟩
    rintro legacySVCO ⟨⟩
    decide
  obtain ⟨sent, out⟩ := goes.mpr ⟨legal, by decide, .inl rfl⟩
  have sent' := leaks sent out
  exact ⟨sent, out, sent', congrArg Url.host sent'.url, sent'.exposed.mpr ⟨_, rfl, "HTTP", rfl, rfl⟩⟩

/-- An override that names another protocol is not fetched. -/
example :
    schemaFetch literalHosts (fun _ => .ok (some "own"))
        { legacyArgs with legacySVCO := some "graphql*staging:8080:ws" } =
      .error onlyHttp := rfl

end Taql.GatewayTokens
