import Taql.Executors
import Taql.MergedExtensions

/-! How long a fetch may take, from the header a client sends. A timeout that is
not a number passes through every minimum on the way and is not below zero, so it
is not refused; any other is bounded. -/
namespace Taql.UpstreamTimeouts
open Context Deadlines Executors Headers JavaScript MergedExtensions

/-- The fetch is refused, or has a timeout between zero and the hard limit. -/
def Bounded (params : TimeoutParams) (called : Except JsError Fetch) : Prop :=
  ∀ fetch, called = .ok fetch → ∃ millis, fetch.timeout = .num millis ∧ 0 ≤ millis ∧
    millis ≤ params.upstream.hardMaxUpstreamTimeoutMillis

/-- `parseInt` makes a number of the header, or of the default that stands for it. -/
def Numeric (execution : ExecutionTimeoutParams) (headers : GenericHeaders) : Prop :=
  parseInt (getHeaderOrDefault id headers "x-timeout" (toString execution.defaultExecutionTimeoutMillis)) ≠ .nan

/-- A request made for a client whose headers these are. -/
structure MadeFor (execution : ExecutionTimeoutParams) (headers : GenericHeaders) (request : ExecutionRequest) :
    Prop where
  own : request.extensions.bind Extensions.deadline = none
  context : ∃ builtAt ref params taql, buildContext execution builtAt ref headers = .ok taql ∧
    request.context = some ⟨params, some taql⟩

theorem load_timeout (params : TimeoutParams) (subgraph : SubgraphConfig) (timeout : JsNumber)
    (forwardHeaders : TaqlHeaders) (upstreamHeaders : List (String × String)) :
    (timeout.lt (.num 0) = true ∧
      load params subgraph timeout forwardHeaders upstreamHeaders = .error (noTimeRemaining subgraph)) ∨
    timeout.lt (.num 0) = false ∧ ∃ fetch,
      load params subgraph timeout forwardHeaders upstreamHeaders = .ok fetch ∧ fetch.timeout = timeout := by
  unfold load
  cases timeout.lt (.num 0) with
  | true => exact .inl ⟨rfl, rfl⟩
  | false => exact .inr ⟨rfl, _, rfl, rfl⟩

/-- A timeout is at most the hard limit, unless its deadline is not a number. -/
theorem computeTimeout_le (params : TimeoutParams) (subgraph : SubgraphConfig) (now : Int)
    {deadline : Option JsNumber} (numeric : deadline ≠ some .nan) :
    ∃ millis, computeTimeout params now (maxTimeout params subgraph) deadline = .num millis ∧
      millis ≤ params.upstream.hardMaxUpstreamTimeoutMillis := by
  cases deadline with
  | none => exact ⟨_, rfl, Int.min_le_left _ _⟩
  | some deadline =>
    cases deadline with
    | nan => exact absurd rfl numeric
    | num time => exact ⟨_, rfl, (Int.min_le_left _ _).trans (Int.min_le_left _ _)⟩

/-- A fetch is bounded exactly when its deadline is not a NaN. -/
theorem bindLoad_bounded_iff (params : TimeoutParams) (subgraph : SubgraphConfig)
    {getDeadline : T → Except JsError (Option JsNumber)} (getUpstreamHeaders : T → List (String × String)) (now : Int)
    {request : T} (forwardHeaders : TaqlHeaders) {deadline : Option JsNumber}
    (got : getDeadline request = .ok deadline) :
    Bounded params (bindLoad params subgraph getDeadline getUpstreamHeaders now request forwardHeaders) ↔
      deadline ≠ some .nan := by
  unfold bindLoad
  rw [got]
  simp only [bind, Except.bind]
  constructor
  · rintro bounded rfl
    rcases load_timeout params subgraph .nan forwardHeaders (getUpstreamHeaders request) with
      ⟨low, _⟩ | ⟨_, fetch, called, is⟩
    · cases low
    · obtain ⟨millis, finite, _⟩ := bounded fetch called
      rw [is] at finite
      cases finite
  · intro numeric fetch called
    obtain ⟨millis, is, most⟩ := computeTimeout_le params subgraph now numeric
    rw [is] at called
    rcases load_timeout params subgraph (.num millis) forwardHeaders (getUpstreamHeaders request) with
      ⟨_, refused⟩ | ⟨kept, fetch', called', timed⟩
    · rw [refused] at called
      cases called
    · cases called.symm.trans called'
      refine ⟨millis, timed, ?_, most⟩
      rw [JsNumber.lt_num, decide_eq_false_iff_not] at kept
      omega

/-- The deadline of a client's request is a number if its header is. -/
theorem getDeadline_madeFor {execution : ExecutionTimeoutParams} {headers : GenericHeaders}
    {request : ExecutionRequest} (made : MadeFor execution headers request) :
    ∃ deadline, getDeadline request = some deadline ∧ (deadline = .nan ↔ ¬Numeric execution headers) := by
  obtain ⟨own, builtAt, ref, served, taql, built, context⟩ := made
  refine ⟨taql.deadline, ?_, ?_⟩
  · rw [getDeadline, own, context]
    rfl
  · have dated : taql.deadline = deadline execution builtAt headers := by
      unfold buildContext at built
      cases forwarded : forwardableHeaders headers with
      | error error =>
        rw [forwarded] at built
        cases built
      | ok forwardHeaders =>
        rw [forwarded] at built
        cases built
        rfl
    rw [dated, deadline, Numeric]
    cases parseInt _ <;> simp [JsNumber.min, JsNumber.add]

theorem makeRemoteExecutor_bounded_iff (params : TimeoutParams) (subgraph : SubgraphConfig) (now : Int)
    (request : ExecutionRequest) :
    Bounded params (makeRemoteExecutor params subgraph now request) ↔ getDeadline request ≠ some .nan :=
  bindLoad_bounded_iff params subgraph upstreamHeadersFromContext now _ rfl

/-- The deadlines of a batch are numbers if all of the headers are. -/
theorem deadlines_madeFor {execution : ExecutionTimeoutParams} {batch : List (GenericHeaders × ExecutionRequest)}
    (made : ∀ member ∈ batch, MadeFor execution member.1 member.2) :
    ∃ deadlines : List JsNumber, (batch.map Prod.snd).map getDeadline = deadlines.map some ∧
      (.nan ∈ deadlines ↔ ¬∀ member ∈ batch, Numeric execution member.1) := by
  induction batch with
  | nil => exact ⟨[], rfl, by simp⟩
  | cons member rest ih =>
    obtain ⟨deadlines, are, stray⟩ := ih fun other held => made other (List.mem_cons_of_mem _ held)
    obtain ⟨deadline, is, numeric⟩ := getDeadline_madeFor (made member List.mem_cons_self)
    refine ⟨deadline :: deadlines, ?_, ?_⟩
    · rw [List.map_cons, List.map_cons, List.map_cons, are, is]
    · rw [List.mem_cons, stray, eq_comm, numeric, List.forall_mem_cons, not_and_or]

/-- Every fetch for a client, alone or in a batch of any style, is refused or
bounded exactly when `parseInt` makes a number of the `x-timeout` of that client,
and of everyone it shares a batch with. -/
theorem upstream_timeout_iff (execution : ExecutionTimeoutParams) (params : TimeoutParams) (subgraph : SubgraphConfig)
    (now : Int) (forwardHeaders : TaqlHeaders) {batch : List (GenericHeaders × ExecutionRequest)}
    (filled : batch ≠ []) (made : ∀ member ∈ batch, MadeFor execution member.1 member.2) :
    (∀ member ∈ batch, (Bounded params (makeRemoteExecutor params subgraph now member.2) ↔
      Numeric execution member.1)) ∧
    (Bounded params (arrayLoader params subgraph now (batch.map Prod.snd) forwardHeaders) ↔
      ∀ member ∈ batch, Numeric execution member.1) ∧
    ∀ first rest merged, batch.map Prod.snd = first :: rest → mergeRequests first rest = .ok merged →
      (Bounded params (makeRemoteExecutor params subgraph now merged) ↔
        ∀ member ∈ batch, Numeric execution member.1) := by
  obtain ⟨deadlines, are, stray⟩ := deadlines_madeFor made
  have picked : (deadlines.map some).foldl reduceDeadlines none ≠ some .nan ↔
      ∀ member ∈ batch, Numeric execution member.1 := by
    rw [ne_eq, foldl_reduceDeadlines_nan, stray, not_not]
  refine ⟨fun member held => ?_, ?_, fun first rest merged split merges => ?_⟩
  · obtain ⟨deadline, is, numeric⟩ := getDeadline_madeFor (made member held)
    rw [makeRemoteExecutor_bounded_iff, is, ne_eq, Option.some.injEq, numeric, not_not]
  · rw [← picked, ← are]
    have listed : batch.map Prod.snd ≠ [] := fun empty => filled (List.map_eq_nil_iff.mp empty)
    exact bindLoad_bounded_iff params subgraph mergeUpstreamHeaders now _ (pickDeadline_eq_ok listed)
  · rw [← picked, makeRemoteExecutor_bounded_iff, getDeadline_merged merges, ← split, are]
    obtain ⟨earliest, others, rfl⟩ : ∃ earliest others, deadlines = earliest :: others := by
      cases deadlines with
      | nil =>
        rw [split] at are
        cases are
      | cons earliest others => exact ⟨earliest, others, rfl⟩
    obtain ⟨least, is⟩ := foldl_reduceDeadlines_some earliest others
    rw [is, Option.some_or]

/-- The defaults of the configuration. -/
def defaultTimeouts : TimeoutParams := ⟨⟨25, 25, 350, 2500⟩, 25⟩

def hotels : SubgraphConfig := ⟨"http://hotels", none, none⟩

/-- A request for a client that sends these headers. -/
def requestOf (headers : GenericHeaders) : ExecutionRequest where
  extensions := none
  context := some ⟨none, (buildContext ⟨1000, 3500⟩ 1700000000000 0 headers).toOption⟩

def hurried : GenericHeaders := .plain [("x-timeout", .one "500")]

/-- A client that waits for the default, and sends a header that is forwarded. -/
def patient : GenericHeaders := .plain [("x-app-name", .one "app"), ("authorization", .one "Bearer patient")]

theorem upstream_timeout_hurried :
    Bounded defaultTimeouts (arrayLoader defaultTimeouts hotels 1700000000010 [requestOf hurried, requestOf patient]
      [("authorization", ["Bearer patient"])]) ∧
    ∃ merged, mergeRequests (requestOf hurried) [requestOf patient] = .ok merged ∧
      Bounded defaultTimeouts (makeRemoteExecutor defaultTimeouts hotels 1700000000010 merged) := by
  have made : ∀ member ∈ [(hurried, requestOf hurried), (patient, requestOf patient)],
      MadeFor ⟨1000, 3500⟩ member.1 member.2 := by
    rintro member (_ | ⟨_, _ | ⟨_, ⟨⟩⟩⟩)
    · exact ⟨rfl, 1700000000000, 0, none, _, rfl, rfl⟩
    · exact ⟨rfl, 1700000000000, 0, none, _, rfl, rfl⟩
  have numeric : ∀ member ∈ [(hurried, requestOf hurried), (patient, requestOf patient)],
      Numeric ⟨1000, 3500⟩ member.1 := by
    rintro member (_ | ⟨_, _ | ⟨_, ⟨⟩⟩⟩) <;> exact nofun
  obtain ⟨_, array, single⟩ := upstream_timeout_iff ⟨1000, 3500⟩ defaultTimeouts hotels 1700000000010
    [("authorization", ["Bearer patient"])] (List.cons_ne_nil _ _) made
  exact ⟨array.mpr numeric, _, rfl, (single _ _ _ rfl rfl).mpr numeric⟩

/-- A client that sends no number is not timed at all. -/
theorem upstream_timeout_soon :
    ¬Bounded defaultTimeouts (makeRemoteExecutor defaultTimeouts hotels 1700000000010
      (requestOf (.plain [("x-timeout", .one "soon")]))) := by
  intro bounded
  obtain ⟨millis, finite, _⟩ := bounded _ rfl
  cases finite

end Taql.UpstreamTimeouts
