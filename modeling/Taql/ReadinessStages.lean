import Taql.ReadinessSafety

/-! What a cluster that answers ready is ready for. `packages/readiness/src/index.ts` and
`useReadiness.ts`, with the stages that `packages/server/src`, `caching` and `prereg`
complete as a worker starts: its startup and the initialization of its plugin for
preregistered queries run side by side, and the readiness protocol goes on meanwhile. -/
namespace Taql.ReadinessStages
open JavaScript Readiness ReadinessSafety Runs

/-- What a worker waits for as it starts: `loadSupergraph`; `makeSchema`; the queries to
prewarm; `logPrewarm` of the caches; the store of the persisted queries; the answer to its
prewarming request; a port; and, for its plugin, `populateKnownQueries` and `preloadCache`. -/
inductive Await where
  | supergraph
  | schema
  | queries
  | caches
  | store
  | prewarm
  | port
  | knownQueries
  | preload
  deriving DecidableEq

/-- Where `workerStartup` is, by what it waits for; `listening` once it asked for its ports. -/
inductive Startup where
  | loading
  | stitching
  | reading
  | prewarming
  | connecting
  | fetching
  | listening
  deriving DecidableEq

/-- Where `onPluginInit` is, which nothing waits for. -/
inductive PluginInit where
  | idle
  | populating
  | preloading
  | done
  deriving DecidableEq

/-- A worker and the flags of its readiness stages. -/
structure Worker where
  startup : Startup
  pluginInit : PluginInit
  preregisteredQueriesInit : Bool
  unifiedCachesPrewarmed : Bool
  yogaPrewarmed : Bool
  serverListening : Bool
  ended : Bool

namespace Worker

def forked : Worker := ⟨.loading, .idle, false, false, false, false, false⟩

variable (worker : Worker)

/-- `workerChecks`. -/
def checks : List Bool :=
  [worker.preregisteredQueriesInit, worker.unifiedCachesPrewarmed, worker.yogaPrewarmed, worker.serverListening]

/-- What a worker waits for comes. `createYogaMiddleware`, `usePreregisteredQueries` and
`useUnifiedCaching` take their stages back before they start. -/
def resume : Await → Option Worker
  | .supergraph =>
    if worker.startup = .loading then some { worker with startup := .stitching, yogaPrewarmed := false } else none
  | .schema =>
    if worker.startup = .stitching then
      some { worker with startup := .reading, preregisteredQueriesInit := false }
    else none
  | .queries =>
    if worker.startup = .reading then
      some { worker with startup := .prewarming, unifiedCachesPrewarmed := false }
    else none
  | .caches =>
    if worker.startup = .prewarming then
      some { worker with startup := .connecting, unifiedCachesPrewarmed := true }
    else none
  | .store =>
    if worker.startup = .connecting then
      some { worker with startup := .fetching, pluginInit := .populating }
    else none
  | .prewarm =>
    if worker.startup = .fetching then some { worker with startup := .listening, yogaPrewarmed := true } else none
  | .port => if worker.startup = .listening then some { worker with serverListening := true } else none
  | .knownQueries => if worker.pluginInit = .populating then some { worker with pluginInit := .preloading } else none
  | .preload =>
    if worker.pluginInit = .preloading then
      some { worker with pluginInit := .done, preregisteredQueriesInit := true }
    else none

end Worker

/-- The primary has the stage `allWorkersForked`. -/
structure State where
  readiness : Readiness.State
  workers : Nat → Option Worker
  allWorkersForked : Bool

/-- The primary forks a worker, in its loop or in place of one that died; its loop is done;
what a worker waits for comes; a worker dies; the primary hears of that; the endpoint is
asked; a worker answers; a message is lost or arrives; a timer fires; a next tick comes; a
promise settles. -/
inductive Event where
  | fork
  | loopDone
  | resume (worker : Nat) (awaited : Await)
  | died (worker : Nat)
  | disconnect (worker : Nat)
  | get
  | answer (request : Request)
  | loseRequest (request : Request)
  | loseResponse (response : Readiness.Response)
  | message (response : Readiness.Response)
  | timeout (requestId : Nat)
  | nextTick (requestId : Nat)
  | settle (requestId : Nat)

/-- `CLUSTER_READINESS`. -/
def CLUSTER_READINESS : Options := ⟨200, false, false⟩

/-- What `useClusterReadiness` answers. -/
structure Response where
  requestId : Nat
  status : Nat
  body : String
  deriving DecidableEq

def useClusterReadiness (settlement : Settlement) : Response :=
  match settlement.outcome with
  | .ok true => ⟨settlement.requestId, 200, "<NotImplemented/>\n"⟩
  | .ok false => ⟨settlement.requestId, 500, "<NotReady/>\n"⟩
  | .error _ => ⟨settlement.requestId, 500, "<NotReady/>\n"⟩

section Steps
variable (clusterParallelism : Nat) (state : State)

/-- What an event is to the readiness protocol, if it is one. The loop forks so many
workers, and those that die are replaced once it is done. -/
def inner : Event → Option Readiness.Event
  | .fork => if state.allWorkersForked || state.readiness.forked < clusterParallelism then some .connect else none
  | .loopDone | .resume _ _ | .died _ => none
  | .disconnect worker => some (.disconnect worker)
  | .get => some .isReady
  | .answer request =>
    (state.workers request.worker).bind fun worker =>
      if worker.ended then none else some (.answer request worker.checks)
  | .loseRequest request => some (.loseRequest request)
  | .loseResponse response => some (.loseResponse response)
  | .message response => some (.message response)
  | .timeout requestId => some (.timeout requestId)
  | .nextTick requestId => some (.nextTick requestId)
  | .settle requestId => some (.settle requestId [state.allWorkersForked])

/-- What an event resumes. -/
def resumed : Event → List (Nat × Await)
  | .resume worker awaited =>
    if ((state.workers worker).bind fun known => if known.ended then none else known.resume awaited).isSome then
      [(worker, awaited)]
    else []
  | _ => []

/-- The workers after an event. -/
def workersAfter : Event → Nat → Option Worker
  | .fork =>
    if state.allWorkersForked || state.readiness.forked < clusterParallelism then
      Function.update state.workers state.readiness.forked (some .forked)
    else state.workers
  | .resume worker awaited =>
    match (state.workers worker).bind fun known => if known.ended then none else known.resume awaited with
    | some resumed => Function.update state.workers worker (some resumed)
    | none => state.workers
  | .died worker =>
    Function.update state.workers worker ((state.workers worker).map fun known => { known with ended := true })
  | _ => state.workers

/-- The stage of the primary after an event. -/
def stageAfter : Event → Bool
  | .loopDone => state.allWorkersForked || state.readiness.forked = clusterParallelism
  | _ => state.allWorkersForked

def step (event : Event) : State × List Response :=
  let answered := (inner clusterParallelism state event).elim (state.readiness, [])
    (state.readiness.next CLUSTER_READINESS)
  ({ readiness := answered.1
     workers := workersAfter clusterParallelism state event
     allWorkersForked := stageAfter clusterParallelism state event },
    answered.2.map useClusterReadiness)

end Steps

def machine (clusterParallelism : Nat) : Machine State Event Response where
  start := ⟨(Readiness.machine CLUSTER_READINESS).start, fun _ => none, false⟩
  step := step clusterParallelism

/-! ### What the protocol says of the answers -/

theorem timely_shortCircuit (call : Call) (reply : Reply) : (call.shortCircuit reply).timely = call.timely := by
  rcases shortCircuit_cases call reply with ⟨same, _⟩ | ⟨_, failure, _, same⟩
  · rw [same]
  · rw [same, done_timely]

/-- A response adds itself, unless the timer has fired. -/
theorem timely_onResponse (request : ReadinessRequest) (call : Call) (worker : Nat) (reply : Reply) :
    (onResponse request call worker reply).2.timely =
      if call.timedOut then call.timely else call.timely ++ [(worker, reply)] := by
  unfold onResponse
  dsimp only
  split
  · rw [done_timely, timely_shortCircuit]
    rfl
  · rw [timely_shortCircuit]
    rfl

theorem sent_onResponse (request : ReadinessRequest) (call : Call) (worker : Nat) (reply : Reply) :
    (onResponse request call worker reply).2.sent = call.sent := by
  unfold onResponse
  dsimp only
  split
  · rw [done_sent, (sent_shortCircuit call worker reply).1]
  · rw [(sent_shortCircuit call worker reply).1]

/-- A call that was sent as it is, and has heard nothing that was not under way. -/
def Hears (state : Readiness.State) (requestId : Nat) (call : Call) : Prop :=
  ∃ earlier, state.calls requestId = some earlier ∧ call.sent = earlier.sent ∧ ∀ worker reply,
    (worker, reply) ∈ call.timely → (worker, reply) ∈ earlier.timely ∨
      ∃ response ∈ state.toPrimary, response.worker = worker ∧ response.reply = reply

theorem hears_put {state : Readiness.State} {requestId other : Nat} {call earlier later : Call}
    (known : state.calls other = some earlier) (sent : later.sent = earlier.sent)
    (timely : ∀ worker reply, (worker, reply) ∈ later.timely → (worker, reply) ∈ earlier.timely ∨
      ∃ response ∈ state.toPrimary, response.worker = worker ∧ response.reply = reply)
    (found : Function.update state.calls other (some later) requestId = some call) : Hears state requestId call := by
  by_cases same : requestId = other
  · subst same
    rw [Function.update_self, Option.some.injEq] at found
    subst found
    exact ⟨earlier, known, sent, timely⟩
  · rw [Function.update_of_ne same] at found
    exact ⟨call, found, rfl, fun _ _ heard => .inl heard⟩

/-- A call that is there after a step was there, or was made by it. -/
theorem call_next (options : Options) (state : Readiness.State) (event : Readiness.Event) {requestId : Nat}
    {call : Call}
    (found : (state.next options event).1.calls requestId = some call) :
    Hears state requestId call ∨
      event = .isReady ∧ requestId = state.requestIdSeq ∧ call.sent = state.workers ∧ call.timely = [] := by
  have stays (found : state.calls requestId = some call) : Hears state requestId call :=
    ⟨call, found, rfl, fun _ _ heard => .inl heard⟩
  cases event with
  | connect | disconnect | loseRequest | loseResponse => exact .inl (stays found)
  | isReady =>
    by_cases same : requestId = state.requestIdSeq
    · simp only [State.next, State.put, same, Function.update_self, Option.some.injEq] at found
      subst found
      exact .inr ⟨rfl, same, rfl, rfl⟩
    · simp only [State.next, State.put, Function.update_of_ne same] at found
      exact .inl (stays found)
  | answer request checks =>
    simp only [State.next] at found
    split at found
    · exact .inl (stays found)
    · exact .inl (stays found)
  | message response =>
    rcases message_cases options state response with
      ⟨_, same⟩ | ⟨came, ⟨_, same⟩ | ⟨request, earlier, _, known, same⟩⟩ <;>
      rw [same] at found
    · exact .inl (stays found)
    · exact .inl (stays found)
    · refine .inl (hears_put known (sent_onResponse request earlier _ _) (fun worker reply heard => ?_) found)
      rw [timely_onResponse] at heard
      split at heard
      · exact .inl heard
      · rcases List.mem_append.mp heard with heard | heard
        · exact .inl heard
        · cases List.mem_singleton.mp heard
          exact .inr ⟨response, came, rfl, rfl⟩
  | timeout other =>
    rcases timeout_cases options state other with same | ⟨_, earlier, _, known, _, same⟩ <;> rw [same] at found
    · exact .inl (stays found)
    · refine .inl (hears_put known ?_ (fun worker reply heard => .inl ?_) found)
      · exact done_sent earlier _
      · exact done_timely earlier _ ▸ heard
  | nextTick other =>
    rcases nextTick_cases options state other with same | ⟨earlier, known, _, same⟩ <;> rw [same] at found
    · exact .inl (stays found)
    · refine .inl (hears_put known ?_ (fun worker reply heard => .inl ?_) found)
      · exact done_sent earlier _
      · exact done_timely earlier _ ▸ heard
  | settle other checks =>
    rcases settle_cases options state other checks with ⟨_, same⟩ | ⟨earlier, _, ⟨known, _, _⟩, same⟩ <;>
      rw [same] at found
    · exact .inl (stays found)
    · refine .inl (hears_put known ?_ (fun worker reply heard => .inl ?_) found)
      · rfl
      · exact heard

/-- A response under way was, or a worker has just given it. -/
theorem response_next (options : Options) (state : Readiness.State) (event : Readiness.Event)
    {response : Readiness.Response} (flies : response ∈ (state.next options event).1.toPrimary) :
    response ∈ state.toPrimary ∨ ∃ request checks, event = .answer request checks ∧ response =
      ⟨request.worker, request.requestId, .readiness (evaluateChecks checks options.workerDefaultReadiness)⟩ := by
  cases event with
  | connect | disconnect | isReady | loseRequest => exact .inl flies
  | answer request checks =>
    simp only [State.next] at flies
    split at flies
    · rcases List.mem_append.mp flies with flies | flies
      · exact .inl flies
      · exact .inr ⟨request, checks, rfl, List.mem_singleton.mp flies⟩
    · exact .inl flies
  | loseResponse lost => exact .inl (List.mem_of_mem_erase flies)
  | message heard =>
    rcases message_cases options state heard with ⟨_, same⟩ | ⟨_, ⟨_, same⟩ | ⟨_, _, _, _, same⟩⟩ <;> rw [same] at flies
    · exact .inl flies
    · exact .inl (List.mem_of_mem_erase flies)
    · exact .inl (List.mem_of_mem_erase flies)
  | timeout other =>
    rcases timeout_cases options state other with same | ⟨_, _, _, _, _, same⟩ <;> rw [same] at flies
    · exact .inl flies
    · exact .inl flies
  | nextTick other =>
    rcases nextTick_cases options state other with same | ⟨_, _, _, same⟩ <;> rw [same] at flies
    · exact .inl flies
    · exact .inl flies
  | settle other checks =>
    rcases settle_cases options state other checks with ⟨_, same⟩ | ⟨_, _, _, same⟩ <;> rw [same] at flies
    · exact .inl flies
    · exact .inl flies

/-- Workers are counted as they are forked. -/
theorem forked_next (options : Options) (state : Readiness.State) (event : Readiness.Event) :
    state.forked ≤ (state.next options event).1.forked := by
  cases event with
  | connect => exact Nat.le_succ _
  | disconnect | isReady | loseRequest | loseResponse => exact Nat.le_refl _
  | answer request checks =>
    simp only [State.next]
    split <;> exact Nat.le_refl _
  | message response =>
    rcases message_cases options state response with ⟨_, same⟩ | ⟨_, ⟨_, same⟩ | ⟨_, _, _, _, same⟩⟩ <;> rw [same]
    exact Nat.le_refl _
  | timeout other =>
    rcases timeout_cases options state other with same | ⟨_, _, _, _, _, same⟩ <;> rw [same]
    exact Nat.le_refl _
  | nextTick other =>
    rcases nextTick_cases options state other with same | ⟨_, _, _, same⟩ <;> rw [same]
    exact Nat.le_refl _
  | settle other checks =>
    rcases settle_cases options state other checks with ⟨_, same⟩ | ⟨_, _, _, same⟩ <;> rw [same]
    exact Nat.le_refl _

/-! ### What a worker has been through -/

/-- What has come for a worker, in its order. -/
def history (clusterParallelism : Nat) (past : List Event) (worker : Nat) : List Await :=
  ((machine clusterParallelism).trace resumed past).filterMap fun seen => if seen.1 = worker then some seen.2 else none

/-- What came before `workerStartup` is where it is. -/
def Startup.path : Startup → List Await
  | .loading => []
  | .stitching => [.supergraph]
  | .reading => [.supergraph, .schema]
  | .prewarming => [.supergraph, .schema, .queries]
  | .connecting => [.supergraph, .schema, .queries, .caches]
  | .fetching => [.supergraph, .schema, .queries, .caches, .store]
  | .listening => [.supergraph, .schema, .queries, .caches, .store, .prewarm]

def PluginInit.path : PluginInit → List Await
  | .idle => []
  | .populating => [.store]
  | .preloading => [.store, .knownQueries]
  | .done => [.store, .knownQueries, .preload]

def startupOrder : List Await := [.supergraph, .schema, .queries, .caches, .store, .prewarm, .port]

def pluginInitOrder : List Await := [.store, .knownQueries, .preload]

/-- A worker that is prepared has had everything it waits for, and in order: its supergraph,
its schema, the queries to prewarm, its caches, its store, the answer to a request and a port,
and the known queries and the preloaded ones after the store. -/
structure Prepared (history : List Await) : Prop where
  startup : startupOrder.Sublist history
  pluginInit : pluginInitOrder.Sublist history

/-- A worker is where its history has taken it. -/
structure Reached (history : List Await) (worker : Worker) : Prop where
  startup : worker.startup.path.Sublist history
  pluginInit : worker.pluginInit.path.Sublist history
  listening : worker.serverListening = true → startupOrder.Sublist history
  initialized : worker.preregisteredQueriesInit = true → pluginInitOrder.Sublist history

theorem Prepared.later {history : List Await} (prepared : Prepared history) (rest : List Await) :
    Prepared (history ++ rest) :=
  ⟨prepared.startup.trans (List.sublist_append_left _ _), prepared.pluginInit.trans (List.sublist_append_left _ _)⟩

theorem Reached.later {history : List Await} {worker : Worker} (reached : Reached history worker) (rest : List Await) :
    Reached (history ++ rest) worker where
  startup := reached.startup.trans (List.sublist_append_left _ _)
  pluginInit := reached.pluginInit.trans (List.sublist_append_left _ _)
  listening flag := (reached.listening flag).trans (List.sublist_append_left _ _)
  initialized flag := (reached.initialized flag).trans (List.sublist_append_left _ _)

/-- What comes next ends the path it is waited for on. -/
theorem path_grows {path history : List Await} (went : path.Sublist history) (awaited : Await) :
    (path ++ [awaited]).Sublist (history ++ [awaited]) := went.append (List.Sublist.refl _)

theorem Reached.resume {history : List Await} {worker later : Worker} {awaited : Await}
    (reached : Reached history worker) (resumed : worker.resume awaited = some later) :
    Reached (history ++ [awaited]) later := by
  obtain ⟨startup, pluginInit, listening, initialized⟩ := reached.later [awaited]
  cases awaited <;> simp only [Worker.resume] at resumed <;> split at resumed <;> cases resumed
  case supergraph.isTrue here =>
    have went := path_grows reached.startup .supergraph
    rw [here] at went
    exact ⟨went, pluginInit, listening, initialized⟩
  case schema.isTrue here =>
    have went := path_grows reached.startup .schema
    rw [here] at went
    exact ⟨went, pluginInit, listening, by simp⟩
  case queries.isTrue here =>
    have went := path_grows reached.startup .queries
    rw [here] at went
    exact ⟨went, pluginInit, listening, initialized⟩
  case caches.isTrue here =>
    have went := path_grows reached.startup .caches
    rw [here] at went
    exact ⟨went, pluginInit, listening, initialized⟩
  case store.isTrue here =>
    have went := path_grows reached.startup .store
    rw [here] at went
    refine ⟨went, ?_, listening, initialized⟩
    exact List.sublist_append_right history [.store]
  case prewarm.isTrue here =>
    have went := path_grows reached.startup .prewarm
    rw [here] at went
    exact ⟨went, pluginInit, listening, initialized⟩
  case port.isTrue here =>
    have went := path_grows reached.startup .port
    rw [here] at went
    exact ⟨startup, pluginInit, fun _ => went, initialized⟩
  case knownQueries.isTrue here =>
    have went := path_grows reached.pluginInit .knownQueries
    rw [here] at went
    exact ⟨startup, went, listening, initialized⟩
  case preload.isTrue here =>
    have went := path_grows reached.pluginInit .preload
    rw [here] at went
    exact ⟨startup, went, listening, fun _ => went⟩

/-- A worker whose checks all hold is prepared. -/
theorem Reached.prepared {history : List Await} {worker : Worker} (reached : Reached history worker)
    (ready : evaluateChecks worker.checks CLUSTER_READINESS.workerDefaultReadiness = true) : Prepared history := by
  have held := checks_hold ready
  refine ⟨reached.listening (held _ ?_), reached.initialized (held _ ?_)⟩
  · simp [Worker.checks]
  · simp [Worker.checks]

/-! ### Every run -/

section Runs
variable {clusterParallelism : Nat}

theorem history_snoc (past : List Event) (event : Event) (worker : Nat) :
    history clusterParallelism (past ++ [event]) worker =
      history clusterParallelism past worker ++
        (resumed ((machine clusterParallelism).exec past).1 event).filterMap fun seen =>
          if seen.1 = worker then some seen.2 else none := by
  unfold history
  rw [Machine.trace_snoc, List.filterMap_append]

/-- A call was made when the endpoint was asked, of the workers that were connected then. -/
def Asked (clusterParallelism : Nat) (past : List Event) (requestId : Nat) (call : Call) : Prop :=
  ∃ before after, past = before ++ .get :: after ∧
    ((machine clusterParallelism).exec before).1.readiness.requestIdSeq = requestId ∧
    call.sent = ((machine clusterParallelism).exec before).1.readiness.workers

/-- Whoever says yes, or said it in time, is prepared. -/
structure Holds (clusterParallelism : Nat) (past : List Event) (state : State) : Prop where
  protocol : ReadinessSafety.Holds state.readiness
  workers : ∀ worker known, state.workers worker = some known → Reached (history clusterParallelism past worker) known
  responses : ∀ response ∈ state.readiness.toPrimary, response.reply = .readiness true →
    Prepared (history clusterParallelism past response.worker)
  heard : ∀ requestId call, state.readiness.calls requestId = some call → ∀ worker,
    (worker, .readiness true) ∈ call.timely → Prepared (history clusterParallelism past worker)
  asked : ∀ requestId call, state.readiness.calls requestId = some call → Asked clusterParallelism past requestId call
  forked : state.allWorkersForked = true → clusterParallelism ≤ state.readiness.forked

theorem reached_forked (history : List Await) : Reached history .forked where
  startup := List.nil_sublist _
  pluginInit := List.nil_sublist _
  listening := by simp [Worker.forked]
  initialized := by simp [Worker.forked]

/-- Each worker is where its history takes it. -/
theorem workers_step {past : List Event} (event : Event)
    (reached : ∀ worker known, ((machine clusterParallelism).exec past).1.workers worker = some known →
      Reached (history clusterParallelism past worker) known) (worker : Nat) (known : Worker)
    (found : workersAfter clusterParallelism ((machine clusterParallelism).exec past).1 event worker = some known) :
    Reached (history clusterParallelism (past ++ [event]) worker) known := by
  rw [history_snoc]
  have stays (found : ((machine clusterParallelism).exec past).1.workers worker = some known) (rest : List Await) :
      Reached (history clusterParallelism past worker ++ rest) known := (reached worker known found).later rest
  cases event with
  | fork =>
    simp only [workersAfter] at found
    split at found
    · by_cases same : worker = ((machine clusterParallelism).exec past).1.readiness.forked
      · rw [same, Function.update_self, Option.some.injEq] at found
        subst found
        exact reached_forked _
      · rw [Function.update_of_ne same] at found
        exact stays found _
    · exact stays found _
  | resume other awaited =>
    simp only [workersAfter] at found
    simp only [resumed]
    cases resumes : (((machine clusterParallelism).exec past).1.workers other).bind fun known =>
        if known.ended then none else known.resume awaited with
    | none =>
      rw [resumes] at found
      exact stays found _
    | some later =>
      rw [resumes] at found
      by_cases same : worker = other
      · subst same
        simp only [Function.update_self, Option.some.injEq] at found
        subst found
        obtain ⟨earlier, held, resumes⟩ := Option.bind_eq_some_iff.mp resumes
        split at resumes
        · cases resumes
        · simpa using (reached worker earlier held).resume resumes
      · simp only [Function.update_of_ne same] at found
        exact stays found _
  | died other =>
    simp only [workersAfter] at found
    by_cases same : worker = other
    · subst same
      rw [Function.update_self] at found
      obtain ⟨earlier, held, rfl⟩ := Option.map_eq_some_iff.mp found
      obtain ⟨startup, pluginInit, listening, initialized⟩ := (reached worker earlier held).later
        ((resumed ((machine clusterParallelism).exec past).1 (.died worker)).filterMap fun seen =>
          if seen.1 = worker then some seen.2 else none)
      exact ⟨startup, pluginInit, listening, initialized⟩
    · rw [Function.update_of_ne same] at found
      exact stays found _
  | loopDone | disconnect | get | answer | loseRequest | loseResponse | message | timeout | nextTick | settle =>
    exact stays found _

/-- An event of the cluster is one of the protocol, or none. -/
theorem readiness_step (clusterParallelism : Nat) (state : State) (event : Event) :
    inner clusterParallelism state event = none ∧
        (step clusterParallelism state event).1.readiness = state.readiness ∨
      ∃ served, inner clusterParallelism state event = some served ∧
        (step clusterParallelism state event).1.readiness = (state.readiness.next CLUSTER_READINESS served).1 := by
  cases is : inner clusterParallelism state event with
  | none => exact .inl ⟨rfl, by simp [step, is]⟩
  | some served => exact .inr ⟨served, rfl, by simp [step, is]⟩

/-- What an event is to the protocol: a worker answers what its own checks say, the endpoint
alone asks, and the primary settles by its stage. -/
theorem inner_gives {state : State} {event : Event} {served : Readiness.Event}
    (is : inner clusterParallelism state event = some served) :
    match served with
    | .answer request checks => ∃ worker, state.workers request.worker = some worker ∧ checks = worker.checks
    | .isReady => event = .get
    | .settle _ checks => checks = [state.allWorkersForked]
    | _ => True := by
  cases event with
  | answer asked =>
    obtain ⟨worker, known, answers⟩ := Option.bind_eq_some_iff.mp is
    split at answers
    · cases answers
    · cases answers
      exact ⟨worker, known, rfl⟩
  | fork =>
    simp only [inner] at is
    split at is
    · cases is
      trivial
    · cases is
  | loopDone | resume | died => cases is
  | get | settle =>
    cases is
    rfl
  | disconnect | loseRequest | loseResponse | message | timeout | nextTick =>
    cases is
    trivial

theorem Asked.later {past : List Event} {requestId : Nat} {call later : Call}
    (asked : Asked clusterParallelism past requestId call) (sent : later.sent = call.sent) (event : Event) :
    Asked clusterParallelism (past ++ [event]) requestId later := by
  obtain ⟨before, after, rfl, made, workers⟩ := asked
  exact ⟨before, after ++ [event], by simp, made, sent.trans workers⟩

/-- The loop is done once it forked them all, and those forked are not fewer later. -/
theorem forked_step {state : State}
    (forked : state.allWorkersForked = true → clusterParallelism ≤ state.readiness.forked)
    (event : Event) (stage : (step clusterParallelism state event).1.allWorkersForked = true) :
    clusterParallelism ≤ (step clusterParallelism state event).1.readiness.forked := by
  have grows : state.readiness.forked ≤ (step clusterParallelism state event).1.readiness.forked := by
    rcases readiness_step clusterParallelism state event with ⟨_, same⟩ | ⟨served, _, same⟩
    · rw [same]
    · rw [same]
      exact forked_next _ _ served
  refine Nat.le_trans ?_ grows
  simp only [step] at stage
  cases event with
  | loopDone =>
    simp only [stageAfter, Bool.or_eq_true, decide_eq_true_eq] at stage
    rcases stage with earlier | done
    · exact forked earlier
    · exact Nat.le_of_eq done.symm
  | fork | resume | died | disconnect | get | answer | loseRequest | loseResponse | message | timeout | nextTick |
    settle => exact forked stage

theorem holds_step {past : List Event} (event : Event)
    (holds : Holds clusterParallelism past ((machine clusterParallelism).exec past).1) :
    Holds clusterParallelism (past ++ [event])
      (step clusterParallelism ((machine clusterParallelism).exec past).1 event).1 := by
  have later {worker : Nat} (prepared : Prepared (history clusterParallelism past worker)) :
      Prepared (history clusterParallelism (past ++ [event]) worker) := by
    rw [history_snoc]
    exact prepared.later _
  have workers := workers_step event holds.workers
  have counted := forked_step holds.forked event
  rcases readiness_step clusterParallelism ((machine clusterParallelism).exec past).1 event
    with ⟨_, same⟩ | ⟨served, is, same⟩
  · refine ⟨same ▸ holds.protocol, workers, ?_, ?_, ?_, counted⟩ <;> rw [same]
    · exact fun response flies yes => later (holds.responses response flies yes)
    · exact fun requestId call found worker heard => later (holds.heard requestId call found worker heard)
    · exact fun requestId call found => (holds.asked requestId call found).later rfl event
  · refine ⟨same ▸ ReadinessSafety.holds_step CLUSTER_READINESS holds.protocol served, workers, ?_, ?_, ?_, counted⟩ <;>
      rw [same]
    · intro response flies yes
      rcases response_next _ _ served flies with flew | ⟨request, checks, rfl, rfl⟩
      · exact later (holds.responses response flew yes)
      · obtain ⟨worker, known, rfl⟩ := inner_gives is
        exact later ((holds.workers _ worker known).prepared (Reply.readiness.inj yes))
    · intro requestId call found worker heard
      rcases call_next _ _ served found with ⟨earlier, known, _, timely⟩ | ⟨_, _, _, silent⟩
      · rcases timely worker _ heard with said | ⟨response, flew, rfl, yes⟩
        · exact later (holds.heard requestId earlier known worker said)
        · exact later (holds.responses response flew yes)
      · rw [silent] at heard
        cases heard
    · intro requestId call found
      rcases call_next _ _ served found with ⟨earlier, known, sent, _⟩ | ⟨rfl, made, sent, _⟩
      · exact (holds.asked requestId earlier known).later sent event
      · have asked : event = .get := inner_gives is
        subst asked
        exact ⟨past, [], rfl, made.symm, sent⟩

theorem holds_exec (events : List Event) :
    Holds clusterParallelism events ((machine clusterParallelism).exec events).1 := by
  refine (machine clusterParallelism).exec_invariant (Holds clusterParallelism) ?_
    (fun _ event => holds_step event) events
  refine ⟨ReadinessSafety.holds_start CLUSTER_READINESS, ?_, ?_, ?_, ?_, ?_⟩
  · simp [machine]
  · simp [machine, Readiness.machine]
  · simp [machine, Readiness.machine]
  · simp [machine, Readiness.machine]
  · simp [machine]

end Runs

/-- The endpoint answers ready only when the primary has forked all its workers, and every
worker that was connected when it was asked, of which there is one, is prepared. -/
theorem ready_prepared (clusterParallelism : Nat) {past : List Event} {event : Event} {response : Response}
    (given : response ∈ ((machine clusterParallelism).step ((machine clusterParallelism).exec past).1 event).2)
    (ready : response.status = 200) :
    clusterParallelism ≤ ((machine clusterParallelism).exec past).1.readiness.forked ∧
      ∃ before after, past = before ++ .get :: after ∧
        ((machine clusterParallelism).exec before).1.readiness.requestIdSeq = response.requestId ∧
        ((machine clusterParallelism).exec before).1.readiness.workers ≠ [] ∧
        ∀ worker ∈ ((machine clusterParallelism).exec before).1.readiness.workers,
          Prepared (history clusterParallelism past worker) := by
  have holds : Holds clusterParallelism past _ := holds_exec past
  obtain ⟨⟨requestId, outcome⟩, settles, rfl⟩ := List.mem_map.mp given
  cases is : inner clusterParallelism ((machine clusterParallelism).exec past).1 event with
  | none => simp [is] at settles
  | some served =>
    simp only [is, Option.elim_some] at settles
    have yes : outcome = .ok true := by
      match outcome with
      | .ok true => rfl
      | .ok false | .error _ => simp [useClusterReadiness] at ready
    subst yes
    obtain ⟨checks, call, rfl, known, settled, held⟩ := settles_true settles
    have stage : ((machine clusterParallelism).exec past).1.allWorkersForked = true := by
      apply held
      rw [inner_gives is]
      exact List.mem_singleton_self _
    obtain ⟨connected, answered⟩ := (holds.protocol.calls requestId call known).1.sure settled
    obtain ⟨before, after, split, made, sent⟩ := holds.asked requestId call known
    refine ⟨holds.forked stage, before, after, split, made, sent ▸ connected, fun worker member => ?_⟩
    exact holds.heard requestId call known worker (answered worker (sent ▸ member))

/-- The endpoint is asked while a worker starts, and once more when it is done. -/
def startup : List Event :=
  [.fork, .loopDone, .resume 0 .supergraph, .resume 0 .schema, .get, .answer ⟨0, 0⟩, .resume 0 .queries,
    .resume 0 .caches, .resume 0 .store, .resume 0 .knownQueries, .resume 0 .prewarm, .resume 0 .preload,
    .resume 0 .port, .get, .answer ⟨0, 1⟩, .message ⟨0, 1, .readiness true⟩]

theorem ready_prepared_startup :
    ⟨1, 200, "<NotImplemented/>\n"⟩ ∈ ((machine 1).step ((machine 1).exec startup).1 (.settle 1)).2 ∧
      ∃ before after, startup = before ++ .get :: after ∧
        ((machine 1).exec before).1.readiness.requestIdSeq = 1 ∧
        ((machine 1).exec before).1.readiness.workers ≠ [] ∧
        ∀ worker ∈ ((machine 1).exec before).1.readiness.workers, Prepared (history 1 startup worker) := by
  have given : ⟨1, 200, "<NotImplemented/>\n"⟩ ∈ ((machine 1).step ((machine 1).exec startup).1 (.settle 1)).2 :=
    .head _
  exact ⟨given, (ready_prepared 1 given rfl).2⟩

/-- A worker forked after the endpoint was asked need not be: of two, the second has only been
forked when the answer is given. -/
example :
    ((machine 2).step ((machine 2).exec (startup ++ [.fork, .loopDone])).1 (.settle 1)).2 =
        [⟨1, 200, "<NotImplemented/>\n"⟩] ∧
      history 2 (startup ++ [.fork, .loopDone]) 1 = [] :=
  ⟨rfl, rfl⟩

end Taql.ReadinessStages
