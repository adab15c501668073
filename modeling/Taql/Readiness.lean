import Mathlib.Data.List.Perm.Subperm
import Mathlib.Logic.Function.Basic
import Taql.JavaScript
import Taql.Runs

/-! `packages/readiness/src/clusterReadiness.ts`: the primary asks every worker
whether it is ready, and matches the replies by request id. Messages either way
are delivered in any order, if at all, and workers come and go. -/
namespace Taql.Readiness
open JavaScript Runs

/-- The options of a `ClusterReadiness`. -/
structure Options where
  maxWaitMs : Nat
  workerDefaultReadiness : Bool
  primaryDefaultReadiness : Bool

/-- What a worker answers, or why it cannot. -/
inductive Reply where
  | readiness (value : Bool)
  | error (message : String)
  deriving DecidableEq

/-- A request on its way to a worker. -/
structure Request where
  worker : Nat
  requestId : Nat
  deriving DecidableEq

/-- A response on its way back. -/
structure Response where
  worker : Nat
  requestId : Nat
  reply : Reply
  deriving DecidableEq

/-- An entry of `requests`; `errorTimeout` says whether the timer is set. -/
structure ReadinessRequest where
  responses : List Bool
  pending : Int
  errorTimeout : Bool

/-- A call of `isReady`: whether its next tick is due, what `done` was given
first, and whether the promise it returned has settled. No step reads the rest:
the workers it was sent to, the responses that came, and those that came before
the timer fired. -/
structure Call where
  ticking : Bool
  settled : Option (Except JsError Bool)
  finished : Bool
  sent : List Nat
  answered : List (Nat × Reply)
  timedOut : Bool
  timely : List (Nat × Reply)

structure State where
  requestIdSeq : Nat
  requests : Nat → Option ReadinessRequest
  calls : Nat → Option Call
  forked : Nat
  workers : List Nat
  toWorkers : List Request
  toPrimary : List Response

/-- How the promise of a call settles. -/
structure Settlement where
  requestId : Nat
  outcome : Except JsError Bool

/-- A worker connects or disconnects; `isReady` is called; a worker answers by its
checks; a message is lost; a response arrives; a timer fires; a next tick comes;
the callback of a promise runs, with what the primary's checks say then. -/
inductive Event where
  | connect
  | disconnect (worker : Nat)
  | isReady
  | answer (request : Request) (checks : List Bool)
  | loseRequest (request : Request)
  | loseResponse (response : Response)
  | message (response : Response)
  | timeout (requestId : Nat)
  | nextTick (requestId : Nat)
  | settle (requestId : Nat) (checks : List Bool)

def evaluateChecks (checks : List Bool) (default : Bool) : Bool :=
  if 0 < checks.length then checks.all id else default

/-- `done`, of which only the first call counts. -/
def Call.done (call : Call) (outcome : Except JsError Bool) : Call :=
  if call.settled.isSome then call else { call with settled := some outcome }

def Call.hear (call : Call) (worker : Nat) (reply : Reply) : Call :=
  { call with
    answered := call.answered ++ [(worker, reply)]
    timely := if call.timedOut then call.timely else call.timely ++ [(worker, reply)] }

/-- What a response is recorded as. -/
def Reply.positive : Reply → Bool
  | .readiness value => value
  | .error _ => false

/-- A response that says no, or that there is none, settles the call at once. -/
def Call.shortCircuit (call : Call) : Reply → Call
  | .error message => call.done (.error ⟨"Error", message⟩)
  | .readiness true => call
  | .readiness false => call.done (.ok false)

/-- The handler of a response whose request is found: the entry, unless it is
deleted, and the call. -/
def onResponse (request : ReadinessRequest) (call : Call) (worker : Nat) (reply : Reply) :
    Option ReadinessRequest × Call :=
  let responses := request.responses ++ [reply.positive]
  let pending := request.pending - 1
  let call := (call.hear worker reply).shortCircuit reply
  if pending = 0 then (none, call.done (.ok (responses.all id)))
  else (some { request with responses := responses, pending := pending }, call)

def timedOutAfter (options : Options) : JsError :=
  ⟨"Error", "Cluster readiness timed out after " ++ toString options.maxWaitMs ++ "ms"⟩

/-- The entry and the call `isReady` makes; without a connected worker, the timer
is cleared and the call is done on the next tick. -/
def started (workers : List Nat) : ReadinessRequest × Call :=
  (⟨[], workers.length, workers ≠ []⟩, ⟨workers = [], none, false, workers, [], false, []⟩)

/-- The callback of `then`. -/
def concluded (options : Options) (checks : List Bool) : Except JsError Bool → Except JsError Bool
  | .ok workerReadiness => .ok (workerReadiness && evaluateChecks checks options.primaryDefaultReadiness)
  | .error error => .error error

def State.put (state : State) (requestId : Nat) (request : Option ReadinessRequest) (call : Call) : State :=
  { state with
    requests := Function.update state.requests requestId request
    calls := Function.update state.calls requestId (some call) }

/-- An event; one without its message, timer, tick or promise is none. -/
def State.next (options : Options) (state : State) : Event → State × List Settlement
  | .connect => ({ state with workers := state.workers ++ [state.forked], forked := state.forked + 1 }, [])
  | .disconnect worker => ({ state with workers := state.workers.erase worker }, [])
  | .isReady =>
    let requestId := state.requestIdSeq
    let start := started state.workers
    ({ state.put requestId (some start.1) start.2 with
        requestIdSeq := requestId + 1
        toWorkers := state.toWorkers ++ state.workers.map fun worker => ⟨worker, requestId⟩ }, [])
  | .answer request checks =>
    if request ∈ state.toWorkers then
      let readiness := evaluateChecks checks options.workerDefaultReadiness
      ({ state with
          toWorkers := state.toWorkers.erase request
          toPrimary := state.toPrimary ++ [⟨request.worker, request.requestId, .readiness readiness⟩] }, [])
    else (state, [])
  | .loseRequest request => ({ state with toWorkers := state.toWorkers.erase request }, [])
  | .loseResponse response => ({ state with toPrimary := state.toPrimary.erase response }, [])
  | .message response =>
    if response ∈ state.toPrimary then
      let heard := { state with toPrimary := state.toPrimary.erase response }
      match state.requests response.requestId, state.calls response.requestId with
      | some request, some call =>
        let handled := onResponse request call response.worker response.reply
        (heard.put response.requestId handled.1 handled.2, [])
      | _, _ => (heard, [])
    else (state, [])
  | .timeout requestId =>
    match state.requests requestId, state.calls requestId with
    | some request, some call =>
      if request.errorTimeout then
        (state.put requestId (some { request with errorTimeout := false })
          { call.done (.error (timedOutAfter options)) with timedOut := true }, [])
      else (state, [])
    | _, _ => (state, [])
  | .nextTick requestId =>
    match state.calls requestId with
    | some call =>
      if call.ticking then
        (state.put requestId (state.requests requestId) { call.done (.ok false) with ticking := false }, [])
      else (state, [])
    | none => (state, [])
  | .settle requestId checks =>
    match state.calls requestId with
    | some call =>
      match call.settled with
      | some outcome =>
        if call.finished then (state, [])
        else
          (state.put requestId (state.requests requestId) { call with finished := true },
            [⟨requestId, concluded options checks outcome⟩])
      | none => (state, [])
    | none => (state, [])

def machine (options : Options) : Machine State Event Settlement where
  start := ⟨0, fun _ => none, fun _ => none, 0, [], [], []⟩
  step state event := state.next options event

/-! ### What a step does -/

section Cases
variable (options : Options) (state : State)

/-- A response is taken off its way, and handled when its request is found. -/
theorem message_cases (response : Response) :
    response ∉ state.toPrimary ∧ state.next options (.message response) = (state, []) ∨
      response ∈ state.toPrimary ∧
        ((¬∃ request call, state.requests response.requestId = some request ∧
            state.calls response.requestId = some call) ∧
          state.next options (.message response) =
            ({ state with toPrimary := state.toPrimary.erase response }, []) ∨
        ∃ request call, state.requests response.requestId = some request ∧
          state.calls response.requestId = some call ∧
          state.next options (.message response) =
            (({ state with toPrimary := state.toPrimary.erase response }).put response.requestId
              (onResponse request call response.worker response.reply).1
              (onResponse request call response.worker response.reply).2, [])) := by
  by_cases came : response ∈ state.toPrimary
  · refine .inr ⟨came, ?_⟩
    cases entry : state.requests response.requestId with
    | none => exact .inl ⟨fun ⟨_, _, is, _⟩ => (by cases is), by simp [State.next, came, entry]⟩
    | some request =>
      cases known : state.calls response.requestId with
      | none => exact .inl ⟨fun ⟨_, _, _, is⟩ => (by cases is), by simp [State.next, came, entry, known]⟩
      | some call => exact .inr ⟨request, call, rfl, rfl, by simp [State.next, came, entry, known]⟩
  · exact .inl ⟨came, by simp [State.next, came]⟩

/-- The timer of an entry that has one fires, or nothing happens. -/
theorem timeout_cases (requestId : Nat) :
    state.next options (.timeout requestId) = (state, []) ∨
      ∃ request call, state.requests requestId = some request ∧ state.calls requestId = some call ∧
        request.errorTimeout = true ∧ state.next options (.timeout requestId) =
          (state.put requestId (some { request with errorTimeout := false })
            { call.done (.error (timedOutAfter options)) with timedOut := true }, []) := by
  cases entry : state.requests requestId with
  | none => exact .inl (by simp [State.next, entry])
  | some request =>
    cases known : state.calls requestId with
    | none => exact .inl (by simp [State.next, entry, known])
    | some call =>
      cases timer : request.errorTimeout with
      | false => exact .inl (by simp [State.next, entry, known, timer])
      | true => exact .inr ⟨request, call, rfl, rfl, timer, by simp [State.next, entry, known, timer]⟩

/-- The next tick of a call that waits for one comes, or nothing happens. -/
theorem nextTick_cases (requestId : Nat) :
    state.next options (.nextTick requestId) = (state, []) ∨
      ∃ call, state.calls requestId = some call ∧ call.ticking = true ∧
        state.next options (.nextTick requestId) =
          (state.put requestId (state.requests requestId) { call.done (.ok false) with ticking := false }, []) := by
  cases known : state.calls requestId with
  | none => exact .inl (by simp [State.next, known])
  | some call =>
    cases ticking : call.ticking with
    | false => exact .inl (by simp [State.next, known, ticking])
    | true => exact .inr ⟨call, rfl, ticking, by simp [State.next, known, ticking]⟩

/-- The promise of a call is about to settle with an outcome. -/
def State.Settles (state : State) (requestId : Nat) (call : Call) (outcome : Except JsError Bool) : Prop :=
  state.calls requestId = some call ∧ call.settled = some outcome ∧ call.finished = false

/-- The promise of a call settles, or nothing happens. -/
theorem settle_cases (requestId : Nat) (checks : List Bool) :
    (¬∃ call outcome, state.Settles requestId call outcome) ∧
        state.next options (.settle requestId checks) = (state, []) ∨
      ∃ call outcome, state.Settles requestId call outcome ∧ state.next options (.settle requestId checks) =
        (state.put requestId (state.requests requestId) { call with finished := true },
          [⟨requestId, concluded options checks outcome⟩]) := by
  cases known : state.calls requestId with
  | none =>
    refine .inl ⟨?_, by simp [State.next, known]⟩
    rintro ⟨_, _, is, _⟩
    cases known.symm.trans is
  | some call =>
    cases settled : call.settled with
    | none =>
      refine .inl ⟨?_, by simp [State.next, known, settled]⟩
      rintro ⟨_, _, is, done, _⟩
      cases known.symm.trans is
      cases settled.symm.trans done
    | some outcome =>
      cases finished : call.finished with
      | true =>
        refine .inl ⟨?_, by simp [State.next, known, settled, finished]⟩
        rintro ⟨_, _, is, _, pending⟩
        cases known.symm.trans is
        cases finished.symm.trans pending
      | false =>
        exact .inr ⟨call, outcome, ⟨known, settled, finished⟩, by simp [State.next, known, settled, finished]⟩

end Cases

end Taql.Readiness
