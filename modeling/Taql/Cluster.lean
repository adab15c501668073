import Mathlib.Data.List.Basic
import Mathlib.Logic.Function.Basic
import Taql.Runs
import Taql.SchemaCache

/-! `packages/server/src/index.ts`: the primary forks workers, replaces those that
die and tells them to leave; a worker serves requests until it is told. Messages
between them arrive after any delay, and processes may die at any time. -/
namespace Taql.Cluster
open Runs SchemaCache

variable {Supergraph : Type}

/-- What a worker is forked with, over the environment of the primary. -/
structure Environment where
  SCHEMA_FILE : String
  SCHEMA_SOURCE : Source
  deriving DecidableEq

/-- What is used of `SERVER_PARAMS`, `ENABLE_FEATURES` and `SCHEMA`. -/
structure Config where
  clusterParallelism : Nat
  serviceOverrides : Bool
  source : Source
  schemaFile : Option String

namespace Config

variable (config : Config)

def file : String := config.schemaFile.getD "./supergraph.json"

def schemaEnv : Environment := ⟨config.file, .file⟩

/-- The source and the file a worker resolves from its environment. -/
def schema (env : Option Environment) : Source × Option String :=
  match env with
  | none => (config.source, config.schemaFile)
  | some env => (env.SCHEMA_SOURCE, some env.SCHEMA_FILE)

end Config

/-- A worker ends by its own `kill`, or in any other way. -/
inductive Ending where
  | killed
  | died
  deriving DecidableEq

/-- A worker; the last three fields are what the primary has of it. A worker that has
loaded a supergraph has its handlers installed. -/
structure Worker (Supergraph : Type) where
  env : Option Environment
  supergraph : Option Supergraph
  listens : Nat
  listening : Bool
  requests : List Nat
  messages : Nat
  closing : Bool
  exitedAfterDisconnect : Bool
  leaving : Bool
  ending : Option Ending
  announced : Nat
  connected : Bool
  exitSeen : Bool

/-- `workerStartup` is through, or fails; the server listens; a request comes, and is
answered; a shutdown message arrives; the server that a message closed is closed; the
channel is closed; the server that a closed channel closed is closed; the process dies. -/
inductive WorkerEvent (Supergraph : Type) where
  | startup (loaded : Except String Supergraph)
  | listening
  | request (id : Nat)
  | response (id : Nat)
  | message
  | closed
  | disconnect
  | left
  | crash

namespace Worker

def forked (env : Option Environment) : Worker Supergraph :=
  ⟨env, none, 0, false, [], 0, false, false, false, none, 0, true, false⟩

variable (worker : Worker Supergraph)

def allows : WorkerEvent Supergraph → Bool
  | .startup _ => worker.supergraph.isNone
  | .listening => 0 < worker.listens
  | .request _ => worker.listening
  | .response id => id ∈ worker.requests
  | .message => 0 < worker.messages
  | .closed => worker.closing && !worker.listening && worker.requests.isEmpty
  | .disconnect => worker.exitedAfterDisconnect && !worker.leaving
  | .left => worker.leaving && !worker.listening && worker.requests.isEmpty
  | .crash => true

/-- `gracefulShutdown`: a server that listens is closed, and whoever called waits for
it; one that does not is taken to be closed already. -/
def gracefulShutdown (wait proceed : Worker Supergraph → Worker Supergraph) : Worker Supergraph :=
  if worker.listening then wait { worker with listening := false } else proceed worker

/-- Before `workerStartup` has added its listener of messages there is the one of
`clusterReadiness.ts`, which takes a shutdown message and does nothing with it. -/
def onMessage : Worker Supergraph :=
  if worker.supergraph.isNone then worker
  else worker.gracefulShutdown (fun worker => { worker with closing := true })
    fun worker => { worker with exitedAfterDisconnect := true }

def act (config : Config) : WorkerEvent Supergraph → Worker Supergraph
  | .startup (.ok supergraph) =>
    { worker with supergraph := some supergraph, listens := if config.serviceOverrides then 2 else 1 }
  | .startup (.error _) => { worker with ending := some .died }
  | .listening =>
    { worker with listens := worker.listens - 1, listening := true, announced := worker.announced + 1 }
  | .request id => { worker with requests := worker.requests ++ [id] }
  | .response id => { worker with requests := worker.requests.erase id }
  | .message => ({ worker with messages := worker.messages - 1 } : Worker Supergraph).onMessage
  | .closed => { worker with closing := false, exitedAfterDisconnect := true }
  | .disconnect =>
    worker.gracefulShutdown (fun worker => { worker with leaving := true })
      fun worker => { worker with ending := some .killed }
  | .left => { worker with ending := some .killed }
  | .crash => { worker with ending := some .died }

/-- A worker stays in `cluster.workers` until it has disconnected and exited. -/
def present : Bool := worker.connected || !worker.exitSeen

/-- Whether the channel is open at both of its ends. -/
def reachable : Bool := worker.connected && worker.ending.isNone && !worker.leaving

/-- `send` of the shutdown message. -/
def send : Worker Supergraph :=
  if worker.reachable then { worker with messages := worker.messages + 1 } else worker

end Worker

inductive Reason where
  | shutDown
  | crashlooping
  | overrides
  | failed
  deriving DecidableEq

/-- Where `primaryStartup` is: before its loop; after so many of its forks, waiting for
the timer; past it, with the handler of exits installed; ended. -/
inductive Stage where
  | loading
  | forking (forked : Nat)
  | running
  | exited (reason : Reason)
  deriving DecidableEq

/-- The workers are in the order they were forked in, the one with id `index + 1` at
`index`; `handlers` has the workers whose exit each signal's handler still awaits. -/
structure State (Supergraph : Type) where
  stage : Stage
  shuttingDown : Bool
  sucessfulInitialization : Bool
  files : String → Option Supergraph
  environments : Nat → Option Environment
  workers : List (Worker Supergraph)
  handlers : List (List Nat)

/-- The primary loads a supergraph; the timer of its loop fires; it gets a signal; a
signal's handler is done; it dies; a worker takes a step; it hears that a worker
listens, has disconnected or has exited. -/
inductive Event (Supergraph : Type) where
  | loaded (supergraph : Except String Supergraph)
  | timer
  | signal
  | shutDown
  | died
  | worker (index : Nat) (event : WorkerEvent Supergraph)
  | listening (index : Nat)
  | disconnected (index : Nat)
  | exit (index : Nat)

namespace State

variable (config : Config) (state : State Supergraph)

def fork (env : Option Environment) : State Supergraph :=
  { state with
    environments := Function.update state.environments state.workers.length env
    workers := state.workers ++ [Worker.forked env] }

/-- The head of the loop, with so many forks made. -/
def iterate (forked : Nat) : State Supergraph :=
  if forked < config.clusterParallelism then
    ({ state with stage := .forking (forked + 1) } : State Supergraph).fork (some config.schemaEnv)
  else { state with stage := .running }

/-- `writeFile` of `schemaFile`. -/
def write (supergraph : Supergraph) : State Supergraph :=
  { state with files := Function.update state.files config.file (some supergraph) }

/-- A supergraph that is not read from a file is written to one first. -/
def onLoaded (supergraph : Except String Supergraph) : State Supergraph :=
  if config.source = .file then state.iterate config 0
  else
    match supergraph with
    | .error _ => { state with stage := .exited .failed }
    | .ok supergraph => (state.write config supergraph).iterate config 0

/-- `Object.values(cluster.workers)`. -/
def present : List Nat :=
  (List.range state.workers.length).filter fun index =>
    (state.workers[index]?).any Worker.present

/-- What a signal's handler does before it waits. -/
def tell : State Supergraph :=
  { state with
    shuttingDown := true
    handlers := state.handlers ++ [state.present]
    workers := state.workers.map Worker.send }

/-- A `send` that fails is an error on the worker, and nothing listens for it. -/
def onSignal : State Supergraph :=
  if state.workers.all fun worker => !worker.present || worker.reachable then state.tell
  else { state.tell with stage := .exited .failed }

/-- `loadSupergraph` in a worker, of which only the file is known. -/
def load (env : Option Environment) (fetched : Except String Supergraph) : Except String Supergraph :=
  match config.schema env with
  | (.file, none) => .error "no schema file specified"
  | (.file, some path) => (state.files path).elim (.error "ENOENT") .ok
  | _ => fetched

/-- What a worker's step gives it. -/
def resolve (worker : Worker Supergraph) : WorkerEvent Supergraph → WorkerEvent Supergraph
  | .startup fetched => .startup (state.load config worker.env fetched)
  | event => event

def put (index : Nat) (worker : Worker Supergraph) : State Supergraph :=
  { state with workers := state.workers.set index worker }

/-- The handler of exits. Ending the primary comes before its `cluster.disconnect`. -/
def onExit (index : Nat) (worker : Worker Supergraph) : State Supergraph :=
  if worker.exitedAfterDisconnect then state
  else if state.shuttingDown then state
  else if !state.sucessfulInitialization then { state with stage := .exited .crashlooping }
  else if config.serviceOverrides then { state with stage := .exited .overrides }
  else state.fork (state.environments index)

/-- The listeners on the worker itself. -/
def saw (index : Nat) (worker : Worker Supergraph) : State Supergraph :=
  { state.put index { worker with exitSeen := true } with
    handlers := state.handlers.map fun awaited => awaited.filter fun other => other ≠ index }

/-- The handler of all exits comes after those listeners, once the loop is done. -/
def exit (index : Nat) (worker : Worker Supergraph) : State Supergraph :=
  if state.stage = .running then (state.saw index worker).onExit config index worker
  else state.saw index worker

/-- A step on a worker there is, if it may take it. -/
def on (index : Nat) (may : Worker Supergraph → Bool) (step : Worker Supergraph → State Supergraph) :
    State Supergraph :=
  match state.workers[index]? with
  | none => state
  | some worker => if may worker then step worker else state

/-- An event that cannot happen is none. -/
def handle : Event Supergraph → State Supergraph
  | .loaded supergraph => if state.stage = .loading then state.onLoaded config supergraph else state
  | .timer =>
    match state.stage with
    | .forking forked => state.iterate config forked
    | _ => state
  | .signal => state.onSignal
  | .shutDown => if [] ∈ state.handlers then { state with stage := .exited .shutDown } else state
  | .died => { state with stage := .exited .failed }
  | .worker index event =>
    state.on index (fun worker => worker.ending.isNone && worker.allows event) fun worker =>
      state.put index (worker.act config (state.resolve config worker event))
  | .listening index =>
    state.on index (fun worker => 0 < worker.announced) fun worker =>
      { state.put index { worker with announced := worker.announced - 1 } with sucessfulInitialization := true }
  | .disconnected index =>
    state.on index (fun worker => worker.connected && (worker.ending.isSome || worker.leaving)) fun worker =>
      state.put index { worker with connected := false }
  | .exit index =>
    state.on index (fun worker => worker.ending.isSome && !worker.exitSeen) fun worker =>
      state.exit config index worker

/-- What workers do when the primary has ended is not followed. -/
def next (event : Event Supergraph) : State Supergraph :=
  match state.stage with
  | .exited _ => state
  | _ => state.handle config event

end State

/-! ### What an event does -/

/-- What an event does to a cluster, if anything. -/
inductive Change (config : Config) (state : State Supergraph) : Event Supergraph → State Supergraph → Prop where
  | nothing (event : Event Supergraph) : Change config state event state
  | failed (event : Event Supergraph) : Change config state event { state with stage := .exited .failed }
  | loaded (supergraph : Except String Supergraph) (written : State Supergraph) (here : state.stage = .loading)
      (wrote : written = state ∨ ∃ supergraph, written = state.write config supergraph) :
      Change config state (.loaded supergraph) (written.iterate config 0)
  | timer (forked : Nat) (here : state.stage = .forking forked) :
      Change config state .timer (state.iterate config forked)
  | signal (ongoing : ∀ reason, state.stage ≠ .exited reason) : Change config state .signal state.tell
  | unheard : Change config state .signal { state.tell with stage := .exited .failed }
  | shutDown (done : [] ∈ state.handlers) :
      Change config state .shutDown { state with stage := .exited .shutDown }
  | worker (index : Nat) (worker : Worker Supergraph) (event : WorkerEvent Supergraph)
      (held : state.workers[index]? = some worker) (alive : worker.ending = none)
      (allowed : worker.allows event = true) :
      Change config state (.worker index event)
        (state.put index (worker.act config (state.resolve config worker event)))
  | listening (index : Nat) (worker : Worker Supergraph) (held : state.workers[index]? = some worker)
      (announced : 0 < worker.announced) :
      Change config state (.listening index)
        { state.put index { worker with announced := worker.announced - 1 } with sucessfulInitialization := true }
  | disconnected (index : Nat) (worker : Worker Supergraph) (held : state.workers[index]? = some worker)
      (may : worker.ending.isSome ∨ worker.leaving = true) :
      Change config state (.disconnected index) (state.put index { worker with connected := false })
  | seen (index : Nat) (worker : Worker Supergraph) (held : state.workers[index]? = some worker)
      (ended : worker.ending.isSome) (unseen : worker.exitSeen = false)
      (expected : state.stage ≠ .running ∨ worker.exitedAfterDisconnect = true ∨ state.shuttingDown = true) :
      Change config state (.exit index) (state.saw index worker)
  | stopped (index : Nat) (worker : Worker Supergraph) (reason : Reason)
      (held : state.workers[index]? = some worker) (ended : worker.ending.isSome)
      (running : state.stage = .running) (calm : state.shuttingDown = false) :
      Change config state (.exit index) { state.saw index worker with stage := .exited reason }
  | replaced (index : Nat) (worker : Worker Supergraph) (held : state.workers[index]? = some worker)
      (ended : worker.ending.isSome) (unseen : worker.exitSeen = false) (running : state.stage = .running)
      (calm : state.shuttingDown = false) (successful : state.sucessfulInitialization = true)
      (plain : config.serviceOverrides = false) :
      Change config state (.exit index) ((state.saw index worker).fork (state.environments index))

namespace State

variable (config : Config) (state : State Supergraph)

theorem on_cases {motive : State Supergraph → Prop} {index : Nat} {may : Worker Supergraph → Bool}
    {step : Worker Supergraph → State Supergraph} (stays : motive state)
    (steps : ∀ worker, state.workers[index]? = some worker → may worker = true → motive (step worker)) :
    motive (state.on index may step) := by
  unfold on
  cases held : state.workers[index]? with
  | none => exact stays
  | some worker =>
    dsimp only
    split
    next allowed => exact steps worker held allowed
    next => exact stays

theorem onLoaded_change (here : state.stage = .loading) (supergraph : Except String Supergraph) :
    Change config state (.loaded supergraph) (state.onLoaded config supergraph) := by
  unfold onLoaded
  split
  · exact .loaded supergraph state here (.inl rfl)
  · cases supergraph with
    | error message => exact .failed _
    | ok supergraph => exact .loaded _ _ here (.inr ⟨supergraph, rfl⟩)

theorem exit_change {index : Nat} {worker : Worker Supergraph} (held : state.workers[index]? = some worker)
    (ended : worker.ending.isSome) (unseen : worker.exitSeen = false) :
    Change config state (.exit index) (state.exit config index worker) := by
  unfold exit
  split
  next running =>
    unfold onExit
    split
    next asked => exact .seen index worker held ended unseen (.inr (.inl asked))
    next =>
      split
      next told => exact .seen index worker held ended unseen (.inr (.inr told))
      next untold =>
        have calm : state.shuttingDown = false := Bool.eq_false_iff.mpr untold
        split
        next => exact .stopped index worker .crashlooping held ended running calm
        next successful =>
          split
          next => exact .stopped index worker .overrides held ended running calm
          next plain =>
            exact .replaced index worker held ended unseen running calm
              (by simpa [saw, put] using successful) (Bool.eq_false_iff.mpr plain)
  next elsewhere => exact .seen index worker held ended unseen (.inl elsewhere)

theorem handle_change (ongoing : ∀ reason, state.stage ≠ .exited reason) (event : Event Supergraph) :
    Change config state event (state.handle config event) := by
  cases event with
  | loaded supergraph =>
    simp only [handle]
    split
    next here => exact state.onLoaded_change config here supergraph
    next => exact .nothing _
  | timer =>
    simp only [handle]
    split
    next forked here => exact .timer forked here
    next => exact .nothing _
  | signal =>
    simp only [handle, onSignal]
    split
    next => exact .signal ongoing
    next => exact .unheard
  | shutDown =>
    simp only [handle]
    split
    next done => exact .shutDown done
    next => exact .nothing _
  | died => exact .failed _
  | worker index event =>
    refine state.on_cases (.nothing _) fun worker held may => ?_
    obtain ⟨alive, allowed⟩ := Bool.and_eq_true_iff.mp may
    exact .worker index worker event held (Option.isNone_iff_eq_none.mp alive) allowed
  | listening index =>
    exact state.on_cases (.nothing _) fun worker held may => .listening index worker held (of_decide_eq_true may)
  | disconnected index =>
    refine state.on_cases (.nothing _) fun worker held may => ?_
    exact .disconnected index worker held (Bool.or_eq_true_iff.mp (Bool.and_eq_true_iff.mp may).2)
  | exit index =>
    refine state.on_cases (.nothing _) fun worker held may => ?_
    obtain ⟨ended, unseen⟩ := Bool.and_eq_true_iff.mp may
    exact state.exit_change config held ended (Bool.not_eq_true' _ ▸ unseen)

theorem change (event : Event Supergraph) : Change config state event (state.next config event) := by
  cases here : state.stage with
  | exited reason =>
    have same : state.next config event = state := by rw [next, here]
    rw [same]
    exact .nothing event
  | loading | forking | running =>
    have same : state.next config event = state.handle config event := by rw [next, here]
    rw [same]
    exact state.handle_change config (by simp [here]) event

end State

/-- A cluster, from the files there are when its primary starts. -/
def cluster (config : Config) (files : String → Option Supergraph) :
    Machine (State Supergraph) (Event Supergraph) Empty where
  start := ⟨.loading, false, false, files, fun _ => none, [], []⟩
  step state event := (state.next config event, [])

/-- The cluster after a run of events. -/
def reached (config : Config) (files : String → Option Supergraph) (events : List (Event Supergraph)) :
    State Supergraph :=
  ((cluster config files).exec events).1

variable {config : Config} {files : String → Option Supergraph}

theorem reached_snoc (past : List (Event Supergraph)) (event : Event Supergraph) :
    reached config files (past ++ [event]) = (reached config files past).next config event := by
  rw [reached, Machine.exec_snoc]
  rfl

theorem change_reached (past : List (Event Supergraph)) (event : Event Supergraph) :
    Change config (reached config files past) event (reached config files (past ++ [event])) := by
  rw [reached_snoc]
  exact State.change config _ event

theorem reached_exited {past : List (Event Supergraph)} {reason : Reason}
    (exited : (reached config files past).stage = .exited reason) (event : Event Supergraph) :
    reached config files (past ++ [event]) = reached config files past := by
  rw [reached_snoc, State.next, exited]

/-- What holds after a run, and is kept by every change after it, holds ever after; it
may speak of the events after that run. -/
theorem reached_append (past : List (Event Supergraph)) (Inv : List (Event Supergraph) → State Supergraph → Prop)
    (start : Inv [] (reached config files past))
    (keeps : ∀ rest event, Inv rest (reached config files (past ++ rest)) →
      Change config (reached config files (past ++ rest)) event (reached config files (past ++ rest ++ [event])) →
      Inv (rest ++ [event]) (reached config files (past ++ rest ++ [event])))
    (rest : List (Event Supergraph)) : Inv rest (reached config files (past ++ rest)) := by
  refine (cluster config files).exec_append_invariant past Inv start (fun rest event held => ?_) rest
  have kept := keeps rest event held (change_reached (past ++ rest) event)
  rwa [reached, Machine.exec_snoc] at kept

/-- What the first state has, and every change keeps, holds after every run. -/
theorem reached_invariant (Inv : List (Event Supergraph) → State Supergraph → Prop)
    (start : Inv [] (reached config files []))
    (keeps : ∀ past event, Inv past (reached config files past) →
      Change config (reached config files past) event (reached config files (past ++ [event])) →
      Inv (past ++ [event]) (reached config files (past ++ [event])))
    (events : List (Event Supergraph)) : Inv events (reached config files events) :=
  reached_append [] Inv start keeps events

end Taql.Cluster
