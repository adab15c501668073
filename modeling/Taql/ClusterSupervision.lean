import Taql.Cluster

/-! How many workers there are, and what they serve. A worker only leaves when it
is told to, so an exit the primary did not ask for is replaced by a fork or ends the
cluster; every fork is given the file of the first one. -/
namespace Taql.ClusterSupervision
open Runs SchemaCache Cluster

variable {Supergraph : Type} {config : Config} {files : String → Option Supergraph}
variable {state after : State Supergraph} {event : Event Supergraph}

/-! ### Rules -/

/-- How a worker's record changes with an event. -/
inductive Evolves (config : Config) (state : State Supergraph) (event : Event Supergraph)
    (worker : Worker Supergraph) : Worker Supergraph → Prop where
  | same : Evolves config state event worker worker
  | acts (step : WorkerEvent Supergraph) (taken : ∃ index, event = .worker index step) (alive : worker.ending = none)
      (allowed : worker.allows step = true) :
      Evolves config state event worker (worker.act config (state.resolve config worker step))
  | sent (told : event = .signal) :
      Evolves config state event worker { worker with messages := worker.messages + 1 }
  | heard (announced : 0 < worker.announced) :
      Evolves config state event worker { worker with announced := worker.announced - 1 }
  | disconnected (may : worker.ending.isSome ∨ worker.leaving = true) :
      Evolves config state event worker { worker with connected := false }
  | seen (ended : worker.ending.isSome) : Evolves config state event worker { worker with exitSeen := true }

/-- What the primary forks a worker with. -/
def Given (config : Config) (state : State Supergraph) (env : Option Environment) : Prop :=
  env = some config.schemaEnv ∨ ∃ index < state.workers.length, env = state.environments index

/-- Where the workers of the next state come from. -/
structure Accounted (config : Config) (state : State Supergraph) (event : Event Supergraph)
    (workers : List (Worker Supergraph)) : Prop where
  grown : state.workers.length ≤ workers.length
  origin : ∀ (index : Nat) (worker : Worker Supergraph), workers[index]? = some worker →
    (∃ before, state.workers[index]? = some before ∧ Evolves config state event before worker) ∨
      state.workers.length ≤ index ∧ ∃ env, Given config state env ∧ worker = Worker.forked env

theorem Accounted.of_mem {workers : List (Worker Supergraph)} (accounted : Accounted config state event workers)
    {worker : Worker Supergraph} (member : worker ∈ workers) :
    (∃ before ∈ state.workers, Evolves config state event before worker) ∨
      ∃ env, Given config state env ∧ worker = Worker.forked env := by
  obtain ⟨index, held⟩ := List.getElem?_of_mem member
  rcases accounted.origin index worker held with ⟨before, there, evolves⟩ | ⟨_, new⟩
  · exact .inl ⟨before, List.mem_of_getElem? there, evolves⟩
  · exact .inr new

theorem accounted_put {index : Nat} {before worker : Worker Supergraph} (held : state.workers[index]? = some before)
    (evolves : Evolves config state event before worker) :
    Accounted config state event (state.put index worker).workers := by
  refine ⟨Nat.le_of_eq (List.length_set).symm, fun position other found => .inl ?_⟩
  rw [State.put, List.getElem?_set] at found
  split at found
  next same =>
    subst same
    split at found
    · cases found
      exact ⟨before, held, evolves⟩
    · cases found
  next => exact ⟨other, found, .same⟩

theorem accounted_fork {env : Option Environment} {workers : List (Worker Supergraph)}
    (accounted : Accounted config state event workers) (given : Given config state env) :
    Accounted config state event (workers ++ [Worker.forked env]) := by
  refine ⟨Nat.le_trans accounted.grown (by simp), fun index worker found => ?_⟩
  rw [List.getElem?_append] at found
  split at found
  next => exact accounted.origin index worker found
  next beyond =>
    refine .inr ⟨Nat.le_trans accounted.grown (Nat.le_of_not_lt beyond), env, given, ?_⟩
    exact List.mem_singleton.mp (List.mem_of_getElem? found)

theorem accounted_same : Accounted config state event state.workers :=
  ⟨Nat.le_refl _, fun _ worker found => .inl ⟨worker, found, .same⟩⟩

theorem accounted_iterate {start : State Supergraph} (same : start.workers = state.workers) (forked : Nat) :
    Accounted config state event (start.iterate config forked).workers := by
  unfold State.iterate
  split
  · exact accounted_fork (same ▸ accounted_same) (.inl rfl)
  · exact same ▸ accounted_same

theorem accounted (change : Change config state event after) :
    Accounted config state event after.workers := by
  cases change with
  | nothing | failed | shutDown => exact accounted_same
  | loaded supergraph written here wrote =>
    have same : written.workers = state.workers := by
      rcases wrote with rfl | ⟨supergraph, rfl⟩ <;> rfl
    exact accounted_iterate same 0
  | timer forked here => exact accounted_iterate rfl forked
  | signal | unheard =>
    refine ⟨Nat.le_of_eq (List.length_map _).symm, fun index worker found => .inl ?_⟩
    simp only [State.tell, List.getElem?_map] at found
    obtain ⟨before, there, rfl⟩ := Option.map_eq_some_iff.mp found
    refine ⟨before, there, ?_⟩
    unfold Worker.send
    split
    · exact .sent rfl
    · exact .same
  | worker index worker step held alive allowed => exact accounted_put held (.acts step ⟨index, rfl⟩ alive allowed)
  | listening index worker held announced => exact accounted_put held (.heard announced)
  | disconnected index worker held may => exact accounted_put held (.disconnected may)
  | seen index worker held ended unseen expected => exact accounted_put held (.seen ended)
  | stopped index worker reason held ended running calm => exact accounted_put held (.seen ended)
  | replaced index worker held ended unseen running calm successful plain =>
    refine accounted_fork (accounted_put held (.seen ended)) (.inr ⟨index, ?_, rfl⟩)
    exact (List.getElem?_eq_some_iff.mp held).1

/-! ### Workers only leave when told -/

/-- A worker that was never sent a message is not about to leave. -/
structure Untold (worker : Worker Supergraph) : Prop where
  messages : worker.messages = 0
  closing : worker.closing = false
  exitedAfterDisconnect : worker.exitedAfterDisconnect = false
  leaving : worker.leaving = false
  killed : worker.ending ≠ some .killed

theorem untold_forked (env : Option Environment) : Untold (Worker.forked env : Worker Supergraph) :=
  ⟨rfl, rfl, rfl, rfl, by simp [Worker.forked]⟩

theorem untold_act {worker : Worker Supergraph} (untold : Untold worker) (step : WorkerEvent Supergraph)
    (allowed : worker.allows step = true) : Untold (worker.act config (state.resolve config worker step)) := by
  obtain ⟨messages, closing, exitedAfterDisconnect, leaving, killed⟩ := untold
  cases step with
  | startup fetched =>
    simp only [State.resolve]
    cases state.load config worker.env fetched with
    | ok supergraph => exact ⟨messages, closing, exitedAfterDisconnect, leaving, killed⟩
    | error message => exact ⟨messages, closing, exitedAfterDisconnect, leaving, by simp [Worker.act]⟩
  | listening | request id | response id =>
    exact ⟨messages, closing, exitedAfterDisconnect, leaving, killed⟩
  | crash => exact ⟨messages, closing, exitedAfterDisconnect, leaving, by simp [State.resolve, Worker.act]⟩
  | message => simp [Worker.allows, messages] at allowed
  | closed => simp [Worker.allows, closing] at allowed
  | disconnect => simp [Worker.allows, exitedAfterDisconnect] at allowed
  | left => simp [Worker.allows, leaving] at allowed

/-- What the loop leaves alone. -/
theorem iterate_frame (state : State Supergraph) (forked : Nat) :
    (state.iterate config forked).shuttingDown = state.shuttingDown ∧
      (state.iterate config forked).sucessfulInitialization = state.sucessfulInitialization ∧
      (state.iterate config forked).files = state.files ∧
      (state.iterate config forked).handlers = state.handlers := by
  unfold State.iterate
  split <;> exact ⟨rfl, rfl, rfl, rfl⟩

/-- Only a signal makes a cluster shut down. -/
theorem shuttingDown_change (change : Change config state event after) :
    after.shuttingDown = state.shuttingDown ∨ event = .signal ∧ after.shuttingDown = true := by
  cases change with
  | signal | unheard => exact .inr ⟨rfl, rfl⟩
  | loaded supergraph written here wrote =>
    rcases wrote with rfl | ⟨supergraph, rfl⟩ <;> exact .inl (iterate_frame _ 0).1
  | timer forked here => exact .inl (iterate_frame state forked).1
  | nothing | failed | shutDown | worker | listening | disconnected | seen | stopped | replaced =>
    exact .inl rfl

theorem shuttingDown_signal (change : Change config state .signal after) :
    after.workers = state.workers ∨ after.shuttingDown = true := by
  cases change with
  | nothing | failed => exact .inl rfl
  | signal | unheard => exact .inr rfl

theorem not_shuttingDown (change : Change config state event after) (still : after.shuttingDown = false) :
    state.shuttingDown = false := by
  rcases shuttingDown_change change with same | ⟨_, told⟩
  · exact same ▸ still
  · simp [told] at still

/-- Before any signal no worker was told to leave. -/
theorem untold (events : List (Event Supergraph)) : (reached config files events).shuttingDown = false →
    ∀ worker ∈ (reached config files events).workers, Untold worker := by
  refine reached_invariant (fun _ state => state.shuttingDown = false → ∀ worker ∈ state.workers, Untold worker)
    (fun _ _ member => nomatch member) (fun past event held change still worker member => ?_) events
  have before := held (not_shuttingDown change still)
  rcases (accounted change).of_mem member with ⟨earlier, there, evolves⟩ | ⟨env, _, rfl⟩
  · cases evolves with
    | same => exact before _ there
    | acts step taken alive allowed => exact untold_act (before _ there) step allowed
    | sent told =>
      subst told
      rcases shuttingDown_signal change with same | told
      · exact before _ (same ▸ member)
      · simp [told] at still
    | heard | disconnected | seen => exact { before _ there with }
  · exact untold_forked env

/-! ### The number of workers -/

/-- The workers whose exit the primary has not seen. -/
def live (state : State Supergraph) : Nat := state.workers.countP fun worker => !worker.exitSeen

theorem countP_set {α : Type} (counts : α → Bool) {list : List α} {index : Nat} {old : α}
    (held : list[index]? = some old) (new : α) :
    (list.set index new).countP counts + (if counts old then 1 else 0) =
      list.countP counts + if counts new then 1 else 0 := by
  obtain ⟨inside, is⟩ := List.getElem?_eq_some_iff.mp held
  obtain ⟨before, rest, split, _, replaced⟩ :
      ∃ before rest, list = before ++ list[index] :: rest ∧ before.length = index ∧
        list.set index new = before ++ new :: rest := List.exists_of_set inside
  rw [replaced, split, is]
  simp only [List.countP_append, List.countP_cons]
  omega

theorem live_put {index : Nat} {before worker : Worker Supergraph} (held : state.workers[index]? = some before)
    (same : worker.exitSeen = before.exitSeen) : live (state.put index worker) = live state := by
  have counted := countP_set (fun worker : Worker Supergraph => !worker.exitSeen) held worker
  rw [same] at counted
  exact Nat.add_right_cancel counted

theorem live_seen {index : Nat} {worker : Worker Supergraph} (held : state.workers[index]? = some worker)
    (unseen : worker.exitSeen = false) :
    live (state.put index { worker with exitSeen := true }) + 1 = live state := by
  have counted := countP_set (fun worker : Worker Supergraph => !worker.exitSeen) held
    { worker with exitSeen := true }
  simpa [live, State.put, unseen] using counted

@[simp] theorem live_fork (env : Option Environment) : live (state.fork env) = live state + 1 := by
  simp [live, State.fork, Worker.forked]

theorem exitSeen_act (worker : Worker Supergraph) (step : WorkerEvent Supergraph) :
    (worker.act config step).exitSeen = worker.exitSeen := by
  cases step with
  | startup loaded => cases loaded <;> rfl
  | message | disconnect =>
    simp only [Worker.act, Worker.onMessage, Worker.gracefulShutdown]
    repeat' split
    all_goals rfl
  | listening | request | response | closed | left | crash => rfl

/-- While the loop runs, it made every fork there is. -/
structure Forked (config : Config) (state : State Supergraph) : Prop where
  loading : state.stage = .loading → state.workers = []
  forking : ∀ forked, state.stage = .forking forked →
    state.workers.length = forked ∧ forked ≤ config.clusterParallelism

theorem forked_iterate {forked : Nat} (made : state.workers.length = forked) :
    Forked config (state.iterate config forked) := by
  unfold State.iterate
  split
  next more =>
    refine ⟨nofun, fun forked' here => ?_⟩
    cases here
    exact ⟨by simp [State.fork, made], more⟩
  next => exact ⟨nofun, nofun⟩

theorem forked_of_length (before : Forked config state) (stage : after.stage = state.stage)
    (length : after.workers.length = state.workers.length) : Forked config after := by
  refine ⟨fun here => ?_, fun forked here => ?_⟩
  · rw [← List.length_eq_zero_iff, length, before.loading (stage ▸ here), List.length_nil]
  · rw [length]
    exact before.forking forked (stage ▸ here)

theorem forked_change (change : Change config state event after) (before : Forked config state) :
    Forked config after := by
  cases change with
  | nothing => exact before
  | loaded supergraph written here wrote =>
    refine forked_iterate ?_
    rcases wrote with rfl | ⟨supergraph, rfl⟩ <;> exact List.length_eq_zero_iff.mpr (before.loading here)
  | timer forked here => exact forked_iterate (before.forking forked here).1
  | signal => exact forked_of_length before rfl (List.length_map _)
  | failed | shutDown | stopped | unheard => exact ⟨nofun, nofun⟩
  | worker | listening | disconnected | seen => exact forked_of_length before rfl List.length_set
  | replaced index worker held ended unseen running calm successful plain =>
    refine ⟨fun here => ?_, fun forked here => ?_⟩
    · exact absurd (running.symm.trans here) (by simp)
    · exact absurd (running.symm.trans here) (by simp)

theorem forked_reached (events : List (Event Supergraph)) : Forked config (reached config files events) :=
  reached_invariant (fun _ => Forked config) ⟨fun _ => rfl, nofun⟩
    (fun _ _ before change => forked_change change before)
    events

theorem live_tell : live state.tell = live state := by
  unfold live State.tell
  rw [List.countP_map]
  refine List.countP_congr fun worker _ => ?_
  rw [Function.comp_apply, Worker.send]
  split <;> rfl

/-- An exit that was not asked for is made up for at once, as long as the cluster runs. -/
theorem live_change (change : Change config state event after) (running : state.stage = .running)
    (untold : ∀ worker ∈ state.workers, Untold worker) (calm : state.shuttingDown = false)
    (still : after.stage = .running) : live after = live state := by
  cases change with
  | nothing => rfl
  | failed | shutDown | stopped | unheard => cases still
  | loaded supergraph written here wrote => exact absurd (running.symm.trans here) (by simp)
  | timer forked here => exact absurd (running.symm.trans here) (by simp)
  | signal => exact live_tell
  | worker index worker step held alive allowed => exact live_put held (exitSeen_act worker _)
  | listening index worker held announced => exact live_put held rfl
  | disconnected index worker held may => exact live_put held rfl
  | seen index worker held ended unseen expected =>
    rcases expected with elsewhere | asked | told
    · exact absurd running elsewhere
    · simp [(untold worker (List.mem_of_getElem? held)).exitedAfterDisconnect] at asked
    · simp [calm] at told
  | replaced index worker held ended unseen running calm successful plain =>
    rw [live_fork]
    exact live_seen held unseen

/-- The loop ends with every fork made. -/
theorem loop_done (change : Change config state event after) (forked : Forked config state)
    (before : state.stage ≠ .running) (running : after.stage = .running) :
    after.workers = state.workers ∧ state.workers.length = config.clusterParallelism := by
  have iterated : ∀ {start : State Supergraph} {made : Nat}, start.workers = state.workers →
      state.workers.length = made → made ≤ config.clusterParallelism →
      (start.iterate config made).stage = .running →
      (start.iterate config made).workers = state.workers ∧
        state.workers.length = config.clusterParallelism := by
    intro start made same length bound stage
    unfold State.iterate at stage ⊢
    split at stage
    next => cases stage
    next done =>
      rw [if_neg done]
      exact ⟨same, by omega⟩
  cases change with
  | nothing => exact absurd running before
  | failed | shutDown | stopped | unheard => cases running
  | loaded supergraph written here wrote =>
    refine iterated ?_ ?_ (Nat.zero_le _) running
    · rcases wrote with rfl | ⟨supergraph, rfl⟩ <;> rfl
    · exact List.length_eq_zero_iff.mpr (forked.loading here)
  | timer made here => exact iterated rfl (forked.forking made here).1 (forked.forking made here).2 running
  | signal | worker | listening | disconnected | seen => exact absurd running before
  | replaced index worker held ended unseen here => exact absurd here before

theorem live_add_seen (state : State Supergraph) :
    live state + (state.workers.countP fun worker => worker.exitSeen) = state.workers.length := by
  rw [List.length_eq_countP_add_countP fun worker : Worker Supergraph => !worker.exitSeen]
  simp [live]

/-- Past its loop, a primary runs until it ends. -/
def Past (stage : Stage) : Prop := stage = .running ∨ ∃ reason, stage = .exited reason

theorem past_change (change : Change config state event after) (past : Past state.stage) :
    after.stage = state.stage ∨ ∃ reason, after.stage = .exited reason := by
  cases change with
  | failed | shutDown | stopped | unheard => exact .inr ⟨_, rfl⟩
  | loaded supergraph written here wrote => rcases past with running | ⟨reason, is⟩ <;> simp_all
  | timer forked here => rcases past with running | ⟨reason, is⟩ <;> simp_all
  | nothing | signal | worker | listening | disconnected | seen | replaced => exact .inl rfl

/-- From the moment exits are handled, there are as many workers as were not lost by
then, until the primary is told to shut down or ends. -/
theorem pool_size (past : List (Event Supergraph)) (event : Event Supergraph) (rest : List (Event Supergraph))
    (looping : (reached config files past).stage ≠ .running)
    (done : (reached config files (past ++ [event])).stage = .running)
    (calm : (reached config files (past ++ [event] ++ rest)).shuttingDown = false)
    (running : (reached config files (past ++ [event] ++ rest)).stage = .running) :
    live (reached config files (past ++ [event] ++ rest)) +
      ((reached config files past).workers.countP fun worker => worker.exitSeen) = config.clusterParallelism := by
  obtain ⟨same, length⟩ := loop_done (change_reached past event) (forked_reached past) looping done
  have first : live (reached config files (past ++ [event])) = live (reached config files past) := by
    unfold live
    rw [same]
  have kept := reached_append (past ++ [event])
    (fun _ state => Past state.stage ∧ (state.shuttingDown = false → state.stage = .running →
      live state = live (reached config files past)))
    ⟨.inl done, fun _ _ => first⟩
    (fun rest event ⟨late, held⟩ change => by
      refine ⟨?_, fun calm running => ?_⟩
      · rcases past_change change late with is | ended
        · rwa [is]
        · exact .inr ended
      · have before := not_shuttingDown change calm
        rcases past_change change late with is | ⟨reason, is⟩
        · have was := is.symm.trans running
          rw [live_change change was (untold _ before) before running]
          exact held before was
        · exact absurd (running.symm.trans is) (by simp)) rest
  rw [kept.2 calm running, live_add_seen, length]

theorem pool_size_replaced :
    live (reached ⟨1, false, .file, none⟩ (fun _ => some ()) ([.loaded (.error "")] ++ [.timer] ++
      [.worker 0 (.startup (.error "")), .worker 0 .listening, .listening 0, .worker 0 .crash, .exit 0])) +
      ((reached ⟨1, false, .file, none⟩ (fun _ => some ()) [.loaded (.error "")]).workers.countP
        fun worker => worker.exitSeen) = 1 :=
  @pool_size Unit ⟨1, false, .file, none⟩ (fun _ => some ()) [.loaded (.error "")] .timer
    [.worker 0 (.startup (.error "")), .worker 0 .listening, .listening 0, .worker 0 .crash, .exit 0]
    (fun is : Stage.forking 1 = .running => nomatch is) rfl rfl rfl

/-- Only a worker that has loaded its supergraph listens. -/
def Loaded (worker : Worker Supergraph) : Prop :=
  0 < worker.listens ∨ 0 < worker.announced → worker.supergraph.isSome

theorem loaded_act {worker : Worker Supergraph} (loaded : Loaded worker) (step : WorkerEvent Supergraph)
    (allowed : worker.allows step = true) (state : State Supergraph) :
    Loaded (worker.act config (state.resolve config worker step)) := by
  cases step with
  | startup fetched =>
    simp only [State.resolve]
    cases state.load config worker.env fetched with
    | ok supergraph => exact fun _ => rfl
    | error message => exact loaded
  | listening => exact fun _ => loaded (.inl (of_decide_eq_true allowed))
  | request | response | closed | left | crash => exact loaded
  | message | disconnect =>
    simp only [State.resolve, Worker.act, Worker.onMessage, Worker.gracefulShutdown]
    repeat' split
    all_goals exact loaded

/-- There are at most as many workers as the loop forks, or some worker has been heard. -/
structure Bounded (config : Config) (state : State Supergraph) : Prop where
  loaded : ∀ worker ∈ state.workers, Loaded worker
  successful : state.sucessfulInitialization = true → ∃ worker ∈ state.workers, worker.supergraph.isSome
  bound : state.workers.length ≤ config.clusterParallelism ∨
    config.serviceOverrides = false ∧ state.sucessfulInitialization = true

theorem loaded_change (change : Change config state event after) (before : ∀ worker ∈ state.workers, Loaded worker) :
    ∀ worker ∈ after.workers, Loaded worker := by
  intro worker member
  rcases (accounted change).of_mem member with ⟨earlier, there, evolves⟩ | ⟨env, _, rfl⟩
  · cases evolves with
    | same => exact before _ there
    | acts step taken alive allowed => exact loaded_act (before _ there) step allowed state
    | heard announced => exact fun _ => before earlier there (.inr announced)
    | sent | disconnected | seen => exact before earlier there
  · simp [Loaded, Worker.forked]

/-- A supergraph once loaded stays. -/
theorem supergraph_evolves {worker next : Worker Supergraph} (evolves : Evolves config state event worker next)
    (loaded : worker.supergraph.isSome) : next.supergraph = worker.supergraph := by
  cases evolves with
  | same | sent | heard | disconnected | seen => rfl
  | acts step taken alive allowed =>
    cases step with
    | startup fetched =>
      simp only [Worker.allows, Option.isNone_iff_eq_none] at allowed
      simp [allowed] at loaded
    | listening | request | response | closed | left | crash => rfl
    | message | disconnect =>
      simp only [State.resolve, Worker.act, Worker.onMessage, Worker.gracefulShutdown]
      repeat' split
      all_goals rfl

theorem persists (change : Change config state event after)
    (some : ∃ worker ∈ state.workers, worker.supergraph.isSome) :
    ∃ worker ∈ after.workers, worker.supergraph.isSome := by
  obtain ⟨worker, member, loaded⟩ := some
  obtain ⟨index, held⟩ := List.getElem?_of_mem member
  have inside := (List.getElem?_eq_some_iff.mp held).1
  have found := List.getElem?_eq_getElem (Nat.lt_of_lt_of_le inside (accounted change).grown)
  refine ⟨_, List.mem_of_getElem? found, ?_⟩
  rcases (accounted change).origin index _ found with ⟨before, there, evolves⟩ | ⟨beyond, _⟩
  · cases held.symm.trans there
    rwa [supergraph_evolves evolves loaded]
  · exact absurd inside (Nat.not_lt.mpr beyond)

theorem bound_iterate {start : State Supergraph} {made : Nat} (forked : Forked config (start.iterate config made))
    (before : start.workers.length ≤ config.clusterParallelism ∨
      config.serviceOverrides = false ∧ start.sucessfulInitialization = true) :
    (start.iterate config made).workers.length ≤ config.clusterParallelism ∨
      config.serviceOverrides = false ∧ (start.iterate config made).sucessfulInitialization = true := by
  rw [(iterate_frame start made).2.1]
  by_cases more : made < config.clusterParallelism
  · have here : (start.iterate config made).stage = .forking (made + 1) := by rw [State.iterate, if_pos more]; rfl
    obtain ⟨length, bound⟩ := forked.forking _ here
    exact .inl (length ▸ bound)
  · rw [State.iterate, if_neg more]
    exact before

theorem bounded_change (change : Change config state event after) (forked : Forked config after)
    (before : Bounded config state) : Bounded config after := by
  refine ⟨loaded_change change before.loaded, fun successful => persists change ?_, ?_⟩
  · cases change with
    | nothing | failed | shutDown | signal | unheard | worker | disconnected | seen | stopped | replaced =>
      exact before.successful successful
    | loaded supergraph written here wrote =>
      rw [(iterate_frame written 0).2.1] at successful
      rcases wrote with rfl | ⟨supergraph, rfl⟩ <;> exact before.successful successful
    | timer made here => exact before.successful ((iterate_frame state made).2.1 ▸ successful)
    | listening index worker held announced =>
      have member := List.mem_of_getElem? held
      exact ⟨worker, member, before.loaded worker member (.inr announced)⟩
  · cases change with
    | nothing | failed | shutDown => exact before.bound
    | loaded supergraph written here wrote =>
      refine bound_iterate forked ?_
      rcases wrote with rfl | ⟨supergraph, rfl⟩ <;> exact before.bound
    | timer made here => exact bound_iterate forked before.bound
    | signal | unheard =>
      simp only [State.tell, List.length_map]
      exact before.bound
    | worker | disconnected | seen | stopped =>
      simpa [State.put, State.saw] using before.bound
    | listening index worker held announced =>
      exact before.bound.imp (fun bound => by simpa [State.put] using bound) fun plain => ⟨plain.1, rfl⟩
    | replaced index worker held ended unseen running calm successful plain => exact .inr ⟨plain, successful⟩

theorem bounded_reached (events : List (Event Supergraph)) : Bounded config (reached config files events) :=
  reached_invariant (fun _ => Bounded config)
    ⟨List.forall_mem_nil _, fun successful => absurd successful Bool.false_ne_true, .inl (Nat.zero_le _)⟩
    (fun past event before change => bounded_change change (forked_reached (past ++ [event])) before) events

/-- Until a worker that has loaded its supergraph is heard there are no forks but
those of the loop, and with service overrides there are never any others. -/
theorem forks_bounded (events : List (Event Supergraph)) :
    (reached config files events).workers.length ≤ config.clusterParallelism ∨
      config.serviceOverrides = false ∧
        ∃ worker ∈ (reached config files events).workers, worker.supergraph.isSome := by
  have bounded : Bounded config (reached config files events) := bounded_reached events
  exact bounded.bound.imp_right fun ⟨plain, successful⟩ => ⟨plain, bounded.successful successful⟩

/-- A primary past its loop has made every fork of it. -/
theorem all_forked (events : List (Event Supergraph)) : (reached config files events).stage = .running →
    config.clusterParallelism ≤ (reached config files events).workers.length := by
  refine reached_invariant (fun _ state => state.stage = .running → config.clusterParallelism ≤ state.workers.length)
    (fun here => nomatch here) (fun past event held change running => ?_) events
  by_cases before : (reached config files past).stage = .running
  · exact Nat.le_trans (held before) (accounted change).grown
  · obtain ⟨same, length⟩ := loop_done change (forked_reached past) before running
    exact Nat.le_of_eq (by rw [same, length])

/-- With service overrides a primary that runs has the workers it forked first. -/
theorem length_of_overrides {events : List (Event Supergraph)} (enabled : config.serviceOverrides = true)
    (running : (reached config files events).stage = .running) :
    (reached config files events).workers.length = config.clusterParallelism := by
  refine Nat.le_antisymm ?_ (all_forked events running)
  exact (bounded_reached events).bound.resolve_right (by simp [enabled])

/-! ### What workers serve -/

/-- Every worker is forked with the same file, which is written before any is. -/
structure Served (config : Config) (state : State Supergraph) : Prop where
  environments : ∀ index < state.workers.length, state.environments index = some config.schemaEnv
  env : ∀ worker ∈ state.workers, worker.env = some config.schemaEnv
  supergraph : ∀ worker ∈ state.workers, ∀ supergraph, worker.supergraph = some supergraph →
    state.files config.file = some supergraph

theorem files_change (change : Change config state event after) :
    after.files = state.files ∨ state.stage = .loading := by
  cases change with
  | loaded supergraph written here wrote => exact .inr here
  | timer made here => exact .inl (iterate_frame state made).2.2.1
  | nothing | failed | shutDown | signal | unheard | worker | listening | disconnected | seen | stopped | replaced =>
    exact .inl rfl

theorem environments_fork (before : ∀ index < state.workers.length, state.environments index = some config.schemaEnv)
    {env : Option Environment} (given : env = some config.schemaEnv) :
    ∀ index < (state.fork env).workers.length, (state.fork env).environments index = some config.schemaEnv := by
  intro index inside
  simp only [State.fork, List.length_append, List.length_singleton] at inside
  simp only [State.fork, Function.update_apply]
  split
  next => exact given
  next other => exact before index (by omega)

theorem environments_iterate {start : State Supergraph}
    (before : ∀ index < start.workers.length, start.environments index = some config.schemaEnv) (made : Nat) :
    ∀ index < (start.iterate config made).workers.length,
      (start.iterate config made).environments index = some config.schemaEnv := by
  unfold State.iterate
  split
  · exact environments_fork before rfl
  · exact before

theorem environments_change (change : Change config state event after)
    (before : ∀ index < state.workers.length, state.environments index = some config.schemaEnv) :
    ∀ index < after.workers.length, after.environments index = some config.schemaEnv := by
  cases change with
  | nothing | failed | shutDown => exact before
  | loaded supergraph written here wrote =>
    refine environments_iterate ?_ 0
    rcases wrote with rfl | ⟨supergraph, rfl⟩ <;> exact before
  | timer made here => exact environments_iterate before made
  | signal | unheard | worker | listening | disconnected | seen | stopped =>
    simpa [State.tell, State.put, State.saw] using before
  | replaced index worker held ended unseen running calm successful plain =>
    refine environments_fork (by simpa [State.put, State.saw] using before) ?_
    exact before index (List.getElem?_eq_some_iff.mp held).1

/-- What a worker has loaded after a step it had already, or is in the file. -/
theorem supergraph_act {worker : Worker Supergraph} (env : worker.env = some config.schemaEnv)
    (step : WorkerEvent Supergraph) {supergraph : Supergraph}
    (loaded : (worker.act config (state.resolve config worker step)).supergraph = some supergraph) :
    worker.supergraph = some supergraph ∨ state.files config.file = some supergraph := by
  cases step with
  | startup fetched =>
    simp only [State.resolve, State.load, env, Config.schema, Config.schemaEnv] at loaded
    cases held : state.files config.file with
    | none =>
      rw [held] at loaded
      exact .inl loaded
    | some written =>
      rw [held] at loaded
      exact .inr loaded
  | listening | request | response | closed | left | crash => exact .inl loaded
  | message | disconnect =>
    simp only [State.resolve, Worker.act, Worker.onMessage, Worker.gracefulShutdown] at loaded
    repeat' split at loaded
    all_goals exact .inl loaded

theorem env_act (worker : Worker Supergraph) (step : WorkerEvent Supergraph) :
    (worker.act config step).env = worker.env := by
  cases step with
  | startup loaded => cases loaded <;> rfl
  | message | disconnect =>
    simp only [Worker.act, Worker.onMessage, Worker.gracefulShutdown]
    repeat' split
    all_goals rfl
  | listening | request | response | closed | left | crash => rfl

theorem served_change (change : Change config state event after) (forked : Forked config state)
    (before : Served config state) : Served config after := by
  refine ⟨environments_change change before.environments, fun worker member => ?_,
    fun worker member supergraph loaded => ?_⟩
  · rcases (accounted change).of_mem member with ⟨earlier, there, evolves⟩ | ⟨env, given, rfl⟩
    · have kept := before.env earlier there
      cases evolves with
      | acts step taken alive allowed => rwa [env_act]
      | same | sent | heard | disconnected | seen => exact kept
    · rcases given with rfl | ⟨index, inside, rfl⟩
      · rfl
      · exact before.environments index inside
  · rcases (accounted change).of_mem member with ⟨earlier, there, evolves⟩ | ⟨env, given, rfl⟩
    · have same := (files_change change).resolve_right fun loading => by
        rw [forked.loading loading] at there
        cases there
      have kept := before.supergraph earlier there supergraph
      rw [same]
      cases evolves with
      | acts step taken alive allowed =>
        exact (supergraph_act (before.env earlier there) step loaded).elim kept id
      | same | sent | heard | disconnected | seen => exact kept loaded
    · cases loaded

/-- Every worker that is ever forked, the replacements included, is given the one file, and
serves the supergraph that is in it, whatever else could be fetched by then. -/
theorem same_supergraph (events : List (Event Supergraph)) :
    ∀ worker ∈ (reached config files events).workers, worker.env = some config.schemaEnv ∧
      (worker.supergraph = none ∨ worker.supergraph = (reached config files events).files config.file) := by
  have served : Served config (reached config files events) :=
    reached_invariant (fun _ => Served config)
      ⟨fun _ inside => absurd inside (Nat.not_lt_zero _), List.forall_mem_nil _, List.forall_mem_nil _⟩
      (fun past event before change => served_change change (forked_reached past) before) events
  refine fun worker member => ⟨served.env worker member, ?_⟩
  cases loaded : worker.supergraph with
  | none => exact .inl rfl
  | some supergraph => exact .inr (served.supergraph worker member supergraph loaded).symm

/-- A replacement finds what the primary wrote, and not what could be fetched by then. -/
theorem same_supergraph_replaced :
    let config : Config := ⟨1, false, .gsr, none⟩
    let events : List (Event Nat) := [.loaded (.ok 7), .timer, .worker 0 (.startup (.ok 7)), .worker 0 .listening,
      .listening 0, .worker 0 .crash, .exit 0, .worker 1 (.startup (.ok 8))]
    let replacement : Worker Nat :=
      ⟨some config.schemaEnv, some 7, 1, false, [], 0, false, false, false, none, 0, true, false⟩
    replacement.env = some config.schemaEnv ∧ (replacement.supergraph = none ∨
      replacement.supergraph = (reached config (fun _ => none) events).files config.file) :=
  same_supergraph _ _ (.tail _ (.head _))

end Taql.ClusterSupervision
