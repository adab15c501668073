import Taql.ClusterShutdown

/-! Whether a shutdown can end. A signal's handler sends to every worker of
`cluster.workers`, where one stays until it is seen to have disconnected and exited; a
message that cannot be sent ends the primary. Every worker it reaches can go without
losing a request, unless the message comes before the worker has started. -/
namespace Taql.ClusterProgress
open Cluster ClusterSupervision ClusterShutdown

variable {Supergraph : Type} {config : Config} {files : String → Option Supergraph}
variable {state : State Supergraph}

/-- A worker takes steps, and does not crash. -/
inductive Goes (config : Config) (state : State Supergraph) :
    Worker Supergraph → List (WorkerEvent Supergraph) → Worker Supergraph → Prop where
  | done (worker : Worker Supergraph) : Goes config state worker [] worker
  | step {worker last : Worker Supergraph} {step : WorkerEvent Supergraph} {steps : List (WorkerEvent Supergraph)}
      (alive : worker.ending = none) (allowed : worker.allows step = true) (uncrashed : step ≠ .crash)
      (rest : Goes config state (worker.act config (state.resolve config worker step)) steps last) :
      Goes config state worker (step :: steps) last

theorem Goes.trans {first second third : Worker Supergraph} {steps steps' : List (WorkerEvent Supergraph)}
    (goes : Goes config state first steps second) (goes' : Goes config state second steps' third) :
    Goes config state first (steps ++ steps') third := by
  induction goes with
  | done worker => exact goes'
  | step alive allowed uncrashed rest ih => exact .step alive allowed uncrashed (ih goes')

/-- A worker can answer all it has accepted. -/
theorem answers (worker : Worker Supergraph) (alive : worker.ending = none) :
    Goes config state worker (worker.requests.map .response) { worker with requests := [] } := by
  cases worker with
  | mk env supergraph listens listening requests messages closing exitedAfterDisconnect leaving ending announced
      connected exitSeen =>
    dsimp only at alive ⊢
    subst alive
    induction requests with
    | nil => exact .done _
    | cons id rest ih =>
      refine .step rfl (by simp [Worker.allows]) (by simp) ?_
      simpa [State.resolve, Worker.act] using ih

/-- A worker that is sent its first message. -/
structure Told (worker : Worker Supergraph) : Prop where
  alive : worker.ending = none
  messages : worker.messages = 1
  closing : worker.closing = false
  exitedAfterDisconnect : worker.exitedAfterDisconnect = false
  leaving : worker.leaving = false

/-- Without requests, the message, the close and the disconnect come one after another. -/
theorem departs {worker : Worker Supergraph} (told : Told worker) (started : worker.supergraph.isSome)
    (idle : worker.requests = []) :
    ∃ steps last, Goes config state worker steps last ∧ last.ending.isSome ∧ last.exitSeen = worker.exitSeen := by
  obtain ⟨alive, messages, closing, exitedAfterDisconnect, leaving⟩ := told
  have message : worker.allows .message = true := by simp [Worker.allows, messages]
  have heard : worker.supergraph ≠ none := Option.isSome_iff_ne_none.mp started
  cases open' : worker.listening with
  | true =>
    refine ⟨[.message, .closed, .disconnect], _, .step alive message (by simp) (.step ?_ ?_ (by simp)
      (.step ?_ ?_ (by simp) (.done _))), ?_, ?_⟩
    all_goals simp [State.resolve, Worker.act, Worker.onMessage, Worker.gracefulShutdown, Worker.allows, heard, open',
      alive, idle, leaving]
  | false =>
    refine ⟨[.message, .disconnect], _, .step alive message (by simp) (.step ?_ ?_ (by simp) (.done _)), ?_, ?_⟩
    all_goals simp [State.resolve, Worker.act, Worker.onMessage, Worker.gracefulShutdown, Worker.allows, heard, open',
      alive, leaving]

theorem leaves {worker : Worker Supergraph} (told : Told worker) :
    ∃ steps last, Goes config state worker steps last ∧ last.ending.isSome ∧ last.exitSeen = worker.exitSeen := by
  have started : ∀ {worker : Worker Supergraph}, Told worker → worker.supergraph.isSome →
      ∃ steps last, Goes config state worker steps last ∧ last.ending.isSome ∧
        last.exitSeen = worker.exitSeen := by
    intro worker told started
    have idle : Told { worker with requests := [] } :=
      ⟨told.alive, told.messages, told.closing, told.exitedAfterDisconnect, told.leaving⟩
    obtain ⟨steps, last, goes, ended, unseen⟩ := departs idle started rfl
    exact ⟨_, last, (answers worker told.alive).trans goes, ended, unseen⟩
  cases loaded : worker.supergraph with
  | some supergraph => exact started told (by rw [loaded]; rfl)
  | none =>
    have startup : worker.allows (.startup (.error "")) = true := by simp [Worker.allows, loaded]
    cases read : state.load config worker.env (.error "") with
    | error message =>
      refine ⟨[.startup (.error "")], _, .step told.alive startup (by simp) (.done _), ?_, ?_⟩
      all_goals simp [State.resolve, read, Worker.act]
    | ok supergraph =>
      have up : Told (worker.act config (.startup (.ok supergraph))) :=
        ⟨told.alive, told.messages, told.closing, told.exitedAfterDisconnect, told.leaving⟩
      obtain ⟨steps, last, goes, ended, unseen⟩ := started up rfl
      refine ⟨.startup (.error "") :: steps, last, .step told.alive startup (by simp) ?_, ended, unseen⟩
      rw [State.resolve, read]
      exact goes

/-! ### One worker after another -/

/-- No process dies, and no signal comes. -/
def Clean : Event Supergraph → Prop
  | .signal | .died | .worker _ .crash => False
  | _ => True

theorem Goes.clean {worker last : Worker Supergraph} {steps : List (WorkerEvent Supergraph)}
    (goes : Goes config state worker steps last) (index : Nat) :
    ∀ step ∈ steps, Clean (Event.worker index step) := by
  induction goes with
  | done worker => simp
  | @step worker last step steps alive allowed uncrashed rest ih =>
    intro other member
    rcases List.mem_cons.mp member with rfl | later
    · cases other with
      | crash => exact absurd rfl uncrashed
      | startup | listening | request | response | message | closed | disconnect | left => trivial
    · exact ih other later

theorem next_worker (running : state.stage = .running) {index : Nat} {worker : Worker Supergraph}
    (held : state.workers[index]? = some worker) (alive : worker.ending = none)
    {step : WorkerEvent Supergraph} (allowed : worker.allows step = true) :
    state.next config (.worker index step) =
      state.put index (worker.act config (state.resolve config worker step)) := by
  rw [State.next, running]
  simp [State.handle, State.on, held, alive, allowed]

theorem put_put (index : Nat) (first second : Worker Supergraph) :
    (state.put index first).put index second = state.put index second := by
  simp [State.put, List.set_set]

theorem getElem?_put {index : Nat} {worker : Worker Supergraph} (held : state.workers[index]? = some worker)
    (next : Worker Supergraph) : (state.put index next).workers[index]? = some next := by
  have inside := (List.getElem?_eq_some_iff.mp held).1
  rw [State.put, List.getElem?_set, if_pos rfl, if_pos inside]

theorem put_self {index : Nat} {worker : Worker Supergraph} (held : state.workers[index]? = some worker) :
    state.put index worker = state := by
  obtain ⟨inside, rfl⟩ := List.getElem?_eq_some_iff.mp held
  rw [State.put, List.set_getElem_self]

/-- The steps of one worker change nothing else. -/
theorem goes_reached {index : Nat} {worker last : Worker Supergraph} {steps : List (WorkerEvent Supergraph)}
    (running : state.stage = .running) (inside : index < state.workers.length)
    (goes : Goes config state worker steps last) (past : List (Event Supergraph))
    (here : reached config files past = state.put index worker) :
    reached config files (past ++ steps.map (.worker index)) = state.put index last := by
  induction goes generalizing past with
  | done worker => rw [List.map_nil, List.append_nil, here]
  | @step worker last step steps alive allowed uncrashed rest ih =>
    rw [List.map_cons, List.append_cons]
    refine ih (past ++ [.worker index step]) ?_
    have held : (state.put index worker).workers[index]? = some worker :=
      getElem?_put (List.getElem?_eq_getElem inside) worker
    have running' : (state.put index worker).stage = .running := running
    rw [reached_snoc, here, next_worker running' held alive allowed, put_put]
    rfl

theorem next_exit (running : state.stage = .running) (told : state.shuttingDown = true) {index : Nat}
    {worker : Worker Supergraph} (held : state.workers[index]? = some worker) (ended : worker.ending.isSome)
    (unseen : worker.exitSeen = false) : state.next config (.exit index) = state.saw index worker := by
  rw [State.next, running]
  simp [State.handle, State.on, held, ended, unseen, State.exit, running, State.onExit, State.saw, State.put, told]

/-- An awaited worker has gone, or can. -/
def CanGo (state : State Supergraph) (index : Nat) : Prop :=
  ∃ worker, state.workers[index]? = some worker ∧ worker.exitSeen = false ∧
    (worker.ending.isSome ∨ Told worker)

/-- An awaited worker can be seen to go, and nothing changes for the others. -/
theorem one_goes {past : List (Event Supergraph)} {index : Nat} (running : (reached config files past).stage = .running)
    (told : (reached config files past).shuttingDown = true) (can : CanGo (reached config files past) index) :
    ∃ rest last, (∀ event ∈ rest, Clean event) ∧
      reached config files (past ++ rest) = (reached config files past).saw index last := by
  obtain ⟨worker, held, unseen, gone⟩ := can
  have inside := (List.getElem?_eq_some_iff.mp held).1
  have path : ∃ steps last, Goes config (reached config files past) worker steps last ∧ last.ending.isSome ∧
      last.exitSeen = worker.exitSeen := by
    rcases gone with ended | goes
    · exact ⟨[], worker, .done worker, ended, rfl⟩
    · exact leaves goes
  obtain ⟨steps, last, goes, ended, same⟩ := path
  have there := goes_reached running inside goes past (put_self held).symm
  refine ⟨steps.map (.worker index) ++ [.exit index], last, ?_, ?_⟩
  · intro event member
    rcases List.mem_append.mp member with stepped | exited
    · obtain ⟨step, taken, rfl⟩ := List.mem_map.mp stepped
      exact goes.clean index step taken
    · cases List.mem_singleton.mp exited
      trivial
  · have running' : ((reached config files past).put index last).stage = .running := running
    have told' : ((reached config files past).put index last).shuttingDown = true := told
    have held' := getElem?_put held last
    rw [← List.append_assoc, reached_snoc, there, next_exit running' told' held' ended (same.trans unseen)]
    simp [State.saw, State.put]

theorem canGo_saw {index other : Nat} {last : Worker Supergraph} (elsewhere : other ≠ index)
    (can : CanGo state other) : CanGo (state.saw index last) other := by
  obtain ⟨worker, held, rest⟩ := can
  refine ⟨worker, ?_, rest⟩
  rw [State.saw, State.put, List.getElem?_set, if_neg elsewhere.symm]
  exact held

theorem reached_shutDown {past : List (Event Supergraph)} (running : (reached config files past).stage = .running)
    (done : [] ∈ (reached config files past).handlers) :
    (reached config files (past ++ [Event.shutDown])).stage = .exited .shutDown := by
  rw [reached_snoc, State.next, running]
  simp [State.handle, done]

/-- A handler all of whose workers can go can be done. -/
theorem all_go {awaited : List Nat} (nodup : awaited.Nodup) (past : List (Event Supergraph))
    (running : (reached config files past).stage = .running)
    (told : (reached config files past).shuttingDown = true)
    (handlers : (reached config files past).handlers = [awaited])
    (can : ∀ index ∈ awaited, CanGo (reached config files past) index) :
    ∃ rest, (∀ event ∈ rest, Clean event) ∧
      (reached config files (past ++ rest)).stage = .exited .shutDown := by
  induction awaited generalizing past with
  | nil =>
    refine ⟨[.shutDown], fun event member => ?_, reached_shutDown running (by simp [handlers])⟩
    cases List.mem_singleton.mp member
    trivial
  | cons index awaited ih =>
    obtain ⟨fresh, nodup⟩ := List.nodup_cons.mp nodup
    obtain ⟨first, last, clean, there⟩ := one_goes running told (can index List.mem_cons_self)
    have others : awaited.filter (fun other => other ≠ index) = awaited :=
      List.filter_eq_self.mpr fun other member => decide_eq_true (ne_of_mem_of_not_mem member fresh)
    obtain ⟨rest, clean', ended⟩ := ih nodup (past ++ first) (by rw [there]; exact running)
      (by rw [there]; exact told)
      (by simpa [there, State.saw, handlers] using others)
      (fun other member => by
        rw [there]
        exact canGo_saw (ne_of_mem_of_not_mem member fresh) (can other (List.mem_cons_of_mem _ member)))
    refine ⟨first ++ rest, fun event member => ?_, by rw [← List.append_assoc, ended]⟩
    exact (List.mem_append.mp member).elim (clean event) (clean' event)

/-! ### The signal -/

theorem mem_present {index : Nat} : index ∈ state.present ↔
    ∃ worker, state.workers[index]? = some worker ∧ worker.present = true := by
  unfold State.present
  rw [List.mem_filter, List.mem_range]
  constructor
  · rintro ⟨inside, present⟩
    refine ⟨_, List.getElem?_eq_getElem inside, ?_⟩
    rwa [List.getElem?_eq_getElem inside] at present
  · rintro ⟨worker, held, present⟩
    exact ⟨(List.getElem?_eq_some_iff.mp held).1, by rw [held]; exact present⟩

/-- Every worker that a signal's handler sends to can be sent to. -/
def Reachable (state : State Supergraph) : Prop :=
  ∀ worker ∈ state.workers, worker.present = true → worker.reachable = true

theorem onSignal_of_reachable (reachable : Reachable state) : state.onSignal = state.tell := by
  refine if_pos (List.all_eq_true.mpr fun worker member => ?_)
  cases present : worker.present with
  | false => rfl
  | true => exact reachable worker member present

theorem onSignal_of_unreachable (unreachable : ¬ Reachable state) :
    state.onSignal = { state.tell with stage := .exited .failed } := by
  refine if_neg fun all => unreachable fun worker member present => ?_
  simpa [present] using List.all_eq_true.mp all worker member

/-- At the first signal, a worker that is sent to can go. -/
theorem canGo_tell {past : List (Event Supergraph)} (first : past.countP isSignal = 0) {index : Nat}
    {worker : Worker Supergraph} (held : (reached config files past).workers[index]? = some worker)
    (reachable : worker.reachable = true) : CanGo (reached config files past).tell index := by
  have member := List.mem_of_getElem? held
  have untold := untold past (calm_of_unsignalled past first) worker member
  have alive : worker.ending = none := by
    simp only [Worker.reachable, Bool.and_eq_true, Option.isNone_iff_eq_none] at reachable
    exact reachable.1.2
  have unseen : worker.exitSeen = false := by
    by_contra seen
    have ended := seen_ended past worker member (by simpa using seen)
    simp [alive] at ended
  refine ⟨{ worker with messages := worker.messages + 1 }, ?_, unseen, .inr ⟨alive, ?_, ?_, ?_, untold.leaving⟩⟩
  · rw [State.tell, List.getElem?_map, held, Option.map_some, Worker.send, if_pos reachable]
  · simp [untold.messages]
  · exact untold.closing
  · exact untold.exitedAfterDisconnect

/-! ### A message that comes too early -/

/-- A worker that runs, and that no message will reach. -/
structure Deaf (worker : Worker Supergraph) : Prop where
  started : worker.supergraph.isSome
  alive : worker.ending = none
  untold : Untold worker

/-- It takes a crash or another signal to end a worker that is not told. -/
theorem deaf_evolves {event : Event Supergraph} {worker next : Worker Supergraph} (clean : Clean event)
    (evolves : Evolves config state event worker next) (deaf : Deaf worker) : Deaf next := by
  have started := supergraph_evolves evolves deaf.started ▸ deaf.started
  cases evolves with
  | same => exact deaf
  | sent told =>
    subst told
    exact absurd clean id
  | heard | disconnected | seen => exact ⟨started, deaf.alive, { deaf.untold with }⟩
  | acts step taken alive allowed =>
    obtain ⟨index, rfl⟩ := taken
    refine ⟨started, ?_, untold_act deaf.untold step allowed⟩
    have untold := deaf.untold
    cases step with
    | startup fetched =>
      have loading : worker.supergraph = none := Option.isNone_iff_eq_none.mp allowed
      exact absurd deaf.started (by simp [loading])
    | listening | request | response | closed => exact alive
    | message => simp [Worker.allows, untold.messages] at allowed
    | disconnect => simp [Worker.allows, untold.exitedAfterDisconnect] at allowed
    | left => simp [Worker.allows, untold.leaving] at allowed
    | crash => exact absurd clean id

theorem deaf_reached (past : List (Event Supergraph)) {index : Nat}
    (deaf : ∃ worker, (reached config files past).workers[index]? = some worker ∧ Deaf worker)
    (rest : List (Event Supergraph)) (clean : ∀ event ∈ rest, Clean event) :
    ∃ worker, (reached config files (past ++ rest)).workers[index]? = some worker ∧ Deaf worker := by
  refine reached_append past (fun rest state => (∀ event ∈ rest, Clean event) →
    ∃ worker, state.workers[index]? = some worker ∧ Deaf worker) (fun _ => deaf)
    (fun rest event held change clean => ?_) rest clean
  obtain ⟨worker, there, deaf⟩ := held fun event member => clean event (List.mem_append_left _ member)
  have inside := (List.getElem?_eq_some_iff.mp there).1
  have found := List.getElem?_eq_getElem (Nat.lt_of_lt_of_le inside (accounted change).grown)
  refine ⟨_, found, ?_⟩
  rcases (accounted change).origin index _ found with ⟨before, held, evolves⟩ | ⟨beyond, _⟩
  · cases there.symm.trans held
    exact deaf_evolves (clean event (by simp)) evolves deaf
  · exact absurd inside (Nat.not_lt.mpr beyond)

theorem unsignalled_of_clean {rest : List (Event Supergraph)} (clean : ∀ event ∈ rest, Clean event) :
    rest.countP isSignal = 0 := by
  refine List.countP_eq_zero.mpr fun event member signal => ?_
  cases event with
  | signal => exact clean _ member
  | _ => simp [isSignal] at signal

/-- A worker that is not told is awaited as long as nothing crashes. -/
theorem awaits_deaf {past rest : List (Event Supergraph)} (running : (reached config files past).stage = .running)
    (first : past.countP isSignal = 0) (clean : ∀ event ∈ rest, Clean event) {worker : Worker Supergraph}
    (member : worker ∈ (reached config files (past ++ [Event.signal] ++ rest)).workers) (deaf : Deaf worker)
    {more : List (Event Supergraph)} (clean' : ∀ event ∈ more, Clean event) :
    (reached config files (past ++ [Event.signal] ++ rest ++ more)).stage ≠ .exited .shutDown := by
  intro ended
  obtain ⟨index, held⟩ := List.getElem?_of_mem member
  obtain ⟨last, there, deaf⟩ := deaf_reached _ ⟨worker, held, deaf⟩ more clean'
  have member := List.mem_of_getElem? there
  rw [List.append_assoc (past ++ [Event.signal])] at ended member
  have unsignalled : (rest ++ more).countP isSignal = 0 :=
    unsignalled_of_clean fun event member => (List.mem_append.mp member).elim (clean event) (clean' event)
  have seen := (closing_reached past (rest ++ more) running first unsignalled).done ended last member
  have gone := seen_ended _ last member seen
  simp [deaf.alive] at gone

/-- A shutdown can end without losing a request exactly when every worker that the
primary sends to can be sent to; otherwise the primary fails at once. It does not end
either with a worker that took its message before it had started. -/
theorem can_shut_down_iff (past : List (Event Supergraph)) (running : (reached config files past).stage = .running)
    (first : past.countP isSignal = 0) :
    ((∃ rest, (∀ event ∈ rest, Clean event) ∧
        (reached config files (past ++ [Event.signal] ++ rest)).stage = .exited .shutDown) ↔
      Reachable (reached config files past)) ∧
    (¬ Reachable (reached config files past) →
      (reached config files (past ++ [Event.signal])).stage = .exited .failed) ∧
    ∀ rest, (∀ event ∈ rest, Clean event) →
      ∀ worker ∈ (reached config files (past ++ [Event.signal] ++ rest)).workers, Deaf worker →
        ∀ more, (∀ event ∈ more, Clean event) →
          (reached config files (past ++ [Event.signal] ++ rest ++ more)).stage ≠ .exited .shutDown := by
  have there := reached_signal running
  have fails (unreachable : ¬ Reachable (reached config files past)) :
      (reached config files (past ++ [Event.signal])).stage = .exited .failed := by
    rw [there, onSignal_of_unreachable unreachable]
  refine ⟨⟨?_, fun reachable => ?_⟩, fails, fun rest clean worker member deaf more clean' => ?_⟩
  · rintro ⟨rest, -, ended⟩
    by_contra unreachable
    have stays : (reached config files (past ++ [Event.signal] ++ rest)).stage = .exited .failed :=
      reached_append (past ++ [Event.signal]) (fun _ state => state.stage = .exited .failed) (fails unreachable)
        (fun rest event failed _ => by rwa [reached_exited failed]) rest
    exact absurd (stays.symm.trans ended) (by simp)
  · rw [onSignal_of_reachable reachable] at there
    have nodup : (reached config files past).present.Nodup := List.nodup_range.filter _
    refine all_go nodup (past ++ [Event.signal]) ?_ ?_ ?_ fun index awaited => ?_
    · rw [there]
      exact running
    · rw [there]
      rfl
    · simp [there, State.tell, handlers_of_unsignalled past first]
    · obtain ⟨worker, held, present⟩ := mem_present.mp awaited
      rw [there]
      exact canGo_tell first held (reachable worker (List.mem_of_getElem? held) present)
  · exact awaits_deaf running first clean member deaf clean'

/-- Two workers, of which one has a request to answer and the other has not started. -/
theorem can_shut_down_two :
    let past : List (Event Unit) := [.loaded (.error ""), .timer, .timer, .worker 0 (.startup (.error "")),
      .worker 0 .listening, .worker 0 (.request 7)]
    let early : List (Event Unit) := [.worker 1 .message, .worker 1 (.startup (.error ""))]
    (∃ rest, (∀ event ∈ rest, Clean event) ∧
      (reached ⟨2, false, .file, none⟩ (fun _ => some ()) (past ++ [Event.signal] ++ rest)).stage =
        .exited .shutDown) ∧
    ∀ more, (∀ event ∈ more, Clean event) →
      (reached ⟨2, false, .file, none⟩ (fun _ => some ()) (past ++ [Event.signal] ++ early ++ more)).stage ≠
        .exited .shutDown := by
  intro past early
  have clean : ∀ event ∈ early, Clean event := by simp [early, Clean]
  refine ⟨(can_shut_down_iff past rfl rfl).1.mpr (by unfold Reachable; decide), ?_⟩
  exact (can_shut_down_iff past rfl rfl).2.2 early clean _ (.tail _ (.head _)) ⟨rfl, rfl, rfl, rfl, rfl, rfl, nofun⟩

end Taql.ClusterProgress
