import Taql.ClusterSupervision

/-! What a shutdown loses. A worker that is told once to leave closes its server,
answers what it has accepted and only then goes; a primary that was told once goes
when every worker is seen to have gone. -/
namespace Taql.ClusterShutdown
open Cluster ClusterSupervision

variable {Supergraph : Type} {config : Config} {files : String → Option Supergraph}
variable {state after : State Supergraph} {event : Event Supergraph}

def isSignal : Event Supergraph → Bool
  | .signal => true
  | _ => false

/-- Where a worker is that is told at most once to leave. -/
inductive Drains (worker : Worker Supergraph) : Prop where
  | serving (messages : worker.messages ≤ 1) (closing : worker.closing = false)
      (exitedAfterDisconnect : worker.exitedAfterDisconnect = false) (leaving : worker.leaving = false)
      (ending : worker.ending ≠ some .killed) (idle : worker.listening = false → worker.requests = [])
  | closing (messages : worker.messages = 0) (closing : worker.closing = true)
      (exitedAfterDisconnect : worker.exitedAfterDisconnect = false) (leaving : worker.leaving = false)
      (ending : worker.ending ≠ some .killed)
  | disconnecting (messages : worker.messages = 0) (closing : worker.closing = false)
      (leaving : worker.leaving = false) (ending : worker.ending ≠ some .killed)
      (idle : worker.listening = false → worker.requests = [])
  | leaving (messages : worker.messages = 0) (closing : worker.closing = false)
      (leaving : worker.leaving = true) (ending : worker.ending ≠ some .killed)
  | gone (messages : worker.messages = 0) (ending : worker.ending = some .killed) (answered : worker.requests = [])

theorem drains_forked (env : Option Environment) : Drains (Worker.forked env : Worker Supergraph) :=
  .serving (Nat.zero_le 1) rfl rfl rfl (by simp [Worker.forked]) fun _ => rfl

/-- A message comes too early, or finds the server open, and closes it, or finds nothing
to answer. -/
theorem drains_message {worker : Worker Supergraph} (drains : Drains worker) (alive : worker.ending = none)
    (sent : 0 < worker.messages) : Drains (worker.act config .message) := by
  cases drains with
  | serving messages closing exitedAfterDisconnect leaving ending idle =>
    have last : worker.messages - 1 = 0 := by omega
    simp only [Worker.act, Worker.onMessage]
    split
    next early => exact .serving (by simp [last]) closing exitedAfterDisconnect leaving ending idle
    next started =>
      unfold Worker.gracefulShutdown
      split
      next => exact .closing last rfl exitedAfterDisconnect leaving ending
      next shut => exact .disconnecting last closing leaving ending fun _ => idle (Bool.eq_false_iff.mpr shut)
  | closing messages | disconnecting messages | leaving messages => omega
  | gone messages ending => simp [alive] at ending

/-- The channel closes with the server open, which is closed then, or with nothing to
answer. -/
theorem drains_disconnect {worker : Worker Supergraph} (drains : Drains worker) (alive : worker.ending = none)
    (disconnected : worker.exitedAfterDisconnect = true) (first : worker.leaving = false) :
    Drains (worker.act config .disconnect) := by
  cases drains with
  | serving messages closing exitedAfterDisconnect => simp [disconnected] at exitedAfterDisconnect
  | closing messages closing exitedAfterDisconnect => simp [disconnected] at exitedAfterDisconnect
  | disconnecting messages closing leaving ending idle =>
    simp only [Worker.act, Worker.gracefulShutdown]
    split
    next => exact .leaving messages closing rfl ending
    next shut => exact .gone messages rfl (idle (Bool.eq_false_iff.mpr shut))
  | leaving messages closing leaving => simp [first] at leaving
  | gone messages ending => simp [alive] at ending

/-- A step that leaves the shutdown where it is, and accepts nothing once the server is
closed. -/
theorem drains_same {worker next : Worker Supergraph} (drains : Drains worker) (alive : worker.ending = none)
    (messages : next.messages = worker.messages) (closing : next.closing = worker.closing)
    (exitedAfterDisconnect : next.exitedAfterDisconnect = worker.exitedAfterDisconnect)
    (leaving : next.leaving = worker.leaving) (ending : next.ending ≠ some .killed)
    (idle : (worker.listening = false → worker.requests = []) → next.listening = false → next.requests = []) :
    Drains next := by
  cases drains with
  | serving messages' closing' exitedAfterDisconnect' leaving' ending' idle' =>
    exact .serving (messages ▸ messages') (closing ▸ closing') (exitedAfterDisconnect ▸ exitedAfterDisconnect')
      (leaving ▸ leaving') ending (idle idle')
  | closing messages' closing' exitedAfterDisconnect' leaving' =>
    exact .closing (messages ▸ messages') (closing ▸ closing') (exitedAfterDisconnect ▸ exitedAfterDisconnect')
      (leaving ▸ leaving') ending
  | disconnecting messages' closing' leaving' ending' idle' =>
    exact .disconnecting (messages ▸ messages') (closing ▸ closing') (leaving ▸ leaving') ending (idle idle')
  | leaving messages' closing' leaving' =>
    exact .leaving (messages ▸ messages') (closing ▸ closing') (leaving ▸ leaving') ending
  | gone messages' ending' => simp [alive] at ending'

theorem drains_act {worker : Worker Supergraph} (drains : Drains worker) (alive : worker.ending = none)
    (step : WorkerEvent Supergraph) (allowed : worker.allows step = true) :
    Drains (worker.act config (state.resolve config worker step)) := by
  cases step with
  | startup fetched =>
    simp only [State.resolve]
    cases state.load config worker.env fetched with
    | ok supergraph => exact drains_same drains alive rfl rfl rfl rfl (by simp [Worker.act, alive]) id
    | error message => exact drains_same drains alive rfl rfl rfl rfl (by simp [Worker.act]) id
  | listening =>
    exact drains_same drains alive rfl rfl rfl rfl (by simp [State.resolve, Worker.act, alive])
      fun _ shut => absurd shut (by simp [State.resolve, Worker.act])
  | request id =>
    refine drains_same drains alive rfl rfl rfl rfl (by simp [State.resolve, Worker.act, alive]) fun _ shut => ?_
    simp only [Worker.allows] at allowed
    exact absurd allowed (Bool.eq_false_iff.mp shut)
  | response id =>
    refine drains_same drains alive rfl rfl rfl rfl (by simp [State.resolve, Worker.act, alive]) fun idle shut => ?_
    simp only [State.resolve, Worker.act] at shut ⊢
    rw [idle shut, List.erase_nil]
  | message => exact drains_message drains alive (of_decide_eq_true allowed)
  | closed =>
    simp only [Worker.allows, Bool.and_eq_true, Bool.not_eq_true', List.isEmpty_iff] at allowed
    cases drains with
    | serving messages closing => simp [allowed.1.1] at closing
    | closing messages closing exitedAfterDisconnect leaving ending =>
      exact .disconnecting messages rfl leaving ending fun _ => allowed.2
    | disconnecting messages closing => simp [allowed.1.1] at closing
    | leaving messages closing => simp [allowed.1.1] at closing
    | gone messages ending => simp [alive] at ending
  | disconnect =>
    obtain ⟨disconnected, first⟩ := Bool.and_eq_true_iff.mp allowed
    exact drains_disconnect drains alive disconnected (Bool.not_eq_true' _ ▸ first)
  | left =>
    simp only [Worker.allows, Bool.and_eq_true, Bool.not_eq_true', List.isEmpty_iff] at allowed
    cases drains with
    | serving messages closing exitedAfterDisconnect leaving => simp [allowed.1.1] at leaving
    | closing messages closing exitedAfterDisconnect leaving => simp [allowed.1.1] at leaving
    | disconnecting messages closing leaving => simp [allowed.1.1] at leaving
    | leaving messages => exact .gone messages rfl allowed.2
    | gone messages ending => simp [alive] at ending
  | crash => exact drains_same drains alive rfl rfl rfl rfl (by simp [State.resolve, Worker.act]) id

/-- A message to a worker that was never told, the first. -/
theorem drains_told {worker : Worker Supergraph} (drains : Drains worker) (untold : Untold worker) :
    Drains { worker with messages := worker.messages + 1 } := by
  cases drains with
  | serving messages closing exitedAfterDisconnect leaving ending idle =>
    exact .serving (by simp [untold.messages]) closing exitedAfterDisconnect leaving ending idle
  | closing messages closing => simp [untold.closing] at closing
  | disconnecting messages closing leaving ending idle =>
    exact .serving (by simp [untold.messages]) closing untold.exitedAfterDisconnect leaving ending idle
  | leaving messages closing leaving => simp [untold.leaving] at leaving
  | gone messages ending => exact absurd ending untold.killed

theorem countP_snoc (past : List (Event Supergraph)) (event : Event Supergraph) :
    (past ++ [event]).countP isSignal = past.countP isSignal + if isSignal event then 1 else 0 := by
  rw [List.countP_append, List.countP_singleton]

/-- Without a signal there is no shutdown. -/
theorem calm_of_unsignalled (events : List (Event Supergraph)) (none : events.countP isSignal = 0) :
    (reached config files events).shuttingDown = false := by
  refine reached_invariant (fun events state => events.countP isSignal = 0 → state.shuttingDown = false)
    (fun _ => rfl) (fun past event held change none => ?_) events none
  rw [countP_snoc] at none
  rcases shuttingDown_change change with same | ⟨rfl, _⟩
  · rw [same]
    exact held (by omega)
  · simp [isSignal] at none

theorem drains_reached (events : List (Event Supergraph)) (once : events.countP isSignal ≤ 1) :
    ∀ worker ∈ (reached config files events).workers, Drains worker := by
  refine reached_invariant (fun events state => events.countP isSignal ≤ 1 → ∀ worker ∈ state.workers, Drains worker)
    (fun _ _ member => nomatch member) (fun past event held change once worker member => ?_) events once
  rw [countP_snoc] at once
  have before := held (by omega)
  rcases (accounted change).of_mem member with ⟨earlier, there, evolves⟩ | ⟨env, _, rfl⟩
  · have drains := before earlier there
    cases evolves with
    | same => exact drains
    | acts step taken alive allowed => exact drains_act drains alive step allowed
    | sent told =>
      subst told
      have calm : (reached config files past).shuttingDown = false :=
        calm_of_unsignalled past (by simpa [isSignal] using once)
      exact drains_told drains (untold past calm earlier there)
    | heard | disconnected | seen =>
      cases drains with
      | serving messages closing exitedAfterDisconnect leaving ending idle =>
        exact .serving messages closing exitedAfterDisconnect leaving ending idle
      | closing messages closing exitedAfterDisconnect leaving ending =>
        exact .closing messages closing exitedAfterDisconnect leaving ending
      | disconnecting messages closing leaving ending idle =>
        exact .disconnecting messages closing leaving ending idle
      | leaving messages closing leaving ending => exact .leaving messages closing leaving ending
      | gone messages ending answered => exact .gone messages ending answered
  · exact drains_forked env

/-- With one signal, a worker that goes by itself has answered every request it accepted. -/
theorem killed_answered (events : List (Event Supergraph)) (once : events.countP isSignal ≤ 1)
    (worker : Worker Supergraph) (member : worker ∈ (reached config files events).workers)
    (killed : worker.ending = some .killed) : worker.requests = [] := by
  cases drains_reached events once worker member with
  | gone messages ending answered => exact answered
  | serving messages closing exitedAfterDisconnect leaving ending => exact absurd killed ending
  | closing messages closing exitedAfterDisconnect leaving ending => exact absurd killed ending
  | disconnecting messages closing leaving ending => exact absurd killed ending
  | leaving messages closing leaving ending => exact absurd killed ending

/-- A second message finds the server closed, and the worker goes with the requests it
still had to answer. -/
theorem drops_requests (worker : Worker Supergraph) (started : worker.supergraph.isSome)
    (open' : worker.listening = true) :
    let gone := ((worker.act config .message).act config .message).act config .disconnect
    gone.ending = some .killed ∧ gone.requests = worker.requests := by
  have started : worker.supergraph ≠ none := Option.isSome_iff_ne_none.mp started
  simp [Worker.act, Worker.onMessage, Worker.gracefulShutdown, open', started]

/-! ### The primary waits for every worker -/

/-- The one handler of a signal awaits every worker that is not seen to have exited. -/
def Awaiting (state : State Supergraph) : Prop :=
  ∃ awaited, state.handlers = [awaited] ∧
    ∀ (index : Nat) (worker : Worker Supergraph), state.workers[index]? = some worker → worker.exitSeen = false →
      index ∈ awaited

theorem awaiting_put {index : Nat} {before worker : Worker Supergraph} (held : state.workers[index]? = some before)
    (same : worker.exitSeen = before.exitSeen) (awaiting : Awaiting state) : Awaiting (state.put index worker) := by
  obtain ⟨awaited, handlers, waits⟩ := awaiting
  refine ⟨awaited, handlers, fun position other found unseen => ?_⟩
  rw [State.put, List.getElem?_set] at found
  split at found
  next here =>
    subst here
    split at found
    · cases found
      exact waits index before held (same ▸ unseen)
    · cases found
  next => exact waits position other found unseen

theorem awaiting_seen {index : Nat} {worker : Worker Supergraph} (awaiting : Awaiting state) :
    Awaiting (state.saw index worker) := by
  obtain ⟨awaited, handlers, waits⟩ := awaiting
  refine ⟨awaited.filter fun other => other ≠ index, by simp [State.saw, handlers],
    fun position other found unseen => ?_⟩
  simp only [State.saw, State.put, List.getElem?_set] at found
  split at found
  next here =>
    subst here
    split at found
    · cases found
      cases unseen
    · cases found
  next elsewhere =>
    exact List.mem_filter.mpr ⟨waits position other found unseen, decide_eq_true fun same => elsewhere same.symm⟩

/-- Once it is told, a primary past its loop forks no more, so that it knows of every
worker. -/
theorem awaiting_change (change : Change config state event after) (other : event ≠ .signal)
    (told : state.shuttingDown = true) (past : Past state.stage) (awaiting : Awaiting state) : Awaiting after := by
  cases change with
  | nothing | failed | shutDown => exact awaiting
  | loaded supergraph written here wrote => rcases past with running | ⟨reason, is⟩ <;> simp_all
  | timer made here => rcases past with running | ⟨reason, is⟩ <;> simp_all
  | signal | unheard => exact absurd rfl other
  | worker index worker step held alive allowed => exact awaiting_put held (exitSeen_act worker _) awaiting
  | listening index worker held announced =>
    have put : Awaiting (state.put index { worker with announced := worker.announced - 1 }) :=
      awaiting_put held rfl awaiting
    exact put
  | disconnected index worker held may => exact awaiting_put held rfl awaiting
  | seen index worker held ended unseen expected => exact awaiting_seen awaiting
  | stopped index worker reason held ended running calm => simp [told] at calm
  | replaced index worker held ended unseen running calm => simp [told] at calm

theorem handlers_of_unsignalled (events : List (Event Supergraph)) (none : events.countP isSignal = 0) :
    (reached config files events).handlers = [] := by
  refine reached_invariant (fun events state => events.countP isSignal = 0 → state.handlers = [])
    (fun _ => rfl) (fun past event held change none => ?_) events none
  rw [countP_snoc] at none
  have before := held (by omega)
  generalize reached config files past = state at before change
  generalize reached config files (past ++ [event]) = after at change
  cases change with
  | signal | unheard => simp [isSignal] at none
  | loaded supergraph written here wrote =>
    rw [(iterate_frame written 0).2.2.2]
    rcases wrote with rfl | ⟨supergraph, rfl⟩ <;> exact before
  | timer made here => rw [(iterate_frame state made).2.2.2, before]
  | nothing | failed | shutDown | worker | listening | disconnected => exact before
  | seen | stopped | replaced => simp [State.saw, State.fork, before]

theorem exitSeen_send (worker : Worker Supergraph) : worker.send.exitSeen = worker.exitSeen := by
  unfold Worker.send
  split <;> rfl

theorem awaiting_tell (none : state.handlers = []) : Awaiting state.tell := by
  refine ⟨state.present, by simp [State.tell, none], fun index worker found unseen => ?_⟩
  rw [State.tell, List.getElem?_map] at found
  obtain ⟨before, held, is⟩ := Option.map_eq_some_iff.mp found
  have same : before.exitSeen = false := by rw [← unseen, ← is, exitSeen_send]
  refine List.mem_filter.mpr ⟨List.mem_range.mpr (List.getElem?_eq_some_iff.mp held).1, ?_⟩
  simp [held, Worker.present, same]

/-- An exit that is seen has happened. -/
theorem seen_ended (events : List (Event Supergraph)) :
    ∀ worker ∈ (reached config files events).workers, worker.exitSeen = true → worker.ending.isSome := by
  refine reached_invariant (fun _ state => ∀ worker ∈ state.workers, worker.exitSeen = true → worker.ending.isSome)
    (fun _ member => nomatch member) (fun past event held change worker member seen => ?_) events
  rcases (accounted change).of_mem member with ⟨earlier, there, evolves⟩ | ⟨env, _, rfl⟩
  · cases evolves with
    | seen ended => exact ended
    | acts step taken alive allowed =>
      rw [exitSeen_act] at seen
      have ended := held earlier there seen
      simp [alive] at ended
    | same => exact held _ there seen
    | sent | heard | disconnected => exact held earlier there seen
  · cases seen

theorem reached_signal {past : List (Event Supergraph)} (running : (reached config files past).stage = .running) :
    reached config files (past ++ [Event.signal]) = (reached config files past).onSignal := by
  rw [reached_snoc, State.next, running]
  rfl

/-- The shutdown ends when no worker is awaited. -/
theorem seen_of_done (change : Change config state event after) (running : state.stage = .running)
    (told : state.shuttingDown = true) (awaiting : Awaiting state) (done : after.stage = .exited .shutDown) :
    ∀ worker ∈ after.workers, worker.exitSeen = true := by
  cases change with
  | shutDown none =>
    obtain ⟨awaited, handlers, waits⟩ := awaiting
    rw [handlers, List.mem_singleton] at none
    intro worker member
    obtain ⟨index, held⟩ := List.getElem?_of_mem member
    by_contra unseen
    have waited := waits index worker held (Bool.eq_false_iff.mpr unseen)
    simp [← none] at waited
  | failed => cases done
  | stopped index worker reason held ended running calm => simp [told] at calm
  | loaded supergraph written here wrote => exact absurd (running.symm.trans here) (by simp)
  | timer made here => exact absurd (running.symm.trans here) (by simp)
  | unheard => cases done
  | nothing | signal | worker | listening | disconnected | seen | replaced =>
    exact absurd (running.symm.trans done) (by simp)

/-- What is true of a cluster from the moment it is told, as long as it is told once. -/
structure Closing (state : State Supergraph) : Prop where
  shuttingDown : state.shuttingDown = true
  past : Past state.stage
  awaiting : Awaiting state
  done : state.stage = .exited .shutDown → ∀ worker ∈ state.workers, worker.exitSeen = true

theorem closing_reached (past rest : List (Event Supergraph)) (running : (reached config files past).stage = .running)
    (first : past.countP isSignal = 0) (last : rest.countP isSignal = 0) :
    Closing (reached config files (past ++ [Event.signal] ++ rest)) := by
  refine reached_append (past ++ [Event.signal]) (fun rest state => rest.countP isSignal = 0 → Closing state)
    (fun _ => ?_) (fun rest event held change none => ?_) rest last
  · have awaiting : Awaiting (reached config files past).tell := awaiting_tell (handlers_of_unsignalled past first)
    rw [reached_signal running, State.onSignal]
    split
    next => exact ⟨rfl, .inl running, awaiting, fun here => absurd (running.symm.trans here) (by simp)⟩
    next => exact ⟨rfl, .inr ⟨_, rfl⟩, awaiting, fun here => absurd here (by simp)⟩
  · rw [countP_snoc] at none
    have closing := held (by omega)
    rcases closing.past with here | ⟨reason, gone⟩
    rotate_left
    · rwa [reached_exited gone]
    have other : event ≠ .signal := by
      rintro rfl
      simp [isSignal] at none
    refine ⟨?_, ?_, awaiting_change change other closing.shuttingDown closing.past closing.awaiting,
      seen_of_done change here closing.shuttingDown closing.awaiting⟩
    · rcases shuttingDown_change change with same | ⟨_, told⟩
      · exact same.trans closing.shuttingDown
      · exact told
    · rcases past_change change closing.past with same | ended
      · rw [same]
        exact closing.past
      · exact .inr ended

/-- A primary past its loop that is told once ends its shutdown only when every worker
it ever forked has gone, and a worker that went by itself has answered every request it
accepted. -/
theorem shutdown_complete (past rest : List (Event Supergraph)) (running : (reached config files past).stage = .running)
    (once : (past ++ [Event.signal] ++ rest).countP isSignal ≤ 1)
    (ended : (reached config files (past ++ [Event.signal] ++ rest)).stage = .exited .shutDown)
    (worker : Worker Supergraph)
    (member : worker ∈ (reached config files (past ++ [Event.signal] ++ rest)).workers) :
    worker.ending = some .died ∨ worker.ending = some .killed ∧ worker.requests = [] := by
  have counted := once
  rw [List.countP_append, List.countP_append, List.countP_singleton, isSignal, if_pos rfl] at counted
  have closing := closing_reached past rest running (by omega) (by omega)
  have ending := seen_ended (past ++ [Event.signal] ++ rest) worker member (closing.done ended worker member)
  have answered := killed_answered (past ++ [Event.signal] ++ rest) once worker member
  cases is : worker.ending with
  | none => simp [is] at ending
  | some how =>
    cases how with
    | died => exact .inl rfl
    | killed => exact .inr ⟨rfl, answered is⟩

theorem shutdown_complete_answered :
    let worker : Worker Unit :=
      ⟨some ⟨"./supergraph.json", .file⟩, some (), 0, false, [], 0, false, true, false, some .killed, 1, true, true⟩
    worker.ending = some .died ∨ worker.ending = some .killed ∧ worker.requests = [] :=
  let rest : List (Event Unit) :=
    [.worker 0 .message, .worker 0 (.response 7), .worker 0 .closed, .worker 0 .disconnect, .exit 0, .shutDown]
  @shutdown_complete Unit ⟨1, false, .file, none⟩ (fun _ => some ())
    [.loaded (.error ""), .timer, .worker 0 (.startup (.error "")), .worker 0 .listening, .worker 0 (.request 7)]
    rest rfl (by decide) rfl _ (List.mem_singleton.mpr rfl)

end Taql.ClusterShutdown
