import Taql.Readiness

/-! Who has answered. Of the messages about a call, each worker it was sent to has
one, which is under way or has come back; so when as many have come back as were
sent, all have. The timer settles the call before anything later could. -/
namespace Taql.ReadinessSafety
open JavaScript Readiness Runs

section Calls

variable (call : Call) (outcome : Except JsError Bool)

@[simp] theorem done_sent : (call.done outcome).sent = call.sent := by
  unfold Call.done
  split <;> rfl

@[simp] theorem done_answered : (call.done outcome).answered = call.answered := by
  unfold Call.done
  split <;> rfl

@[simp] theorem done_timedOut : (call.done outcome).timedOut = call.timedOut := by
  unfold Call.done
  split <;> rfl

@[simp] theorem done_timely : (call.done outcome).timely = call.timely := by
  unfold Call.done
  split <;> rfl

@[simp] theorem done_finished : (call.done outcome).finished = call.finished := by
  unfold Call.done
  split <;> rfl

@[simp] theorem done_settled : (call.done outcome).settled = some (call.settled.getD outcome) := by
  unfold Call.done
  cases settled : call.settled <;> simp [settled]

/-- A short circuit is only ever to a failure. -/
theorem shortCircuit_cases (reply : Reply) :
    call.shortCircuit reply = call ∧ reply = .readiness true ∨
      reply.positive = false ∧ ∃ failure, failure ≠ .ok true ∧ call.shortCircuit reply = call.done failure := by
  match reply with
  | .readiness true => exact .inl ⟨rfl, rfl⟩
  | .readiness false => exact .inr ⟨rfl, .ok false, nofun, rfl⟩
  | .error message => exact .inr ⟨rfl, .error ⟨"Error", message⟩, nofun, rfl⟩

end Calls

theorem positive_iff {reply : Reply} : reply.positive = true ↔ reply = .readiness true := by
  match reply with
  | .readiness true | .readiness false | .error message => simp [Reply.positive]

/-- Every worker the call was sent to said yes before the timer fired. -/
def AllReady (call : Call) : Prop :=
  call.sent ≠ [] ∧ ∀ worker ∈ call.sent, (worker, .readiness true) ∈ call.timely

/-- What holds of a call and the workers whose messages about it are under way. -/
structure Sound (flying : List Nat) (call : Call) : Prop where
  distinct : call.sent.Nodup
  counted : (call.answered.map Prod.fst ++ flying).Subperm call.sent
  early : call.settled = none → call.timedOut = false
  timely : call.timedOut = false → call.timely = call.answered
  sure : call.settled = some (.ok true) → AllReady call

/-- What holds of the entry of a call: it stays until as many responses came as
requests were sent, and where none was sent it stays. -/
structure Tracks (entry : Option ReadinessRequest) (call : Call) : Prop where
  pending : ∀ request, entry = some request → request.pending = call.sent.length - call.answered.length ∧
    request.responses = call.answered.map fun answer => answer.2.positive
  present : entry.isSome = true ↔ call.sent = [] ∨ call.answered.length < call.sent.length

section Sound
variable {flying flying' : List Nat} {call : Call}

/-- Messages under way may be lost. -/
theorem Sound.lose (sound : Sound flying call) (fewer : flying'.Subperm flying) : Sound flying' call :=
  { sound with counted := ((List.subperm_append_left _).mpr fewer).trans sound.counted }

theorem Sound.done (sound : Sound flying call) (outcome : Except JsError Bool)
    (sure : call.settled = none → outcome = .ok true → AllReady call) : Sound flying (call.done outcome) where
  distinct := by simpa using sound.distinct
  counted := by simpa using sound.counted
  early unsettled := by simp at unsettled
  timely inTime := by simpa using sound.timely (by simpa using inTime)
  sure settled := by
    unfold AllReady
    rw [done_sent, done_timely]
    cases before : call.settled with
    | none =>
      rw [done_settled, before] at settled
      exact sure before (Option.some.inj settled)
    | some first =>
      rw [done_settled, before] at settled
      exact sound.sure (before.trans settled)

/-- The timer settles a call that is not settled, and never to a success. -/
theorem Sound.timeOut (sound : Sound flying call) (error : JsError) :
    Sound flying { call.done (.error error) with timedOut := true } :=
  have done := sound.done (.error error) fun _ => nofun
  ⟨done.distinct, done.counted, by simp, nofun, done.sure⟩

theorem Sound.hear {worker : Nat} (sound : Sound (worker :: flying) call) (reply : Reply) :
    Sound flying (call.hear worker reply) where
  distinct := sound.distinct
  counted := by
    simpa [Call.hear, List.append_assoc] using sound.counted
  early := sound.early
  timely inTime := by
    have inTime : call.timedOut = false := inTime
    simp [Call.hear, inTime, sound.timely inTime]
  sure settled := by
    obtain ⟨some_, ready⟩ := sound.sure settled
    refine ⟨some_, fun other asked => ?_⟩
    have said := ready other asked
    simp only [Call.hear]
    split
    · exact said
    · exact List.mem_append_left _ said

theorem Sound.shortCircuit (sound : Sound flying call) (reply : Reply) : Sound flying (call.shortCircuit reply) := by
  rcases shortCircuit_cases call reply with ⟨same, _⟩ | ⟨_, failure, fails, same⟩
  · rw [same]
    exact sound
  · rw [same]
    exact sound.done failure fun _ is => absurd is fails

/-- When as many came back as were sent, every worker has answered. -/
theorem Sound.answered_all (sound : Sound flying call) (all : call.sent.length ≤ call.answered.length) {worker : Nat}
    (asked : worker ∈ call.sent) : ∃ reply, (worker, reply) ∈ call.answered := by
  have answered : (call.answered.map Prod.fst).Subperm call.sent :=
    ((List.sublist_append_left _ _).subperm).trans sound.counted
  have perm := answered.perm_of_length_le (by simpa using all)
  obtain ⟨answer, member, rfl⟩ := List.mem_map.mp (perm.mem_iff.mpr asked)
  exact ⟨answer.2, member⟩

/-- When all came back and none of them said no, all said yes in time. -/
theorem Sound.allReady (sound : Sound flying call) (unsettled : call.settled = none)
    (all : call.sent.length ≤ call.answered.length) (some_ : call.sent ≠ [])
    (positive : ∀ answer ∈ call.answered, answer.2.positive = true) : AllReady call := by
  refine ⟨some_, fun worker asked => ?_⟩
  rw [sound.timely (sound.early unsettled)]
  obtain ⟨reply, answered⟩ := sound.answered_all all asked
  rw [← positive_iff.mp (positive _ answered)]
  exact answered

end Sound

theorem sound_started {workers : List Nat} (distinct : workers.Nodup) : Sound workers (started workers).2 where
  distinct := distinct
  counted := List.Subperm.refl _
  early _ := rfl
  timely _ := rfl
  sure := nofun

theorem tracks_started (workers : List Nat) : Tracks (some (started workers).1) (started workers).2 where
  pending request is := by
    cases is
    simp [started]
  present := by
    cases workers <;> simp [started]

section Response
variable {request : ReadinessRequest} {flying : List Nat} {call : Call} {worker : Nat}

theorem sent_shortCircuit (call : Call) (worker : Nat) (reply : Reply) :
    ((call.hear worker reply).shortCircuit reply).sent = call.sent ∧
      ((call.hear worker reply).shortCircuit reply).answered = call.answered ++ [(worker, reply)] := by
  rcases shortCircuit_cases (call.hear worker reply) reply with ⟨same, _⟩ | ⟨_, failure, _, same⟩ <;> rw [same]
  · exact ⟨rfl, rfl⟩
  · rw [done_sent, done_answered]
    exact ⟨rfl, rfl⟩

theorem sound_onResponse (sound : Sound (worker :: flying) call) (tracks : Tracks (some request) call)
    (reply : Reply) : Sound flying (onResponse request call worker reply).2 := by
  have heard := (sound.hear reply).shortCircuit reply
  obtain ⟨sent, answered⟩ := sent_shortCircuit call worker reply
  obtain ⟨pending, responses⟩ := tracks.pending request rfl
  unfold onResponse
  simp only
  split
  · rename_i last
    refine heard.done _ fun unsettled yes => heard.allReady unsettled ?_ ?_ fun answer came => ?_
    · rw [sent, answered, List.length_append, List.length_singleton]
      omega
    · rw [sent]
      rintro none
      have asked : worker ∈ call.sent := sound.counted.subset (by simp)
      rw [none] at asked
      cases asked
    · rw [Except.ok.injEq, List.all_eq_true] at yes
      rw [answered] at came
      refine yes _ ?_
      rw [responses, ← List.map_singleton (f := fun answer : Nat × Reply => answer.2.positive) (a := (worker, reply)),
        ← List.map_append]
      exact List.mem_map_of_mem came
  · exact heard

theorem tracks_onResponse (sound : Sound (worker :: flying) call) (tracks : Tracks (some request) call)
    (reply : Reply) : Tracks (onResponse request call worker reply).1 (onResponse request call worker reply).2 := by
  obtain ⟨sent, answered⟩ := sent_shortCircuit call worker reply
  obtain ⟨pending, responses⟩ := tracks.pending request rfl
  have room : call.answered.length + 1 ≤ call.sent.length := by
    have counted := sound.counted.length_le
    simp only [List.length_append, List.length_map, List.length_cons] at counted
    omega
  unfold onResponse
  simp only
  split
  · rename_i last
    refine ⟨nofun, ?_⟩
    rw [done_sent, done_answered, sent, answered, List.length_append, List.length_singleton]
    have filled : call.sent ≠ [] := List.ne_nil_of_length_pos (by omega)
    simp only [Option.isSome_none, Bool.false_eq_true, filled, false_or, false_iff]
    omega
  · rename_i more
    refine ⟨fun kept is => ?_, ?_⟩
    · cases is
      rw [sent, answered, responses, List.map_append, List.length_append, List.length_singleton]
      exact ⟨by simp only; omega, rfl⟩
    · rw [sent, answered, List.length_append, List.length_singleton]
      simp only [Option.isSome_some, true_iff]
      right
      omega

end Response

/-! ### In a run -/

/-- The workers whose messages about a call are under way. -/
def inFlight (state : State) (requestId : Nat) : List Nat :=
  (state.toWorkers.filterMap fun request => if request.requestId = requestId then some request.worker else none) ++
    state.toPrimary.filterMap fun response => if response.requestId = requestId then some response.worker else none

structure Holds (state : State) : Prop where
  workers : state.workers.Nodup
  forked : ∀ worker ∈ state.workers, worker < state.forked
  calls : ∀ requestId call, state.calls requestId = some call →
    Sound (inFlight state requestId) call ∧ Tracks (state.requests requestId) call
  unknown : ∀ requestId, state.calls requestId = none →
    state.requests requestId = none ∧ inFlight state requestId = []
  fresh : ∀ requestId, state.requestIdSeq ≤ requestId → state.calls requestId = none

section Steps
variable {state : State}

/-- Messages change hands or are lost. -/
theorem Holds.lose (holds : Holds state) (toWorkers : List Request) (toPrimary : List Response)
    (fewer : ∀ requestId, (inFlight { state with toWorkers := toWorkers, toPrimary := toPrimary } requestId).Subperm
      (inFlight state requestId)) :
    Holds { state with toWorkers := toWorkers, toPrimary := toPrimary } where
  workers := holds.workers
  forked := holds.forked
  calls requestId call is := by
    obtain ⟨sound, tracks⟩ := holds.calls requestId call is
    exact ⟨sound.lose (fewer requestId), tracks⟩
  unknown requestId is := by
    obtain ⟨entry, quiet⟩ := holds.unknown requestId is
    have fewer := fewer requestId
    rw [quiet, List.subperm_nil] at fewer
    exact ⟨entry, fewer⟩
  fresh := holds.fresh

/-- A call and its entry change. -/
theorem Holds.put (holds : Holds state) {requestId : Nat} {call call' : Call} {entry : Option ReadinessRequest}
    (known : state.calls requestId = some call) (sound : Sound (inFlight state requestId) call')
    (tracks : Tracks entry call') : Holds (state.put requestId entry call') where
  workers := holds.workers
  forked := holds.forked
  calls other call'' is := by
    by_cases same : other = requestId
    · subst same
      simp only [State.put, Function.update_self, Option.some.injEq] at is ⊢
      subst is
      exact ⟨sound, tracks⟩
    · simp only [State.put, Function.update_of_ne same] at is ⊢
      exact holds.calls other call'' is
  unknown other is := by
    by_cases same : other = requestId
    · simp [State.put, same] at is
    · simp only [State.put, Function.update_of_ne same] at is ⊢
      exact holds.unknown other is
  fresh other beyond := by
    by_cases same : other = requestId
    · rw [same] at beyond
      rw [holds.fresh requestId beyond] at known
      cases known
    · simp only [State.put, Function.update_of_ne same]
      exact holds.fresh other beyond

theorem inFlight_answer {request : Request} (sent : request ∈ state.toWorkers) (reply : Reply) (requestId : Nat) :
    (inFlight { state with
      toWorkers := state.toWorkers.erase request
      toPrimary := state.toPrimary ++ [⟨request.worker, request.requestId, reply⟩] } requestId).Perm
      (inFlight state requestId) := by
  have front := (List.perm_cons_erase sent).filterMap
    fun request => if request.requestId = requestId then some request.worker else none
  unfold inFlight
  rw [List.filterMap_append, ← List.append_assoc]
  refine (List.perm_append_comm.trans ?_).trans (front.symm.append_right _)
  by_cases same : request.requestId = requestId <;> simp [same]

theorem inFlight_message {response : Response} (came : response ∈ state.toPrimary) (requestId : Nat) :
    (inFlight state requestId).Perm ((if response.requestId = requestId then [response.worker] else []) ++
      inFlight { state with toPrimary := state.toPrimary.erase response } requestId) := by
  have back := (List.perm_cons_erase came).filterMap
    fun response => if response.requestId = requestId then some response.worker else none
  unfold inFlight
  refine (back.append_left _).trans ?_
  by_cases same : response.requestId = requestId
  · simp [same, List.perm_middle]
  · simp [same]

private theorem asked (workers : List Nat) (asking requestId : Nat) :
    ((workers.map fun worker => (⟨worker, asking⟩ : Request)).filterMap fun request =>
      if request.requestId = requestId then some request.worker else none) =
      if requestId = asking then workers else [] := by
  rw [List.filterMap_map]
  by_cases same : asking = requestId
  · simp [same]
  · simp [same, Ne.symm same]

/-- A call asks the workers that are connected, and leaves the others' messages alone. -/
theorem inFlight_isReady (options : Options) (quiet : inFlight state state.requestIdSeq = []) (requestId : Nat) :
    inFlight (state.next options .isReady).1 requestId =
      if requestId = state.requestIdSeq then state.workers else inFlight state requestId := by
  unfold inFlight at *
  simp only [State.next, State.put, List.filterMap_append, asked]
  split
  · rename_i same
    subst same
    obtain ⟨front, back⟩ := List.append_eq_nil_iff.mp quiet
    rw [front, back, List.nil_append, List.append_nil]
  · rw [List.append_nil]

theorem holds_isReady (options : Options) (holds : Holds state) : Holds (state.next options .isReady).1 := by
  have unused := holds.fresh state.requestIdSeq le_rfl
  have flying := inFlight_isReady options (holds.unknown _ unused).2
  refine ⟨holds.workers, holds.forked, fun other call is => ?_, fun other is => ?_, fun other beyond => ?_⟩
  · rw [flying]
    by_cases same : other = state.requestIdSeq
    · subst same
      simp only [State.next, State.put, Function.update_self, Option.some.injEq, if_true] at is ⊢
      subst is
      exact ⟨sound_started holds.workers, tracks_started state.workers⟩
    · simp only [State.next, State.put, Function.update_of_ne same, if_neg same] at is ⊢
      exact holds.calls other call is
  · rw [flying]
    by_cases same : other = state.requestIdSeq
    · simp [State.next, State.put, same] at is
    · simp only [State.next, State.put, Function.update_of_ne same, if_neg same] at is ⊢
      exact holds.unknown other is
  · simp only [State.next, State.put] at beyond ⊢
    rw [Function.update_of_ne (by omega)]
    exact holds.fresh other (by omega)

theorem holds_message (options : Options) (holds : Holds state) (response : Response) :
    Holds (state.next options (.message response)).1 := by
  rcases message_cases options state response with ⟨_, same⟩ | ⟨came, handled⟩
  · rw [same]
    exact holds
  · have perm := inFlight_message came
    have heard : Holds { state with toPrimary := state.toPrimary.erase response } :=
      holds.lose state.toWorkers _ fun requestId =>
        (List.sublist_append_right _ _).subperm.trans (perm requestId).symm.subperm
    rcases handled with ⟨_, same⟩ | ⟨request, call, entry, known, same⟩
    · rw [same]
      exact heard
    · rw [same]
      obtain ⟨sound, tracks⟩ := holds.calls _ _ known
      have own := perm response.requestId
      rw [if_pos rfl, List.singleton_append] at own
      rw [entry] at tracks
      have sound := sound.lose own.symm.subperm
      apply heard.put known
      · exact sound_onResponse sound tracks response.reply
      · exact tracks_onResponse sound tracks response.reply

theorem holds_step (options : Options) (holds : Holds state) (event : Event) :
    Holds (state.next options event).1 := by
  cases event with
  | connect =>
    refine ⟨?_, fun worker member => ?_, holds.calls, holds.unknown, holds.fresh⟩
    · refine List.nodup_append.mpr ⟨holds.workers, List.nodup_singleton _, fun worker old forked new same => ?_⟩
      have before := holds.forked worker old
      rw [List.mem_singleton] at new
      omega
    · simp only [State.next, List.mem_append, List.mem_singleton] at member ⊢
      rcases member with old | new
      · have before := holds.forked worker old
        omega
      · omega
  | disconnect worker =>
    exact ⟨holds.workers.erase worker, fun other member => holds.forked other (List.mem_of_mem_erase member),
      holds.calls, holds.unknown, holds.fresh⟩
  | isReady => exact holds_isReady options holds
  | answer request checks =>
    simp only [State.next]
    split
    · rename_i sent
      exact holds.lose _ _ fun requestId => (inFlight_answer sent _ requestId).subperm
    · exact holds
  | loseRequest request =>
    exact holds.lose _ state.toPrimary fun requestId =>
      (((List.erase_sublist).filterMap _).append_right _).subperm
  | loseResponse response =>
    exact holds.lose state.toWorkers _ fun requestId =>
      (((List.erase_sublist).filterMap _).append_left _).subperm
  | message response => exact holds_message options holds response
  | timeout requestId =>
    rcases timeout_cases options state requestId with same | ⟨request, call, entry, known, _, same⟩ <;> rw [same]
    · exact holds
    · obtain ⟨sound, tracks⟩ := holds.calls _ _ known
      rw [entry] at tracks
      apply holds.put known (sound.timeOut _)
      refine ⟨fun kept is => ?_, by simpa using tracks.present⟩
      cases is
      simpa using tracks.pending request rfl
  | nextTick requestId =>
    rcases nextTick_cases options state requestId with same | ⟨call, known, _, same⟩ <;> rw [same]
    · exact holds
    · obtain ⟨sound, tracks⟩ := holds.calls _ _ known
      have done := sound.done (.ok false) fun _ never => absurd never (by simp)
      apply holds.put known
      · exact ⟨done.distinct, done.counted, done.early, done.timely, done.sure⟩
      · exact ⟨by simpa using tracks.pending, by simpa using tracks.present⟩
  | settle requestId checks =>
    rcases settle_cases options state requestId checks with ⟨_, same⟩ | ⟨call, _, ⟨known, _⟩, same⟩ <;> rw [same]
    · exact holds
    · obtain ⟨sound, tracks⟩ := holds.calls _ _ known
      apply holds.put known
      · exact ⟨sound.distinct, sound.counted, sound.early, sound.timely, sound.sure⟩
      · exact ⟨tracks.pending, tracks.present⟩

/-! ### Settling -/

/-- Whether the promise of a call has settled, as a count. -/
def settledCount (calls : Nat → Option Call) (requestId : Nat) : Nat :=
  if (calls requestId).any Call.finished then 1 else 0

theorem settledCount_update {calls : Nat → Option Call} {requestId : Nat} {call call' : Call}
    (known : calls requestId = some call) (same : call'.finished = call.finished) (other : Nat) :
    settledCount calls other = settledCount (Function.update calls requestId (some call')) other := by
  unfold settledCount
  by_cases own : other = requestId
  · simp [own, known, same]
  · simp [Function.update_of_ne own]

theorem onResponse_finished (request : ReadinessRequest) (call : Call) (worker : Nat) (reply : Reply) :
    (onResponse request call worker reply).2.finished = call.finished := by
  have heard : ((call.hear worker reply).shortCircuit reply).finished = call.finished := by
    rcases shortCircuit_cases (call.hear worker reply) reply with ⟨same, _⟩ | ⟨_, failure, _, same⟩ <;> rw [same]
    · rfl
    · exact done_finished _ _
  unfold onResponse
  simp only
  split
  · rw [done_finished, heard]
  · exact heard

/-- A step settles a promise that has not settled, or none. -/
theorem settlements_step (options : Options) (holds : Holds state) (event : Event) (requestId : Nat) :
    settledCount state.calls requestId +
        ((state.next options event).2.filter fun settlement => settlement.requestId = requestId).length =
      settledCount (state.next options event).1.calls requestId := by
  cases event with
  | connect | disconnect | loseRequest | loseResponse => rfl
  | isReady =>
    simp only [State.next, List.filter_nil, List.length_nil, Nat.add_zero, settledCount, State.put]
    by_cases own : requestId = state.requestIdSeq
    · simp [own, holds.fresh _ le_rfl, started]
    · simp [Function.update_of_ne own]
  | answer request checks =>
    simp only [State.next]
    split <;> rfl
  | message response =>
    rcases message_cases options state response with
      ⟨_, same⟩ | ⟨_, ⟨_, same⟩ | ⟨request, call, _, known, same⟩⟩ <;> rw [same]
    · rfl
    · rfl
    · exact settledCount_update known (onResponse_finished ..) requestId
  | timeout other =>
    rcases timeout_cases options state other with same | ⟨request, call, _, known, _, same⟩ <;> rw [same]
    · rfl
    · exact settledCount_update known (by simp) requestId
  | nextTick other =>
    rcases nextTick_cases options state other with same | ⟨call, known, _, same⟩ <;> rw [same]
    · rfl
    · exact settledCount_update known (by simp) requestId
  | settle other checks =>
    rcases settle_cases options state other checks with
      ⟨_, same⟩ | ⟨call, outcome, ⟨known, _, pending⟩, same⟩ <;> rw [same]
    · rfl
    · unfold settledCount
      by_cases own : requestId = other
      · simp [State.put, own, known, pending]
      · simp [State.put, Function.update_of_ne own, Ne.symm own]

end Steps

theorem holds_start (options : Options) : Holds (machine options).start where
  workers := List.nodup_nil
  forked := nofun
  calls := nofun
  unknown _ _ := ⟨rfl, rfl⟩
  fresh _ _ := rfl

theorem holds_exec (options : Options) (events : List Event) : Holds ((machine options).exec events).1 :=
  (machine options).exec_invariant (fun _ => Holds) (holds_start options)
    (fun _ event holds => holds_step options holds event) events

theorem settlements_exec (options : Options) (events : List Event) (requestId : Nat) :
    (((machine options).exec events).2.filter fun settlement => settlement.requestId = requestId).length =
      settledCount ((machine options).exec events).1.calls requestId := by
  induction events using List.reverseRecOn with
  | nil => rfl
  | append_singleton past event ih =>
    rw [Machine.exec_snoc, List.filter_append, List.length_append, ih]
    exact settlements_step options (holds_exec options past) event requestId

theorem checks_hold {checks : List Bool} {default : Bool} (holds : evaluateChecks checks default = true) :
    ∀ check ∈ checks, check = true := by
  intro check member
  unfold evaluateChecks at holds
  rw [if_pos (List.length_pos_of_mem member)] at holds
  exact List.all_eq_true.mp holds check member

/-- Only the callback of a promise settles it, with what `done` was given and what
the checks say. -/
theorem settles_true {options : Options} {state : State} {event : Event} {requestId : Nat}
    (given : ⟨requestId, .ok true⟩ ∈ (state.next options event).2) :
    ∃ checks call, event = .settle requestId checks ∧ state.calls requestId = some call ∧
      call.settled = some (.ok true) ∧ ∀ check ∈ checks, check = true := by
  cases event with
  | connect | disconnect | isReady | loseRequest | loseResponse => cases given
  | answer =>
    simp only [State.next] at given
    split at given <;> cases given
  | message response =>
    rcases message_cases options state response with ⟨_, same⟩ | ⟨_, ⟨_, same⟩ | ⟨_, _, _, _, same⟩⟩ <;>
      rw [same] at given <;> cases given
  | timeout other =>
    rcases timeout_cases options state other with same | ⟨_, _, _, _, _, same⟩ <;> rw [same] at given <;> cases given
  | nextTick other =>
    rcases nextTick_cases options state other with same | ⟨_, _, _, same⟩ <;> rw [same] at given <;> cases given
  | settle other checks =>
    rcases settle_cases options state other checks with ⟨_, same⟩ | ⟨call, outcome, ⟨known, settled, _⟩, same⟩ <;>
      rw [same] at given
    · cases given
    · obtain ⟨rfl, concludes⟩ := Settlement.mk.inj (List.mem_singleton.mp given)
      cases outcome with
      | error error => cases concludes
      | ok workerReadiness =>
        have both := Except.ok.inj concludes.symm
        rw [Bool.and_eq_true] at both
        obtain ⟨rfl, held⟩ := both
        exact ⟨checks, call, rfl, known, settled, checks_hold held⟩

/-- The promise of a call settles at most once, and to true only if there was a
worker to ask, every worker that was asked said yes before the timer fired, and
the primary's own checks all hold. -/
theorem ready_sound (options : Options) (events : List Event) :
    (∀ requestId, (((machine options).exec events).2.filter fun settlement =>
      settlement.requestId = requestId).length ≤ 1) ∧
    ∀ past event rest requestId, events = past ++ event :: rest →
      ⟨requestId, .ok true⟩ ∈ ((machine options).step ((machine options).exec past).1 event).2 →
        ∃ call checks, event = .settle requestId checks ∧
          ((machine options).exec past).1.calls requestId = some call ∧ call.sent ≠ [] ∧
          (∀ worker ∈ call.sent, (worker, .readiness true) ∈ call.timely) ∧ ∀ check ∈ checks, check = true := by
  constructor
  · intro requestId
    rw [settlements_exec, settledCount]
    split <;> omega
  · intro past event rest requestId split given
    obtain ⟨checks, call, rfl, known, yes⟩ := settles_true given
    obtain ⟨settled, held⟩ := yes
    obtain ⟨asked, ready⟩ := ((holds_exec options past).calls requestId call known).1.sure settled
    exact ⟨call, checks, rfl, known, asked, ready, held⟩

def options : Options := ⟨200, false, false⟩

/-- Two workers are asked twice, their answers cross, and the first call times out. -/
def answeredCrossed : List Event :=
  [.connect, .connect, .isReady, .isReady, .answer ⟨1, 1⟩ [true, true], .answer ⟨1, 0⟩ [true], .answer ⟨0, 1⟩ [true],
    .loseRequest ⟨0, 0⟩, .message ⟨1, 1, .readiness true⟩, .message ⟨1, 0, .readiness true⟩, .timeout 0,
    .message ⟨0, 1, .readiness true⟩, .settle 0 [true]]

theorem ready_sound_answeredCrossed :
    ∃ call checks, (Event.settle 1 [true, true] = .settle 1 checks) ∧
      ((machine options).exec answeredCrossed).1.calls 1 = some call ∧ call.sent ≠ [] ∧
      (∀ worker ∈ call.sent, (worker, .readiness true) ∈ call.timely) ∧ ∀ check ∈ checks, check = true :=
  (ready_sound options (answeredCrossed ++ [.settle 1 [true, true]])).2 answeredCrossed (.settle 1 [true, true]) [] 1
    rfl (.head _)

end Taql.ReadinessSafety
