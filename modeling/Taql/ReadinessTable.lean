import Taql.ReadinessSafety

/-! The entries of calls that have settled. Only the last response of a call takes
its entry away; a call that was sent to nobody has none, and a worker that is gone
sends none. -/
namespace Taql.ReadinessTable
open Readiness ReadinessSafety Runs

/-- A connected worker has not answered the call it was sent. -/
def Owes (workers : List Nat) (call : Call) (worker : Nat) : Prop :=
  worker ∈ call.sent ∧ worker ∉ call.answered.map Prod.fst ∧ worker ∈ workers

/-- Every entry is of a call that has not settled, or that awaits the response of
a connected worker. -/
def Clean (state : State) : Prop :=
  ∀ requestId call, (state.requests requestId).isSome = true → state.calls requestId = some call →
    call.finished = false ∨ ∃ worker, Owes state.workers call worker

/-- The last response has not come: there is none to come, or one that has not. -/
def Incomplete (call : Call) : Prop :=
  call.sent = [] ∨ ∃ worker ∈ call.sent, worker ∉ call.answered.map Prod.fst

/-- No connected worker will complete the call. -/
def Abandoned (workers : List Nat) (call : Call) : Prop := Incomplete call ∧ ∀ worker, ¬Owes workers call worker

/-- A call settles although it is abandoned, or it has settled and the one worker
it still awaited disconnects, or answers while others that did not are gone. -/
def Strands (state : State) : Event → Prop
  | .settle requestId _ => ∃ call outcome, state.calls requestId = some call ∧ call.settled = some outcome ∧
      call.finished = false ∧ Abandoned state.workers call
  | .disconnect worker => ∃ requestId call, state.calls requestId = some call ∧ call.finished = true ∧
      Owes state.workers call worker ∧ Abandoned (state.workers.erase worker) call
  | .message response => response ∈ state.toPrimary ∧ ∃ call, state.calls response.requestId = some call ∧
      call.finished = true ∧ Abandoned state.workers (call.hear response.worker response.reply)
  | _ => False

section Steps
variable {state : State}

/-- A call has an entry exactly until it is complete. -/
theorem present_iff {entry : Option ReadinessRequest} {flying : List Nat} {call : Call} (sound : Sound flying call)
    (tracks : Tracks entry call) : entry.isSome = true ↔ Incomplete call := by
  rw [tracks.present]
  refine or_congr_right ⟨fun fewer => ?_, ?_⟩
  · by_contra all
    have covered : call.sent ⊆ call.answered.map Prod.fst := by
      intro worker asked
      by_contra silent
      exact all ⟨worker, asked, silent⟩
    have most := (sound.distinct.subperm covered).length_le
    rw [List.length_map] at most
    omega
  · rintro ⟨worker, asked, silent⟩
    by_contra all
    obtain ⟨reply, answered⟩ := sound.answered_all (by omega) asked
    exact silent (List.mem_map_of_mem answered)

/-- No settled call is abandoned. -/
def Quiet (state : State) : Prop :=
  ∀ requestId call, state.calls requestId = some call → call.finished = true → ¬Abandoned state.workers call

theorem clean_iff (holds : Holds state) : Clean state ↔ Quiet state := by
  refine forall_congr' fun requestId => forall_congr' fun call => ?_
  constructor
  · rintro clean known finished ⟨incomplete, none⟩
    obtain ⟨sound, tracks⟩ := holds.calls requestId call known
    rcases clean ((present_iff sound tracks).mpr incomplete) known with unsettled | ⟨worker, owes⟩
    · rw [unsettled] at finished
      cases finished
    · exact none worker owes
  · intro quiet entry known
    obtain ⟨sound, tracks⟩ := holds.calls requestId call known
    cases settled : call.finished with
    | false => exact .inl rfl
    | true =>
      right
      by_contra none
      exact quiet known settled ⟨(present_iff sound tracks).mp entry, fun worker owes => none ⟨worker, owes⟩⟩

theorem abandoned_congr {workers : List Nat} {call call' : Call} (sent : call'.sent = call.sent)
    (answered : call'.answered = call.answered) : Abandoned workers call' ↔ Abandoned workers call := by
  unfold Abandoned Incomplete Owes
  rw [sent, answered]

theorem quiet_put (quiet : Quiet state) (requestId : Nat) (entry : Option ReadinessRequest) (call' : Call) :
    Quiet (state.put requestId entry call') ↔ (call'.finished = true → ¬Abandoned state.workers call') := by
  constructor
  · intro after
    exact after requestId call' (by simp [State.put])
  · intro own other call known
    by_cases same : other = requestId
    · simp only [State.put, same, Function.update_self, Option.some.injEq] at known
      exact known ▸ own
    · simp only [State.put, Function.update_of_ne same] at known
      exact quiet other call known

/-- A change of a call that leaves the responses and the promise alone. -/
theorem quiet_put_of_same (quiet : Quiet state) {requestId : Nat} {entry : Option ReadinessRequest} {call call' : Call}
    (known : state.calls requestId = some call) (finished : call'.finished = call.finished)
    (sent : call'.sent = call.sent) (answered : call'.answered = call.answered) :
    Quiet (state.put requestId entry call') := by
  rw [quiet_put quiet requestId, finished, abandoned_congr sent answered]
  exact quiet requestId call known

/-- A response that is under way is one its call waits for. -/
theorem awaited (holds : Holds state) {response : Response} (came : response ∈ state.toPrimary) :
    ∃ call request, state.calls response.requestId = some call ∧ state.requests response.requestId = some request := by
  have flying := (inFlight_message came response.requestId).length_eq
  rw [if_pos rfl, List.singleton_append, List.length_cons] at flying
  cases known : state.calls response.requestId with
  | none =>
    rw [(holds.unknown _ known).2] at flying
    cases flying
  | some call =>
    obtain ⟨sound, tracks⟩ := holds.calls _ call known
    have counted := sound.counted.length_le
    rw [List.length_append, List.length_map] at counted
    obtain ⟨request, entry⟩ := Option.isSome_iff_exists.mp (tracks.present.mpr (.inr (by omega)))
    exact ⟨call, request, rfl, entry⟩

theorem quiet_message (options : Options) (holds : Holds state) (quiet : Quiet state) (response : Response) :
    Quiet (state.next options (.message response)).1 ↔ ¬Strands state (.message response) := by
  rcases message_cases options state response with ⟨lost, step⟩ | ⟨came, ⟨unmatched, _⟩ | handled⟩
  · rw [step]
    exact ⟨fun _ strands => lost strands.1, fun _ => quiet⟩
  · obtain ⟨call, request, known, entry⟩ := awaited holds came
    exact absurd ⟨request, call, entry, known⟩ unmatched
  · obtain ⟨request, call, _, known, step⟩ := handled
    rw [step]
    have same : ((onResponse request call response.worker response.reply).2.sent =
        (call.hear response.worker response.reply).sent) ∧
        (onResponse request call response.worker response.reply).2.answered =
          (call.hear response.worker response.reply).answered := by
      obtain ⟨sent, answered⟩ := sent_shortCircuit call response.worker response.reply
      unfold onResponse
      simp only
      split
      · rw [done_sent, done_answered, sent, answered]
        exact ⟨rfl, rfl⟩
      · exact ⟨sent, answered⟩
    have heard : Quiet { state with toPrimary := state.toPrimary.erase response } := quiet
    rw [quiet_put heard, onResponse_finished, abandoned_congr same.1 same.2]
    constructor
    · rintro after ⟨_, call', known', finished, abandoned⟩
      cases known.symm.trans known'
      exact after finished abandoned
    · exact fun calm finished abandoned => calm ⟨came, call, known, finished, abandoned⟩

theorem quiet_step (options : Options) (holds : Holds state) (quiet : Quiet state) (event : Event) :
    Quiet (state.next options event).1 ↔ ¬Strands state event := by
  cases event with
  | connect =>
    refine ⟨fun _ strands => strands, fun _ requestId call known finished abandoned => ?_⟩
    refine quiet requestId call known finished ⟨abandoned.1, fun worker owes => ?_⟩
    exact abandoned.2 worker ⟨owes.1, owes.2.1, List.mem_append_left _ owes.2.2⟩
  | disconnect worker =>
    constructor
    · rintro after ⟨requestId, call, known, finished, _, abandoned⟩
      exact after requestId call known finished abandoned
    · intro calm requestId call known finished abandoned
      obtain ⟨other, owes⟩ : ∃ other, Owes state.workers call other := by
        by_contra none
        exact quiet requestId call known finished ⟨abandoned.1, fun worker owes => none ⟨worker, owes⟩⟩
      have gone : other = worker := by
        by_contra differs
        exact abandoned.2 other ⟨owes.1, owes.2.1, (List.mem_erase_of_ne differs).mpr owes.2.2⟩
      exact calm ⟨requestId, call, known, finished, gone ▸ owes, abandoned⟩
  | isReady =>
    refine ⟨fun _ strands => strands, fun _ => ?_⟩
    have put := (quiet_put quiet state.requestIdSeq (some (started state.workers).1) (started state.workers).2).mpr
      fun finished => Bool.noConfusion finished
    exact fun requestId call known => put requestId call known
  | answer request checks =>
    refine ⟨fun _ strands => strands, fun _ => ?_⟩
    simp only [State.next]
    split <;> exact quiet
  | loseRequest | loseResponse => exact ⟨fun _ strands => strands, fun _ => quiet⟩
  | message response => exact quiet_message options holds quiet response
  | timeout requestId =>
    refine ⟨fun _ strands => strands, fun _ => ?_⟩
    rcases timeout_cases options state requestId with step | ⟨request, call, _, known, _, step⟩ <;> rw [step]
    · exact quiet
    · exact quiet_put_of_same quiet known (done_finished _ _) (done_sent _ _) (done_answered _ _)
  | nextTick requestId =>
    refine ⟨fun _ strands => strands, fun _ => ?_⟩
    rcases nextTick_cases options state requestId with step | ⟨call, known, _, step⟩ <;> rw [step]
    · exact quiet
    · exact quiet_put_of_same quiet known (done_finished _ _) (done_sent _ _) (done_answered _ _)
  | settle requestId checks =>
    rcases settle_cases options state requestId checks with ⟨idle, step⟩ | ⟨call, outcome, settles, step⟩ <;> rw [step]
    · refine ⟨fun _ => ?_, fun _ => quiet⟩
      rintro ⟨call, outcome, known, settled, pending, _⟩
      exact idle ⟨call, outcome, known, settled, pending⟩
    · obtain ⟨known, settled, pending⟩ := settles
      rw [quiet_put quiet]
      constructor
      · rintro after ⟨call', outcome', is, _, _, abandoned⟩
        cases known.symm.trans is
        exact after rfl abandoned
      · exact fun calm _ abandoned => calm ⟨call, outcome, known, settled, pending, abandoned⟩

end Steps

/-- The table is clean in every state of a run exactly when no step strands a call. -/
theorem table_clean_iff (options : Options) (events : List Event) :
    (∀ past rest, events = past ++ rest → Clean ((machine options).exec past).1) ↔
      (machine options).Always (fun state event => ¬Strands state event) events := by
  apply (machine options).throughout_iff (holds_exec options)
  · exact nofun
  · intro state event holds clean
    have after : Holds ((machine options).step state event).1 := holds_step options holds event
    rw [clean_iff after]
    exact quiet_step options holds ((clean_iff holds).mp clean) event

/-- A probe of a primary without workers, and one whose only worker exits before it answers. -/
theorem table_leaks :
    ¬Clean ((machine options).exec [.isReady, .nextTick 0, .settle 0 []]).1 ∧
    ¬Clean ((machine options).exec [.connect, .isReady, .disconnect 0, .timeout 0, .settle 0 []]).1 := by
  constructor <;> intro clean
  · rcases clean 0 _ rfl rfl with unsettled | ⟨worker, asked, _⟩
    · cases unsettled
    · cases asked
  · rcases clean 0 _ rfl rfl with unsettled | ⟨worker, _, _, connected⟩
    · cases unsettled
    · cases connected

end Taql.ReadinessTable
