import Taql.KnownQueries

/-! A refresh drops what it did not see, but a poll that saw the table earlier may
still come back after it, and nothing orders the two. What such a poll adds again
is exactly what is known of rows that are gone. -/
namespace Taql.PollRemovals
open KnownQueries Runs

def Lacks (state : State) (id : String) : Prop := ∀ row ∈ state.table, row.id ≠ id

/-- An id without a row since before a refresh that has completed was issued. -/
def Removed (state : State) (id : String) : Prop :=
  Lacks state id ∧ ∃ issuedAt ∈ state.refreshes, state.removedAt id < issuedAt

/-- No removed id is known. -/
def RemovalsHold (state : State) : Prop := ∀ id, Removed state id → id ∉ state.knownQueries

/-- A poll completes with a row of a removed id. -/
def Revives (state : State) : Event → Prop
  | .complete index => ∃ poll rows, state.polls[index]? = some poll ∧ poll.snapshot = some rows ∧
      ∃ row ∈ poll.answer rows, Removed state row.id
  | _ => False

/-- Steps are numbered as they happen: a poll saw a row that is gone before it
was removed, and was issued before it saw it. -/
structure Ordered (state : State) : Prop where
  issued : ∀ poll ∈ state.polls, poll.issuedAt < state.steps
  seen : ∀ poll ∈ state.polls, ∀ rows, poll.snapshot = some rows → ∀ row ∈ rows, Lacks state row.id →
    poll.issuedAt < state.removedAt row.id
  refreshes : ∀ issuedAt ∈ state.refreshes, issuedAt < state.steps

section Steps
variable {state : State}

/-- An id that has no row after a step had none before, or loses it now. -/
theorem lost_cases (event : Event) {id : String} (gone : Lacks (state.next event).1 id) :
    Lacks state id ∧ (state.next event).1.removedAt id = state.removedAt id ∨
      (state.next event).1.removedAt id = state.steps := by
  cases event with
  | tick | issue | execute => exact .inl ⟨gone, rfl⟩
  | insert id' updated =>
    simp only [State.next] at gone ⊢
    split at gone <;> rename_i there
    · rw [if_pos there]
      exact .inl ⟨gone, rfl⟩
    · rw [if_neg there]
      exact .inl ⟨fun row held => gone row (List.mem_append_left _ held), rfl⟩
  | update id' updated =>
    refine .inl ⟨fun row held => ?_, rfl⟩
    have gone := gone _ (List.mem_map_of_mem held)
    split at gone <;> exact gone
  | delete id' =>
    simp only [State.next] at gone ⊢
    split at gone <;> rename_i there
    · rw [if_pos there]
      by_cases same : id = id'
      · right
        simp only [same, Function.update_self]
      · refine .inl ⟨fun row held is => ?_, Function.update_of_ne same _ _⟩
        exact gone row (List.mem_filter.mpr ⟨held, by simpa [is] using same⟩) is
    · rw [if_neg there]
      exact .inl ⟨gone, rfl⟩
  | complete index =>
    rcases state.complete_cases index with ⟨poll, rows, at_, ran⟩ | nothing
    · rw [state.next_complete at_ ran] at gone ⊢
      exact .inl ⟨gone, rfl⟩
    · rw [nothing] at gone ⊢
      exact .inl ⟨gone, rfl⟩
  | fail index =>
    simp only [State.next] at gone ⊢
    split at gone <;> exact .inl ⟨gone, rfl⟩

/-- A refresh that has completed had, or is that of a poll that was under way. -/
theorem mem_next_refreshes {event : Event} {issuedAt : Nat} (member : issuedAt ∈ (state.next event).1.refreshes) :
    issuedAt ∈ state.refreshes ∨ ∃ poll ∈ state.polls, poll.issuedAt = issuedAt := by
  by_cases completes : ∃ index, event = .complete index
  · obtain ⟨index, rfl⟩ := completes
    rcases state.complete_cases index with ⟨poll, rows, at_, ran⟩ | nothing
    · rw [state.next_complete at_ ran] at member
      simp only [State.answered, State.populate] at member
      split at member
      · rcases List.mem_append.mp member with old | new
        · exact .inl old
        · exact .inr ⟨poll, List.mem_of_getElem? at_, (List.mem_singleton.mp new).symm⟩
      · exact .inl member
    · rw [nothing] at member
      exact .inl member
  · rw [(state.next_known fun index is => completes ⟨index, is⟩).2] at member
    exact .inl member

theorem ordered_step (clock : Int) (ordered : Ordered state) (event : Event) :
    Ordered ((machine clock).step state event).1 where
  issued poll member := by
    have earlier (old) (was : old ∈ state.polls) : old.issuedAt < state.steps + 1 :=
      Nat.lt_succ_of_lt (ordered.issued old was)
    rcases State.mem_next_polls member with old | ⟨new, _⟩ | ⟨index, _, old, was, rfl⟩
    · exact earlier poll old
    · rw [new]
      exact Nat.lt_succ_self _
    · exact earlier old was
  seen poll member rows ran row isSeen gone := by
    have earlier (old) (was : old ∈ state.polls) (held : old.snapshot = some rows) :
        old.issuedAt < (state.next event).1.removedAt row.id := by
      rcases lost_cases event gone with ⟨before, same⟩ | now
      · rw [same]
        exact ordered.seen old was rows held row isSeen before
      · rw [now]
        exact ordered.issued old was
    rcases State.mem_next_polls member with old | ⟨_, unseen⟩ | ⟨index, rfl, old, was, rfl⟩
    · exact earlier poll old ran
    · rw [unseen] at ran
      cases ran
    · cases held : old.snapshot with
      | some rows' =>
        simp only [held, Option.getD_some, Option.some.injEq] at ran
        exact earlier old was (ran ▸ held)
      | none =>
        simp only [held, Option.getD_none, Option.some.injEq] at ran
        exact absurd rfl (gone row (ran ▸ isSeen))
  refreshes issuedAt member := by
    rcases mem_next_refreshes member with old | ⟨poll, underway, rfl⟩
    · exact Nat.lt_succ_of_lt (ordered.refreshes issuedAt old)
    · exact Nat.lt_succ_of_lt (ordered.issued poll underway)

/-- Only a refresh that completes makes a removal one that has to hold. -/
theorem removed_before (ordered : Ordered state) {event : Event} (other : ∀ index, event ≠ .complete index)
    {id : String} (removed : Removed (state.next event).1 id) : Removed state id := by
  obtain ⟨gone, issuedAt, refresh, before⟩ := removed
  rw [(state.next_known other).2] at refresh
  rcases lost_cases event gone with ⟨lacked, same⟩ | now
  · rw [same] at before
    exact ⟨lacked, issuedAt, refresh, before⟩
  · have issued := ordered.refreshes issuedAt refresh
    omega

/-- What a refresh saw has a row, or lost it after the refresh was issued. -/
theorem removed_of_answered {index : Nat} {poll : Poll} {rows : List Row} {id : String}
    (removed : Removed (state.answered index poll rows).1 id) :
    Removed state id ∨ poll.refresh = true ∧ Lacks state id ∧ state.removedAt id < poll.issuedAt := by
  obtain ⟨gone, issuedAt, refresh, before⟩ := removed
  simp only [State.answered, State.populate] at refresh
  split at refresh
  · rename_i full
    rcases List.mem_append.mp refresh with old | new
    · exact .inl ⟨gone, issuedAt, old, before⟩
    · rw [List.mem_singleton.mp new] at before
      exact .inr ⟨full, gone, before⟩
  · exact .inl ⟨gone, issuedAt, refresh, before⟩

private theorem removed_answered {index : Nat} {poll : Poll} {rows : List Row} {id : String}
    (removed : Removed state id) : Removed (state.answered index poll rows).1 id := by
  obtain ⟨gone, issuedAt, refresh, before⟩ := removed
  refine ⟨gone, issuedAt, ?_, before⟩
  simp only [State.answered, State.populate]
  split
  · exact List.mem_append_left _ refresh
  · exact refresh

/-- No removed id is known after a step exactly when the step revives none. -/
theorem removals_step (ordered : Ordered state) (holds : RemovalsHold state) (event : Event) :
    RemovalsHold (state.next event).1 ↔ ¬Revives state event := by
  by_cases completes : ∃ index, event = .complete index
  · obtain ⟨index, rfl⟩ := completes
    rcases state.complete_cases index with ⟨poll, rows, at_, ran⟩ | nothing
    · rw [state.next_complete at_ ran]
      constructor
      · rintro held ⟨poll', rows', at', ran', row, member, removed⟩
        cases at_.symm.trans at'
        cases ran.symm.trans ran'
        exact held row.id (removed_answered removed) (State.mem_answered.mpr (.inr ⟨row, member, rfl⟩))
      · intro calm id removed known
        rcases State.mem_answered.mp known with ⟨incremental, earlier⟩ | ⟨row, member, rfl⟩
        · rcases removed_of_answered removed with before | ⟨full, _⟩
          · exact holds id before earlier
          · rw [full] at incremental
            cases incremental
        · rcases removed_of_answered removed with before | ⟨_, gone, before⟩
          · exact calm ⟨poll, rows, at_, ran, row, member, before⟩
          · have saw := ordered.seen poll (List.mem_of_getElem? at_) rows ran row (List.mem_of_mem_filter member) gone
            omega
    · rw [nothing]
      refine ⟨fun _ revives => ?_, fun _ => holds⟩
      obtain ⟨poll, rows, at_, ran, _⟩ := revives
      have answered := congrArg (fun next => next.2.length) (nothing.symm.trans (state.next_complete at_ ran))
      cases answered
  · have other : ∀ index, event ≠ .complete index := fun index is => completes ⟨index, is⟩
    constructor
    · intro _ revives
      cases event with
      | complete index => exact other index rfl
      | tick | insert | update | delete | issue | execute | fail => exact revives
    · intro _ id removed known
      rw [(state.next_known other).1] at known
      exact holds id (removed_before ordered other removed) known

end Steps

theorem ordered_exec (clock : Int) (events : List Event) : Ordered ((machine clock).exec events).1 :=
  (machine clock).exec_invariant (fun _ => Ordered) ⟨nofun, nofun, nofun⟩
    (fun _ event ordered => ordered_step clock ordered event) events

/-- While no poll revives a removed id, none is known. -/
theorem removals_exec (clock : Int) {events : List Event}
    (calm : (machine clock).Always (fun state event => ¬Revives state event) events) :
    RemovalsHold ((machine clock).exec events).1 := by
  refine ((machine clock).exec_invariant_of_always (fun state => Ordered state ∧ RemovalsHold state)
    ⟨ordered_exec clock [], fun id _ => Finset.notMem_empty id⟩ ?_ events calm).2
  rintro state event ⟨ordered, holds⟩ calm
  exact ⟨ordered_step clock ordered event, (removals_step ordered holds event).mpr calm⟩

/-- A poll that completes after a refresh it was issued before: nothing else
revives a row. -/
theorem overtaken_of_revives {clock : Int} {events : List Event} {index : Nat}
    (revives : Revives ((machine clock).exec events).1 (.complete index)) :
    ∃ poll, ((machine clock).exec events).1.polls[index]? = some poll ∧
      ∃ issuedAt ∈ ((machine clock).exec events).1.refreshes, poll.issuedAt < issuedAt := by
  obtain ⟨poll, rows, at_, ran, row, member, gone, issuedAt, refresh, before⟩ := revives
  have saw := (ordered_exec clock events).seen poll (List.mem_of_getElem? at_) rows ran row
    (List.mem_of_mem_filter member) gone
  exact ⟨poll, at_, issuedAt, refresh, by omega⟩

/-- No removed id is ever known in a run exactly when no poll completes with a row
that was removed before a refresh was issued which has completed by then. -/
theorem removals_take_effect_iff (clock : Int) (events : List Event) :
    (∀ past rest, events = past ++ rest → RemovalsHold ((machine clock).exec past).1) ↔
      (machine clock).Always (fun state event => ¬Revives state event) events := by
  apply (machine clock).throughout_iff (ordered_exec clock)
  · exact fun id _ => Finset.notMem_empty id
  · intro state event ordered holds
    exact removals_step ordered holds event

/-- A poll is still under way when the next one, a refresh, is issued. Its row was
deleted in between, and it comes back last. -/
def overtaken : List Event :=
  [.issue false, .execute 0, .complete 0, .insert "hotels" ⟨1700000000000000, by decide⟩, .issue false, .execute 0,
    .delete "hotels", .tick 30000000, .issue true, .execute 1, .complete 1, .complete 0]

theorem removals_overtaken : ¬RemovalsHold ((machine 1700000000000000).exec overtaken).1 := by
  intro holds
  exact holds "hotels" ⟨nofun, 9, .head _, by decide⟩ (by decide)

/-- Polls that are never overtaken by a refresh: one that completes was issued no
earlier than any refresh that has completed. -/
def InOrder (state : State) : Event → Prop
  | .complete index => ∀ poll, state.polls[index]? = some poll → ∀ issuedAt ∈ state.refreshes, issuedAt ≤ poll.issuedAt
  | _ => True

/-- If the answers came back in the order of their polls, removals would hold. -/
theorem removals_of_inOrder (clock : Int) {events : List Event}
    (inOrder : (machine clock).Always InOrder events) : RemovalsHold ((machine clock).exec events).1 := by
  apply removals_exec clock
  intro past event rest split revives
  have order := inOrder past event rest split
  cases event with
  | complete index =>
    obtain ⟨poll, at_, issuedAt, refresh, before⟩ := overtaken_of_revives revives
    have after := order poll at_ issuedAt refresh
    omega
  | tick | insert | update | delete | issue | execute | fail => exact revives

end Taql.PollRemovals
