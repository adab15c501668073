import Mathlib.Data.Finset.Card
import Taql.Runs

/-! `populateKnownQueries` of `packages/prereg/src/index.ts`, and the table it
polls. A poll takes its bound when it is issued, sees the table when the
database runs it, and changes what is known when its answer comes back; any
number of polls may be under way. -/
namespace Taql.KnownQueries
open Runs

/-- Microseconds since the epoch, which no row predates. -/
structure Timestamp where
  micros : Int
  afterEpoch : 0 < micros
  deriving DecidableEq

/-- What a commit made of a row: its `updated` column, and when the commit could be seen. -/
structure Version where
  updated : Timestamp
  visible : Int
  deriving DecidableEq

/-- A row of `t_graphql_operations`. The serial number tells a row from one that
is inserted under its id later; earlier versions of it are history. -/
structure Row where
  serial : Nat
  id : String
  current : Version
  earlier : List Version
  deriving DecidableEq

def Row.versions (row : Row) : List Version := row.current :: row.earlier

/-- A call of `populateKnownQueries` that has not returned: its bound in seconds,
the time and the step it was issued at, and the rows the database saw. -/
structure Poll where
  refresh : Bool
  bound : Int
  issued : Int
  issuedAt : Nat
  snapshot : Option (List Row)
  deriving DecidableEq

/-- The clock, the table and the polls under way; then the variables of the
module. No step reads `steps`, `removedAt` and `refreshes`: the number of steps so
far, the step an id last lost its row, and when the refreshes that completed
were issued. -/
structure State where
  clock : Int
  table : List Row
  inserted : Nat
  polls : List Poll
  knownQueries : Finset String
  MOST_RECENT_KNOWN : Int
  steps : Nat
  removedAt : String → Nat
  refreshes : List Nat

/-- What `populateKnownQueries` returns. -/
structure Populated where
  count : Int
  asOf : Option Int
  deriving DecidableEq

/-- Time passes, rows are inserted, updated and deleted, and polls are issued, run
by the database, and completed or failed. -/
inductive Event where
  | tick (elapsed : Nat)
  | insert (id : String) (updated : Timestamp)
  | update (id : String) (updated : Timestamp)
  | delete (id : String)
  | issue (refresh : Bool)
  | execute (index : Nat)
  | complete (index : Nat)
  | fail (index : Nat)
  deriving DecidableEq

/-- `extract(epoch from updated) > $1`. -/
def Row.newerThan (row : Row) (bound : Int) : Bool := bound * 1000000 < row.current.updated.micros

/-- The rows of an answer. -/
def Poll.answer (poll : Poll) (rows : List Row) : List Row := rows.filter fun row => row.newerThan poll.bound

/-- What `populateKnownQueries` sends to the database. -/
def State.issue (state : State) (refresh : Bool) : Poll where
  refresh := refresh
  bound := if refresh then 0 else state.MOST_RECENT_KNOWN
  issued := state.clock
  issuedAt := state.steps
  snapshot := none

/-- `Math.floor(Date.now() / 1000)`, the clock of `Date.now` counting milliseconds. -/
def State.now (state : State) : Int := state.clock / 1000 / 1000

/-- `populateKnownQueries`, from the rows the database answers with. -/
def State.populate (state : State) (poll : Poll) (answer : List Row) : State × Populated :=
  let cleared := if poll.refresh then ∅ else state.knownQueries
  let known := cleared ∪ (answer.map Row.id).toFinset
  ({ state with
      knownQueries := known
      MOST_RECENT_KNOWN := state.now - 5000
      refreshes := if poll.refresh then state.refreshes ++ [poll.issuedAt] else state.refreshes },
    ⟨known.card - state.knownQueries.card, some state.now⟩)

def Row.commit (row : Row) (updated : Timestamp) (clock : Int) : Row :=
  { row with current := ⟨updated, clock⟩, earlier := row.versions }

/-- An event. An insert under an id that has a row, and a poll that is not under
way or was not run yet, are no event. -/
def State.next (state : State) : Event → State × List Populated
  | .tick elapsed => ({ state with clock := state.clock + elapsed }, [])
  | .insert id updated =>
    if state.table.any fun row => row.id = id then (state, [])
    else
      ({ state with
          table := state.table ++ [⟨state.inserted, id, ⟨updated, state.clock⟩, []⟩]
          inserted := state.inserted + 1 }, [])
  | .update id updated =>
    ({ state with
        table := state.table.map fun row => if row.id = id then row.commit updated state.clock else row }, [])
  | .delete id =>
    if state.table.any fun row => row.id = id then
      ({ state with
          table := state.table.filter fun row => row.id ≠ id
          removedAt := Function.update state.removedAt id state.steps }, [])
    else (state, [])
  | .issue refresh => ({ state with polls := state.polls ++ [state.issue refresh] }, [])
  | .execute index =>
    ({ state with
        polls := state.polls.modify index fun poll =>
          { poll with snapshot := some (poll.snapshot.getD state.table) } }, [])
  | .complete index =>
    match state.polls[index]? with
    | none => (state, [])
    | some poll =>
      match poll.snapshot with
      | none => (state, [])
      | some rows =>
        let populated := { state with polls := state.polls.eraseIdx index }.populate poll (poll.answer rows)
        (populated.1, [populated.2])
  | .fail index =>
    match state.polls[index]? with
    | none => (state, [])
    | some _ => ({ state with polls := state.polls.eraseIdx index }, [⟨0, none⟩])

/-- What is known, and the refreshes there were, change when a poll completes. -/
theorem State.next_known (state : State) {event : Event} (other : ∀ index, event ≠ .complete index) :
    (state.next event).1.knownQueries = state.knownQueries ∧ (state.next event).1.refreshes = state.refreshes := by
  cases event with
  | tick | update | issue | execute => exact ⟨rfl, rfl⟩
  | complete index => exact absurd rfl (other index)
  | insert | delete | fail =>
    simp only [State.next]
    split <;> exact ⟨rfl, rfl⟩

/-- A poll is run once, on the table as it is then. -/
theorem State.mem_execute {state : State} {index : Nat} {poll : Poll}
    (member : poll ∈ (state.next (.execute index)).1.polls) :
    ∃ old ∈ state.polls, poll = old ∨ poll = { old with snapshot := some (old.snapshot.getD state.table) } := by
  obtain ⟨position, at_⟩ := List.mem_iff_getElem?.mp member
  simp only [State.next, List.getElem?_modify] at at_
  obtain ⟨old, was, is⟩ := Option.map_eq_some_iff.mp at_
  refine ⟨old, List.mem_of_getElem? was, ?_⟩
  split at is
  · exact .inr is.symm
  · exact .inl is.symm

/-- A poll under way was there before the step, is issued by it, or is run by it. -/
theorem State.mem_next_polls {state : State} {event : Event} {poll : Poll}
    (member : poll ∈ (state.next event).1.polls) :
    poll ∈ state.polls ∨ poll.issuedAt = state.steps ∧ poll.snapshot = none ∨
      ∃ index, event = .execute index ∧ ∃ old ∈ state.polls,
        poll = { old with snapshot := some (old.snapshot.getD state.table) } := by
  cases event with
  | tick | update => exact .inl member
  | insert | delete =>
    simp only [State.next] at member
    split at member <;> exact .inl member
  | issue refresh =>
    rcases List.mem_append.mp member with old | new
    · exact .inl old
    · rw [List.mem_singleton.mp new]
      exact .inr (.inl ⟨rfl, rfl⟩)
  | execute index =>
    obtain ⟨old, was, rfl | ran⟩ := State.mem_execute member
    · exact .inl was
    · exact .inr (.inr ⟨index, rfl, old, was, ran⟩)
  | complete index =>
    simp only [State.next] at member
    split at member
    · exact .inl member
    · split at member
      · exact .inl member
      · exact .inl (List.mem_of_mem_eraseIdx member)
  | fail index =>
    simp only [State.next] at member
    split at member
    · exact .inl member
    · exact .inl (List.mem_of_mem_eraseIdx member)

/-- The state an answer comes back to, and what it makes of it. -/
def State.answered (state : State) (index : Nat) (poll : Poll) (rows : List Row) : State × Populated :=
  { state with polls := state.polls.eraseIdx index }.populate poll (poll.answer rows)

theorem State.mem_answered {state : State} {index : Nat} {poll : Poll} {rows : List Row} {id : String} :
    id ∈ (state.answered index poll rows).1.knownQueries ↔
      (poll.refresh = false ∧ id ∈ state.knownQueries) ∨ ∃ row ∈ poll.answer rows, row.id = id := by
  simp only [State.answered, State.populate, Finset.mem_union, List.mem_toFinset, List.mem_map]
  cases poll.refresh <;> simp

theorem State.next_complete (state : State) {index : Nat} {poll : Poll} {rows : List Row}
    (at_ : state.polls[index]? = some poll) (ran : poll.snapshot = some rows) :
    state.next (.complete index) = ((state.answered index poll rows).1, [(state.answered index poll rows).2]) := by
  simp only [State.next, at_, ran]
  rfl

/-- A poll completes if the database ran it; otherwise nothing happens. -/
theorem State.complete_cases (state : State) (index : Nat) :
    (∃ poll rows, state.polls[index]? = some poll ∧ poll.snapshot = some rows) ∨
      state.next (.complete index) = (state, []) := by
  cases at_ : state.polls[index]? with
  | none => exact .inr (by simp only [State.next, at_])
  | some poll =>
    cases ran : poll.snapshot with
    | none => exact .inr (by simp only [State.next, at_, ran])
    | some rows => exact .inl ⟨poll, rows, rfl, ran⟩

/-- The process and its database, from a time when the table has no rows. -/
def machine (clock : Int) : Machine State Event Populated where
  start := ⟨clock, [], 0, [], ∅, 0, 1, fun _ => 0, []⟩
  step state event :=
    let next := state.next event
    ({ next.1 with steps := state.steps + 1 }, next.2)

@[simp] theorem step_knownQueries (clock : Int) (state : State) (event : Event) :
    ((machine clock).step state event).1.knownQueries = (state.next event).1.knownQueries := rfl

@[simp] theorem step_MOST_RECENT_KNOWN (clock : Int) (state : State) (event : Event) :
    ((machine clock).step state event).1.MOST_RECENT_KNOWN = (state.next event).1.MOST_RECENT_KNOWN := rfl

end Taql.KnownQueries
