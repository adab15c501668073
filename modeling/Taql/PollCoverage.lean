import Mathlib.Tactic.Linarith
import Taql.KnownQueries

/-! Every id a poll could have missed was seen by an earlier one. A bound is
5000 seconds behind the completion that set it, so a row no newer than the bound
could be seen when that poll, or any that completes later, was issued: it is in the
snapshot of each of them, and no refresh among them drops it. -/
namespace Taql.PollCoverage
open KnownQueries Runs

/-- What is known of the rows of the table: how long it took until a version
could be seen, and that serial numbers tell rows apart. -/
structure TableHolds (lag clock : Int) (inserted : Nat) (table : List Row) : Prop where
  dated : ∀ row ∈ table, ∀ version ∈ row.versions,
    version.visible ≤ clock ∧ version.visible - version.updated.micros ≤ lag
  numbered : ∀ row ∈ table, row.serial < inserted
  unique : (table.map Row.serial).Nodup

/-- What a poll has seen: every row that was there when it was issued, and each
row in a version the row still has. -/
structure Sees (clock : Int) (inserted : Nat) (table : List Row) (poll : Poll) : Prop where
  issued : poll.issued ≤ clock
  full : poll.refresh = true → poll.bound = 0
  present : ∀ rows, poll.snapshot = some rows → ∀ row ∈ table, ∀ version ∈ row.versions,
    version.visible < poll.issued → ∃ seen ∈ rows, seen.serial = row.serial
  numbered : ∀ rows, poll.snapshot = some rows → ∀ seen ∈ rows, seen.serial < inserted
  same : ∀ rows, poll.snapshot = some rows → ∀ seen ∈ rows, ∀ row ∈ table, row.serial = seen.serial →
    row.id = seen.id ∧ seen.current ∈ row.versions

/-- A bound that is 5000 seconds old, or the one the module starts with. -/
def Aged (clock bound : Int) : Prop := bound = 0 ∨ bound * 1000000 + 5000000000 ≤ clock

/-- Every row that ever was no newer than the bound is known. -/
def Knows (knownQueries : Finset String) (table : List Row) (bound : Int) : Prop :=
  ∀ row ∈ table, ∀ version ∈ row.versions, version.updated.micros ≤ bound * 1000000 → row.id ∈ knownQueries

structure Covered (lag : Int) (state : State) : Prop where
  table : TableHolds lag state.clock state.inserted state.table
  polls : ∀ poll ∈ state.polls, Sees state.clock state.inserted state.table poll ∧ Aged state.clock poll.bound ∧
    Knows state.knownQueries state.table poll.bound
  mark : Aged state.clock state.MOST_RECENT_KNOWN ∧ Knows state.knownQueries state.table state.MOST_RECENT_KNOWN

theorem knows_zero (knownQueries : Finset String) (table : List Row) : Knows knownQueries table 0 := by
  intro row _ version _ old
  have dated := version.updated.afterEpoch
  omega

theorem Aged.later {clock clock' bound : Int} (aged : Aged clock bound) (later : clock ≤ clock') :
    Aged clock' bound := by
  unfold Aged at *
  omega

/-- The database runs a poll on the table as it is. -/
theorem Sees.run {lag clock : Int} {inserted : Nat} {table : List Row} {poll : Poll}
    (sees : Sees clock inserted table poll) (holds : TableHolds lag clock inserted table) :
    Sees clock inserted table { poll with snapshot := some (poll.snapshot.getD table) } := by
  cases ran : poll.snapshot with
  | some rows =>
    rw [Option.getD_some, ← ran]
    exact sees
  | none =>
    refine ⟨sees.issued, sees.full, fun rows is row member _ _ _ => ?_, fun rows is seen member => ?_,
      fun rows is seen isSeen row member serial => ?_⟩
    · cases is
      exact ⟨row, member, rfl⟩
    · cases is
      exact holds.numbered seen member
    · cases is
      rw [List.inj_on_of_nodup_map holds.unique member isSeen serial]
      exact ⟨rfl, List.mem_cons_self⟩

/-- One commit: every row is new, or was there and may have a new version. -/
structure Commits (lag clock : Int) (inserted inserted' : Nat) (table table' : List Row) : Prop where
  grows : inserted ≤ inserted'
  unique : (table'.map Row.serial).Nodup
  comes : ∀ row' ∈ table', row'.serial < inserted' ∧
    (∀ version ∈ row'.versions, version.visible = clock ∧ version.visible - version.updated.micros ≤ lag ∨
      ∃ row ∈ table, row.serial = row'.serial ∧ row.id = row'.id ∧ version ∈ row.versions) ∧
    (row'.serial < inserted → ∃ row ∈ table, row.serial = row'.serial ∧ row.id = row'.id ∧
      ∀ version ∈ row.versions, version ∈ row'.versions)

section Commits
variable {lag clock : Int} {inserted inserted' : Nat} {table table' : List Row}

theorem Commits.holds (commits : Commits lag clock inserted inserted' table table')
    (holds : TableHolds lag clock inserted table) : TableHolds lag clock inserted' table' where
  dated row' member version is := by
    rcases (commits.comes row' member).2.1 version is with ⟨fresh, inTime⟩ | ⟨row, was, _, _, old⟩
    · exact ⟨fresh.le, inTime⟩
    · exact holds.dated row was version old
  numbered row' member := (commits.comes row' member).1
  unique := commits.unique

theorem Commits.sees (commits : Commits lag clock inserted inserted' table table') {poll : Poll}
    (sees : Sees clock inserted table poll) : Sees clock inserted' table' poll where
  issued := sees.issued
  full := sees.full
  present rows ran row' member version is before := by
    rcases (commits.comes row' member).2.1 version is with ⟨fresh, _⟩ | ⟨row, was, serial, _, old⟩
    · have issued := sees.issued
      omega
    · rw [← serial]
      exact sees.present rows ran row was version old before
  numbered rows ran seen member := (sees.numbered rows ran seen member).trans_le commits.grows
  same rows ran seen member row' member' serial := by
    have numbered := sees.numbered rows ran seen member
    obtain ⟨row, was, sameSerial, sameId, kept⟩ := (commits.comes row' member').2.2 (by omega)
    obtain ⟨id, current⟩ := sees.same rows ran seen member row was (sameSerial.trans serial)
    exact ⟨sameId ▸ id, kept _ current⟩

theorem Commits.knows (commits : Commits lag clock inserted inserted' table table') (short : lag < 5000000000)
    {bound : Int} (aged : Aged clock bound) {knownQueries : Finset String} (knows : Knows knownQueries table bound) :
    Knows knownQueries table' bound := by
  intro row' member version is old
  rcases (commits.comes row' member).2.1 version is with ⟨fresh, inTime⟩ | ⟨row, was, _, id, had⟩
  · have dated := version.updated.afterEpoch
    unfold Aged at aged
    omega
  · rw [← id]
    exact knows row was version had old

end Commits

theorem Covered.commit {lag : Int} {state : State} (covered : Covered lag state) (short : lag < 5000000000)
    {inserted : Nat} {table : List Row}
    (commits : Commits lag state.clock state.inserted inserted state.table table) (removedAt : String → Nat) :
    Covered lag { state with table := table, inserted := inserted, removedAt := removedAt } where
  table := commits.holds covered.table
  polls poll member := by
    obtain ⟨sees, aged, knows⟩ := covered.polls poll member
    exact ⟨commits.sees sees, aged, commits.knows short aged knows⟩
  mark := ⟨covered.mark.1, commits.knows short covered.mark.1 covered.mark.2⟩

/-- The answer of a poll, with what it does not drop, has every row that could be
seen when the poll was issued. -/
theorem known_of_present {state : State} {poll : Poll} {rows : List Row}
    (sees : Sees state.clock state.inserted state.table poll)
    (knows : Knows state.knownQueries state.table poll.bound) (ran : poll.snapshot = some rows) {seen row : Row}
    (isSeen : seen ∈ rows) (member : row ∈ state.table) (serial : row.serial = seen.serial) (index : Nat) :
    row.id ∈ (state.answered index poll rows).1.knownQueries := by
  obtain ⟨id, current⟩ := sees.same rows ran seen isSeen row member serial
  rw [State.mem_answered]
  by_cases newer : seen.newerThan poll.bound = true
  · exact .inr ⟨seen, List.mem_filter.mpr ⟨isSeen, newer⟩, id.symm⟩
  · have old : seen.current.updated.micros ≤ poll.bound * 1000000 := by
      simpa [Row.newerThan] using newer
    have incremental : poll.refresh = false := by
      by_contra refresh
      have dated := seen.current.updated.afterEpoch
      have zero := sees.full (by simpa using refresh)
      omega
    exact .inl ⟨incremental, knows row member _ current old⟩

/-- A version no newer than an old bound could be seen by every poll that
completes now. -/
theorem visible_of_aged {lag clock bound issued : Int} {duration : Nat} (short : duration + lag < 5000000000)
    (inTime : clock - issued ≤ duration) (aged : Aged clock bound) {version : Version}
    (dated : version.visible - version.updated.micros ≤ lag) (old : version.updated.micros ≤ bound * 1000000) :
    version.visible < issued := by
  have epoch := version.updated.afterEpoch
  unfold Aged at aged
  omega

/-- What a step may not take longer than: a poll until it completes, and a commit
until it can be seen. -/
def InTime (duration : Nat) (lag : Int) (state : State) : Event → Prop
  | .insert _ updated | .update _ updated => state.clock - updated.micros ≤ lag
  | .complete index => ∀ poll, state.polls[index]? = some poll → state.clock - poll.issued ≤ duration
  | .tick _ | .delete _ | .issue _ | .execute _ | .fail _ => True

section Steps
variable {lag : Int} {duration : Nat} {state : State}

theorem covered_insert (covered : Covered lag state) (short : lag < 5000000000) {id : String} {updated : Timestamp}
    (inTime : state.clock - updated.micros ≤ lag) : Covered lag (state.next (.insert id updated)).1 := by
  simp only [State.next]
  split
  · exact covered
  · refine covered.commit short ⟨by omega, ?_, fun row' member => ?_⟩ state.removedAt
    · rw [List.map_append, List.nodup_append]
      refine ⟨covered.table.unique, List.nodup_singleton _, ?_⟩
      intro serial old serial' new same
      obtain ⟨row, member, rfl⟩ := List.mem_map.mp old
      rw [List.map_singleton, List.mem_singleton] at new
      have numbered := covered.table.numbered row member
      rw [same, new] at numbered
      exact absurd numbered (Nat.lt_irrefl _)
    · rcases List.mem_append.mp member with old | new
      · have numbered := covered.table.numbered row' old
        exact ⟨by omega, fun version is => .inr ⟨row', old, rfl, rfl, is⟩,
          fun _ => ⟨row', old, rfl, rfl, fun version is => is⟩⟩
      · rw [List.mem_singleton.mp new]
        refine ⟨by simp, fun version is => .inl ?_, fun earlier => absurd earlier (by simp)⟩
        rw [Row.versions, List.mem_singleton] at is
        rw [is]
        exact ⟨rfl, inTime⟩

theorem covered_update (covered : Covered lag state) (short : lag < 5000000000) {id : String} {updated : Timestamp}
    (inTime : state.clock - updated.micros ≤ lag) : Covered lag (state.next (.update id updated)).1 := by
  refine covered.commit short ⟨le_rfl, ?_, fun row' member => ?_⟩ state.removedAt
  · have serials : (state.table.map fun row => if row.id = id then row.commit updated state.clock else row).map
        Row.serial = state.table.map Row.serial := by
      rw [List.map_map]
      refine List.map_congr_left fun row _ => ?_
      simp only [Function.comp_apply]
      split <;> rfl
    rw [serials]
    exact covered.table.unique
  · obtain ⟨row, old, rfl⟩ := List.mem_map.mp member
    have numbered := covered.table.numbered row old
    split
    · refine ⟨numbered, fun version is => ?_, fun _ => ⟨row, old, rfl, rfl, fun version is => .tail _ is⟩⟩
      rcases List.mem_cons.mp is with rfl | is
      · exact .inl ⟨rfl, inTime⟩
      · exact .inr ⟨row, old, rfl, rfl, is⟩
    · exact ⟨numbered, fun version is => .inr ⟨row, old, rfl, rfl, is⟩,
        fun _ => ⟨row, old, rfl, rfl, fun version is => is⟩⟩

theorem covered_delete (covered : Covered lag state) (short : lag < 5000000000) (id : String) :
    Covered lag (state.next (.delete id)).1 := by
  simp only [State.next]
  split
  · refine covered.commit short ⟨le_rfl, ?_, fun row' member => ?_⟩ _
    · exact covered.table.unique.sublist ((List.filter_sublist).map Row.serial)
    · have old := List.mem_of_mem_filter member
      exact ⟨covered.table.numbered row' old, fun version is => .inr ⟨row', old, rfl, rfl, is⟩,
        fun _ => ⟨row', old, rfl, rfl, fun version is => is⟩⟩
  · exact covered

theorem covered_tick (covered : Covered lag state) (elapsed : Nat) :
    Covered lag (state.next (.tick elapsed)).1 where
  table := {
    dated row member version is := by
      have dated := covered.table.dated row member version is
      exact ⟨by simp only [State.next]; omega, dated.2⟩
    numbered := covered.table.numbered
    unique := covered.table.unique }
  polls poll member := by
    obtain ⟨sees, aged, knows⟩ := covered.polls poll member
    have later : state.clock ≤ state.clock + elapsed := by omega
    exact ⟨⟨sees.issued.trans later, sees.full, sees.present, sees.numbered, sees.same⟩, aged.later later, knows⟩
  mark := ⟨covered.mark.1.later (by simp only [State.next]; omega), covered.mark.2⟩

theorem covered_issue (covered : Covered lag state) (refresh : Bool) :
    Covered lag (state.next (.issue refresh)).1 where
  table := covered.table
  mark := covered.mark
  polls poll member := by
    rcases List.mem_append.mp member with old | new
    · exact covered.polls poll old
    · rw [List.mem_singleton.mp new]
      refine ⟨⟨le_rfl, fun full => ?_, nofun, nofun, nofun⟩, ?_⟩
      · exact if_pos full
      · cases refresh with
        | true => exact ⟨.inl rfl, knows_zero _ _⟩
        | false => exact covered.mark

theorem covered_execute (covered : Covered lag state) (index : Nat) :
    Covered lag (state.next (.execute index)).1 where
  table := covered.table
  mark := covered.mark
  polls poll member := by
    obtain ⟨old, was, rfl | rfl⟩ := State.mem_execute member
    · exact covered.polls poll was
    · obtain ⟨sees, known⟩ := covered.polls old was
      exact ⟨sees.run covered.table, known⟩

theorem covered_complete (covered : Covered lag state) (short : duration + lag < 5000000000) {index : Nat}
    (inTime : ∀ poll, state.polls[index]? = some poll → state.clock - poll.issued ≤ duration) :
    Covered lag (state.next (.complete index)).1 := by
  rcases state.complete_cases index with ⟨poll, rows, at_, ran⟩ | nothing
  · rw [state.next_complete at_ ran]
    obtain ⟨sees, _, knows⟩ := covered.polls poll (List.mem_of_getElem? at_)
    have known : ∀ bound, Aged state.clock bound →
        Knows (state.answered index poll rows).1.knownQueries state.table bound := by
      intro bound aged row member version is old
      have dated := covered.table.dated row member version is
      have visible := visible_of_aged short (inTime poll at_) aged dated.2 old
      obtain ⟨seen, isSeen, serial⟩ := sees.present rows ran row member version is visible
      exact known_of_present sees knows ran isSeen member serial.symm index
    have aged : Aged state.clock (state.now - 5000) := by
      unfold Aged State.now
      omega
    refine ⟨covered.table, fun other member => ?_, aged, known _ aged⟩
    obtain ⟨sees', aged', _⟩ := covered.polls other (List.mem_of_mem_eraseIdx member)
    exact ⟨sees', aged', known _ aged'⟩
  · rw [nothing]
    exact covered

theorem covered_fail (covered : Covered lag state) (index : Nat) : Covered lag (state.next (.fail index)).1 := by
  simp only [State.next]
  split
  · exact covered
  · exact ⟨covered.table, fun poll member => covered.polls poll (List.mem_of_mem_eraseIdx member), covered.mark⟩

theorem covered_step (clock : Int) (short : duration + lag < 5000000000) (covered : Covered lag state) (event : Event)
    (inTime : InTime duration lag state event) : Covered lag ((machine clock).step state event).1 := by
  have brief : lag < 5000000000 := by omega
  have next : Covered lag (state.next event).1 := by
    cases event with
    | tick elapsed => exact covered_tick covered elapsed
    | insert id updated => exact covered_insert covered brief inTime
    | update id updated => exact covered_update covered brief inTime
    | delete id => exact covered_delete covered brief id
    | issue refresh => exact covered_issue covered refresh
    | execute index => exact covered_execute covered index
    | complete index => exact covered_complete covered short inTime
    | fail index => exact covered_fail covered index
  exact ⟨next.table, next.polls, next.mark⟩

end Steps

theorem covered_start (clock lag : Int) : Covered lag (machine clock).start where
  table := ⟨nofun, nofun, List.nodup_nil⟩
  polls := nofun
  mark := ⟨.inl rfl, knows_zero _ _⟩

/-- After a poll has completed, every id is known whose row the poll saw and that
still has this row; a poll that fails changes nothing. -/
theorem polls_lose_nothing (clock : Int) {duration : Nat} {lag : Int} (short : duration + lag < 5000000000)
    {events : List Event} {event : Event}
    (inTime : (machine clock).Always (InTime duration lag) (events ++ [event])) :
    (∀ index poll rows, event = .complete index → ((machine clock).exec events).1.polls[index]? = some poll →
      poll.snapshot = some rows → ∀ seen ∈ rows, ∀ row ∈ ((machine clock).exec events).1.table,
        row.serial = seen.serial → row.id = seen.id ∧
          seen.id ∈ ((machine clock).exec (events ++ [event])).1.knownQueries) ∧
    ∀ index, event = .fail index →
      ((machine clock).exec (events ++ [event])).1.knownQueries = ((machine clock).exec events).1.knownQueries ∧
      ((machine clock).exec (events ++ [event])).1.MOST_RECENT_KNOWN =
        ((machine clock).exec events).1.MOST_RECENT_KNOWN := by
  rw [Machine.exec_snoc]
  constructor
  · rintro index poll rows rfl at_ ran seen isSeen row member serial
    have covered : Covered lag ((machine clock).exec events).1 :=
      (machine clock).exec_invariant_of_always (Covered lag) (covered_start clock lag)
        (fun state event covered => covered_step clock short covered event) events
        ((machine clock).always_snoc.mp inTime).1
    obtain ⟨sees, _, knows⟩ := covered.polls poll (List.mem_of_getElem? at_)
    have id := (sees.same rows ran seen isSeen row member serial).1
    refine ⟨id, ?_⟩
    rw [step_knownQueries, State.next_complete _ at_ ran, ← id]
    exact known_of_present sees knows ran isSeen member serial index
  · rintro index rfl
    simp only [step_knownQueries, step_MOST_RECENT_KNOWN, State.next]
    split <;> exact ⟨rfl, rfl⟩

/-- Queries are registered a second before their rows can be seen, the second while a
poll is under way; that poll completes after a refresh was issued, and another fails. -/
def registered : List Event :=
  [.insert "hotels" ⟨1699999999000000, by decide⟩, .issue false, .execute 0, .tick 2000000,
    .insert "reviews" ⟨1700000001000000, by decide⟩, .issue true, .execute 1, .tick 1000000, .complete 0,
    .issue false, .fail 1]

/-- The refresh finds both. -/
theorem polls_lose_nothing_registered :
    "hotels" ∈ ((machine 1700000000000000).exec (registered ++ [.complete 0])).1.knownQueries ∧
      "reviews" ∈ ((machine 1700000000000000).exec (registered ++ [.complete 0])).1.knownQueries := by
  have inTime : (machine 1700000000000000).Always (InTime 3000000 1000000) (registered ++ [.complete 0]) := by
    have steps : registered = (((((((((([] ++ [Event.insert "hotels" ⟨1699999999000000, by decide⟩]) ++
      [Event.issue false]) ++ [Event.execute 0]) ++ [Event.tick 2000000]) ++
      [Event.insert "reviews" ⟨1700000001000000, by decide⟩]) ++ [Event.issue true]) ++ [Event.execute 1]) ++
      [Event.tick 1000000]) ++ [Event.complete 0]) ++ [Event.issue false]) ++ [Event.fail 1] := rfl
    rw [steps]
    simp only [Machine.always_snoc, Machine.always_nil, true_and, and_true, InTime]
    refine ⟨⟨⟨?_, ?_⟩, ?_⟩, ?_⟩
    · exact Int.le_of_eq rfl
    · exact Int.le_of_eq rfl
    · rintro poll ⟨⟩
      exact Int.le_of_eq rfl
    · rintro poll ⟨⟩
      exact Int.le_of_lt (by decide)
  have known := (polls_lose_nothing 1700000000000000 (by decide) inTime).1 0 _ _ rfl rfl rfl
  exact ⟨(known _ (.head _) _ (.head _) rfl).2, (known _ (.tail _ (.head _)) _ (.tail _ (.head _)) rfl).2⟩

end Taql.PollCoverage
