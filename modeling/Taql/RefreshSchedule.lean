import Taql.PollRemovals

/-! `onPluginInit` of `usePreregisteredQueries`: which polls are issued, and which of
them are refreshes. Every 101st callback of its interval issues one, so that a removal
is known to be one after so many of them, for each poll that fails as many again. -/
namespace Taql.RefreshSchedule
open KnownQueries PollRemovals Runs

def refreshEvery : Int := 100

/-- How far `onPluginInit` is: it was not called, it awaits its poll or `preloadCache`,
or it has set its interval. -/
inductive Stage where
  | created
  | populating
  | polling
  deriving DecidableEq

structure State where
  process : KnownQueries.State
  stage : Stage
  untilRefresh : Int

/-- The plugin is initialized, `preloadCache` has settled, the interval calls back, or
something happens to the table or to a poll. -/
inductive Event where
  | onPluginInit
  | preloaded
  | interval
  | outside (event : KnownQueries.Event)
  deriving DecidableEq

/-- A step of the process and its database. -/
def advance (process : KnownQueries.State) (event : KnownQueries.Event) : KnownQueries.State × List Populated :=
  let next := process.next event
  ({ next.1 with steps := process.steps + 1 }, next.2)

/-- A call of `populateKnownQueries`. -/
def State.populateKnownQueries (state : State) (refresh : Bool) : State :=
  { state with process := (advance state.process (.issue refresh)).1 }

/-- An event. No poll is issued but by the plugin, and `preloadCache` is called once
the first one has returned. -/
def State.next (state : State) : Event → State × List Populated
  | .onPluginInit =>
    match state.stage with
    | .created => ({ state.populateKnownQueries false with stage := .populating }, [])
    | .populating | .polling => (state, [])
  | .preloaded =>
    if state.stage = .populating ∧ state.process.polls = [] then
      ({ state with stage := .polling, untilRefresh := refreshEvery }, [])
    else (state, [])
  | .interval =>
    if state.stage = .polling then
      if state.untilRefresh ≤ 0 then ({ state.populateKnownQueries true with untilRefresh := refreshEvery }, [])
      else ({ state.populateKnownQueries false with untilRefresh := state.untilRefresh - 1 }, [])
    else (state, [])
  | .outside (.issue _) => (state, [])
  | .outside event =>
    let next := advance state.process event
    ({ state with process := next.1 }, next.2)

/-- What an event makes of the state. -/
inductive Change (state : State) : Event → State → Prop where
  | nothing {event : Event} (still : event = .interval → state.stage ≠ .polling) : Change state event state
  | initialized (created : state.stage = .created) :
      Change state .onPluginInit { state.populateKnownQueries false with stage := .populating }
  | preloaded (populating : state.stage = .populating) :
      Change state .preloaded { state with stage := .polling, untilRefresh := refreshEvery }
  | refreshed (polling : state.stage = .polling) (due : state.untilRefresh ≤ 0) :
      Change state .interval { state.populateKnownQueries true with untilRefresh := refreshEvery }
  | polled (polling : state.stage = .polling) (early : 0 < state.untilRefresh) :
      Change state .interval { state.populateKnownQueries false with untilRefresh := state.untilRefresh - 1 }
  | outside (event : KnownQueries.Event) (other : ∀ refresh, event ≠ .issue refresh) :
      Change state (.outside event) { state with process := (advance state.process event).1 }

theorem change_next (state : State) (event : Event) : Change state event (state.next event).1 := by
  cases event with
  | onPluginInit =>
    simp only [State.next]
    cases stage : state.stage with
    | created => exact .initialized stage
    | populating | polling => exact .nothing nofun
  | preloaded =>
    simp only [State.next]
    split
    next ready => exact .preloaded ready.1
    next => exact .nothing nofun
  | interval =>
    simp only [State.next]
    split
    next polling =>
      split
      next due => exact .refreshed polling due
      next early => exact .polled polling (Int.not_le.mp early)
    next still => exact .nothing fun _ => still
  | outside event =>
    cases event with
    | issue refresh => exact .nothing nofun
    | tick | insert | update | delete | execute | complete | fail => exact .outside _ nofun

/-- The plugin and its database, from a time when the table has no rows. -/
def machine (clock : Int) : Machine State Event Populated where
  start := ⟨(KnownQueries.machine clock).start, .created, refreshEvery⟩
  step := State.next

/-- No poll completes that was issued before a refresh that has completed. -/
def InOrder (state : State) : Event → Prop
  | .outside event => PollRemovals.InOrder state.process event
  | _ => True

theorem not_revives {process : KnownQueries.State} {event : KnownQueries.Event} (ordered : Ordered process)
    (inOrder : PollRemovals.InOrder process event) : ¬Revives process event := by
  intro revives
  cases event with
  | complete index =>
    obtain ⟨poll, rows, at_, ran, row, member, gone, issuedAt, refresh, before⟩ := revives
    have saw := ordered.seen poll (List.mem_of_getElem? at_) rows ran row (List.mem_of_mem_filter member) gone
    have after := inOrder poll at_ issuedAt refresh
    omega
  | tick | insert | update | delete | issue | execute | fail => exact revives

theorem removals_advance {process : KnownQueries.State} {event : KnownQueries.Event} (ordered : Ordered process)
    (holds : RemovalsHold process) (inOrder : PollRemovals.InOrder process event) :
    RemovalsHold (advance process event).1 :=
  (removals_step ordered holds event).mpr (not_revives ordered inOrder)

/-- A poll is neither put into nor taken out of the table by what happens to it, and an id
is marked when its row is deleted. -/
theorem next_removedAt (process : KnownQueries.State) (event : KnownQueries.Event) (id : String) :
    (process.next event).1.removedAt id = process.removedAt id ∨
      event = .delete id ∧ (∃ row ∈ process.table, row.id = id) ∧
        (process.next event).1.removedAt id = process.steps := by
  cases event with
  | tick | update | issue | execute => exact .inl rfl
  | insert | fail =>
    simp only [KnownQueries.State.next]
    split <;> exact .inl rfl
  | complete index =>
    rcases process.complete_cases index with ⟨poll, rows, at_, ran⟩ | nothing
    · rw [process.next_complete at_ ran]
      exact .inl rfl
    · rw [nothing]
      exact .inl rfl
  | delete other =>
    simp only [KnownQueries.State.next]
    split
    next there =>
      by_cases same : id = other
      · subst same
        refine .inr ⟨rfl, ?_, Function.update_self ..⟩
        simpa using there
      · exact .inl (Function.update_of_ne same _ _)
    next => exact .inl rfl

/-- An id without a row has none until one is inserted. -/
theorem lacks_next {process : KnownQueries.State} {event : KnownQueries.Event} {id : String}
    (lacks : Lacks process id) (other : ∀ updated, event ≠ .insert id updated) :
    Lacks (process.next event).1 id := by
  cases event with
  | tick | issue | execute => exact lacks
  | update changed updated =>
    intro row member
    obtain ⟨old, held, rfl⟩ := List.mem_map.mp member
    split <;> exact lacks old held
  | insert new updated =>
    simp only [KnownQueries.State.next]
    split
    next => exact lacks
    next =>
      intro row member
      rcases List.mem_append.mp member with old | added
      · exact lacks row old
      · rw [List.mem_singleton.mp added]
        rintro rfl
        exact other updated rfl
  | delete gone =>
    simp only [KnownQueries.State.next]
    split
    next => exact fun row member => lacks row (List.mem_filter.mp member).1
    next => exact lacks
  | complete index =>
    rcases process.complete_cases index with ⟨poll, rows, at_, ran⟩ | nothing
    · rw [process.next_complete at_ ran]
      exact lacks
    · rwa [nothing]
  | fail index =>
    simp only [KnownQueries.State.next]
    split <;> exact lacks

/-- What holds of the process whatever the plugin does: polls are ordered, removals hold,
and an id lost its row at an earlier step. -/
structure Sound (process : KnownQueries.State) : Prop where
  ordered : Ordered process
  holds : RemovalsHold process
  past : ∀ id, process.removedAt id ≤ process.steps

theorem sound_advance {process : KnownQueries.State} {event : KnownQueries.Event} (sound : Sound process)
    (inOrder : PollRemovals.InOrder process event) : Sound (advance process event).1 where
  ordered := ordered_step 0 sound.ordered event
  holds := removals_advance sound.ordered sound.holds inOrder
  past id := by
    have before := sound.past id
    rcases next_removedAt process event id with same | ⟨_, _, now⟩
    · simp only [advance, same]
      omega
    · simp only [advance, now]
      omega

/-- What the process makes of an event of the plugin: nothing, or one of its own steps. -/
theorem process_next (state : State) (event : Event) :
    (state.next event).1.process = state.process ∨
      ∃ own, (state.next event).1.process = (advance state.process own).1 ∧
        (event = .outside own ∨ ∃ refresh, own = .issue refresh) := by
  have change := change_next state event
  generalize (state.next event).1 = after at change
  cases change with
  | nothing | preloaded => exact .inl rfl
  | initialized | refreshed | polled => exact .inr ⟨.issue _, rfl, .inr ⟨_, rfl⟩⟩
  | outside own => exact .inr ⟨own, rfl, .inl rfl⟩

theorem sound_exec (clock : Int) {events : List Event} (inOrder : (machine clock).Always InOrder events) :
    Sound ((machine clock).exec events).1.process := by
  refine (machine clock).exec_invariant_of_always (fun state => Sound state.process)
    ⟨ordered_exec clock [], fun id _ => Finset.notMem_empty id, fun _ => Nat.zero_le _⟩
    (fun state event sound inOrder => ?_) events inOrder
  change Sound (state.next event).1.process
  rcases process_next state event with same | ⟨own, is, rfl | ⟨refresh, rfl⟩⟩
  · rwa [same]
  · rw [is]
    exact sound_advance sound inOrder
  · rw [is]
    exact sound_advance sound trivial

/-! ### Counting refreshes -/

theorem countP_modify {α : Type} (counts : α → Bool) {change : α → α}
    (same : ∀ item, counts (change item) = counts item)
    (list : List α) (index : Nat) : (list.modify index change).countP counts = list.countP counts := by
  induction list generalizing index with
  | nil => simp
  | cons item rest ih =>
    cases index with
    | zero => simp [List.countP_cons, same]
    | succ index => simp [List.countP_cons, ih]

theorem countP_eraseIdx {α : Type} (counts : α → Bool) {list : List α} {index : Nat} {item : α}
    (held : list[index]? = some item) :
    (list.eraseIdx index).countP counts + (if counts item then 1 else 0) = list.countP counts := by
  obtain ⟨inside, rfl⟩ := List.getElem?_eq_some_iff.mp held
  have counted := (List.getElem_cons_eraseIdx_perm inside).countP_eq counts
  rwa [List.countP_cons] at counted

/-- The refreshes issued since a step that are under way or have completed. -/
def refreshesSince (cut : Nat) (process : KnownQueries.State) : Nat :=
  (process.polls.countP fun poll => poll.refresh && cut ≤ poll.issuedAt) + process.refreshes.countP (cut ≤ ·)

/-- A poll of the process fails. -/
def fails : KnownQueries.Event → Bool
  | .fail _ => true
  | _ => false

theorem refreshesSince_advance (cut : Nat) (process : KnownQueries.State) (event : KnownQueries.Event) :
    refreshesSince cut process ≤
      refreshesSince cut (advance process event).1 + if fails event then 1 else 0 := by
  cases event with
  | tick | update => exact Nat.le_refl _
  | insert | delete =>
    simp only [advance, KnownQueries.State.next]
    split <;> exact Nat.le_refl _
  | issue refresh =>
    simp only [advance, KnownQueries.State.next, refreshesSince, List.countP_append]
    omega
  | execute index =>
    simp only [advance, KnownQueries.State.next, refreshesSince]
    rw [countP_modify]
    · exact Nat.le_refl _
    · exact fun _ => rfl
  | complete index =>
    simp only [advance]
    rcases process.complete_cases index with ⟨poll, rows, at_, ran⟩ | nothing
    · rw [process.next_complete at_ ran]
      have erased := countP_eraseIdx (fun poll => poll.refresh && decide (cut ≤ poll.issuedAt)) at_
      simp only [KnownQueries.State.answered, KnownQueries.State.populate, refreshesSince, fails]
      cases full : poll.refresh with
      | true => simp_all [List.countP_append]; omega
      | false => simp_all
    · rw [nothing]
      exact Nat.le_refl _
  | fail index =>
    simp only [advance, KnownQueries.State.next]
    split
    next => exact Nat.le_add_right _ _
    next poll at_ =>
      have erased := countP_eraseIdx (fun poll => poll.refresh && decide (cut ≤ poll.issuedAt)) at_
      simp only [refreshesSince, fails]
      split at erased <;> simp only [if_true] <;> omega

theorem refreshesSince_refresh {cut : Nat} {process : KnownQueries.State} (later : cut ≤ process.steps) :
    refreshesSince cut (advance process (.issue true)).1 = refreshesSince cut process + 1 := by
  simp only [advance, KnownQueries.State.next, refreshesSince, List.countP_append, List.countP_singleton,
    KnownQueries.State.issue, later, decide_true, Bool.and_self, if_true]
  omega

def isInterval : Event → Bool
  | .interval => true
  | _ => false

def isFailure : Event → Bool
  | .outside event => fails event
  | _ => false

/-- After `rest`, the callbacks since a step are those that issued a refresh, each with
the 100 before it, and those that count down to the next. -/
structure Counted (cut : Nat) (rest : List Event) (state : State) : Prop where
  polling : state.stage = .polling
  later : cut ≤ state.process.steps
  pending : 0 ≤ state.untilRefresh
  counted : rest.countP isInterval + state.untilRefresh ≤
    refreshEvery + (refreshEvery + 1) * (refreshesSince cut state.process + rest.countP isFailure)

theorem counted_next {cut : Nat} {rest : List Event} {state : State} (held : Counted cut rest state) (event : Event) :
    Counted cut (rest ++ [event]) (state.next event).1 := by
  obtain ⟨polling, later, pending, counted⟩ := held
  have change := change_next state event
  generalize (state.next event).1 = after at change
  have snoc (counts : Event → Bool) :
      (rest ++ [event]).countP counts = rest.countP counts + if counts event then 1 else 0 := by
    simp [List.countP_append, List.countP_cons]
  unfold refreshEvery at counted
  cases change with
  | nothing still =>
    have idle : isInterval event = false := by
      cases event with
      | interval => exact absurd polling (still rfl)
      | onPluginInit | preloaded | outside => rfl
    refine ⟨polling, later, pending, ?_⟩
    rw [snoc, snoc, idle]
    simp only [refreshEvery, Bool.false_eq_true, if_false]
    omega
  | initialized created => simp [polling] at created
  | preloaded populating => simp [polling] at populating
  | refreshed _ due =>
    refine ⟨polling, Nat.le_succ_of_le later, Int.natCast_nonneg 100, ?_⟩
    rw [snoc, snoc, State.populateKnownQueries, refreshesSince_refresh later]
    simp only [refreshEvery, isInterval, isFailure, if_true, Bool.false_eq_true, if_false]
    omega
  | polled _ early =>
    have kept := refreshesSince_advance cut state.process (.issue false)
    refine ⟨polling, Nat.le_succ_of_le later, by simp only; omega, ?_⟩
    rw [snoc, snoc, State.populateKnownQueries]
    simp only [refreshEvery, isInterval, isFailure, fails, if_true, Bool.false_eq_true, if_false] at kept ⊢
    omega
  | outside own other =>
    have kept := refreshesSince_advance cut state.process own
    refine ⟨polling, Nat.le_succ_of_le later, pending, ?_⟩
    have failed : isFailure (.outside own) = fails own := rfl
    rw [snoc, snoc, failed]
    simp only [refreshEvery, isInterval, Bool.false_eq_true, if_false]
    omega

/-- An id without a row, which it lost before a step. -/
structure GoneSince (cut : Nat) (id : String) (process : KnownQueries.State) : Prop where
  lacks : Lacks process id
  before : process.removedAt id < cut

theorem goneSince_advance {cut : Nat} {id : String} {process : KnownQueries.State} {event : KnownQueries.Event}
    (gone : GoneSince cut id process) (other : ∀ updated, event ≠ .insert id updated) :
    GoneSince cut id (advance process event).1 := by
  refine ⟨lacks_next gone.lacks other, ?_⟩
  rcases next_removedAt process event id with same | ⟨_, ⟨row, held, is⟩, _⟩
  · simp only [advance, same]
    exact gone.before
  · exact absurd is (gone.lacks row held)

section Runs
variable {clock : Int} {past rest : List Event} {id : String}

theorem gone_exec {cut : Nat} (gone : GoneSince cut id ((machine clock).exec past).1.process)
    (uninserted : ∀ updated, .outside (.insert id updated) ∉ rest) :
    GoneSince cut id ((machine clock).exec (past ++ rest)).1.process := by
  refine (machine clock).exec_append_invariant past
    (fun rest state => (∀ updated, .outside (.insert id updated) ∉ rest) → GoneSince cut id state.process)
    (fun _ => gone) (fun rest event held uninserted => ?_) rest uninserted
  have before := held fun updated member => uninserted updated (List.mem_append_left _ member)
  generalize ((machine clock).exec (past ++ rest)).1 = state at before ⊢
  change GoneSince cut id (state.next event).1.process
  rcases process_next state event with same | ⟨own, is, rfl | ⟨refresh, rfl⟩⟩
  · rwa [same]
  · rw [is]
    refine goneSince_advance before fun updated inserts => uninserted updated ?_
    simp [inserts]
  · rw [is]
    exact goneSince_advance before nofun

theorem counted_exec (polling : ((machine clock).exec past).1.stage = .polling)
    (bounded : 0 ≤ ((machine clock).exec past).1.untilRefresh ∧
      ((machine clock).exec past).1.untilRefresh ≤ refreshEvery)
    (rest : List Event) :
    Counted ((machine clock).exec past).1.process.steps rest ((machine clock).exec (past ++ rest)).1 := by
  refine (machine clock).exec_append_invariant past (fun rest => Counted _ rest)
    ⟨polling, Nat.le_refl _, bounded.1, ?_⟩ (fun rest event held => counted_next held event) rest
  unfold refreshEvery at *
  simp only [List.countP_nil]
  omega

end Runs

/-- The interval counts down from 100. -/
theorem untilRefresh_bounds (clock : Int) (events : List Event) :
    0 ≤ ((machine clock).exec events).1.untilRefresh ∧ ((machine clock).exec events).1.untilRefresh ≤ refreshEvery := by
  refine (machine clock).exec_invariant (fun _ state => 0 ≤ state.untilRefresh ∧ state.untilRefresh ≤ refreshEvery)
    ⟨Int.natCast_nonneg 100, Int.le_refl _⟩ (fun past event held => ?_) events
  generalize ((machine clock).exec past).1 = state at held ⊢
  have change := change_next state event
  change 0 ≤ (state.next event).1.untilRefresh ∧ (state.next event).1.untilRefresh ≤ refreshEvery
  generalize (state.next event).1 = after at change
  cases change with
  | nothing | initialized | outside => exact held
  | preloaded | refreshed => exact ⟨Int.natCast_nonneg 100, Int.le_refl _⟩
  | polled _ early =>
    simp only
    omega

/-- A deletion leaves the id without a row. -/
theorem gone_of_deleted {process : KnownQueries.State} (past : ∀ id, process.removedAt id ≤ process.steps)
    (id : String) :
    GoneSince (advance process (.delete id)).1.steps id (advance process (.delete id)).1 := by
  constructor
  · simp only [advance, KnownQueries.State.next]
    split
    next => exact fun row member => by simpa using (List.mem_filter.mp member).2
    next absent => exact fun row held is => absent (List.any_eq_true.mpr ⟨row, held, by simpa using is⟩)
  · have before := past id
    rcases next_removedAt process (.delete id) id with same | ⟨_, _, now⟩
    · simp only [advance, same]
      omega
    · simp only [advance, now]
      omega

/-- A poll that returns before the interval calls back again. -/
def round : List Event := [.interval, .outside (.execute 0), .outside (.complete 0)]

def rounds (count : Nat) : List Event := (List.replicate count round).flatten

theorem rounds_succ (count : Nat) : rounds (count + 1) = rounds count ++ round := by
  rw [rounds, List.replicate_succ', List.flatten_concat]
  rfl

theorem next_interval {state : State} (polling : state.stage = .polling) (idle : state.process.polls = []) :
    ∃ poll, (state.next .interval).1.process.polls = [poll] ∧ poll.issuedAt = state.process.steps ∧
      (state.next .interval).1.process.refreshes = state.process.refreshes ∧
      (state.next .interval).1.stage = .polling := by
  simp only [State.next, if_pos polling]
  split <;>
    exact ⟨_, by rw [State.populateKnownQueries, advance, KnownQueries.State.next, idle]; rfl, rfl, rfl, polling⟩

theorem next_execute {state : State} {poll : Poll} (underway : state.process.polls = [poll]) :
    (state.next (.outside (.execute 0))).1.process.polls =
      [{ poll with snapshot := some (poll.snapshot.getD state.process.table) }] := by
  simp only [State.next, advance, KnownQueries.State.next, underway]
  rfl

theorem next_complete {state : State} {poll : Poll} (underway : state.process.polls = [poll])
    (ran : poll.snapshot.isSome) : (state.next (.outside (.complete 0))).1.process.polls = [] := by
  obtain ⟨rows, is⟩ := Option.isSome_iff_exists.mp ran
  have at_ : state.process.polls[0]? = some poll := by rw [underway]; rfl
  simp only [State.next, advance]
  rw [state.process.next_complete at_ is]
  simp only [KnownQueries.State.answered, KnownQueries.State.populate, underway]
  rfl

/-- Rounds keep polls in order, and none is left under way. -/
theorem rounds_inOrder (clock : Int) {past : List Event} (inOrder : (machine clock).Always InOrder past)
    (polling : ((machine clock).exec past).1.stage = .polling)
    (idle : ((machine clock).exec past).1.process.polls = []) (count : Nat) :
    (machine clock).Always InOrder (past ++ rounds count) ∧
      ((machine clock).exec (past ++ rounds count)).1.stage = .polling ∧
      ((machine clock).exec (past ++ rounds count)).1.process.polls = [] := by
  induction count with
  | zero => simpa [rounds] using ⟨inOrder, polling, idle⟩
  | succ count ih =>
    obtain ⟨inOrder, polling, idle⟩ := ih
    have ordered := (sound_exec clock inOrder).ordered
    have split : past ++ rounds (count + 1) =
        past ++ rounds count ++ [.interval] ++ [.outside (.execute 0)] ++ [.outside (.complete 0)] := by
      simp [rounds_succ, round]
    obtain ⟨poll, called, now, refreshes, still⟩ := next_interval polling idle
    have ran := next_execute called
    have returned := next_complete ran rfl
    simp only [split, Machine.always_snoc, Machine.exec_snoc]
    refine ⟨⟨⟨⟨inOrder, trivial⟩, trivial⟩, fun other at_ issuedAt member => ?_⟩, still, returned⟩
    have earlier := ordered.refreshes issuedAt ((congrArg (issuedAt ∈ ·) refreshes).mp member)
    cases (congrArg (·[0]?) ran).symm.trans at_
    exact Nat.le_of_lt (now ▸ earlier)

/-- An id whose row is deleted, and not inserted again, is not known once no poll is under
way, 101 callbacks of the interval later for each poll that failed and one more. -/
theorem removed_in_time (clock : Int) (past rest : List Event) (id : String)
    (polling : ((machine clock).exec past).1.stage = .polling)
    (uninserted : ∀ updated, .outside (.insert id updated) ∉ rest)
    (inOrder : (machine clock).Always InOrder (past ++ [.outside (.delete id)] ++ rest))
    (enough : 101 * (rest.countP isFailure + 1) ≤ rest.countP isInterval)
    (idle : ((machine clock).exec (past ++ [.outside (.delete id)] ++ rest)).1.process.polls = []) :
    id ∉ ((machine clock).exec (past ++ [.outside (.delete id)] ++ rest)).1.process.knownQueries := by
  have earlier : (machine clock).Always InOrder past := fun before event between split =>
    inOrder before event (between ++ [.outside (.delete id)] ++ rest) (by simp [split])
  have deleted : ((machine clock).exec (past ++ [.outside (.delete id)])).1 =
      { ((machine clock).exec past).1 with
          process := (advance ((machine clock).exec past).1.process (.delete id)).1 } := by
    rw [Machine.exec_snoc]
    rfl
  have gone : GoneSince ((machine clock).exec (past ++ [.outside (.delete id)])).1.process.steps id
      ((machine clock).exec (past ++ [.outside (.delete id)])).1.process := by
    rw [deleted]
    exact gone_of_deleted (sound_exec clock earlier).past id
  have still : ((machine clock).exec (past ++ [.outside (.delete id)])).1.stage = .polling := by
    rw [deleted]
    exact polling
  have gone := gone_exec gone uninserted
  have counted := counted_exec still (untilRefresh_bounds clock _) rest
  refine (sound_exec clock inOrder).holds id ⟨gone.lacks, ?_⟩
  -- No refresh is under way, and more were issued than polls failed.
  have completed : 0 < (((machine clock).exec (past ++ [.outside (.delete id)] ++ rest)).1.process.refreshes.countP
      (((machine clock).exec (past ++ [.outside (.delete id)])).1.process.steps ≤ ·)) := by
    have bound := counted.counted
    have pending := counted.pending
    simp only [refreshesSince, idle, List.countP_nil, refreshEvery] at bound
    omega
  obtain ⟨issuedAt, member, since⟩ := List.countP_pos_iff.mp completed
  exact ⟨issuedAt, member, Nat.lt_of_lt_of_le gone.before (of_decide_eq_true since)⟩

/-- A query is registered once the plugin polls. -/
def published : List Event :=
  [.onPluginInit, .outside (.execute 0), .outside (.complete 0), .preloaded,
    .outside (.insert "hotels" ⟨1700000000000000, Int.natCast_pos.mpr (Nat.succ_pos 1699999999999999)⟩)]

theorem published_inOrder (clock : Int) : (machine clock).Always InOrder published := by
  have split : published = [] ++ [.onPluginInit] ++ [.outside (.execute 0)] ++ [.outside (.complete 0)] ++
      [.preloaded] ++
      [.outside (.insert "hotels" ⟨1700000000000000, Int.natCast_pos.mpr (Nat.succ_pos 1699999999999999)⟩)] := rfl
  simp only [split, Machine.always_snoc]
  exact ⟨⟨⟨⟨⟨(machine clock).always_nil _, trivial⟩, trivial⟩,
    fun _ _ _ member => absurd member List.not_mem_nil⟩, trivial⟩, trivial⟩

theorem mem_rounds {event : Event} {count : Nat} (member : event ∈ rounds count) : event ∈ round := by
  obtain ⟨_, repeated, held⟩ := List.mem_flatten.mp member
  rwa [List.eq_of_mem_replicate repeated] at held

theorem countP_rounds (counts : Event → Bool) (count : Nat) :
    (rounds count).countP counts = count * round.countP counts := by
  induction count with
  | zero => simp [rounds]
  | succ count ih => rw [rounds_succ, List.countP_append, ih, Nat.succ_mul]

theorem removed_in_time_rounds :
    "hotels" ∉ ((machine 1700000000000000).exec
      (published ++ rounds 1 ++ [.outside (.delete "hotels")] ++ rounds 101)).1.process.knownQueries := by
  obtain ⟨inOrder, polling, idle⟩ := rounds_inOrder _ (published_inOrder 1700000000000000) rfl rfl 1
  have deleted : (machine 1700000000000000).Always InOrder (published ++ rounds 1 ++ [.outside (.delete "hotels")]) :=
    (machine 1700000000000000).always_snoc.mpr ⟨inOrder, trivial⟩
  have after := rounds_inOrder _ deleted rfl rfl 101
  exact removed_in_time 1700000000000000 (published ++ rounds 1) (rounds 101) "hotels" polling
    (fun updated member => by simpa [round] using mem_rounds member) after.1
    (by rw [countP_rounds, countP_rounds]; decide) after.2.2

end Taql.RefreshSchedule
