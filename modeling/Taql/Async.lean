import Mathlib.Logic.Relation

/-! Asynchronous functions of JavaScript. A call runs to its first await and
returns a promise; what is left of it runs when all it waits for has settled, and
the calls that can go on do so in any order. -/
namespace Taql.Async
open Relation

variable {σ ε α : Type}

/-- What a call returned: settled, or waiting for all of some promises, to run on
from there. -/
inductive Promise (σ ε : Type) where
  | settled (result : Except ε Unit)
  | waiting (promises : List (Promise σ ε)) (run : σ → σ) (next : σ → Promise σ ε)

/-- A call of a function, which may throw. What is not a promise is a settled one. -/
abbrev Call (σ ε : Type) := σ → σ × Except ε (Promise σ ε)

/-- A plain function without a result. -/
def plain (effect : σ → σ) : Call σ ε := fun state => (effect state, .ok (.settled (.ok ())))

/-- An async function throws nothing: its promise is rejected. -/
def async (body : Call σ ε) : Call σ ε := fun state =>
  match body state with
  | (after, .ok promise) => (after, .ok promise)
  | (after, .error error) => (after, .ok (.settled (.error error)))

/-- The calls of a `map`, one after another; one that throws ends it. -/
def callAll : List (Call σ ε) → σ → σ × Except ε (List (Promise σ ε))
  | [], state => (state, .ok [])
  | call :: rest, state =>
    match call state with
    | (after, .error error) => (after, .error error)
    | (after, .ok promise) =>
      let others := callAll rest after
      (others.1, others.2.map (promise :: ·))

/-- `await Promise.all(…)` of some calls, where nothing comes after it. -/
def awaitAll (calls : List (Call σ ε)) : Call σ ε := fun state =>
  let called := callAll calls state
  (called.1, called.2.map fun promises => .waiting promises id fun _ => .settled (.ok ()))

/-- What can happen to a promise that was not settled: one it waits for goes on,
all of them are resolved and it goes on itself, or one is rejected and so is it.
What is under way then is not followed any further. -/
inductive Resumes : Promise σ ε × σ → Promise σ ε × σ → Prop where
  | inside {before after : List (Promise σ ε)} {promise promise' : Promise σ ε} {run : σ → σ}
      {next : σ → Promise σ ε} {state state' : σ} :
      Resumes (promise, state) (promise', state') →
      Resumes (.waiting (before ++ promise :: after) run next, state)
        (.waiting (before ++ promise' :: after) run next, state')
  | resolved {promises : List (Promise σ ε)} {run : σ → σ} {next : σ → Promise σ ε} {state : σ} :
      (∀ promise ∈ promises, promise = .settled (.ok ())) →
      Resumes (.waiting promises run next, state) (next state, run state)
  | rejected {promises : List (Promise σ ε)} {run : σ → σ} {next : σ → Promise σ ε} {state : σ} {error : ε} :
      .settled (.error error) ∈ promises →
      Resumes (.waiting promises run next, state) (.settled (.error error), state)

/-- The promise of a call resolves, in some order of what is under way, with the
state that is left. -/
def Resolves (call : Call σ ε) (state finish : σ) : Prop :=
  ∃ promise, (call state).2 = .ok promise ∧
    ReflTransGen Resumes (promise, (call state).1) (.settled (.ok ()), finish)

/-- A promise that has nothing left to run. -/
inductive Spent : Promise σ ε → Prop where
  | settled (result : Except ε Unit) : Spent (.settled result)
  | waiting {promises : List (Promise σ ε)} :
      (∀ promise ∈ promises, Spent promise) → Spent (.waiting promises id fun _ => .settled (.ok ()))

/-- A promise that has nothing left to run and that nothing rejects. -/
inductive Quiet : Promise σ ε → Prop where
  | settled : Quiet (.settled (.ok ()))
  | waiting {promises : List (Promise σ ε)} :
      (∀ promise ∈ promises, Quiet promise) → Quiet (.waiting promises id fun _ => .settled (.ok ()))

theorem forall_mem_replace {α : Type} {P : α → Prop} {before after : List α} {item item' : α}
    (all : ∀ other ∈ before ++ item :: after, P other) (replaced : P item') :
    ∀ other ∈ before ++ item' :: after, P other := by
  simp only [List.mem_append, List.mem_cons, or_imp, forall_and, forall_eq] at all ⊢
  exact ⟨all.1, replaced, all.2.2⟩

/-- Where nothing is left to run, whatever goes on leaves the state as it is. -/
theorem Spent.resumes {promise promise' : Promise σ ε} {state state' : σ} (spent : Spent promise)
    (resumes : Resumes (promise, state) (promise', state')) : state' = state ∧ Spent promise' := by
  induction spent generalizing promise' with
  | settled result => cases resumes
  | waiting all ih =>
    cases resumes with
    | @inside before after inner inner' _ _ _ _ inside =>
      obtain ⟨same, spent⟩ := ih inner (by simp) inside
      exact ⟨same, .waiting (forall_mem_replace all spent)⟩
    | resolved _ => exact ⟨rfl, .settled _⟩
    | rejected _ => exact ⟨rfl, .settled _⟩

theorem Spent.resolves {promise promise' : Promise σ ε} {state finish : σ} (spent : Spent promise)
    (run : ReflTransGen Resumes (promise, state) (promise', finish)) : finish = state := by
  have kept : ∀ after, ReflTransGen Resumes (promise, state) after → after.2 = state ∧ Spent after.1 := by
    intro after run
    induction run with
    | refl => exact ⟨rfl, spent⟩
    | tail _ resumes ih =>
      obtain ⟨same, spent⟩ := ih
      obtain ⟨same', spent'⟩ := spent.resumes resumes
      exact ⟨same'.trans same, spent'⟩
  exact (kept _ run).1

/-- Promises that each resolve do so one after another. -/
theorem resolves_all {promises : List (Promise σ ε)} (run : σ → σ) (next : σ → Promise σ ε) {state : σ}
    (each : ∀ promise ∈ promises, ReflTransGen Resumes (promise, state) (.settled (.ok ()), state)) :
    ∃ settled : List (Promise σ ε), (∀ promise ∈ settled, promise = .settled (.ok ())) ∧
      ReflTransGen Resumes (.waiting promises run next, state) (.waiting settled run next, state) := by
  suffices after : ∀ settled : List (Promise σ ε), (∀ promise ∈ settled, promise = .settled (.ok ())) →
      ∃ settled' : List (Promise σ ε), (∀ promise ∈ settled', promise = .settled (.ok ())) ∧
        ReflTransGen Resumes (.waiting (settled ++ promises) run next, state) (.waiting settled' run next, state) from
    after [] nofun
  induction promises with
  | nil => exact fun settled all => ⟨settled, all, by rw [List.append_nil]⟩
  | cons promise rest ih =>
    intro settled all
    obtain ⟨settled', all', others⟩ := ih (fun other member => each other (List.mem_cons_of_mem _ member))
      (settled ++ [.settled (.ok ())]) (by simpa [or_imp, forall_and] using all)
    refine ⟨settled', all', ReflTransGen.trans ?_ others⟩
    rw [List.append_assoc]
    refine (each promise List.mem_cons_self).lift (fun reached : Promise σ ε × σ =>
      (Promise.waiting (settled ++ reached.1 :: rest) run next, reached.2)) ?_
    rintro ⟨before, left⟩ ⟨after, left'⟩ inside
    exact Resumes.inside inside

theorem Quiet.resolves {promise : Promise σ ε} (quiet : Quiet promise) (state : σ) :
    ReflTransGen Resumes (promise, state) (.settled (.ok ()), state) := by
  induction quiet with
  | settled => exact .refl
  | waiting _ ih =>
    obtain ⟨settled, all, run⟩ := resolves_all id (fun _ => .settled (.ok ())) ih
    exact run.tail (.resolved all)

theorem quiet_waiting {promises : List (Promise σ ε)} :
    Quiet (.waiting promises id fun _ => .settled (.ok ())) ↔ ∀ promise ∈ promises, Quiet promise := by
  constructor
  · intro quiet
    cases quiet with
    | waiting all => exact all
  · exact .waiting

/-- What goes on to be rejected was not quiet. -/
theorem Quiet.resumes {promise promise' : Promise σ ε} {state state' : σ} (quiet : Quiet promise)
    (resumes : Resumes (promise, state) (promise', state')) : Quiet promise' := by
  induction quiet generalizing promise' with
  | settled => cases resumes
  | waiting all ih =>
    cases resumes with
    | @inside before after inner inner' _ _ _ _ inside =>
      have quiet := ih inner (by simp) inside
      exact .waiting (forall_mem_replace all quiet)
    | resolved _ => exact .settled
    | rejected refused => cases all _ refused

/-- What goes on to be quiet was so before, unless something was left to run. -/
theorem Spent.quiet_of_resumes {promise promise' : Promise σ ε} {state state' : σ} (spent : Spent promise)
    (resumes : Resumes (promise, state) (promise', state')) (quiet : Quiet promise') : Quiet promise := by
  induction spent generalizing promise' with
  | settled result => cases resumes
  | waiting all ih =>
    cases resumes with
    | @inside before after inner inner' _ _ _ _ inside =>
      have kept := quiet_waiting.mp quiet
      have quiet := ih inner (by simp) inside (kept inner' (by simp))
      exact .waiting (forall_mem_replace kept quiet)
    | resolved done =>
      refine .waiting fun promise member => ?_
      rw [done promise member]
      exact .settled
    | rejected _ => cases quiet

theorem Quiet.of_run {before after : Promise σ ε × σ} (quiet : Quiet before.1)
    (run : ReflTransGen Resumes before after) : Quiet after.1 := by
  induction run with
  | refl => exact quiet
  | tail _ resumes ih => exact ih.resumes resumes

theorem Spent.quiet_of_resolves {promise : Promise σ ε} {state finish : σ} (spent : Spent promise)
    (run : ReflTransGen Resumes (promise, state) (.settled (.ok ()), finish)) : Quiet promise := by
  have back : ∀ before : Promise σ ε × σ, ReflTransGen Resumes before (.settled (.ok ()), finish) →
      Spent before.1 → Quiet before.1 := by
    intro before run
    induction run using ReflTransGen.head_induction_on with
    | refl => exact fun _ => .settled
    | head resumes _ ih => exact fun spent => spent.quiet_of_resumes resumes (ih (spent.resumes resumes).2)
  exact back _ run spent

/-- A call that throws nothing and returns a promise of a kind. -/
def Gives (Kind : Promise σ ε → Prop) (call : Call σ ε) : Prop :=
  ∀ state, ∃ promise, (call state).2 = .ok promise ∧ Kind promise

variable {Kind : Promise σ ε → Prop}

theorem gives_plain (settled : Kind (.settled (.ok ()))) (effect : σ → σ) : Gives Kind (plain effect) :=
  fun _ => ⟨_, rfl, settled⟩

theorem async_of_gives {call : Call σ ε} (gives : Gives Kind call) : async call = call := by
  funext state
  obtain ⟨promise, returned, _⟩ := gives state
  have called : call state = ((call state).1, .ok promise) := by rw [← returned]
  rw [async, called]

/-- Calls that throw nothing are all made, each in the state the one before it left. -/
theorem callAll_of_gives {calls : List (Call σ ε)} (gives : ∀ call ∈ calls, Gives Kind call) (state : σ) :
    (callAll calls state).1 = calls.foldl (fun state call => (call state).1) state ∧
      ∃ promises, (callAll calls state).2 = .ok promises ∧ ∀ promise ∈ promises, Kind promise := by
  induction calls generalizing state with
  | nil => exact ⟨rfl, [], rfl, nofun⟩
  | cons call rest ih =>
    obtain ⟨promise, returned, kind⟩ := gives call List.mem_cons_self state
    obtain ⟨final, promises, others, kinds⟩ := ih (fun other member => gives other (List.mem_cons_of_mem _ member))
      (call state).1
    have first : call state = ((call state).1, .ok promise) := by rw [← returned]
    rw [callAll, first]
    simp only [List.foldl_cons]
    refine ⟨final, promise :: promises, ?_, ?_⟩
    · rw [others]
      rfl
    · simpa using ⟨kind, kinds⟩

/-- Calls whose promises do not depend on the state they are made in. -/
theorem callAll_map {call : α → Call σ ε} {promise : α → Promise σ ε} {entries : List α}
    (each : ∀ entry ∈ entries, ∀ state, (call entry state).2 = .ok (promise entry)) (state : σ) :
    (callAll (entries.map call) state).2 = .ok (entries.map promise) := by
  induction entries generalizing state with
  | nil => rfl
  | cons entry rest ih =>
    have first : call entry state = ((call entry state).1, .ok (promise entry)) := by
      rw [← each entry List.mem_cons_self state]
    rw [List.map_cons, callAll, first]
    simp only [ih fun other member => each other (List.mem_cons_of_mem _ member)]
    rfl

theorem awaitAll_fst {calls : List (Call σ ε)} (gives : ∀ call ∈ calls, Gives Kind call) (state : σ) :
    (awaitAll calls state).1 = calls.foldl (fun state call => (call state).1) state :=
  (callAll_of_gives gives state).1

theorem gives_awaitAll {calls : List (Call σ ε)} (gives : ∀ call ∈ calls, Gives Kind call)
    (waiting : ∀ promises, (∀ promise ∈ promises, Kind promise) →
      Kind (.waiting promises id fun _ => .settled (.ok ()))) :
    Gives Kind (awaitAll calls) := by
  intro state
  obtain ⟨_, promises, returned, kinds⟩ := callAll_of_gives gives state
  refine ⟨_, ?_, waiting promises kinds⟩
  rw [awaitAll, returned]
  rfl

/-- A call that leaves nothing to run has done all it does when it returns. -/
theorem Resolves.finish {call : Call σ ε} {state finish : σ} (resolves : Resolves call state finish)
    (gives : Gives Spent call) : finish = (call state).1 := by
  obtain ⟨promise, returned, run⟩ := resolves
  obtain ⟨promise', returned', spent⟩ := gives state
  obtain rfl : promise = promise' := Except.ok.inj (returned.symm.trans returned')
  exact spent.resolves run

/-- The promise of a call is rejected, in some order of what is under way. -/
def Rejects (call : Call σ ε) (state : σ) : Prop :=
  ∃ promise error finish, (call state).2 = .ok promise ∧
    ReflTransGen Resumes (promise, (call state).1) (.settled (.error error), finish)

/-- A promise without anything left to run resolves where nothing it waits for is rejected. -/
theorem resolves_iff_quiet {call : Call σ ε} {state : σ} {promise : Promise σ ε} (spent : Spent promise)
    (returned : (call state).2 = .ok promise) : (∃ finish, Resolves call state finish) ↔ Quiet promise := by
  constructor
  · rintro ⟨finish, promise', returned', run⟩
    obtain rfl : promise = promise' := Except.ok.inj (returned.symm.trans returned')
    exact spent.quiet_of_resolves run
  · intro quiet
    exact ⟨_, promise, returned, quiet.resolves _⟩

theorem not_rejects_of_quiet {call : Call σ ε} {state : σ} {promise : Promise σ ε} (quiet : Quiet promise)
    (returned : (call state).2 = .ok promise) : ¬Rejects call state := by
  rintro ⟨promise', error, finish, returned', run⟩
  obtain rfl : promise = promise' := Except.ok.inj (returned.symm.trans returned')
  cases quiet.of_run run

theorem Gives.resolves {call : Call σ ε} (gives : Gives Quiet call) (state : σ) :
    Resolves call state (call state).1 := by
  obtain ⟨promise, returned, quiet⟩ := gives state
  exact ⟨promise, returned, quiet.resolves _⟩

end Taql.Async
