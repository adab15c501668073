import Mathlib.Data.List.Basic
import Mathlib.Data.List.Forall2
import Mathlib.Data.List.Induction

/-! Machines that answer events. What a run answers is known from its steps:
each answer is given by one of them, in the state the events before it leave,
and what every step preserves holds of that state. Nothing here names a
service. -/
namespace Taql.Runs

structure Machine (σ ε ω : Type) where
  start : σ
  step : σ → ε → σ × List ω

namespace Machine

variable {σ ε ω : Type} (machine : Machine σ ε ω)

/-- The state after a run of events, and the answers given on the way. -/
def exec (events : List ε) : σ × List ω :=
  events.foldl (fun run event => ((machine.step run.1 event).1, run.2 ++ (machine.step run.1 event).2))
    (machine.start, [])

@[simp] theorem exec_nil : machine.exec [] = (machine.start, []) := rfl

theorem exec_snoc (events : List ε) (event : ε) :
    machine.exec (events ++ [event]) = ((machine.step (machine.exec events).1 event).1,
      (machine.exec events).2 ++ (machine.step (machine.exec events).1 event).2) := by
  rw [exec, List.foldl_append]
  rfl

/-- What holds at the start and is preserved by every step holds after every
run; it may speak of the events of the run. -/
theorem exec_invariant (Inv : List ε → σ → Prop) (start : Inv [] machine.start)
    (keeps : ∀ past event, Inv past (machine.exec past).1 →
      Inv (past ++ [event]) (machine.step (machine.exec past).1 event).1)
    (events : List ε) : Inv events (machine.exec events).1 := by
  induction events using List.reverseRecOn with
  | nil => exact start
  | append_singleton past event ih =>
    rw [exec_snoc]
    exact keeps past event ih

/-- What holds after a run, and is preserved by every step after it, holds ever after;
it may speak of the events after that run. -/
theorem exec_append_invariant (past : List ε) (Inv : List ε → σ → Prop) (start : Inv [] (machine.exec past).1)
    (keeps : ∀ rest event, Inv rest (machine.exec (past ++ rest)).1 →
      Inv (rest ++ [event]) (machine.step (machine.exec (past ++ rest)).1 event).1)
    (rest : List ε) : Inv rest (machine.exec (past ++ rest)).1 := by
  induction rest using List.reverseRecOn with
  | nil => rwa [List.append_nil]
  | append_singleton rest event ih =>
    rw [← List.append_assoc, exec_snoc]
    exact keeps rest event ih

/-- Two machines whose steps on allowed events keep a relation between their states,
and answer alike, answer alike throughout every run of allowed events. -/
theorem exec_related {σ' ω' : Type} (other : Machine σ' ε ω') (Related : σ → σ' → Prop) (Alike : ω → ω' → Prop)
    (Allowed : ε → Prop) (start : Related machine.start other.start)
    (steps : ∀ state state' event, Allowed event → Related state state' →
      Related (machine.step state event).1 (other.step state' event).1 ∧
        List.Forall₂ Alike (machine.step state event).2 (other.step state' event).2)
    (events : List ε) (allowed : ∀ event ∈ events, Allowed event) :
    Related (machine.exec events).1 (other.exec events).1 ∧
      List.Forall₂ Alike (machine.exec events).2 (other.exec events).2 := by
  induction events using List.reverseRecOn with
  | nil => exact ⟨start, .nil⟩
  | append_singleton past event ih =>
    obtain ⟨related, alike⟩ := ih fun earlier member => allowed earlier (List.mem_append_left _ member)
    obtain ⟨related', alike'⟩ := steps _ _ event (allowed event (by simp)) related
    rw [exec_snoc, exec_snoc]
    exact ⟨related', List.rel_append alike alike'⟩

/-- Every step of a run is taken in a state that allows it. -/
def Always (Allowed : σ → ε → Prop) (events : List ε) : Prop :=
  ∀ past event rest, events = past ++ event :: rest → Allowed (machine.exec past).1 event

@[simp] theorem always_nil (Allowed : σ → ε → Prop) : machine.Always Allowed [] := by
  intro past event rest split
  simp at split

theorem always_snoc {Allowed : σ → ε → Prop} {events : List ε} {event : ε} :
    machine.Always Allowed (events ++ [event]) ↔
      machine.Always Allowed events ∧ Allowed (machine.exec events).1 event := by
  constructor
  · intro always
    refine ⟨fun past earlier rest split => ?_, always events event [] rfl⟩
    exact always past earlier (rest ++ [event]) (by simp [split])
  · rintro ⟨always, last⟩ past earlier rest split
    rcases List.eq_nil_or_concat rest with rfl | ⟨between, final, rfl⟩
    · obtain ⟨rfl, same⟩ := List.append_inj' split rfl
      cases same
      exact last
    · rw [List.concat_eq_append, ← List.cons_append, ← List.append_assoc] at split
      obtain ⟨rfl, _⟩ := List.append_inj' split rfl
      exact always past earlier between rfl

/-- What allowed steps preserve holds after every run of them. -/
theorem exec_invariant_of_always {Allowed : σ → ε → Prop} (Inv : σ → Prop) (start : Inv machine.start)
    (keeps : ∀ state event, Inv state → Allowed state event → Inv (machine.step state event).1)
    (events : List ε) (always : machine.Always Allowed events) : Inv (machine.exec events).1 := by
  induction events using List.reverseRecOn with
  | nil => exact start
  | append_singleton past event ih =>
    obtain ⟨earlier, allowed⟩ := machine.always_snoc.mp always
    rw [exec_snoc]
    exact keeps _ event (ih earlier) allowed

/-- What a step keeps exactly when it is allowed holds throughout a run exactly
when every step of it is. -/
theorem throughout_iff {Allowed : σ → ε → Prop} {Inv Holds : σ → Prop} (sound : ∀ events, Inv (machine.exec events).1)
    (start : Holds machine.start)
    (keeps : ∀ state event, Inv state → Holds state → (Holds (machine.step state event).1 ↔ Allowed state event))
    (events : List ε) :
    (∀ past rest, events = past ++ rest → Holds (machine.exec past).1) ↔ machine.Always Allowed events := by
  constructor
  · intro throughout past event rest split
    have before := throughout past (event :: rest) split
    have after := throughout (past ++ [event]) rest (by simp [split])
    rw [exec_snoc] at after
    exact (keeps _ event (sound past) before).mp after
  · intro always past rest split
    induction past using List.reverseRecOn generalizing rest with
    | nil => exact start
    | append_singleton past event ih =>
      have split' : events = past ++ event :: rest := by simp [split]
      rw [exec_snoc]
      exact (keeps _ event (sound past) (ih _ split')).mpr (always past event rest split')

/-- Every answer of a run is given by one of its steps. -/
theorem mem_answers_iff {events : List ε} {answer : ω} :
    answer ∈ (machine.exec events).2 ↔ ∃ past event rest, events = past ++ event :: rest ∧
      answer ∈ (machine.step (machine.exec past).1 event).2 := by
  induction events using List.reverseRecOn with
  | nil => simp
  | append_singleton events last ih =>
    rw [exec_snoc, List.mem_append, ih]
    constructor
    · rintro (⟨past, event, rest, rfl, given⟩ | given)
      · exact ⟨past, event, rest ++ [last], by simp, given⟩
      · exact ⟨events, last, [], rfl, given⟩
    · rintro ⟨past, event, rest, split, given⟩
      rcases List.eq_nil_or_concat rest with rfl | ⟨earlier, final, rfl⟩
      · obtain ⟨rfl, same⟩ := List.append_inj' split rfl
        cases same
        exact .inr given
      · rw [List.concat_eq_append, ← List.cons_append, ← List.append_assoc] at split
        obtain ⟨rfl, _⟩ := List.append_inj' split rfl
        exact .inl ⟨past, event, earlier, rfl, given⟩

/-- The machine behind a filter: it takes the steps of what comes through. -/
def behind {δ : Type} (see : δ → Option ε) : Machine σ δ ω where
  start := machine.start
  step state event := (see event).elim (state, []) (machine.step state)

theorem behind_exec {δ : Type} (see : δ → Option ε) (events : List δ) :
    (machine.behind see).exec events = machine.exec (events.filterMap see) := by
  induction events using List.reverseRecOn with
  | nil => rfl
  | append_singleton past event ih =>
    rw [exec_snoc, List.filterMap_append, ih]
    cases seen : see event with
    | none => simp [behind, seen]
    | some passed =>
      rw [List.filterMap_cons_some seen, List.filterMap_nil, exec_snoc]
      simp only [behind, seen, Option.elim_some]

/-- The machine that takes the same steps and answers with what is seen of each. -/
def watching {α : Type} (see : σ → ε → List α) : Machine σ ε α where
  start := machine.start
  step state event := ((machine.step state event).1, see state event)

/-- What is seen of the steps of a run, in their order. -/
def trace {α : Type} (see : σ → ε → List α) (events : List ε) : List α :=
  ((machine.watching see).exec events).2

theorem watching_state {α : Type} (see : σ → ε → List α) (events : List ε) :
    ((machine.watching see).exec events).1 = (machine.exec events).1 := by
  induction events using List.reverseRecOn with
  | nil => rfl
  | append_singleton past event ih =>
    rw [exec_snoc, exec_snoc, ih]
    rfl

@[simp] theorem trace_nil {α : Type} (see : σ → ε → List α) : machine.trace see [] = [] := rfl

theorem trace_snoc {α : Type} (see : σ → ε → List α) (events : List ε) (event : ε) :
    machine.trace see (events ++ [event]) = machine.trace see events ++ see (machine.exec events).1 event := by
  unfold trace
  rw [exec_snoc, watching_state]
  rfl

theorem mem_trace_iff {α : Type} {see : σ → ε → List α} {events : List ε} {seen : α} :
    seen ∈ machine.trace see events ↔ ∃ past event rest, events = past ++ event :: rest ∧
      seen ∈ see (machine.exec past).1 event := by
  unfold trace
  rw [mem_answers_iff]
  simp only [watching_state]
  rfl

end Machine

end Taql.Runs
