import Mathlib.Logic.Function.Basic

/-! A Redis server, as far as GET, SET and EXPIRE tell: each key may hold a text,
and a key that expires holds it for so many more seconds. -/
namespace Taql.Redis

structure Entry where
  value : String
  ttl : Option Nat
  deriving DecidableEq

/-- What is left of an entry some seconds later. -/
def Entry.after (seconds : Nat) (entry : Entry) : Option Entry :=
  match entry.ttl with
  | none => some entry
  | some left => if seconds ≤ left then some { entry with ttl := some (left - seconds) } else none

structure Store where
  entries : String → Option Entry

namespace Store

def empty : Store := ⟨fun _ => none⟩

def get (store : Store) (key : String) : Option String := (store.entries key).map Entry.value

/-- SET drops the expiry a key had. -/
def set (store : Store) (key value : String) : Store :=
  ⟨Function.update store.entries key (some ⟨value, none⟩)⟩

/-- EXPIRE does nothing to a key that is not there. -/
def expire (store : Store) (key : String) (seconds : Nat) : Store :=
  ⟨Function.update store.entries key ((store.entries key).map fun entry => { entry with ttl := some seconds })⟩

def pass (store : Store) (seconds : Nat) : Store :=
  ⟨fun key => (store.entries key).bind (Entry.after seconds)⟩

/-- A key that is there and has no expiry. Any other has one, or is gone. -/
def Persists (store : Store) (key : String) : Prop := ∃ value, store.entries key = some ⟨value, none⟩

variable (store : Store) (key other value : String) (seconds : Nat)

@[simp] theorem get_empty : empty.get key = none := rfl

@[simp] theorem get_set : (store.set key value).get other = if other = key then some value else store.get other := by
  by_cases same : other = key
  · subst same
    simp [get, set]
  · simp [get, set, same]

theorem entries_set :
    (store.set key value).entries other = if other = key then some ⟨value, none⟩ else store.entries other :=
  Function.update_apply ..

theorem entries_expire_of_ne (differ : other ≠ key) :
    (store.expire key seconds).entries other = store.entries other :=
  Function.update_of_ne differ ..

@[simp] theorem get_expire : (store.expire key seconds).get other = store.get other := by
  by_cases same : other = key
  · subst same
    simp [get, expire, Function.comp_def]
  · simp [get, expire, same]

@[simp] theorem persists_set : (store.set key value).Persists other ↔ other = key ∨ store.Persists other := by
  by_cases same : other = key
  · subst same
    simp [Persists, set]
  · simp [Persists, set, same]

@[simp] theorem persists_expire : (store.expire key seconds).Persists other ↔ other ≠ key ∧ store.Persists other := by
  by_cases same : other = key
  · subst same
    simp [Persists, expire]
  · simp [Persists, expire, same]

theorem entries_pass_of_persists {store : Store} {key : String} (persists : store.Persists key) (seconds : Nat) :
    (store.pass seconds).entries key = store.entries key := by
  obtain ⟨value, held⟩ := persists
  simp [pass, held, Entry.after]

/-- Time ends no key that has no expiry, and gives none back. -/
@[simp] theorem persists_pass : (store.pass seconds).Persists key ↔ store.Persists key := by
  constructor
  · rintro ⟨value, left⟩
    obtain ⟨⟨held, ttl⟩, found, lasts⟩ := Option.bind_eq_some_iff.mp left
    cases ttl with
    | none => exact ⟨held, found⟩
    | some ttl =>
      simp only [Entry.after] at lasts
      split at lasts <;> cases lasts
  · intro persists
    obtain ⟨value, held⟩ := persists
    exact ⟨value, by rw [entries_pass_of_persists ⟨value, held⟩, held]⟩

theorem get_pass_of_persists {store : Store} {key : String} (persists : store.Persists key) (seconds : Nat) :
    (store.pass seconds).get key = store.get key := by
  rw [get, get, entries_pass_of_persists persists]

theorem get_pass_of_none {store : Store} {key : String} (missing : store.get key = none) (seconds : Nat) :
    (store.pass seconds).get key = none := by
  simp only [get, Option.map_eq_none_iff] at missing ⊢
  simp [pass, missing]

end Store

end Taql.Redis
