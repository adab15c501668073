import Mathlib.Logic.Function.Basic

/-! What the caches of `packages/caching` keep their entries in. The store of
`src/stores/memory-store.ts` is an LRU cache that compares keys as a JavaScript map
does; the values clients send become its keys, and a value may leave it at any time.
The map of `src/util.ts` has two weak keys: they are compared by identity, and an
entry is only ever dropped with its keys, which no caller can observe. -/
namespace Taql.Stores

variable {Number α : Type}

/-- A JSON value that is not null; a missing value and null are read as none. Of
an object or an array only its text is used. -/
inductive Value (Number : Type) where
  | boolean (value : Bool)
  | number (value : Number)
  | string (value : String)
  | object (json : String)
  deriving DecidableEq

def Value.truthy [DecidableEq Number] [Zero Number] : Value Number → Bool
  | .boolean value => value
  | .number value => value ≠ 0
  | .string value => value ≠ ""
  | .object _ => true

inductive Key (Number : Type) where
  | boolean (value : Bool)
  | number (value : Number)
  | string (value : String)
  deriving DecidableEq

/-- The key a value is. An object is compared by identity, and no other request
has it: it is a key under which nothing is ever found. -/
def Value.key : Value Number → Option (Key Number)
  | .boolean value => some (.boolean value)
  | .number value => some (.number value)
  | .string value => some (.string value)
  | .object _ => none

theorem Value.key_injective {first second : Value Number} {key : Key Number} (left : first.key = some key)
    (right : second.key = some key) : first = second := by
  cases first <;> cases left <;> cases second <;> cases right <;> rfl

structure MemoryStore (Number α : Type) where
  lruCache : Key Number → Option α

namespace MemoryStore

def empty : MemoryStore Number α := ⟨fun _ => none⟩

def get (store : MemoryStore Number α) (key : Option (Key Number)) : Option α :=
  key.bind store.lruCache

variable [DecidableEq Number]

def set (store : MemoryStore Number α) (key : Option (Key Number)) (value : α) : MemoryStore Number α :=
  match key with
  | none => store
  | some key => ⟨Function.update store.lruCache key (some value)⟩

def evict (store : MemoryStore Number α) (key : Key Number) : MemoryStore Number α :=
  ⟨Function.update store.lruCache key none⟩

omit [DecidableEq Number] in
@[simp] theorem get_empty (key : Option (Key Number)) : (empty : MemoryStore Number α).get key = none := by
  cases key <;> rfl

theorem get_set (store : MemoryStore Number α) (key : Option (Key Number)) (value : α) (key' : Key Number) :
    (store.set key value).get (some key') = if key = some key' then some value else store.get (some key') := by
  cases key with
  | none => rfl
  | some key =>
    simp only [get, set, Option.bind_some, Function.update_apply, Option.some.injEq, eq_comm (a := key')]

theorem get_evict (store : MemoryStore Number α) (key key' : Key Number) :
    (store.evict key).get (some key') = if key = key' then none else store.get (some key') := by
  simp only [get, evict, Option.bind_some, Function.update_apply, eq_comm (a := key')]

end MemoryStore

/-! ### Two weak keys -/

variable {K1 K2 V : Type}

/-- `delegate`, from the first key to a map over the second. -/
structure BiWeakMap (K1 K2 V : Type) where
  delegate : K1 → Option (K2 → Option V)

def BiWeakMap.empty : BiWeakMap K1 K2 V := ⟨fun _ => none⟩

def BiWeakMap.get (map : BiWeakMap K1 K2 V) (k1 : K1) (k2 : K2) : Option V :=
  (map.delegate k1).bind fun k2Delegate => k2Delegate k2

variable [DecidableEq K1] [DecidableEq K2]

def BiWeakMap.set (map : BiWeakMap K1 K2 V) (k1 : K1) (k2 : K2) (val : V) : BiWeakMap K1 K2 V :=
  ⟨Function.update map.delegate k1
    (some (Function.update ((map.delegate k1).getD fun _ => none) k2 (some val)))⟩

omit [DecidableEq K1] [DecidableEq K2] in
@[simp] theorem BiWeakMap.get_empty (k1 : K1) (k2 : K2) : (empty : BiWeakMap K1 K2 V).get k1 k2 = none := rfl

@[simp] theorem BiWeakMap.get_set (map : BiWeakMap K1 K2 V) (k1 k1' : K1) (k2 k2' : K2) (val : V) :
    (map.set k1 k2 val).get k1' k2' = if k1' = k1 ∧ k2' = k2 then some val else map.get k1' k2' := by
  unfold get set
  by_cases first : k1' = k1
  · subst first
    by_cases second : k2' = k2
    · subst second
      simp
    · simp only [Function.update_self, Option.bind_some, Function.update_of_ne second, second, and_false, if_false]
      cases map.delegate k1' <;> rfl
  · simp [first]

end Taql.Stores
