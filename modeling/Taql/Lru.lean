import Mathlib.Data.Finset.Card
import Mathlib.Data.List.AList

/-! A cache of bounded size that gives up what was not used for longest. As long as
the keys it is given fit, it gives up nothing. -/
namespace Taql.Lru

variable {κ α : Type} {max : Nat}

/-- The entries, the one used last first. -/
structure LRUCache (κ α : Type) (max : Nat) where
  entries : AList fun _ : κ => α
  bounded : entries.entries.length ≤ max

namespace LRUCache

def empty : LRUCache κ α max := ⟨∅, Nat.zero_le max⟩

def keys (cache : LRUCache κ α max) : List κ := cache.entries.keys

variable [DecidableEq κ]

def lookup (cache : LRUCache κ α max) (key : κ) : Option α := cache.entries.lookup key

/-- The entry goes first, and the last one goes where there is no room. -/
def set (cache : LRUCache κ α max) (key : κ) (value : α) : LRUCache κ α max where
  entries :=
    ⟨(cache.entries.insert key value).entries.take max,
      (cache.entries.insert key value).nodupKeys.sublist (List.take_sublist max _)⟩
  bounded := List.length_take_le max _

/-- A key that is found goes first. -/
def get (cache : LRUCache κ α max) (key : κ) : LRUCache κ α max × Option α :=
  match cache.lookup key with
  | none => (cache, none)
  | some value => (cache.set key value, some value)

/-- All keys are of a set of keys that has room. -/
structure Within (cache : LRUCache κ α max) (keys : Finset κ) : Prop where
  fits : keys.card ≤ max
  held : ∀ key ∈ cache.keys, key ∈ keys

omit [DecidableEq κ] in
theorem within_empty {keys : Finset κ} (fits : keys.card ≤ max) : (empty : LRUCache κ α max).Within keys :=
  ⟨fits, nofun⟩

theorem lookup_empty (key : κ) : (empty : LRUCache κ α max).lookup key = none := AList.lookup_empty key

variable {cache : LRUCache κ α max} {keys : Finset κ} {key : κ}

/-- Within a set of keys that has room nothing is given up. -/
theorem set_entries (within : cache.Within keys) (allowed : key ∈ keys) (value : α) :
    (cache.set key value).entries = cache.entries.insert key value := by
  apply AList.ext
  apply List.take_of_length_le
  have sub : (cache.entries.insert key value).keys.toFinset ⊆ keys := by
    intro other member
    rw [List.mem_toFinset, AList.keys_insert] at member
    rcases List.mem_cons.mp member with rfl | member
    · exact allowed
    · exact within.held other (List.mem_of_mem_erase member)
  calc (cache.entries.insert key value).entries.length
      = (cache.entries.insert key value).keys.toFinset.card := by
        rw [List.toFinset_card_of_nodup (AList.keys_nodup _), AList.keys, List.keys, List.length_map]
    _ ≤ keys.card := Finset.card_le_card sub
    _ ≤ max := within.fits

theorem Within.set (within : cache.Within keys) (allowed : key ∈ keys) (value : α) :
    (cache.set key value).Within keys := by
  refine ⟨within.fits, fun other member => ?_⟩
  rw [LRUCache.keys, set_entries within allowed, AList.keys_insert] at member
  rcases List.mem_cons.mp member with rfl | member
  · exact allowed
  · exact within.held other (List.mem_of_mem_erase member)

theorem lookup_set (within : cache.Within keys) (allowed : key ∈ keys) (value : α) (other : κ) :
    (cache.set key value).lookup other = if other = key then some value else cache.lookup other := by
  rw [LRUCache.lookup, set_entries within allowed]
  split
  · rename_i same
    rw [same, AList.lookup_insert]
  · rename_i different
    rw [AList.lookup_insert_ne different, LRUCache.lookup]

theorem mem_of_lookup {value : α} (within : cache.Within keys) (found : cache.lookup key = some value) :
    key ∈ keys :=
  within.held key (AList.mem_keys.mp (AList.lookup_isSome.mp (Option.isSome_of_eq_some found)))

theorem get_snd (cache : LRUCache κ α max) (key : κ) : (cache.get key).2 = cache.lookup key := by
  unfold get
  split
  · rename_i missing
    exact missing.symm
  · rename_i found
    exact found.symm

theorem Within.get (within : cache.Within keys) (key : κ) : (cache.get key).1.Within keys := by
  unfold LRUCache.get
  split
  · exact within
  · rename_i value found
    exact within.set (mem_of_lookup within found) value

theorem within_self (cache : LRUCache κ α max) : cache.Within cache.keys.toFinset := by
  refine ⟨?_, fun key member => List.mem_toFinset.mpr member⟩
  rw [LRUCache.keys, List.toFinset_card_of_nodup (AList.keys_nodup _), AList.keys, List.keys, List.length_map]
  exact cache.bounded

/-- Using an entry changes none. -/
theorem lookup_get (cache : LRUCache κ α max) (key other : κ) :
    (cache.get key).1.lookup other = cache.lookup other := by
  unfold get
  split
  · rfl
  · rename_i value found
    rw [lookup_set cache.within_self (mem_of_lookup cache.within_self found)]
    split
    · rename_i same
      rw [same, found]
    · rfl

/-- What is held after an entry is set: that entry and the others, less what was
given up for it. -/
theorem lookup_set_evicts (cache : LRUCache κ α max) (key : κ) (value : α) :
    ∃ gone : List κ, ∀ other, (cache.set key value).lookup other =
      if other ∈ gone then none else if other = key then some value else cache.lookup other := by
  have split := List.take_append_drop max (cache.entries.insert key value).entries
  refine ⟨((cache.entries.insert key value).entries.drop max).keys, fun other => ?_⟩
  have whole : (cache.entries.insert key value).lookup other =
      (((cache.entries.insert key value).entries.take max).dlookup other).or
        (((cache.entries.insert key value).entries.drop max).dlookup other) := by
    rw [← List.dlookup_append, split]
    rfl
  split
  · rename_i gone
    have distinct := (cache.entries.insert key value).nodupKeys
    rw [← split, List.NodupKeys, List.keys_append, List.nodup_append] at distinct
    exact List.dlookup_eq_none.mpr fun held => distinct.2.2 other held other gone rfl
  · rename_i kept
    rw [List.dlookup_eq_none.mpr kept, Option.or_none] at whole
    refine whole.symm.trans ?_
    split
    · rename_i same
      rw [same, AList.lookup_insert]
    · rename_i different
      rw [AList.lookup_insert_ne different, LRUCache.lookup]

end LRUCache

end Taql.Lru
