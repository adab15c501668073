import Mathlib.Data.List.Basic
import Mathlib.Logic.Function.Basic
import Mathlib.Order.Basic

/-! Maps whose entries may be held for so long only. A map is below another when each
of its entries is one of the other's; writing, deleting and waiting on both keep that,
and so does losing an entry of the first. Nothing here names a service. -/
namespace Taql.ExpiringMaps

variable {κ α β : Type}

structure Entry (α : Type) where
  value : α
  left : Option Nat
  deriving DecidableEq

/-- What is left of an entry some time later, which is held as long as it is no older than
it may get. -/
def Entry.after (time : Nat) (entry : Entry α) : Option (Entry α) :=
  match entry.left with
  | none => some entry
  | some left => if time ≤ left then some { entry with left := some (left - time) } else none

@[ext] structure ExpiringMap (κ α : Type) where
  entries : κ → Option (Entry α)

namespace ExpiringMap

def empty : ExpiringMap κ α := ⟨fun _ => none⟩

def get (map : ExpiringMap κ α) (key : κ) : Option α := (map.entries key).map Entry.value

def pass (map : ExpiringMap κ α) (time : Nat) : ExpiringMap κ α :=
  ⟨fun key => (map.entries key).bind (Entry.after time)⟩

def remaining (map : ExpiringMap κ α) (key : κ) : Option (Option Nat) := (map.entries key).map Entry.left

/-- The same entries, with other values. -/
def mapValues (f : α → β) (map : ExpiringMap κ α) : ExpiringMap κ β :=
  ⟨fun key => (map.entries key).map fun entry => ⟨f entry.value, entry.left⟩⟩

variable [DecidableEq κ]

def set (map : ExpiringMap κ α) (key : κ) (value : α) (left : Option Nat) : ExpiringMap κ α :=
  ⟨Function.update map.entries key (some ⟨value, left⟩)⟩

def delete (map : ExpiringMap κ α) (key : κ) : ExpiringMap κ α := ⟨Function.update map.entries key none⟩

def setAll (map : ExpiringMap κ α) (entries : List (κ × α)) (left : Option Nat) : ExpiringMap κ α :=
  entries.foldl (fun map entry => map.set entry.1 entry.2 left) map

def deleteAll (map : ExpiringMap κ α) (keys : List κ) : ExpiringMap κ α := keys.foldl delete map

/-! ### The order -/

omit [DecidableEq κ] in
theorem get_empty (key : κ) : (empty : ExpiringMap κ α).get key = none := rfl

/-- Each entry of the one is an entry of the other. -/
instance instPartialOrder : PartialOrder (ExpiringMap κ α) where
  le first second := ∀ key entry, first.entries key = some entry → second.entries key = some entry
  le_refl _ _ _ held := held
  le_trans _ _ _ below below' key entry held := below' key entry (below key entry held)
  le_antisymm first second below above := by
    ext key entry
    exact ⟨below key entry, above key entry⟩

variable {first second : ExpiringMap κ α}

omit [DecidableEq κ] in
/-- A map below another has what the other has, or has nothing. -/
theorem get_of_le (below : first ≤ second) (key : κ) : first.get key = none ∨ first.get key = second.get key := by
  cases held : first.entries key with
  | none => exact .inl (by rw [get, held, Option.map_none])
  | some entry => exact .inr (by rw [get, get, held, below key entry held])

theorem set_mono (below : first ≤ second) (key : κ) (value : α) (left : Option Nat) :
    first.set key value left ≤ second.set key value left := by
  intro other entry held
  simp only [set, Function.update_apply] at held ⊢
  split
  next same => rwa [if_pos same] at held
  next differ =>
    rw [if_neg differ] at held
    exact below other entry held

theorem delete_le (map : ExpiringMap κ α) (key : κ) : map.delete key ≤ map := by
  intro other entry held
  simp only [delete, Function.update_apply] at held
  split at held
  · cases held
  · exact held

theorem delete_le_set (below : first ≤ second) (key : κ) (value : α) (left : Option Nat) :
    first.delete key ≤ second.set key value left := by
  intro other entry held
  simp only [delete, set, Function.update_apply] at held ⊢
  split
  next same => simp [same] at held
  next differ =>
    rw [if_neg differ] at held
    exact below other entry held

theorem delete_mono (below : first ≤ second) (key : κ) : first.delete key ≤ second.delete key := by
  intro other entry held
  simp only [delete, Function.update_apply] at held ⊢
  split
  next same => rwa [if_pos same] at held
  next differ =>
    rw [if_neg differ] at held
    exact below other entry held

theorem deleteAll_mono (below : first ≤ second) (keys : List κ) : first.deleteAll keys ≤ second.deleteAll keys := by
  induction keys generalizing first second with
  | nil => exact below
  | cons key rest ih => exact ih (delete_mono below key)

omit [DecidableEq κ] in
theorem pass_mono (below : first ≤ second) (time : Nat) : first.pass time ≤ second.pass time := by
  intro key entry held
  obtain ⟨earlier, there, lasts⟩ := Option.bind_eq_some_iff.mp held
  exact Option.bind_eq_some_iff.mpr ⟨earlier, below key earlier there, lasts⟩

omit [DecidableEq κ] in
theorem empty_le (map : ExpiringMap κ α) : empty ≤ map := fun _ _ held => nomatch held

/-! ### What every value has -/

/-- Every value that is held has a property. -/
def All (P : α → Prop) (map : ExpiringMap κ α) : Prop := ∀ key entry, map.entries key = some entry → P entry.value

variable {P : α → Prop} {map : ExpiringMap κ α}

omit [DecidableEq κ] in
theorem all_empty : (empty : ExpiringMap κ α).All P := fun _ _ held => nomatch held

omit [DecidableEq κ] in
theorem All.of_le (all : second.All P) (below : first ≤ second) : first.All P :=
  fun key entry held => all key entry (below key entry held)

omit [DecidableEq κ] in
theorem All.get (all : map.All P) {key : κ} {value : α} (found : map.get key = some value) : P value := by
  obtain ⟨entry, held, rfl⟩ := Option.map_eq_some_iff.mp found
  exact all key entry held

theorem All.set (all : map.All P) (key : κ) {value : α} (has : P value) (left : Option Nat) :
    (map.set key value left).All P := by
  intro other entry held
  simp only [ExpiringMap.set, Function.update_apply] at held
  split at held
  · cases held
    exact has
  · exact all other entry held

theorem All.delete (all : map.All P) (key : κ) : (map.delete key).All P := all.of_le (delete_le map key)

theorem All.setAll (all : map.All P) {entries : List (κ × α)} (has : ∀ entry ∈ entries, P entry.2) (left : Option Nat) :
    (map.setAll entries left).All P := by
  induction entries generalizing map with
  | nil => exact all
  | cons entry rest ih =>
    exact ih (all.set entry.1 (has entry List.mem_cons_self) left) fun other member =>
      has other (List.mem_cons_of_mem _ member)

theorem All.deleteAll (all : map.All P) (keys : List κ) : (map.deleteAll keys).All P := by
  induction keys generalizing map with
  | nil => exact all
  | cons key rest ih => exact ih (all.delete key)

omit [DecidableEq κ] in
theorem All.pass (all : map.All P) (time : Nat) : (map.pass time).All P := by
  intro key entry held
  obtain ⟨⟨value, left⟩, there, lasts⟩ := Option.bind_eq_some_iff.mp held
  have has := all key _ there
  cases left with
  | none =>
    cases lasts
    exact has
  | some left =>
    simp only [Entry.after] at lasts
    split at lasts
    · cases lasts
      exact has
    · cases lasts

/-! ### Other values -/

variable (f : α → β) (map)

omit [DecidableEq κ] in
theorem get_mapValues (key : κ) : (map.mapValues f).get key = (map.get key).map f := by
  simp [get, mapValues, Function.comp_def]

omit [DecidableEq κ] in
theorem mapValues_pass (time : Nat) : (map.pass time).mapValues f = (map.mapValues f).pass time := by
  ext key : 2
  simp only [pass, mapValues, Option.map_bind, Option.bind_map]
  congr 1
  funext ⟨value, left⟩
  cases left with
  | none => rfl
  | some left =>
    simp only [Entry.after, Function.comp_apply]
    split <;> rfl

theorem mapValues_set (key : κ) (value : α) (left : Option Nat) :
    (map.set key value left).mapValues f = (map.mapValues f).set key (f value) left := by
  ext key' : 2
  simp only [set, mapValues, Function.update_apply]
  split <;> rfl

theorem mapValues_delete (key : κ) : (map.delete key).mapValues f = (map.mapValues f).delete key := by
  ext key' : 2
  simp only [delete, mapValues, Function.update_apply]
  split <;> rfl

theorem mapValues_setAll (entries : List (κ × α)) (left : Option Nat) :
    (map.setAll entries left).mapValues f =
      (map.mapValues f).setAll (entries.map fun entry => (entry.1, f entry.2)) left := by
  induction entries generalizing map with
  | nil => rfl
  | cons entry rest ih =>
    refine (ih _).trans ?_
    rw [mapValues_set]
    rfl

theorem mapValues_deleteAll (keys : List κ) : (map.deleteAll keys).mapValues f = (map.mapValues f).deleteAll keys := by
  induction keys generalizing map with
  | nil => rfl
  | cons key rest ih =>
    refine (ih _).trans ?_
    rw [mapValues_delete]
    rfl

end ExpiringMap

end Taql.ExpiringMaps
