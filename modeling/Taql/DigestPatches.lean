import Taql.Gitops

/-! The digest in a patch. The loop over its items is told from the patch as it was: which
of its objects are overwritten. A value that only compares equal to the digest is left,
so that not every patch is complete afterwards, but none is written twice. -/
namespace Taql.DigestPatches
open Gitops JavaScript Yaml

variable {N : Type} (numbers : Numbers N) (yaml : Library N) (envVarToInject digest : String)

/-! ### The objects a patch names -/

/-- The object of an item that is named as the variable, if it is. -/
def entry (patch : Document N) (item : Value N) : Except JsError (Option Nat) := do
  match ← patch.get (some item) "value" with
  | some (.ref address) =>
    return if ← patch.looselyEquals numbers ((patch.node address).get "name") envVarToInject then some address else none
  | value =>
    let _ ← patch.get value "name"
    return none

/-- Whether an object of the patch already has the digest, as `==` has it. -/
def current (patch : Document N) (address : Nat) : Except JsError Bool :=
  patch.looselyEquals numbers ((patch.node address).get "value") digest

/-- An item that is itself an object to be overwritten names nothing any more. -/
def gone (addresses : List Nat) (item : Value N) : Bool :=
  match item with
  | .ref address => addresses.contains address
  | _ => false

theorem gone_nil (item : Value N) : gone [] item = false := by cases item <;> rfl

/-- Adds the object of an item, unless it already has the digest. -/
def collect (patch : Document N) (addresses : List Nat) (item : Value N) : Except JsError (List Nat) :=
  if gone addresses item then .ok addresses
  else do
    match ← entry numbers envVarToInject patch item with
    | none => return addresses
    | some address =>
      if addresses.contains address then return addresses
      else return if ← current numbers digest patch address then addresses else address :: addresses

/-- The objects of a patch that are overwritten, told from the patch as it is. -/
def overwritten (patch : Document N) (items : List (Value N)) : Except JsError (List Nat) :=
  items.foldlM (collect numbers envVarToInject digest patch) []

/-! ### Entries -/

variable {numbers envVarToInject digest}

/-- Only an object has a name. -/
theorem isObject_of_entry {patch : Document N} {item : Value N} {address : Nat}
    (named : entry numbers envVarToInject patch item = .ok (some address)) : patch.isObject address = true := by
  obtain ⟨value, _, rest⟩ := bind_eq_ok.mp named
  split at rest
  · obtain ⟨equal, compared, rest⟩ := bind_eq_ok.mp rest
    cases equal with
    | false => cases rest
    | true =>
      cases rest
      cases name : (patch.node address).get "name" with
      | none =>
        rw [name] at compared
        cases compared
      | some held => exact Document.isObject_of_get name
  · obtain ⟨_, _, rest⟩ := bind_eq_ok.mp rest
    cases rest

/-- The body of the loop through the object it overwrites. -/
theorem updateItem_eq (patch : Document N) (patchChanged : Bool) (item : Value N) :
    updateItem numbers envVarToInject digest (patch, patchChanged) item = (do
      match ← entry numbers envVarToInject patch item with
      | none => return (patch, patchChanged)
      | some address =>
        return if ← current numbers digest patch address then (patch, patchChanged)
          else (patch.overwrite [address] "value" (.string digest), true)) := by
  unfold updateItem entry
  cases read : patch.get (some item) "value" with
  | error error => simp only [read, bind, Except.bind]
  | ok value =>
    simp only [read, bind, Except.bind, pure, Except.pure]
    rcases value with _ | (_ | _ | _ | _ | address)
    case some.ref =>
      simp only [Document.get_ref]
      cases patch.looselyEquals numbers ((patch.node address).get "name") envVarToInject with
      | error error => rfl
      | ok named =>
        cases named with
        | false => rfl
        | true =>
          simp only [if_true, current]
          cases patch.looselyEquals numbers ((patch.node address).get "value") digest with
          | error error => rfl
          | ok equal => cases equal <;> rfl
    all_goals rfl

/-! ### The loop on the document it changes -/

section loop
variable {patch : Document N} {addresses : List Nat}
  (objects : ∀ address ∈ addresses, patch.isObject address = true)

theorem get_value_overwrite {address : Nat} (listed : address ∈ addresses) (isObject : patch.isObject address = true) :
    ((patch.overwrite addresses "value" (.string digest)).node address).get "value" = some (.string digest) := by
  rw [Document.get_node_overwrite, if_pos ⟨listed, isObject⟩]

theorem get_value_overwrite_of_notMem {address : Nat} (unlisted : address ∉ addresses) :
    ((patch.overwrite addresses "value" (.string digest)).node address).get "value" =
      (patch.node address).get "value" := by
  rw [Document.get_node_overwrite, if_neg fun listed => unlisted listed.1]

theorem get_name_overwrite (address : Nat) :
    ((patch.overwrite addresses "value" (.string digest)).node address).get "name" = (patch.node address).get "name" :=
  Document.get_node_overwrite_of_ne patch addresses "value" _ (by decide) address

theorem looselyEquals_value_overwrite (target : Option (Value N)) (text : String) :
    (patch.overwrite addresses "value" (.string digest)).looselyEquals numbers target text =
      patch.looselyEquals numbers target text :=
  Document.looselyEquals_overwrite patch addresses "value" _ numbers (by decide) target text

theorem current_overwrite {address : Nat} (unlisted : address ∉ addresses) :
    current numbers digest (patch.overwrite addresses "value" (.string digest)) address =
      current numbers digest patch address := by
  unfold current
  rw [get_value_overwrite_of_notMem unlisted, looselyEquals_value_overwrite]

include objects

theorem get_overwrite_gone {item : Value N} (lost : gone addresses item = true) :
    (patch.overwrite addresses "value" (.string digest)).get (some item) "value" = .ok (some (.string digest)) := by
  cases item with
  | ref address =>
    have listed : address ∈ addresses := List.contains_iff_mem.mp lost
    exact congrArg Except.ok (get_value_overwrite listed (objects address listed))
  | _ => cases lost

omit objects in
theorem get_overwrite_not_gone {item : Value N} (kept : gone addresses item = false) :
    (patch.overwrite addresses "value" (.string digest)).get (some item) "value" = patch.get (some item) "value" := by
  cases item with
  | ref address =>
    have unlisted : address ∉ addresses := fun listed => by
      simp [gone, listed] at kept
    exact congrArg Except.ok (get_value_overwrite_of_notMem unlisted)
  | _ => rfl

/-- The value of an item that is gone is a text, which has no name. -/
theorem entry_overwrite_gone {item : Value N} (lost : gone addresses item = true) :
    entry numbers envVarToInject (patch.overwrite addresses "value" (.string digest)) item = .ok none := by
  unfold entry
  rw [get_overwrite_gone objects lost]
  rfl

omit objects in
theorem entry_overwrite_not_gone {item : Value N} (kept : gone addresses item = false) :
    entry numbers envVarToInject (patch.overwrite addresses "value" (.string digest)) item =
      entry numbers envVarToInject patch item := by
  unfold entry
  rw [get_overwrite_not_gone kept]
  cases patch.get (some item) "value" with
  | error error => rfl
  | ok value =>
    rcases value with _ | (_ | _ | _ | _ | address)
    case some.ref =>
      simp only [bind, Except.bind]
      rw [get_name_overwrite, looselyEquals_value_overwrite]
    all_goals rfl

/-- A step of the loop, when some objects are overwritten, overwrites what it collects. -/
theorem updateItem_overwrite (item : Value N) :
    updateItem numbers envVarToInject digest
        (patch.overwrite addresses "value" (.string digest), !addresses.isEmpty) item =
      (collect numbers envVarToInject digest patch addresses item).map fun addresses =>
        (patch.overwrite addresses "value" (.string digest), !addresses.isEmpty) := by
  rw [updateItem_eq, collect]
  cases lost : gone addresses item with
  | true =>
    rw [entry_overwrite_gone objects lost]
    rfl
  | false =>
    rw [entry_overwrite_not_gone lost]
    cases named : entry numbers envVarToInject patch item with
    | error error => rfl
    | ok found =>
      cases found with
      | none => rfl
      | some address =>
        by_cases listed : address ∈ addresses
        · have equal :
              current numbers digest (patch.overwrite addresses "value" (.string digest)) address = .ok true := by
            unfold current
            rw [get_value_overwrite listed (objects address listed)]
            exact Document.looselyEquals_string numbers _ digest
          simp [bind, Except.bind, equal, listed, pure, Except.pure, Except.map]
        · simp only [bind, Except.bind, current_overwrite listed, pure, Except.pure]
          simp only [List.contains_iff_mem.not.mpr listed]
          cases current numbers digest patch address with
          | error error => rfl
          | ok equal =>
            cases equal with
            | true => simp [Except.map]
            | false => simp [Except.map, Document.overwrite_overwrite]

end loop

/-! ### What is overwritten -/

variable (numbers envVarToInject digest) in
/-- Objects that items name and that do not have the digest. -/
structure Chosen (patch : Document N) (items : List (Value N)) (addresses : List Nat) : Prop where
  named : ∀ address ∈ addresses, ∃ item ∈ items, entry numbers envVarToInject patch item = .ok (some address)
  outdated : ∀ address ∈ addresses, current numbers digest patch address = .ok false

variable (numbers envVarToInject digest) in
/-- An item that asks for nothing once these objects are overwritten. -/
def Settled (patch : Document N) (addresses : List Nat) (item : Value N) : Prop :=
  gone addresses item = true ∨ ∃ found, entry numbers envVarToInject patch item = .ok found ∧
    ∀ address, found = some address → address ∈ addresses ∨ current numbers digest patch address = .ok true

section run
variable {patch : Document N} {items : List (Value N)} {addresses after : List Nat}

theorem Chosen.objects (chosen : Chosen numbers envVarToInject digest patch items addresses) :
    ∀ address ∈ addresses, patch.isObject address = true := by
  intro address listed
  obtain ⟨_, _, named⟩ := chosen.named address listed
  exact isObject_of_entry named

theorem Chosen.nil : Chosen numbers envVarToInject digest patch items [] where
  named _ listed := nomatch listed
  outdated _ listed := nomatch listed

theorem Settled.mono {item : Value N} (settled : Settled numbers envVarToInject digest patch addresses item)
    (more : addresses ⊆ after) : Settled numbers envVarToInject digest patch after item := by
  rcases settled with lost | ⟨found, named, has⟩
  · left
    cases item with
    | ref address => exact List.contains_iff_mem.mpr (more (List.contains_iff_mem.mp lost))
    | _ => cases lost
  · exact .inr ⟨found, named, fun address here => (has address here).imp_left fun listed => more listed⟩

/-- An item adds its own object at most, and is settled then. -/
theorem collect_spec (chosen : Chosen numbers envVarToInject digest patch items addresses) {item : Value N}
    (listed : item ∈ items) (ran : collect numbers envVarToInject digest patch addresses item = .ok after) :
    addresses ⊆ after ∧ Chosen numbers envVarToInject digest patch items after ∧
      Settled numbers envVarToInject digest patch after item := by
  unfold collect at ran
  split at ran
  · rename_i lost
    cases ran
    exact ⟨fun _ => id, chosen, .inl lost⟩
  · obtain ⟨found, named, rest⟩ := bind_eq_ok.mp ran
    cases found with
    | none =>
      cases rest
      exact ⟨fun _ => id, chosen, .inr ⟨none, named, nofun⟩⟩
    | some address =>
      simp only at rest
      split at rest
      · rename_i already
        cases rest
        refine ⟨fun _ => id, chosen, .inr ⟨some address, named, fun _ same => .inl ?_⟩⟩
        cases same
        exact List.contains_iff_mem.mp already
      · obtain ⟨equal, compared, rest⟩ := bind_eq_ok.mp rest
        cases equal with
        | true =>
          cases rest
          refine ⟨fun _ => id, chosen, .inr ⟨some address, named, fun _ same => .inr ?_⟩⟩
          cases same
          exact compared
        | false =>
          cases rest
          refine ⟨List.subset_cons_self address addresses, ⟨?_, ?_⟩, .inr ⟨some address, named, fun _ same => .inl ?_⟩⟩
          · exact List.forall_mem_cons.mpr ⟨⟨item, listed, named⟩, chosen.named⟩
          · exact List.forall_mem_cons.mpr ⟨compared, chosen.outdated⟩
          · cases same
            exact List.mem_cons_self

theorem foldlM_collect {remaining : List (Value N)} (listed : remaining ⊆ items)
    (chosen : Chosen numbers envVarToInject digest patch items addresses)
    (ran : remaining.foldlM (collect numbers envVarToInject digest patch) addresses = .ok after) :
    addresses ⊆ after ∧ Chosen numbers envVarToInject digest patch items after ∧
      ∀ item ∈ remaining, Settled numbers envVarToInject digest patch after item := by
  induction remaining generalizing addresses with
  | nil =>
    cases ran
    exact ⟨fun _ => id, chosen, nofun⟩
  | cons item rest ih =>
    rw [List.cons_subset] at listed
    rw [List.foldlM_cons] at ran
    obtain ⟨next, collected, ran⟩ := bind_eq_ok.mp ran
    obtain ⟨more, chosen, settled⟩ := collect_spec chosen listed.1 collected
    obtain ⟨further, chosen, others⟩ := ih listed.2 chosen ran
    exact ⟨List.Subset.trans more further, chosen, List.forall_mem_cons.mpr ⟨settled.mono further, others⟩⟩

/-- The loop overwrites what would be collected from the patch as it was. -/
theorem foldlM_updateItem {remaining : List (Value N)} (listed : remaining ⊆ items)
    (chosen : Chosen numbers envVarToInject digest patch items addresses) :
    remaining.foldlM (updateItem numbers envVarToInject digest)
        (patch.overwrite addresses "value" (.string digest), !addresses.isEmpty) =
      (remaining.foldlM (collect numbers envVarToInject digest patch) addresses).map fun addresses =>
        (patch.overwrite addresses "value" (.string digest), !addresses.isEmpty) := by
  induction remaining generalizing addresses with
  | nil => rfl
  | cons item rest ih =>
    rw [List.cons_subset] at listed
    rw [List.foldlM_cons, List.foldlM_cons, updateItem_overwrite chosen.objects]
    cases collected : collect numbers envVarToInject digest patch addresses item with
    | error error => rfl
    | ok next => exact ih listed.2 (collect_spec chosen listed.1 collected).2.1

end run

/-! ### The patch as a text -/

variable (numbers envVarToInject digest)

/-- A patch and what of it is overwritten. -/
def readPatch (text : String) : Except JsError (Document N × List Nat) := do
  let patch ← yaml.load text
  return (patch, ← overwritten numbers envVarToInject digest patch (← forEachItems numbers patch))

theorem updatePatch_eq (text : String) :
    updatePatch numbers yaml envVarToInject digest text =
      (readPatch numbers yaml envVarToInject digest text).map fun (patch, addresses) =>
        if addresses.isEmpty then none else some (yaml.dump (patch.overwrite addresses "value" (.string digest))) := by
  unfold updatePatch readPatch
  cases yaml.load text with
  | error error => rfl
  | ok patch =>
    simp only [bind, Except.bind, pure, Except.pure, overwritten]
    cases forEachItems numbers patch with
    | error error => rfl
    | ok items =>
      have loop := foldlM_updateItem (List.Subset.refl items)
        (Chosen.nil : Chosen numbers envVarToInject digest patch items [])
      rw [Document.overwrite_nil] at loop
      simp only [List.isEmpty_nil, Bool.not_true] at loop
      simp only [loop]
      cases items.foldlM (collect numbers envVarToInject digest patch) [] with
      | error error => rfl
      | ok addresses => cases addresses <;> rfl

/-- An object that an item of the patch names. -/
def Named (patch : Document N) (address : Nat) : Prop :=
  ∃ items, forEachItems numbers patch = .ok items ∧
    ∃ item ∈ items, entry numbers envVarToInject patch item = .ok (some address)

/-- All objects that are named in the new patch have the digest, and it is the old one
but for the value of those objects that were named there and had another. -/
def PatchUpdated (text updated : String) : Prop :=
  ∃ before addresses after, readPatch numbers yaml envVarToInject digest text = .ok (before, addresses) ∧
    yaml.load updated = .ok after ∧ (∀ address ∈ addresses, Named numbers envVarToInject before address) ∧
    (before.overwrite addresses "value" (.string digest)).Alike after ∧
    ∀ address, Named numbers envVarToInject after address → (after.node address).get "value" = some (.string digest)

/-- A patch in which an item keeps a value that is not the digest, but only compares
equal to it. -/
def Stuck (text : String) : Prop :=
  ∃ patch addresses items, readPatch numbers yaml envVarToInject digest text = .ok (patch, addresses) ∧
    forEachItems numbers patch = .ok items ∧ ∃ item ∈ items, gone addresses item = false ∧
      ∃ address, entry numbers envVarToInject patch item = .ok (some address) ∧
        current numbers digest patch address = .ok true ∧ (patch.node address).get "value" ≠ some (.string digest)

/-- A patch that is not written, or without dates that would not be read again. -/
def Rewritable (text : String) : Prop :=
  ∀ patch addresses, readPatch numbers yaml envVarToInject digest text = .ok (patch, addresses) → addresses ≠ [] →
    (patch.overwrite addresses "value" (.string digest)).Writable

variable {numbers yaml envVarToInject digest}

theorem read_of_updatePatch {text : String} {patched : Option String}
    (ran : updatePatch numbers yaml envVarToInject digest text = .ok patched) :
    ∃ patch addresses, readPatch numbers yaml envVarToInject digest text = .ok (patch, addresses) ∧
      patched = if addresses.isEmpty then none
        else some (yaml.dump (patch.overwrite addresses "value" (.string digest))) := by
  rw [updatePatch_eq] at ran
  obtain ⟨⟨patch, addresses⟩, read, outcome⟩ := map_eq_ok.mp ran
  exact ⟨patch, addresses, read, outcome.symm⟩

theorem readPatch_spec {text : String} {patch : Document N} {addresses : List Nat}
    (read : readPatch numbers yaml envVarToInject digest text = .ok (patch, addresses)) :
    yaml.load text = .ok patch ∧ ∃ items, forEachItems numbers patch = .ok items ∧
      Chosen numbers envVarToInject digest patch items addresses ∧
        ∀ item ∈ items, Settled numbers envVarToInject digest patch addresses item := by
  obtain ⟨loaded, load, rest⟩ := bind_eq_ok.mp read
  obtain ⟨items, listed, rest⟩ := bind_eq_ok.mp rest
  obtain ⟨collected, ran, rest⟩ := bind_eq_ok.mp rest
  cases rest
  obtain ⟨_, chosen, settled⟩ := foldlM_collect (List.Subset.refl items) Chosen.nil ran
  exact ⟨load, items, listed, chosen, settled⟩

theorem forEachItems_overwrite (patch : Document N) (addresses : List Nat) (key : String) (value : Value N) :
    forEachItems numbers (patch.overwrite addresses key value) = forEachItems numbers patch := by
  unfold forEachItems
  rw [Document.overwrite_root]
  rcases patch.root with _ | (_ | _ | _ | _ | address)
  case some.ref =>
    simp only [Document.node, Document.nodes_overwrite]
    cases patch.nodes[address]? with
    | none => rfl
    | some node =>
      by_cases listed : address ∈ addresses
      · cases node <;> simp [listed, Node.put]
      · simp [listed]
  all_goals rfl

section alike
variable {doc other : Document N} {same : Nat → Nat → Prop} (matching : Correspondence doc other same)
include matching

theorem forEachItems_alike {items : List (Value N)} (listed : forEachItems numbers doc = .ok items) :
    ∃ besides, forEachItems numbers other = .ok besides ∧ List.Forall₂ (Value.Matches same) items besides := by
  unfold forEachItems at listed ⊢
  have roots := matching.root
  generalize doc.root = root at listed roots
  generalize other.root = rootBeside at roots
  cases roots with
  | none => cases listed
  | some related =>
    cases related with
    | @ref address beside related =>
      have nodes := matching.nodes related
      simp only at listed ⊢
      generalize doc.node address = node at listed nodes
      generalize other.node beside = nodeBeside at nodes
      cases nodes with
      | array related =>
        cases listed
        exact ⟨_, rfl, related⟩
      | binary bytes =>
        cases listed
        refine ⟨_, rfl, List.forall₂_same.mpr fun item held => ?_⟩
        obtain ⟨byte, _, rfl⟩ := List.mem_map.mp held
        exact .number _
      | _ => cases listed
    | _ => cases listed

theorem current_alike {address beside : Nat} (related : same address beside) :
    current numbers digest doc address = current numbers digest other beside :=
  matching.looselyEquals numbers (matching.get_node related "value") digest

theorem entry_alike {item beside : Value N} (related : item.Matches same beside) {found : Option Nat}
    (named : entry numbers envVarToInject doc item = .ok found) :
    ∃ foundBeside, entry numbers envVarToInject other beside = .ok foundBeside ∧ Option.Rel same found foundBeside := by
  obtain ⟨value, read, rest⟩ := bind_eq_ok.mp named
  obtain ⟨valueBeside, readBeside, values⟩ := matching.get (.some related) read
  unfold entry
  simp only [readBeside, bind, Except.bind]
  cases values with
  | none => cases rest
  | some values =>
    cases values with
    | null => cases rest
    | @ref address addressBeside related =>
      obtain ⟨equal, compared, rest⟩ := bind_eq_ok.mp rest
      rw [matching.looselyEquals numbers (matching.get_node related "name")] at compared
      cases rest
      simp only [compared]
      cases equal with
      | true => exact ⟨_, rfl, .some related⟩
      | false => exact ⟨_, rfl, .none⟩
    | _ =>
      cases rest
      exact ⟨_, rfl, .none⟩

theorem settled_alike {item beside : Value N} (related : item.Matches same beside)
    (settled : Settled numbers envVarToInject digest doc [] item) :
    Settled numbers envVarToInject digest other [] beside := by
  obtain ⟨found, named, has⟩ := settled.resolve_left (by simp [gone_nil])
  obtain ⟨foundBeside, namedBeside, founds⟩ := entry_alike matching related named
  refine .inr ⟨foundBeside, namedBeside, fun address here => .inr ?_⟩
  subst here
  cases founds with
  | some related =>
    rw [← current_alike matching related]
    exact (has _ rfl).resolve_left List.not_mem_nil

end alike

theorem settled_overwrite {patch : Document N} {items : List (Value N)} {addresses : List Nat}
    (chosen : Chosen numbers envVarToInject digest patch items addresses) {item : Value N}
    (settled : Settled numbers envVarToInject digest patch addresses item) :
    Settled numbers envVarToInject digest (patch.overwrite addresses "value" (.string digest)) [] item := by
  right
  cases lost : gone addresses item with
  | true => exact ⟨none, entry_overwrite_gone chosen.objects lost, nofun⟩
  | false =>
    obtain ⟨found, named, has⟩ := settled.resolve_left (by simp [lost])
    refine ⟨found, (entry_overwrite_not_gone lost).trans named, fun address here => .inr ?_⟩
    by_cases listed : address ∈ addresses
    · unfold current
      rw [get_value_overwrite listed (chosen.objects address listed)]
      exact Document.looselyEquals_string numbers _ digest
    · rw [current_overwrite listed]
      exact (has address here).resolve_left listed

theorem overwritten_settled {patch : Document N} {items : List (Value N)}
    (settled : ∀ item ∈ items, Settled numbers envVarToInject digest patch [] item) :
    overwritten numbers envVarToInject digest patch items = .ok [] := by
  unfold overwritten
  induction items with
  | nil => rfl
  | cons item rest ih =>
    rw [List.forall_mem_cons] at settled
    obtain ⟨found, named, has⟩ := settled.1.resolve_left (by simp [gone_nil])
    have collected : collect numbers envVarToInject digest patch [] item = .ok [] := by
      cases found with
      | none => simp [collect, gone_nil, named, bind, Except.bind, pure, Except.pure]
      | some address =>
        have equal := (has address rfl).resolve_left List.not_mem_nil
        simp [collect, gone_nil, named, equal, bind, Except.bind, pure, Except.pure]
    rw [List.foldlM_cons, collected]
    exact ih settled.2

theorem sound_of_readPatch {text : String} {patch : Document N} {addresses others : List Nat}
    (read : readPatch numbers yaml envVarToInject digest text = .ok (patch, addresses)) :
    (patch.overwrite others "value" (.string digest)).Sound :=
  (yaml.sound text patch (readPatch_spec read).1).overwrite rfl

/-- What a patch is after the step, whether it was written or not. -/
theorem load_patched {text : String} {patch : Document N} {addresses : List Nat} {patched : Option String}
    (rewritable : Rewritable numbers yaml envVarToInject digest text)
    (read : readPatch numbers yaml envVarToInject digest text = .ok (patch, addresses))
    (ran : updatePatch numbers yaml envVarToInject digest text = .ok patched) :
    ∃ after, yaml.load (patched.getD text) = .ok after ∧
      (patch.overwrite addresses "value" (.string digest)).Alike after := by
  rw [updatePatch_eq, read] at ran
  cases ran
  cases addresses with
  | nil =>
    refine ⟨patch, (readPatch_spec read).1, ?_⟩
    rw [Document.overwrite_nil]
    exact patch.alike_self
  | cons address rest => exact yaml.load_dump _ (sound_of_readPatch read) (rewritable _ _ read (List.cons_ne_nil _ _))

/-- The new patch needs nothing, so that a second run leaves it. -/
theorem readPatch_again {text : String} {patched : Option String}
    (rewritable : Rewritable numbers yaml envVarToInject digest text)
    (ran : updatePatch numbers yaml envVarToInject digest text = .ok patched) :
    ∃ after, readPatch numbers yaml envVarToInject digest (patched.getD text) = .ok (after, []) := by
  obtain ⟨patch, addresses, read, _⟩ := read_of_updatePatch ran
  obtain ⟨_, items, listed, chosen, settled⟩ := readPatch_spec read
  obtain ⟨after, load, same, matching⟩ := load_patched rewritable read ran
  rw [← forEachItems_overwrite patch addresses "value" (.string digest)] at listed
  obtain ⟨besides, listedBeside, related⟩ := forEachItems_alike matching listed
  have all : ∀ beside ∈ besides, Settled numbers envVarToInject digest after [] beside := by
    intro beside held
    obtain ⟨item, here, related⟩ := exists_of_forall₂ related held
    exact settled_alike matching related (settled_overwrite chosen (settled item here))
  refine ⟨after, ?_⟩
  simp [readPatch, load, listedBeside, overwritten_settled all, bind, Except.bind, pure, Except.pure]

theorem updatePatch_again {text : String} {patched : Option String}
    (rewritable : Rewritable numbers yaml envVarToInject digest text)
    (ran : updatePatch numbers yaml envVarToInject digest text = .ok patched) :
    updatePatch numbers yaml envVarToInject digest (patched.getD text) = .ok none := by
  obtain ⟨after, read⟩ := readPatch_again rewritable ran
  rw [updatePatch_eq, read]
  rfl

/-- A patch that is written changes: it would not be written again, or it loses a date. -/
theorem updatePatch_differs {text updated : String}
    (ran : updatePatch numbers yaml envVarToInject digest text = .ok (some updated)) : updated ≠ text := by
  intro same
  obtain ⟨patch, addresses, read, outcome⟩ := read_of_updatePatch ran
  by_cases kept : Rewritable numbers yaml envVarToInject digest text
  · have again := updatePatch_again kept ran
    rw [Option.getD_some, same, ran] at again
    cases again
  · apply kept
    intro patch' addresses' read' _
    cases read.symm.trans read'
    split at outcome
    · cases outcome
    · have load := (readPatch_spec read).1
      rw [← same, Option.some.inj outcome] at load
      exact (yaml.writable _ _ (sound_of_readPatch read) load).overwrite

/-- An item that keeps what only compares equal leaves the new patch incomplete. -/
theorem complete_iff {text : String} {patch after : Document N} {addresses : List Nat}
    (read : readPatch numbers yaml envVarToInject digest text = .ok (patch, addresses))
    (alike : (patch.overwrite addresses "value" (.string digest)).Alike after) :
    (∀ address, Named numbers envVarToInject after address → (after.node address).get "value" = some (.string digest)) ↔
      ¬ Stuck numbers yaml envVarToInject digest text := by
  obtain ⟨load, items, listed, chosen, settled⟩ := readPatch_spec read
  obtain ⟨same, matching⟩ := alike
  have listedAfter := (forEachItems_overwrite patch addresses "value" (.string digest)).trans listed
  obtain ⟨besides, listedBeside, related⟩ := forEachItems_alike matching listedAfter
  constructor
  · rintro complete ⟨patch', addresses', items', read', listed', item, here, kept, address, named, equal, differs⟩
    cases read.symm.trans read'
    cases listed.symm.trans listed'
    have unlisted : address ∉ addresses := fun chosenToo => by
      cases equal.symm.trans (chosen.outdated address chosenToo)
    obtain ⟨beside, hereBeside, related⟩ := exists_of_forall₂ related.flip here
    obtain ⟨found, namedBeside, founds⟩ := entry_alike matching related ((entry_overwrite_not_gone kept).trans named)
    cases founds with
    | some related =>
      have value := complete _ ⟨besides, listedBeside, beside, hereBeside, namedBeside⟩
      rw [← matching.get_string_iff related, get_value_overwrite_of_notMem unlisted] at value
      exact differs value
  · rintro free addressBeside ⟨besides', listedBeside', beside, hereBeside, namedBeside⟩
    cases listedBeside.symm.trans listedBeside'
    obtain ⟨item, here, related⟩ := exists_of_forall₂ related hereBeside
    obtain ⟨found, named, has⟩ := (settled_overwrite chosen (settled item here)).resolve_left (by simp [gone_nil])
    obtain ⟨foundBeside, namedBeside', founds⟩ := entry_alike matching related named
    cases namedBeside.symm.trans namedBeside'
    cases founds with
    | @some address _ related =>
      rw [← matching.get_string_iff related]
      by_cases listedToo : address ∈ addresses
      · exact get_value_overwrite listedToo (chosen.objects address listedToo)
      · rw [get_value_overwrite_of_notMem listedToo]
        by_contra differs
        have kept : gone addresses item = false := by
          by_contra lost
          rw [Bool.not_eq_false] at lost
          cases named.symm.trans (entry_overwrite_gone chosen.objects lost)
        have equal := (has address rfl).resolve_left List.not_mem_nil
        rw [current_overwrite listedToo] at equal
        exact free ⟨patch, addresses, items, read, listed, item, here, kept, address,
          (entry_overwrite_not_gone kept).symm.trans named, equal, differs⟩

/-- A new patch is complete unless an item keeps what only compares equal, and it is the
old one besides unless it has a date that is not read again. -/
theorem patchUpdated_iff {text : String} {patched : Option String}
    (ran : updatePatch numbers yaml envVarToInject digest text = .ok patched) :
    PatchUpdated numbers yaml envVarToInject digest text (patched.getD text) ↔
      ¬ Stuck numbers yaml envVarToInject digest text ∧ Rewritable numbers yaml envVarToInject digest text := by
  obtain ⟨patch, addresses, read, outcome⟩ := read_of_updatePatch ran
  constructor
  · rintro ⟨before, addresses', after, read', loadAfter, _, alike, complete⟩
    cases read.symm.trans read'
    refine ⟨(complete_iff read alike).mp complete, fun patch' addresses' read' written => ?_⟩
    cases read.symm.trans read'
    rw [if_neg (by simpa using written)] at outcome
    rw [outcome] at loadAfter
    exact alike.writable (yaml.writable _ _ (sound_of_readPatch read) loadAfter)
  · rintro ⟨free, rewritable⟩
    obtain ⟨after, loadAfter, alike⟩ := load_patched rewritable read ran
    obtain ⟨load, items, listed, chosen, _⟩ := readPatch_spec read
    exact ⟨patch, addresses, after, read, loadAfter, fun address held => ⟨items, listed, chosen.named address held⟩,
      alike, (complete_iff read alike).mpr free⟩

end Taql.DigestPatches
