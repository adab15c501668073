import Taql.Yaml

/-! What is written of a document and read again. There are documents that no value is, with
a key twice or the keys in another order than objects have them; and of a document that
there can be, dates of far years are read as something else. -/
namespace Taql.Yaml
open JavaScript

variable {N : Type}

/-! ### Documents there can be -/

/-- The number of a key that is an index of an array, as all such keys come first. -/
def arrayIndex (key : String) : Option Nat :=
  let digits := key.toList
  let index := Nat.ofDigitChars 10 digits 0
  if digits ≠ [] ∧ digits.all Char.isDigit ∧ (digits.head? = some '0' → digits = ['0']) ∧ index < 4294967295 then
    some index
  else none

/-- Of two keys of an object, the one that comes first. -/
def keyBefore (earlier later : String) : Bool :=
  match arrayIndex later, arrayIndex earlier with
  | none, _ => true
  | some _, none => false
  | some index, some lower => lower < index

/-- No key twice, and the indices first, in their order. -/
def OrderedKeys (keys : List String) : Prop := keys.Nodup ∧ keys.Pairwise fun earlier later => keyBefore earlier later

instance (keys : List String) : Decidable (OrderedKeys keys) := inferInstanceAs (Decidable (_ ∧ _))

def Value.Inside (count : Nat) : Value N → Prop
  | ref address => address < count
  | _ => True

instance (count : Nat) (value : Value N) : Decidable (value.Inside count) := by
  cases value <;> unfold Value.Inside <;> infer_instance

/-- A node that there can be among so many. -/
def Node.Sound (count : Nat) : Node N → Prop
  | array items => ∀ item ∈ items, item.Inside count
  | object properties =>
    OrderedKeys (properties.map Prod.fst) ∧ ∀ property ∈ properties, property.2.Inside count
  | date time => -8640000000000000 ≤ time ∧ time ≤ 8640000000000000
  | binary bytes => ∀ byte ∈ bytes, byte < 256

instance (count : Nat) (node : Node N) : Decidable (node.Sound count) := by
  cases node <;> unfold Node.Sound <;> infer_instance

/-- A date from the year 100 to the year 9999: others are written with other years, or
with years that are read as others. -/
def Node.Dated : Node N → Prop
  | date time => -59011459200000 ≤ time ∧ time < 253402300800000
  | _ => True

instance (node : Node N) : Decidable node.Dated := by
  cases node <;> unfold Node.Dated <;> infer_instance

namespace Document

/-- A document that values can make up. -/
structure Sound (doc : Document N) : Prop where
  root : ∀ value ∈ doc.root, value.Inside doc.nodes.length
  nodes : ∀ node ∈ doc.nodes, node.Sound doc.nodes.length

theorem sound_iff (doc : Document N) :
    doc.Sound ↔ (∀ value ∈ doc.root, value.Inside doc.nodes.length) ∧ ∀ node ∈ doc.nodes, node.Sound doc.nodes.length :=
  ⟨fun sound => ⟨sound.root, sound.nodes⟩, fun both => ⟨both.1, both.2⟩⟩

instance (doc : Document N) : Decidable doc.Sound := decidable_of_iff' _ doc.sound_iff

/-- The nodes that are reached from the root. -/
inductive Reached (doc : Document N) : Nat → Prop where
  | root {address : Nat} (held : doc.root = some (.ref address)) : Reached doc address
  | item {address inner : Nat} {items : List (Value N)} (reached : Reached doc address)
      (array : doc.node address = .array items) (held : .ref inner ∈ items) : Reached doc inner
  | property {address inner : Nat} {properties : List (String × Value N)} {key : String} (reached : Reached doc address)
      (object : doc.node address = .object properties) (held : (key, .ref inner) ∈ properties) : Reached doc inner

/-- A document whose dates are read as they are written. -/
def Writable (doc : Document N) : Prop := ∀ address, doc.Reached address → (doc.node address).Dated

end Document

theorem keys_assign (properties : List (String × Value N)) (key : String) (value : Value N) :
    (assign properties key value).map Prod.fst =
      if key ∈ properties.map Prod.fst then properties.map Prod.fst else properties.map Prod.fst ++ [key] := by
  induction properties with
  | nil => rfl
  | cons property rest ih =>
    obtain ⟨name, held⟩ := property
    by_cases same : name = key
    · simp [assign, same]
    · by_cases listed : key ∈ rest.map Prod.fst <;> simp [assign, same, Ne.symm same, ih, listed]

theorem mem_assign {properties : List (String × Value N)} {key : String} {value : Value N} {property : String × Value N}
    (held : property ∈ assign properties key value) : property ∈ properties ∨ property.2 = value := by
  induction properties with
  | nil => exact .inr (List.mem_singleton.mp held ▸ rfl)
  | cons first rest ih =>
    obtain ⟨name, _⟩ := first
    unfold assign at held
    split at held
    · rcases List.mem_cons.mp held with rfl | held
      · exact .inr rfl
      · exact .inl (List.mem_cons_of_mem _ held)
    · rcases List.mem_cons.mp held with rfl | held
      · exact .inl List.mem_cons_self
      · exact (ih held).imp_left (List.mem_cons_of_mem _)

theorem orderedKeys_assign {properties : List (String × Value N)} {key : String} (named : arrayIndex key = none)
    (value : Value N) (ordered : OrderedKeys (properties.map Prod.fst)) :
    OrderedKeys ((assign properties key value).map Prod.fst) := by
  rw [keys_assign]
  split
  · exact ordered
  · rename_i fresh
    obtain ⟨nodup, pairwise⟩ := ordered
    refine ⟨List.nodup_append.mpr ⟨nodup, List.nodup_singleton _, ?_⟩,
      List.pairwise_append.mpr ⟨pairwise, List.pairwise_singleton _ _, ?_⟩⟩
    · rintro other held _ last rfl
      exact fresh (List.mem_singleton.mp last ▸ held)
    · intro earlier _ later last
      rw [List.mem_singleton.mp last, keyBefore, named]

namespace Document

variable {doc : Document N} {addresses : List Nat} {key : String} {text : String}

/-- A text under a name leaves what there can be. -/
theorem Sound.overwrite (sound : doc.Sound) (named : arrayIndex key = none) :
    (doc.overwrite addresses key (.string text)).Sound := by
  refine ⟨?_, ?_⟩ <;> rw [overwrite_length]
  · exact sound.root
  · intro node held
    obtain ⟨address, held⟩ := List.mem_iff_getElem?.mp held
    rw [nodes_overwrite] at held
    obtain ⟨before, there, rfl⟩ := Option.map_eq_some_iff.mp held
    have was := sound.nodes before (List.mem_of_getElem? there)
    split
    · cases before with
      | object properties =>
        refine ⟨orderedKeys_assign named _ was.1, fun property member => ?_⟩
        rcases mem_assign member with earlier | same
        · exact was.2 property earlier
        · rw [same]
          trivial
      | _ => exact was
    · exact was

/-- Writing a text reaches nothing that was not reached before. -/
theorem reached_of_overwrite {address : Nat} (reached : (doc.overwrite addresses key (.string text)).Reached address) :
    doc.Reached address := by
  have node (address : Nat) : (doc.overwrite addresses key (.string text)).node address = doc.node address ∨
      ∃ properties, doc.node address = .object properties ∧
        (doc.overwrite addresses key (.string text)).node address =
          .object (Yaml.assign properties key (.string text)) := by
    unfold Document.node
    rw [nodes_overwrite]
    cases doc.nodes[address]? with
    | none => exact .inl rfl
    | some node =>
      by_cases listed : address ∈ addresses
      · cases node with
        | object properties => exact .inr ⟨properties, rfl, by simp [listed, Node.put]⟩
        | _ => exact .inl (by simp [listed, Node.put])
      · exact .inl (by simp [listed])
  induction reached with
  | root held => exact .root held
  | item _ array held ih =>
    rcases node _ with same | ⟨_, _, there⟩
    · exact .item ih (same ▸ array) held
    · rw [there] at array
      cases array
  | property _ object held ih =>
    rcases node _ with same | ⟨properties, was, there⟩
    · exact .property ih (same ▸ object) held
    · rw [there] at object
      cases object
      rcases mem_assign held with earlier | same
      · exact .property ih was earlier
      · cases same

theorem dated_overwrite (address : Nat) (dated : (doc.node address).Dated) :
    ((doc.overwrite addresses key (.string text)).node address).Dated := by
  unfold Document.node at dated ⊢
  rw [nodes_overwrite]
  cases held : doc.nodes[address]? with
  | none => trivial
  | some node =>
    rw [held] at dated
    simp only [Option.map_some, Option.getD_some] at dated ⊢
    split
    · cases node with
      | object properties => trivial
      | _ => exact dated
    · exact dated

theorem Writable.overwrite (writable : doc.Writable) : (doc.overwrite addresses key (.string text)).Writable :=
  fun address reached => dated_overwrite address (writable address (reached_of_overwrite reached))

end Document

/-- What is reached in one document is reached in the other. -/
theorem Correspondence.reached {doc other : Document N} {same : Nat → Nat → Prop}
    (matching : Correspondence doc other same)
    {address : Nat} (reached : doc.Reached address) : ∃ beside, same address beside ∧ other.Reached beside := by
  induction reached with
  | root held =>
    have roots := matching.root
    rw [held] at roots
    cases roots' : other.root with
    | none =>
      rw [roots'] at roots
      cases roots
    | some value =>
      rw [roots'] at roots
      cases roots with
      | some related =>
        cases related with
        | ref related => exact ⟨_, related, .root roots'⟩
  | item _ array held ih =>
    obtain ⟨beside, related, reached⟩ := ih
    have nodes := matching.nodes related
    rw [array] at nodes
    cases others : other.node beside with
    | array items =>
      rw [others] at nodes
      cases nodes with
      | array items =>
        obtain ⟨value, listed, related⟩ := exists_of_forall₂ items.flip held
        cases related with
        | ref related => exact ⟨_, related, .item reached others listed⟩
    | _ =>
      rw [others] at nodes
      cases nodes
  | property _ object held ih =>
    obtain ⟨beside, related, reached⟩ := ih
    have nodes := matching.nodes related
    rw [object] at nodes
    cases others : other.node beside with
    | object properties =>
      rw [others] at nodes
      cases nodes with
      | object properties =>
        obtain ⟨⟨name, value⟩, listed, _, related⟩ := exists_of_forall₂ properties.flip held
        cases related with
        | ref related => exact ⟨_, related, .property reached others listed⟩
    | _ =>
      rw [others] at nodes
      cases nodes

theorem Document.Alike.writable {doc other : Document N} (alike : doc.Alike other) (writable : other.Writable) :
    doc.Writable := by
  obtain ⟨same, matching⟩ := alike
  intro address reached
  obtain ⟨beside, related, reachedBeside⟩ := matching.reached reached
  have nodes := matching.nodes related
  have dated := writable beside reachedBeside
  generalize doc.node address = node at nodes
  generalize other.node beside = nodeBeside at nodes dated
  cases nodes with
  | date time => exact dated
  | _ => trivial

/-- `load` and `dump`: what is loaded is a document that there can be; such a document is
read as the one that was written if its dates are; and no date is read of what was
written that would not be. -/
structure Library (N : Type) where
  load : String → Except JsError (Document N)
  dump : Document N → String
  sound : ∀ text doc, load text = .ok doc → doc.Sound
  load_dump : ∀ doc, doc.Sound → doc.Writable → ∃ read, load (dump doc) = .ok read ∧ doc.Alike read
  writable : ∀ doc read, doc.Sound → load (dump doc) = .ok read → read.Writable

end Taql.Yaml
