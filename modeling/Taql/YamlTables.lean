import Mathlib.Logic.Equiv.List
import Taql.YamlWriting

/-! A library that reads and writes some texts as a table has them, and any other document
as a number after a mark that none of them starts with, without the dates that could not be
read again. -/
namespace Taql.YamlTables
open JavaScript Yaml

/-! ### Documents as numbers -/

instance charEncodable : Encodable Char := Encodable.ofLeftInverse Char.toNat Char.ofNat Char.ofNat_toNat

instance stringEncodable : Encodable String :=
  Encodable.ofLeftInverse String.toList String.ofList fun _ => String.ofList_toList

variable {N : Type}

def valueCode : Value N → Bool ⊕ N ⊕ String ⊕ Option Nat
  | .boolean value => .inl value
  | .number value => .inr (.inl value)
  | .string value => .inr (.inr (.inl value))
  | .null => .inr (.inr (.inr none))
  | .ref address => .inr (.inr (.inr (some address)))

def valueOf : Bool ⊕ N ⊕ String ⊕ Option Nat → Value N
  | .inl value => .boolean value
  | .inr (.inl value) => .number value
  | .inr (.inr (.inl value)) => .string value
  | .inr (.inr (.inr none)) => .null
  | .inr (.inr (.inr (some address))) => .ref address

theorem valueOf_valueCode (value : Value N) : valueOf (valueCode value) = value := by cases value <;> rfl

def nodeCode : Node N → List (Value N) ⊕ List (String × Value N) ⊕ Int ⊕ List Nat
  | .array items => .inl items
  | .object properties => .inr (.inl properties)
  | .date time => .inr (.inr (.inl time))
  | .binary bytes => .inr (.inr (.inr bytes))

def nodeOf : List (Value N) ⊕ List (String × Value N) ⊕ Int ⊕ List Nat → Node N
  | .inl items => .array items
  | .inr (.inl properties) => .object properties
  | .inr (.inr (.inl time)) => .date time
  | .inr (.inr (.inr bytes)) => .binary bytes

theorem nodeOf_nodeCode (node : Node N) : nodeOf (nodeCode node) = node := by cases node <;> rfl

def documentCode (doc : Document N) : Option (Value N) × List (Node N) := (doc.root, doc.nodes)

def documentOf (code : Option (Value N) × List (Node N)) : Document N := ⟨code.1, code.2⟩

theorem documentOf_documentCode (doc : Document N) : documentOf (documentCode doc) = doc := rfl

section encodable
variable [Encodable N]

instance valueEncodable : Encodable (Value N) := Encodable.ofLeftInverse valueCode valueOf valueOf_valueCode

instance nodeEncodable : Encodable (Node N) := Encodable.ofLeftInverse nodeCode nodeOf nodeOf_nodeCode

instance documentEncodable : Encodable (Document N) :=
  Encodable.ofLeftInverse documentCode documentOf documentOf_documentCode

end encodable

/-! ### Documents that are read as they are written -/

/-- No date at all that would not be read again. -/
def Plain (doc : Document N) : Prop := doc.Sound ∧ ∀ node ∈ doc.nodes, node.Dated

instance (doc : Document N) : Decidable (Plain doc) := inferInstanceAs (Decidable (_ ∧ _))

theorem Plain.writable {doc : Document N} (plain : Plain doc) : doc.Writable := by
  intro address _
  unfold Document.node
  cases held : doc.nodes[address]? with
  | none => trivial
  | some node => exact plain.2 node (List.mem_of_getElem? held)

def plainNode (node : Node N) : Node N := if node.Dated then node else .object []

/-- The document without the dates that would not be read again. -/
def plain (doc : Document N) : Document N := { doc with nodes := doc.nodes.map plainNode }

theorem node_plain (doc : Document N) (address : Nat) : (plain doc).node address = plainNode (doc.node address) := by
  simp only [Document.node, plain, List.getElem?_map]
  cases doc.nodes[address]? with
  | none => rfl
  | some node => rfl

theorem plain_plain {doc : Document N} (sound : doc.Sound) : Plain (plain doc) := by
  have nodes : ∀ node ∈ (plain doc).nodes, node.Sound (plain doc).nodes.length ∧ node.Dated := by
    intro node held
    obtain ⟨before, there, rfl⟩ := List.mem_map.mp held
    rw [plain, List.length_map, plainNode]
    split
    · exact ⟨sound.nodes before there, ‹_›⟩
    · exact ⟨⟨⟨List.nodup_nil, List.Pairwise.nil⟩, nofun⟩, trivial⟩
  refine ⟨⟨?_, fun node held => (nodes node held).1⟩, fun node held => (nodes node held).2⟩
  rw [plain, List.length_map]
  exact sound.root

theorem matches_of_ref {same : Nat → Nat → Prop} {value : Value N}
    (related : ∀ address, value = .ref address → same address address) : value.Matches same value := by
  cases value with
  | ref address => exact .ref (related address rfl)
  | null => exact .null
  | boolean value => exact .boolean value
  | number value => exact .number value
  | string value => exact .string value

/-- Nothing that is reached is left out of a document that is read as it is written. -/
theorem alike_plain {doc : Document N} (writable : doc.Writable) : doc.Alike (plain doc) := by
  refine ⟨fun address beside => address = beside ∧ doc.Reached address, ?_, ?_, ?_⟩
  · rw [plain]
    cases held : doc.root with
    | none => exact .none
    | some value =>
      refine .some (matches_of_ref fun address same => ⟨rfl, .root ?_⟩)
      rw [held, same]
  · rintro address _ ⟨rfl, reached⟩
    rw [node_plain, plainNode, if_pos (writable address reached)]
    cases held : doc.node address with
    | array items =>
      refine .array (List.forall₂_same.mpr fun item listed => ?_)
      exact matches_of_ref fun inner same => ⟨rfl, .item reached held (same ▸ listed)⟩
    | object properties =>
      refine .object (List.forall₂_same.mpr fun property listed => ⟨rfl, ?_⟩)
      have named (inner : Nat) (same : property.2 = .ref inner) : (property.1, .ref inner) ∈ properties := same ▸ listed
      exact matches_of_ref fun inner same => ⟨rfl, .property reached held (named inner same)⟩
    | date time => exact .date time
    | binary bytes => exact .binary bytes
  · rintro left _ right _ ⟨rfl, _⟩ ⟨rfl, _⟩ _
    exact Iff.rfl

/-! ### Texts of a table -/

/-- No text is another document's, nor starts with the mark. -/
structure Table (N : Type) where
  pairs : List (String × Document N)
  known : ∀ pair ∈ pairs, (pairs.find? fun other => other.1 = pair.1) = some pair
  unmarked : ∀ pair ∈ pairs, pair.1.toList.head? ≠ some '!'
  plain : ∀ pair ∈ pairs, Plain pair.2

namespace Table

def unreadable : JsError := ⟨"YAMLException", "end of the stream or a document separator is expected"⟩

variable [Encodable N] (table : Table N)

/-- The document of a number, if its dates are such as are read. -/
def numbered (number : Nat) : Except JsError (Document N) :=
  match Encodable.decode number with
  | some doc => if Plain doc then .ok doc else .error unreadable
  | none => .error unreadable

def load (text : String) : Except JsError (Document N) :=
  match table.pairs.find? fun pair => pair.1 = text with
  | some (_, doc) => .ok doc
  | none =>
    match text.toList with
    | '!' :: digits => numbered (Nat.ofDigitChars 10 digits 0)
    | _ => .error unreadable

def marked (doc : Document N) : String := String.ofList ('!' :: Nat.toDigits 10 (Encodable.encode doc))

theorem find_marked (doc : Document N) : (table.pairs.find? fun pair => pair.1 = marked doc) = none := by
  rw [List.find?_eq_none]
  intro pair held same
  refine table.unmarked pair held ?_
  rw [of_decide_eq_true same, marked, String.toList_ofList]
  rfl

theorem plain_of_load {text : String} {doc : Document N} (load : table.load text = .ok doc) : Plain doc := by
  unfold Table.load at load
  split at load
  · rename_i found
    cases load
    exact table.plain _ (List.mem_of_find?_eq_some found)
  · split at load
    · unfold numbered at load
      split at load
      · split at load
        · cases load
          assumption
        · cases load
      · cases load
    · cases load

variable [DecidableEq N]

def dump (doc : Document N) : String :=
  ((table.pairs.find? fun pair => pair.2 = doc).map Prod.fst).getD (marked (YamlTables.plain doc))

theorem load_dump (doc : Document N) (sound : doc.Sound) (writable : doc.Writable) :
    ∃ read, table.load (table.dump doc) = .ok read ∧ doc.Alike read := by
  unfold dump
  cases found : table.pairs.find? fun pair => pair.2 = doc with
  | some pair =>
    have same := List.find?_some found
    refine ⟨doc, ?_, doc.alike_self⟩
    simp only [Option.map_some, Option.getD_some, load, table.known pair (List.mem_of_find?_eq_some found),
      of_decide_eq_true same]
  | none =>
    refine ⟨YamlTables.plain doc, ?_, alike_plain writable⟩
    simp only [Option.map_none, Option.getD_none, load, find_marked]
    simp only [marked, String.toList_ofList, Nat.ofDigitChars_ten_toDigits, numbered, Encodable.encodek,
      if_pos (plain_plain sound)]

def library : Library N where
  load := table.load
  dump := table.dump
  sound _ _ load := (table.plain_of_load load).1
  load_dump := table.load_dump
  writable _ _ _ load := (table.plain_of_load load).writable

end Table

end Taql.YamlTables
