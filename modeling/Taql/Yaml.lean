import Mathlib.Data.List.Forall2
import Taql.JavaScript

/-! YAML documents as they are loaded: a heap of nodes, so that a node with an anchor is
one object wherever an alias repeats it, and the language's operators on their values.
Floating-point numbers are given with the operators they need. Nothing here names a
service. -/
namespace Taql.Yaml
open JavaScript

/-- What the operators ask of numbers, and the text of a date in the time zone of the
process. -/
structure Numbers (N : Type) where
  ofString : String → N
  ofBoolean : Bool → N
  render : N → String
  equal : N → N → Bool
  truthy : N → Bool
  ofDate : Int → String

/-- A value that a document can hold; what is read of it is none where it is undefined. -/
inductive Value (N : Type) where
  | null
  | boolean (value : Bool)
  | number (value : N)
  | string (value : String)
  | ref (address : Nat)
  deriving DecidableEq, Repr

/-- An array, an object with its properties in order, a date in milliseconds, or binary
data. -/
inductive Node (N : Type) where
  | array (items : List (Value N))
  | object (properties : List (String × Value N))
  | date (time : Int)
  | binary (bytes : List Nat)
  deriving DecidableEq, Repr

/-- The root is undefined in an empty text. -/
structure Document (N : Type) where
  root : Option (Value N)
  nodes : List (Node N)
  deriving DecidableEq, Repr

variable {N : Type}

/-! ### Properties -/

def lookup (properties : List (String × Value N)) (key : String) : Option (Value N) :=
  match properties with
  | [] => none
  | (name, value) :: rest => if name = key then some value else lookup rest key

/-- A property keeps its place, a new one comes last. -/
def assign (properties : List (String × Value N)) (key : String) (value : Value N) : List (String × Value N) :=
  match properties with
  | [] => [(key, value)]
  | (name, held) :: rest => if name = key then (name, value) :: rest else (name, held) :: assign rest key value

def has (properties : List (String × Value N)) (key : String) : Bool := properties.any fun property => property.1 = key

@[simp] theorem lookup_assign (properties : List (String × Value N)) (key : String) (value : Value N) :
    lookup (assign properties key value) key = some value := by
  induction properties with
  | nil => simp [assign, lookup]
  | cons property rest ih =>
    obtain ⟨name, held⟩ := property
    by_cases same : name = key <;> simp [assign, lookup, same, ih]

theorem lookup_assign_of_ne (properties : List (String × Value N)) {key other : String} (value : Value N)
    (differ : other ≠ key) : lookup (assign properties key value) other = lookup properties other := by
  induction properties with
  | nil => simp [assign, lookup, Ne.symm differ]
  | cons property rest ih =>
    obtain ⟨name, held⟩ := property
    by_cases same : name = key
    · subst same
      simp [assign, lookup, Ne.symm differ]
    · by_cases named : name = other <;> simp [assign, lookup, same, named, differ, ih]

theorem assign_assign (properties : List (String × Value N)) (key : String) (value : Value N) :
    assign (assign properties key value) key value = assign properties key value := by
  induction properties with
  | nil => simp [assign]
  | cons property rest ih =>
    obtain ⟨name, held⟩ := property
    by_cases same : name = key <;> simp [assign, same, ih]

theorem assign_lookup {properties : List (String × Value N)} {key : String} {value : Value N}
    (held : lookup properties key = some value) : assign properties key value = properties := by
  induction properties with
  | nil => cases held
  | cons property rest ih =>
    obtain ⟨name, first⟩ := property
    by_cases same : name = key
    · simp only [lookup, if_pos same, Option.some.injEq] at held
      simp [assign, same, held]
    · simp only [lookup, if_neg same] at held
      simp [assign, same, ih held]

theorem has_assign_of_ne (properties : List (String × Value N)) {key other : String} (value : Value N)
    (differ : other ≠ key) : has (assign properties key value) other = has properties other := by
  induction properties with
  | nil => simp [assign, has, Ne.symm differ]
  | cons property rest ih =>
    obtain ⟨name, held⟩ := property
    unfold has at ih ⊢
    by_cases same : name = key
    · simp [assign, same]
    · simp [assign, same, ih]

namespace Node

/-- Of the keys that are asked for here, none is one that other objects inherit. -/
def get (node : Node N) (key : String) : Option (Value N) :=
  match node with
  | object properties => lookup properties key
  | _ => none

/-- What `dump` tells of a node that was assigned to: the items of an array only. -/
def put (node : Node N) (key : String) (value : Value N) : Node N :=
  match node with
  | object properties => object (assign properties key value)
  | other => other

theorem put_put (node : Node N) (key : String) (value : Value N) :
    (node.put key value).put key value = node.put key value := by
  cases node with
  | object properties => exact congrArg object (assign_assign properties key value)
  | _ => rfl

theorem put_of_get {node : Node N} {key : String} {value : Value N} (held : node.get key = some value) :
    node.put key value = node := by
  cases node with
  | object properties => exact congrArg object (assign_lookup held)
  | _ => rfl

theorem get_put_of_ne (node : Node N) {key other : String} (value : Value N) (differ : other ≠ key) :
    (node.put key value).get other = node.get other := by
  cases node with
  | object properties => exact lookup_assign_of_ne properties value differ
  | _ => rfl

end Node

/-! ### Documents -/

def readOf (nothing key : String) : JsError :=
  ⟨"TypeError", "Cannot read properties of " ++ nothing ++ " (reading '" ++ key ++ "')"⟩

def setOf (nothing key : String) : JsError :=
  ⟨"TypeError", "Cannot set properties of " ++ nothing ++ " (setting '" ++ key ++ "')"⟩

/-- In strict mode. -/
def createOn (kind text key : String) : JsError :=
  ⟨"TypeError", "Cannot create property '" ++ key ++ "' on " ++ kind ++ " '" ++ text ++ "'"⟩

def noPrimitive : JsError := ⟨"TypeError", "Cannot convert object to primitive value"⟩

namespace Document

def node (doc : Document N) (address : Nat) : Node N := (doc.nodes[address]?).getD (.object [])

def isObject (doc : Document N) (address : Nat) : Bool :=
  match doc.nodes[address]? with
  | some (.object _) => true
  | _ => false

/-- `value[key]`, for the keys that are asked for here. -/
def get (doc : Document N) (value : Option (Value N)) (key : String) : Except JsError (Option (Value N)) :=
  match value with
  | none => .error (readOf "undefined" key)
  | some .null => .error (readOf "null" key)
  | some (.ref address) => .ok ((doc.node address).get key)
  | _ => .ok none

@[simp] theorem get_ref (doc : Document N) (address : Nat) (key : String) :
    doc.get (some (.ref address)) key = .ok ((doc.node address).get key) := rfl

/-- The same property of several nodes, with one value. -/
def overwrite (doc : Document N) (addresses : List Nat) (key : String) (value : Value N) : Document N :=
  { doc with nodes := doc.nodes.mapIdx fun address node => if address ∈ addresses then node.put key value else node }

/-- `target[key] = value`. -/
def assign (numbers : Numbers N) (doc : Document N) (target : Option (Value N)) (key : String) (value : Value N) :
    Except JsError (Document N) :=
  match target with
  | none => .error (setOf "undefined" key)
  | some .null => .error (setOf "null" key)
  | some (.boolean held) => .error (createOn "boolean" (toString held) key)
  | some (.number held) => .error (createOn "number" (numbers.render held) key)
  | some (.string held) => .error (createOn "string" held key)
  | some (.ref address) => .ok (doc.overwrite [address] key value)

/-- The text of a value in an array, as `join` has it; no value of a property can be
called, so that an object with its own `toString` has none. An array that is met
within itself is written empty, and each step further in meets another one. -/
def text (numbers : Numbers N) (doc : Document N) : Nat → List Nat → Value N → Except JsError String
  | _, _, .null => .ok ""
  | _, _, .boolean value => .ok (toString value)
  | _, _, .number value => .ok (numbers.render value)
  | _, _, .string value => .ok value
  | 0, _, .ref _ => .ok ""
  | steps + 1, visiting, .ref address =>
    match doc.node address with
    | .object properties => if has properties "toString" then .error noPrimitive else .ok "[object Object]"
    | .date time => .ok (numbers.ofDate time)
    | .binary bytes => .ok (",".intercalate (bytes.map toString))
    | .array items =>
      if address ∈ visiting then .ok ""
      else do return ",".intercalate (← items.mapM (text numbers doc steps (address :: visiting)))

/-- `value == text`. -/
def looselyEquals (numbers : Numbers N) (doc : Document N) (value : Option (Value N)) (other : String) :
    Except JsError Bool :=
  match value with
  | none | some .null => .ok false
  | some (.boolean value) => .ok (numbers.equal (numbers.ofBoolean value) (numbers.ofString other))
  | some (.number value) => .ok (numbers.equal value (numbers.ofString other))
  | some (.string value) => .ok (value = other)
  | some (.ref address) => do return (← doc.text numbers (doc.nodes.length + 1) [] (.ref address)) = other

theorem isObject_of_get {doc : Document N} {address : Nat} {key : String} {value : Value N}
    (held : (doc.node address).get key = some value) : doc.isObject address = true := by
  unfold Document.node at held
  unfold Document.isObject
  cases found : doc.nodes[address]? with
  | none =>
    rw [found] at held
    cases held
  | some node =>
    rw [found] at held
    cases node with
    | object properties => rfl
    | _ => cases held

theorem looselyEquals_string (numbers : Numbers N) (doc : Document N) (text : String) :
    doc.looselyEquals numbers (some (.string text)) text = .ok true :=
  congrArg Except.ok (decide_eq_true rfl)

end Document

/-! ### The steps of a text -/

namespace Document

/-- How many nodes are not being visited. -/
def unvisited (doc : Document N) (visiting : List Nat) : Nat :=
  ((List.range doc.nodes.length).filter fun address => address ∉ visiting).length

theorem unvisited_lt {doc : Document N} {visiting : List Nat} {address : Nat} (held : address < doc.nodes.length)
    (fresh : address ∉ visiting) : doc.unvisited (address :: visiting) < doc.unvisited visiting := by
  have rest : (List.range doc.nodes.length).filter (fun other => decide (other ∉ address :: visiting)) =
      ((List.range doc.nodes.length).filter fun other => other ∉ visiting).filter fun other => other ≠ address := by
    rw [List.filter_filter]
    refine List.filter_congr fun other _ => ?_
    simp [not_or]
  unfold unvisited
  rw [rest, List.length_filter_lt_length_iff_exists]
  exact ⟨address, List.mem_filter.mpr ⟨List.mem_range.mpr held, decide_eq_true fresh⟩, by simp⟩

/-- No text takes more steps than there are nodes left to visit, so that those that
`looselyEquals` grants are enough. -/
theorem text_enough (numbers : Numbers N) {doc : Document N} {steps more : Nat} {visiting : List Nat}
    (enough : doc.unvisited visiting < steps) (alsoEnough : doc.unvisited visiting < more) (value : Value N) :
    doc.text numbers steps visiting value = doc.text numbers more visiting value := by
  induction steps generalizing more visiting value with
  | zero => exact absurd enough (Nat.not_lt_zero _)
  | succ steps ih =>
    obtain ⟨more, rfl⟩ : ∃ fewer, more = fewer + 1 := ⟨more - 1, by omega⟩
    cases value with
    | ref address =>
      unfold text
      cases held : doc.node address with
      | array items =>
        by_cases again : address ∈ visiting
        · simp only [if_pos again]
        · have inside : address < doc.nodes.length := by
            by_contra outside
            rw [node, List.getElem?_eq_none (Nat.le_of_not_lt outside)] at held
            cases held
          have fewer := unvisited_lt inside again
          have same : doc.text numbers steps (address :: visiting) = doc.text numbers more (address :: visiting) :=
            funext fun item => ih (by omega) (by omega) item
          simp only [if_neg again, same]
      | _ => rfl
    | _ => rfl

theorem text_of_length (numbers : Numbers N) {doc : Document N} {steps : Nat} (long : doc.nodes.length ≤ steps)
    (value : Value N) : doc.text numbers (doc.nodes.length + 1) [] value = doc.text numbers (steps + 1) [] value := by
  have all : doc.unvisited [] ≤ doc.nodes.length := (List.length_filter_le _ _).trans (List.length_range ..).le
  exact text_enough numbers (Nat.lt_succ_of_le all) (Nat.lt_succ_of_le (all.trans long)) value

end Document

def truthy (numbers : Numbers N) : Option (Value N) → Bool
  | none | some .null => false
  | some (.boolean value) => value
  | some (.number value) => numbers.truthy value
  | some (.string value) => value ≠ ""
  | some (.ref _) => true

/-! ### Overwriting -/

namespace Document

variable (doc : Document N) (addresses : List Nat) (key : String) (value : Value N)

@[simp] theorem overwrite_root : (doc.overwrite addresses key value).root = doc.root := rfl

@[simp] theorem overwrite_length : (doc.overwrite addresses key value).nodes.length = doc.nodes.length := by
  simp [overwrite]

theorem nodes_overwrite (address : Nat) :
    (doc.overwrite addresses key value).nodes[address]? =
      (doc.nodes[address]?).map fun node => if address ∈ addresses then node.put key value else node := by
  simp [overwrite, List.getElem?_mapIdx]

theorem ext_nodes {doc other : Document N} (root : doc.root = other.root)
    (nodes : ∀ address : Nat, doc.nodes[address]? = other.nodes[address]?) : doc = other := by
  obtain ⟨_, docNodes⟩ := doc
  obtain ⟨_, otherNodes⟩ := other
  cases root
  exact congrArg _ (List.ext_getElem? nodes)

theorem overwrite_nil : doc.overwrite [] key value = doc := by
  refine ext_nodes rfl fun address => ?_
  rw [nodes_overwrite]
  cases doc.nodes[address]? <;> simp

theorem overwrite_of_get {doc : Document N} {address : Nat} {key : String} {value : Value N}
    (held : (doc.node address).get key = some value) : doc.overwrite [address] key value = doc := by
  refine ext_nodes rfl fun other => ?_
  rw [nodes_overwrite]
  by_cases here : other = address
  · subst here
    unfold node at held
    cases found : doc.nodes[other]? with
    | none => rfl
    | some node =>
      rw [found, Option.getD_some] at held
      simp [Node.put_of_get held]
  · simp [here]

theorem overwrite_overwrite (address : Nat) :
    (doc.overwrite addresses key value).overwrite [address] key value =
      doc.overwrite (address :: addresses) key value := by
  refine ext_nodes rfl fun other => ?_
  rw [nodes_overwrite, nodes_overwrite, nodes_overwrite, Option.map_map]
  congr 1
  funext node
  by_cases here : other = address
  · by_cases before : address ∈ addresses <;> simp [here, before, Node.put_put]
  · by_cases before : other ∈ addresses <;> simp [here, before]

theorem get_node_overwrite_of_ne {other : String} (differ : other ≠ key) (address : Nat) :
    ((doc.overwrite addresses key value).node address).get other = (doc.node address).get other := by
  unfold node
  rw [nodes_overwrite]
  cases doc.nodes[address]? with
  | none => rfl
  | some node =>
    rw [Option.map_some, Option.getD_some, Option.getD_some]
    split
    · exact Node.get_put_of_ne node value differ
    · rfl

theorem get_overwrite_of_ne {other : String} (differ : other ≠ key) (target : Option (Value N)) :
    (doc.overwrite addresses key value).get target other = doc.get target other := by
  cases target with
  | none => rfl
  | some target =>
    cases target with
    | ref address => exact congrArg Except.ok (get_node_overwrite_of_ne doc addresses key value differ address)
    | _ => rfl

/-- An object that was overwritten has the value, and any other node what it had. -/
theorem get_node_overwrite (address : Nat) :
    ((doc.overwrite addresses key value).node address).get key =
      if address ∈ addresses ∧ doc.isObject address = true then some value else (doc.node address).get key := by
  unfold node isObject
  rw [nodes_overwrite]
  cases doc.nodes[address]? with
  | none => simp
  | some node =>
    rw [Option.map_some, Option.getD_some, Option.getD_some]
    by_cases listed : address ∈ addresses
    · cases node with
      | object properties => simp [listed, Node.put, Node.get]
      | _ => simp [listed, Node.put, Node.get]
    · simp [listed]

theorem text_overwrite (numbers : Numbers N) (kept : "toString" ≠ key) (steps : Nat) (visiting : List Nat)
    (target : Value N) :
    (doc.overwrite addresses key value).text numbers steps visiting target =
      doc.text numbers steps visiting target := by
  induction steps generalizing visiting target with
  | zero => cases target <;> rfl
  | succ steps ih =>
    cases target with
    | ref address =>
      unfold text node
      rw [nodes_overwrite]
      cases doc.nodes[address]? with
      | none => rfl
      | some node =>
        rw [Option.map_some, Option.getD_some, Option.getD_some]
        cases node with
        | object properties =>
          by_cases listed : address ∈ addresses
          · simp only [if_pos listed, Node.put, has_assign_of_ne properties value kept]
          · simp only [if_neg listed]
        | array items =>
          have same : (doc.overwrite addresses key value).text numbers steps (address :: visiting) =
              doc.text numbers steps (address :: visiting) := funext fun item => ih (address :: visiting) item
          by_cases listed : address ∈ addresses
          · simp only [if_pos listed, Node.put, same]
          · simp only [if_neg listed, same]
        | date time => simp only [Node.put, ite_self]
        | binary bytes => simp only [Node.put, ite_self]
    | _ => rfl

theorem looselyEquals_overwrite (numbers : Numbers N) (kept : "toString" ≠ key) (target : Option (Value N))
    (other : String) :
    (doc.overwrite addresses key value).looselyEquals numbers target other =
      doc.looselyEquals numbers target other := by
  cases target with
  | none => rfl
  | some target =>
    cases target with
    | ref address =>
      unfold looselyEquals
      rw [overwrite_length]
      exact congrArg (fun text => text >>= fun text => pure (decide (text = other)))
        (text_overwrite doc addresses key value numbers kept _ _ _)
    | _ => rfl

end Document

/-! ### Documents under other addresses -/

/-- A value where its object has another address. -/
inductive Value.Matches (same : Nat → Nat → Prop) : Value N → Value N → Prop where
  | null : Matches same null null
  | boolean (value : Bool) : Matches same (boolean value) (boolean value)
  | number (value : N) : Matches same (number value) (number value)
  | string (value : String) : Matches same (string value) (string value)
  | ref {address other : Nat} : same address other → Matches same (ref address) (ref other)

inductive Node.Matches (same : Nat → Nat → Prop) : Node N → Node N → Prop where
  | array {items others : List (Value N)} : List.Forall₂ (Value.Matches same) items others →
      Matches same (array items) (array others)
  | object {properties others : List (String × Value N)} :
      List.Forall₂ (fun property other => property.1 = other.1 ∧ property.2.Matches same other.2) properties others →
      Matches same (object properties) (object others)
  | date (time : Int) : Matches same (date time) (date time)
  | binary (bytes : List Nat) : Matches same (binary bytes) (binary bytes)

/-- Whether an alias of the node still stands for the same one when it was written: dates
and binary data are written out again. -/
def Node.shared : Node N → Bool
  | array _ | object _ => true
  | date _ | binary _ => false

/-- A relation of the addresses of two documents that have the same root, and the same
nodes wherever they are reached from it. -/
structure Correspondence (doc other : Document N) (same : Nat → Nat → Prop) : Prop where
  root : Option.Rel (Value.Matches same) doc.root other.root
  nodes : ∀ {address beside}, same address beside → (doc.node address).Matches same (other.node beside)
  identity : ∀ {left leftBeside right rightBeside}, same left leftBeside → same right rightBeside →
    (doc.node left).shared = true → (left = right ↔ leftBeside = rightBeside)

/-- The same document, but for the addresses of its nodes and those that are not reached. -/
def Document.Alike (doc other : Document N) : Prop := ∃ same, Correspondence doc other same

theorem Value.matches_self (value : Value N) : value.Matches Eq value := by
  cases value with
  | null => exact .null
  | boolean value => exact .boolean value
  | number value => exact .number value
  | string value => exact .string value
  | ref address => exact .ref rfl

theorem Node.matches_self (node : Node N) : node.Matches Eq node := by
  cases node with
  | array items => exact .array (List.forall₂_same.mpr fun item _ => item.matches_self)
  | object properties => exact .object (List.forall₂_same.mpr fun property _ => ⟨rfl, property.2.matches_self⟩)
  | date time => exact .date time
  | binary bytes => exact .binary bytes

theorem Document.alike_self (doc : Document N) : doc.Alike doc := by
  refine ⟨Eq, ?_, ?_, ?_⟩
  · cases doc.root with
    | none => exact .none
    | some value => exact .some value.matches_self
  · intro address beside equal
    exact equal ▸ (doc.node address).matches_self
  · intro left leftBeside right rightBeside leftEqual rightEqual _
    rw [leftEqual, rightEqual]

theorem lookup_matches {same : Nat → Nat → Prop} {properties others : List (String × Value N)}
    (matching : List.Forall₂ (fun property other => property.1 = other.1 ∧ property.2.Matches same other.2)
      properties others) (key : String) :
    Option.Rel (Value.Matches same) (lookup properties key) (lookup others key) := by
  induction matching with
  | nil => exact .none
  | @cons property other _ _ first _ ih =>
    obtain ⟨name, value⟩ := property
    obtain ⟨_, beside⟩ := other
    obtain ⟨rfl, holds⟩ := first
    by_cases found : name = key
    · simp only [lookup, if_pos found]
      exact .some holds
    · simpa only [lookup, if_neg found] using ih

theorem has_matches {same : Nat → Nat → Prop} {properties others : List (String × Value N)}
    (matching : List.Forall₂ (fun property other => property.1 = other.1 ∧ property.2.Matches same other.2)
      properties others) (key : String) : has properties key = has others key := by
  unfold has
  induction matching with
  | nil => rfl
  | cons first _ ih => rw [List.any_cons, List.any_cons, ih, first.1]

theorem exists_of_forall₂ {α β : Type} {related : α → β → Prop} {items : List α} {others : List β}
    (matching : List.Forall₂ related items others) {other : β} (listed : other ∈ others) :
    ∃ item ∈ items, related item other := by
  obtain ⟨index, inside, rfl⟩ := List.getElem_of_mem listed
  have inside' : index < items.length := matching.length_eq ▸ inside
  exact ⟨items[index], List.getElem_mem inside', matching.get inside' inside⟩

theorem mapM_forall₂ {related : Value N → Value N → Prop} {f g : Value N → Except JsError String}
    {items others : List (Value N)} (matching : List.Forall₂ related items others)
    (equal : ∀ {item other}, related item other → f item = g other) : items.mapM f = others.mapM g := by
  induction matching with
  | nil => rfl
  | cons first _ ih => rw [List.mapM_cons, List.mapM_cons, equal first, ih]

namespace Correspondence

variable {doc other : Document N} {same : Nat → Nat → Prop} (matching : Correspondence doc other same)
include matching

theorem get_node {address beside : Nat} (related : same address beside) (key : String) :
    Option.Rel (Value.Matches same) ((doc.node address).get key) ((other.node beside).get key) := by
  have nodes := matching.nodes related
  generalize doc.node address = node at nodes
  generalize other.node beside = nodeBeside at nodes
  cases nodes with
  | object properties => exact lookup_matches properties key
  | _ => exact .none

theorem get_string_iff {address beside : Nat} (related : same address beside) (key text : String) :
    (doc.node address).get key = some (.string text) ↔ (other.node beside).get key = some (.string text) := by
  have values := matching.get_node related key
  generalize (doc.node address).get key = value at values
  generalize (other.node beside).get key = valueBeside at values
  cases values with
  | none => rfl
  | some related =>
    cases related with
    | ref => simp
    | _ => rfl

/-- What can be read of one document can be read of the other. -/
theorem get {value beside : Option (Value N)} (related : Option.Rel (Value.Matches same) value beside)
    {key : String} {read : Option (Value N)} (reads : doc.get value key = .ok read) :
    ∃ readBeside, other.get beside key = .ok readBeside ∧ Option.Rel (Value.Matches same) read readBeside := by
  cases related with
  | none => cases reads
  | some related =>
    cases related with
    | null => cases reads
    | ref related =>
      cases reads
      exact ⟨_, rfl, matching.get_node related key⟩
    | _ =>
      cases reads
      exact ⟨none, rfl, .none⟩

/-- The nodes that are visited are arrays, which are shared, so that one is met again in
both documents or in neither. -/
theorem text (numbers : Numbers N) {steps : Nat} {visiting besides : List Nat}
    (visited : List.Forall₂ same visiting besides) {value beside : Value N} (related : value.Matches same beside) :
    doc.text numbers steps visiting value = other.text numbers steps besides beside := by
  induction steps generalizing visiting besides value beside with
  | zero => cases related <;> rfl
  | succ steps ih =>
    cases related with
    | ref related =>
      rename_i address beside
      have nodes := matching.nodes related
      have identity {right rightBeside : Nat} (met : same right rightBeside) := matching.identity related met
      unfold Document.text
      cases held : doc.node address with
      | object properties =>
        rw [held] at nodes
        generalize other.node beside = node at nodes
        cases nodes with
        | object properties => simp only [has_matches properties]
      | date time =>
        rw [held] at nodes
        generalize other.node beside = node at nodes
        cases nodes
        rfl
      | binary bytes =>
        rw [held] at nodes
        generalize other.node beside = node at nodes
        cases nodes
        rfl
      | array items =>
        rw [held] at nodes identity
        have again : address ∈ visiting ↔ beside ∈ besides := by
          clear ih
          induction visited with
          | nil => simp
          | cons first _ ih => rw [List.mem_cons, List.mem_cons, identity first rfl, ih]
        generalize other.node beside = node at nodes
        cases nodes with
        | array items =>
          simp only [again]
          rw [mapM_forall₂ items fun item => ih (.cons related visited) item]
    | _ => rfl

theorem looselyEquals (numbers : Numbers N) {value beside : Option (Value N)}
    (related : Option.Rel (Value.Matches same) value beside) (text : String) :
    doc.looselyEquals numbers value text = other.looselyEquals numbers beside text := by
  cases related with
  | none => rfl
  | some related =>
    cases related with
    | ref related =>
      simp only [Document.looselyEquals]
      rw [Document.text_of_length numbers (Nat.le_add_right doc.nodes.length other.nodes.length),
        Document.text_of_length numbers (Nat.le_add_left other.nodes.length doc.nodes.length),
        matching.text numbers .nil (.ref related)]
    | _ => rfl

end Correspondence

end Taql.Yaml
